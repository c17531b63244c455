import Std.Data.TreeMap
import TwoPass.Text.Split

/-!
Names that resemble a word, for hints about misspellings. Two texts resemble each other
by how many characters they share in matching blocks: the longest common block, then
the longest ones on either side of it, and so on. `closest` ranks names by the ratio of
shared characters to all characters and keeps those with a ratio of at least three fifths.
-/
namespace TwoPass.Text

/-- A block of equal characters: where it begins in two texts, and its size. -/
structure Block where
  left : Nat
  right : Nat
  size : Nat
  deriving Repr

/-- The columns of a text, from 1 on, in which each character stands, for all characters
    but those in `common`. -/
def columnsOf (common text : List Char) : Std.TreeMap Char (List Nat) :=
  (numbered 1 text).foldr (fun (column, c) columns =>
    if common.contains c then columns else columns.insert c (column :: columns.getD c [])) {}

/-- The size of the first of some runs, given by column and size, if it ends right before `column`. -/
def sizeBefore (column : Nat) : List (Nat × Nat) → Nat
  | [] => 0
  | (last, size) :: _ => if last + 1 = column then size else 0

/-- The common runs that end in the given columns, by column and size, from those that end
    one character earlier in the other text. Columns ascend. -/
def nextRuns : List Nat → List (Nat × Nat) → List (Nat × Nat)
  | [], _ => []
  | column :: columns, runs =>
    let near := runs.dropWhile (·.1 + 1 < column)
    (column, sizeBefore column near + 1) :: nextRuns columns near

/-- The block kept so far, or the first longer one among the runs that end at `row`. -/
def longerBlock (row : Nat) (best : Block) (runs : List (Nat × Nat)) : Block :=
  runs.foldl (fun best (column, size) =>
    if best.size < size then ⟨row - size, column - size, size⟩ else best) best

/-- The longest common run of characters that are not in `common`, the first one in
    `left`, and then in `right`, of several. -/
def longestRun (common left right : List Char) : Block :=
  let columns := columnsOf common right
  ((numbered 1 left).foldl (fun (best, runs) (row, c) =>
    let runs := nextRuns (columns.getD c []) runs
    (longerBlock row best runs, runs)) ((⟨0, 0, 0⟩ : Block), [])).1

/-- How many characters two texts have in common at their front. -/
def commonFront : List Char → List Char → Nat
  | c :: left, d :: right => if c = d then commonFront left right + 1 else 0
  | _, _ => 0

/-- The longest common run, continued on both sides over equal characters of any kind. -/
def longestBlock (common left right : List Char) : Block :=
  let run := longestRun common left right
  let before := commonFront (left.take run.left).reverse (right.take run.right).reverse
  let behind := commonFront (left.drop (run.left + run.size)) (right.drop (run.right + run.size))
  ⟨run.left - before, run.right - before, before + run.size + behind⟩

/-- The number of characters in matching blocks. -/
def sharedCharacters (common left right : List Char) : Nat :=
  let block := longestBlock common left right
  if 0 < block.size ∧ block.left + block.size ≤ left.length then
    sharedCharacters common (left.take block.left) (right.take block.right) + block.size +
      sharedCharacters common (left.drop (block.left + block.size)) (right.drop (block.right + block.size))
  else 0
termination_by left.length
decreasing_by
  all_goals
    simp only [List.length_take, List.length_drop]
    subst block
    omega

/-- The characters of a word that are too common to make up a run: in a word of 200
    characters or more, those that make up more than about a hundredth of it. -/
def commonCharacters (word : List Char) : List Char :=
  if word.length < 200 then []
  else
    let bound := word.length / 100 + 1
    word.eraseDups.filter fun c => bound < word.count c

/-- A name with the ratio `shared / total` by which it resembles a word. -/
structure Candidate where
  name : String
  shared : Nat
  total : Nat
  deriving Repr

/-- A name compared with a word whose common characters are given; two empty texts
    resemble each other fully. -/
def Candidate.of (common : List Char) (word name : String) : Candidate :=
  let total := name.length + word.length
  if total = 0 then ⟨name, 1, 1⟩
  else ⟨name, 2 * sharedCharacters common name.toList word.toList, total⟩

/-- Whether the ratio is at least three fifths. -/
def Candidate.resembles (candidate : Candidate) : Bool :=
  3 * candidate.total ≤ 5 * candidate.shared

/-- Higher ratios come first, and among equal ones the later name. -/
def Candidate.precedes (first second : Candidate) : Bool :=
  let firstShare := first.shared * second.total
  let secondShare := second.shared * first.total
  secondShare < firstShare || (firstShare == secondShare && !(first.name < second.name))

/-- Whether the lengths alone allow a ratio of at least three fifths. -/
def lengthsAllow (word name : String) : Bool :=
  3 * (name.length + word.length) ≤ 10 * min name.length word.length

/-- The at most `count` names that resemble a word most, the best first. -/
def closest (count : Nat) (word : String) (names : List String) : List String :=
  let common := commonCharacters word.toList
  let candidates := ((names.filter (lengthsAllow word)).map (Candidate.of common word)).filter Candidate.resembles
  ((candidates.mergeSort Candidate.precedes).take count).map Candidate.name

end TwoPass.Text
