/-!
Cutting a text at separators. `pieces` drops a separator together with nothing behind
the last one, so it reads terminated items; `fields` keeps an empty last item, so it
reads separated items.
-/
namespace TwoPass.Text

/-- Puts a character in front of the first item. -/
def extendFirst (c : Char) : List (List Char) → List (List Char)
  | [] => [[c]]
  | first :: rest => (c :: first) :: rest

/-- The items that characters satisfying `ends` terminate, and what stands behind the
    last of them unless that is empty. -/
def pieces (ends : Char → Bool) : List Char → List (List Char)
  | [] => []
  | c :: rest => if ends c then [] :: pieces ends rest else extendFirst c (pieces ends rest)

/-- The items between occurrences of a separator, always one more than there are
    separators. -/
def fields (separator : Char) : List Char → List (List Char)
  | [] => [[]]
  | c :: rest =>
    if c = separator then [] :: fields separator rest else extendFirst c (fields separator rest)

/-- Items with a number, counted from `first`. -/
def numbered {α : Type} (first : Nat) : List α → List (Nat × α)
  | [] => []
  | item :: rest => (first, item) :: numbered (first + 1) rest

end TwoPass.Text
