import TwoPass.Proofs.Tokens

/-!
How the tokens of a text depend on what stands around it. A word without quotation marks and a quoted
constant are tokens wherever they stand between blanks (`scanFrom_fixed`), whatever is quoted behind them.
Text without quotation marks behind a blank adds its own tokens and changes no others (`scanFrom_append`):
it cannot close a constant that was left open.
-/
namespace TwoPass.Token

open Text

/-- A token ends in front of the text: it is empty, or begins with a blank. -/
def EndsToken (text : List Char) : Prop :=
  ∀ c ∈ text.head?, isBlank c

/-- A text that keeps tokens apart. -/
structure IsGap (text : List Char) : Prop where
  nonempty : text ≠ []
  blank : ∀ c ∈ text, isBlank c

/-- A text with neither blanks nor quotation marks. -/
structure IsWord (text : List Char) : Prop where
  nonempty : text ≠ []
  dark : ∀ c ∈ text, isBlank c = false
  unmarked : mark ∉ text

/-- A text that is a token in front of any text that ends one. -/
inductive Fixed : List Char → Prop
  | word {text : List Char} (isWord : IsWord text) : Fixed text
  | constant {kind : Char} {body : List Char} (isKind : isKind kind) (unmarked : mark ∉ body) :
      Fixed (kind :: mark :: (body ++ [mark]))

instance (text : List Char) : Decidable (EndsToken text) :=
  decidable_of_iff (text.head?.all isBlank) (Option.all_eq_true _ _)

instance (text : List Char) : Decidable (IsGap text) :=
  decidable_of_iff (text ≠ [] ∧ text.all isBlank)
    ⟨fun both => ⟨both.1, List.all_eq_true.mp both.2⟩, fun gap => ⟨gap.nonempty, List.all_eq_true.mpr gap.blank⟩⟩

instance (text : List Char) : Decidable (IsWord text) :=
  decidable_of_iff (text ≠ [] ∧ text.all (!isBlank ·) ∧ mark ∉ text)
    ⟨fun all => ⟨all.1, by simpa using all.2.1, all.2.2⟩, fun word => ⟨word.nonempty, by simpa using word.dark, word.unmarked⟩⟩

theorem mark_notMem_of_blank {text : List Char} (blank : ∀ c ∈ text, isBlank c) : mark ∉ text :=
  fun member => absurd (blank mark member) (by decide)

theorem endsToken_of_blank {text : List Char} (blank : ∀ c ∈ text, isBlank c) : EndsToken text :=
  fun c first => blank c (List.mem_of_mem_head? first)

theorem IsGap.endsToken_append {gap : List Char} (isGap : IsGap gap) (text : List Char) : EndsToken (gap ++ text) := by
  obtain ⟨first, rest, rfl⟩ := List.exists_cons_of_ne_nil isGap.nonempty
  rintro _ ⟨⟩
  exact isGap.blank first List.mem_cons_self

theorem IsWord.append {front back : List Char} (isFront : IsWord front) (isBack : IsWord back) : IsWord (front ++ back) := by
  refine ⟨by simp [isFront.nonempty], ?_, ?_⟩
  · rw [List.forall_mem_append]
    exact ⟨isFront.dark, isBack.dark⟩
  · rw [List.mem_append, not_or]
    exact ⟨isFront.unmarked, isBack.unmarked⟩

theorem takeWhile_append_of_endsToken {back : List Char} (ends : EndsToken back) (text : List Char) :
    (text ++ back).takeWhile (!isBlank ·) = text.takeWhile (!isBlank ·) := by
  induction text with
  | nil =>
    cases back with
    | nil => rfl
    | cons c rest => simp [ends c rfl]
  | cons c rest ih =>
    rw [List.cons_append, List.takeWhile_cons, List.takeWhile_cons, ih]

theorem takeWhile_append_mark {front : List Char} (unmarked : mark ∉ front) (back : List Char) :
    (front ++ mark :: back).takeWhile (· != mark) = front := by
  have others : ∀ c ∈ front, (c != mark) = true := by
    intro c member
    simpa using fun isMark : c = mark => unmarked (isMark ▸ member)
  rw [List.takeWhile_append_of_pos others]
  simp

theorem scanFrom_nil (column : Nat) : scanFrom column [] = [] := by
  unfold scanFrom
  rfl

theorem scanFrom_cons (column : Nat) (c : Char) (rest : List Char) :
    scanFrom column (c :: rest) =
      if isBlank c then scanFrom (column + 1) rest
      else ⟨String.ofList (leading c rest), column⟩ ::
        scanFrom (column + (leading c rest).length) (rest.drop ((leading c rest).length - 1)) := by
  rw [scanFrom.eq_def]

theorem scanFrom_blanks {blanks : List Char} (blank : ∀ c ∈ blanks, isBlank c) (column : Nat) (text : List Char) :
    scanFrom column (blanks ++ text) = scanFrom (column + blanks.length) text := by
  induction blanks generalizing column with
  | nil => rfl
  | cons c rest ih =>
    rw [List.forall_mem_cons] at blank
    rw [List.cons_append, scanFrom_cons, if_pos blank.1, ih blank.2, List.length_cons, Nat.add_assoc, Nat.add_comm 1]

theorem scanFrom_of_blank {blanks : List Char} (blank : ∀ c ∈ blanks, isBlank c) (column : Nat) :
    scanFrom column blanks = [] := by
  have alone := scanFrom_blanks blank column []
  rwa [List.append_nil, scanFrom_nil] at alone

theorem exists_scanFrom_of_dark {text : List Char} {c : Char} (member : c ∈ text) (dark : isBlank c = false)
    (column : Nat) : ∃ first others, scanFrom column text = first :: others := by
  induction text generalizing column with
  | nil => contradiction
  | cons d rest ih =>
    rw [scanFrom_cons]
    split
    next blank =>
      have other : c ≠ d := by
        rintro rfl
        simp [dark] at blank
      exact ih ((List.mem_cons.mp member).resolve_left other) (column + 1)
    next => exact ⟨_, _, rfl⟩

theorem length_leading {c : Char} (dark : isBlank c = false) (rest : List Char) :
    0 < (leading c rest).length ∧ (leading c rest).length ≤ rest.length + 1 := by
  obtain ⟨shape, back, split⟩ := leading_spec dark rest
  have lengths := congrArg List.length split
  rw [List.length_cons, List.length_append] at lengths
  exact ⟨List.length_pos_iff.mpr shape.ne_nil, by omega⟩

/-- A text begins with a token if that is what leads it. -/
theorem scanFrom_of_leading {c : Char} {rest back : List Char} (dark : isBlank c = false)
    (leads : leading c (rest ++ back) = c :: rest) (column : Nat) :
    scanFrom column (c :: rest ++ back) =
      ⟨String.ofList (c :: rest), column⟩ :: scanFrom (column + (c :: rest).length) back := by
  rw [List.cons_append, scanFrom_cons, if_neg (by simp [dark]), leads]
  simp

theorem quotedConstant?_of_unmarked {first : Char} {rest : List Char} (other : rest.head? ≠ some mark) :
    quotedConstant? (first :: rest) = none := by
  cases rest with
  | nil => rfl
  | cons second others =>
    have apart : second ≠ mark := fun isMark => other (by rw [isMark]; rfl)
    simp [quotedConstant?, apart]

theorem leading_word {c : Char} {rest back : List Char} (dark : ∀ d ∈ rest, isBlank d = false) (unmarked : mark ∉ rest)
    (ends : EndsToken back) : leading c (rest ++ back) = c :: rest := by
  have other : (rest ++ back).head? ≠ some mark := by
    cases rest with
    | nil =>
      intro first
      exact absurd (ends mark first) (by decide)
    | cons d others =>
      rintro ⟨⟩
      exact unmarked List.mem_cons_self
  rw [leading, quotedConstant?_of_unmarked other, Option.getD_none, takeWhile_append_of_endsToken ends,
    List.takeWhile_eq_self_iff.mpr fun d member => by simp [dark d member]]

theorem leading_constant {kind : Char} {body : List Char} (isKind : isKind kind) (unmarked : mark ∉ body)
    (back : List Char) :
    leading kind (mark :: (body ++ [mark]) ++ back) = kind :: mark :: (body ++ [mark]) := by
  have marked : mark ∈ body ++ mark :: back := by simp
  rw [List.cons_append, List.append_assoc, List.singleton_append, leading, quotedConstant?,
    if_pos ⟨isKind, rfl, marked⟩, Option.getD_some, takeWhile_append_mark unmarked]

/-- A fixed token is scanned as such wherever a token ends behind it. -/
theorem scanFrom_fixed {text back : List Char} (isFixed : Fixed text) (ends : EndsToken back) (column : Nat) :
    scanFrom column (text ++ back) = ⟨String.ofList text, column⟩ :: scanFrom (column + text.length) back := by
  cases isFixed with
  | word isWord =>
    obtain ⟨nonempty, dark, unmarked⟩ := isWord
    obtain ⟨c, rest, rfl⟩ := List.exists_cons_of_ne_nil nonempty
    rw [List.forall_mem_cons] at dark
    exact scanFrom_of_leading dark.1 (leading_word dark.2 (fun member => unmarked (List.mem_cons_of_mem c member)) ends)
      column
  | constant isKind unmarked =>
    exact scanFrom_of_leading (isBlank_of_isKind isKind) (leading_constant isKind unmarked back) column

theorem quotedConstant?_append {back : List Char} (unmarked : mark ∉ back) (text : List Char) :
    quotedConstant? (text ++ back) = quotedConstant? text := by
  have other : back.head? ≠ some mark := fun first => unmarked (List.mem_of_mem_head? first)
  match text with
  | [] =>
    cases back with
    | nil => rfl
    | cons first rest =>
      exact quotedConstant?_of_unmarked fun second =>
        unmarked (List.mem_cons_of_mem first (List.mem_of_mem_head? second))
  | [first] => exact quotedConstant?_of_unmarked other
  | kind :: opening :: rest =>
    have sameMark : mark ∈ rest ++ back ↔ mark ∈ rest := by simp [unmarked]
    rw [List.cons_append, List.cons_append, quotedConstant?, quotedConstant?]
    simp only [sameMark]
    split
    next opens =>
      -- The constant is closed in front of what stands behind.
      obtain ⟨behind, split⟩ := exists_takeWhile_append_mark opens.2.2
      have closed : mark ∉ rest.takeWhile (· != mark) := fun inside =>
        absurd (List.mem_takeWhile_imp inside) (by decide)
      have front : (rest ++ back).takeWhile (· != mark) = rest.takeWhile (· != mark) := by
        conv => lhs; rw [split]
        rw [List.append_assoc, List.cons_append, takeWhile_append_mark closed]
      rw [front]
    next => rfl

section
variable {back : List Char} (unmarked : mark ∉ back) (ends : EndsToken back)
include unmarked ends

theorem leading_append (c : Char) (rest : List Char) : leading c (rest ++ back) = leading c rest := by
  have quoted := quotedConstant?_append unmarked (c :: rest)
  rw [List.cons_append] at quoted
  rw [leading, leading, quoted, takeWhile_append_of_endsToken ends]

theorem scanFrom_append (column : Nat) (front : List Char) :
    scanFrom column (front ++ back) = scanFrom column front ++ scanFrom (column + front.length) back := by
  fun_induction scanFrom column front with
  | case1 column => rfl
  | case2 column c rest blank ih =>
    rw [List.cons_append, scanFrom_cons, if_pos blank, ih, List.length_cons, Nat.add_assoc, Nat.add_comm 1]
  | case3 column c rest dark token ih =>
    obtain ⟨positive, short⟩ : 0 < token.length ∧ token.length ≤ rest.length + 1 :=
      length_leading (Bool.eq_false_iff.mpr dark) rest
    have inside : token.length - 1 ≤ rest.length := by omega
    have width : column + token.length + (rest.drop (token.length - 1)).length = column + (c :: rest).length := by
      rw [List.length_drop, List.length_cons]
      omega
    rw [List.cons_append, scanFrom_cons, if_neg dark, leading_append unmarked ends]
    change _ :: scanFrom (column + token.length) ((rest ++ back).drop (token.length - 1)) = _
    rw [List.drop_append_of_le_length inside, ih, width]
    rfl

end

/-- Blanks at the end of a text have no part in its tokens. -/
theorem scanFrom_trimEnd {drop : Char → Bool} (blank : ∀ c, drop c → isBlank c) (column : Nat) (text : List Char) :
    scanFrom column (trimEnd drop text) = scanFrom column text := by
  obtain ⟨back, split, dropped⟩ := exists_trimEnd_append drop text
  have blanks : ∀ c ∈ back, isBlank c := fun c member => blank c (dropped c member)
  conv => rhs; rw [split]
  rw [scanFrom_append (mark_notMem_of_blank blanks) (endsToken_of_blank blanks), scanFrom_of_blank blanks,
    List.append_nil]

end TwoPass.Token
