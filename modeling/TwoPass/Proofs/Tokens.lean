import TwoPass.Proofs.Lines
import TwoPass.Statement

/-!
What the fields of a statement can hold. A token is a run without blanks or a quoted constant
(`Token.mem_scanFrom`), so a field has no blank at its ends, and a line of a program gives it no
line boundary (`Statement.parseAll_cells`). A quoted constant may hold tabs all the same.
-/
namespace TwoPass

open Text

namespace Token

/-- The forms of a token. -/
inductive Shape : List Char → Prop
  | run {text : List Char} (nonempty : text ≠ []) (dark : ∀ c ∈ text, isBlank c = false) : Shape text
  | quoted {kind : Char} {body : List Char} (isKind : isKind kind) (unmarked : mark ∉ body) :
      Shape (kind :: mark :: (body ++ [mark]))

theorem isBlank_of_isKind {kind : Char} (isKind : isKind kind) : isBlank kind = false := by
  simp only [Token.isKind, Bool.or_eq_true, beq_iff_eq] at isKind
  rcases isKind with ((rfl | rfl) | rfl) | rfl <;> decide

namespace Shape

variable {text : List Char}

theorem ne_nil (shape : Shape text) : text ≠ [] := by
  cases shape with
  | run nonempty => exact nonempty
  | quoted => nofun

theorem trimBlanks_eq (shape : Shape text) : trimBlanks text = text := by
  cases shape with
  | run _ dark => exact trimBlanks_of_dark dark
  | @quoted kind body isKind =>
    apply trimBlanks_of_ends
    · rintro _ ⟨⟩
      exact isBlank_of_isKind isKind
    · rw [← List.cons_append, ← List.cons_append, List.getLast?_concat]
      rintro _ ⟨⟩
      decide

/-- A token in front of a colon is a run: a quoted constant ends in its mark. -/
theorem dropLast (shape : Shape text) (colon : text.getLast? = some ':') (long : 1 < text.length) :
    Shape text.dropLast := by
  cases shape with
  | run _ dark =>
    apply run
    · rw [← List.length_pos_iff, List.length_dropLast]
      omega
    · exact fun c member => dark c (List.dropLast_subset _ member)
  | quoted =>
    rw [← List.cons_append, ← List.cons_append, List.getLast?_concat] at colon
    exact absurd colon (by decide)

end Shape

/-- A text with a mark in it, cut in front of the first one. -/
theorem exists_takeWhile_append_mark {text : List Char} (marked : mark ∈ text) :
    ∃ back, text = text.takeWhile (· != mark) ++ mark :: back := by
  induction text with
  | nil => contradiction
  | cons c rest ih =>
    by_cases isMark : c = mark
    · exact ⟨rest, by simp [isMark]⟩
    · obtain ⟨back, split⟩ := ih ((List.mem_cons.mp marked).resolve_left (Ne.symm isMark))
      refine ⟨back, ?_⟩
      rw [List.takeWhile_cons_of_pos (by simpa using isMark), List.cons_append, ← split]

/-- The token that a text begins with. -/
theorem leading_spec {c : Char} (dark : isBlank c = false) (rest : List Char) :
    Shape (leading c rest) ∧ ∃ back, c :: rest = leading c rest ++ back := by
  unfold leading
  cases found : quotedConstant? (c :: rest) with
  | none =>
    refine ⟨.run (by simp) ?_, rest.dropWhile (!isBlank ·), by simp⟩
    rw [Option.getD_none, List.forall_mem_cons]
    exact ⟨dark, fun other member => by simpa using List.mem_takeWhile_imp member⟩
  | some constant =>
    unfold quotedConstant? at found
    split at found
    next kind opening body same =>
      obtain ⟨rfl, rfl⟩ := List.cons.inj same
      simp only [Option.ite_none_right_eq_some, Option.some.injEq] at found
      obtain ⟨⟨isKind, rfl, marked⟩, rfl⟩ := found
      obtain ⟨back, split⟩ := exists_takeWhile_append_mark marked
      refine ⟨.quoted isKind ?_, back, ?_⟩
      · intro inside
        exact absurd (List.mem_takeWhile_imp inside) (by decide)
      · rw [Option.getD_some, List.cons_append, List.cons_append, List.append_assoc, List.singleton_append, ← split]
    next => contradiction

/-- Every token has one of the forms, and nothing in it that is not in the text. -/
theorem mem_scanFrom {column : Nat} {text : List Char} {token : Token} (member : token ∈ scanFrom column text) :
    Shape token.text.toList ∧ ∀ c ∈ token.text.toList, c ∈ text := by
  fun_induction scanFrom column text with
  | case1 => contradiction
  | case2 column c rest blank ih =>
    obtain ⟨shape, inside⟩ := ih member
    exact ⟨shape, fun other here => List.mem_cons_of_mem c (inside other here)⟩
  | case3 column c rest dark front ih =>
    rcases List.mem_cons.mp member with rfl | later
    · obtain ⟨shape, back, split⟩ := leading_spec (Bool.eq_false_iff.mpr dark) rest
      rw [String.toList_ofList]
      exact ⟨shape, fun other here => split ▸ List.mem_append_left back here⟩
    · obtain ⟨shape, inside⟩ := ih later
      exact ⟨shape, fun other here => List.mem_cons_of_mem c (List.mem_of_mem_drop (inside other here))⟩

end Token

/-- A text that can stand in a column: no blank at its ends, and no line boundary. -/
structure IsCell (text : String) : Prop where
  trimmed : trimBlanks text.toList = text.toList
  unbroken : ∀ c ∈ text.toList, isBoundary c = false

/-- The fields of a statement can stand in columns; one that is absent is not there as an
    empty text. -/
structure Cells (label : Option String) (opcode : String) (operand : Option String) : Prop where
  label : ∀ text ∈ label, text ≠ "" ∧ IsCell text
  opcode : IsCell opcode
  operand : ∀ text ∈ operand, text ≠ "" ∧ IsCell text

instance (text : String) : Decidable (IsCell text) :=
  decidable_of_iff (trimBlanks text.toList = text.toList ∧ text.toList.all (!isBoundary ·))
    ⟨fun both => ⟨both.1, by simpa using both.2⟩, fun cell => ⟨cell.trimmed, by simpa using cell.unbroken⟩⟩

instance (label : Option String) (opcode : String) (operand : Option String) : Decidable (Cells label opcode operand) :=
  decidable_of_iff ((∀ text ∈ label, text ≠ "" ∧ IsCell text) ∧ IsCell opcode ∧ ∀ text ∈ operand, text ≠ "" ∧ IsCell text)
    ⟨fun all => ⟨all.1, all.2.1, all.2.2⟩, fun cells => ⟨cells.label, cells.opcode, cells.operand⟩⟩

theorem isCell_empty : IsCell "" :=
  ⟨rfl, nofun⟩

theorem isCell_of_dark {text : String} (dark : ∀ c ∈ text.toList, isBlank c = false) : IsCell text where
  trimmed := trimBlanks_of_dark dark
  unbroken := by
    intro c member
    rw [Bool.eq_false_iff]
    intro boundary
    exact absurd (isBlank_of_isBoundary boundary) (by simp [dark c member])

theorem IsCell.exists_dark {text : String} (cell : IsCell text) (nonempty : text ≠ "") :
    ∃ c ∈ text.toList, isBlank c = false := by
  by_contra blank
  have all : text.toList.all isBlank := by simpa using blank
  apply nonempty
  rw [← String.toList_eq_nil_iff, ← cell.trimmed, trimBlanks_of_all_blank all]

namespace Statement

theorem mem_of_mem_splitLabel {settings : Settings} {table : OpcodeTable} {tokens : List Token} {token : Token}
    (member : token ∈ (splitLabel settings table tokens).2) : token ∈ tokens := by
  unfold splitLabel at member
  split at member
  next => contradiction
  next first rest =>
    have later (member : token ∈ rest) : token ∈ first :: rest := List.mem_cons_of_mem first member
    split at member
    next => exact later member
    next =>
      split at member
      next => exact later member
      next =>
        split at member
        next => exact later member
        next => exact member

section
variable {line : String} (unbroken : ∀ c ∈ line.toList, isBoundary c = false)

include unbroken

theorem isCell_of_shape {text : List Char} (shape : Token.Shape text) (inside : ∀ c ∈ text, c ∈ line.toList) :
    String.ofList text ≠ "" ∧ IsCell (String.ofList text) := by
  refine ⟨?_, ?_, ?_⟩
  · rw [Ne, ← String.toList_eq_nil_iff, String.toList_ofList]
    exact shape.ne_nil
  · rw [String.toList_ofList, shape.trimBlanks_eq]
  · rw [String.toList_ofList]
    exact fun c here => unbroken c (inside c here)

theorem isCell_token {token : Token} (member : token ∈ Token.scan line) : token.text ≠ "" ∧ IsCell token.text := by
  obtain ⟨shape, inside⟩ := Token.mem_scanFrom member
  simpa using isCell_of_shape unbroken shape inside

theorem isCell_colonLabel {token : Token} {label : String} (member : token ∈ Token.scan line)
    (found : colonLabel? token.text = some label) : label ≠ "" ∧ IsCell label := by
  obtain ⟨shape, inside⟩ := Token.mem_scanFrom member
  simp only [colonLabel?, Option.ite_none_right_eq_some, Option.some.injEq] at found
  obtain ⟨⟨colon, long⟩, rfl⟩ := found
  apply isCell_of_shape unbroken (shape.dropLast colon long)
  exact fun c here => inside c (List.dropLast_subset _ here)

theorem splitLabel_cells (settings : Settings) (table : OpcodeTable) :
    (∀ label ∈ (splitLabel settings table (Token.scan line)).1, label ≠ "" ∧ IsCell label) ∧
      ∀ token ∈ (splitLabel settings table (Token.scan line)).2, token ∈ Token.scan line := by
  refine ⟨?_, fun token => mem_of_mem_splitLabel⟩
  cases tokens : Token.scan line with
  | nil => nofun
  | cons first rest =>
    have isFirst : first ∈ Token.scan line := tokens ▸ List.mem_cons_self
    simp only [splitLabel]
    split
    next => nofun
    next =>
      split
      next label found =>
        rintro _ ⟨⟩
        exact isCell_colonLabel unbroken isFirst found
      next =>
        split
        next =>
          rintro _ ⟨⟩
          exact isCell_token unbroken isFirst
        next => nofun

end

theorem ofFields_cells {label : Option String} {fields : List Token}
    (labelCell : ∀ text ∈ label, text ≠ "" ∧ IsCell text)
    (fieldCells : ∀ token ∈ fields, token.text ≠ "" ∧ IsCell token.text) (file : String) (number : Int)
    (text : String) :
    let statement := ofFields file number text label fields
    Cells statement.label statement.opcode statement.operand := by
  refine ⟨labelCell, ?_, ?_⟩
  · change IsCell ((fields[0]?.map Token.text).getD "")
    cases opcode : fields[0]? with
    | none => exact isCell_empty
    | some token => exact (fieldCells token (List.mem_of_getElem? opcode)).2
  · intro operand present
    obtain ⟨token, found, rfl⟩ := Option.map_eq_some_iff.mp present
    exact fieldCells token (List.mem_of_getElem? found)

theorem parse?_unbroken {settings : Settings} {table : OpcodeTable} {file line : String} {number : Int}
    {statement : Statement} (unbroken : ∀ c ∈ line.toList, isBoundary c = false)
    (found : parse? settings table file number line = some statement) :
    ∀ c ∈ statement.text.toList, isBoundary c = false := by
  rw [parse?, Option.ite_none_left_eq_some, Option.some.injEq] at found
  obtain ⟨-, rfl⟩ := found
  intro c member
  apply unbroken c
  rw [ofFields, String.toList_ofList] at member
  exact mem_of_mem_trimEnd member

/-- The fields of the statement in a line can stand in columns. -/
theorem parse?_cells {settings : Settings} {table : OpcodeTable} {file line : String} {number : Int}
    {statement : Statement} (unbroken : ∀ c ∈ line.toList, isBoundary c = false)
    (found : parse? settings table file number line = some statement) :
    Cells statement.label statement.opcode statement.operand := by
  have kept := parse?_unbroken unbroken found
  rw [parse?, Option.ite_none_left_eq_some, Option.some.injEq] at found
  obtain ⟨-, rfl⟩ := found
  obtain ⟨label, fields⟩ := splitLabel_cells kept settings table
  apply ofFields_cells
  · intro text present
    exact label text (Option.eq_some_of_filter_eq_some present)
  · exact fun token member => isCell_token kept (fields token member)

/-- The fields of every statement of a program can stand in columns. -/
theorem parseAll_cells {settings : Settings} {table : OpcodeTable} {file source : String} {statement : Statement}
    (member : statement ∈ parseAll settings table file source) :
    Cells statement.label statement.opcode statement.operand := by
  obtain ⟨⟨number, line⟩, isLine, found⟩ := List.mem_filterMap.mp member
  exact parse?_cells (mem_lines (mem_of_mem_numbered isLine)) found

end Statement

end TwoPass
