import TwoPass.Proofs.Scanning
import TwoPass.Proofs.SourceText

/-!
The fields of a line. With a colon behind the label, or the placeholder in its place, they are read as they
were written, whatever the opcode table lists and whatever stands behind the operand (`parse?_marked`).
Without either, what stands behind the operand counts only in a line of two tokens of which both or neither
are keywords: there it makes a label of the opcode (`CommentLaw`).
-/
namespace TwoPass

open Text

theorem head_dropWhile_isBlank {text rest : List Char} {c : Char} (shape : text.dropWhile isBlank = c :: rest) :
    isBlank c = false := by
  have stops := List.head?_dropWhile_not isBlank text
  rwa [shape] at stops

/-- A text without blanks that a line begins with stands in front of any text that ends a token. -/
theorem prefix_append_iff_of_dark {marker back : List Char} (dark : ∀ c ∈ marker, isBlank c = false)
    (ends : Token.EndsToken back) (front : List Char) : marker <+: front ++ back ↔ marker <+: front := by
  induction front generalizing marker with
  | nil =>
    cases marker with
    | nil => simp
    | cons first rest =>
      have apart : ¬ first :: rest <+: back := by
        rintro ⟨behind, rfl⟩
        exact absurd (ends first rfl) (by simp [dark first List.mem_cons_self])
      simp [apart]
  | cons c others ih =>
    cases marker with
    | nil => simp
    | cons first rest =>
      rw [List.forall_mem_cons] at dark
      rw [List.cons_append, List.cons_prefix_cons, List.cons_prefix_cons, ih dark.2]

namespace Statement

theorem isCommentOrBlank_iff {marker : String} (dark : ∀ c ∈ marker.toList, isBlank c = false) (line : String) :
    isCommentOrBlank marker line ↔
      line.toList.dropWhile isBlank = [] ∨ marker.toList <+: line.toList.dropWhile isBlank := by
  obtain ⟨back, split, blank⟩ := exists_trimEnd_append isBlank (line.toList.dropWhile isBlank)
  have sameMarker : marker.toList <+: trimBlanks line.toList ↔ marker.toList <+: line.toList.dropWhile isBlank := by
    conv => rhs; rw [split]
    exact (prefix_append_iff_of_dark dark (Token.endsToken_of_blank blank) _).symm
  have sameEmpty : trimBlanks line.toList = [] ↔ line.toList.dropWhile isBlank = [] := by
    constructor
    · intro empty
      cases shape : line.toList.dropWhile isBlank with
      | nil => rfl
      | cons c rest =>
        have first : c ∈ line.toList.dropWhile isBlank := shape ▸ List.mem_cons_self
        have kept : c ∈ trimBlanks line.toList := mem_trimEnd first (head_dropWhile_isBlank shape)
        rw [empty] at kept
        contradiction
    · intro empty
      rw [trimBlanks, empty]
      rfl
  simp only [isCommentOrBlank, Bool.or_eq_true, List.isEmpty_iff, List.isPrefixOf_iff_prefix, sameMarker, sameEmpty]

/-- What stands behind a line makes no comment of it. -/
theorem isCommentOrBlank_append {marker line back : String} (dark : ∀ c ∈ marker.toList, isBlank c = false)
    (ends : Token.EndsToken back.toList) (holds : isCommentOrBlank marker line = false) :
    isCommentOrBlank marker (line ++ back) = false := by
  rw [Bool.eq_false_iff, Ne, isCommentOrBlank_iff dark, not_or] at holds ⊢
  obtain ⟨visible, unmarked⟩ := holds
  rw [String.toList_append, List.dropWhile_append, if_neg (by simpa using visible),
    prefix_append_iff_of_dark dark ends]
  exact ⟨by simp [visible], unmarked⟩

/-- The statement that the tokens of a line make. -/
def ofTokens (settings : Settings) (table : OpcodeTable) (file : String) (number : Int) (text : String)
    (tokens : List Token) : Statement :=
  ofFields file number text ((splitLabel settings table tokens).1.filter (· ≠ settings.placeholder))
    (splitLabel settings table tokens).2

/-- The end of a line has no part in its statement but in the text. -/
theorem parse?_eq (settings : Settings) (table : OpcodeTable) (file : String) (number : Int) (line : String) :
    parse? settings table file number line =
      if isCommentOrBlank settings.commentMarker line then none
      else some (ofTokens settings table file number
        (String.ofList (trimEnd (fun c => c = '\r' ∨ c = '\n') line.toList)) (Token.scan line)) := by
  have blank : ∀ c : Char, decide (c = '\r' ∨ c = '\n') → isBlank c := by
    intro c ends
    rcases of_decide_eq_true ends with rfl | rfl <;> decide
  obtain ⟨back, split, dropped⟩ := exists_trimEnd_append (fun c => c = '\r' ∨ c = '\n') line.toList
  have sameTokens : Token.scan (String.ofList (trimEnd (fun c => c = '\r' ∨ c = '\n') line.toList)) = Token.scan line := by
    rw [Token.scan, Token.scan, String.toList_ofList, Token.scanFrom_trimEnd blank]
  have sameTrimmed : trimBlanks (trimEnd (fun c => c = '\r' ∨ c = '\n') line.toList) = trimBlanks line.toList := by
    conv => rhs; rw [split]
    exact (trimBlanks_append (fun c member => blank c (dropped c member)) _).symm
  rw [parse?, sameTokens, isCommentOrBlank, isCommentOrBlank, String.toList_ofList, sameTrimmed]
  rfl

/-- What can stand behind an opcode: nothing, or an operand behind a gap, and any text that ends it. -/
inductive OperandPart : String → Option String → Prop
  | absent : OperandPart "" none
  | present {gap operand comment : String} (isGap : Token.IsGap gap.toList) (isOperand : Token.Fixed operand.toList)
      (ends : Token.EndsToken comment.toList) : OperandPart (gap ++ operand ++ comment) (some operand)

theorem OperandPart.endsToken {behind : String} {operand : Option String} (part : OperandPart behind operand) :
    Token.EndsToken behind.toList := by
  cases part with
  | absent => nofun
  | present isGap =>
    rw [String.toList_append, String.toList_append, List.append_assoc]
    exact isGap.endsToken_append _

theorem OperandPart.head?_scanFrom {behind : String} {operand : Option String} (part : OperandPart behind operand)
    (column : Nat) : (Token.scanFrom column behind.toList).head?.map Token.text = operand := by
  cases part with
  | absent =>
    rw [String.toList_empty, Token.scanFrom_nil]
    rfl
  | present isGap isOperand ends =>
    rw [String.toList_append, String.toList_append, List.append_assoc, Token.scanFrom_blanks isGap.blank,
      Token.scanFrom_fixed isOperand ends]
    simp

section
variable {lead first gap opcode behind : String} {operand : Option String} (blank : ∀ c ∈ lead.toList, isBlank c)
  (isFirst : Token.IsWord first.toList) (isGap : Token.IsGap gap.toList) (isOpcode : Token.IsWord opcode.toList)
  (part : OperandPart behind operand)
include blank isFirst isGap isOpcode part

theorem scan_marked :
    ∃ column opcodeColumn others,
      Token.scan (lead ++ first ++ gap ++ opcode ++ behind) = ⟨first, column⟩ :: ⟨opcode, opcodeColumn⟩ :: others ∧
        others.head?.map Token.text = operand := by
  rw [Token.scan]
  simp only [String.toList_append, List.append_assoc]
  rw [Token.scanFrom_blanks blank, Token.scanFrom_fixed (.word isFirst) (isGap.endsToken_append _),
    Token.scanFrom_blanks isGap.blank, Token.scanFrom_fixed (.word isOpcode) part.endsToken]
  simp only [String.ofList_toList]
  exact ⟨_, _, _, rfl, part.head?_scanFrom _⟩

/-- If its first token tells the label, a line has the opcode and the operand that stand behind it. -/
theorem fields_of_splitLabel {settings : Settings} {table : OpcodeTable} {label : Option String}
    (holds : isCommentOrBlank settings.commentMarker (lead ++ first ++ gap ++ opcode ++ behind) = false)
    (tells : ∀ column rest, splitLabel settings table (⟨first, column⟩ :: rest) = (label, rest)) (file : String)
    (number : Int) :
    (parse? settings table file number (lead ++ first ++ gap ++ opcode ++ behind)).map fields =
      some (label.filter (· ≠ settings.placeholder), opcode, operand) := by
  obtain ⟨column, opcodeColumn, others, tokens, isOperand⟩ := scan_marked blank isFirst isGap isOpcode part
  rw [parse?_eq, holds, ofTokens, tokens, tells]
  cases others with
  | nil =>
    obtain rfl := isOperand
    rfl
  | cons token rest =>
    obtain rfl := isOperand
    rfl

end

theorem isCommentOrBlank_of_first {line : String} {lead : List Char} {c : Char}
    (shape : ∃ rest, line.toList = lead ++ c :: rest) (blank : ∀ d ∈ lead, isBlank d) (dark : isBlank c = false)
    (other : c ≠ '.') : isCommentOrBlank "." line = false := by
  obtain ⟨rest, shape⟩ := shape
  have begins : line.toList.dropWhile isBlank = c :: rest := by
    rw [shape, List.dropWhile_append_of_pos blank, List.dropWhile_cons_of_neg (by simp [dark])]
  have isWord : Token.IsWord ".".toList := by decide +kernel
  rw [Bool.eq_false_iff, Ne, isCommentOrBlank_iff isWord.dark, begins]
  rintro (empty | marked)
  · contradiction
  · exact other (List.cons_prefix_cons.mp marked).1.symm

theorem colonLabel?_append {label : String} (nonempty : label.toList ≠ []) : colonLabel? (label ++ ":") = some label := by
  have colon : (label ++ ":").toList = label.toList ++ [':'] := String.toList_append
  have long : 1 < (label ++ ":").toList.length := by
    rw [colon, List.length_append]
    have positive := List.length_pos_iff.mpr nonempty
    simpa using positive
  rw [colonLabel?, if_pos ⟨by simp [colon], long⟩, colon, List.dropLast_concat, String.ofList_toList]

theorem splitLabel_colon {settings : Settings} (placeholder : settings.placeholder = "-") (table : OpcodeTable)
    {label : String} (nonempty : label.toList ≠ []) (column : Nat) (rest : List Token) :
    splitLabel settings table (⟨label ++ ":", column⟩ :: rest) = (some label, rest) := by
  have other : label ++ ":" ≠ "-" := by
    intro same
    have last := congrArg (·.toList.getLast?) same
    rw [String.toList_append] at last
    simp at last
  simp only [splitLabel, placeholder, if_neg other, colonLabel?_append nonempty]

theorem splitLabel_placeholder (settings : Settings) (table : OpcodeTable) (column : Nat) (rest : List Token) :
    splitLabel settings table (⟨settings.placeholder, column⟩ :: rest) = (none, rest) := by
  simp only [splitLabel, if_true]

/-- With a marker in front of its opcode a line is read field by field, whatever the table lists. -/
theorem parse?_marked {settings : Settings} (marker : settings.commentMarker = ".")
    (placeholder : settings.placeholder = "-") (table : OpcodeTable) (file : String) (number : Int)
    {lead label gap opcode behind : String} {operand : Option String} (blank : ∀ c ∈ lead.toList, isBlank c)
    (isLabel : Token.IsWord label.toList) (begins : label.toList.head? ≠ some '.') (other : label ≠ "-")
    (isGap : Token.IsGap gap.toList) (isOpcode : Token.IsWord opcode.toList) (part : OperandPart behind operand) :
    (parse? settings table file number (lead ++ (label ++ ":") ++ gap ++ opcode ++ behind)).map fields =
        some (some label, opcode, operand) ∧
      (parse? settings table file number (lead ++ "-" ++ gap ++ opcode ++ behind)).map fields =
        some (none, opcode, operand) := by
  constructor
  · obtain ⟨first, others, shape⟩ := List.exists_cons_of_ne_nil isLabel.nonempty
    have isFirst : Token.IsWord (label ++ ":").toList := by
      rw [String.toList_append]
      exact isLabel.append (by decide +kernel)
    have holds : isCommentOrBlank settings.commentMarker (lead ++ (label ++ ":") ++ gap ++ opcode ++ behind) = false := by
      rw [marker]
      refine isCommentOrBlank_of_first (c := first) ?_ blank ?_ ?_
      · simp only [String.toList_append, List.append_assoc, shape, List.cons_append]
        exact ⟨_, rfl⟩
      · exact isLabel.dark first (shape ▸ List.mem_cons_self)
      · rintro rfl
        exact begins (by rw [shape]; rfl)
    have read := fields_of_splitLabel blank isFirst isGap isOpcode part holds
      (splitLabel_colon placeholder table isLabel.nonempty) file number
    have kept : (some label).filter (· ≠ settings.placeholder) = some label := by
      simp [Option.filter, placeholder, other]
    rw [read, kept]
  · have holds : isCommentOrBlank settings.commentMarker (lead ++ "-" ++ gap ++ opcode ++ behind) = false := by
      rw [marker]
      refine isCommentOrBlank_of_first (c := '-') ?_ blank (by decide) (by decide)
      simp only [String.toList_append, List.append_assoc]
      exact ⟨_, rfl⟩
    have isFirst : Token.IsWord "-".toList := by decide +kernel
    have tells : ∀ column rest, splitLabel settings table (⟨"-", column⟩ :: rest) = (none, rest) := by
      rw [← placeholder]
      exact splitLabel_placeholder settings table
    exact fields_of_splitLabel blank isFirst isGap isOpcode part holds tells file number

/-- With a label and an opcode that the table lists, blanks in the operand, and a quotation left open behind it. -/
theorem parse?_marked_colliding :
    let table : OpcodeTable := ⟨⟨[("J", "3C"), ("LDA", "00")]⟩⟩
    (parse? {} table "<input>" 1 "\tLDA: J  x'0 0' isn't C'").map fields = some (some "LDA", "J", some "x'0 0'") ∧
      (parse? {} table "<input>" 1 "\t- J  x'0 0' isn't C'").map fields = some (none, "J", some "x'0 0'") := by
  intro table
  have isOperand : Token.Fixed "x'0 0'".toList := by
    have shape : "x'0 0'".toList = 'x' :: Token.mark :: (['0', ' ', '0'] ++ [Token.mark]) := by decide +kernel
    rw [shape]
    exact .constant (by decide) (by decide)
  have part : OperandPart ("  " ++ "x'0 0'" ++ " isn't C'") (some "x'0 0'") :=
    .present (by decide +kernel) isOperand (by decide +kernel)
  have labelled : "\tLDA: J  x'0 0' isn't C'" = "\t" ++ ("LDA" ++ ":") ++ " " ++ "J" ++ ("  " ++ "x'0 0'" ++ " isn't C'") := by
    decide +kernel
  have unlabelled : "\t- J  x'0 0' isn't C'" = "\t" ++ "-" ++ " " ++ "J" ++ ("  " ++ "x'0 0'" ++ " isn't C'") := by
    decide +kernel
  have blank : ∀ c ∈ "\t".toList, isBlank c := List.all_eq_true.mp (by decide +kernel)
  rw [labelled, unlabelled]
  exact parse?_marked rfl rfl table "<input>" 1 blank (by decide +kernel) (by decide +kernel) (by decide +kernel)
    (by decide +kernel) (by decide +kernel) part

/-- Two tokens of which neither a marker nor the keywords tell whether the first is a label. -/
def Undecided (settings : Settings) (table : OpcodeTable) : List Token → Prop
  | [first, second] =>
    first.text ≠ settings.placeholder ∧ colonLabel? first.text = none ∧
      table.isKeyword first.text = table.isKeyword second.text
  | _ => False

instance (settings : Settings) (table : OpcodeTable) (tokens : List Token) : Decidable (Undecided settings table tokens) :=
  match tokens with
  | [_, _] => inferInstanceAs (Decidable (_ ∧ _))
  | [] => inferInstanceAs (Decidable False)
  | [_] => inferInstanceAs (Decidable False)
  | _ :: _ :: _ :: _ => inferInstanceAs (Decidable False)

/-- The fields of a statement, and where its operand stands. -/
def placedFields (statement : Statement) : Option String × String × Option String × Nat :=
  (statement.label, statement.opcode, statement.operand, statement.operandColumn)

section
variable {settings : Settings} {table : OpcodeTable} {tokens : List Token}

/-- More tokens leave the label of a line with an operand as it is, unless they decide about it. -/
theorem splitLabel_append (decided : ¬ Undecided settings table tokens)
    (operand : 1 < (splitLabel settings table tokens).2.length) (others : List Token) :
    splitLabel settings table (tokens ++ others) =
      ((splitLabel settings table tokens).1, (splitLabel settings table tokens).2 ++ others) := by
  cases tokens with
  | nil => simp [splitLabel] at operand
  | cons first rest =>
    simp only [List.cons_append, splitLabel] at operand ⊢
    split
    next => rfl
    next noPlaceholder =>
      rw [if_neg noPlaceholder] at operand
      cases colon : colonLabel? first.text with
      | some label => rfl
      | none =>
        have same : beginsWithLabel table (first :: (rest ++ others)) = beginsWithLabel table (first :: rest) := by
          cases rest with
          | nil => simp [colon, beginsWithLabel] at operand
          | cons second more =>
            simp only [List.cons_append, beginsWithLabel]
            split
            next keywords =>
              -- With the same keywords there is a third token already.
              cases more with
              | nil => exact absurd ⟨noPlaceholder, colon, keywords⟩ decided
              | cons => rfl
            next => rfl
        dsimp only
        rw [same]
        split <;> rfl

theorem splitLabel_undecided (undecided : Undecided settings table tokens) :
    ∃ first second, tokens = [first, second] ∧ splitLabel settings table tokens = (none, tokens) ∧
      first.text ≠ settings.placeholder ∧ ∀ third others,
        splitLabel settings table (tokens ++ third :: others) = (some first.text, second :: third :: others) := by
  match tokens, undecided with
  | [first, second], ⟨noPlaceholder, colon, keywords⟩ =>
    refine ⟨first, second, rfl, ?_, noPlaceholder, ?_⟩
    · simp [splitLabel, noPlaceholder, colon, beginsWithLabel, keywords]
    · intro third others
      simp [splitLabel, noPlaceholder, colon, beginsWithLabel, keywords]

end

section
variable {settings : Settings} {table : OpcodeTable} {file : String} {number : Int} {line : String} {statement : Statement}
  (read : parse? settings table file number line = some statement)
include read

theorem exists_ofTokens_of_parse? :
    isCommentOrBlank settings.commentMarker line = false ∧
      ∃ text, statement = ofTokens settings table file number text (Token.scan line) := by
  rw [parse?_eq] at read
  split at read
  next => contradiction
  next holds => exact ⟨Bool.eq_false_iff.mpr holds, _, (Option.some.inj read).symm⟩

/-- What stands behind a line only adds tokens to it. -/
theorem parse?_append (dark : ∀ c ∈ settings.commentMarker.toList, isBlank c = false) {back : String}
    (ends : Token.EndsToken back.toList) (unmarked : Token.mark ∉ back.toList) :
    ∃ text, parse? settings table file number (line ++ back) = some (ofTokens settings table file number text
      (Token.scan line ++ Token.scanFrom (1 + line.toList.length) back.toList)) := by
  obtain ⟨holds, -⟩ := exists_ofTokens_of_parse? read
  have tokens : Token.scan (line ++ back) =
      Token.scan line ++ Token.scanFrom (1 + line.toList.length) back.toList := by
    rw [Token.scan, String.toList_append, Token.scanFrom_append unmarked ends]
    rfl
  rw [parse?_eq, isCommentOrBlank_append dark ends holds, tokens]
  exact ⟨_, rfl⟩

end

theorem operand_isSome_ofTokens_iff {settings : Settings} {table : OpcodeTable} {file : String} {number : Int}
    {text : String} {tokens : List Token} :
    (ofTokens settings table file number text tokens).operand.isSome ↔
      1 < (splitLabel settings table tokens).2.length := by
  simp [ofTokens, ofFields]

/-- Neither the text of a line nor tokens behind the operand tell where the fields stand. -/
theorem placedFields_ofTokens_append {settings : Settings} {table : OpcodeTable} {tokens : List Token}
    (decided : ¬ Undecided settings table tokens) (operand : 1 < (splitLabel settings table tokens).2.length)
    (file : String) (number : Int) (text text' : String) (others : List Token) :
    (ofTokens settings table file number text (tokens ++ others)).placedFields =
      (ofTokens settings table file number text' tokens).placedFields := by
  have opcode : 0 < (splitLabel settings table tokens).2.length := by omega
  simp only [placedFields, ofTokens, ofFields, splitLabel_append decided operand, List.getElem?_append_left operand,
    List.getElem?_append_left opcode]

/-- A third token makes a label of the opcode where nothing else tells. -/
theorem ofTokens_undecided {settings : Settings} {table : OpcodeTable} {tokens : List Token}
    (undecided : Undecided settings table tokens) (file : String) (number : Int) (text text' : String) (third : Token)
    (others : List Token) :
    let statement := ofTokens settings table file number text tokens
    let followed := ofTokens settings table file number text' (tokens ++ third :: others)
    followed.label = some statement.opcode ∧ some followed.opcode = statement.operand := by
  obtain ⟨first, second, rfl, alone, noPlaceholder, followed⟩ := splitLabel_undecided undecided
  simp only [ofTokens, ofFields, alone, followed]
  simp [noPlaceholder]

/-- What a comment behind the operand does to the statement of a line. -/
structure CommentLaw (settings : Settings) (table : OpcodeTable) (file : String) (number : Int) (line : String)
    (statement : Statement) : Prop where
  /-- It leaves the fields as they are, -/
  inert : ¬ Undecided settings table (Token.scan line) →
    ∀ gap comment : String, Token.IsGap gap.toList → Token.mark ∉ comment.toList →
      (parse? settings table file number (line ++ (gap ++ comment))).map placedFields = some statement.placedFields
  /-- unless nothing but the number of tokens tells the label: then the opcode becomes the label, and the
      operand the opcode. -/
  shifted : Undecided settings table (Token.scan line) →
    ∀ gap comment : String, Token.IsGap gap.toList → Token.mark ∉ comment.toList →
      (∃ c ∈ comment.toList, isBlank c = false) →
        ∃ commented, parse? settings table file number (line ++ (gap ++ comment)) = some commented ∧
          commented.label = some statement.opcode ∧ some commented.opcode = statement.operand

theorem parse?_commentLaw {settings : Settings} (dark : ∀ c ∈ settings.commentMarker.toList, isBlank c = false)
    {table : OpcodeTable} {file : String} {number : Int} {line : String} {statement : Statement}
    (read : parse? settings table file number line = some statement) (operand : statement.operand.isSome) :
    CommentLaw settings table file number line statement := by
  obtain ⟨-, text, rfl⟩ := exists_ofTokens_of_parse? read
  have behind : ∀ gap comment : String, Token.IsGap gap.toList → Token.mark ∉ comment.toList →
      Token.EndsToken (gap ++ comment).toList ∧ Token.mark ∉ (gap ++ comment).toList := by
    intro gap comment isGap unmarked
    rw [String.toList_append, List.mem_append, not_or]
    exact ⟨isGap.endsToken_append _, Token.mark_notMem_of_blank isGap.blank, unmarked⟩
  constructor
  · intro decided gap comment isGap unmarked
    obtain ⟨ends, unmarked⟩ := behind gap comment isGap unmarked
    obtain ⟨text', appended⟩ := parse?_append read dark ends unmarked
    rw [appended, Option.map_some,
      placedFields_ofTokens_append decided (operand_isSome_ofTokens_iff.mp operand) file number text' text]
  · rintro undecided gap comment isGap unmarked ⟨c, member, visible⟩
    obtain ⟨ends, unmarked⟩ := behind gap comment isGap unmarked
    obtain ⟨text', appended⟩ := parse?_append read dark ends unmarked
    have inBack : c ∈ (gap ++ comment).toList := by
      rw [String.toList_append]
      exact List.mem_append_right _ member
    obtain ⟨third, others, more⟩ := Token.exists_scanFrom_of_dark inBack visible (1 + line.toList.length)
    rw [more] at appended
    exact ⟨_, appended, ofTokens_undecided undecided file number text text' third others⟩

/-- The operand is a quotation left open, which the comment does not close. -/
theorem parse?_commentLaw_open :
    let table : OpcodeTable := ⟨⟨[("LDA", "00")]⟩⟩
    let statement : Statement :=
      { line := 3, text := "BYTE C'EOF", opcode := "BYTE", operand := some "C'EOF", operandColumn := 6 }
    parse? {} table "<input>" 3 "BYTE C'EOF" = some statement ∧ ¬ Undecided {} table (Token.scan "BYTE C'EOF") ∧
      CommentLaw {} table "<input>" 3 "BYTE C'EOF" statement := by
  intro table statement
  have isWord : Token.IsWord ".".toList := by decide +kernel
  have read : parse? {} table "<input>" 3 "BYTE C'EOF" = some statement := by decide +kernel
  exact ⟨read, by decide +kernel, parse?_commentLaw isWord.dark read rfl⟩

end Statement

end TwoPass
