import Mathlib.Data.List.Basic
import TwoPass.Proofs.LineFields
import TwoPass.Proofs.OperandFaults

/-!
Where the tokens of a line stand. A scan passes over blanks and takes tokens off the text (`Scans`), so
that tokens stand apart, each at its column, and only blanks are left between them (`Partition`). A
statement has its operand from one of them, which is why the caret below a quoted line stands under the
first character of an operand that is refused (`layoutEvents_pointed`).
-/
namespace TwoPass

open Text

namespace Token

/-- What a scan makes of a text whose first character stands in a column. -/
inductive Scans : Nat → List Char → List Token → Prop
  | done {column : Nat} : Scans column [] []
  | blank {column : Nat} {c : Char} {rest : List Char} {tokens : List Token} (isBlank : isBlank c)
      (scans : Scans (column + 1) rest tokens) : Scans column (c :: rest) tokens
  | token {column : Nat} {front back : List Char} {tokens : List Token} (shape : Shape front)
      (scans : Scans (column + front.length) back tokens) :
      Scans column (front ++ back) (⟨String.ofList front, column⟩ :: tokens)

theorem scanFrom_scans (column : Nat) (text : List Char) : Scans column text (scanFrom column text) := by
  fun_induction scanFrom column text with
  | case1 => exact .done
  | case2 column c rest blank ih => exact .blank blank ih
  | case3 column c rest dark front ih =>
    obtain ⟨shape, back, split⟩ := leading_spec (Bool.eq_false_iff.mpr dark) rest
    -- What is dropped behind the first character is the rest of the token.
    have behind : rest.drop (front.length - 1) = back := by
      have positive : 1 ≤ front.length := List.length_pos_iff.mpr shape.ne_nil
      calc rest.drop (front.length - 1)
        _ = (c :: rest).drop front.length := by rw [← List.drop_succ_cons, Nat.sub_add_cancel positive]
        _ = (front ++ back).drop front.length := by rw [split]
        _ = back := List.drop_left
    rw [behind] at ih ⊢
    rw [split]
    exact .token shape ih

/-- A token takes up a column. -/
def Occupies (token : Token) (column : Nat) : Prop :=
  token.column ≤ column ∧ column < token.column + token.text.length

namespace Scans

variable {column : Nat} {text : List Char} {tokens : List Token} (scans : Scans column text tokens)
include scans

theorem shape {token : Token} (member : token ∈ tokens) : Shape token.text.toList := by
  induction scans with
  | done => contradiction
  | blank _ _ ih => exact ih member
  | token shape _ ih =>
    rcases List.mem_cons.mp member with rfl | later
    · rwa [String.toList_ofList]
    · exact ih later

theorem column_le {token : Token} (member : token ∈ tokens) : column ≤ token.column := by
  induction scans with
  | done => contradiction
  | blank _ _ ih =>
    have := ih member
    omega
  | token _ _ ih =>
    rcases List.mem_cons.mp member with rfl | later
    · rfl
    · have := ih later
      omega

/-- A token ends in front of the next one. -/
theorem apart : tokens.Pairwise fun first second => first.column + first.text.length ≤ second.column := by
  induction scans with
  | done => exact .nil
  | blank _ _ ih => exact ih
  | token shape scans ih =>
    refine .cons ?_ ih
    intro second later
    have := scans.column_le later
    simpa using this

/-- A token stands at its column. -/
theorem stands {token : Token} (member : token ∈ tokens) : token.text.toList <+: text.drop (token.column - column) := by
  induction scans with
  | done => contradiction
  | @blank column c rest tokens _ scans ih =>
    have behind := scans.column_le member
    rw [show token.column - column = token.column - (column + 1) + 1 by omega, List.drop_succ_cons]
    exact ih member
  | @token column front back tokens _ scans ih =>
    rcases List.mem_cons.mp member with rfl | later
    · simp
    · have behind := scans.column_le later
      rw [show token.column - column = front.length + (token.column - (column + front.length)) by omega,
        List.drop_length_add_append]
      exact ih later

/-- Whatever is not blank is in a token. -/
theorem exists_occupies {index : Nat} {c : Char} (here : text[index]? = some c) (dark : isBlank c = false) :
    ∃ token ∈ tokens, token.Occupies (column + index) := by
  induction scans generalizing index with
  | done => contradiction
  | @blank column other rest tokens isBlank _ ih =>
    cases index with
    | zero =>
      obtain rfl := Option.some.inj here
      simp [dark] at isBlank
    | succ index =>
      obtain ⟨token, member, occupies⟩ := ih here
      rw [Nat.add_assoc, Nat.add_comm 1] at occupies
      exact ⟨token, member, occupies⟩
  | @token column front back tokens _ _ ih =>
    by_cases inside : index < front.length
    · refine ⟨_, List.mem_cons_self, Nat.le_add_right _ _, ?_⟩
      simpa using inside
    · rw [List.getElem?_append_right (by omega)] at here
      obtain ⟨token, member, occupies⟩ := ih here
      rw [show column + front.length + (index - front.length) = column + index by omega] at occupies
      exact ⟨token, List.mem_cons_of_mem _ member, occupies⟩

end Scans

/-- Tokens that stand apart share no column. -/
theorem eq_of_occupies {tokens : List Token} {first second : Token} {column : Nat}
    (apart : tokens.Pairwise fun first second => first.column + first.text.length ≤ second.column)
    (isFirst : first ∈ tokens) (isSecond : second ∈ tokens) (takes : first.Occupies column)
    (takes' : second.Occupies column) : first = second := by
  obtain ⟨begun, inside⟩ := takes
  obtain ⟨begun', inside'⟩ := takes'
  induction apart with
  | nil => contradiction
  | cons before _ ih =>
    rcases List.mem_cons.mp isFirst with rfl | firstLater
    · rcases List.mem_cons.mp isSecond with rfl | secondLater
      · rfl
      · have := before second secondLater
        omega
    · rcases List.mem_cons.mp isSecond with rfl | secondLater
      · have := before first firstLater
        omega
      · exact ih firstLater secondLater

/-- How tokens lie in a line. -/
structure Partition (line : String) (tokens : List Token) : Prop where
  nonempty : ∀ token ∈ tokens, token.text ≠ ""
  ascending : tokens.Pairwise fun first second => first.column < second.column
  /-- A token ends in front of the next one. -/
  apart : tokens.Pairwise fun first second => first.column + first.text.length ≤ second.column
  /-- A token is what stands in the line from its column on. -/
  slices : ∀ token ∈ tokens,
    1 ≤ token.column ∧ token.text.toList = (line.toList.drop (token.column - 1)).take token.text.length
  /-- What is not blank is in exactly one token, -/
  covers : ∀ index c, line.toList[index]? = some c → isBlank c = false →
    ∃! token, token ∈ tokens ∧ token.Occupies (index + 1)
  /-- and only quoted constants hold blanks. -/
  blanks : ∀ token ∈ tokens, (∃ c ∈ token.text.toList, isBlank c) →
    ∃ kind body, isKind kind ∧ mark ∉ body ∧ token.text.toList = kind :: mark :: (body ++ [mark])

theorem scan_partition (line : String) : Partition line (scan line) := by
  have scans : Scans 1 line.toList (scan line) := scanFrom_scans 1 line.toList
  generalize scan line = tokens at scans
  have nonempty {token : Token} (member : token ∈ tokens) : 0 < token.text.length := by
    rw [← String.length_toList]
    exact List.length_pos_iff.mpr (scans.shape member).ne_nil
  refine ⟨?_, ?_, scans.apart, ?_, ?_, ?_⟩
  · rintro token member empty
    simpa [empty] using nonempty member
  · apply scans.apart.imp_of_mem
    intro first second isFirst _ before
    have := nonempty isFirst
    omega
  · intro token member
    refine ⟨scans.column_le member, ?_⟩
    rw [← String.length_toList]
    exact List.prefix_iff_eq_take.mp (scans.stands member)
  · intro index c here dark
    obtain ⟨token, member, occupies⟩ := scans.exists_occupies here dark
    rw [Nat.add_comm] at occupies
    refine ⟨token, ⟨member, occupies⟩, ?_⟩
    rintro other ⟨isOther, occupies'⟩
    exact eq_of_occupies scans.apart isOther member occupies' occupies
  · rintro token member ⟨c, inside, isBlank⟩
    have shape := scans.shape member
    generalize token.text.toList = text at shape inside
    cases shape with
    | run _ dark => simp [dark c inside] at isBlank
    | @quoted kind body isKind unmarked => exact ⟨kind, body, isKind, unmarked, rfl⟩

end Token

namespace Statement

theorem scan_of_visible {marker text : String} (visible : ¬ isCommentOrBlank marker text) : Token.scan text ≠ [] := by
  have dark : ∃ c ∈ text.toList, isBlank c = false := by
    by_contra blank
    have all : text.toList.all isBlank := by simpa using blank
    simp [isCommentOrBlank, trimBlanks_of_all_blank all] at visible
  obtain ⟨c, member, dark⟩ := dark
  obtain ⟨first, others, tokens⟩ := Token.exists_scanFrom_of_dark member dark 1
  rw [Token.scan, tokens]
  exact List.cons_ne_nil first others

/-- The text of a statement has tokens, and its operand stands in it at its column. -/
structure Anchored (statement : Statement) : Prop where
  tokens : Token.scan statement.text ≠ []
  operand : ∀ operand ∈ statement.operand, operand ≠ "" ∧ 1 ≤ statement.operandColumn ∧
    operand.toList <+: statement.text.toList.drop (statement.operandColumn - 1)

theorem ofFields_anchored (file : String) (number : Int) {text : String} (label : Option String) {fields : List Token}
    (tokens : Token.scan text ≠ []) (among : ∀ token ∈ fields, token ∈ Token.scan text) :
    (ofFields file number text label fields).Anchored := by
  refine ⟨tokens, ?_⟩
  intro operand present
  obtain ⟨token, field, rfl⟩ := Option.map_eq_some_iff.mp present
  have column : (ofFields file number text label fields).operandColumn = token.column := by
    rw [ofFields, field]
    rfl
  have scans : Token.Scans 1 text.toList (Token.scan text) := Token.scanFrom_scans 1 text.toList
  have member := among token (List.mem_of_getElem? field)
  rw [column]
  refine ⟨?_, scans.column_le member, scans.stands member⟩
  rw [Ne, ← String.toList_eq_nil_iff]
  exact (scans.shape member).ne_nil

theorem parse?_anchored {settings : Settings} {table : OpcodeTable} {file line : String} {number : Int}
    {statement : Statement} (found : parse? settings table file number line = some statement) : statement.Anchored := by
  rw [parse?, Option.ite_none_left_eq_some, Option.some.injEq] at found
  obtain ⟨visible, rfl⟩ := found
  exact ofFields_anchored file number _ (scan_of_visible visible) fun token => mem_of_mem_splitLabel

theorem parseAll_anchored {settings : Settings} {table : OpcodeTable} {file source : String} {statement : Statement}
    (member : statement ∈ parseAll settings table file source) :
    statement.Anchored ∧ ∀ c ∈ statement.text.toList, isBoundary c = false := by
  obtain ⟨⟨number, line⟩, isLine, found⟩ := List.mem_filterMap.mp member
  exact ⟨parse?_anchored found, parse?_unbroken (mem_lines (mem_of_mem_numbered isLine)) found⟩

end Statement

/-- In a report, the caret below the quoted line stands under the first character of a text. -/
def Diagnostic.PointsAt (report : Diagnostic) (text : String) : Prop :=
  ∃ line quoted width, report.sourceLine = some line ∧
    quoted = String.ofList (List.replicate indent ' ' ++ line.toList) ∧
    report.text = joinLines (report.headline :: quoted ::
      String.ofList (List.replicate width ' ' ++ ['^']) :: report.hintLine) ∧
    text.toList <+: quoted.toList.drop width ∧ ∀ c ∈ quoted.toList, isBoundary c = false

theorem Layout.invalidOperand_pointsAt {statement : Statement} {operand : String} (anchored : statement.Anchored)
    (unbroken : ∀ c ∈ statement.text.toList, isBoundary c = false) (present : statement.operand = some operand)
    (fault : OperandFault) : (invalidOperand statement fault).PointsAt operand := by
  obtain ⟨nonempty, positive, stands⟩ := anchored.operand operand present
  have location : (invalidOperand statement fault).location = some statement.operandLocation := by
    rw [invalidOperand, present, Option.getD_some, if_neg (by simpa using nonempty)]
  have visible : (0 : Int) < statement.operandLocation.column := Int.natCast_pos.mpr positive
  have width : Diagnostic.indent + statement.operandLocation.column.toNat - 1 =
      Diagnostic.indent + (statement.operandColumn - 1) := Nat.add_sub_assoc positive Diagnostic.indent
  have excerpt : (invalidOperand statement fault).excerpt =
      [String.ofList (List.replicate Diagnostic.indent ' ' ++ statement.text.toList),
        String.ofList (List.replicate (Diagnostic.indent + (statement.operandColumn - 1)) ' ' ++ ['^'])] := by
    rw [Diagnostic.excerpt, location]
    dsimp only [invalidOperand]
    rw [if_pos visible, width]
  refine ⟨statement.text, _, Diagnostic.indent + (statement.operandColumn - 1), rfl, rfl, ?_, ?_, ?_⟩
  · rw [Diagnostic.text, excerpt]
    rfl
  · rw [String.toList_ofList, ← List.drop_drop, List.drop_left' List.length_replicate]
    exact stands
  · rw [String.toList_ofList, List.forall_mem_append]
    refine ⟨?_, unbroken⟩
    intro c member
    rw [List.eq_of_mem_replicate member]
    decide

/-- Where a present operand is refused, the caret stands under it. -/
theorem layoutEvents_pointed {settings : Settings} {table : OpcodeTable} {statements : List Statement}
    {report : Diagnostic} {opcode operand expected : String}
    (anchored : ∀ statement ∈ statements,
      statement.Anchored ∧ ∀ c ∈ statement.text.toList, isBoundary c = false)
    (member : report ∈ diagnosticsOf (layoutEvents settings table statements))
    (cause : report.cause = .invalidOperand opcode (some operand) expected) : report.PointsAt operand := by
  have invalid : report.category = .invalidOperand := by rw [Diagnostic.category, cause, Cause.category]
  obtain ⟨statement, isStatement, -, fault, -, -, rfl⟩ := layoutEvents_refused member invalid
  obtain ⟨anchored, unbroken⟩ := anchored statement isStatement
  have present : statement.operand = some operand := (Cause.invalidOperand.inj cause).2.1
  exact Layout.invalidOperand_pointsAt anchored unbroken present fault

/-- Where tokens, operands and carets stand. -/
structure CaretLaw (settings : Settings) (table : OpcodeTable) (file : String) : Prop where
  tokens : ∀ line, Token.Partition line (Token.scan line)
  /-- A line that is neither blank nor a comment has tokens, and a statement with its operand at its column. -/
  statements : ∀ number line, ¬ Statement.isCommentOrBlank settings.commentMarker line →
    Token.scan line ≠ [] ∧
      ∃ statement, Statement.parse? settings table file number line = some statement ∧ statement.Anchored
  /-- An operand that the layout refuses has the caret under its first character. -/
  carets : ∀ source settings' table',
    ∀ report ∈ diagnosticsOf (layoutEvents settings' table' (Statement.parseAll settings table file source)),
      ∀ opcode operand expected, report.cause = .invalidOperand opcode (some operand) expected → report.PointsAt operand

theorem lines_caretLaw (settings : Settings) (table : OpcodeTable) (file : String) : CaretLaw settings table file := by
  refine ⟨Token.scan_partition, ?_, ?_⟩
  · intro number line visible
    obtain ⟨statement, found⟩ : ∃ statement, Statement.parse? settings table file number line = some statement := by
      rw [Statement.parse?_eq, if_neg visible]
      exact ⟨_, rfl⟩
    exact ⟨Statement.scan_of_visible visible, statement, found, Statement.parse?_anchored found⟩
  · intro source settings' table' report member opcode operand expected cause
    exact layoutEvents_pointed (fun statement => Statement.parseAll_anchored) member cause

example :
    ((diagnosticsOf (layoutEvents {} {} (Statement.parseAll {} {} "prog.asm" "BUF\tRESW C'A B' left\n"))).filter
        (·.category = .invalidOperand)).map Diagnostic.excerpt =
      [["    BUF\tRESW C'A B' left", "             ^"]] := by
  decide +kernel

end TwoPass
