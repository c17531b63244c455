import TwoPass.OpcodeTable
import TwoPass.Settings
import TwoPass.Token

/-!
Statements of a source program: at most a label, an opcode and an operand per line.
A colon behind the first token, or the placeholder in its place, tells whether the line
has a label; otherwise the shape of the line does, given which tokens are keywords.
-/
namespace TwoPass

open Text

/-- One line of a program that is no comment. -/
structure Statement where
  line : Int
  text : String
  opcode : String
  label : Option String := none
  operand : Option String := none
  file : String := "<input>"
  /-- The column of the operand, or 0 if there is none. -/
  operandColumn : Nat := 0
  deriving DecidableEq, Repr

namespace Statement

/-- The line of a statement. -/
def location (statement : Statement) : Location :=
  ⟨statement.file, statement.line, 0⟩

/-- The place of the operand. -/
def operandLocation (statement : Statement) : Location :=
  ⟨statement.file, statement.line, statement.operandColumn⟩

/-- Whether a line holds no statement: it is blank, or begins with the comment marker. -/
def isCommentOrBlank (marker line : String) : Bool :=
  let trimmed := trimBlanks line.toList
  trimmed.isEmpty || marker.toList.isPrefixOf trimmed

/-- Whether the first of the tokens is a label, when no marker tells. Of two tokens the
    keyword is the opcode; if both or neither are keywords, a third token decides. -/
def beginsWithLabel (table : OpcodeTable) : List Token → Bool
  | first :: second :: rest =>
    let firstIsKeyword := table.isKeyword first.text
    let secondIsKeyword := table.isKeyword second.text
    if firstIsKeyword = secondIsKeyword then !rest.isEmpty else secondIsKeyword
  | _ => false

/-- The label in front of a colon, if a token has both. -/
def colonLabel? (token : String) : Option String :=
  if token.toList.getLast? = some ':' ∧ 1 < token.toList.length then some (String.ofList token.toList.dropLast)
  else none

/-- The label of a line and the tokens of its other fields. -/
def splitLabel (settings : Settings) (table : OpcodeTable) (tokens : List Token) : Option String × List Token :=
  match tokens with
  | [] => (none, [])
  | first :: rest =>
    if first.text = settings.placeholder then (none, rest)
    else match colonLabel? first.text with
      | some label => (some label, rest)
      | none => if beginsWithLabel table tokens then (some first.text, rest) else (none, tokens)

/-- The statement that the fields of a line make. -/
def ofFields (file : String) (line : Int) (text : String) (label : Option String) (fields : List Token) : Statement :=
  { line, text, label, file
    opcode := (fields[0]?.map Token.text).getD ""
    operand := fields[1]?.map Token.text
    operandColumn := (fields[1]?.map Token.column).getD 0 }

/-- The statement in a line, if there is one. -/
def parse? (settings : Settings) (table : OpcodeTable) (file : String) (number : Int) (line : String) :
    Option Statement :=
  let text := String.ofList (trimEnd (fun c => c = '\r' ∨ c = '\n') line.toList)
  if isCommentOrBlank settings.commentMarker text then none
  else
    let (label, fields) := splitLabel settings table (Token.scan text)
    some (ofFields file number text (label.filter (· ≠ settings.placeholder)) fields)

/-- The statements of a program, in order, numbered by their lines. -/
def parseAll (settings : Settings) (table : OpcodeTable) (file source : String) : List Statement :=
  (numbered 1 (lines source)).filterMap fun (number, line) => parse? settings table file number line

end Statement

end TwoPass
