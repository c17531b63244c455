import TwoPass.Text.Hex
import TwoPass.Text.Lines
import TwoPass.Text.Resemblance

/-!
Diagnostics: what went wrong (`Cause`), how serious it is, and where. A cause holds
everything that its message and hint are made of; `Diagnostic.text` is the form shown to
the user, with the source line, a caret under the column, and the hint.
-/
namespace TwoPass

open Text

/-- The last address of the machine's memory. -/
def maxAddress : Nat := 0xFFFF

/-- A line of a named text, and a column from 1 on when it is known. -/
structure Location where
  file : String
  line : Int
  column : Int := 0
  deriving DecidableEq, Repr

def Location.text (location : Location) : String :=
  let line := location.file ++ ":" ++ toString location.line
  if 0 < location.column then line ++ ":" ++ toString location.column else line

/-- A severity is the word that stands in front of a message. -/
structure Severity where
  name : String
  deriving DecidableEq, Repr

namespace Severity

def error : Severity := ⟨"error"⟩

def warning : Severity := ⟨"warning"⟩

/-- Only the word `warning` marks a warning; anything else counts as an error. -/
def isWarning (severity : Severity) : Bool :=
  severity = warning

end Severity

/-- The kinds of diagnostics that a caller can tell apart. -/
inductive Category
  | general
  | malformedText
  | unreadableInput
  | invalidOperand
  | unknownOpcode
  | unresolvedSymbol
  | duplicateSymbol
  | errorLimit
  deriving DecidableEq, Repr

/-- What went wrong. -/
inductive Cause
  /-- An operand that must be a number or a constant has another form. -/
  | invalidOperand (opcode : String) (operand : Option String) (expected : String)
  /-- An opcode is neither among the known names nor a directive. -/
  | unknownOpcode (opcode : String) (known : List String)
  /-- A symbol is not defined; some that are look similar. -/
  | unresolvedSymbol (symbol : String) (similar : List String)
  /-- A symbol is defined although it was defined before. -/
  | duplicateSymbol (symbol : String) (earlier : Option Location)
  /-- A file cannot be read. -/
  | unreadable (file reason : String)
  /-- As many errors were reported as are allowed. -/
  | errorLimit (limit : Int)
  /-- The opcode table has no entries. -/
  | emptyTable
  /-- The first statement is not START. -/
  | missingStart
  /-- START stands behind another statement. -/
  | lateStart
  /-- No statement is END. -/
  | missingEnd
  /-- A statement stands behind END. -/
  | afterEnd (statement : String)
  /-- A statement would begin behind the last address. -/
  | statementBeyondMemory (counter : Nat)
  /-- A statement would end behind the last address. -/
  | counterBeyondMemory (counter : Nat)
  /-- The opcode table gives an instruction a code that is not two hexadecimal digits. -/
  | notHexByte (opcode code : String)
  /-- A record with object code has no address. -/
  | noAddress (opcode : String)
  /-- A line of the intermediate file has fewer than three columns. -/
  | missingColumns
  /-- The address column of the intermediate file holds no number. -/
  | invalidAddress (address : String)
  /-- A record of an object program is malformed. -/
  | malformedRecord (kind reason : String)
  /-- An object program has no header. -/
  | noHeader (file : String)
  /-- Something a caller reports in its own words. -/
  | remark (category : Category) (message : String) (hint : Option String)
  deriving DecidableEq, Repr

/-- Texts between apostrophes, separated by commas. -/
def listed (names : List String) : String :=
  ", ".intercalate (names.map fun name => "'" ++ name ++ "'")

/-- The suggestion of names that may have been meant. -/
def suggestion (names : List String) : Option String :=
  if names.isEmpty then none else some ("did you mean " ++ listed names ++ "?")

namespace Cause

def category : Cause → Category
  | invalidOperand .. => .invalidOperand
  | unknownOpcode .. => .unknownOpcode
  | unresolvedSymbol .. => .unresolvedSymbol
  | duplicateSymbol .. => .duplicateSymbol
  | unreadable .. => .unreadableInput
  | errorLimit .. => .errorLimit
  | missingColumns | invalidAddress .. | malformedRecord .. | noHeader .. => .malformedText
  | remark category .. => category
  | _ => .general

/-- The operand as a message shows it. -/
def shownOperand : Option String → String
  | none => "<missing>"
  | some operand => if operand.isEmpty then "<missing>" else operand

def message : Cause → String
  | invalidOperand opcode operand _ => "invalid operand '" ++ shownOperand operand ++ "' for " ++ opcode
  | unknownOpcode opcode _ =>
    if opcode.isEmpty then "missing opcode" else "unknown opcode or directive '" ++ opcode ++ "'"
  | unresolvedSymbol symbol _ => "undefined symbol '" ++ symbol ++ "'"
  | duplicateSymbol symbol _ => "duplicate symbol '" ++ symbol ++ "'"
  | unreadable file reason => "cannot read '" ++ file ++ "': " ++ reason
  | errorLimit limit => "too many errors (" ++ toString limit ++ "), stopping"
  | emptyTable => "opcode table is empty"
  | missingStart => "program does not begin with START; assuming start address 0000"
  | lateStart => "START is not the first statement"
  | missingEnd => "missing END directive"
  | afterEnd statement => "statement after END: '" ++ statement ++ "'"
  | statementBeyondMemory counter =>
    "statement at " ++ upperHex 0 counter ++ " is beyond the end of memory (last address " ++
      upperHex 4 maxAddress ++ ")"
  | counterBeyondMemory counter =>
    "location counter " ++ upperHex 0 counter ++ " is beyond the end of memory (" ++
      upperHex 0 (maxAddress + 1) ++ ")"
  | notHexByte opcode code => "opcode table entry for '" ++ opcode ++ "' is not a hex byte: '" ++ code ++ "'"
  | noAddress opcode => "object code for '" ++ opcode ++ "' has no address"
  | missingColumns => "intermediate line needs ADDRESS, LABEL and OPCODE columns"
  | invalidAddress address => "invalid address '" ++ address ++ "' in intermediate file"
  | malformedRecord kind reason => "malformed " ++ kind ++ " record: " ++ reason
  | noHeader file => file ++ ": no header record"
  | remark _ message _ => message

/-- At most this many names are suggested. -/
def maxSuggestions : Nat := 3

/-- How the fault may be mended. -/
def hint : Cause → Option String
  | invalidOperand opcode _ expected => some (opcode ++ " expects " ++ expected)
  | unknownOpcode opcode known => suggestion (closest maxSuggestions opcode known)
  | unresolvedSymbol _ similar => suggestion (similar.take maxSuggestions)
  | duplicateSymbol symbol earlier =>
    earlier.map fun location => "'" ++ symbol ++ "' was first defined at " ++ location.text
  | emptyTable => some "load an opcode table with one 'MNEMONIC CODE' pair per line"
  | remark _ _ hint => hint
  | _ => none

end Cause

/-- A cause with its severity, its place and the source line it stands in. -/
structure Diagnostic where
  cause : Cause
  severity : Severity := .error
  location : Option Location := none
  sourceLine : Option String := none
  deriving DecidableEq, Repr

namespace Diagnostic

def isWarning (diagnostic : Diagnostic) : Bool :=
  diagnostic.severity.isWarning

def category (diagnostic : Diagnostic) : Category :=
  diagnostic.cause.category

def message (diagnostic : Diagnostic) : String :=
  diagnostic.cause.message

def hint (diagnostic : Diagnostic) : Option String :=
  diagnostic.cause.hint

/-- The severity and the message, behind the location if there is one. -/
def headline (diagnostic : Diagnostic) : String :=
  let body := diagnostic.severity.name ++ ": " ++ diagnostic.message
  match diagnostic.location with
  | some location => location.text ++ ": " ++ body
  | none => body

/-- A source line is set in by this much. -/
def indent : Nat := 4

/-- The source line, and a caret under the column if that is known. -/
def excerpt (diagnostic : Diagnostic) : List String :=
  match diagnostic.location, diagnostic.sourceLine with
  | some location, some line =>
    String.ofList (List.replicate indent ' ' ++ line.toList) ::
      if 0 < location.column then
        [String.ofList (List.replicate (indent + location.column.toNat - 1) ' ' ++ ['^'])]
      else []
  | _, _ => []

/-- The line of the hint, unless the hint is empty. -/
def hintLine (diagnostic : Diagnostic) : List String :=
  match diagnostic.hint with
  | some hint => if hint.isEmpty then [] else ["hint: " ++ hint]
  | none => []

/-- The diagnostic as it is shown. -/
def text (diagnostic : Diagnostic) : String :=
  joinLines (diagnostic.headline :: diagnostic.excerpt ++ diagnostic.hintLine)

end Diagnostic

end TwoPass
