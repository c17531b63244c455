import TwoPass.Dictionary
import TwoPass.Journal
import TwoPass.Text.Blank
import TwoPass.Text.Quoted

/-!
Opcode tables. A table is a text with one mnemonic and its code per line; lines of any
other form are passed over. The six directives are part of every assembly language and
keep their meaning even if a table lists them.
-/
namespace TwoPass

open Text

/-- The statements that direct the assembler instead of the machine. -/
inductive Directive
  | start
  | finish
  | word
  | byte
  | reserveWords
  | reserveBytes
  deriving DecidableEq, Repr

namespace Directive

def name : Directive → String
  | start => "START"
  | finish => "END"
  | word => "WORD"
  | byte => "BYTE"
  | reserveWords => "RESW"
  | reserveBytes => "RESB"

def all : List Directive :=
  [start, finish, word, byte, reserveWords, reserveBytes]

/-- The directive of a name. -/
def ofName? (name : String) : Option Directive :=
  all.find? (·.name = name)

end Directive

/-- The codes of mnemonics, in the order in which the mnemonics first appear. -/
structure OpcodeTable where
  codes : Dictionary String := {}
  deriving DecidableEq, Repr

/-- What an opcode stands for. -/
inductive Operation
  | directive (directive : Directive)
  | instruction (code : String)
  | unknown
  deriving DecidableEq, Repr

namespace OpcodeTable

/-- The mnemonic and the code in a line of two words. -/
def pair? (line : String) : Option (String × String) :=
  match words line with
  | [mnemonic, code] => some (mnemonic, code)
  | _ => none

/-- The table that lines describe; a later line for a mnemonic replaces an earlier one. -/
def ofLines (tableLines : List String) : OpcodeTable :=
  ⟨(tableLines.filterMap pair?).foldl (fun codes (mnemonic, code) => codes.insert mnemonic code) {}⟩

/-- The table that a text describes. -/
def ofText (text : String) : OpcodeTable :=
  ofLines (lines text)

def size (table : OpcodeTable) : Nat :=
  table.codes.size

def mnemonics (table : OpcodeTable) : List String :=
  table.codes.keys

def code? (table : OpcodeTable) (mnemonic : String) : Option String :=
  table.codes.get? mnemonic

/-- What an opcode stands for under this table. -/
def operation (table : OpcodeTable) (opcode : String) : Operation :=
  match Directive.ofName? opcode with
  | some directive => .directive directive
  | none =>
    match table.code? opcode with
    | some code => .instruction code
    | none => .unknown

def isInstruction (table : OpcodeTable) (opcode : String) : Bool :=
  match table.operation opcode with
  | .instruction _ => true
  | _ => false

/-- Whether a token is a directive or stands in the table. -/
def isKeyword (table : OpcodeTable) (token : String) : Bool :=
  (Directive.ofName? token).isSome || table.codes.contains token

/-- Every name that may stand in the opcode field. -/
def knownNames (table : OpcodeTable) : List String :=
  table.mnemonics ++ Directive.all.map Directive.name

/-- A one-line summary. -/
def summary (table : OpcodeTable) : String :=
  "OpcodeTable(" ++ toString table.size ++ " entries)"

/-- The log entry of a line that is passed over, unless it is blank. -/
def ignoredLine? (number : Nat) (line : String) : Option LogEntry :=
  if (words line).isEmpty ∨ (pair? line).isSome then none
  else some ⟨.debug, "OPTAB line " ++ toString number ++ " ignored: " ++
    quoted (String.ofList (trimEnd isBlank line.toList))⟩

/-- The log entries of the lines that are passed over. -/
def ignoredEntries (tableLines : List String) : List LogEntry :=
  (numbered 1 tableLines).filterMap fun (number, line) => ignoredLine? number line

/-- The log of reading a table to its end. -/
def loadingEntries (tableLines : List String) : List LogEntry :=
  ignoredEntries tableLines ++
    [⟨.debug, "Loaded " ++ toString (ofLines tableLines).size ++ " OPTAB entries"⟩]

end OpcodeTable

end TwoPass
