import TwoPass.Journal
import TwoPass.Operand
import TwoPass.Record
import TwoPass.Statement
import TwoPass.SymbolTable

/-!
Layout, the first pass: every statement gets the address that the location counter has
reached, and labels enter the symbol table. `place` lays out one statement; `layOut` goes
on until the statements end or one of them cannot be laid out.
-/
namespace TwoPass

open Text

/-- The number of bytes in a word, and in an instruction. -/
def wordSize : Nat := 3

/-- How far a statement advances the location counter; nothing is known about an opcode
    that is neither a directive nor an instruction. -/
def statementSize (table : OpcodeTable) (opcode : String) (operand : Option String) :
    Except OperandFault (Option Nat) :=
  match table.operation opcode with
  | .directive .start | .directive .finish => .ok (some 0)
  | .directive .word => (Operand.word operand).map fun _ => some wordSize
  | .directive .reserveWords => (Operand.count operand).map fun count => some (wordSize * count)
  | .directive .reserveBytes => (Operand.count operand).map some
  | .directive .byte => (Operand.byteCode operand).map fun code => some (code.length / 2)
  | .instruction _ => .ok (some wordSize)
  | .unknown => .ok none

/-- The result of laying out a program. -/
structure Layout where
  records : List Record := []
  symbols : SymbolTable := {}
  /-- The address that the last START gave, or 0. -/
  startAddress : Nat := 0
  /-- The label of the last START that has one. -/
  programName : Option String := none
  /-- The location counter at the last END, or behind the last statement. -/
  counter : Nat := 0
  endSeen : Bool := false
  /-- Whether a statement could not be laid out. -/
  aborted : Bool := false
  deriving DecidableEq, Repr

namespace Layout

/-- What the statements laid out so far leave for the next one. -/
structure Progress where
  counter : Nat := 0
  symbols : SymbolTable := {}
  startAddress : Nat := 0
  programName : Option String := none
  /-- Whether there is a record. -/
  begun : Bool := false
  /-- The location counter at the last END. -/
  endCounter : Option Nat := none
  deriving DecidableEq, Repr

/-- The outcome of one statement: its record if it got one, what happened, what is left
    for the next statement, and what keeps the statement from being laid out. -/
structure Step where
  record : Option Record := none
  events : List Event := []
  after : Progress
  fault : Option Diagnostic := none

def warning (cause : Cause) (location : Option Location) : Event :=
  .reported { cause, severity := .warning, location }

/-- The label of a statement, unless it is empty. -/
def label? (statement : Statement) : Option String :=
  statement.label.filter (!·.isEmpty)

/-- The record of a statement. -/
def recordOf (statement : Statement) (address : Option Int) : Record :=
  { address
    opcode := statement.opcode
    label := statement.label
    operand := statement.operand
    line := statement.line
    sourceLine := some statement.text }

/-- The diagnostic for an operand of the wrong form, under the operand if there is one. -/
def invalidOperand (statement : Statement) (fault : OperandFault) : Diagnostic :=
  { cause := .invalidOperand statement.opcode statement.operand fault.message
    location :=
      some (if (statement.operand.getD "").isEmpty then statement.location else statement.operandLocation)
    sourceLine := some statement.text }

/-- What is remarked about the place of a statement in the program. -/
def remarks (progress : Progress) (statement : Statement) : List Event :=
  (if !progress.begun ∧ statement.opcode ≠ Directive.start.name then
    [warning .missingStart (some statement.location)]
  else []) ++
  (if progress.endCounter.isSome then
    [warning (.afterEnd (trim statement.text)) (some statement.location)]
  else [])

/-- Lays out START, which sets the location counter. -/
def placeStart (progress : Progress) (statement : Statement) : Step :=
  let late := if progress.begun then [warning .lateStart (some statement.location)] else []
  match Operand.startAddress statement.operand with
  | .ok address =>
    { record := some (recordOf statement (some address))
      events := late ++ [.debug ("START at " ++ upperHex 4 address)]
      after :=
        { progress with
          counter := address
          startAddress := address
          programName := label? statement <|> progress.programName
          begun := true } }
  | .error fault => { events := late, after := progress, fault := some (invalidOperand statement fault) }

/-- Lays out END, which gets no address and defines no label. -/
def placeEnd (progress : Progress) (statement : Statement) : Step :=
  { record := some (recordOf statement none)
    after := { progress with begun := true, endCounter := some progress.counter } }

/-- What happens when the label of a statement is defined. -/
def definitionEvents (settings : Settings) (progress : Progress) (statement : Statement) : List Event :=
  match label? statement with
  | none => []
  | some label =>
    .debug ("Symbol " ++ label ++ " = " ++ upperHex 4 progress.counter) ::
      match progress.symbols.definition? label with
      | none => []
      | some earlier =>
        let cause := Cause.duplicateSymbol label (some earlier)
        [.debug cause.message,
          .reported
            { cause
              severity := if settings.strict then .error else .warning
              location := some statement.location
              sourceLine := some statement.text }]

/-- The symbols once the label of a statement is defined. -/
def definedSymbols (progress : Progress) (statement : Statement) : SymbolTable :=
  match label? statement with
  | none => progress.symbols
  | some label => progress.symbols.define label progress.counter (some statement.location)

/-- The report of an opcode that is not known. -/
def unknownOpcodeEvents (table : OpcodeTable) (statement : Statement) : List Event :=
  let cause := Cause.unknownOpcode statement.opcode table.knownNames
  [.debug cause.message,
    .reported
      { cause
        severity := .warning
        location := some statement.location
        sourceLine := some statement.text }]

/-- Lays out a statement other than START and END. -/
def placeOther (settings : Settings) (table : OpcodeTable) (progress : Progress) (statement : Statement) : Step :=
  if maxAddress < progress.counter then
    { after := progress
      fault := some
        { cause := .statementBeyondMemory progress.counter
          location := some statement.location
          sourceLine := some statement.text } }
  else
    let record := recordOf statement (some progress.counter)
    let defined := definitionEvents settings progress statement
    let after := { progress with symbols := definedSymbols progress statement, begun := true }
    match statementSize table statement.opcode statement.operand with
    | .error fault =>
      { record := some record, events := defined, after, fault := some (invalidOperand statement fault) }
    | .ok none => { record := some record, events := defined ++ unknownOpcodeEvents table statement, after }
    | .ok (some size) =>
      let counter := progress.counter + size
      { record := some record
        events := defined
        after := { after with counter }
        fault :=
          if maxAddress + 1 < counter then some
            { cause := .counterBeyondMemory counter
              location := some statement.location
              sourceLine := some statement.text }
          else none }

/-- Lays out one statement. -/
def place (settings : Settings) (table : OpcodeTable) (progress : Progress) (statement : Statement) : Step :=
  let step :=
    match Directive.ofName? statement.opcode with
    | some .start => placeStart progress statement
    | some .finish => placeEnd progress statement
    | _ => placeOther settings table progress statement
  { step with events := remarks progress statement ++ step.events }

/-- The outcome of several statements. -/
structure Run where
  records : List Record := []
  events : List Event := []
  after : Progress
  aborted : Bool := false

/-- Lays out statements in order, up to the first that cannot be laid out. -/
def run (settings : Settings) (table : OpcodeTable) (progress : Progress) : List Statement → Run
  | [] => { after := progress }
  | statement :: rest =>
    let step := place settings table progress statement
    match step.fault with
    | some fault =>
      { records := step.record.toList
        events := step.events ++ [.debug ("Pass 1 stopped: " ++ fault.message), .reported fault]
        after := step.after
        aborted := true }
    | none =>
      let tail := run settings table step.after rest
      { tail with records := step.record.toList ++ tail.records, events := step.events ++ tail.events }

/-- The layout that a run over all statements leaves. -/
def ofRun (run : Run) : Layout :=
  { records := run.records
    symbols := run.after.symbols
    startAddress := run.after.startAddress
    programName := run.after.programName
    counter := run.after.endCounter.getD run.after.counter
    endSeen := run.after.endCounter.isSome
    aborted := run.aborted }

/-- What happens once the statements are laid out. -/
def closingEvents (layout : Layout) : List Event :=
  (if layout.endSeen ∨ layout.aborted then [] else [warning .missingEnd none]) ++
    [.debug ("Pass 1: " ++ toString layout.records.length ++ " records, " ++ toString layout.symbols.size ++
      " symbols, location counter " ++ upperHex 4 layout.counter)]

end Layout

/-- The layout of a program. -/
def layOut (settings : Settings) (table : OpcodeTable) (statements : List Statement) : Layout :=
  Layout.ofRun (Layout.run settings table {} statements)

/-- What happens while a program is laid out. -/
def layoutEvents (settings : Settings) (table : OpcodeTable) (statements : List Statement) : List Event :=
  (Layout.run settings table {} statements).events ++ Layout.closingEvents (layOut settings table statements)

end TwoPass
