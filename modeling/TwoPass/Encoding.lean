import TwoPass.Journal
import TwoPass.OpcodeTable
import TwoPass.Operand
import TwoPass.Packing
import TwoPass.Record
import TwoPass.Settings
import TwoPass.SymbolTable

/-!
Encoding, the second pass: records get their object code, and the code of the records up
to the first END is packed into an object program. `encode` gives the result and
`encodingEvents` what happens on the way.
-/
namespace TwoPass

open Text

/-- The object code of a program. -/
structure Encoding where
  listing : List ListingLine
  program : ObjectProgram
  startAddress : Int
  /-- The address behind the last byte of object code. -/
  endingAddress : Int
  deriving DecidableEq, Repr

/-- The object code of every line of the listing. -/
def Encoding.codes (encoding : Encoding) : List String :=
  encoding.listing.map ListingLine.code

/-- What the code of a record depends on. -/
structure Encoder where
  symbols : SymbolTable
  table : OpcodeTable
  settings : Settings := {}
  /-- The source's name in diagnostics. -/
  file : String := "<input>"
  /-- Whether opcodes that are not known are reported. -/
  warnUnknown : Bool := true

namespace Encoder

/-- The line of a record, if it is known. -/
def location? (encoder : Encoder) (record : Record) : Option Location :=
  if record.line = 0 then none else some ⟨encoder.file, record.line, 0⟩

/-- The report of a fault in a record. -/
def report (encoder : Encoder) (record : Record) (cause : Cause) (severity : Severity := .error) : Event :=
  .reported { cause, severity, location := encoder.location? record, sourceLine := record.sourceLine }

/-- Whether a table gives an instruction a proper code. -/
def isHexByte (code : String) : Bool :=
  code.length == 2 && code.toList.all isHexDigit

/-- The operand of a record, unless it is empty. -/
def operand? (record : Record) : Option String :=
  record.operand.filter (!·.isEmpty)

/-- The address field of an instruction, empty if there is no operand or it is not defined. -/
def addressField (encoder : Encoder) (record : Record) : String :=
  match (operand? record).bind encoder.symbols.address? with
  | some address => upperHex 4 address
  | none => ""

/-- The code of an instruction: that of its mnemonic, and the address of its operand. -/
def instructionCode (encoder : Encoder) (record : Record) (code : String) : String :=
  if isHexByte code then String.ofList (code.toList.map Char.toUpper) ++ encoder.addressField record else ""

/-- The object code of a record, empty if it has none. -/
def recordCode (encoder : Encoder) (record : Record) : String :=
  match encoder.table.operation record.opcode with
  | .directive .word => ((Operand.word record.operand).toOption.map Operand.wordCode).getD ""
  | .directive .byte => (Operand.byteCode record.operand).toOption.getD ""
  | .directive _ => ""
  | .instruction code => encoder.instructionCode record code
  | .unknown => ""

/-- The report that an operand has the wrong form. -/
def operandEvents {α : Type} (encoder : Encoder) (record : Record) : Except OperandFault α → List Event
  | .ok _ => []
  | .error fault => [encoder.report record (.invalidOperand record.opcode record.operand fault.message)]

/-- The report that a symbol is not defined. -/
def unresolvedEvents (encoder : Encoder) (record : Record) (symbol : String) : List Event :=
  let cause := Cause.unresolvedSymbol symbol (encoder.symbols.similar symbol)
  [.debug cause.message, encoder.report record cause (if encoder.settings.strict then .error else .warning)]

/-- The report of what is wrong with an instruction. -/
def instructionEvents (encoder : Encoder) (record : Record) (code : String) : List Event :=
  if !isHexByte code then [encoder.report record (.notHexByte record.opcode code)]
  else match operand? record with
    | none => []
    | some symbol => if (encoder.symbols.address? symbol).isSome then [] else encoder.unresolvedEvents record symbol

/-- The report of an opcode that is not known, if that is wanted. -/
def unknownOpcodeEvents (encoder : Encoder) (record : Record) : List Event :=
  if encoder.warnUnknown then
    let cause := Cause.unknownOpcode record.opcode encoder.table.knownNames
    [.debug cause.message, encoder.report record cause .warning]
  else []

/-- What happens while a record gets its object code. -/
def recordEvents (encoder : Encoder) (record : Record) : List Event :=
  match encoder.table.operation record.opcode with
  | .directive .word => encoder.operandEvents record (Operand.word record.operand)
  | .directive .byte => encoder.operandEvents record (Operand.byteCode record.operand)
  | .directive _ => []
  | .instruction code => encoder.instructionEvents record code
  | .unknown => encoder.unknownOpcodeEvents record

/-- A record with its object code. -/
def listingLine (encoder : Encoder) (record : Record) : ListingLine :=
  ⟨record, encoder.recordCode record⟩

end Encoder

/-- The code of a line with its address, if it has both. -/
def ListingLine.fragment? (line : ListingLine) : Option Fragment :=
  if line.code.isEmpty then none else line.record.address.map (⟨·, line.code⟩)

/-- The records up to and including the first END. -/
def throughEnd : List Record → List Record
  | [] => []
  | record :: rest => if record.opcode = Directive.finish.name then [record] else record :: throughEnd rest

namespace Encoder

/-- The first START among records. -/
def start? (records : List Record) : Option Record :=
  records.find? (·.opcode = Directive.start.name)

/-- Where the program begins. -/
def startAddress (records : List Record) : Int :=
  ((start? records).bind Record.address).getD 0

/-- The program's name. -/
def programName (settings : Settings) (records : List Record) : String :=
  match (start? records).bind fun record => record.label.filter (!·.isEmpty) with
  | some label => if settings.nameFromLabel then label else settings.programName
  | none => settings.programName

/-- The listing of records. -/
def listing (encoder : Encoder) (records : List Record) : List ListingLine :=
  (throughEnd records).map encoder.listingLine

/-- What is written to the log when a text record is finished. -/
def closedEvent (closed : Packing.Closed) : Event :=
  .debug ("Text record at " ++ upperHex 6 closed.record.start ++ " (" ++ toString closed.record.byteLength ++
    " bytes" ++ (if closed.isCut then ", split constant" else "") ++ ")")

/-- What happens while records are encoded and packed behind an open text record. -/
def eventsFrom (encoder : Encoder) (current : Option TextRecord) : List Record → List Event
  | [] => (Packing.pack encoder.settings.capacity current []).map closedEvent
  | record :: rest =>
    let line := encoder.listingLine record
    match line.fragment? with
    | some fragment =>
      let (closed, next) := Packing.add encoder.settings.capacity current fragment
      encoder.recordEvents record ++ closed.map closedEvent ++ encoder.eventsFrom (some next) rest
    | none =>
      encoder.recordEvents record ++
        (if line.code.isEmpty then [] else [encoder.report record (.noAddress record.opcode)]) ++
        encoder.eventsFrom current rest

end Encoder

/-- The object program of records. -/
def encode (encoder : Encoder) (records : List Record) : Encoding :=
  let listing := encoder.listing records
  let fragments := listing.filterMap ListingLine.fragment?
  let start := Encoder.startAddress records
  let ending := (fragments.map Fragment.finish).max?.getD start
  { listing
    program :=
      { header := ⟨Encoder.programName encoder.settings records, start, max (ending - start) 0⟩
        texts := packed encoder.settings.capacity fragments
        entry := some start }
    startAddress := start
    endingAddress := ending }

/-- What happens while records are encoded. -/
def encodingEvents (encoder : Encoder) (records : List Record) : List Event :=
  let program := (encode encoder records).program
  encoder.eventsFrom none (throughEnd records) ++
    [.debug ("Pass 2: " ++ toString program.texts.length ++ " text records, length " ++
      upperHex 6 program.header.length)]

end TwoPass
