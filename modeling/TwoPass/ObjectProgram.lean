import TwoPass.Diagnostic
import TwoPass.Text.Blank
import TwoPass.Text.Numeral

/-!
Object programs: a header, text records and an end record, one per line with carets
between the fields. `ObjectProgram.text` writes a program and `ObjectProgram.parse` reads
one, passing over lines that do not begin like a record.
-/
namespace TwoPass

open Text

/-- The program's name, where it begins, and how many bytes it spans. -/
structure Header where
  name : String
  start : Int
  length : Int
  deriving DecidableEq, Repr

/-- Object code for consecutive statements, as hexadecimal digits per statement. -/
structure TextRecord where
  start : Int
  fragments : List String := []
  deriving DecidableEq, Repr

structure ObjectProgram where
  header : Header
  texts : List TextRecord := []
  /-- Where execution begins, if there is an end record. -/
  entry : Option Int := none
  deriving DecidableEq, Repr

/-- The field separator. -/
def caret : Char := '^'

/-- The program's name takes exactly this many characters. -/
def nameWidth : Nat := 6

/-- A name cut or filled up with spaces to its width. -/
def paddedName (name : String) : String :=
  let kept := name.toList.take nameWidth
  String.ofList (kept ++ List.replicate (nameWidth - kept.length) ' ')

def Header.text (header : Header) : String :=
  "H^" ++ paddedName header.name ++ "^" ++ upperHex 6 header.start ++ "^" ++ upperHex 6 header.length

/-- The number of bytes that digits spell, two digits each. -/
def byteCount (digits : String) : Nat :=
  digits.length / 2

namespace TextRecord

/-- The number of bytes of code. -/
def byteLength (record : TextRecord) : Nat :=
  record.fragments.foldr (byteCount · + ·) 0

/-- The digits of all fragments. -/
def code (record : TextRecord) : String :=
  String.join record.fragments

def text (record : TextRecord) : String :=
  "T^" ++ upperHex 6 record.start ++ "^" ++ upperHex 2 record.byteLength ++
    String.join (record.fragments.map ("^" ++ ·))

end TextRecord

/-- One line of an object program. -/
inductive ObjectRecord
  | header (header : Header)
  | text (record : TextRecord)
  | finish (entry : Int)
  deriving DecidableEq, Repr

/-- The line of a record. -/
def ObjectRecord.line : ObjectRecord → String
  | header record => record.text
  | text record => record.text
  | finish entry => "E^" ++ upperHex 6 entry

/-- Why a line that begins like a record is none. -/
inductive RecordFault
  | headerFields
  | textFields
  | endFields
  | length (declared : Int) (actual : Nat)
  | numeral (fault : NumeralFault)
  deriving DecidableEq, Repr

def RecordFault.message : RecordFault → String
  | .headerFields => "header needs name, start and length"
  | .textFields => "text record needs start and length"
  | .endFields => "end record needs one address"
  | .length declared actual =>
    "declared length " ++ upperHex 2 declared ++ " but code is " ++ upperHex 2 actual ++ " bytes"
  | .numeral fault => fault.message

namespace ObjectRecord

/-- A hexadecimal field. -/
def readField (field : List Char) : Except RecordFault Int :=
  (readInt .sixteen (String.ofList field)).mapError .numeral

/-- A header from the fields behind its letter. -/
def readHeader : List (List Char) → Except RecordFault Header
  | [name, start, length] => do
    let start ← readField start
    let length ← readField length
    return ⟨String.ofList (trimEnd isBlank name), start, length⟩
  | _ => .error .headerFields

/-- A text record from the fields behind its letter; its declared length is that of its code. -/
def readText : List (List Char) → Except RecordFault TextRecord
  | start :: length :: fragments => do
    let start ← readField start
    let record : TextRecord := ⟨start, fragments.map String.ofList⟩
    let declared ← readField length
    if declared = record.byteLength then return record else .error (.length declared record.byteLength)
  | _ => .error .textFields

/-- An end record from the fields behind its letter. -/
def readEnd : List (List Char) → Except RecordFault Int
  | [entry] => readField entry
  | _ => .error .endFields

/-- The letter of a line that begins like a record. -/
def letter? : List Char → Option Char
  | letter :: separator :: _ =>
    if separator = caret ∧ (letter = 'H' ∨ letter = 'T' ∨ letter = 'E') then some letter else none
  | _ => none

/-- The record of a letter with the given fields. -/
def ofFields (letter : Char) (fields : List (List Char)) : Except RecordFault ObjectRecord :=
  if letter = 'H' then (readHeader fields).map header
  else if letter = 'T' then (readText fields).map text
  else (readEnd fields).map finish

/-- The record in a line, unless the line does not begin like one. -/
def readLine (file : String) (number : Nat) (line : String) : Except Diagnostic (Option ObjectRecord) :=
  match letter? line.toList with
  | none => .ok none
  | some letter =>
    match ofFields letter (fields caret line.toList).tail with
    | .ok record => .ok (some record)
    | .error fault => .error
      { cause := .malformedRecord (String.ofList [letter]) fault.message
        location := some ⟨file, number, 0⟩
        sourceLine := some line }

/-- The records in lines, numbered from `number` on. -/
def readLines (file : String) (number : Nat) : List String → Except Diagnostic (List ObjectRecord)
  | [] => .ok []
  | line :: rest => do
    let record? ← readLine file number line
    let records ← readLines file (number + 1) rest
    return record?.toList ++ records

def header? : ObjectRecord → Option Header
  | header record => some record
  | _ => none

def text? : ObjectRecord → Option TextRecord
  | text record => some record
  | _ => none

def finish? : ObjectRecord → Option Int
  | finish entry => some entry
  | _ => none

end ObjectRecord

namespace ObjectProgram

/-- The records in the order in which they are written. -/
def records (program : ObjectProgram) : List ObjectRecord :=
  .header program.header :: program.texts.map .text ++ (program.entry.map .finish).toList

/-- The program as text. -/
def text (program : ObjectProgram) : String :=
  endLines (program.records.map ObjectRecord.line)

/-- The number of bytes in all text records. -/
def codeBytes (program : ObjectProgram) : Nat :=
  program.texts.foldr (·.byteLength + ·) 0

/-- The program that records make; the last header and the last end record count. -/
def ofRecords? (records : List ObjectRecord) : Option ObjectProgram :=
  (records.filterMap ObjectRecord.header?).getLast?.map fun header =>
    { header
      texts := records.filterMap ObjectRecord.text?
      entry := (records.filterMap ObjectRecord.finish?).getLast? }

/-- The program in a text, or the first fault in it. -/
def parse (file text : String) : Except Diagnostic ObjectProgram := do
  let records ← ObjectRecord.readLines file 1 (lines text)
  match ofRecords? records with
  | some program => return program
  | none => .error { cause := .noHeader file }

end ObjectProgram

end TwoPass
