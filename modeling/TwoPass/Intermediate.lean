import TwoPass.Record
import TwoPass.Text.Blank
import TwoPass.Text.Numeral

/-!
The intermediate file: one record per line, every column present, so that `parse` can read
back what `render` wrote. Columns behind the fourth are passed over, so a listing can be
read as well.
-/
namespace TwoPass.Intermediate

open Text

/-- The text of records. -/
def render (records : List Record) : String :=
  endLines (records.map Record.text)

/-- A column without the blanks around it. -/
def column (columns : List (List Char)) (index : Nat) : String :=
  String.ofList (trimBlanks (columns[index]?.getD []))

/-- A column, unless it is empty. -/
def column? (columns : List (List Char)) (index : Nat) : Option String :=
  some (column columns index) |>.filter (!·.isEmpty)

/-- The address that a column holds, if it is not empty. -/
def readAddress (text : String) : Except NumeralFault (Option Int) :=
  if text.isEmpty then .ok none else (readInt .sixteen text).map some

/-- The record in a line that is not blank. -/
def readLine (file : String) (number : Nat) (line : String) : Except Diagnostic Record :=
  let columns := fields '\t' line.toList
  if columns.length < 3 then
    .error { cause := .missingColumns, location := some ⟨file, number, 0⟩, sourceLine := some line }
  else match readAddress (column columns 0) with
    | .ok address => .ok
      { address
        label := column? columns 1
        opcode := column columns 2
        operand := column? columns 3
        line := number
        sourceLine := some line }
    | .error _ => .error
      { cause := .invalidAddress (column columns 0), location := some ⟨file, number, 1⟩, sourceLine := some line }

/-- The records in lines, numbered from `number` on; blank lines are passed over. -/
def readLines (file : String) (number : Nat) : List String → Except Diagnostic (List Record)
  | [] => .ok []
  | line :: rest =>
    if line.toList.all isBlank then readLines file (number + 1) rest
    else do
      let record ← readLine file number line
      let records ← readLines file (number + 1) rest
      return record :: records

/-- The records of an intermediate file, or the first fault in it. -/
def parse (file text : String) : Except Diagnostic (List Record) :=
  readLines file 1 (lines text)

end TwoPass.Intermediate
