import TwoPass.Diagnostic

/-!
Records: statements with the address they were laid out at. A record is shown as tab
separated columns, and in a listing with its object code as one more column.
-/
namespace TwoPass

open Text

/-- A statement with its address. -/
structure Record where
  /-- Where the statement begins; END has no address. -/
  address : Option Int
  opcode : String
  label : Option String := none
  operand : Option String := none
  /-- The line the statement stands in, or 0 if that is not known. -/
  line : Int := 0
  sourceLine : Option String := none
  deriving DecidableEq, Repr

namespace Record

/-- The address as four digits or more. -/
def addressText (record : Record) : String :=
  match record.address with
  | some address => upperHex 4 address
  | none => ""

/-- Address, label, opcode and operand; what is absent is empty. -/
def columns (record : Record) : List String :=
  [record.addressText, record.label.getD "", record.opcode, record.operand.getD ""]

/-- The columns of a record as one line. -/
def text (record : Record) : String :=
  "\t".intercalate record.columns

end Record

/-- A record with its object code, which is empty if it has none. -/
structure ListingLine where
  record : Record
  code : String := ""
  deriving DecidableEq, Repr

/-- The columns of the record, and the object code unless it is empty. -/
def ListingLine.text (line : ListingLine) : String :=
  "\t".intercalate (line.record.columns ++ if line.code.isEmpty then [] else [line.code])

end TwoPass
