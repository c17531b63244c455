import TwoPass.ObjectProgram

/-!
Packing of object code into text records. A record is filled as long as the next
fragment fits; a fragment that does not fit begins a new record, and one that is longer
than a whole record is cut into full records first.
-/
namespace TwoPass

/-- Object code with the address of its first byte. -/
structure Fragment where
  address : Int
  code : String
  deriving DecidableEq, Repr

namespace Fragment

def size (fragment : Fragment) : Nat :=
  byteCount fragment.code

/-- The address behind the last byte. -/
def finish (fragment : Fragment) : Int :=
  fragment.address + fragment.size

/-- The first bytes of a fragment. -/
def front (bytes : Nat) (fragment : Fragment) : Fragment :=
  ⟨fragment.address, String.ofList (fragment.code.toList.take (2 * bytes))⟩

/-- What follows the first bytes of a fragment. -/
def back (bytes : Nat) (fragment : Fragment) : Fragment :=
  ⟨fragment.address + bytes, String.ofList (fragment.code.toList.drop (2 * bytes))⟩

end Fragment

namespace Packing

/-- A finished text record, and whether it was cut from a longer constant. -/
structure Closed where
  record : TextRecord
  isCut : Bool
  deriving DecidableEq, Repr

/-- The number of full records that are cut from a fragment of the given size: as many as
    leave at least one byte. -/
def fullRecords (capacity size : Nat) : Nat :=
  (size - 1) / capacity

/-- Cuts `count` full records from a fragment, and gives what is left of it. -/
def cut (capacity : Nat) : Nat → Fragment → List Closed × Fragment
  | 0, fragment => ([], fragment)
  | count + 1, fragment =>
    let first := fragment.front capacity
    let (closed, rest) := cut capacity count (fragment.back capacity)
    (⟨⟨first.address, [first.code]⟩, true⟩ :: closed, rest)

/-- The open record if a fragment fits into it, and otherwise the record that it closes. -/
def makeRoom (capacity : Nat) (current : Option TextRecord) (size : Nat) : List Closed × Option TextRecord :=
  match current with
  | none => ([], none)
  | some record => if capacity < record.byteLength + size then ([⟨record, false⟩], none) else ([], some record)

/-- The open record with one more fragment. -/
def extend (current : Option TextRecord) (fragment : Fragment) : TextRecord :=
  match current with
  | none => ⟨fragment.address, [fragment.code]⟩
  | some record => { record with fragments := record.fragments ++ [fragment.code] }

/-- Adds a fragment: the records this finishes, and the record that is open behind it. -/
def add (capacity : Nat) (current : Option TextRecord) (fragment : Fragment) : List Closed × TextRecord :=
  let (finished, room) := makeRoom capacity current fragment.size
  let (full, rest) := cut capacity (fullRecords capacity fragment.size) fragment
  (finished ++ full, extend room rest)

/-- The records of fragments, behind an open one. -/
def pack (capacity : Nat) (current : Option TextRecord) : List Fragment → List Closed
  | [] => (current.map (Closed.mk · false)).toList
  | fragment :: rest =>
    let (closed, next) := add capacity current fragment
    closed ++ pack capacity (some next) rest

end Packing

/-- The text records of fragments. -/
def packed (capacity : Nat) (fragments : List Fragment) : List TextRecord :=
  (Packing.pack capacity none fragments).map Packing.Closed.record

end TwoPass
