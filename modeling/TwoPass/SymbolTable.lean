import TwoPass.Diagnostic
import TwoPass.Dictionary
import TwoPass.Text.Quoted

/-!
Symbol tables. Symbols stand in the order of their first definition; the address is that
of the last definition, and the location that of the last definition which gave one.
-/
namespace TwoPass

open Text

/-- What is known about a defined symbol. -/
structure Symbol where
  address : Int
  location : Option Location := none
  deriving DecidableEq, Repr

structure SymbolTable where
  symbols : Dictionary Symbol := {}
  deriving DecidableEq, Repr

/-- Why no similar symbols are given. -/
inductive SimilarityFault
  /-- Not even one symbol is asked for. -/
  | notPositive (limit : Int)
  deriving DecidableEq, Repr

def SimilarityFault.message : SimilarityFault → String
  | .notPositive limit => "n must be > 0: " ++ toString limit

namespace SymbolTable

/-- The address of a symbol. -/
def address? (table : SymbolTable) (name : String) : Option Int :=
  (table.symbols.get? name).map Symbol.address

/-- Where a symbol was last said to be defined. -/
def location? (table : SymbolTable) (name : String) : Option Location :=
  (table.symbols.get? name).bind Symbol.location

/-- The location of a definition that did not tell where it stands. -/
def unknownLocation : Location :=
  ⟨"<unknown>", 0, 0⟩

/-- The location of the definition that a further one would replace. -/
def definition? (table : SymbolTable) (name : String) : Option Location :=
  (table.symbols.get? name).map fun symbol => symbol.location.getD unknownLocation

/-- Defines a symbol; a further definition replaces the address, and the location if it
    gives one. -/
def define (table : SymbolTable) (name : String) (address : Int) (location : Option Location := none) :
    SymbolTable :=
  ⟨table.symbols.insert name ⟨address, location <|> table.location? name⟩⟩

def size (table : SymbolTable) : Nat :=
  table.symbols.size

/-- The symbols in order of first definition. -/
def names (table : SymbolTable) : List String :=
  table.symbols.keys

/-- The symbols with their addresses, in order of first definition. -/
def addresses (table : SymbolTable) : List (String × Int) :=
  table.symbols.entries.map fun (name, symbol) => (name, symbol.address)

/-- The at most `count` symbols that resemble a name most. -/
def similar (table : SymbolTable) (name : String) (count : Nat := Cause.maxSuggestions) : List String :=
  closest count name table.names

/-- `similar` with a limit that may turn out not to be positive. -/
def similarWithin (table : SymbolTable) (name : String) (limit : Int) : Except SimilarityFault (List String) :=
  if 0 < limit then .ok (table.similar name limit.toNat) else .error (.notPositive limit)

/-- One line per symbol: its name, a tab and its address. -/
def text (table : SymbolTable) : String :=
  endLines (table.addresses.map fun (name, address) => name ++ "\t" ++ upperHex 4 address)

/-- A one-line summary of names and addresses. -/
def summary (table : SymbolTable) : String :=
  "SymbolTable(\x7b" ++
    ", ".intercalate (table.addresses.map fun (name, address) => quoted name ++ ": " ++ toString address) ++ "\x7d)"

end SymbolTable

end TwoPass
