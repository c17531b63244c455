import TwoPass.Diagnostic
import TwoPass.Text.Numeral
import TwoPass.Token

/-!
Operands of the directives: start addresses, counts, words and byte constants. Both the
size of a statement and its object code are taken from the functions here, so they
cannot disagree.
-/
namespace TwoPass

open Text

/-- What an operand should have been. -/
inductive OperandFault
  | startAddress
  | count
  | word
  | byteConstant
  /-- An operand of digits that denotes no number that can be read. -/
  | numeral (fault : NumeralFault)
  deriving DecidableEq, Repr

/-- The least value of a word. -/
def minWord : Int := -0x800000

/-- The greatest value of a word. -/
def maxWord : Int := 0xFFFFFF

def OperandFault.message : OperandFault → String
  | .startAddress => "a hexadecimal start address (0000-FFFF)"
  | .count => "a non-negative decimal count"
  | .word => "a decimal integer between " ++ toString minWord ++ " and " ++ toString maxWord
  | .byteConstant => "C'<characters, no tabs>' or X'<even number of hex digits>'"
  | .numeral fault => fault.message

namespace Operand

/-- The address that START sets: hexadecimal digits only. -/
def startAddress (operand : Option String) : Except OperandFault Nat :=
  let digits := (operand.getD "").toList
  if digits.isEmpty || !digits.all isHexDigit then .error .startAddress
  else if digitsValue .sixteen digits ≤ maxAddress then .ok (digitsValue .sixteen digits)
  else .error .startAddress

/-- The number of words or bytes to reserve: characters that show digits only. -/
def count (operand : Option String) : Except OperandFault Nat :=
  let text := operand.getD ""
  if text.isEmpty || !text.toList.all isDigitLike then .error .count
  else match readInt .ten text with
    | .ok value => .ok value.toNat
    | .error fault => .error (.numeral fault)

/-- The value of a word, signed or unsigned. -/
def word (operand : Option String) : Except OperandFault Int :=
  match readInt .ten (operand.getD "") with
  | .ok value => if minWord ≤ value ∧ value ≤ maxWord then .ok value else .error .word
  | .error _ => .error .word

/-- The object code of a word: six digits, negative values as their complement. -/
def wordCode (value : Int) : String :=
  upperHex 6 (value % 0x1000000)

/-- The kind and the body of a constant: a letter, and a body between marks that is not empty. -/
def constantParts? : List Char → Option (Char × List Char)
  | kind :: opening :: rest =>
    if opening = Token.mark ∧ rest.getLast? = some Token.mark ∧ 2 ≤ rest.length then some (kind, rest.dropLast)
    else none
  | _ => none

/-- The two digits of a character's code. -/
def byteDigits (c : Char) : List Char :=
  padZeros 2 (hexDigits c.toNat)

/-- The digits of a constant made of characters: none is a mark, a tab or beyond one byte. -/
def characterDigits? (body : List Char) : Option (List Char) :=
  if body.all fun c => c ≠ Token.mark && c ≠ '\t' && c.toNat ≤ 0xFF then some (body.flatMap byteDigits) else none

/-- The digits of a constant made of digits: an even number of them. -/
def hexadecimalDigits? (body : List Char) : Option (List Char) :=
  if body.length % 2 = 0 ∧ body.all isHexDigit then some (body.map Char.toUpper) else none

/-- The digits of a byte constant. -/
def constantDigits? (constant : List Char) : Option (List Char) :=
  match constantParts? constant with
  | some (kind, body) =>
    if kind = 'C' ∨ kind = 'c' then characterDigits? body
    else if kind = 'X' ∨ kind = 'x' then hexadecimalDigits? body
    else none
  | none => none

/-- The object code of a byte constant, two digits per byte. -/
def byteCode (operand : Option String) : Except OperandFault String :=
  match constantDigits? (operand.getD "").toList with
  | some digits => .ok (String.ofList digits)
  | none => .error .byteConstant

end Operand

end TwoPass
