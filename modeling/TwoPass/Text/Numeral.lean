import TwoPass.Text.Blank
import TwoPass.Text.Digits
import TwoPass.Text.Hex
import TwoPass.Text.Quoted

/-!
Integer numerals in base ten and sixteen: surrounding spaces, one sign, in base sixteen
an optional `0x`, and digits of any script with single underscores between them.
`readInt` gives the value or the reason why there is none.
-/
namespace TwoPass.Text

/-- The bases in which numerals are read. -/
inductive Base
  | ten
  | sixteen
  deriving DecidableEq, Repr

def Base.value : Base → Nat
  | .ten => 10
  | .sixteen => 16

/-- Why a text is no numeral. -/
inductive NumeralFault
  /-- The text does not have the form of a numeral. -/
  | malformed (base : Base) (text : String)
  /-- The text has more decimal digits than are read. -/
  | tooLong (digits : Nat)
  deriving DecidableEq, Repr

/-- Numerals in base ten have at most this many digits, leading zeros included. -/
def maxDecimalDigits : Nat := 4300

/-- Messages show at most this many characters of the quoted text. -/
def shownCharacters : Nat := 200

def NumeralFault.message : NumeralFault → String
  | .malformed base text =>
    "invalid literal for int() with base " ++ toString base.value ++ ": " ++
      String.ofList ((quoted text).toList.take shownCharacters)
  | .tooLong digits =>
    "Exceeds the limit (" ++ toString maxDecimalDigits ++ " digits) for integer string conversion: value has " ++
      toString digits ++ " digits; use sys.set_int_max_str_digits() to increase the limit"

/-- A character in the form numerals are judged in: blanks and digits of other scripts
    become the space and the digit of the first 128 characters, and what is left beyond
    these becomes a character that no numeral has. -/
def plainForm (c : Char) : Char :=
  if c.toNat < 0x80 then c
  else if isBlank c then ' '
  else match decimalValue? c with
    | some value => Char.ofNat ('0'.toNat + value)
    | none => '?'

/-- The spaces that may surround a numeral in plain form. -/
def isNumeralSpace (c : Char) : Bool :=
  c == ' ' || (9 ≤ c.toNat && c.toNat ≤ 13)

def Base.isDigit (base : Base) (c : Char) : Bool :=
  isHexDigit c && hexDigitValue c < base.value

/-- The sign in front of a numeral, as whether it is negative, and what follows it. -/
def splitSign : List Char → Bool × List Char
  | '-' :: rest => (true, rest)
  | '+' :: rest => (false, rest)
  | text => (false, text)

/-- What follows the mark of the base, which an underscore may follow. -/
def dropBaseMark : Base → List Char → List Char
  | .sixteen, '0' :: mark :: rest =>
    if mark = 'x' ∨ mark = 'X' then
      match rest with
      | '_' :: digits => digits
      | digits => digits
    else '0' :: mark :: rest
  | _, text => text

/-- Whether a run of digits and underscores begins and ends with a digit and has no two
    underscores side by side; `afterDigit` tells whether a digit stands in front of it. -/
def singlySpaced (afterDigit : Bool) : List Char → Bool
  | [] => afterDigit
  | '_' :: rest => afterDigit && singlySpaced false rest
  | _ :: rest => singlySpaced true rest

/-- The value of digits in a base. -/
def digitsValue (base : Base) (digits : List Char) : Nat :=
  digits.foldl (fun value digit => base.value * value + hexDigitValue digit) 0

/-- The value of a numeral in plain form without its sign; `shown` is the whole text. -/
def readMagnitude (base : Base) (shown : String) (text : List Char) : Except NumeralFault Nat :=
  let isPart := fun c => base.isDigit c || c == '_'
  let run := text.takeWhile isPart
  let digits := run.filter (· != '_')
  if !singlySpaced false run then .error (.malformed base shown)
  else if base = .ten ∧ maxDecimalDigits < digits.length then .error (.tooLong digits.length)
  else if (text.dropWhile isPart).all isNumeralSpace then .ok (digitsValue base digits)
  else .error (.malformed base shown)

/-- The integer that a text denotes. -/
def readInt (base : Base) (text : String) : Except NumeralFault Int :=
  let (negative, unsigned) := splitSign ((text.toList.map plainForm).dropWhile isNumeralSpace)
  (readMagnitude base text (dropBaseMark base unsigned)).map fun value =>
    if negative then -(value : Int) else value

end TwoPass.Text
