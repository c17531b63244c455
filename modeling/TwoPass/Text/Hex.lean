/-!
Hexadecimal digits and numbers in capital letters. `upperHex` writes a number with at
least the given number of characters, and a minus sign counts as one of them.
-/
namespace TwoPass.Text

/-- Whether a character is a hexadecimal digit of either case. -/
def isHexDigit (c : Char) : Bool :=
  ('0' ≤ c && c ≤ '9') || ('a' ≤ c && c ≤ 'f') || ('A' ≤ c && c ≤ 'F')

/-- The value of a hexadecimal digit, and zero for any other character. -/
def hexDigitValue (c : Char) : Nat :=
  if '0' ≤ c ∧ c ≤ '9' then c.toNat - '0'.toNat
  else if 'a' ≤ c ∧ c ≤ 'f' then c.toNat - 'a'.toNat + 10
  else if 'A' ≤ c ∧ c ≤ 'F' then c.toNat - 'A'.toNat + 10
  else 0

/-- The digits of a number, without leading zeros. -/
def hexDigits (n : Nat) : List Char :=
  (Nat.toDigits 16 n).map Char.toUpper

/-- Puts zeros in front of digits until there are `width` of them. -/
def padZeros (width : Nat) (digits : List Char) : List Char :=
  List.replicate (width - digits.length) '0' ++ digits

/-- A number in at least `width` characters. -/
def upperHex (width : Nat) (n : Int) : String :=
  if n < 0 then String.ofList ('-' :: padZeros (width - 1) (hexDigits n.natAbs))
  else String.ofList (padZeros width (hexDigits n.toNat))

end TwoPass.Text
