import TwoPass.Proofs.Loading

/-!
Byte constants: their language and their codes. `Denotes` is the grammar, with the bytes that a constant of
either form stands for, and a constant is accepted exactly if it denotes bytes, with the one code that
these bytes have (`byteCode_eq_ok_iff_denotes`). A code between the marks of a constant of digits denotes the same
bytes again (`byteCode_hexadecimalForm`).
-/
namespace TwoPass

open Text

/-- A text is the code of bytes: two capital digits for each of them, with its value. -/
structure Encodes (bytes : List Nat) (code : String) : Prop extends Spells bytes.length code where
  decoded : spelledBytes code.toList = bytes

namespace Text

theorem digitChar_hexDigitValue {c : Char} : isCapitalDigit c → (Nat.digitChar (hexDigitValue c)).toUpper = c :=
  forall_isCapitalDigit (motive := fun c => (Nat.digitChar (hexDigitValue c)).toUpper = c) (by decide +kernel)

theorem hexDigitValue_lt {c : Char} : isCapitalDigit c → hexDigitValue c < 16 :=
  forall_isCapitalDigit (motive := fun c => hexDigitValue c < 16) (by decide +kernel)

theorem hexDigitValue_toUpper {c : Char} (digit : isHexDigit c) : hexDigitValue c.toUpper = hexDigitValue c :=
  forall_ascii (motive := fun c => isHexDigit c → hexDigitValue c.toUpper = hexDigitValue c) (by decide +kernel)
    (toNat_lt_of_isHexDigit digit) digit

theorem isHexDigit_of_isCapitalDigit {c : Char} : isCapitalDigit c → isHexDigit c :=
  forall_isCapitalDigit (motive := fun c => isHexDigit c) (by decide +kernel)

/-- Capital digits are told apart by their values. -/
theorem eq_of_hexDigitValue_eq {c other : Char} (capital : isCapitalDigit c) (otherCapital : isCapitalDigit other)
    (same : hexDigitValue c = hexDigitValue other) : c = other := by
  rw [← digitChar_hexDigitValue capital, same, digitChar_hexDigitValue otherCapital]

theorem digitsValue_pair (high low : Char) :
    digitsValue .sixteen [high, low] = 16 * hexDigitValue high + hexDigitValue low := by
  simp [digitsValue, Base.value]

end Text

/-- An even number of capital digits is known from the bytes that they spell. -/
theorem eq_of_spelledBytes_eq {first second : List Char} (even : first.length % 2 = 0)
    (length : second.length = first.length) (capitals : ∀ c ∈ first, isCapitalDigit c)
    (others : ∀ c ∈ second, isCapitalDigit c) (same : spelledBytes first = spelledBytes second) : first = second := by
  induction first using spelledBytes.induct generalizing second with
  | case1 high low rest ih =>
    rcases second with _ | ⟨otherHigh, _ | ⟨otherLow, otherRest⟩⟩
    · simp at length
    · simp at length
    · simp only [List.length_cons] at even length
      simp only [List.forall_mem_cons] at capitals others
      simp only [spelledBytes, List.cons.injEq, digitsValue_pair] at same
      obtain ⟨highCapital, lowCapital, capitals⟩ := capitals
      obtain ⟨otherHighCapital, otherLowCapital, others⟩ := others
      -- The second digit is what remains of the byte, so that the byte determines both.
      have small := hexDigitValue_lt lowCapital
      have otherSmall := hexDigitValue_lt otherLowCapital
      rw [eq_of_hexDigitValue_eq highCapital otherHighCapital (by omega),
        eq_of_hexDigitValue_eq lowCapital otherLowCapital (by omega),
        ih (by omega) (by omega) capitals others same.2]
  | case2 => simp at even
  | case3 => exact (List.length_eq_zero_iff.mp length).symm

/-- Bytes have at most one code. -/
theorem Encodes.unique {bytes : List Nat} {first second : String} (encodes : Encodes bytes first)
    (others : Encodes bytes second) : first = second := by
  apply String.ext
  apply eq_of_spelledBytes_eq
  · rw [String.length_toList, encodes.length]
    omega
  · rw [String.length_toList, String.length_toList, encodes.length, others.length]
  · exact encodes.digits
  · exact others.digits
  · rw [encodes.decoded, others.decoded]

theorem Spells.encodes {bytes : Nat} {code : String} (spells : Spells bytes code) :
    Encodes (spelledBytes code.toList) code where
  length := by
    rw [length_spelledBytes, String.length_toList, spells.length]
    omega
  digits := spells.digits
  decoded := rfl

namespace Operand

/-- The bytes that a constant denotes: the codes of its characters, or what its digits spell. -/
inductive Denotes (constant : String) : List Nat → Prop
  | characters {kind : Char} {body : List Char} (isKind : kind = 'C' ∨ kind = 'c')
      (shape : constant.toList = kind :: Token.mark :: (body ++ [Token.mark])) (nonempty : body ≠ [])
      (allowed : ∀ c ∈ body, c.toNat ≤ 0xFF ∧ c ≠ Token.mark ∧ c ≠ '\t') :
      Denotes constant (body.map Char.toNat)
  | digits {kind : Char} {body : List Char} (isKind : kind = 'X' ∨ kind = 'x')
      (shape : constant.toList = kind :: Token.mark :: (body ++ [Token.mark])) (nonempty : body ≠ [])
      (even : body.length % 2 = 0) (hexadecimal : ∀ c ∈ body, isHexDigit c) :
      Denotes constant (spelledBytes body)

theorem spelledBytes_byteDigits {c : Char} (low : c.toNat ≤ 0xFF) : spelledBytes (byteDigits c) = [c.toNat] := by
  obtain ⟨two, -, value⟩ := byteDigits_numeral low
  rw [String.length_ofList] at two
  rw [String.toList_ofList] at value
  obtain ⟨first, second, digits⟩ := List.length_eq_two.mp two
  rw [digits] at value ⊢
  simp only [spelledBytes, value]

/-- The digits of characters spell their codes. -/
theorem flatMap_byteDigits_encodes {body : List Char} (low : ∀ c ∈ body, c.toNat ≤ 0xFF) :
    Encodes (body.map Char.toNat) (String.ofList (body.flatMap byteDigits)) := by
  have spelled : spelledBytes (body.flatMap byteDigits) = body.map Char.toNat := by
    induction body with
    | nil => rfl
    | cons c rest ih =>
      rw [List.forall_mem_cons] at low
      have two : (byteDigits c).length = 2 := by simpa using (byteDigits_numeral low.1).length
      rw [List.flatMap_cons, spelledBytes_append _ _ (by rw [two]), spelledBytes_byteDigits low.1, ih low.2]
      rfl
  have encodes := (flatMap_byteDigits_spells low).encodes
  rwa [String.toList_ofList, spelled] at encodes

/-- Digits spell the same in capital letters. -/
theorem map_toUpper_encodes {body : List Char} (even : body.length % 2 = 0) (hexadecimal : ∀ c ∈ body, isHexDigit c) :
    Encodes (spelledBytes body) (String.ofList (body.map Char.toUpper)) := by
  have spells : Spells (body.length / 2) (String.ofList (body.map Char.toUpper)) :=
    .map_toUpper (by omega) hexadecimal
  have spelled : spelledBytes (body.map Char.toUpper) = spelledBytes body := by
    clear even spells
    induction body using spelledBytes.induct with
    | case1 high low rest ih =>
      simp only [List.forall_mem_cons] at hexadecimal
      simp only [List.map_cons, spelledBytes, digitsValue_pair, hexDigitValue_toUpper hexadecimal.1,
        hexDigitValue_toUpper hexadecimal.2.1, ih hexadecimal.2.2]
    | case2 => rfl
    | case3 => rfl
  have encodes := spells.encodes
  rwa [String.toList_ofList, spelled] at encodes

/-- Whatever denotes bytes is accepted, with a code of them. -/
theorem Denotes.accepted {constant : String} {bytes : List Nat} (denotes : Denotes constant bytes) :
    ∃ code, byteCode (some constant) = .ok code ∧ Encodes bytes code := by
  have accepts {digits : List Char} (found : constantDigits? constant.toList = some digits) :
      byteCode (some constant) = .ok (String.ofList digits) := by
    rw [byteCode_eq_ok_iff, String.toList_ofList]
    exact found
  cases denotes with
  | @characters kind body isKind shape nonempty allowed =>
    refine ⟨_, accepts ?_, flatMap_byteDigits_encodes fun c member => (allowed c member).1⟩
    exact constantDigits?_eq_some_iff.mpr ⟨kind, body, constantParts?_eq_some_iff.mpr ⟨nonempty, shape⟩,
      .inl ⟨isKind, characterDigits?_eq_some_iff.mpr ⟨allowed, rfl⟩⟩⟩
  | @digits kind body isKind shape nonempty even hexadecimal =>
    refine ⟨_, accepts ?_, map_toUpper_encodes even hexadecimal⟩
    exact constantDigits?_eq_some_iff.mpr ⟨kind, body, constantParts?_eq_some_iff.mpr ⟨nonempty, shape⟩,
      .inr ⟨isKind, hexadecimalDigits?_eq_some_iff.mpr ⟨⟨even, hexadecimal⟩, rfl⟩⟩⟩

/-- Nothing else is accepted. -/
theorem exists_denotes {constant code : String} (accepted : byteCode (some constant) = .ok code) :
    ∃ bytes, Denotes constant bytes := by
  obtain ⟨kind, body, parts, form⟩ := constantDigits?_eq_some_iff.mp (byteCode_eq_ok_iff.mp accepted)
  obtain ⟨nonempty, shape⟩ := constantParts?_eq_some_iff.mp parts
  rcases form with ⟨isKind, found⟩ | ⟨isKind, found⟩
  · obtain ⟨allowed, -⟩ := characterDigits?_eq_some_iff.mp found
    exact ⟨_, .characters isKind shape nonempty allowed⟩
  · obtain ⟨⟨even, hexadecimal⟩, -⟩ := hexadecimalDigits?_eq_some_iff.mp found
    exact ⟨_, .digits isKind shape nonempty even hexadecimal⟩

theorem byteCode_eq_ok_iff_denotes {constant code : String} :
    byteCode (some constant) = .ok code ↔ ∃ bytes, Denotes constant bytes ∧ Encodes bytes code := by
  constructor
  · intro accepted
    obtain ⟨bytes, denotes⟩ := exists_denotes accepted
    obtain ⟨other, found, encodes⟩ := denotes.accepted
    obtain rfl := Except.ok.inj (found.symm.trans accepted)
    exact ⟨bytes, denotes, encodes⟩
  · rintro ⟨bytes, denotes, encodes⟩
    obtain ⟨other, found, others⟩ := denotes.accepted
    rw [found, others.unique encodes]

/-- The last character of one byte, digits of either case, and a mark for a body. -/
example : byteCode (some "c'ÿ'") = .ok "FF" ∧ byteCode (some "x'fF0a'") = .ok "FF0A" ∧
    byteCode (some "C'''") = .error .byteConstant := by
  decide +kernel

/-- A code as a constant of digits. -/
def hexadecimalForm (code : String) : String :=
  "X'" ++ code ++ "'"

theorem toList_hexadecimalForm (code : String) :
    (hexadecimalForm code).toList = 'X' :: Token.mark :: (code.toList ++ [Token.mark]) := by
  rw [hexadecimalForm, String.toList_append, String.toList_append]
  rfl

/-- The code of a constant has the constant of its digits for another spelling. -/
theorem byteCode_hexadecimalForm {operand : Option String} {code : String} (accepted : byteCode operand = .ok code) :
    byteCode (some (hexadecimalForm code)) = .ok code := by
  obtain ⟨bytes, positive, spells⟩ := byteCode_spells accepted
  -- The new constant denotes what the code spells, and bytes have no other code.
  refine byteCode_eq_ok_iff_denotes.mpr ⟨spelledBytes code.toList, ?_, spells.encodes⟩
  apply Denotes.digits (.inl rfl) (toList_hexadecimalForm code)
  · exact mt String.toList_eq_nil_iff.mp (spells.ne_empty positive)
  · rw [String.length_toList, spells.length]
    omega
  · exact fun c member => isHexDigit_of_isCapitalDigit (spells.digits c member)

end Operand

end TwoPass
