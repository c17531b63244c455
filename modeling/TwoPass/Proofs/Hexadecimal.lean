import Mathlib.Data.Int.ModEq
import Mathlib.Data.List.TakeWhile
import TwoPass.ObjectProgram
import TwoPass.Operand

/-!
Hexadecimal object code. A number that has no more digits than it is given room for is
written as a numeral of exactly that width and of its value (`upperHex_numeral`), and the
codes of words and byte constants are capital digits, two for each byte (`wordCode_numeral`,
`byteCode_spells`). Every written number is read back (`readInt_upperHex`).
-/
namespace TwoPass.Text

/-- The digits that object code is written with. -/
def isCapitalDigit (c : Char) : Bool :=
  ('0' ≤ c && c ≤ '9') || ('A' ≤ c && c ≤ 'F')

/-- A text is the numeral of a value: so many capital digits, with this value. -/
structure IsNumeral (width value : Nat) (text : String) : Prop where
  length : text.length = width
  digits : ∀ c ∈ text.toList, isCapitalDigit c
  value : digitsValue .sixteen text.toList = value

theorem toNat_lt_of_isHexDigit {c : Char} (digit : isHexDigit c) : c.toNat < 128 := by
  simp only [isHexDigit, Bool.or_eq_true, Bool.and_eq_true, decide_eq_true_eq, Char.le_def, UInt32.le_iff_toNat_le] at digit
  have code : c.toNat = c.val.toNat := rfl
  have nine : '9'.val.toNat = 57 := rfl
  have small : 'f'.val.toNat = 102 := rfl
  have capital : 'F'.val.toNat = 70 := rfl
  omega

/-- What holds of the first 128 characters holds of every one of them. -/
theorem forall_ascii {motive : Char → Prop} (checked : ∀ code < 128, motive (Char.ofNat code)) {c : Char}
    (ascii : c.toNat < 128) : motive c := by
  have here := checked c.toNat ascii
  rwa [Char.ofNat_toNat] at here

/-- A hexadecimal digit becomes a capital one. -/
theorem isCapitalDigit_toUpper {c : Char} (digit : isHexDigit c) : isCapitalDigit c.toUpper :=
  forall_ascii (motive := fun c => isHexDigit c → isCapitalDigit c.toUpper) (by decide +kernel)
    (toNat_lt_of_isHexDigit digit) digit

theorem isBlank_of_isHexDigit {c : Char} (digit : isHexDigit c) : isBlank c = false :=
  forall_ascii (motive := fun c => isHexDigit c → isBlank c = false) (by decide +kernel)
    (toNat_lt_of_isHexDigit digit) digit

private theorem digitChar_spec : ∀ digit < 16,
    isCapitalDigit (Nat.digitChar digit).toUpper ∧ hexDigitValue (Nat.digitChar digit).toUpper = digit := by
  decide +kernel

theorem digitsValue_concat (base : Base) (digits : List Char) (digit : Char) :
    digitsValue base (digits ++ [digit]) = base.value * digitsValue base digits + hexDigitValue digit := by
  simp [digitsValue]

theorem digitsValue_zeros (count : Nat) (digits : List Char) :
    digitsValue .sixteen (List.replicate count '0' ++ digits) = digitsValue .sixteen digits := by
  induction count with
  | zero => rfl
  | succ count ih =>
    rw [List.replicate_succ, List.cons_append]
    exact ih

/-- The digits of a number are those of its sixteenth part and the one that remains. -/
theorem hexDigits_eq (n : Nat) :
    hexDigits n =
      (if n < 16 then [] else hexDigits (n / 16)) ++ [(Nat.digitChar (n % 16)).toUpper] := by
  rw [hexDigits, Nat.toDigits_eq_if (by decide)]
  split
  next small => simp [Nat.mod_eq_of_lt small]
  next => simp [hexDigits]

theorem hexDigits_spec (n : Nat) :
    (∀ c ∈ hexDigits n, isCapitalDigit c) ∧ digitsValue .sixteen (hexDigits n) = n := by
  induction n using Nat.strongRecOn with
  | ind n ih =>
    obtain ⟨capital, worth⟩ := digitChar_spec (n % 16) (Nat.mod_lt n (by decide))
    rw [hexDigits_eq]
    by_cases small : n < 16
    · rw [if_pos small, List.nil_append]
      refine ⟨by simpa using capital, ?_⟩
      rw [Nat.mod_eq_of_lt small] at worth ⊢
      simpa [digitsValue] using worth
    · rw [if_neg small]
      obtain ⟨capitals, value⟩ := ih (n / 16) (by omega)
      constructor
      · intro c member
        rcases List.mem_append.mp member with front | last
        · exact capitals c front
        · rw [List.mem_singleton.mp last]
          exact capital
      · rw [digitsValue_concat, value, worth]
        exact Nat.div_add_mod n 16

theorem length_hexDigits_le {width n : Nat} (positive : 0 < width) (fits : n < 16 ^ width) :
    (hexDigits n).length ≤ width := by
  rw [hexDigits, List.length_map]
  exact (Nat.length_toDigits_le_iff (by decide) positive).mpr fits

theorem padZeros_spec (width n : Nat) :
    padZeros width (hexDigits n) ≠ [] ∧ (∀ c ∈ padZeros width (hexDigits n), isCapitalDigit c) ∧
      digitsValue .sixteen (padZeros width (hexDigits n)) = n := by
  obtain ⟨capitals, value⟩ := hexDigits_spec n
  refine ⟨?_, ?_, by rw [padZeros, digitsValue_zeros, value]⟩
  · rw [padZeros, hexDigits_eq]
    simp
  · intro c member
    rcases List.mem_append.mp member with zero | digit
    · rw [List.eq_of_mem_replicate zero]
      decide
    · exact capitals c digit

theorem padZeros_numeral {width n : Nat} (positive : 0 < width) (fits : n < 16 ^ width) :
    IsNumeral width n (String.ofList (padZeros width (hexDigits n))) := by
  obtain ⟨-, capitals, value⟩ := padZeros_spec width n
  have short := length_hexDigits_le positive fits
  refine ⟨?_, by rwa [String.toList_ofList], by rwa [String.toList_ofList]⟩
  simp only [padZeros, String.length_ofList, List.length_append, List.length_replicate]
  omega

/-- A number that fits is written with exactly so many digits. -/
theorem upperHex_numeral {width : Nat} {n : Int} (positive : 0 < width) (natural : 0 ≤ n) (fits : n < 16 ^ width) :
    IsNumeral width n.toNat (upperHex width n) := by
  rw [upperHex, if_neg (by omega)]
  apply padZeros_numeral positive
  have bound : (n.toNat : Int) < (16 ^ width : Nat) := by
    rw [Int.toNat_of_nonneg natural]
    exact_mod_cast fits
  exact_mod_cast bound

theorem toNat_lt_of_isCapitalDigit {c : Char} (capital : isCapitalDigit c) : c.toNat < 128 := by
  apply toNat_lt_of_isHexDigit
  simp only [isCapitalDigit, isHexDigit, Bool.or_eq_true] at capital ⊢
  tauto

/-- What holds of the capital digits among the first 128 characters holds of every one. -/
theorem forall_isCapitalDigit {motive : Char → Prop}
    (checked : ∀ code < 128, isCapitalDigit (Char.ofNat code) → motive (Char.ofNat code)) {c : Char}
    (capital : isCapitalDigit c) : motive c :=
  forall_ascii (motive := fun c => isCapitalDigit c → motive c) checked (toNat_lt_of_isCapitalDigit capital) capital

theorem isBlank_of_isCapitalDigit {c : Char} : isCapitalDigit c → isBlank c = false :=
  forall_isCapitalDigit (motive := fun c => isBlank c = false) (by decide +kernel)

theorem isNumeralSpace_of_isCapitalDigit {c : Char} : isCapitalDigit c → isNumeralSpace c = false :=
  forall_isCapitalDigit (motive := fun c => isNumeralSpace c = false) (by decide +kernel)

theorem isDigit_of_isCapitalDigit {c : Char} : isCapitalDigit c → Base.sixteen.isDigit c :=
  forall_isCapitalDigit (motive := fun c => Base.sixteen.isDigit c) (by decide +kernel)

theorem ne_of_isCapitalDigit {c other : Char} (capital : isCapitalDigit c) (different : isCapitalDigit other = false) :
    c ≠ other := by
  rintro rfl
  exact absurd capital (by simp [different])

section
variable {digits : List Char} (capitals : ∀ c ∈ digits, isCapitalDigit c)

include capitals

theorem map_plainForm_of_capitals : digits.map plainForm = digits := by
  conv_rhs => rw [← List.map_id digits]
  apply List.map_congr_left
  intro c member
  exact if_pos (toNat_lt_of_isCapitalDigit (capitals c member))

theorem dropBaseMark_of_capitals : dropBaseMark .sixteen digits = digits := by
  unfold dropBaseMark
  split
  next mark rest _ =>
    have capital := capitals mark (by simp)
    rw [if_neg]
    rintro (rfl | rfl)
    · exact ne_of_isCapitalDigit capital (by decide) rfl
    · exact ne_of_isCapitalDigit capital (by decide) rfl
  next => rfl

theorem singlySpaced_of_capitals (afterDigit : Bool) :
    singlySpaced afterDigit digits = (afterDigit || !digits.isEmpty) := by
  induction digits generalizing afterDigit with
  | nil => simp [singlySpaced]
  | cons c rest ih =>
    rw [singlySpaced, ih fun other member => capitals other (List.mem_cons_of_mem c member)]
    · simp
    · exact ne_of_isCapitalDigit (capitals c List.mem_cons_self) (by decide)

theorem readMagnitude_of_capitals (shown : String) (nonempty : digits ≠ []) :
    readMagnitude .sixteen shown digits = .ok (digitsValue .sixteen digits) := by
  have parts : ∀ c ∈ digits, (Base.sixteen.isDigit c || c == '_') = true := by
    intro c member
    rw [isDigit_of_isCapitalDigit (capitals c member), Bool.true_or]
  have kept : digits.filter (· != '_') = digits := by
    apply List.filter_eq_self.mpr
    intro c member
    simpa using ne_of_isCapitalDigit (capitals c member) (by decide)
  have rest : digits.dropWhile (fun c => Base.sixteen.isDigit c || c == '_') = [] :=
    List.dropWhile_eq_nil_iff.mpr parts
  simp [readMagnitude, List.takeWhile_eq_self_iff.mpr parts, kept, rest, singlySpaced_of_capitals capitals, nonempty]

end

theorem splitSign_of_unsigned {c : Char} (notMinus : c ≠ '-') (notPlus : c ≠ '+') (rest : List Char) :
    splitSign (c :: rest) = (false, c :: rest) := by
  unfold splitSign
  split <;> simp_all

theorem splitSign_of_capital {c : Char} (capital : isCapitalDigit c) (rest : List Char) :
    splitSign (c :: rest) = (false, c :: rest) :=
  splitSign_of_unsigned (ne_of_isCapitalDigit capital (by decide)) (ne_of_isCapitalDigit capital (by decide)) rest

theorem readInt_of_sign {base : Base} {text : String} {negative : Bool} {unsigned : List Char}
    (sign : splitSign ((text.toList.map plainForm).dropWhile isNumeralSpace) = (negative, unsigned)) :
    readInt base text = (readMagnitude base text (dropBaseMark base unsigned)).map fun value =>
      if negative then -(value : Int) else value := by
  rw [readInt, sign]

theorem readInt_of_parts {base : Base} {text : String} {negative : Bool} {unsigned : List Char} {value : Nat}
    (sign : splitSign ((text.toList.map plainForm).dropWhile isNumeralSpace) = (negative, unsigned))
    (magnitude : readMagnitude base text (dropBaseMark base unsigned) = .ok value) :
    readInt base text = .ok (if negative then -(value : Int) else value) := by
  rw [readInt_of_sign sign, magnitude]
  rfl

/-- A written number is read back, whatever its width and its sign. -/
theorem readInt_upperHex (width : Nat) (n : Int) : readInt .sixteen (upperHex width n) = .ok n := by
  have magnitude {digits : List Char} (shown : String) (capitals : ∀ c ∈ digits, isCapitalDigit c)
      (nonempty : digits ≠ []) : readMagnitude .sixteen shown (dropBaseMark .sixteen digits) =
        .ok (digitsValue .sixteen digits) := by
    rw [dropBaseMark_of_capitals capitals, readMagnitude_of_capitals capitals shown nonempty]
  by_cases negative : n < 0
  · rw [upperHex, if_pos negative]
    obtain ⟨nonempty, capitals, value⟩ := padZeros_spec (width - 1) n.natAbs
    generalize padZeros (width - 1) (hexDigits n.natAbs) = digits at nonempty capitals value
    have sign : splitSign (((String.ofList ('-' :: digits)).toList.map plainForm).dropWhile isNumeralSpace) =
        (true, digits) := by
      have minus : isNumeralSpace (plainForm '-') = false := by decide
      rw [String.toList_ofList, List.map_cons, map_plainForm_of_capitals capitals,
        List.dropWhile_cons_of_neg (by simp [minus])]
      rfl
    rw [readInt_of_parts sign (magnitude _ capitals nonempty), value, if_pos rfl]
    exact congrArg Except.ok (by omega)
  · rw [upperHex, if_neg negative]
    obtain ⟨nonempty, capitals, value⟩ := padZeros_spec width n.toNat
    generalize padZeros width (hexDigits n.toNat) = digits at nonempty capitals value
    have sign : splitSign (((String.ofList digits).toList.map plainForm).dropWhile isNumeralSpace) =
        (false, digits) := by
      obtain ⟨c, rest, rfl⟩ := List.exists_cons_of_ne_nil nonempty
      have capital : isCapitalDigit c := capitals c List.mem_cons_self
      rw [String.toList_ofList, map_plainForm_of_capitals capitals,
        List.dropWhile_cons_of_neg (by simp [isNumeralSpace_of_isCapitalDigit capital]), splitSign_of_capital capital]
    rw [readInt_of_parts sign (magnitude _ capitals nonempty), value, if_neg (by decide)]
    exact congrArg Except.ok (by omega)

/-- The characters of a written number. -/
theorem mem_upperHex {width : Nat} {n : Int} {c : Char} (member : c ∈ (upperHex width n).toList) :
    c = '-' ∨ isCapitalDigit c := by
  rw [upperHex] at member
  split at member
  · rw [String.toList_ofList, List.mem_cons] at member
    exact member.imp_right ((padZeros_spec (width - 1) n.natAbs).2.1 c)
  · rw [String.toList_ofList] at member
    exact .inr ((padZeros_spec width n.toNat).2.1 c member)

theorem upperHex_ne_empty (width : Nat) (n : Int) : upperHex width n ≠ "" := by
  intro empty
  have read := readInt_upperHex width n
  rw [empty] at read
  contradiction

end TwoPass.Text

namespace TwoPass

open Text

/-- A text spells so many bytes: two capital digits for each. -/
structure Spells (bytes : Nat) (code : String) : Prop where
  length : code.length = 2 * bytes
  digits : ∀ c ∈ code.toList, isCapitalDigit c

namespace Spells

theorem byteCount {bytes : Nat} {code : String} (spells : Spells bytes code) : TwoPass.byteCount code = bytes := by
  rw [TwoPass.byteCount, spells.length]
  omega

theorem ne_empty {bytes : Nat} {code : String} (spells : Spells bytes code) (positive : 0 < bytes) : code ≠ "" := by
  rintro rfl
  have length := spells.length
  rw [String.length_empty] at length
  omega

theorem append {first second : Nat} {front back : String} (front_spells : Spells first front)
    (back_spells : Spells second back) : Spells (first + second) (front ++ back) where
  length := by
    rw [String.length_append, front_spells.length, back_spells.length]
    omega
  digits := by
    intro c member
    rw [String.toList_append] at member
    rcases List.mem_append.mp member with left | right
    · exact front_spells.digits c left
    · exact back_spells.digits c right

theorem of_numeral {bytes value : Nat} {code : String} (numeral : IsNumeral (2 * bytes) value code) :
    Spells bytes code :=
  ⟨numeral.length, numeral.digits⟩

theorem ofList {bytes : Nat} {digits : List Char} (length : digits.length = 2 * bytes)
    (capitals : ∀ c ∈ digits, isCapitalDigit c) : Spells bytes (String.ofList digits) :=
  ⟨by rw [String.length_ofList, length], by rwa [String.toList_ofList]⟩

/-- Digits in capital letters. -/
theorem map_toUpper {bytes : Nat} {digits : List Char} (length : digits.length = 2 * bytes)
    (hexadecimal : ∀ c ∈ digits, isHexDigit c) : Spells bytes (String.ofList (digits.map Char.toUpper)) := by
  apply ofList
  · rw [List.length_map, length]
  · intro c member
    obtain ⟨digit, isDigit, rfl⟩ := List.mem_map.mp member
    exact isCapitalDigit_toUpper (hexadecimal digit isDigit)

end Spells

namespace Operand

/-- The code of a word is the numeral of its remainder in six digits. -/
theorem wordCode_numeral (value : Int) : IsNumeral 6 (value % 0x1000000).toNat (wordCode value) :=
  upperHex_numeral (by decide) (Int.emod_nonneg value (by decide)) (Int.emod_lt_of_pos value (by decide))

theorem wordCode_spells (value : Int) : Spells 3 (wordCode value) :=
  .of_numeral (wordCode_numeral value)

/-- The code of a word has its value up to a multiple of 2 to the 24. -/
theorem wordCode_modEq (value : Int) : (digitsValue .sixteen (wordCode value).toList : Int) ≡ value [ZMOD 2 ^ 24] := by
  rw [(wordCode_numeral value).value, Int.toNat_of_nonneg (Int.emod_nonneg value (by decide))]
  exact Int.mod_modEq value 0x1000000

theorem characterDigits?_eq_some_iff {body digits : List Char} :
    characterDigits? body = some digits ↔
      (∀ c ∈ body, c.toNat ≤ 0xFF ∧ c ≠ Token.mark ∧ c ≠ '\t') ∧ body.flatMap byteDigits = digits := by
  have allowed (c : Char) : (c ≠ Token.mark && c ≠ '\t' && c.toNat ≤ 0xFF) = true ↔
      c.toNat ≤ 0xFF ∧ c ≠ Token.mark ∧ c ≠ '\t' := by
    simp only [Bool.and_eq_true, decide_eq_true_eq]
    exact and_comm
  simp only [characterDigits?, Option.ite_none_right_eq_some, Option.some.injEq, List.all_eq_true, allowed]

theorem hexadecimalDigits?_eq_some_iff {body digits : List Char} :
    hexadecimalDigits? body = some digits ↔
      (body.length % 2 = 0 ∧ ∀ c ∈ body, isHexDigit c) ∧ body.map Char.toUpper = digits := by
  simp only [hexadecimalDigits?, Option.ite_none_right_eq_some, Option.some.injEq, List.all_eq_true]

/-- A text has parts exactly if it is a letter and a body between marks that is not empty. -/
theorem constantParts?_eq_some_iff {constant : List Char} {kind : Char} {body : List Char} :
    constantParts? constant = some (kind, body) ↔
      body ≠ [] ∧ constant = kind :: Token.mark :: (body ++ [Token.mark]) := by
  constructor
  · intro parts
    unfold constantParts? at parts
    split at parts
    next first opening rest =>
      simp only [Option.ite_none_right_eq_some, Option.some.injEq, Prod.mk.injEq] at parts
      obtain ⟨⟨rfl, closed, long⟩, rfl, rfl⟩ := parts
      obtain ⟨body, rfl⟩ := List.getLast?_eq_some_iff.mp closed
      rw [List.length_append, List.length_singleton] at long
      rw [List.dropLast_concat]
      exact ⟨List.ne_nil_of_length_pos (by omega), rfl⟩
    next => contradiction
  · rintro ⟨nonempty, rfl⟩
    have long : 0 < body.length := List.length_pos_iff.mpr nonempty
    have room : 2 ≤ (body ++ [Token.mark]).length := by
      rw [List.length_append, List.length_singleton]
      omega
    rw [constantParts?, if_pos ⟨rfl, List.getLast?_concat, room⟩, List.dropLast_concat]

/-- The letter decides how the body is read. -/
theorem constantDigits?_eq_some_iff {constant digits : List Char} :
    constantDigits? constant = some digits ↔
      ∃ kind body, constantParts? constant = some (kind, body) ∧
        ((kind = 'C' ∨ kind = 'c') ∧ characterDigits? body = some digits ∨
          (kind = 'X' ∨ kind = 'x') ∧ hexadecimalDigits? body = some digits) := by
  unfold constantDigits?
  cases constantParts? constant with
  | none => simp
  | some parts =>
    obtain ⟨kind, body⟩ := parts
    simp only [Option.some.injEq, Prod.mk.injEq]
    constructor
    · intro found
      refine ⟨kind, body, ⟨rfl, rfl⟩, ?_⟩
      split at found
      next isCharacter => exact .inl ⟨isCharacter, found⟩
      next =>
        split at found
        next isHexadecimal => exact .inr ⟨isHexadecimal, found⟩
        next => contradiction
    · rintro ⟨_, _, ⟨rfl, rfl⟩, ⟨isCharacter, found⟩ | ⟨isHexadecimal, found⟩⟩
      · rwa [if_pos isCharacter]
      · have other : ¬ (kind = 'C' ∨ kind = 'c') := by
          rcases isHexadecimal with rfl | rfl <;> decide
        rwa [if_neg other, if_pos isHexadecimal]

theorem byteCode_eq_ok_iff {operand : Option String} {code : String} :
    byteCode operand = .ok code ↔ constantDigits? (operand.getD "").toList = some code.toList := by
  unfold byteCode
  cases constantDigits? (operand.getD "").toList with
  | none => simp
  | some digits => simp only [Except.ok.injEq, Option.some.injEq, String.ext_iff, String.toList_ofList]

theorem byteDigits_numeral {c : Char} (low : c.toNat ≤ 0xFF) : IsNumeral 2 c.toNat (String.ofList (byteDigits c)) :=
  padZeros_numeral (by decide) (by omega)

/-- A constant of characters has one byte for each. -/
theorem flatMap_byteDigits_spells {body : List Char} (low : ∀ c ∈ body, c.toNat ≤ 0xFF) :
    Spells body.length (String.ofList (body.flatMap byteDigits)) := by
  induction body with
  | nil => exact ⟨rfl, nofun⟩
  | cons c rest ih =>
    rw [List.forall_mem_cons] at low
    have here : Spells 1 (String.ofList (byteDigits c)) := .of_numeral (byteDigits_numeral low.1)
    rw [List.flatMap_cons, String.ofList_append, List.length_cons, Nat.add_comm]
    exact here.append (ih low.2)

/-- A byte constant spells at least one byte. -/
theorem byteCode_spells {operand : Option String} {code : String} (accepted : byteCode operand = .ok code) :
    ∃ bytes, 0 < bytes ∧ Spells bytes code := by
  obtain ⟨kind, body, parts, form⟩ := constantDigits?_eq_some_iff.mp (byteCode_eq_ok_iff.mp accepted)
  have nonempty : 0 < body.length := List.length_pos_iff.mpr (constantParts?_eq_some_iff.mp parts).1
  rw [← String.ofList_toList (s := code)]
  rcases form with ⟨-, found⟩ | ⟨-, found⟩
  · obtain ⟨allowed, digits⟩ := characterDigits?_eq_some_iff.mp found
    exact ⟨body.length, nonempty, digits ▸ flatMap_byteDigits_spells fun c member => (allowed c member).1⟩
  · obtain ⟨⟨even, hexadecimal⟩, digits⟩ := hexadecimalDigits?_eq_some_iff.mp found
    exact ⟨body.length / 2, by omega, digits ▸ .map_toUpper (by omega) hexadecimal⟩

end Operand

end TwoPass
