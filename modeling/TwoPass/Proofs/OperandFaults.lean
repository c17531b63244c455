import TwoPass.Proofs.CodeSizes
import TwoPass.Proofs.ErrorLimit

/-!
What is said about operands that are refused. Start addresses, words and byte constants are in their range or
refused with the one text that says what they should be. Counts are the exception: characters that only look
like digits, and more digits than are read, are refused with the words of the reader of numerals
(`Deceptive`, `count_expects_iff`). The hints of a layout are these texts (`layoutEvents_refused`).
-/
namespace TwoPass

open Text

namespace Text

theorem exists_zero_of_decimalValue? {c : Char} {value : Nat} (decimal : decimalValue? c = some value) :
    ∃ first ∈ zeros, value < 10 ∧ c = Char.ofNat (first + value) := by
  obtain ⟨first, found, rfl⟩ := Option.map_eq_some_iff.mp decimal
  have within := List.find?_some found
  simp only [Bool.and_eq_true, decide_eq_true_eq] at within
  refine ⟨first, List.mem_of_find?_eq_some found, by omega, ?_⟩
  rw [Nat.add_sub_cancel' within.1, Char.ofNat_toNat]

/-- The plain form of a decimal digit of any script is the digit of the same value. -/
theorem plainForm_of_decimal {c : Char} {value : Nat} (decimal : decimalValue? c = some value) :
    value < 10 ∧ plainForm c = Char.ofNat ('0'.toNat + value) := by
  have dark : ∀ first ∈ zeros, ∀ value < 10, isBlank (Char.ofNat (first + value)) = false := by decide +kernel
  have low : ∀ first ∈ zeros, ∀ value < 10, (Char.ofNat (first + value)).toNat < 0x80 → first = '0'.toNat := by
    decide +kernel
  obtain ⟨first, listed, small, shape⟩ := exists_zero_of_decimalValue? decimal
  refine ⟨small, ?_⟩
  rw [plainForm]
  split
  next ascii => rw [shape, low first listed value small (shape ▸ ascii)]
  next => rw [if_neg (by simp [shape, dark first listed value small]), decimal]

/-- A character that shows a digit without being one is in no numeral. -/
theorem plainForm_of_digitForm {c : Char} (shows : isDigitLike c) (other : decimalValue? c = none) :
    plainForm c = '?' := by
  have form : ∀ range ∈ digitFormRanges, ∀ step ≤ range.2 - range.1,
      ¬ (Char.ofNat (range.1 + step)).toNat < 0x80 ∧ isBlank (Char.ofNat (range.1 + step)) = false := by decide +kernel
  simp only [isDigitLike, other, Option.isSome_none, Bool.false_or, List.any_eq_true, Bool.and_eq_true,
    decide_eq_true_eq] at shows
  obtain ⟨range, listed, low, high⟩ := shows
  have here := form range listed (c.toNat - range.1) (by omega)
  rw [Nat.add_sub_cancel' low, Char.ofNat_toNat] at here
  rw [plainForm, if_neg here.1, if_neg (by simp [here.2]), other]

theorem plain_decimal : ∀ value < 10, let c := Char.ofNat ('0'.toNat + value)
    isCapitalDigit c ∧ Base.ten.isDigit c ∧ isNumeralSpace c = false ∧ c ≠ '-' ∧ c ≠ '+' := by
  decide +kernel

/-- Behind no space and no sign, a text is read as it is. -/
theorem readInt_of_digitLike {text : String} (nonempty : text ≠ "") (shows : ∀ c ∈ text.toList, isDigitLike c) :
    readInt .ten text = (readMagnitude .ten text (text.toList.map plainForm)).map fun value => (value : Int) := by
  have start : ∀ c ∈ text.toList,
      isNumeralSpace (plainForm c) = false ∧ plainForm c ≠ '-' ∧ plainForm c ≠ '+' := by
    intro c member
    cases decimal : decimalValue? c with
    | none =>
      rw [plainForm_of_digitForm (shows c member) decimal]
      decide
    | some value =>
      obtain ⟨small, plain⟩ := plainForm_of_decimal decimal
      obtain ⟨-, -, digit⟩ := plain_decimal value small
      rwa [plain]
  obtain ⟨c, rest, shape⟩ := List.exists_cons_of_ne_nil (mt String.toList_eq_nil_iff.mp nonempty)
  obtain ⟨dark, notMinus, notPlus⟩ := start c (shape ▸ List.mem_cons_self)
  have sign : splitSign ((text.toList.map plainForm).dropWhile isNumeralSpace) =
      (false, text.toList.map plainForm) := by
    rw [shape, List.map_cons, List.dropWhile_cons_of_neg (by simp [dark]), splitSign_of_unsigned notMinus notPlus]
  exact readInt_of_sign sign

theorem readMagnitude_of_decimals {digits : List Char}
    (decimals : ∀ c ∈ digits, ∃ value < 10, c = Char.ofNat ('0'.toNat + value))
    (nonempty : digits ≠ []) (shown : String) :
    readMagnitude .ten shown digits =
      if maxDecimalDigits < digits.length then .error (.tooLong digits.length)
      else .ok (digitsValue .ten digits) := by
  have capitals : ∀ c ∈ digits, isCapitalDigit c := by
    intro c member
    obtain ⟨value, small, rfl⟩ := decimals c member
    exact (plain_decimal value small).1
  have parts : ∀ c ∈ digits, (Base.ten.isDigit c || c == '_') = true := by
    intro c member
    obtain ⟨value, small, rfl⟩ := decimals c member
    rw [(plain_decimal value small).2.1, Bool.true_or]
  have kept : digits.filter (· != '_') = digits := by
    apply List.filter_eq_self.mpr
    intro c member
    simpa using ne_of_isCapitalDigit (capitals c member) (by decide)
  have rest : digits.dropWhile (fun c => Base.ten.isDigit c || c == '_') = [] := List.dropWhile_eq_nil_iff.mpr parts
  simp [readMagnitude, List.takeWhile_eq_self_iff.mpr parts, kept, rest, singlySpaced_of_capitals capitals, nonempty]

/-- A character that is in no numeral ends the digits without being a space. -/
theorem readMagnitude_of_mem {text : List Char} (member : '?' ∈ text) (base : Base) (shown : String) :
    ∃ fault, readMagnitude base shown text = .error fault := by
  have behind : '?' ∈ text.dropWhile (fun c => base.isDigit c || c == '_') := by
    have split := List.takeWhile_append_dropWhile (p := fun c => base.isDigit c || c == '_') (l := text)
    rw [← split, List.mem_append] at member
    refine member.resolve_left fun inside => ?_
    have part := List.mem_takeWhile_imp inside
    cases base <;> exact absurd part (by decide)
  have trailing : (text.dropWhile (fun c => base.isDigit c || c == '_')).all isNumeralSpace = false := by
    rw [List.all_eq_false]
    exact ⟨'?', behind, by decide⟩
  rw [readMagnitude]
  split
  · exact ⟨_, rfl⟩
  · split
    · exact ⟨_, rfl⟩
    · simp [trailing]

end Text

namespace Operand

/-- An operand that looks like a count and is none: it is made of characters that show digits, but one of them is no
    decimal digit, or there are more than are read. -/
structure Deceptive (operand : Option String) : Prop where
  present : operand.getD "" ≠ ""
  shows : ∀ c ∈ (operand.getD "").toList, isDigitLike c
  unreadable : (∃ c ∈ (operand.getD "").toList, decimalValue? c = none) ∨ maxDecimalDigits < (operand.getD "").length

theorem count_of_hidden {operand : Option String}
    (hidden : operand.getD "" = "" ∨ ¬ ∀ c ∈ (operand.getD "").toList, isDigitLike c) :
    count operand = .error .count := by
  rw [count, if_pos]
  rw [Bool.or_eq_true, String.isEmpty_iff, Bool.not_eq_true', ← Bool.not_eq_true, List.all_eq_true]
  exact hidden

theorem count_of_shown {operand : Option String} (present : operand.getD "" ≠ "")
    (shows : ∀ c ∈ (operand.getD "").toList, isDigitLike c) :
    count operand =
      match readMagnitude .ten (operand.getD "") ((operand.getD "").toList.map plainForm) with
      | .ok value => .ok value
      | .error fault => .error (.numeral fault) := by
  have passes : ((operand.getD "").isEmpty || !(operand.getD "").toList.all isDigitLike) = false := by
    simpa using ⟨present, shows⟩
  simp only [count, passes, readInt_of_digitLike present shows]
  cases readMagnitude .ten (operand.getD "") ((operand.getD "").toList.map plainForm) <;> rfl

theorem readMagnitude_of_readable {text : String} (present : text ≠ "")
    (readable : ∀ c ∈ text.toList, decimalValue? c ≠ none) :
    readMagnitude .ten text (text.toList.map plainForm) =
      if maxDecimalDigits < text.length then .error (.tooLong text.length)
      else .ok (digitsValue .ten (text.toList.map plainForm)) := by
  have decimals : ∀ c ∈ text.toList.map plainForm, ∃ value < 10, c = Char.ofNat ('0'.toNat + value) := by
    intro c member
    obtain ⟨digit, inside, rfl⟩ := List.mem_map.mp member
    obtain ⟨value, decimal⟩ := Option.ne_none_iff_exists'.mp (readable digit inside)
    exact ⟨value, plainForm_of_decimal decimal⟩
  have nonempty : text.toList.map plainForm ≠ [] := by
    rw [Ne, List.map_eq_nil_iff, String.toList_eq_nil_iff]
    exact present
  rw [readMagnitude_of_decimals decimals nonempty, List.length_map, String.length_toList]

/-- A deceptive operand is refused in the words of the reader of numerals. -/
theorem Deceptive.count {operand : Option String} (deceptive : Deceptive operand) :
    ∃ fault, Operand.count operand = .error (.numeral fault) := by
  obtain ⟨present, shows, unreadable⟩ := deceptive
  have refused : ∃ fault,
      readMagnitude .ten (operand.getD "") ((operand.getD "").toList.map plainForm) = .error fault := by
    by_cases readable : ∀ c ∈ (operand.getD "").toList, decimalValue? c ≠ none
    · have long : maxDecimalDigits < (operand.getD "").length := by
        refine unreadable.resolve_left ?_
        rintro ⟨c, member, other⟩
        exact readable c member other
      rw [readMagnitude_of_readable present readable, if_pos long]
      exact ⟨_, rfl⟩
    · push Not at readable
      obtain ⟨c, member, other⟩ := readable
      have inside := List.mem_map_of_mem (f := plainForm) member
      rw [plainForm_of_digitForm (shows c member) other] at inside
      exact readMagnitude_of_mem inside .ten _
  obtain ⟨fault, refused⟩ := refused
  rw [count_of_shown present shows, refused]
  exact ⟨fault, rfl⟩

/-- Any other operand is read as a count, or refused as none. -/
theorem count_of_not_deceptive {operand : Option String} (plain : ¬ Deceptive operand) :
    (∃ value, count operand = .ok value) ∨ count operand = .error .count := by
  by_cases hidden : operand.getD "" = "" ∨ ¬ ∀ c ∈ (operand.getD "").toList, isDigitLike c
  · exact .inr (count_of_hidden hidden)
  · rw [not_or, not_not] at hidden
    obtain ⟨present, shows⟩ := hidden
    have readable : ∀ c ∈ (operand.getD "").toList, decimalValue? c ≠ none := by
      intro c member other
      exact plain ⟨present, shows, .inl ⟨c, member, other⟩⟩
    have short : ¬ maxDecimalDigits < (operand.getD "").length := by
      intro long
      exact plain ⟨present, shows, .inr long⟩
    rw [count_of_shown present shows, readMagnitude_of_readable present readable, if_neg short]
    exact .inl ⟨_, rfl⟩

/-- What a function for operands promises: a value in its range, or a refusal with its one text. -/
def Expects {α : Type} (outcome : Except OperandFault α) (inRange : α → Prop) (text : String) : Prop :=
  (∃ value, outcome = .ok value ∧ inRange value) ∨ ∃ fault, outcome = .error fault ∧ fault.message = text

theorem startAddress_expects (operand : Option String) :
    Expects (startAddress operand) (· ≤ 0xFFFF) "a hexadecimal start address (0000-FFFF)" := by
  rw [startAddress]
  split
  · exact .inr ⟨_, rfl, rfl⟩
  · split
    next inside => exact .inl ⟨_, rfl, inside⟩
    next => exact .inr ⟨_, rfl, rfl⟩

theorem word_expects (operand : Option String) :
    Expects (word operand) (fun value => -0x800000 ≤ value ∧ value ≤ 0xFFFFFF)
      "a decimal integer between -8388608 and 16777215" := by
  have text : OperandFault.word.message = "a decimal integer between -8388608 and 16777215" := by decide +kernel
  rw [word]
  split
  · split
    next inside => exact .inl ⟨_, rfl, inside⟩
    next => exact .inr ⟨_, rfl, text⟩
  · exact .inr ⟨_, rfl, text⟩

theorem byteCode_expects (operand : Option String) :
    Expects (byteCode operand)
      (fun code => code ≠ "" ∧ code.length % 2 = 0 ∧ ∀ c ∈ code.toList, isCapitalDigit c)
      "C'<characters, no tabs>' or X'<even number of hex digits>'" := by
  cases outcome : byteCode operand with
  | ok code =>
    obtain ⟨bytes, positive, spells⟩ := byteCode_spells outcome
    refine .inl ⟨code, rfl, spells.ne_empty positive, ?_, spells.digits⟩
    rw [spells.length]
    omega
  | error fault =>
    unfold byteCode at outcome
    split at outcome
    next => contradiction
    next =>
      obtain rfl := Except.error.inj outcome
      exact .inr ⟨_, rfl, rfl⟩

private theorem head?_toList_append {front : String} {c : Char} (first : front.toList.head? = some c) (back : String) :
    (front ++ back).toList.head? = some c := by
  rw [String.toList_append, List.head?_append, first, Option.some_or]

private theorem head?_message (fault : NumeralFault) :
    fault.message.toList.head? = some 'i' ∨ fault.message.toList.head? = some 'E' := by
  cases fault with
  | malformed base text =>
    refine .inl (head?_toList_append (head?_toList_append (head?_toList_append ?_ _) _) _)
    decide +kernel
  | tooLong digits =>
    refine .inr (head?_toList_append (head?_toList_append (head?_toList_append (head?_toList_append ?_ _) _) _) _)
    decide +kernel

/-- The reader of numerals says nothing of a count. -/
theorem message_numeral_ne (fault : NumeralFault) :
    (OperandFault.numeral fault).message ≠ "a non-negative decimal count" := by
  intro same
  have isA : "a non-negative decimal count".toList.head? = some 'a' := by decide +kernel
  have first : fault.message.toList.head? = some 'a' := (congrArg (·.toList.head?) same).trans isA
  rcases head?_message fault with other | other <;> exact absurd (first.symm.trans other) (by decide)

/-- Counts keep the promise for all operands that are not deceptive. -/
theorem count_expects_iff (operand : Option String) :
    Expects (count operand) (fun _ => True) "a non-negative decimal count" ↔ ¬ Deceptive operand := by
  constructor
  · intro promised deceptive
    obtain ⟨numeral, refused⟩ := deceptive.count
    rcases promised with ⟨value, accepted, -⟩ | ⟨fault, found, text⟩
    · rw [refused] at accepted
      contradiction
    · obtain rfl := Except.error.inj (refused.symm.trans found)
      exact message_numeral_ne numeral text
  · intro plain
    rcases count_of_not_deceptive plain with ⟨value, accepted⟩ | refused
    · exact .inl ⟨value, accepted, trivial⟩
    · exact .inr ⟨_, refused, rfl⟩

theorem Expects.message {α : Type} {outcome : Except OperandFault α} {inRange : α → Prop} {text : String}
    (promised : Expects outcome inRange text) {fault : OperandFault} (refused : outcome = .error fault) :
    fault.message = text := by
  rcases promised with ⟨value, accepted, -⟩ | ⟨other, found, same⟩
  · rw [refused] at accepted
    contradiction
  · obtain rfl := Except.error.inj (refused.symm.trans found)
    exact same

end Operand

/-- What the operand of a directive should be, if it has one. -/
def Directive.expectation? : Directive → Option String
  | start => some "a hexadecimal start address (0000-FFFF)"
  | finish => none
  | word => some "a decimal integer between -8388608 and 16777215"
  | byte => some "C'<characters, no tabs>' or X'<even number of hex digits>'"
  | reserveWords | reserveBytes => some "a non-negative decimal count"

/-- A directive refuses an operand. -/
def Directive.Refuses (operand : Option String) (fault : OperandFault) : Directive → Prop
  | start => Operand.startAddress operand = .error fault
  | finish => False
  | word => Operand.word operand = .error fault
  | byte => Operand.byteCode operand = .error fault
  | reserveWords | reserveBytes => Operand.count operand = .error fault

/-- A directive that reserves memory refuses a deceptive operand in other words than it should; every other refusal is
    what it should be. -/
theorem Directive.Refuses.message_iff {operand : Option String} {fault : OperandFault} {directive : Directive}
    (refuses : directive.Refuses operand fault) :
    ∃ expected, directive.expectation? = some expected ∧
      (fault.message = expected ↔
        ¬ ((directive = .reserveWords ∨ directive = .reserveBytes) ∧ Operand.Deceptive operand)) := by
  have counted (refused : Operand.count operand = .error fault) :
      fault.message = "a non-negative decimal count" ↔ ¬ Operand.Deceptive operand := by
    rw [← Operand.count_expects_iff]
    exact ⟨fun same => .inr ⟨fault, refused, same⟩, fun promised => promised.message refused⟩
  cases directive with
  | start => exact ⟨_, rfl, by simpa using (Operand.startAddress_expects operand).message refuses⟩
  | finish => exact refuses.elim
  | word => exact ⟨_, rfl, by simpa using (Operand.word_expects operand).message refuses⟩
  | byte => exact ⟨_, rfl, by simpa using (Operand.byteCode_expects operand).message refuses⟩
  | reserveWords => exact ⟨_, rfl, by simpa using counted refuses⟩
  | reserveBytes => exact ⟨_, rfl, by simpa using counted refuses⟩

theorem statementSize_refuses {table : OpcodeTable} {opcode : String} {operand : Option String} {fault : OperandFault}
    (refused : statementSize table opcode operand = .error fault) :
    ∃ directive : Directive, opcode = directive.name ∧ directive.Refuses operand fault := by
  have error_of_map {α β : Type} {image : α → β} {outcome : Except OperandFault α}
      (failed : outcome.map image = .error fault) : outcome = .error fault := by
    cases outcome with
    | error other => exact congrArg Except.error (Except.error.inj failed)
    | ok value => contradiction
  unfold statementSize at refused
  cases means : table.operation opcode with
  | instruction code => simp [means] at refused
  | unknown => simp [means] at refused
  | directive directive =>
    refine ⟨directive, (table.operation_eq_directive_iff opcode directive).mp means, ?_⟩
    rw [means] at refused
    cases directive with
    | start => contradiction
    | finish => contradiction
    | word => exact error_of_map refused
    | byte => exact error_of_map refused
    | reserveWords => exact error_of_map refused
    | reserveBytes => exact error_of_map refused

namespace Layout

/-- A statement that is refused for its operand is one of a directive. -/
theorem Placement.refuses {table : OpcodeTable} {progress after : Progress} {statement : Statement}
    {record? : Option Record} {report : Diagnostic}
    (placed : Placement table progress statement record? after (some report))
    (invalid : report.category = .invalidOperand) :
    ∃ (directive : Directive) (fault : OperandFault), statement.opcode = directive.name ∧
      directive.Refuses statement.operand fault ∧ report = invalidOperand statement fault := by
  cases placed with
  | startRefused isStart operand => exact ⟨.start, _, isStart, operand, rfl⟩
  | refused _ _ size =>
    obtain ⟨directive, named, refuses⟩ := statementSize_refuses size
    exact ⟨directive, _, named, refuses, rfl⟩
  | beyond _ _ => contradiction
  | overflow _ _ _ _ => contradiction

theorem run_refused {settings : Settings} {table : OpcodeTable} {progress : Progress} {statements : List Statement}
    {report : Diagnostic} (member : report ∈ diagnosticsOf (run settings table progress statements).events)
    (invalid : report.category = .invalidOperand) :
    ∃ statement ∈ statements, ∃ (directive : Directive) (fault : OperandFault), statement.opcode = directive.name ∧
      directive.Refuses statement.operand fault ∧ report = invalidOperand statement fault := by
  have others : Category.invalidOperand ∉ placingCategories := by decide
  induction statements generalizing progress with
  | nil => contradiction
  | cons statement rest ih =>
    have placing : report ∉ diagnosticsOf (place settings table progress statement).events := by
      intro reported
      exact others (invalid ▸ place_reportsOnly settings table progress statement report reported)
    cases outcome : (place settings table progress statement).fault with
    | some fault =>
      have placement := place_placement settings table progress statement
      rw [outcome] at placement
      rw [run_cons_fault settings table rest outcome, diagnosticsOf_append, List.mem_append] at member
      obtain rfl := List.mem_singleton.mp (member.resolve_left placing)
      exact ⟨statement, List.mem_cons_self, placement.refuses invalid⟩
    | none =>
      rw [run_cons_placed settings table rest outcome, diagnosticsOf_append, List.mem_append] at member
      obtain ⟨other, later, refused⟩ := ih (member.resolve_left placing)
      exact ⟨other, List.mem_cons_of_mem statement later, refused⟩

end Layout

/-- Every report of an invalid operand is about the operand of a directive. -/
theorem layoutEvents_refused {settings : Settings} {table : OpcodeTable} {statements : List Statement}
    {report : Diagnostic} (member : report ∈ diagnosticsOf (layoutEvents settings table statements))
    (invalid : report.category = .invalidOperand) :
    ∃ statement ∈ statements, ∃ (directive : Directive) (fault : OperandFault), statement.opcode = directive.name ∧
      directive.Refuses statement.operand fault ∧ report = Layout.invalidOperand statement fault := by
  rw [layoutEvents, diagnosticsOf_append, List.mem_append] at member
  refine Layout.run_refused (member.resolve_right fun closing => ?_) invalid
  have others : Category.invalidOperand ∉ placingCategories := by decide
  have listed : report.category ∈ placingCategories :=
    Layout.closingEvents_reportsOnly (layOut settings table statements) report closing
  exact others (invalid ▸ listed)

/-- A report of an invalid operand: the hint says what the directive expects, unless it reserves memory and the
    operand is deceptive. -/
structure Hinted (statements : List Statement) (report : Diagnostic) (statement : Statement) (directive : Directive)
    (expected : String) : Prop where
  member : statement ∈ statements
  named : statement.opcode = directive.name
  expectation : directive.expectation? = some expected
  hint_iff : report.hint = some (statement.opcode ++ " expects " ++ expected) ↔
    ¬ ((directive = .reserveWords ∨ directive = .reserveBytes) ∧ Operand.Deceptive statement.operand)

theorem exists_hinted {settings : Settings} {table : OpcodeTable} {statements : List Statement}
    {report : Diagnostic} (member : report ∈ diagnosticsOf (layoutEvents settings table statements))
    (invalid : report.category = .invalidOperand) :
    ∃ statement directive expected, Hinted statements report statement directive expected := by
  obtain ⟨statement, inside, directive, fault, named, refuses, rfl⟩ := layoutEvents_refused member invalid
  obtain ⟨expected, expectation, message_iff⟩ := refuses.message_iff
  refine ⟨statement, directive, expected, inside, named, expectation, ?_⟩
  rw [← message_iff]
  change some (statement.opcode ++ " expects " ++ fault.message) = _ ↔ _
  rw [Option.some.injEq, String.append_right_inj]

/-- What the functions for operands promise, and for which operands the promise is kept. -/
structure Operand.ExpectationLaw (operand : Option String) : Prop where
  startAddress : Expects (startAddress operand) (· ≤ 0xFFFF) "a hexadecimal start address (0000-FFFF)"
  word : Expects (word operand) (fun value => -0x800000 ≤ value ∧ value ≤ 0xFFFFFF)
    "a decimal integer between -8388608 and 16777215"
  byteCode : Expects (byteCode operand)
    (fun code => code ≠ "" ∧ code.length % 2 = 0 ∧ ∀ c ∈ code.toList, isCapitalDigit c)
    "C'<characters, no tabs>' or X'<even number of hex digits>'"
  count_iff : Expects (count operand) (fun _ => True) "a non-negative decimal count" ↔ ¬ Deceptive operand

/-- Operands are in range or refused as what they should be, and so say the hints of a layout. The exception are
    deceptive counts. -/
theorem operands_expectationLaw (operand : Option String) (settings : Settings) (table : OpcodeTable)
    (statements : List Statement) (before : Journal) :
    let outcome := before.replay (layoutEvents settings table statements)
    Operand.ExpectationLaw operand ∧
      ∃ reported : List Diagnostic,
        outcome.1.collector.errors = before.collector.errors ++ reported.filter (!·.isWarning) ∧
        outcome.1.collector.warnings = before.collector.warnings ++ reported.filter (·.isWarning) ∧
        ∀ report ∈ reported, report.category = .invalidOperand →
          ∃ statement directive expected, Hinted statements report statement directive expected := by
  intro outcome
  constructor
  · exact ⟨Operand.startAddress_expects operand, Operand.word_expects operand, Operand.byteCode_expects operand,
      Operand.count_expects_iff operand⟩
  · obtain ⟨reported, isFront, -, collected⟩ := Journal.replay_entered (show _ = (outcome.1, outcome.2) from rfl)
    refine ⟨reported, by rw [collected], by rw [collected], ?_⟩
    intro report member invalid
    exact exists_hinted (isFront.subset member) invalid

/-- A superscript is refused as a count in the words of the reader of numerals, and the hint repeats them. -/
theorem superscript_count_misreported :
    Operand.count (some "²") = .error (.numeral (.malformed .ten "²")) ∧
      OperandFault.message (.numeral (.malformed .ten "²")) = "invalid literal for int() with base 10: '²'" ∧
      (diagnosticsOf (layoutEvents {} {}
        [{ line := 1, text := " RESW ²", opcode := "RESW", operand := some "²" }])).filterMap Diagnostic.hint =
        ["RESW expects invalid literal for int() with base 10: '²'"] := by
  decide +kernel

end TwoPass
