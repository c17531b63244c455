import TwoPass.Proofs.CodeSizes
import TwoPass.Proofs.Resolution

/-!
What is left to report once a program is laid out. Layout has read every operand that encoding reads
again, and has given an address to every statement that gets code, so that encoding has at most one thing
to say about a record (`diagnosticsOf_recordEvents`) and nothing about where its code goes
(`diagnosticsOf_eventsFrom`). An error is then a matter of the opcode table or of strict settings
(`AcceptanceLaw`).
-/
namespace TwoPass

open Text

/-- The items in front of the first whose opcode is END. -/
def beforeEnd {α : Type} (opcode : α → String) (items : List α) : List α :=
  items.takeWhile (opcode · ≠ Directive.finish.name)

theorem filterMap_throughEnd {β : Type} {image : Record → Option β}
    (silent : ∀ record, record.opcode = Directive.finish.name → image record = none) (records : List Record) :
    (throughEnd records).filterMap image = (beforeEnd Record.opcode records).filterMap image := by
  induction records with
  | nil => rfl
  | cons record rest ih =>
    rw [throughEnd, beforeEnd, List.takeWhile_cons]
    by_cases isEnd : record.opcode = Directive.finish.name
    · simp [isEnd, silent record isEnd]
    · simp only [isEnd, ne_eq, not_false_eq_true, decide_true, if_true, if_false, List.filterMap_cons, ih, beforeEnd]

namespace Encoder

variable (encoder : Encoder) (record : Record)

/-- The report that an opcode is not known. -/
def unknownReport : Diagnostic :=
  { cause := .unknownOpcode record.opcode encoder.table.knownNames
    severity := .warning
    location := encoder.location? record
    sourceLine := record.sourceLine }

/-- What encoding reports about a record whose operand can be read. -/
def remark? : Option Diagnostic :=
  match encoder.table.operation record.opcode with
  | .directive _ => none
  | .instruction code =>
    if isHexByte code then
      if encoder.isUnresolved record then some (encoder.unresolvedReport record) else none
    else some (encoder.improperReport record code)
  | .unknown => if encoder.warnUnknown then some (encoder.unknownReport record) else none

/-- What of that is an error. -/
def fault? : Option Diagnostic :=
  match encoder.table.operation record.opcode with
  | .instruction code =>
    if isHexByte code then
      if encoder.settings.strict && encoder.isUnresolved record then some (encoder.unresolvedReport record) else none
    else some (encoder.improperReport record code)
  | _ => none

variable {encoder record}

theorem remark?_finish (isEnd : record.opcode = Directive.finish.name) : encoder.remark? record = none := by
  simp only [remark?, isEnd, OpcodeTable.operation_name]

theorem filter_remark? : (encoder.remark? record).filter (!·.isWarning) = encoder.fault? record := by
  unfold remark? fault?
  cases encoder.table.operation record.opcode with
  | directive directive => rfl
  | unknown => cases encoder.warnUnknown <;> rfl
  | instruction code =>
    by_cases proper : isHexByte code
    · have severity := encoder.unresolvedReport_isWarning record
      cases strict : encoder.settings.strict <;> cases encoder.isUnresolved record <;>
        simp [proper, strict, severity, Option.filter]
    · simp only [proper, Bool.false_eq_true, if_false]
      rfl

theorem remark?_cases {diagnostic : Diagnostic} (found : encoder.remark? record = some diagnostic) :
    (∃ code, diagnostic = encoder.improperReport record code) ∨ diagnostic = encoder.unresolvedReport record ∨
      diagnostic = encoder.unknownReport record := by
  unfold remark? at found
  split at found
  next => contradiction
  next code _ =>
    split at found
    · exact .inr (.inl (Option.some.inj (Option.ite_none_right_eq_some.mp found).2).symm)
    · exact .inl ⟨code, (Option.some.inj found).symm⟩
  next => exact .inr (.inr (Option.some.inj (Option.ite_none_right_eq_some.mp found).2).symm)

/-- Neither an operand nor a missing address is ever remarked on. -/
theorem remark?_cause {diagnostic : Diagnostic} (found : encoder.remark? record = some diagnostic) :
    diagnostic.category ≠ .invalidOperand ∧ ∀ opcode, diagnostic.cause ≠ .noAddress opcode := by
  obtain ⟨code, rfl⟩ | rfl | rfl := remark?_cases found
  · exact ⟨Category.noConfusion, fun _ => Cause.noConfusion⟩
  · exact ⟨Category.noConfusion, fun _ => Cause.noConfusion⟩
  · exact ⟨Category.noConfusion, fun _ => Cause.noConfusion⟩

theorem fault?_cases {error : Diagnostic} (found : encoder.fault? record = some error) :
    ∃ code, encoder.table.operation record.opcode = .instruction code ∧
      (isHexByte code = false ∧ error = encoder.improperReport record code ∨
        encoder.settings.strict ∧ encoder.isUnresolved record ∧ error = encoder.unresolvedReport record) := by
  unfold fault? at found
  split at found
  next code means =>
    refine ⟨code, means, ?_⟩
    by_cases proper : isHexByte code
    · simp only [proper, if_true, Option.ite_none_right_eq_some, Bool.and_eq_true, Option.some.injEq] at found
      obtain ⟨⟨strict, unresolved⟩, rfl⟩ := found
      exact .inr ⟨strict, unresolved, rfl⟩
    · simp only [proper, Bool.false_eq_true, if_false, Option.some.injEq] at found
      exact .inl ⟨Bool.eq_false_iff.mpr proper, found.symm⟩
  next => contradiction

/-- A record whose operand can be read is reported for one reason at most. -/
theorem diagnosticsOf_recordEvents
    (readable : ∃ size?, statementSize encoder.table record.opcode record.operand = .ok size?) :
    diagnosticsOf (encoder.recordEvents record) = (encoder.remark? record).toList := by
  obtain ⟨size?, size⟩ := readable
  cases means : encoder.table.operation record.opcode with
  | unknown =>
    simp only [recordEvents, remark?, means, unknownOpcodeEvents]
    cases encoder.warnUnknown <;> rfl
  | instruction code =>
    simp only [recordEvents, remark?, means, diagnosticsOf_instructionEvents means]
    split
    · split <;> rfl
    · rfl
  | directive directive =>
    have named := (encoder.table.operation_eq_directive_iff record.opcode directive).mp means
    simp only [recordEvents, remark?, means]
    -- The size comes from the operand that is read here again.
    cases directive with
    | word =>
      rw [statementSize_word named] at size
      cases operand : Operand.word record.operand with
      | error fault => simp [operand, Except.map] at size
      | ok value => rfl
    | byte =>
      rw [statementSize_byte named] at size
      cases operand : Operand.byteCode record.operand with
      | error fault => simp [operand, Except.map] at size
      | ok constant => rfl
    | _ => rfl

/-- If all code has an address, packing reports nothing. -/
theorem diagnosticsOf_eventsFrom {records : List Record}
    (addressed : ∀ record ∈ records, encoder.recordCode record ≠ "" → record.address.isSome)
    (current : Option TextRecord) :
    diagnosticsOf (encoder.eventsFrom current records) =
      records.flatMap fun record => diagnosticsOf (encoder.recordEvents record) := by
  induction records generalizing current with
  | nil => rw [eventsFrom, diagnosticsOf_closedEvents, List.flatMap_nil]
  | cons record rest ih =>
    rw [List.forall_mem_cons] at addressed
    rw [eventsFrom, List.flatMap_cons]
    split
    next fragment _ =>
      rw [diagnosticsOf_append, diagnosticsOf_append, diagnosticsOf_closedEvents, List.append_nil, ih addressed.2]
    next missing =>
      -- With an address, a line without a fragment is one without code.
      have empty : (encoder.listingLine record).code.isEmpty := by
        by_contra bearing
        have nonempty : encoder.recordCode record ≠ "" := by simpa [listingLine] using bearing
        obtain ⟨address, stands⟩ := Option.isSome_iff_exists.mp (addressed.1 nonempty)
        simp [ListingLine.fragment?, listingLine, nonempty, stands] at missing
      rw [if_pos empty, List.append_nil, diagnosticsOf_append, ih addressed.2]

end Encoder

section
variable {settings : Settings} {table : OpcodeTable} {statements : List Statement} {encoder : Encoder}

/-- Only END has no address, and END has no code. -/
theorem layOut_addressed {record : Record} (member : record ∈ (layOut settings table statements).records)
    (bearing : encoder.recordCode record ≠ "") : record.address.isSome := by
  obtain ⟨_, stands⟩ := (layOut_standsAt settings table statements).of_mem member
  by_contra unaddressed
  have isEnd := stands.address_eq_none_iff.mp (Option.not_isSome_iff_eq_none.mp unaddressed)
  apply bearing
  simp only [Encoder.recordCode, isEnd, OpcodeTable.operation_name]

/-- All that encoding reports about a program that was laid out to its end. -/
theorem diagnosticsOf_encodingEvents (complete : (layOut settings table statements).aborted = false)
    (sameTable : encoder.table = table) :
    diagnosticsOf (encodingEvents encoder (layOut settings table statements).records) =
      (beforeEnd Record.opcode (layOut settings table statements).records).filterMap encoder.remark? := by
  have inside : ∀ record ∈ throughEnd (layOut settings table statements).records,
      record ∈ (layOut settings table statements).records := (throughEnd_isPrefix _).subset
  have single : ∀ record ∈ throughEnd (layOut settings table statements).records,
      diagnosticsOf (encoder.recordEvents record) = (encoder.remark? record).toList := by
    intro record member
    obtain ⟨_, fits⟩ := (layOut_fits complete).of_mem (inside record member)
    exact Encoder.diagnosticsOf_recordEvents (sameTable ▸ fits.readable)
  rw [encodingEvents, diagnosticsOf_append,
    Encoder.diagnosticsOf_eventsFrom fun record member => layOut_addressed (inside record member),
    List.flatMap_congr single, ← List.filterMap_eq_flatMap_toList,
    filterMap_throughEnd fun record => Encoder.remark?_finish]
  exact List.append_nil _

theorem filter_encodingEvents (complete : (layOut settings table statements).aborted = false)
    (sameTable : encoder.table = table) :
    (diagnosticsOf (encodingEvents encoder (layOut settings table statements).records)).filter (!·.isWarning) =
      (beforeEnd Record.opcode (layOut settings table statements).records).filterMap encoder.fault? := by
  rw [diagnosticsOf_encodingEvents complete sameTable, List.filter_filterMap]
  exact List.filterMap_congr fun record _ => Encoder.filter_remark?

end

/-- What encoding adds to what was collected before, once a program is laid out. -/
structure AcceptanceLaw (encoder : Encoder) (records : List Record) (before : Collector) (stop? : Option Diagnostic)
    (errors warnings : List Diagnostic) : Prop where
  /-- No operand is found malformed, -/
  operands : ∀ diagnostic ∈ errors ++ warnings, diagnostic.category ≠ .invalidOperand
  /-- and no code is without an address. -/
  addresses : ∀ diagnostic ∈ errors ++ warnings, ∀ opcode, diagnostic.cause ≠ .noAddress opcode
  /-- An error is that an instruction in front of END has an improper code in the table, or under strict
      settings that its operand is not defined. -/
  kinds : ∀ error ∈ errors, ∃ record ∈ beforeEnd Record.opcode records, ∃ code,
    encoder.table.operation record.opcode = .instruction code ∧
      (Encoder.isHexByte code = false ∧ error = encoder.improperReport record code ∨
        encoder.settings.strict ∧ encoder.isUnresolved record ∧ error = encoder.unresolvedReport record)
  /-- The errors are those of the records in order, up to the one that stops the encoding, -/
  inOrder : errors <+: (beforeEnd Record.opcode records).filterMap encoder.fault?
  /-- and all of them if none does. -/
  complete : stop? = none → errors = (beforeEnd Record.opcode records).filterMap encoder.fault?
  /-- Encoding is stopped only if there are errors and too many of them. -/
  goesOn : stop? = none ↔ (beforeEnd Record.opcode records).filterMap encoder.fault? = [] ∨
    (before.errors.length + ((beforeEnd Record.opcode records).filterMap encoder.fault?).length : Int) < before.limit

/-- Encoding finds nothing wrong with a program that was laid out to its end but the codes in its table
    and, under strict settings, undefined operands. -/
theorem encode_acceptanceLaw (settings : Settings) (table : OpcodeTable) (statements : List Statement)
    (complete : (layOut settings table statements).aborted = false) (encoder : Encoder) (sameTable : encoder.table = table)
    {before after : Journal} {stop? : Option Diagnostic}
    (replayed : before.replay (encodingEvents encoder (layOut settings table statements).records) = (after, stop?)) :
    ∃ errors warnings, after.collector.errors = before.collector.errors ++ errors ∧
      after.collector.warnings = before.collector.warnings ++ warnings ∧
      AcceptanceLaw encoder (layOut settings table statements).records before.collector stop? errors warnings := by
  have reports := diagnosticsOf_encodingEvents complete sameTable
  have faults := filter_encodingEvents complete sameTable
  have goesOn := before.replay_goesOn_iff (encodingEvents encoder (layOut settings table statements).records)
  rw [replayed, faults] at goesOn
  obtain ⟨entered, isPrefix, whole, collected⟩ := Journal.replay_entered replayed
  have inOrder := isPrefix.filter (!·.isWarning)
  rw [faults] at inOrder
  have causes : ∀ diagnostic ∈ entered.filter (!·.isWarning) ++ entered.filter (·.isWarning),
      diagnostic.category ≠ .invalidOperand ∧ ∀ opcode, diagnostic.cause ≠ .noAddress opcode := by
    intro diagnostic member
    have isEntered : diagnostic ∈ entered := by
      rcases List.mem_append.mp member with error | warning
      · exact (List.mem_filter.mp error).1
      · exact (List.mem_filter.mp warning).1
    rw [reports] at isPrefix
    obtain ⟨record, -, found⟩ := List.mem_filterMap.mp (isPrefix.subset isEntered)
    exact Encoder.remark?_cause found
  rw [collected]
  refine ⟨_, _, rfl, rfl, fun diagnostic member => (causes diagnostic member).1,
    fun diagnostic member => (causes diagnostic member).2, ?_, inOrder, ?_, goesOn⟩
  · intro error member
    obtain ⟨record, inFront, found⟩ := List.mem_filterMap.mp (inOrder.subset member)
    exact ⟨record, inFront, Encoder.fault?_cases found⟩
  · intro ends
    rw [whole ends, faults]

/-- A program with two instructions whose codes are no hexadecimal bytes, one of them behind END, an undefined
    operand, an unknown opcode and constants on both sides of END. -/
private def dubious : List Statement :=
  [{ line := 1, text := " START 10", opcode := "START", operand := some "10" },
    { line := 2, text := " BAD ONE", opcode := "BAD", operand := some "ONE" },
    { line := 3, text := " LDA NONE", opcode := "LDA", operand := some "NONE" },
    { line := 4, text := " NOP", opcode := "NOP" },
    { line := 5, text := "ONE WORD 1", label := some "ONE", opcode := "WORD", operand := some "1" },
    { line := 6, text := " END", opcode := "END" },
    { line := 7, text := " BYTE X'0F'", opcode := "BYTE", operand := some "X'0F'" },
    { line := 8, text := " BAD", opcode := "BAD" }]

private def dubiousTable : OpcodeTable :=
  ⟨⟨[("LDA", "00"), ("BAD", "1G")]⟩⟩

theorem encode_acceptanceLaw_dubious :
    (layOut { strict := true } dubiousTable dubious).aborted = false ∧
      ∃ after,
        ({} : Journal).replay (encodingEvents (programEncoder { strict := true } dubiousTable dubious "<input>" true)
          (layOut { strict := true } dubiousTable dubious).records) = (after, none) ∧
        after.collector.errors.map Diagnostic.cause = [.notHexByte "BAD" "1G", .unresolvedSymbol "NONE" ["ONE"]] ∧
        AcceptanceLaw (programEncoder { strict := true } dubiousTable dubious "<input>" true)
          (layOut { strict := true } dubiousTable dubious).records {} none after.collector.errors
          after.collector.warnings := by
  have complete : (layOut { strict := true } dubiousTable dubious).aborted = false := by decide +kernel
  have found : (({} : Journal).replay (encodingEvents
        (programEncoder { strict := true } dubiousTable dubious "<input>" true)
        (layOut { strict := true } dubiousTable dubious).records)).map
      (·.collector.errors.map Diagnostic.cause) id = ([.notHexByte "BAD" "1G", .unresolvedSymbol "NONE" ["ONE"]], none) := by
    decide +kernel
  generalize replayed : ({} : Journal).replay _ = outcome at found ⊢
  obtain ⟨after, stop?⟩ := outcome
  obtain ⟨causes, rfl⟩ := Prod.mk.inj found
  obtain ⟨errors, warnings, raised, warned, law⟩ :=
    encode_acceptanceLaw { strict := true } dubiousTable dubious complete _ rfl replayed
  obtain rfl : after.collector.errors = errors := raised
  obtain rfl : after.collector.warnings = warnings := warned
  exact ⟨complete, after, rfl, causes, law⟩

end TwoPass
