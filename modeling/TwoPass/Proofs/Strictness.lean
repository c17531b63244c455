import TwoPass.Proofs.Runs

/-!
What strict settings change: a duplicate or undefined symbol is an error and not a warning. Both
passes give the same results and the same events, with some of the diagnostics hardened
(`layoutEvents_strict`, `encodingEvents_strict`), and as long as the limit is not reached the
journals of the two runs hold the same diagnostics (`Hardens`, `Journal.replay_hardened`).
-/
namespace TwoPass

namespace Diagnostic

/-- Whether the settings decide how serious a diagnostic is. -/
def isConditional (diagnostic : Diagnostic) : Bool :=
  diagnostic.category = .duplicateSymbol || diagnostic.category = .unresolvedSymbol

def asError (diagnostic : Diagnostic) : Diagnostic :=
  { diagnostic with severity := .error }

/-- A diagnostic as it is under strict settings. -/
def harden (diagnostic : Diagnostic) : Diagnostic :=
  if diagnostic.isConditional && diagnostic.isWarning then diagnostic.asError else diagnostic

theorem harden_of_unconditional {diagnostic : Diagnostic} (unconditional : diagnostic.isConditional = false) :
    diagnostic.harden = diagnostic := by
  simp [harden, unconditional]

theorem harden_of_not_warning {diagnostic : Diagnostic} (isError : diagnostic.isWarning = false) :
    diagnostic.harden = diagnostic := by
  simp [harden, isError]

end Diagnostic

def Settings.withStrict (settings : Settings) (strict : Bool) : Settings :=
  { settings with strict }

namespace Layout

variable (settings : Settings) (table : OpcodeTable) (progress : Progress) (statement : Statement)

theorem remarks_hardened : (remarks progress statement).map (.map .harden) = remarks progress statement := by
  unfold remarks
  split <;> split <;> rfl

theorem placeStart_hardened : (placeStart progress statement).events.map (.map .harden) =
    (placeStart progress statement).events := by
  unfold placeStart
  dsimp only
  split <;> split <;> rfl

theorem definitionEvents_strict :
    definitionEvents (settings.withStrict true) progress statement =
      (definitionEvents (settings.withStrict false) progress statement).map (.map .harden) := by
  unfold definitionEvents
  cases label? statement with
  | none => rfl
  | some label =>
    dsimp only
    cases progress.symbols.definition? label <;> rfl

theorem placeOther_strict :
    placeOther (settings.withStrict true) table progress statement =
      { placeOther (settings.withStrict false) table progress statement with
        events := (placeOther (settings.withStrict false) table progress statement).events.map (.map .harden) } := by
  unfold placeOther
  split
  · rfl
  · dsimp only
    rw [definitionEvents_strict]
    cases statementSize table statement.opcode statement.operand with
    | error fault => rfl
    | ok size? =>
      cases size? with
      | none =>
        rw [List.map_append]
        rfl
      | some size => rfl

/-- Strict settings change nothing about one statement but how serious its diagnostics are. -/
theorem place_strict :
    place (settings.withStrict true) table progress statement =
      { place (settings.withStrict false) table progress statement with
        events := (place (settings.withStrict false) table progress statement).events.map (.map .harden) } := by
  rcases opcode_cases statement.opcode with isStart | isEnd | plain
  · rw [place_start isStart, place_start isStart, List.map_append, remarks_hardened, placeStart_hardened]
  · rw [place_end isEnd, place_end isEnd, List.map_append, remarks_hardened]
    rfl
  · rw [place_plain plain, place_plain plain, List.map_append, remarks_hardened, placeOther_strict]

theorem run_strict (statements : List Statement) :
    run (settings.withStrict true) table progress statements =
      { run (settings.withStrict false) table progress statements with
        events := (run (settings.withStrict false) table progress statements).events.map (.map .harden) } := by
  induction statements generalizing progress with
  | nil => rfl
  | cons statement rest ih =>
    have step := place_strict settings table progress statement
    have fault := congrArg Step.fault step
    cases outcome : (place (settings.withStrict false) table progress statement).fault with
    | some reported =>
      have placement := place_placement (settings.withStrict false) table progress statement
      rw [outcome] at placement fault
      have kept : reported.harden = reported := by
        apply Diagnostic.harden_of_unconditional
        rcases placement.fault_category with category | category <;> simp [Diagnostic.isConditional, category]
      rw [run_cons_fault _ table rest outcome, run_cons_fault _ table rest fault, step]
      simp only [List.map_append, List.map_cons, List.map_nil, Event.map_debug, Event.map_reported, kept]
    | none =>
      rw [outcome] at fault
      rw [run_cons_placed _ table rest outcome, run_cons_placed _ table rest fault, step, ih]
      simp only [List.map_append]

end Layout

section
variable (settings : Settings) (table : OpcodeTable) (statements : List Statement)

theorem layOut_strict :
    layOut (settings.withStrict true) table statements = layOut (settings.withStrict false) table statements := by
  rw [layOut, Layout.run_strict]
  rfl

theorem closingEvents_hardened (layout : Layout) :
    layout.closingEvents.map (.map .harden) = layout.closingEvents := by
  unfold Layout.closingEvents
  split <;> rfl

theorem layoutEvents_strict :
    layoutEvents (settings.withStrict true) table statements =
      (layoutEvents (settings.withStrict false) table statements).map (.map .harden) := by
  rw [layoutEvents, layoutEvents, layOut_strict, Layout.run_strict, List.map_append, closingEvents_hardened]

end

namespace Encoder

def withStrict (encoder : Encoder) (strict : Bool) : Encoder :=
  { encoder with settings := encoder.settings.withStrict strict }

variable (encoder : Encoder)

theorem instructionEvents_strict (record : Record) (code : String) :
    (encoder.withStrict true).instructionEvents record code =
      ((encoder.withStrict false).instructionEvents record code).map (.map .harden) := by
  unfold instructionEvents
  split
  · rfl
  · cases operand? record with
    | none => rfl
    | some symbol =>
      change (if (encoder.symbols.address? symbol).isSome then [] else _) =
        (if (encoder.symbols.address? symbol).isSome then [] else _).map _
      split <;> rfl

theorem recordEvents_strict (record : Record) :
    (encoder.withStrict true).recordEvents record =
      ((encoder.withStrict false).recordEvents record).map (.map .harden) := by
  have malformed {α : Type} (outcome : Except OperandFault α) :
      (encoder.withStrict true).operandEvents record outcome =
        ((encoder.withStrict false).operandEvents record outcome).map (.map .harden) := by
    cases outcome <;> rfl
  have table (strict : Bool) : (encoder.withStrict strict).table = encoder.table := rfl
  unfold recordEvents
  simp only [table]
  cases encoder.table.operation record.opcode with
  | directive directive =>
    cases directive with
    | word => exact malformed _
    | byte => exact malformed _
    | _ => rfl
  | instruction code => exact encoder.instructionEvents_strict record code
  | unknown =>
    change (if encoder.warnUnknown then _ else []) = (if encoder.warnUnknown then _ else []).map _
    split <;> rfl

theorem closedEvents_hardened (closed : List Packing.Closed) :
    (closed.map closedEvent).map (.map .harden) = closed.map closedEvent := by
  rw [List.map_map]
  rfl

theorem eventsFrom_strict (current : Option TextRecord) (records : List Record) :
    (encoder.withStrict true).eventsFrom current records =
      ((encoder.withStrict false).eventsFrom current records).map (.map .harden) := by
  induction records generalizing current with
  | nil => exact (closedEvents_hardened _).symm
  | cons record rest ih =>
    have line : (encoder.withStrict true).listingLine record = (encoder.withStrict false).listingLine record := rfl
    have capacity : (encoder.withStrict true).settings.capacity = (encoder.withStrict false).settings.capacity := rfl
    rw [eventsFrom, eventsFrom, line, capacity]
    cases ((encoder.withStrict false).listingLine record).fragment? with
    | some fragment =>
      dsimp only
      rw [List.map_append, List.map_append, closedEvents_hardened, encoder.recordEvents_strict, ih]
    | none =>
      dsimp only
      rw [List.map_append, List.map_append, encoder.recordEvents_strict, ih]
      congr 2
      split <;> rfl

theorem encode_strict (records : List Record) :
    encode (encoder.withStrict true) records = encode (encoder.withStrict false) records := rfl

theorem encodingEvents_strict (records : List Record) :
    encodingEvents (encoder.withStrict true) records =
      (encodingEvents (encoder.withStrict false) records).map (.map .harden) := by
  rw [encodingEvents, encodingEvents, encode_strict, eventsFrom_strict, List.map_append]
  rfl

end Encoder

/-- The second collector holds what the first one holds, with some of the warnings among the errors. -/
structure Collector.Hardens (lenient strict : Collector) : Prop where
  limit : strict.limit = lenient.limit
  errors : strict.errors.Perm
    (lenient.errors ++ (lenient.warnings.filter Diagnostic.isConditional).map Diagnostic.asError)
  warnings : strict.warnings = lenient.warnings.filter (!·.isConditional)

namespace Collector.Hardens

variable {lenient strict : Collector}

theorem errors_le (hardens : lenient.Hardens strict) : lenient.errors.length ≤ strict.errors.length := by
  rw [hardens.errors.length_eq, List.length_append]
  omega

theorem of_unwarned {collector : Collector} (unwarned : collector.warnings = []) : collector.Hardens collector :=
  ⟨rfl, by simp [unwarned], by simp [unwarned]⟩

theorem add (hardens : lenient.Hardens strict) (diagnostic : Diagnostic) :
    (lenient.add diagnostic).Hardens (strict.add diagnostic.harden) := by
  cases warned : diagnostic.isWarning with
  | false =>
    rw [Diagnostic.harden_of_not_warning warned]
    simp only [Collector.add, warned, Bool.false_eq_true, if_false]
    refine ⟨hardens.limit, ?_, hardens.warnings⟩
    -- A further error stands behind the promoted warnings here and in front of them there.
    calc strict.errors ++ [diagnostic]
      _ |>.Perm (lenient.errors ++ (lenient.warnings.filter Diagnostic.isConditional).map Diagnostic.asError ++
          [diagnostic]) := hardens.errors.append_right _
      _ |>.Perm _ := by
        rw [List.append_assoc, List.append_assoc]
        exact List.perm_append_comm.append_left _
  | true =>
    cases conditional : diagnostic.isConditional with
    | false =>
      rw [Diagnostic.harden_of_unconditional conditional]
      simp only [Collector.add, warned, if_true]
      refine ⟨hardens.limit, ?_, ?_⟩
      · simpa [List.filter_append, conditional] using hardens.errors
      · simp [List.filter_append, conditional, hardens.warnings]
    | true =>
      have hardened : diagnostic.harden = diagnostic.asError := by simp [Diagnostic.harden, warned, conditional]
      have isError : diagnostic.asError.isWarning = false := rfl
      rw [hardened]
      simp only [Collector.add, warned, isError, if_true, Bool.false_eq_true, if_false]
      refine ⟨hardens.limit, ?_, ?_⟩
      · simpa [List.filter_append, conditional] using hardens.errors.append_right [diagnostic.asError]
      · simp [List.filter_append, conditional, hardens.warnings]

/-- What does not stop the strict run does not stop the other one. -/
theorem goes_on (hardens : lenient.Hardens strict) {diagnostic : Diagnostic}
    (goesOn : strict.stop? diagnostic.harden = none) : lenient.stop? diagnostic = none := by
  cases warned : diagnostic.isWarning with
  | true => simp [Collector.stop?, warned]
  | false =>
    have fewer := hardens.errors_le
    rw [Diagnostic.harden_of_not_warning warned] at goesOn
    simp only [Collector.stop?, warned, Bool.false_eq_true, if_false, ite_eq_right_iff, reduceCtorEq,
      imp_false, hardens.limit] at goesOn ⊢
    omega

end Collector.Hardens

/-- If the strict run goes through its events, so does the other one, and it enters the same diagnostics. -/
theorem Journal.replay_hardened {lenient strict after : Journal} {events : List Event}
    (hardens : lenient.collector.Hardens strict.collector)
    (complete : strict.replay (events.map (.map .harden)) = (after, none)) :
    ∃ final, lenient.replay events = (final, none) ∧ final.collector.Hardens after.collector := by
  induction events generalizing lenient strict with
  | nil =>
    obtain ⟨rfl, -⟩ := Prod.mk.inj complete
    exact ⟨lenient, rfl, hardens⟩
  | cons event rest ih =>
    cases event with
    | logged entry =>
      rw [List.map_cons, Event.map, Journal.replay] at complete
      have recorded : (lenient.record entry).collector.Hardens (strict.record entry).collector := hardens
      exact ih recorded complete
    | reported diagnostic =>
      simp only [List.map_cons, Event.map_reported, Journal.replay, Journal.submit] at complete
      split at complete
      next => simp at complete
      next entered submitted =>
        obtain ⟨rfl, goesOn⟩ := Prod.mk.inj submitted
        simp only [Journal.replay, Journal.submit, hardens.goes_on goesOn]
        exact ih (hardens.add diagnostic) complete

/-- What the result of a strict run and that of the same run under other settings have in common. -/
structure StrictnessLaw (strict lenient : Assembly) : Prop where
  stage : lenient.stage = strict.stage
  layout : lenient.layout = strict.layout
  encoding : lenient.encoding = strict.encoding
  /-- The same is printed, but for the diagnostics. -/
  printed : lenient.printout = { strict.printout with diagnostics := lenient.printout.diagnostics }
  /-- The errors are the errors of the other run and its warnings about symbols. -/
  errors : strict.collector.errors.Perm (lenient.collector.errors ++
    (lenient.collector.warnings.filter Diagnostic.isConditional).map Diagnostic.asError)
  /-- The other warnings are warnings. -/
  warnings : strict.collector.warnings = lenient.collector.warnings.filter (!·.isConditional)
  success : strict.succeeded ↔
    lenient.succeeded ∧ ∀ warning ∈ lenient.collector.warnings, warning.isConditional = false

namespace Assembly

theorem finish_strictness {lenient strict : Journal} (hardens : lenient.collector.Hardens strict.collector)
    {stage : Stage} {table : OpcodeTable} {layout : Option Layout} {encoding : Option Encoding} {assembly : Assembly}
    (returned : (finish strict stage table layout encoding).result = .ok assembly) :
    ∃ other, (finish lenient stage table layout encoding).result = .ok other ∧ StrictnessLaw assembly other := by
  obtain rfl := Except.ok.inj returned
  refine ⟨_, rfl, rfl, rfl, rfl, ?_, hardens.errors, hardens.warnings, ?_⟩
  · cases layout <;> rfl
  · have errorless : strict.collector.errors = [] ↔ lenient.collector.errors = [] ∧
        ∀ warning ∈ lenient.collector.warnings, warning.isConditional = false := by
      rw [← List.length_eq_zero_iff, hardens.errors.length_eq]
      simp [List.filter_eq_nil_iff]
    simp only [succeeded, Collector.hasErrors, Bool.not_not, Bool.and_eq_true, List.isEmpty_iff, errorless, and_assoc]

theorem fail_strictness {journal : Journal} {fault : Diagnostic} {stage : Stage} {table : OpcodeTable} {assembly : Assembly}
    (unwarned : (journal.collector.add fault).warnings = [])
    (returned : (fail journal fault stage table).result = .ok assembly) : StrictnessLaw assembly assembly := by
  unfold fail at returned
  split at returned
  next => contradiction
  next entered submitted =>
    obtain ⟨rfl, -⟩ := Prod.mk.inj submitted
    obtain ⟨other, same, law⟩ := finish_strictness (.of_unwarned unwarned) returned
    rw [returned, Except.ok.injEq] at same
    exact same ▸ law

section
variable {settings : Settings} {table : OpcodeTable} {file : String} {statements : List Statement}

theorem programEncoder_strict :
    programEncoder (settings.withStrict true) table statements file false =
      (programEncoder (settings.withStrict false) table statements file false).withStrict true := by
  rw [programEncoder, layOut_strict]
  rfl

/-- A strict run that stays below the limit ends as the other one does. -/
theorem Ending.strictness {lenient strict : Journal} {outcome : Outcome} {assembly : Assembly}
    (ending : Ending (settings.withStrict true) table file statements strict outcome)
    (hardens : lenient.collector.Hardens strict.collector) (returned : outcome.result = .ok assembly)
    (below : assembly.collector.errors.length < strict.collector.limit) :
    ∃ otherOutcome other, Ending (settings.withStrict false) table file statements lenient otherOutcome ∧
      otherOutcome.result = .ok other ∧ StrictnessLaw assembly other := by
  have encodes := Encoder.encodingEvents_strict (programEncoder (settings.withStrict false) table statements file false)
    (layOut (settings.withStrict false) table statements).records
  rw [← programEncoder_strict] at encodes
  cases ending with
  | layoutStopped replayed =>
    have reached := Journal.limit_le_of_stopped replayed
    obtain rfl := Except.ok.inj returned
    simp only [stopped, List.length_append] at below
    push_cast at below
    omega
  | aborted replayed aborted =>
    rw [layoutEvents_strict] at replayed
    rw [layOut_strict] at aborted returned
    obtain ⟨final, otherReplayed, hardens⟩ := Journal.replay_hardened hardens replayed
    obtain ⟨other, otherReturned, law⟩ := finish_strictness hardens returned
    exact ⟨_, other, .aborted otherReplayed aborted, otherReturned, law⟩
  | @encodingStopped between _ _ replayed _ encoded =>
    have limit : between.collector.limit = strict.collector.limit := by rw [Journal.replay_complete replayed]
    have reached := Journal.limit_le_of_stopped encoded
    obtain rfl := Except.ok.inj returned
    simp only [stopped, List.length_append] at below
    push_cast at below
    omega
  | encoded replayed complete encoded =>
    rw [layoutEvents_strict] at replayed
    rw [layOut_strict] at complete encoded returned
    rw [encodes] at encoded
    obtain ⟨between, otherReplayed, hardens⟩ := Journal.replay_hardened hardens replayed
    obtain ⟨final, otherEncoded, hardens⟩ := Journal.replay_hardened hardens encoded
    rw [programEncoder_strict, Encoder.encode_strict] at returned
    obtain ⟨other, otherReturned, law⟩ := finish_strictness hardens returned
    exact ⟨_, other, .encoded otherReplayed complete otherEncoded, otherReturned, law⟩

end

end Assembly

/-- If a run under strict settings returns with fewer errors than end a run, then the run under
    settings that are not strict, and otherwise the same, returns the same but for the severities. -/
theorem assemble_strictnessLaw (settings : Settings) (file source tableText : String) {strict : Assembly}
    (returned : (assemble (settings.withStrict true) file source tableText).result = .ok strict)
    (below : strict.collector.errors.length < settings.errorLimit) :
    ∃ lenient, (assemble (settings.withStrict false) file source tableText).result = .ok lenient ∧
      StrictnessLaw strict lenient := by
  rw [assemble, Assembly.run] at returned ⊢
  split at returned
  next empty =>
    rw [if_pos empty]
    exact ⟨strict, returned, Assembly.fail_strictness rfl returned⟩
  next loaded =>
    rw [if_neg loaded]
    have ending := Assembly.assembleWith_ending (settings.withStrict true) (.ofLines (Text.lines tableText)) file source
      { Assembly.newJournal (settings.withStrict true) with log := OpcodeTable.loadingEntries (Text.lines tableText) }
    obtain ⟨_, lenient, otherEnding, otherReturned, law⟩ := ending.strictness (.of_unwarned rfl) returned
      (by simpa [Assembly.newJournal, Settings.withStrict] using below)
    refine ⟨lenient, ?_, law⟩
    rw [← otherReturned]
    exact congrArg Outcome.result otherEnding.eq

theorem assemble_strictnessLaw_redefining :
    ∃ strict lenient,
      (assemble (({} : Settings).withStrict true) "<input>" " START 0\nA LDA B\nA LDA A\n" "LDA 00\n").result = .ok strict ∧
        strict.collector.errors.length = 2 ∧ strict.codes = ["", "00", "000003"] ∧
        (assemble (({} : Settings).withStrict false) "<input>" " START 0\nA LDA B\nA LDA A\n" "LDA 00\n").result =
          .ok lenient ∧
        StrictnessLaw strict lenient := by
  have returned : ∃ strict,
      (assemble (({} : Settings).withStrict true) "<input>" " START 0\nA LDA B\nA LDA A\n" "LDA 00\n").result = .ok strict ∧
        strict.collector.errors.length = 2 ∧ strict.codes = ["", "00", "000003"] := exists_ok_of_any (by decide +kernel)
  obtain ⟨strict, returned, counted, codes⟩ := returned
  obtain ⟨lenient, otherReturned, law⟩ := assemble_strictnessLaw {} _ _ _ returned (by rw [counted]; decide)
  exact ⟨strict, lenient, returned, counted, codes, otherReturned, law⟩

end TwoPass
