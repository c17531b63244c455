import TwoPass.Proofs.Lines
import TwoPass.Proofs.Resolution
import TwoPass.Proofs.Runs

/-!
The error limit. As long as fewer errors are collected than end a run, one more of them either
leaves it so or fills the collector (`Collector.Open.add`), so a replay either goes through or
stops with exactly as many errors as are allowed (`Journal.replay_limitKept`). Neither pass reports the
limit itself (`layoutEvents_reportsOnly`, `encodingEvents_reportsOnly`), which therefore stands behind
the other errors of a result and only there (`OutcomeLaw`).
-/
namespace TwoPass

/-- The categories of what is reported about a statement, whether or not it can be laid out. -/
def placingCategories : List Category :=
  [.general, .unknownOpcode, .duplicateSymbol]

/-- The categories of what laying out reports. -/
def layoutCategories : List Category :=
  [.general, .invalidOperand, .unknownOpcode, .duplicateSymbol]

/-- The categories of what encoding reports. -/
def encodingCategories : List Category :=
  [.general, .invalidOperand, .unknownOpcode, .unresolvedSymbol]

theorem placingCategories_subset : placingCategories ⊆ layoutCategories := by
  decide

namespace Layout

variable (settings : Settings) (table : OpcodeTable) (progress : Progress) (statement : Statement)

theorem warning_reportsOnly {cause : Cause} (location : Option Location) (general : cause.category = .general) :
    ReportsOnly placingCategories [warning cause location] := by
  have listed : cause.category ∈ placingCategories := by rw [general]; decide
  exact (reportsOnly_reported _ _ _).mpr ⟨listed, reportsOnly_nil _⟩

theorem remarks_reportsOnly : ReportsOnly placingCategories (remarks progress statement) := by
  rw [remarks, reportsOnly_append]
  constructor
  · split
    · exact warning_reportsOnly _ rfl
    · exact reportsOnly_nil _
  · split
    · exact warning_reportsOnly _ rfl
    · exact reportsOnly_nil _

theorem placeStart_reportsOnly : ReportsOnly placingCategories (placeStart progress statement).events := by
  have late : ReportsOnly placingCategories
      (if progress.begun then [warning .lateStart (some statement.location)] else []) := by
    split
    · exact warning_reportsOnly _ rfl
    · exact reportsOnly_nil _
  unfold placeStart
  cases Operand.startAddress statement.operand with
  | ok address => simpa using late
  | error fault => exact late

theorem definitionEvents_reportsOnly :
    ReportsOnly placingCategories (definitionEvents settings progress statement) := by
  have duplicate : Category.duplicateSymbol ∈ placingCategories := by decide
  unfold definitionEvents
  cases label? statement with
  | none => exact reportsOnly_nil _
  | some label =>
    dsimp only
    cases progress.symbols.definition? label with
    | none => simp
    | some earlier =>
      simp only [reportsOnly_debug, reportsOnly_reported]
      exact ⟨duplicate, reportsOnly_nil _⟩

theorem placeOther_reportsOnly :
    ReportsOnly placingCategories (placeOther settings table progress statement).events := by
  have defined := definitionEvents_reportsOnly settings progress statement
  have unknown : Category.unknownOpcode ∈ placingCategories := by decide
  unfold placeOther
  split
  · exact reportsOnly_nil _
  · dsimp only
    cases statementSize table statement.opcode statement.operand with
    | error fault => exact defined
    | ok size? =>
      cases size? with
      | none =>
        simp only [unknownOpcodeEvents, reportsOnly_append, reportsOnly_debug, reportsOnly_reported]
        exact ⟨defined, unknown, reportsOnly_nil _⟩
      | some size => exact defined

theorem place_reportsOnly : ReportsOnly placingCategories (place settings table progress statement).events := by
  have remarked := remarks_reportsOnly progress statement
  rcases opcode_cases statement.opcode with isStart | isEnd | plain
  · rw [place_start isStart]
    exact (reportsOnly_append _ _ _).mpr ⟨remarked, placeStart_reportsOnly progress statement⟩
  · rw [place_end isEnd]
    exact (reportsOnly_append _ _ _).mpr ⟨remarked, reportsOnly_nil _⟩
  · rw [place_plain plain]
    exact (reportsOnly_append _ _ _).mpr ⟨remarked, placeOther_reportsOnly settings table progress statement⟩

theorem Placement.fault_listed {after : Progress} {record? : Option Record} {fault : Diagnostic}
    (placed : Placement table progress statement record? after (some fault)) : fault.category ∈ layoutCategories := by
  rcases placed.fault_category with category | category <;> rw [category] <;> decide

theorem run_reportsOnly (statements : List Statement) :
    ReportsOnly layoutCategories (run settings table progress statements).events := by
  induction statements generalizing progress with
  | nil => exact reportsOnly_nil _
  | cons statement rest ih =>
    have first := (place_reportsOnly settings table progress statement).mono placingCategories_subset
    cases outcome : (place settings table progress statement).fault with
    | some fault =>
      have placement := place_placement settings table progress statement
      rw [outcome] at placement
      rw [run_cons_fault settings table rest outcome]
      simp [first, placement.fault_listed]
    | none =>
      rw [run_cons_placed settings table rest outcome]
      exact (reportsOnly_append _ _ _).mpr ⟨first, ih _⟩

theorem closingEvents_reportsOnly (layout : Layout) : ReportsOnly placingCategories (closingEvents layout) := by
  rw [closingEvents, reportsOnly_append]
  refine ⟨?_, by simp⟩
  split
  · exact reportsOnly_nil _
  · exact warning_reportsOnly _ rfl

end Layout

theorem layoutEvents_reportsOnly (settings : Settings) (table : OpcodeTable) (statements : List Statement) :
    ReportsOnly layoutCategories (layoutEvents settings table statements) := by
  rw [layoutEvents, reportsOnly_append]
  exact ⟨Layout.run_reportsOnly settings table {} statements,
    (Layout.closingEvents_reportsOnly _).mono placingCategories_subset⟩

namespace Encoder

variable (encoder : Encoder) (record : Record)

theorem report_reportsOnly {cause : Cause} (severity : Severity) (listed : cause.category ∈ encodingCategories) :
    ReportsOnly encodingCategories [encoder.report record cause severity] :=
  (reportsOnly_reported _ _ _).mpr ⟨listed, reportsOnly_nil _⟩

theorem operandEvents_reportsOnly {α : Type} (outcome : Except OperandFault α) :
    ReportsOnly encodingCategories (encoder.operandEvents record outcome) := by
  have invalid : Category.invalidOperand ∈ encodingCategories := by decide
  cases outcome with
  | ok _ => exact reportsOnly_nil _
  | error fault => exact encoder.report_reportsOnly record _ invalid

theorem instructionEvents_reportsOnly (code : String) :
    ReportsOnly encodingCategories (encoder.instructionEvents record code) := by
  have general : Category.general ∈ encodingCategories := by decide
  have unresolved : Category.unresolvedSymbol ∈ encodingCategories := by decide
  unfold instructionEvents
  split
  · exact encoder.report_reportsOnly record _ general
  · cases operand? record with
    | none => exact reportsOnly_nil _
    | some symbol =>
      dsimp only
      split
      · exact reportsOnly_nil _
      · exact (reportsOnly_debug _ _ _).mpr (encoder.report_reportsOnly record _ unresolved)

theorem recordEvents_reportsOnly : ReportsOnly encodingCategories (encoder.recordEvents record) := by
  have unknown : Category.unknownOpcode ∈ encodingCategories := by decide
  unfold recordEvents
  cases encoder.table.operation record.opcode with
  | directive directive =>
    cases directive with
    | word => exact encoder.operandEvents_reportsOnly record _
    | byte => exact encoder.operandEvents_reportsOnly record _
    | _ => exact reportsOnly_nil _
  | instruction code => exact encoder.instructionEvents_reportsOnly record code
  | unknown =>
    dsimp only
    unfold unknownOpcodeEvents
    split
    · exact (reportsOnly_debug _ _ _).mpr (encoder.report_reportsOnly record _ unknown)
    · exact reportsOnly_nil _

end Encoder

theorem encodingEvents_reportsOnly (encoder : Encoder) (records : List Record) :
    ReportsOnly encodingCategories (encodingEvents encoder records) := by
  intro diagnostic member
  by_cases general : diagnostic.category = .general
  · rw [general]
    decide
  · have listed : diagnostic ∈ ofCategory diagnostic.category (diagnosticsOf (encodingEvents encoder records)) :=
      List.mem_filter.mpr ⟨member, decide_eq_true rfl⟩
    rw [encoder.encodingEvents_reports general, List.mem_flatMap] at listed
    obtain ⟨record, -, reported⟩ := listed
    exact encoder.recordEvents_reportsOnly record diagnostic (List.mem_filter.mp reported).1

/-- A collector that has room for another error before the run ends. -/
structure Collector.Open (collector : Collector) : Prop where
  below : collector.errors.length < collector.limit
  unlimited : ∀ error ∈ collector.errors, error.category ≠ .errorLimit

/-- A collector whose last error ended the run. -/
structure Collector.Full (collector : Collector) : Prop where
  reached : collector.errors.length = collector.limit
  unlimited : ∀ error ∈ collector.errors, error.category ≠ .errorLimit

/-- A collector is open as long as nothing stops the run, and full once the limit does. -/
def Collector.LimitKept (collector : Collector) : Option Diagnostic → Prop
  | none => collector.Open
  | some stop => stop = collector.limitReached ∧ collector.Full

theorem Collector.limit_add (collector : Collector) (diagnostic : Diagnostic) :
    (collector.add diagnostic).limit = collector.limit := by
  rw [Collector.add_eq]

/-- One more diagnostic leaves a collector open, or fills it and ends the run. -/
theorem Collector.Open.add {collector : Collector} (opened : collector.Open) {diagnostic : Diagnostic}
    (other : diagnostic.category ≠ .errorLimit) :
    (collector.add diagnostic).LimitKept (collector.stop? diagnostic) := by
  obtain ⟨below, unlimited⟩ := opened
  cases warned : diagnostic.isWarning with
  | true =>
    simp only [Collector.stop?, Collector.add, warned, if_true]
    exact ⟨below, unlimited⟩
  | false =>
    have extended : ∀ error ∈ collector.errors ++ [diagnostic], error.category ≠ .errorLimit := by
      rw [List.forall_mem_append, List.forall_mem_singleton]
      exact ⟨unlimited, other⟩
    have length : ((collector.errors ++ [diagnostic]).length : Int) = collector.errors.length + 1 := by simp
    simp only [Collector.stop?, Collector.add, warned, Bool.false_eq_true, if_false]
    by_cases reached : collector.limit ≤ collector.errors.length + 1
    · rw [if_pos reached]
      exact ⟨rfl, by dsimp only; omega, extended⟩
    · rw [if_neg reached]
      exact ⟨by dsimp only; omega, extended⟩

/-- A replay goes through and leaves room for another error, or is stopped by the error that
    reaches the limit. -/
theorem Journal.replay_limitKept {journal after : Journal} {stop? : Option Diagnostic} {categories : List Category}
    {events : List Event} (replayed : journal.replay events = (after, stop?)) (opened : journal.collector.Open)
    (reports : ReportsOnly categories events) (others : .errorLimit ∉ categories) :
    after.collector.limit = journal.collector.limit ∧ after.collector.LimitKept stop? := by
  induction events generalizing journal with
  | nil =>
    obtain ⟨rfl, rfl⟩ := Prod.mk.inj replayed
    exact ⟨rfl, opened⟩
  | cons event rest ih =>
    cases event with
    | logged entry =>
      rw [Journal.replay] at replayed
      have later := ih replayed opened reports
      exact later
    | reported diagnostic =>
      rw [reportsOnly_reported] at reports
      have other : diagnostic.category ≠ .errorLimit := fun same => others (same ▸ reports.1)
      have entered := opened.add other
      have limit := journal.collector.limit_add diagnostic
      simp only [Journal.replay, Journal.submit] at replayed
      cases stops : journal.collector.stop? diagnostic with
      | some stop =>
        rw [stops] at entered replayed
        obtain ⟨rfl, rfl⟩ := Prod.mk.inj replayed
        exact ⟨limit, entered⟩
      | none =>
        rw [stops] at entered replayed
        obtain ⟨later, kept⟩ := ih replayed entered reports.2
        exact ⟨later.trans limit, kept⟩

/-- Fewer errors than end a run. -/
def BelowLimit (limit : Nat) (errors : List Diagnostic) : Prop :=
  errors.length < limit ∧ ∀ error ∈ errors, error.category ≠ .errorLimit

/-- As many errors as end a run, and behind them that they did. -/
def StoppedAtLimit (limit : Nat) (errors : List Diagnostic) : Prop :=
  errors.length = limit + 1 ∧
    ∃ front, errors = front ++ [{ cause := .errorLimit limit }] ∧ ∀ error ∈ front, error.category ≠ .errorLimit

/-- What the result of a run looks like under an error limit. -/
structure Assembly.OutcomeLaw (limit : Nat) (assembly : Assembly) : Prop where
  /-- A run that the limit stopped has no encoding and did not succeed. -/
  errors : BelowLimit limit assembly.collector.errors ∨
    StoppedAtLimit limit assembly.collector.errors ∧ assembly.encoding = none ∧ assembly.succeeded = false
  /-- Only a program that was laid out to its end is encoded. -/
  encoded : assembly.encoding.isSome → ∃ layout, assembly.layout = some layout ∧ layout.aborted = false
  rendered : assembly.stage = .rendered ↔ assembly.layout.isSome
  /-- The records are printed exactly if the program was encoded, -/
  records : assembly.printout.records ≠ "" ↔ assembly.encoding.isSome
  /-- and so is the object program, -/
  objectProgram : assembly.printout.objectProgram ≠ "" ↔ assembly.encoding.isSome
  /-- at the end of which they stand. -/
  suffix : ∃ listing, assembly.printout.objectProgram = listing ++ assembly.printout.records

theorem ObjectProgram.text_ne_empty (program : ObjectProgram) : program.text ≠ "" := by
  intro empty
  have letters := congrArg String.toList empty
  rw [ObjectProgram.text, ObjectProgram.records, Text.toList_endLines] at letters
  simp at letters

namespace Assembly

theorem belowLimit_of_open {collector : Collector} {limit : Nat} (limited : collector.limit = limit)
    (opened : collector.Open) : BelowLimit limit collector.errors := by
  have below := opened.below
  rw [limited] at below
  exact ⟨Int.ofNat_lt.mp below, opened.unlimited⟩

theorem stoppedAtLimit_of_full {journal : Journal} {limit : Nat} (limited : journal.collector.limit = limit)
    (full : journal.collector.Full) :
    StoppedAtLimit limit (stopped journal journal.collector.limitReached).collector.errors := by
  have reached := full.reached
  rw [limited] at reached
  refine ⟨?_, journal.collector.errors, ?_, full.unlimited⟩
  · simp only [stopped, List.length_append, List.length_singleton]
    omega
  · simp only [stopped, Collector.limitReached, limited]

theorem finish_outcomeLaw {journal : Journal} {table : OpcodeTable} {stage : Stage} {layout? : Option Layout}
    {encoding? : Option Encoding} {limit : Nat} {assembly : Assembly}
    (errors : BelowLimit limit journal.collector.errors ∨
      StoppedAtLimit limit journal.collector.errors ∧ encoding? = none)
    (unrendered : stage ≠ .rendered)
    (complete : encoding?.isSome → ∃ layout, layout? = some layout ∧ layout.aborted = false)
    (returned : (finish journal stage table layout? encoding?).result = .ok assembly) : OutcomeLaw limit assembly := by
  obtain rfl := Except.ok.inj returned
  have stages : (if layout?.isSome then Stage.rendered else stage) = .rendered ↔ layout?.isSome := by
    cases layout? with
    | none => simpa using unrendered
    | some layout => simp
  cases encoding? with
  | none =>
    have nothing : (printoutOf layout? none journal.collector).records = "" ∧
        (printoutOf layout? none journal.collector).objectProgram = "" := by
      cases layout? <;> exact ⟨rfl, rfl⟩
    refine ⟨?_, complete, stages, by simp [nothing.1], by simp [nothing.2], "", by simp [nothing]⟩
    exact errors.imp_right fun ended => ⟨ended.1, rfl, rfl⟩
  | some encoding =>
    obtain ⟨layout, rfl, -⟩ := complete rfl
    have printed := encoding.program.text_ne_empty
    refine ⟨.inl ?_, complete, stages, ?_, ?_, encoding.listingText, rfl⟩
    · rcases errors with below | ⟨-, unencoded⟩
      · exact below
      · contradiction
    · exact iff_of_true printed rfl
    · refine iff_of_true (fun empty => printed ?_) rfl
      exact (String.append_eq_empty_iff.mp empty).2

theorem fail_outcomeLaw {journal : Journal} {fault : Diagnostic} {stage : Stage} {table : OpcodeTable} {limit : Nat}
    {assembly : Assembly} (limited : journal.collector.limit = limit) (opened : journal.collector.Open)
    (other : fault.category ≠ .errorLimit) (unrendered : stage ≠ .rendered)
    (returned : (fail journal fault stage table).result = .ok assembly) : OutcomeLaw limit assembly := by
  obtain ⟨goesOn, finished⟩ := fail_returned returned
  have entered := opened.add other
  rw [goesOn] at entered
  have below := belowLimit_of_open ((journal.collector.limit_add fault).trans limited) entered
  exact finish_outcomeLaw (.inl below) unrendered (by simp) finished

theorem Ending.outcomeLaw {settings : Settings} {table : OpcodeTable} {file : String} {statements : List Statement}
    {journal : Journal} {outcome : Outcome} {limit : Nat} {assembly : Assembly}
    (ending : Ending settings table file statements journal outcome) (limited : journal.collector.limit = limit)
    (opened : journal.collector.Open) (returned : outcome.result = .ok assembly) : OutcomeLaw limit assembly := by
  have unrendered : Stage.tableLoaded ≠ .rendered := by decide
  have unencoded : (none : Option Encoding).isSome → ∃ layout, some (layOut settings table statements) = some layout ∧
      layout.aborted = false := by simp
  have laidOut {after : Journal} {stop? : Option Diagnostic}
      (replayed : journal.replay (layoutEvents settings table statements) = (after, stop?)) :=
    Journal.replay_limitKept replayed opened (layoutEvents_reportsOnly settings table statements) (by decide)
  have encodes {between after : Journal} {stop? : Option Diagnostic} (opened : between.collector.Open)
      (replayed : between.replay (encodingEvents (programEncoder settings table statements file false)
        (layOut settings table statements).records) = (after, stop?)) :=
    Journal.replay_limitKept replayed opened (encodingEvents_reportsOnly _ _) (by decide)
  cases ending with
  | layoutStopped replayed =>
    obtain ⟨kept, rfl, full⟩ := laidOut replayed
    exact finish_outcomeLaw (.inr ⟨stoppedAtLimit_of_full (kept.trans limited) full, rfl⟩) unrendered (by simp) returned
  | aborted replayed aborted =>
    obtain ⟨kept, opened⟩ := laidOut replayed
    exact finish_outcomeLaw (.inl (belowLimit_of_open (kept.trans limited) opened)) unrendered unencoded returned
  | encodingStopped replayed complete encoded =>
    obtain ⟨kept, opened⟩ := laidOut replayed
    obtain ⟨keptAgain, rfl, full⟩ := encodes opened encoded
    have limited := (keptAgain.trans kept).trans limited
    exact finish_outcomeLaw (.inr ⟨stoppedAtLimit_of_full limited full, rfl⟩) unrendered unencoded returned
  | encoded replayed complete encoded =>
    obtain ⟨kept, opened⟩ := laidOut replayed
    obtain ⟨keptAgain, opened⟩ := encodes opened encoded
    have limited := (keptAgain.trans kept).trans limited
    exact finish_outcomeLaw (.inl (belowLimit_of_open limited opened)) unrendered (fun _ => ⟨_, rfl, complete⟩) returned

theorem newJournal_open (settings : Settings) : (newJournal settings).collector.Open :=
  ⟨Int.ofNat_lt.mpr settings.errorLimit_pos, List.forall_mem_nil _⟩

/-- A run keeps the limit if it begins below it. -/
theorem run_outcomeLaw {settings : Settings} {table : OpcodeTable} {file source : String} {journal : Journal}
    {limit : Nat} {assembly : Assembly} (limited : journal.collector.limit = limit) (opened : journal.collector.Open)
    (returned : (run settings table file source journal).result = .ok assembly) : OutcomeLaw limit assembly := by
  unfold run at returned
  split at returned
  next => exact fail_outcomeLaw limited opened (by decide) (by decide) returned
  next => exact (assembleWith_ending settings table file source journal).outcomeLaw limited opened returned

end Assembly

/-- Every result of a run keeps the error limit. -/
theorem assemble_outcomeLaw (settings : Settings) (file source tableText : String) {assembly : Assembly}
    (returned : (assemble settings file source tableText).result = .ok assembly) :
    assembly.OutcomeLaw settings.errorLimit := by
  rw [assemble] at returned
  refine Assembly.run_outcomeLaw ?_ ?_ returned
  · rfl
  · exact Assembly.newJournal_open settings

/-- Under strict settings the second undefined symbol ends a run that may have two errors, and the
    layout is printed. -/
theorem assemble_outcomeLaw_stopped :
    ∃ assembly,
      (assemble { strict := true, errorLimit := 2 } "<input>" " START 0\n LDA A\n LDA B\n LDA C\n END\n" "LDA 00\n").result =
          .ok assembly ∧
        assembly.collector.errors.map Diagnostic.category = [.unresolvedSymbol, .unresolvedSymbol, .errorLimit] ∧
        assembly.stage = .rendered ∧ assembly.OutcomeLaw 2 := by
  have returned : ∃ assembly,
      (assemble { strict := true, errorLimit := 2 } "<input>" " START 0\n LDA A\n LDA B\n LDA C\n END\n" "LDA 00\n").result =
          .ok assembly ∧
        assembly.collector.errors.map Diagnostic.category = [.unresolvedSymbol, .unresolvedSymbol, .errorLimit] ∧
        assembly.stage = .rendered := exists_ok_of_any (by decide +kernel)
  obtain ⟨assembly, returned, categories, rendered⟩ := returned
  exact ⟨assembly, returned, categories, rendered, assemble_outcomeLaw _ _ _ _ returned⟩

end TwoPass
