import TwoPass.Proofs.Acceptance
import TwoPass.Proofs.Lines
import TwoPass.Proofs.Runs

/-!
Reports of unknown opcodes. Layout makes one for every statement whose opcode is not among the known
names (`run_unknown`). Encoding would make the same ones again, of the statements in front of END
(`encodingEvents_unknown`), and says nothing about them in a run, so that a run reports each of them once
(`UnknownOpcodeLaw`).
-/
namespace TwoPass

open Text

/-- Both passes know the same opcodes: the directives and what the table lists. -/
theorem OpcodeTable.operation_eq_unknown_iff (table : OpcodeTable) (opcode : String) :
    table.operation opcode = .unknown ↔ opcode ∉ table.knownNames := by
  have named : opcode ∈ Directive.all.map Directive.name ↔ (Directive.ofName? opcode).isSome := by
    simp [Directive.ofName?]
  have listed : opcode ∈ table.mnemonics ↔ (table.code? opcode).isSome := (table.codes.get?_isSome_iff opcode).symm
  rw [knownNames, List.mem_append, named, listed, operation]
  cases Directive.ofName? opcode <;> cases table.code? opcode <;> simp

theorem OpcodeTable.name_mem_knownNames (table : OpcodeTable) (directive : Directive) :
    directive.name ∈ table.knownNames := by
  by_contra missing
  rw [← table.operation_eq_unknown_iff, table.operation_name] at missing
  contradiction

theorem statementSize_eq_none_iff {table : OpcodeTable} {opcode : String} {operand : Option String} :
    statementSize table opcode operand = .ok none ↔ opcode ∉ table.knownNames := by
  rw [← table.operation_eq_unknown_iff, statementSize]
  cases table.operation opcode with
  | unknown => simp
  | instruction code => simp
  | directive directive =>
    cases directive with
    | start | finish => simp
    | word => cases Operand.word operand <;> simp [Except.map]
    | byte => cases Operand.byteCode operand <;> simp [Except.map]
    | reserveWords | reserveBytes => cases Operand.count operand <;> simp [Except.map]

/-- The report that the opcode of a statement is not known. -/
def Statement.unknownReport (table : OpcodeTable) (statement : Statement) : Diagnostic :=
  { cause := .unknownOpcode statement.opcode table.knownNames
    severity := .warning
    location := some statement.location
    sourceLine := some statement.text }

/-- The reports for the statements whose opcodes are not known, one for each and in order. -/
def unknownReports (table : OpcodeTable) (statements : List Statement) : List Diagnostic :=
  (statements.filter (·.opcode ∉ table.knownNames)).map (Statement.unknownReport table)

theorem unknownReports_cons (table : OpcodeTable) (statement : Statement) (rest : List Statement) :
    unknownReports table (statement :: rest) =
      (if statement.opcode ∈ table.knownNames then [] else [statement.unknownReport table]) ++
        unknownReports table rest := by
  by_cases known : statement.opcode ∈ table.knownNames <;> simp [unknownReports, known]

theorem isWarning_of_mem_unknownReports {table : OpcodeTable} {statements : List Statement} :
    ∀ report ∈ unknownReports table statements, report.isWarning := by
  intro report member
  obtain ⟨statement, -, rfl⟩ := List.mem_map.mp member
  rfl

namespace Layout

variable {settings : Settings} {table : OpcodeTable} {progress : Progress} {statement : Statement}

theorem remarks_unknown : ofCategory .unknownOpcode (diagnosticsOf (remarks progress statement)) = [] := by
  unfold remarks
  split <;> split <;> rfl

theorem definitionEvents_unknown :
    ofCategory .unknownOpcode (diagnosticsOf (definitionEvents settings progress statement)) = [] := by
  unfold definitionEvents
  split
  · rfl
  · split <;> rfl

theorem placeStart_unknown : ofCategory .unknownOpcode (diagnosticsOf (placeStart progress statement).events) = [] := by
  unfold placeStart
  dsimp only
  split <;> split <;> rfl

theorem placeOther_unknown (placed : (placeOther settings table progress statement).fault = none) :
    ofCategory .unknownOpcode (diagnosticsOf (placeOther settings table progress statement).events) =
      if statement.opcode ∈ table.knownNames then [] else [statement.unknownReport table] := by
  unfold placeOther at placed ⊢
  split at placed
  next => contradiction
  next inside =>
    rw [if_neg inside]
    cases size : statementSize table statement.opcode statement.operand with
    | error fault => simp [size] at placed
    | ok size? =>
      -- Exactly an unknown opcode has no size.
      cases size? with
      | none =>
        rw [if_neg (statementSize_eq_none_iff.mp size)]
        simp only [diagnosticsOf_append, ofCategory_append, definitionEvents_unknown]
        rfl
      | some bytes =>
        have known : statement.opcode ∈ table.knownNames := by
          by_contra unknown
          simp [statementSize_eq_none_iff.mpr unknown] at size
        rw [if_pos known]
        exact definitionEvents_unknown

/-- A statement that is laid out is reported if its opcode is not known. -/
theorem place_unknown (placed : (place settings table progress statement).fault = none) :
    ofCategory .unknownOpcode (diagnosticsOf (place settings table progress statement).events) =
      if statement.opcode ∈ table.knownNames then [] else [statement.unknownReport table] := by
  rcases opcode_cases statement.opcode with isStart | isEnd | plain
  · rw [place_start isStart, if_pos (isStart ▸ table.name_mem_knownNames .start)]
    simp only [diagnosticsOf_append, ofCategory_append, remarks_unknown, placeStart_unknown, List.append_nil]
  · rw [place_end isEnd, if_pos (isEnd ▸ table.name_mem_knownNames .finish)]
    simp only [diagnosticsOf_append, ofCategory_append, remarks_unknown]
    rfl
  · rw [place_plain plain] at placed ⊢
    simp only [diagnosticsOf_append, ofCategory_append, remarks_unknown, List.nil_append]
    exact placeOther_unknown placed

/-- A run that goes to its end reports the unknown opcodes of all statements. -/
theorem run_unknown {statements : List Statement} (complete : (run settings table progress statements).aborted = false) :
    ofCategory .unknownOpcode (diagnosticsOf (run settings table progress statements).events) =
      unknownReports table statements := by
  induction statements generalizing progress with
  | nil => rfl
  | cons statement rest ih =>
    cases outcome : (place settings table progress statement).fault with
    | some fault =>
      rw [run_cons_fault settings table rest outcome] at complete
      contradiction
    | none =>
      rw [run_cons_placed settings table rest outcome] at complete ⊢
      rw [diagnosticsOf_append, ofCategory_append, place_unknown outcome, ih complete, unknownReports_cons]

/-- The first statements are laid out as if there were no others. -/
theorem run_front {front statements : List Statement} (isFront : front <+: statements)
    (complete : (run settings table progress statements).aborted = false) :
    (run settings table progress front).aborted = false ∧
      (run settings table progress front).events <+: (run settings table progress statements).events := by
  obtain ⟨back, rfl⟩ := isFront
  induction front generalizing progress with
  | nil => exact ⟨rfl, List.nil_prefix⟩
  | cons statement rest ih =>
    rw [List.cons_append] at complete ⊢
    cases outcome : (place settings table progress statement).fault with
    | some fault =>
      rw [run_cons_fault settings table _ outcome] at complete
      contradiction
    | none =>
      rw [run_cons_placed settings table _ outcome] at complete
      rw [run_cons_placed settings table _ outcome, run_cons_placed settings table _ outcome]
      obtain ⟨ended, isPrefix⟩ := ih complete
      exact ⟨ended, (List.prefix_append_right_inj _).mpr isPrefix⟩

theorem closingEvents_unknown (layout : Layout) : ofCategory .unknownOpcode (diagnosticsOf (closingEvents layout)) = [] := by
  unfold closingEvents
  split <;> rfl

end Layout

theorem layoutEvents_unknown {settings : Settings} {table : OpcodeTable} {statements : List Statement}
    (complete : (layOut settings table statements).aborted = false) :
    ofCategory .unknownOpcode (diagnosticsOf (layoutEvents settings table statements)) =
      unknownReports table statements := by
  rw [layoutEvents, diagnosticsOf_append, ofCategory_append, Layout.run_unknown complete, Layout.closingEvents_unknown,
    List.append_nil]

/-- A statement has a line number in a file. -/
def Statement.Placed (statement : Statement) (file : String) : Prop :=
  statement.file = file ∧ statement.line ≠ 0

namespace Statement

variable {settings : Settings} {table : OpcodeTable} {file : String} {statement : Statement}

theorem parse?_placed {line : String} {number : Int} (found : parse? settings table file number line = some statement) :
    statement.file = file ∧ statement.line = number := by
  rw [parse?, Option.ite_none_left_eq_some, Option.some.injEq] at found
  obtain ⟨-, rfl⟩ := found
  exact ⟨rfl, rfl⟩

theorem parseAll_placed {source : String} (member : statement ∈ parseAll settings table file source) :
    statement.Placed file := by
  obtain ⟨⟨number, line⟩, isLine, found⟩ := List.mem_filterMap.mp member
  obtain ⟨named, stands⟩ := parse?_placed found
  -- Lines are numbered from 1.
  have positive := le_of_mem_numbered isLine
  refine ⟨named, ?_⟩
  rw [stands]
  omega

end Statement

namespace Encoder

variable {encoder : Encoder} {record : Record}

/-- Both passes report an unknown opcode in the same words. -/
theorem unknownReport_eq {statement : Statement} (carries : record.Carries statement)
    (placed : statement.Placed encoder.file) :
    encoder.unknownReport record = statement.unknownReport encoder.table := by
  obtain ⟨file, line⟩ := placed
  rw [unknownReport, Statement.unknownReport, location?, carries.line, if_neg line, carries.opcode, carries.text,
    Statement.location, file]

theorem remark?_unknown {statement : Statement} (carries : record.Carries statement)
    (placed : statement.Placed encoder.file) :
    ofCategory .unknownOpcode (encoder.remark? record).toList =
      if encoder.warnUnknown ∧ statement.opcode ∉ encoder.table.knownNames then [statement.unknownReport encoder.table]
      else [] := by
  rw [← unknownReport_eq carries placed, remark?, carries.opcode]
  have meaning := encoder.table.operation_eq_unknown_iff statement.opcode
  cases means : encoder.table.operation statement.opcode with
  | unknown =>
    have unknown := meaning.mp means
    cases encoder.warnUnknown <;> simp [unknown] <;> rfl
  | directive directive =>
    have known : ¬ (encoder.warnUnknown ∧ statement.opcode ∉ encoder.table.knownNames) := by simp [← meaning, means]
    rw [if_neg known]
    rfl
  | instruction code =>
    have known : ¬ (encoder.warnUnknown ∧ statement.opcode ∉ encoder.table.knownNames) := by simp [← meaning, means]
    rw [if_neg known]
    dsimp only
    split
    · split <;> rfl
    · rfl

theorem filterMap_remark?_unknown {records : List Record} {statements : List Statement}
    (carried : List.Forall₂ Record.Carries records statements)
    (placed : ∀ statement ∈ statements, statement.Placed encoder.file) :
    ofCategory .unknownOpcode (records.filterMap encoder.remark?) =
      if encoder.warnUnknown then unknownReports encoder.table statements else [] := by
  rw [List.filterMap_eq_flatMap_toList]
  induction carried with
  | nil => exact (ite_self _).symm
  | @cons record statement records statements carries _ ih =>
    rw [List.forall_mem_cons] at placed
    rw [List.flatMap_cons, ofCategory_append, ih placed.2, remark?_unknown carries placed.1, unknownReports_cons]
    cases encoder.warnUnknown <;> by_cases known : statement.opcode ∈ encoder.table.knownNames <;> simp [known]

end Encoder

theorem beforeEnd_carries {records : List Record} {statements : List Statement}
    (carried : List.Forall₂ Record.Carries records statements) :
    List.Forall₂ Record.Carries (beforeEnd Record.opcode records) (beforeEnd Statement.opcode statements) := by
  induction carried with
  | nil => exact .nil
  | cons carries _ ih =>
    simp only [beforeEnd, List.takeWhile_cons, carries.opcode]
    split
    · exact .cons carries ih
    · exact .nil

section
variable {settings : Settings} {table : OpcodeTable} {statements : List Statement}
  (complete : (layOut settings table statements).aborted = false)
include complete

/-- Encoding makes the reports for the statements in front of END again, unless it is silent. -/
theorem encodingEvents_unknown {encoder : Encoder} (sameTable : encoder.table = table)
    (placed : ∀ statement ∈ statements, statement.Placed encoder.file) :
    ofCategory .unknownOpcode (diagnosticsOf (encodingEvents encoder (layOut settings table statements).records)) =
      if encoder.warnUnknown then unknownReports table (beforeEnd Statement.opcode statements) else [] := by
  have inside : ∀ statement ∈ beforeEnd Statement.opcode statements, statement ∈ statements :=
    (List.takeWhile_prefix _).subset
  rw [diagnosticsOf_encodingEvents complete sameTable, ← sameTable]
  exact Encoder.filterMap_remark?_unknown (beforeEnd_carries (layOut_carries_all (sameTable ▸ complete)))
    fun statement member => placed statement (inside statement member)

theorem encodingEvents_errors (file : String) (warnUnknown other : Bool) :
    (diagnosticsOf (encodingEvents (programEncoder settings table statements file warnUnknown)
        (layOut settings table statements).records)).filter (!·.isWarning) =
      (diagnosticsOf (encodingEvents (programEncoder settings table statements file other)
        (layOut settings table statements).records)).filter (!·.isWarning) := by
  rw [filter_encodingEvents complete rfl, filter_encodingEvents complete rfl]
  rfl

end

/-- What has been added to a collector of one kind of diagnostics: warnings, and no error. -/
structure Collector.Warns (before : Collector) (category : Category) (after : Collector) (reports : List Diagnostic) :
    Prop where
  warnings : ofCategory category after.warnings = ofCategory category before.warnings ++ reports
  errors : ofCategory category after.errors = ofCategory category before.errors

theorem Collector.Warns.trans {category : Category} {before between after : Collector} {front back : List Diagnostic}
    (first : before.Warns category between front) (second : between.Warns category after back) :
    before.Warns category after (front ++ back) where
  warnings := by rw [second.warnings, first.warnings, List.append_assoc]
  errors := by rw [second.errors, first.errors]

theorem Journal.replay_warns {category : Category} {before after : Journal} {events : List Event}
    {reports : List Diagnostic} (replayed : before.replay events = (after, none))
    (found : ofCategory category (diagnosticsOf events) = reports) (warned : ∀ report ∈ reports, report.isWarning) :
    before.collector.Warns category after.collector reports := by
  have noErrors : reports.filter (!·.isWarning) = [] :=
    List.filter_eq_nil_iff.mpr fun report member => by simp [warned report member]
  rw [Journal.replay_complete replayed]
  constructor
  · rw [ofCategory_append, ofCategory_filter, found, List.filter_eq_self.mpr warned]
  · rw [ofCategory_append, ofCategory_filter, found, noErrors, List.append_nil]

/-- How unknown opcodes are reported for a program that was encoded, with what its run has collected. -/
structure UnknownOpcodeLaw (settings : Settings) (table : OpcodeTable) (file : String) (statements : List Statement)
    (collected : Collector) : Prop where
  /-- The run warns once of every statement whose opcode is not known, in order. -/
  run : (Assembly.newJournal settings).collector.Warns .unknownOpcode collected (unknownReports table statements)
  /-- It is the layout that does, -/
  layout : ∃ after, (Assembly.newJournal settings).replay (layoutEvents settings table statements) = (after, none) ∧
    (Assembly.newJournal settings).collector.Warns .unknownOpcode after.collector (unknownReports table statements)
  /-- and it begins with the statements in front of END. -/
  front : (Layout.run settings table {} (beforeEnd Statement.opcode statements)).events <+:
      layoutEvents settings table statements ∧
    ofCategory .unknownOpcode
        (diagnosticsOf (Layout.run settings table {} (beforeEnd Statement.opcode statements)).events) =
      unknownReports table (beforeEnd Statement.opcode statements)
  /-- Encoding that is not silent warns of those again, in the same words, whatever the symbols and the settings. -/
  again : ∀ encoder : Encoder, encoder.table = table → encoder.file = file → encoder.warnUnknown →
    ∀ before after : Journal,
      before.replay (encodingEvents encoder (layOut settings table statements).records) = (after, none) →
        before.collector.Warns .unknownOpcode after.collector (unknownReports table (beforeEnd Statement.opcode statements))
  /-- With the symbols and the settings of the run it comes to its end, be it on its own or behind the layout. -/
  returns : ∀ before : Journal, before.collector.limit = settings.errorLimit →
    before.collector.errors.length ≤
        ((Assembly.newJournal settings).replay (layoutEvents settings table statements)).1.collector.errors.length →
      ∃ after, before.replay (encodingEvents (programEncoder settings table statements file true)
        (layOut settings table statements).records) = (after, none)

/-- Unknown opcodes are reported once, though both passes find the same ones. -/
theorem assemble_unknownOpcodeLaw (settings : Settings) (file source tableText : String) {assembly : Assembly}
    {encoding : Encoding} (returned : (assemble settings file source tableText).result = .ok assembly)
    (isEncoded : assembly.encoding = some encoding) :
    UnknownOpcodeLaw settings (.ofText tableText) file (Statement.parseAll settings (.ofText tableText) file source)
      assembly.collector := by
  obtain ⟨complete, -, -⟩ := assemble_encoded returned isEncoded
  obtain ⟨logged, after, laidOut, encoded, collected⟩ := (assemble_ending returned isEncoded).replays returned isEncoded
  have placed : ∀ statement ∈ Statement.parseAll settings (.ofText tableText) file source, statement.Placed file :=
    fun _ => Statement.parseAll_placed
  generalize OpcodeTable.ofText tableText = table at *
  generalize Statement.parseAll settings table file source = statements at *
  -- What stands in the log has no part in it.
  obtain ⟨between, fresh, same⟩ := Journal.replay_collector laidOut (rfl : _ = (Assembly.newJournal settings).collector)
  have layoutWarns := Journal.replay_warns fresh (layoutEvents_unknown complete) isWarning_of_mem_unknownReports
  have silent : logged.collector.Warns .unknownOpcode after.collector [] :=
    Journal.replay_warns encoded (encodingEvents_unknown complete rfl placed) (List.forall_mem_nil _)
  have runWarns := layoutWarns.trans (same ▸ silent)
  rw [List.append_nil, ← collected] at runWarns
  obtain ⟨frontComplete, frontEvents⟩ := Layout.run_front (List.takeWhile_prefix _) complete
  refine ⟨runWarns, ⟨between, fresh, layoutWarns⟩,
    ⟨frontEvents.trans (List.prefix_append _ _), Layout.run_unknown frontComplete⟩, ?_, ?_⟩
  · rintro encoder sameTable rfl loud before after replayed
    have found := encodingEvents_unknown complete sameTable placed
    rw [if_pos loud] at found
    exact Journal.replay_warns replayed found isWarning_of_mem_unknownReports
  · intro before limit fewer
    rw [fresh, ← same] at fewer
    have room : before.collector.limit = logged.collector.limit := by
      rw [same, Journal.replay_complete fresh, limit]
      rfl
    have goesOn := Journal.replay_goesOn_of_le (congrArg Prod.snd encoded) (encodingEvents_errors complete file true false)
      room fewer
    exact ⟨_, Journal.replay_of_not_stopped goesOn⟩

/-- With an opcode missing behind a label, and one that is not known on both sides of END. -/
theorem assemble_unknownOpcodeLaw_labelled :
    ∃ assembly encoding,
      (assemble {} "<input>" " START 10\nHERE:\n.\n MUL HERE\n END\n MUL\n" "LDA 00\nEND 4C\n").result = .ok assembly ∧
        assembly.encoding = some encoding ∧
        (ofCategory .unknownOpcode assembly.collector.warnings).map Diagnostic.location =
          [some ⟨"<input>", 2, 0⟩, some ⟨"<input>", 4, 0⟩, some ⟨"<input>", 6, 0⟩] ∧
        UnknownOpcodeLaw {} (.ofText "LDA 00\nEND 4C\n") "<input>"
          (Statement.parseAll {} (.ofText "LDA 00\nEND 4C\n") "<input>" " START 10\nHERE:\n.\n MUL HERE\n END\n MUL\n")
          assembly.collector := by
  have returned : ∃ assembly,
      (assemble {} "<input>" " START 10\nHERE:\n.\n MUL HERE\n END\n MUL\n" "LDA 00\nEND 4C\n").result = .ok assembly ∧
        assembly.encoding.isSome ∧
        (ofCategory .unknownOpcode assembly.collector.warnings).map Diagnostic.location =
          [some ⟨"<input>", 2, 0⟩, some ⟨"<input>", 4, 0⟩, some ⟨"<input>", 6, 0⟩] := exists_ok_of_any (by decide +kernel)
  obtain ⟨assembly, returned, isEncoded, reported⟩ := returned
  obtain ⟨encoding, isEncoded⟩ := Option.isSome_iff_exists.mp isEncoded
  exact ⟨assembly, encoding, returned, isEncoded, reported, assemble_unknownOpcodeLaw _ _ _ _ returned isEncoded⟩

end TwoPass
