import Mathlib.Logic.Relation
import TwoPass.Proofs.Lines
import TwoPass.Proofs.Places
import TwoPass.Proofs.Runs

/-!
What of a source text counts. A run comes to the same for two texts whose statements have the same
fields (`assemble_alike`), since nothing else of them is read but for reports. Blank lines and
comments have no fields, so texts with the same other lines are such texts
(`parseAll_fields_congr`), and so is a text and the same text with blank and comment lines put in
(`statementLines_insert`).
-/
namespace TwoPass

open Text

/-- Two results that agree in all but what their diagnostics tell of places. -/
structure Assembly.Alike (first second : Assembly) : Prop where
  stage : second.stage = first.stage
  succeeded : second.succeeded = first.succeeded
  /-- The same is printed, but for the diagnostics. -/
  printed : second.printout = { first.printout with diagnostics := second.printout.diagnostics }
  codes : second.codes = first.codes
  errors : second.collector.errors.map Diagnostic.category = first.collector.errors.map Diagnostic.category
  warnings : second.collector.warnings.map Diagnostic.category = first.collector.warnings.map Diagnostic.category

/-- Two runs with the same log that both return such results, or none for the same reason. -/
structure Outcome.Alike (first second : Outcome) : Prop where
  log : second.log = first.log
  result : match first.result, second.result with
    | .ok assembly, .ok other => assembly.Alike other
    | .error interruption, .error other => other = interruption
    | _, _ => False

theorem Outcome.Alike.refl (outcome : Outcome) : outcome.Alike outcome := by
  refine ⟨rfl, ?_⟩
  cases outcome.result with
  | error interruption => rfl
  | ok assembly => exact ⟨rfl, rfl, rfl, rfl, rfl, rfl⟩

theorem map_category_unplaced (diagnostics : List Diagnostic) :
    (diagnostics.map Diagnostic.unplaced).map Diagnostic.category = diagnostics.map Diagnostic.category := by
  rw [List.map_map]
  exact List.map_congr_left fun diagnostic _ => diagnostic.category_unplaced

namespace Assembly

theorem printoutOf_unplaced (layout : Option Layout) (encoding : Option Encoding) (collector : Collector) :
    printoutOf (layout.map Layout.unplaced) (encoding.map Encoding.unplaced) collector =
      printoutOf layout encoding collector := by
  cases layout with
  | none => rfl
  | some layout =>
    have intermediate : Intermediate.render (layout.records.map Record.bare) = Intermediate.render layout.records := by
      rw [Intermediate.render, Intermediate.render, List.map_map]
      rfl
    have symbols : layout.symbols.unplaced.text = layout.symbols.text := by
      rw [SymbolTable.text, SymbolTable.addresses_unplaced, SymbolTable.text]
    have listing (encoding : Encoding) : encoding.unplaced.listingText = encoding.listingText := by
      rw [Encoding.listingText, Encoding.listingText, Encoding.unplaced, List.map_map]
      rfl
    simp only [Option.map_some, printoutOf, Printout.of, Layout.unplaced, intermediate, symbols, Option.map_map,
      Function.comp_def, listing]
    rfl

section
variable {first second : Journal} (journals : first.unplaced = second.unplaced)
include journals

theorem finish_alike {layout otherLayout : Option Layout} {encoding otherEncoding : Option Encoding}
    (layouts : layout.map Layout.unplaced = otherLayout.map Layout.unplaced)
    (encodings : encoding.map Encoding.unplaced = otherEncoding.map Encoding.unplaced) (stage : Stage)
    (table : OpcodeTable) :
    (finish first stage table layout encoding).Alike (finish second stage table otherLayout otherEncoding) := by
  obtain ⟨errors, warnings, -, log⟩ := Journal.unplaced_eq_iff.mp journals
  have errorTotal := congrArg List.length errors
  have warningTotal := congrArg List.length warnings
  rw [List.length_map, List.length_map] at errorTotal warningTotal
  have laidOut := congrArg Option.isSome layouts
  have encoded := congrArg Option.isSome encodings
  rw [Option.isSome_map, Option.isSome_map] at laidOut encoded
  refine ⟨?_, ?_⟩
  · simp only [finish, log, errorTotal, warningTotal]
  · refine ⟨?_, ?_, ?_, ?_, ?_, ?_⟩
    · simp only [laidOut]
    · have errorless : first.collector.errors.isEmpty = second.collector.errors.isEmpty := by
        rw [← List.isEmpty_map, errors, List.isEmpty_map]
      simp only [succeeded, Collector.hasErrors, encoded, errorless]
    · dsimp only
      rw [← printoutOf_unplaced otherLayout, ← layouts, ← encodings, printoutOf_unplaced]
      cases layout <;> rfl
    · have same (encoding : Option Encoding) :
          (encoding.map Encoding.unplaced).map Encoding.codes = encoding.map Encoding.codes := by
        rw [Option.map_map, Function.comp_def]
        simp only [Encoding.codes_unplaced]
      simp only [codes]
      rw [← same, ← encodings, same]
    · dsimp only
      rw [← map_category_unplaced, ← errors, map_category_unplaced]
    · dsimp only
      rw [← map_category_unplaced, ← warnings, map_category_unplaced]

theorem stopped_unplaced (stop : Diagnostic) : (stopped first stop).unplaced = (stopped second stop).unplaced := by
  obtain ⟨errors, warnings, limit, log⟩ := Journal.unplaced_eq_iff.mp journals
  simp only [stopped, Journal.unplaced_eq_iff, List.map_append, errors, warnings, limit, log, and_self]

end

section
variable (settings : Settings) (table : OpcodeTable) {statements others : List Statement}
  (same : statements.map Statement.unplaced = others.map Statement.unplaced) (file otherFile : String)
include same

theorem programEncoder_congr :
    (programEncoder settings table statements file false).unplaced =
      (programEncoder settings table others otherFile false).unplaced := by
  have symbols : (layOut settings table statements).symbols.unplaced = (layOut settings table others).symbols.unplaced :=
    congrArg Layout.symbols (layOut_congr settings table same)
  simp only [programEncoder, Encoder.unplaced, symbols]

/-- Runs over statements with the same fields end in the same way. -/
theorem Ending.alike {journal : Journal} {outcome : Outcome}
    (ending : Ending settings table file statements journal outcome) :
    ∃ other, Ending settings table otherFile others journal other ∧ outcome.Alike other := by
  have layouts := layOut_congr settings table same
  have events := layoutEvents_congr settings table same
  have records : (layOut settings table statements).records.map Record.bare =
      (layOut settings table others).records.map Record.bare := congrArg Layout.records layouts
  have aborts : (layOut settings table statements).unplaced.aborted = (layOut settings table others).unplaced.aborted := by
    rw [layouts]
  have encoders := programEncoder_congr settings table same file otherFile
  have encoding : (encodingEvents (programEncoder settings table statements file false)
      (layOut settings table statements).records).map Event.unplaced =
        (encodingEvents (programEncoder settings table others otherFile false)
          (layOut settings table others).records).map Event.unplaced := by
    rw [← encodingEvents_unplaced, encoders, records, encodingEvents_unplaced]
  cases ending with
  | layoutStopped replayed =>
    obtain ⟨other, otherReplayed, alike⟩ := Journal.replay_congr rfl events replayed
    exact ⟨_, .layoutStopped otherReplayed, finish_alike (stopped_unplaced alike _) rfl rfl _ _⟩
  | aborted replayed aborted =>
    obtain ⟨other, otherReplayed, alike⟩ := Journal.replay_congr rfl events replayed
    refine ⟨_, .aborted otherReplayed (aborts.symm.trans aborted), finish_alike alike ?_ rfl _ _⟩
    exact congrArg some layouts
  | encodingStopped replayed complete encoded =>
    obtain ⟨between, otherReplayed, alike⟩ := Journal.replay_congr rfl events replayed
    obtain ⟨other, otherEncoded, alike⟩ := Journal.replay_congr alike encoding encoded
    refine ⟨_, .encodingStopped otherReplayed (aborts.symm.trans complete) otherEncoded,
      finish_alike (stopped_unplaced alike _) ?_ rfl _ _⟩
    exact congrArg some layouts
  | encoded replayed complete encoded =>
    obtain ⟨between, otherReplayed, alike⟩ := Journal.replay_congr rfl events replayed
    obtain ⟨other, otherEncoded, alike⟩ := Journal.replay_congr alike encoding encoded
    refine ⟨_, .encoded otherReplayed (aborts.symm.trans complete) otherEncoded, finish_alike alike ?_ ?_ _ _⟩
    · exact congrArg some layouts
    · rw [Option.map_some, Option.map_some, ← encode_unplaced, encoders, records, encode_unplaced]

end

end Assembly

/-- The label, the opcode and the operand of a statement. -/
def Statement.fields (statement : Statement) : Option String × String × Option String :=
  (statement.label, statement.opcode, statement.operand)

theorem Statement.map_unplaced_of_fields {statements others : List Statement}
    (same : statements.map Statement.fields = others.map Statement.fields) :
    statements.map Statement.unplaced = others.map Statement.unplaced := by
  have fromFields (statements : List Statement) : statements.map Statement.unplaced =
      (statements.map Statement.fields).map fun (label, opcode, operand) =>
        { line := 0, text := "", label, opcode, operand } := by
    rw [List.map_map]
    rfl
  rw [fromFields, fromFields, same]

/-- A run depends on the fields of the statements only. -/
theorem assemble_alike {settings : Settings} {file otherFile source text tableText : String}
    (same : (Statement.parseAll settings (.ofText tableText) file source).map Statement.fields =
      (Statement.parseAll settings (.ofText tableText) otherFile text).map Statement.fields) :
    (assemble settings file source tableText).Alike (assemble settings otherFile text tableText) := by
  have read : OpcodeTable.ofText tableText = .ofLines (lines tableText) := rfl
  rw [read] at same
  rw [assemble, assemble, Assembly.run, Assembly.run]
  split
  next => exact .refl _
  next =>
    have ending := Assembly.assembleWith_ending settings (.ofLines (lines tableText)) file source
      { Assembly.newJournal settings with log := OpcodeTable.loadingEntries (lines tableText) }
    obtain ⟨other, otherEnding, alike⟩ := ending.alike settings _ (Statement.map_unplaced_of_fields same) file otherFile
    rw [otherEnding.eq]
    exact alike

namespace Statement

/-- The fields of the statement in a line. -/
def lineFields? (settings : Settings) (table : OpcodeTable) (line : String) :
    Option (Option String × String × Option String) :=
  (parse? settings table "" 0 line).map fields

variable {settings : Settings} {table : OpcodeTable}

theorem map_fields_parse? (file : String) (number : Int) (line : String) :
    (parse? settings table file number line).map fields = lineFields? settings table line := by
  unfold lineFields? parse?
  dsimp only
  split <;> rfl

theorem map_fields_parseAll (file source : String) :
    (parseAll settings table file source).map fields = (lines source).filterMap (lineFields? settings table) := by
  have numbered_lines (first : Nat) (items : List String) :
      ((numbered first items).filterMap fun entry => parse? settings table file entry.1 entry.2).map fields =
        items.filterMap (lineFields? settings table) := by
    induction items generalizing first with
    | nil => rfl
    | cons line rest ih =>
      rw [numbered, List.filterMap_cons, List.filterMap_cons, ← map_fields_parse? file first line, ← ih (first + 1)]
      dsimp only
      cases parse? settings table file first line <;> rfl
  exact numbered_lines 1 (lines source)

/-- A line that is blank or a comment has no fields. -/
theorem lineFields?_eq_none {source line : String} (isLine : line ∈ lines source)
    (idle : isCommentOrBlank settings.commentMarker line) : lineFields? settings table line = none := by
  have whole : trimEnd (fun c => c = '\r' ∨ c = '\n') line.toList = line.toList := by
    apply trimEnd_of_free
    intro c member
    have unbroken := mem_lines isLine c member
    rw [decide_eq_false_iff_not]
    rintro (rfl | rfl) <;> exact absurd unbroken (by decide)
  rw [lineFields?, parse?, whole, String.ofList_toList, if_pos idle]
  rfl

end Statement

/-- The lines of a source that are neither blank nor comments. -/
def statementLines (marker source : String) : List String :=
  (lines source).filter (!Statement.isCommentOrBlank marker ·)

theorem parseAll_fields_congr {settings : Settings} {table : OpcodeTable} {file otherFile source text : String}
    (same : statementLines settings.commentMarker source = statementLines settings.commentMarker text) :
    (Statement.parseAll settings table file source).map Statement.fields =
      (Statement.parseAll settings table otherFile text).map Statement.fields := by
  have fromLines (source : String) : (lines source).filterMap (Statement.lineFields? settings table) =
      (statementLines settings.commentMarker source).filterMap (Statement.lineFields? settings table) := by
    rw [statementLines, List.filterMap_filter]
    apply List.filterMap_congr
    intro line isLine
    cases idle : Statement.isCommentOrBlank settings.commentMarker line with
    | true => exact Statement.lineFields?_eq_none isLine idle
    | false => rfl
  rw [Statement.map_fields_parseAll, Statement.map_fields_parseAll, fromLines, fromLines, same]

/-- Blank and comment lines are put in front of a line of a source, or behind the last one. -/
inductive InsertsIdle (marker : String) : String → String → Prop
  | insert {front idle back : String} (atLine : EndsLine front) (whole : EndsLine idle)
      (isIdle : ∀ line ∈ lines idle, Statement.isCommentOrBlank marker line) :
      InsertsIdle marker (front ++ back) (front ++ idle ++ back)

theorem statementLines_append (marker : String) {front : String} (ended : EndsLine front) (back : String) :
    statementLines marker (front ++ back) = statementLines marker front ++ statementLines marker back := by
  have empty : Statement.isCommentOrBlank marker "" = true := rfl
  rcases lines_append ended back with joined | ⟨rest, blank, joined⟩
  · rw [statementLines, joined, List.filter_append]
    rfl
  -- The back begins with the line feed of a pair, which ends an empty line when it is read alone.
  · rw [statementLines, joined, List.filter_append, statementLines, statementLines, blank, List.filter_cons_of_neg]
    simp [empty]

theorem statementLines_insert {marker source longer : String} (inserts : InsertsIdle marker source longer) :
    statementLines marker longer = statementLines marker source := by
  cases inserts with
  | @insert front idle back atLine whole isIdle =>
    have nothing : statementLines marker idle = [] := by
      rw [statementLines, List.filter_eq_nil_iff]
      intro line isLine
      simp [isIdle line isLine]
    rw [String.append_assoc, statementLines_append marker atLine, statementLines_append marker whole, nothing,
      List.nil_append, statementLines_append marker atLine]

/-- What a run does not read of a source. -/
structure FieldsLaw (settings : Settings) (tableText : String) : Prop where
  /-- Two texts whose statements have the same fields come to the same. -/
  fields : ∀ file otherFile source text,
    (Statement.parseAll settings (.ofText tableText) file source).map Statement.fields =
        (Statement.parseAll settings (.ofText tableText) otherFile text).map Statement.fields →
      (assemble settings file source tableText).Alike (assemble settings otherFile text tableText)
  /-- So do two texts with the same lines that are neither blank nor comments. -/
  lines : ∀ file otherFile source text,
    statementLines settings.commentMarker source = statementLines settings.commentMarker text →
      (assemble settings file source tableText).Alike (assemble settings otherFile text tableText)
  /-- And so does a text with any number of blank and comment lines put in anywhere between its lines. -/
  insertion : ∀ file source longer, Relation.ReflTransGen (InsertsIdle settings.commentMarker) source longer →
    (assemble settings file source tableText).Alike (assemble settings file longer tableText)

theorem assemble_fieldsLaw (settings : Settings) (tableText : String) : FieldsLaw settings tableText := by
  refine ⟨fun _ _ _ _ => assemble_alike, fun _ _ _ _ same => assemble_alike (parseAll_fields_congr same), ?_⟩
  intro file source longer inserts
  apply assemble_alike
  apply parseAll_fields_congr
  induction inserts with
  | refl => rfl
  | tail _ insert ih => rw [ih, statementLines_insert insert]

theorem assemble_fieldsLaw_commented :
    (assemble {} "<input>" (" START 0\r" ++ "A LDA A\n END") "LDA 00\n").Alike
      (assemble {} "<input>" (" START 0\r" ++ "\n  . note\n\n" ++ "A LDA A\n END") "LDA 00\n") := by
  have inserts : InsertsIdle "." (" START 0\r" ++ "A LDA A\n END") (" START 0\r" ++ "\n  . note\n\n" ++ "A LDA A\n END") :=
    .insert (by decide +kernel) (by decide +kernel) (by decide +kernel)
  exact (assemble_fieldsLaw {} "LDA 00\n").insertion "<input>" _ _ (.single inserts)

end TwoPass
