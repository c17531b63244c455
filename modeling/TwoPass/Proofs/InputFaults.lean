import TwoPass.Proofs.Runs

/-!
Faults of the input: a table or a source that cannot be read, and a table without entries. Each of
them ends a run before anything is laid out (`emptyFault?`, `fileFault?`), and nothing else keeps a run
from its result. What is reported then is printed as well (`text_infix_report`). Only where a single
error ends a run, the fault leaves no result: the limit is not caught there (`InputLaw`).
-/
namespace TwoPass

open Text

theorem infix_joinLines {text : String} {texts : List String} (member : text ∈ texts) :
    text.toList <:+: (joinLines texts).toList := by
  induction texts with
  | nil => contradiction
  | cons first rest ih =>
    cases rest with
    | nil =>
      obtain rfl := List.mem_singleton.mp member
      simp [joinLines]
    | cons second others =>
      have later : joinLines (first :: second :: others) = first ++ "\n" ++ joinLines (second :: others) :=
        String.intercalate_cons_cons
      rw [later, String.toList_append, String.toList_append]
      rcases List.mem_cons.mp member with rfl | behind
      · rw [List.append_assoc]
        exact (List.prefix_append _ _).isInfix
      · exact (ih behind).trans (List.suffix_append _ _).isInfix

/-- The text of every error stands in the report. -/
theorem Collector.text_infix_report {collector : Collector} {error : Diagnostic} (member : error ∈ collector.errors) :
    error.text.toList <:+: collector.report.toList := by
  apply infix_joinLines
  apply List.mem_append_left
  apply List.mem_append_left
  exact List.mem_flatMap.mpr ⟨error, member, List.mem_cons_self⟩

namespace Assembly

/-- Everything that was reported as an error is printed. -/
def PrintsErrors (assembly : Assembly) : Prop :=
  ∀ error ∈ assembly.collector.errors, error.text.toList <:+: assembly.printout.diagnostics.toList

/-- Ending a run gives a result that prints its errors. -/
theorem finish_returns (journal : Journal) (stage : Stage) (table : OpcodeTable) (layout? : Option Layout)
    (encoding? : Option Encoding) :
    ∃ assembly, (finish journal stage table layout? encoding?).result = .ok assembly ∧
      assembly.collector = journal.collector ∧ assembly.PrintsErrors := by
  refine ⟨_, rfl, rfl, ?_⟩
  intro error member
  cases layout? with
  | none => exact Collector.text_infix_report member
  | some layout =>
    have reported : journal.collector.diagnosticsText = journal.collector.report := by
      rw [Collector.diagnosticsText, List.isEmpty_eq_false_iff.mpr (List.ne_nil_of_mem member)]
      rfl
    change error.text.toList <:+: journal.collector.diagnosticsText.toList
    rw [reported]
    exact Collector.text_infix_report member

theorem assembleWith_returns (settings : Settings) (table : OpcodeTable) (file source : String) (journal : Journal) :
    ∃ assembly, (assembleWith settings table file source journal).result = .ok assembly ∧ assembly.PrintsErrors := by
  have ending := assembleWith_ending settings table file source journal
  generalize assembleWith settings table file source journal = outcome at ending
  cases ending <;>
  · obtain ⟨assembly, returned, -, printed⟩ := finish_returns _ _ _ _ _
    exact ⟨assembly, returned, printed⟩

end Assembly

/-- The fault of a table without entries. -/
def emptyFault? (table : OpcodeTable) : Option Interruption :=
  if table.size = 0 then some (.diagnosed { cause := .emptyTable }) else none

/-- What keeps a run over files from laying out a program: the table is read first, then the source,
    and only then it counts whether the table has entries. -/
def fileFault? (tree : FileTree) (sourcePath tablePath : String) : Option Interruption :=
  match InputFile.readTable tree tablePath with
  | .error interruption => some interruption
  | .ok table =>
    match InputFile.readSource tree sourcePath with
    | .error interruption => some interruption
    | .ok _ => emptyFault? table

/-- How a run ends, given what keeps it from laying out a program. -/
structure InputLaw (limit : Nat) (fault? : Option Interruption) (outcome : Outcome) : Prop where
  /-- If nothing does, it gives a result. -/
  returned : fault? = none → ∃ assembly, outcome.result = .ok assembly
  /-- So it does for a fault of the input, which is then the only error, -/
  reported : ∀ fault, fault? = some (.diagnosed fault) → 1 < limit →
    ∃ assembly, outcome.result = .ok assembly ∧ assembly.collector.errors = [fault]
  /-- unless one error is enough to end a run. -/
  escaped : ∀ fault, fault? = some (.diagnosed fault) → limit = 1 →
    outcome.result = .error (.diagnosed { cause := .errorLimit 1 })
  /-- A path that can name no file is no fault that could be reported. -/
  invalid : fault? = some .invalidPath → outcome.result = .error .invalidPath
  /-- Whatever is reported is printed. -/
  printed : ∀ assembly, outcome.result = .ok assembly → assembly.PrintsErrors

namespace Assembly

variable {settings : Settings} {journal : Journal}

/-- A fault that is entered first ends a run, with a result if it is not the last error allowed. -/
theorem fail_inputLaw (fresh : journal.collector = (newJournal settings).collector) {fault : Diagnostic}
    (isError : fault.isWarning = false) (stage : Stage) (table : OpcodeTable) :
    InputLaw settings.errorLimit (some (.diagnosed fault)) (fail journal fault stage table) := by
  have entered : journal.collector.add fault = { (newJournal settings).collector with errors := [fault] } := by
    rw [fresh]
    simp [Collector.add, isError, newJournal]
  have stops : journal.collector.stop? fault =
      if settings.errorLimit = 1 then some { cause := .errorLimit 1 } else none := by
    have positive := settings.errorLimit_pos
    rw [fresh]
    by_cases single : settings.errorLimit = 1
    · simp [Collector.stop?, isError, newJournal, single, Collector.limitReached]
    · have room : ¬ (settings.errorLimit : Int) ≤ 0 + 1 := by omega
      simpa [Collector.stop?, isError, newJournal, single] using room
  by_cases single : settings.errorLimit = 1
  · have outcome : (fail journal fault stage table).result = .error (.diagnosed { cause := .errorLimit 1 }) := by
      simp only [fail, Journal.submit, stops, single, if_true, escape]
    refine ⟨by simp, ?_, fun _ _ _ => outcome, by simp, ?_⟩
    · intro _ _ several
      omega
    · intro assembly returned
      rw [outcome] at returned
      contradiction
  · have outcome : fail journal fault stage table =
        finish { journal with collector := journal.collector.add fault } stage table := by
      simp only [fail, Journal.submit, stops, single, if_false]
    obtain ⟨assembly, returned, collected, printed⟩ :=
      finish_returns { journal with collector := journal.collector.add fault } stage table none none
    rw [← outcome] at returned
    refine ⟨by simp, ?_, fun _ _ isSingle => absurd isSingle single, by simp, ?_⟩
    · rintro _ ⟨⟩ _
      exact ⟨assembly, returned, by rw [collected, entered]⟩
    · intro other otherReturned
      obtain rfl := Except.ok.inj (returned.symm.trans otherReturned)
      exact printed

theorem run_inputLaw (fresh : journal.collector = (newJournal settings).collector) (table : OpcodeTable)
    (file source : String) :
    InputLaw settings.errorLimit (emptyFault? table) (run settings table file source journal) := by
  unfold run emptyFault?
  split
  · exact fail_inputLaw fresh rfl .idle {}
  · obtain ⟨assembly, returned, printed⟩ := assembleWith_returns settings table file source journal
    refine ⟨fun _ => ⟨assembly, returned⟩, by simp, by simp, by simp, ?_⟩
    intro other otherReturned
    obtain rfl := Except.ok.inj (returned.symm.trans otherReturned)
    exact printed

end Assembly

theorem inputLaw_of_invalid {limit : Nat} {outcome : Outcome} (invalid : outcome.result = .error .invalidPath) :
    InputLaw limit (some .invalidPath) outcome :=
  ⟨by simp, by simp, by simp, fun _ => invalid, by simp [invalid]⟩

namespace InputFile

/-- That a file cannot be read is an error. -/
theorem readText_diagnosed {reason : FileFault → String} {tree : FileTree} {path : String} {fault : Diagnostic}
    (unread : readText reason tree path = .error (.diagnosed fault)) : fault.isWarning = false := by
  unfold readText at unread
  generalize tree.read (Path.normalize path) = found at unread
  cases found with
  | error fileFault => cases fileFault <;> cases unread <;> rfl
  | ok content =>
    dsimp only at unread
    cases decoded : decode? content with
    | some text =>
      rw [decoded] at unread
      contradiction
    | none =>
      rw [decoded] at unread
      cases unread
      rfl

theorem readTable_diagnosed {tree : FileTree} {path : String} {fault : Diagnostic}
    (unread : readTable tree path = .error (.diagnosed fault)) : fault.isWarning = false := by
  unfold readTable at unread
  cases read : readText tableReason tree path with
  | ok text =>
    rw [read] at unread
    contradiction
  | error interruption =>
    rw [read] at unread
    cases unread
    exact readText_diagnosed read

end InputFile

theorem Journal.replay_logged (journal : Journal) (entries : List LogEntry) (events : List Event) :
    journal.replay (entries.map .logged ++ events) = { journal with log := journal.log ++ entries }.replay events := by
  induction entries generalizing journal with
  | nil => simp
  | cons entry rest ih =>
    rw [List.map_cons, List.cons_append, Journal.replay, ih]
    simp [Journal.record]

theorem Journal.replay_single (journal : Journal) (diagnostic : Diagnostic) :
    journal.replay [.reported diagnostic] = journal.submit diagnostic := by
  rw [Journal.replay]
  cases entered : journal.submit diagnostic with
  | mk after stop? => cases stop? <;> rfl

section
variable {tree : FileTree} {tablePath : String}

/-- Loading a table that can be read reports nothing. -/
theorem replay_loadingEvents_read (journal : Journal) {table : OpcodeTable}
    (read : InputFile.readTable tree tablePath = .ok table) :
    ∃ logged : Journal, logged.collector = journal.collector ∧
      journal.replay (InputFile.loadingEvents tree tablePath) = (logged, none) := by
  refine ⟨{ journal with log := journal.log ++ InputFile.tableLog tree tablePath }, rfl, ?_⟩
  unfold InputFile.loadingEvents
  rw [read, Journal.replay_logged]
  rfl

/-- Loading a table that cannot be read reports this and nothing else. -/
theorem replay_loadingEvents_unread (journal : Journal) {fault : Diagnostic}
    (unread : InputFile.readTable tree tablePath = .error (.diagnosed fault)) :
    ∃ logged : Journal, logged.collector = journal.collector ∧
      journal.replay (InputFile.loadingEvents tree tablePath) = logged.submit fault := by
  let logged : Journal := { journal with log := journal.log ++ InputFile.tableLog tree tablePath }
  refine ⟨logged.record ⟨.debug, "Failed to load OPTAB: " ++ fault.text⟩, rfl, ?_⟩
  unfold InputFile.loadingEvents
  rw [unread, Journal.replay_logged]
  exact Journal.replay_single _ fault

/-- A table that cannot be read is a fault like any other. -/
theorem assembleFile_of_table_unread (settings : Settings) {fault : Diagnostic}
    (unread : InputFile.readTable tree tablePath = .error (.diagnosed fault)) (sourcePath : String) :
    ∃ journal : Journal, journal.collector = (Assembly.newJournal settings).collector ∧
      assembleFile settings tree sourcePath tablePath = Assembly.fail journal fault .idle {} := by
  have loaded : InputFile.loadTable tree tablePath = .ok {} := by
    unfold InputFile.loadTable
    rw [unread]
  obtain ⟨logged, fresh, replayed⟩ := replay_loadingEvents_unread ((Assembly.newJournal settings).record
    ⟨.info, "Assembling " ++ sourcePath ++ " with opcode table " ++ tablePath⟩) unread
  refine ⟨logged, fresh, ?_⟩
  have failed : (logged.collector.add fault).hasErrors = true := by
    simp [Collector.add, InputFile.readTable_diagnosed unread, Collector.hasErrors]
  unfold assembleFile Assembly.fail
  dsimp only
  rw [replayed, loaded]
  cases entered : logged.submit fault with
  | mk after stop? =>
    obtain ⟨rfl, -⟩ := Prod.mk.inj entered
    cases stop? with
    | some stop => rfl
    | none =>
      dsimp only
      rw [if_pos failed]

theorem assembleFile_of_table_invalid (settings : Settings)
    (invalid : InputFile.readTable tree tablePath = .error .invalidPath) (sourcePath : String) :
    (assembleFile settings tree sourcePath tablePath).result = .error .invalidPath := by
  have loaded : InputFile.loadTable tree tablePath = .error .invalidPath := by
    unfold InputFile.loadTable
    rw [invalid]
  have replayed (journal : Journal) : journal.replay (InputFile.loadingEvents tree tablePath) =
      ({ journal with log := journal.log ++ InputFile.tableLog tree tablePath }, none) := by
    unfold InputFile.loadingEvents
    rw [invalid, Journal.replay_logged]
    rfl
  unfold assembleFile
  dsimp only
  rw [replayed, loaded]
  rfl

/-- How a run over files goes on once its table is read. -/
def Assembly.continueWith (settings : Settings) (table : OpcodeTable) (path : String) (journal : Journal) :
    Except Interruption String → Outcome
  | .ok source => run settings table path source journal
  | .error .invalidPath => escape journal .invalidPath
  | .error (.diagnosed fault) =>
    fail (journal.record ⟨.debug, "Failed to read source: " ++ fault.text⟩) fault
      (if table.size = 0 then .idle else .tableLoaded) table

theorem assembleFile_of_table_read (settings : Settings) {table : OpcodeTable}
    (read : InputFile.readTable tree tablePath = .ok table) (sourcePath : String) :
    ∃ journal : Journal, journal.collector = (Assembly.newJournal settings).collector ∧
      assembleFile settings tree sourcePath tablePath =
        Assembly.continueWith settings table sourcePath journal (InputFile.readSource tree sourcePath) := by
  have loaded : InputFile.loadTable tree tablePath = .ok table := by
    unfold InputFile.loadTable
    rw [read]
  obtain ⟨logged, fresh, replayed⟩ := replay_loadingEvents_read ((Assembly.newJournal settings).record
    ⟨.info, "Assembling " ++ sourcePath ++ " with opcode table " ++ tablePath⟩) read
  have errorless : logged.collector.hasErrors = false := by
    rw [fresh]
    rfl
  refine ⟨logged, fresh, ?_⟩
  unfold assembleFile
  dsimp only
  rw [replayed, loaded]
  dsimp only
  rw [errorless, if_neg (by decide)]
  cases InputFile.readSource tree sourcePath with
  | ok source => rfl
  | error interruption => cases interruption <;> rfl

end

/-- Whether a run over texts or over files gives a result, and what it reports, follows from its
    input and the limit: only a fault that is at once the last error allowed leaves no result. -/
theorem runs_inputLaw (settings : Settings) :
    (∀ file source tableText,
      InputLaw settings.errorLimit (emptyFault? (.ofText tableText)) (assemble settings file source tableText)) ∧
    ∀ tree sourcePath tablePath,
      InputLaw settings.errorLimit (fileFault? tree sourcePath tablePath)
        (assembleFile settings tree sourcePath tablePath) := by
  constructor
  · intro file source tableText
    rw [assemble]
    exact Assembly.run_inputLaw (by rfl) (.ofLines (lines tableText)) file source
  · intro tree sourcePath tablePath
    unfold fileFault?
    cases table : InputFile.readTable tree tablePath with
    | error interruption =>
      cases interruption with
      | diagnosed fault =>
        obtain ⟨journal, fresh, outcome⟩ := assembleFile_of_table_unread settings table sourcePath
        rw [outcome]
        exact Assembly.fail_inputLaw fresh (InputFile.readTable_diagnosed table) .idle {}
      | invalidPath => exact inputLaw_of_invalid (assembleFile_of_table_invalid settings table sourcePath)
    | ok entries =>
      obtain ⟨journal, fresh, outcome⟩ := assembleFile_of_table_read settings table sourcePath
      rw [outcome]
      cases read : InputFile.readSource tree sourcePath with
      | ok source => exact Assembly.run_inputLaw fresh entries sourcePath source
      | error interruption =>
        cases interruption with
        | invalidPath => exact inputLaw_of_invalid rfl
        | diagnosed fault =>
          refine Assembly.fail_inputLaw ?_ (InputFile.readText_diagnosed read) _ entries
          exact fresh

/-- Where a single error ends a run, an empty table and a table that is not there leave no result. -/
theorem single_error_escapes :
    (assemble { errorLimit := 1 } "<input>" " END\n" "").result = .error (.diagnosed { cause := .errorLimit 1 }) ∧
    (assembleFile { errorLimit := 1 } {} "prog.asm" "optab.txt").result =
      .error (.diagnosed { cause := .errorLimit 1 }) := by
  constructor
  · rfl
  · have unread : InputFile.readTable {} "optab.txt" =
        .error (.diagnosed (InputFile.unreadable "optab.txt" "file not found")) := by decide +kernel
    obtain ⟨journal, fresh, outcome⟩ := assembleFile_of_table_unread { errorLimit := 1 } unread "prog.asm"
    rw [outcome]
    exact (Assembly.fail_inputLaw fresh rfl .idle {}).escaped _ rfl rfl

end TwoPass
