import Mathlib.Data.List.Basic
import TwoPass.Journal

/-!
What a replay that reaches the end of its events leaves behind: every diagnostic among
them, in order, under the errors or the warnings (`replay_complete`). What is entered besides
the diagnostics is of no account for it (`replay_collector`).
-/
namespace TwoPass

@[simp] theorem diagnosticsOf_nil : diagnosticsOf [] = [] := rfl

@[simp] theorem diagnosticsOf_reported (diagnostic : Diagnostic) (events : List Event) :
    diagnosticsOf (.reported diagnostic :: events) = diagnostic :: diagnosticsOf events := rfl

@[simp] theorem diagnosticsOf_append (first second : List Event) :
    diagnosticsOf (first ++ second) = diagnosticsOf first ++ diagnosticsOf second :=
  List.filterMap_append

/-- An event with its diagnostic changed. -/
def Event.map (image : Diagnostic → Diagnostic) : Event → Event
  | .logged entry => .logged entry
  | .reported diagnostic => .reported (image diagnostic)

@[simp] theorem Event.map_debug (image : Diagnostic → Diagnostic) (message : String) :
    (Event.debug message).map image = Event.debug message := rfl

@[simp] theorem Event.map_reported (image : Diagnostic → Diagnostic) (diagnostic : Diagnostic) :
    (Event.reported diagnostic).map image = .reported (image diagnostic) := rfl

/-- The diagnostics of a category, in order. -/
def ofCategory (category : Category) (diagnostics : List Diagnostic) : List Diagnostic :=
  diagnostics.filter (·.category = category)

@[simp] theorem ofCategory_append (category : Category) (first second : List Diagnostic) :
    ofCategory category (first ++ second) = ofCategory category first ++ ofCategory category second :=
  List.filter_append first second

theorem ofCategory_filter (category : Category) (keep : Diagnostic → Bool) (diagnostics : List Diagnostic) :
    ofCategory category (diagnostics.filter keep) = (ofCategory category diagnostics).filter keep :=
  List.filter_comm _ keep diagnostics

/-- All diagnostics among events are of the given categories. -/
def ReportsOnly (categories : List Category) (events : List Event) : Prop :=
  ∀ diagnostic ∈ diagnosticsOf events, diagnostic.category ∈ categories

section
variable (categories : List Category)

@[simp] theorem reportsOnly_nil : ReportsOnly categories [] :=
  List.forall_mem_nil _

@[simp] theorem reportsOnly_debug (message : String) (events : List Event) :
    ReportsOnly categories (.debug message :: events) ↔ ReportsOnly categories events := Iff.rfl

@[simp] theorem reportsOnly_reported (diagnostic : Diagnostic) (events : List Event) :
    ReportsOnly categories (.reported diagnostic :: events) ↔
      diagnostic.category ∈ categories ∧ ReportsOnly categories events := by
  simp [ReportsOnly]

@[simp] theorem reportsOnly_append (first second : List Event) :
    ReportsOnly categories (first ++ second) ↔ ReportsOnly categories first ∧ ReportsOnly categories second := by
  simp only [ReportsOnly, diagnosticsOf_append, List.forall_mem_append]

end

theorem ReportsOnly.mono {categories others : List Category} {events : List Event}
    (reports : ReportsOnly categories events) (listed : categories ⊆ others) : ReportsOnly others events :=
  fun diagnostic member => listed (reports diagnostic member)

/-- Errors and warnings together are all diagnostics. -/
theorem errors_append_warnings_perm (diagnostics : List Diagnostic) :
    (diagnostics.filter (!·.isWarning) ++ diagnostics.filter (·.isWarning)).Perm diagnostics :=
  List.perm_append_comm.trans (List.filter_append_perm (·.isWarning) diagnostics)

/-- A diagnostic goes to the end of the errors, or of the warnings. -/
theorem Collector.add_eq (collector : Collector) (diagnostic : Diagnostic) :
    collector.add diagnostic =
      { collector with
        errors := collector.errors ++ [diagnostic].filter (!·.isWarning)
        warnings := collector.warnings ++ [diagnostic].filter (·.isWarning) } := by
  cases warned : diagnostic.isWarning <;> simp [Collector.add, warned]

theorem Journal.replay_of_not_stopped {journal : Journal} {events : List Event}
    (goesOn : (journal.replay events).2 = none) : journal.replay events = ((journal.replay events).1, none) :=
  Prod.ext rfl goesOn

/-- A replay enters the diagnostics in order, all of them if it is not stopped, and changes nothing
    else in the collector. -/
theorem Journal.replay_entered {journal after : Journal} {events : List Event} {stop? : Option Diagnostic}
    (replayed : journal.replay events = (after, stop?)) :
    ∃ entered, entered <+: diagnosticsOf events ∧ (stop? = none → entered = diagnosticsOf events) ∧
      after.collector =
        { journal.collector with
          errors := journal.collector.errors ++ entered.filter (!·.isWarning)
          warnings := journal.collector.warnings ++ entered.filter (·.isWarning) } := by
  induction events generalizing journal with
  | nil =>
    obtain ⟨rfl, rfl⟩ := Prod.mk.inj replayed
    exact ⟨[], List.prefix_refl _, fun _ => rfl, by simp⟩
  | cons event rest ih =>
    cases event with
    | logged entry =>
      rw [Journal.replay] at replayed
      have later := ih replayed
      exact later
    | reported diagnostic =>
      rw [diagnosticsOf_reported]
      simp only [Journal.replay, Journal.submit] at replayed
      cases stops : journal.collector.stop? diagnostic with
      | some stop =>
        rw [stops] at replayed
        obtain ⟨rfl, rfl⟩ := Prod.mk.inj replayed
        exact ⟨[diagnostic], ⟨_, rfl⟩, nofun, Collector.add_eq journal.collector diagnostic⟩
      | none =>
        rw [stops] at replayed
        obtain ⟨entered, isPrefix, whole, collected⟩ := ih replayed
        refine ⟨diagnostic :: entered, (List.prefix_cons_inj diagnostic).mpr isPrefix, fun goesOn => ?_, ?_⟩
        · rw [whole goesOn]
        · rw [collected, Collector.add_eq]
          simp only [List.append_assoc, ← List.filter_append, List.singleton_append]

/-- A replay that is not stopped enters every diagnostic, and changes nothing else in the
    collector. -/
theorem Journal.replay_complete {journal after : Journal} {events : List Event}
    (complete : journal.replay events = (after, none)) :
    after.collector =
      { journal.collector with
        errors := journal.collector.errors ++ (diagnosticsOf events).filter (!·.isWarning)
        warnings := journal.collector.warnings ++ (diagnosticsOf events).filter (·.isWarning) } := by
  obtain ⟨entered, -, whole, collected⟩ := Journal.replay_entered complete
  rw [collected, whole rfl]

/-- The log has no part in where a replay stops and in what is reported until then. -/
theorem Journal.replay_collector {first second after : Journal} {events : List Event} {stop? : Option Diagnostic}
    (replayed : first.replay events = (after, stop?)) (same : first.collector = second.collector) :
    ∃ other, second.replay events = (other, stop?) ∧ after.collector = other.collector := by
  induction events generalizing first second with
  | nil =>
    obtain ⟨rfl, rfl⟩ := Prod.mk.inj replayed
    exact ⟨second, rfl, same⟩
  | cons event rest ih =>
    cases event with
    | logged entry =>
      rw [Journal.replay] at replayed ⊢
      exact ih replayed same
    | reported diagnostic =>
      simp only [Journal.replay, Journal.submit, ← same] at replayed ⊢
      cases stops : first.collector.stop? diagnostic with
      | some stop =>
        rw [stops] at replayed
        obtain ⟨rfl, rfl⟩ := Prod.mk.inj replayed
        exact ⟨_, rfl, rfl⟩
      | none =>
        rw [stops] at replayed
        exact ih replayed rfl

/-- A replay that is stopped has entered as many errors as are allowed. -/
theorem Journal.limit_le_of_stopped {journal after : Journal} {events : List Event} {stop : Diagnostic}
    (stopped : journal.replay events = (after, some stop)) :
    journal.collector.limit ≤ after.collector.errors.length := by
  induction events generalizing journal with
  | nil => simp [Journal.replay] at stopped
  | cons event rest ih =>
    cases event with
    | logged entry =>
      rw [Journal.replay] at stopped
      have bound := ih stopped
      exact bound
    | reported diagnostic =>
      simp only [Journal.replay, Journal.submit] at stopped
      split at stopped
      next entered stop submitted =>
        obtain ⟨rfl, -⟩ := Prod.mk.inj stopped
        obtain ⟨rfl, reached⟩ := Prod.mk.inj submitted
        simp only [Collector.stop?, Option.ite_none_left_eq_some, Option.ite_none_right_eq_some] at reached
        obtain ⟨isError, reached, -⟩ := reached
        simpa [Collector.add, isError] using reached
      next entered submitted =>
        obtain ⟨rfl, -⟩ := Prod.mk.inj submitted
        have kept : (journal.collector.add diagnostic).limit = journal.collector.limit := by rw [Collector.add_eq]
        exact kept ▸ ih stopped

/-- A replay goes through exactly if there is no error among the events, or all of them leave room
    for another. -/
theorem Journal.replay_goesOn_iff (journal : Journal) (events : List Event) :
    (journal.replay events).2 = none ↔ (diagnosticsOf events).filter (!·.isWarning) = [] ∨
      (journal.collector.errors.length + ((diagnosticsOf events).filter (!·.isWarning)).length : Int) <
        journal.collector.limit := by
  induction events generalizing journal with
  | nil => simp [Journal.replay]
  | cons event rest ih =>
    cases event with
    | logged entry =>
      rw [Journal.replay]
      exact ih _
    | reported diagnostic =>
      have later := ih { journal with collector := journal.collector.add diagnostic }
      rw [Collector.add_eq] at later
      simp only [Journal.replay, Journal.submit, diagnosticsOf_reported, List.filter_cons, Collector.add_eq]
      cases warned : diagnostic.isWarning with
      | true =>
        have goesOn : journal.collector.stop? diagnostic = none := by simp [Collector.stop?, warned]
        simpa [goesOn, warned] using later
      | false =>
        by_cases reached : journal.collector.limit ≤ journal.collector.errors.length + 1
        · have stops : journal.collector.stop? diagnostic = some journal.collector.limitReached := by
            simp [Collector.stop?, warned, reached]
          simp only [stops, Bool.not_false, if_true, List.length_cons, reduceCtorEq, false_or, false_iff]
          omega
        · have goesOn : journal.collector.stop? diagnostic = none := by simp [Collector.stop?, warned, reached]
          simp only [List.filter_cons, warned, Bool.not_false, if_true, List.filter_nil, List.length_append,
            List.length_singleton] at later ⊢
          simp only [goesOn, later, ← List.length_eq_zero_iff, List.length_cons]
          omega

/-- Warnings have no part in it, and fewer errors before leave more room. -/
theorem Journal.replay_goesOn_of_le {first second : Journal} {events others : List Event}
    (goesOn : (first.replay events).2 = none)
    (same : (diagnosticsOf others).filter (!·.isWarning) = (diagnosticsOf events).filter (!·.isWarning))
    (limit : second.collector.limit = first.collector.limit)
    (fewer : second.collector.errors.length ≤ first.collector.errors.length) : (second.replay others).2 = none := by
  rw [Journal.replay_goesOn_iff] at goesOn ⊢
  rw [same, limit]
  rcases goesOn with clean | room
  · exact .inl clean
  · exact .inr (by omega)

end TwoPass
