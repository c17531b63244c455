import TwoPass.Proofs.Listing
import TwoPass.Proofs.Reports

/-!
Places: the lines, columns and texts that travel with statements, records, symbols and diagnostics
are for the reader of a report only. `unplaced` forgets them, and whatever is done to things that
are equal without their places comes to results that are equal without their places: laying out
(`layOut_congr`, `layoutEvents_congr`), encoding (`encode_unplaced`, `encodingEvents_unplaced`) and
the count of errors that may end a run (`Journal.replay_congr`).
-/
namespace TwoPass

open Text

/-- A cause without what it tells of the source. -/
def Cause.unplaced : Cause → Cause
  | .duplicateSymbol symbol _ => .duplicateSymbol symbol none
  | .afterEnd _ => .afterEnd ""
  | cause => cause

namespace Diagnostic

def unplaced (diagnostic : Diagnostic) : Diagnostic :=
  { cause := diagnostic.cause.unplaced, severity := diagnostic.severity }

theorem isWarning_unplaced (diagnostic : Diagnostic) : diagnostic.unplaced.isWarning = diagnostic.isWarning := rfl

theorem category_unplaced (diagnostic : Diagnostic) : diagnostic.unplaced.category = diagnostic.category := by
  obtain ⟨cause, _, _, _⟩ := diagnostic
  cases cause <;> rfl

end Diagnostic

def Event.unplaced : Event → Event :=
  Event.map Diagnostic.unplaced

theorem Event.unplaced_reported (diagnostic : Diagnostic) :
    (Event.reported diagnostic).unplaced = .reported diagnostic.unplaced := rfl

/-- A record without its place in the source. -/
def Record.bare (record : Record) : Record :=
  { record with line := 0, sourceLine := none }

/-- A statement of which only the fields are left. -/
def Statement.unplaced (statement : Statement) : Statement :=
  { line := 0, text := "", label := statement.label, opcode := statement.opcode, operand := statement.operand }

def Symbol.unplaced (symbol : Symbol) : Symbol :=
  { address := symbol.address }

namespace SymbolTable

def unplaced (table : SymbolTable) : SymbolTable :=
  ⟨table.symbols.map Symbol.unplaced⟩

variable (table : SymbolTable)

@[simp] theorem address?_unplaced : table.unplaced.address? = table.address? := by
  funext name
  rw [address?, address?, unplaced, Dictionary.get?_map, Option.map_map]
  rfl

@[simp] theorem names_unplaced : table.unplaced.names = table.names :=
  Dictionary.keys_map Symbol.unplaced table.symbols

@[simp] theorem size_unplaced : table.unplaced.size = table.size := by
  rw [size_eq_length_names, size_eq_length_names, names_unplaced]

@[simp] theorem addresses_unplaced : table.unplaced.addresses = table.addresses := by
  simp only [addresses, unplaced, Dictionary.map, List.map_map]
  rfl

theorem isSome_definition?_unplaced (name : String) :
    (table.unplaced.definition? name).isSome = (table.definition? name).isSome := by
  rw [Bool.eq_iff_iff, definition?_isSome_iff, definition?_isSome_iff, names_unplaced]

theorem unplaced_unplaced : table.unplaced.unplaced = table.unplaced := by
  simp only [unplaced, Dictionary.map, List.map_map]
  rfl

theorem unplaced_define (name : String) (address : Int) (location other : Option Location) :
    (table.define name address location).unplaced = (table.unplaced.define name address other).unplaced := by
  have again := table.unplaced_unplaced
  simp only [unplaced, mk.injEq] at again
  simp only [unplaced, define, Dictionary.map_insert, again]
  rfl

end SymbolTable

namespace Layout

def Progress.unplaced (progress : Progress) : Progress :=
  { progress with symbols := progress.symbols.unplaced }

def Step.unplaced (step : Step) : Step :=
  { record := step.record.map Record.bare
    events := step.events.map Event.unplaced
    after := step.after.unplaced
    fault := step.fault.map Diagnostic.unplaced }

theorem Step.unplaced_eq {first second : Step} (record : first.record.map Record.bare = second.record.map Record.bare)
    (events : first.events.map Event.unplaced = second.events.map Event.unplaced)
    (after : first.after.unplaced = second.after.unplaced)
    (fault : first.fault.map Diagnostic.unplaced = second.fault.map Diagnostic.unplaced) :
    first.unplaced = second.unplaced := by
  simp only [Step.unplaced, record, events, after, fault]

section
variable (settings : Settings) (table : OpcodeTable) (progress : Progress) (statement : Statement)

theorem Progress.unplaced_unplaced : progress.unplaced.unplaced = progress.unplaced := by
  simp only [Progress.unplaced, SymbolTable.unplaced_unplaced]

theorem remarks_unplaced :
    (remarks progress.unplaced statement.unplaced).map Event.unplaced =
      (remarks progress statement).map Event.unplaced := by
  simp only [remarks, List.map_append, apply_ite (List.map Event.unplaced)]
  rfl

theorem placeStart_unplaced :
    (placeStart progress.unplaced statement.unplaced).unplaced = (placeStart progress statement).unplaced := by
  have operand : statement.unplaced.operand = statement.operand := rfl
  unfold placeStart
  rw [operand]
  cases Operand.startAddress statement.operand with
  | ok address =>
    apply Step.unplaced_eq
    · rfl
    · simp only [List.map_append, apply_ite (List.map Event.unplaced)]
      rfl
    · simp only [Progress.unplaced, SymbolTable.unplaced_unplaced]
      rfl
    · rfl
  | error fault =>
    apply Step.unplaced_eq
    · rfl
    · simp only [apply_ite (List.map Event.unplaced)]
      rfl
    · exact progress.unplaced_unplaced
    · rfl

theorem placeEnd_unplaced :
    (placeEnd progress.unplaced statement.unplaced).unplaced = (placeEnd progress statement).unplaced := by
  refine Step.unplaced_eq rfl rfl ?_ rfl
  simp only [placeEnd, Progress.unplaced, SymbolTable.unplaced_unplaced]

theorem definitionEvents_unplaced :
    (definitionEvents settings progress.unplaced statement.unplaced).map Event.unplaced =
      (definitionEvents settings progress statement).map Event.unplaced := by
  have sameLabel : label? statement.unplaced = label? statement := rfl
  unfold definitionEvents
  rw [sameLabel]
  cases label? statement with
  | none => rfl
  | some label =>
    have same : (progress.unplaced.symbols.definition? label).isSome = _ :=
      progress.symbols.isSome_definition?_unplaced label
    dsimp only
    -- A further definition tells where the earlier one stands, and that is forgotten.
    cases there : progress.unplaced.symbols.definition? label <;> cases here : progress.symbols.definition? label
    · rfl
    · rw [there, here] at same
      contradiction
    · rw [there, here] at same
      contradiction
    · rfl

theorem definedSymbols_unplaced :
    (definedSymbols progress.unplaced statement.unplaced).unplaced = (definedSymbols progress statement).unplaced := by
  have sameLabel : label? statement.unplaced = label? statement := rfl
  unfold definedSymbols
  rw [sameLabel]
  cases label? statement with
  | none => exact progress.symbols.unplaced_unplaced
  | some label => exact (progress.symbols.unplaced_define _ _ _ _).symm

theorem Progress.recorded_unplaced :
    (progress.unplaced.recorded statement.unplaced).unplaced = (progress.recorded statement).unplaced := by
  have symbols := definedSymbols_unplaced progress statement
  simp only [Progress.unplaced] at symbols
  simp only [Progress.unplaced, Progress.recorded, symbols]

theorem placeOther_unplaced :
    (placeOther settings table progress.unplaced statement.unplaced).unplaced =
      (placeOther settings table progress statement).unplaced := by
  have counter : progress.unplaced.counter = progress.counter := rfl
  have opcode : statement.unplaced.opcode = statement.opcode := rfl
  have operand : statement.unplaced.operand = statement.operand := rfl
  have defined := definitionEvents_unplaced settings progress statement
  have recorded := Progress.recorded_unplaced progress statement
  unfold placeOther
  rw [counter, opcode, operand]
  by_cases beyond : maxAddress < progress.counter
  · simp only [beyond, if_true]
    exact Step.unplaced_eq rfl rfl progress.unplaced_unplaced rfl
  · simp only [beyond, if_false]
    cases statementSize table statement.opcode statement.operand with
    | error fault => exact Step.unplaced_eq rfl defined recorded rfl
    | ok size? =>
      cases size? with
      | none =>
        refine Step.unplaced_eq rfl ?_ recorded rfl
        simp only [List.map_append, defined]
        rfl
      | some size =>
        refine Step.unplaced_eq rfl defined ?_ ?_
        · exact congrArg (fun after : Progress => { after with counter := progress.counter + size }) recorded
        · simp only [apply_ite (Option.map Diagnostic.unplaced)]
          rfl

theorem place_unplaced :
    (place settings table progress.unplaced statement.unplaced).unplaced =
      (place settings table progress statement).unplaced := by
  have sameOpcode : statement.unplaced.opcode = statement.opcode := rfl
  have remarked {first second : Step} (same : first.unplaced = second.unplaced) :
      Step.unplaced { first with events := remarks progress.unplaced statement.unplaced ++ first.events } =
        Step.unplaced { second with events := remarks progress statement ++ second.events } := by
    simp only [Step.unplaced, Step.mk.injEq] at same
    obtain ⟨record, events, after, fault⟩ := same
    refine Step.unplaced_eq record ?_ after fault
    simp only [List.map_append, remarks_unplaced, events]
  rcases opcode_cases statement.opcode with isStart | isEnd | plain
  · rw [place_start isStart, place_start (sameOpcode.trans isStart)]
    exact remarked (placeStart_unplaced progress statement)
  · rw [place_end isEnd, place_end (sameOpcode.trans isEnd)]
    exact remarked (placeEnd_unplaced progress statement)
  · rw [place_plain plain, place_plain (sameOpcode ▸ plain)]
    exact remarked (placeOther_unplaced settings table progress statement)

end

section
variable (settings : Settings) (table : OpcodeTable)

/-- Laying out a statement does not read places. -/
theorem place_congr {first second : Progress} {statement other : Statement} (progresses : first.unplaced = second.unplaced)
    (statements : statement.unplaced = other.unplaced) :
    (place settings table first statement).unplaced = (place settings table second other).unplaced := by
  rw [← place_unplaced, progresses, statements, place_unplaced]

/-- The message of what keeps a statement from being laid out tells nothing of its place. -/
theorem Placement.message_unplaced {table : OpcodeTable} {progress after : Progress} {statement : Statement} {record? : Option Record}
    {fault : Diagnostic} (placed : Placement table progress statement record? after (some fault)) :
    fault.unplaced.message = fault.message := by
  cases placed <;> rfl

def Run.unplaced (run : Run) : Run :=
  { records := run.records.map Record.bare
    events := run.events.map Event.unplaced
    after := run.after.unplaced
    aborted := run.aborted }

/-- Laying out statements does not read places. -/
theorem run_congr {first second : Progress} {statements others : List Statement}
    (progresses : first.unplaced = second.unplaced)
    (same : statements.map Statement.unplaced = others.map Statement.unplaced) :
    (run settings table first statements).unplaced = (run settings table second others).unplaced := by
  induction statements generalizing first second others with
  | nil =>
    obtain rfl := List.map_eq_nil_iff.mp same.symm
    simp only [run, Run.unplaced, progresses]
  | cons statement rest ih =>
    cases others with
    | nil => contradiction
    | cons other others =>
      rw [List.map_cons, List.map_cons, List.cons.injEq] at same
      have step := place_congr settings table progresses same.1
      simp only [Step.unplaced, Step.mk.injEq] at step
      obtain ⟨record, events, after, fault⟩ := step
      cases stopped : (place settings table first statement).fault with
      | some reported =>
        -- The other run stops here as well. What it logs is the message of its own fault.
        rw [stopped, Option.map_some] at fault
        obtain ⟨otherReported, otherStopped, sameFault⟩ := Option.map_eq_some_iff.mp fault.symm
        have placement := place_placement settings table first statement
        have otherPlacement := place_placement settings table second other
        rw [stopped] at placement
        rw [otherStopped] at otherPlacement
        have message : otherReported.message = reported.message := by
          rw [← otherPlacement.message_unplaced, sameFault, placement.message_unplaced]
        have reports : (Event.reported otherReported).unplaced = (Event.reported reported).unplaced :=
          congrArg Event.reported sameFault
        rw [run_cons_fault settings table rest stopped, run_cons_fault settings table others otherStopped]
        simp only [Run.unplaced, List.map_append, List.map_cons, List.map_nil, ← Option.toList_map, record, events, after, message,
          reports]
      | none =>
        rw [stopped, Option.map_none] at fault
        have goesOn := Option.map_eq_none_iff.mp fault.symm
        have tail := ih after same.2
        simp only [Run.unplaced, Run.mk.injEq] at tail
        rw [run_cons_placed settings table rest stopped, run_cons_placed settings table others goesOn]
        simp only [Run.unplaced, List.map_append, ← Option.toList_map, record, events, tail]

end

end Layout

def Layout.unplaced (layout : Layout) : Layout :=
  { layout with records := layout.records.map Record.bare, symbols := layout.symbols.unplaced }

section
variable (settings : Settings) (table : OpcodeTable) {statements others : List Statement}
  (same : statements.map Statement.unplaced = others.map Statement.unplaced)
include same

theorem layOut_congr : (layOut settings table statements).unplaced = (layOut settings table others).unplaced := by
  have runs : (Layout.run settings table {} statements).unplaced = (Layout.run settings table {} others).unplaced :=
    Layout.run_congr settings table rfl same
  simp only [Layout.Run.unplaced, Layout.Run.mk.injEq, Layout.Progress.unplaced, Layout.Progress.mk.injEq] at runs
  obtain ⟨records, -, ⟨counter, symbols, startAddress, programName, -, endCounter⟩, aborted⟩ := runs
  simp only [layOut, Layout.ofRun, Layout.unplaced, records, symbols, counter, startAddress, programName, endCounter,
    aborted]

theorem layoutEvents_congr :
    (layoutEvents settings table statements).map Event.unplaced =
      (layoutEvents settings table others).map Event.unplaced := by
  have closing (layout : Layout) : layout.closingEvents = layout.unplaced.closingEvents := by
    simp only [Layout.closingEvents, Layout.unplaced, List.length_map, SymbolTable.size_unplaced]
    rfl
  have runs : (Layout.run settings table {} statements).unplaced = (Layout.run settings table {} others).unplaced :=
    Layout.run_congr settings table rfl same
  rw [layoutEvents, layoutEvents, List.map_append, List.map_append, closing (layOut settings table statements),
    closing (layOut settings table others), layOut_congr settings table same]
  exact congrArg₂ (· ++ ·) (congrArg Layout.Run.events runs) rfl

end

def Encoding.unplaced (encoding : Encoding) : Encoding :=
  { encoding with listing := encoding.listing.map fun line => ⟨line.record.bare, line.code⟩ }

theorem Encoding.codes_unplaced (encoding : Encoding) : encoding.unplaced.codes = encoding.codes := by
  rw [Encoding.codes, Encoding.codes, Encoding.unplaced, List.map_map]
  rfl

namespace Encoder

def unplaced (encoder : Encoder) : Encoder :=
  { encoder with symbols := encoder.symbols.unplaced, file := "" }

variable (encoder : Encoder) (record : Record)

theorem recordCode_unplaced : encoder.unplaced.recordCode record.bare = encoder.recordCode record := by
  have field : encoder.unplaced.addressField record.bare = encoder.addressField record := by
    simp only [addressField, unplaced, SymbolTable.address?_unplaced]
    rfl
  simp only [recordCode, instructionCode, field]
  rfl

theorem instructionEvents_unplaced (code : String) :
    (encoder.unplaced.instructionEvents record.bare code).map Event.unplaced =
      (encoder.instructionEvents record code).map Event.unplaced := by
  simp only [instructionEvents, unresolvedEvents, SymbolTable.similar, unplaced, SymbolTable.address?_unplaced,
    SymbolTable.names_unplaced]
  have operand : operand? record.bare = operand? record := rfl
  rw [operand]
  split
  · rfl
  · cases operand? record with
    | none => rfl
    | some symbol =>
      simp only [apply_ite (List.map Event.unplaced)]
      rfl

theorem recordEvents_unplaced :
    (encoder.unplaced.recordEvents record.bare).map Event.unplaced =
      (encoder.recordEvents record).map Event.unplaced := by
  have malformed {α : Type} (outcome : Except OperandFault α) :
      (encoder.unplaced.operandEvents record.bare outcome).map Event.unplaced =
        (encoder.operandEvents record outcome).map Event.unplaced := by
    cases outcome <;> rfl
  have operation : encoder.unplaced.table.operation record.bare.opcode = encoder.table.operation record.opcode := rfl
  unfold recordEvents
  rw [operation]
  cases encoder.table.operation record.opcode with
  | directive directive =>
    cases directive with
    | word => exact malformed _
    | byte => exact malformed _
    | _ => rfl
  | instruction code => exact encoder.instructionEvents_unplaced record code
  | unknown =>
    simp only [unknownOpcodeEvents, apply_ite (List.map Event.unplaced)]
    rfl

theorem unplaced_matches : encoder.Matches encoder.unplaced Record.bare Event.unplaced where
  settings := rfl
  address _ := rfl
  label _ := rfl
  opcode _ := rfl
  code := encoder.recordCode_unplaced
  events := encoder.recordEvents_unplaced
  report _ _ := rfl

end Encoder

section
variable (encoder : Encoder) (records : List Record)

/-- Encoding does not read places. -/
theorem encode_unplaced : encode encoder.unplaced (records.map Record.bare) = (encode encoder records).unplaced :=
  encoder.unplaced_matches.encode_map records

theorem encodingEvents_unplaced :
    (encodingEvents encoder.unplaced (records.map Record.bare)).map Event.unplaced =
      (encodingEvents encoder records).map Event.unplaced :=
  encoder.unplaced_matches.encodingEvents_map records

end

def Collector.unplaced (collector : Collector) : Collector :=
  { collector with
    errors := collector.errors.map Diagnostic.unplaced
    warnings := collector.warnings.map Diagnostic.unplaced }

def Journal.unplaced (journal : Journal) : Journal :=
  { journal with collector := journal.collector.unplaced }

theorem Journal.unplaced_eq_iff {first second : Journal} :
    first.unplaced = second.unplaced ↔
      first.collector.errors.map Diagnostic.unplaced = second.collector.errors.map Diagnostic.unplaced ∧
        first.collector.warnings.map Diagnostic.unplaced = second.collector.warnings.map Diagnostic.unplaced ∧
        first.collector.limit = second.collector.limit ∧ first.log = second.log := by
  simp only [Journal.unplaced, Collector.unplaced, Journal.mk.injEq, Collector.mk.injEq, and_assoc]

theorem Collector.unplaced_add (collector : Collector) (diagnostic : Diagnostic) :
    (collector.add diagnostic).unplaced = collector.unplaced.add diagnostic.unplaced := by
  cases warned : diagnostic.isWarning <;>
    simp [Collector.add, Collector.unplaced, Diagnostic.isWarning_unplaced, warned]

theorem Collector.stop?_unplaced (collector : Collector) (diagnostic : Diagnostic) :
    collector.unplaced.stop? diagnostic.unplaced = collector.stop? diagnostic := by
  simp only [Collector.stop?, Diagnostic.isWarning_unplaced, Collector.unplaced, List.length_map, Collector.limitReached]

theorem Journal.replay_unplaced (journal : Journal) (events : List Event) :
    journal.unplaced.replay (events.map Event.unplaced) =
      ((journal.replay events).1.unplaced, (journal.replay events).2) := by
  induction events generalizing journal with
  | nil => rfl
  | cons event rest ih =>
    cases event with
    | logged entry => exact ih (journal.record entry)
    | reported diagnostic =>
      have submitted : journal.unplaced.submit diagnostic.unplaced =
          ((journal.submit diagnostic).1.unplaced, (journal.submit diagnostic).2) := by
        simp only [Journal.submit, Journal.unplaced, Collector.unplaced_add, Collector.stop?_unplaced]
      cases outcome : journal.submit diagnostic with
      | mk entered stop? =>
        rw [outcome] at submitted
        cases stop? with
        | some stop => simp only [List.map_cons, Event.unplaced_reported, Journal.replay, submitted, outcome]
        | none => simp only [List.map_cons, Event.unplaced_reported, Journal.replay, submitted, outcome, ih]

/-- Whether events end a run does not depend on places. -/
theorem Journal.replay_congr {first second after : Journal} {events others : List Event} {stop? : Option Diagnostic}
    (journals : first.unplaced = second.unplaced) (same : events.map Event.unplaced = others.map Event.unplaced)
    (replayed : first.replay events = (after, stop?)) :
    ∃ other, second.replay others = (other, stop?) ∧ after.unplaced = other.unplaced := by
  have front := first.replay_unplaced events
  rw [journals, same, second.replay_unplaced, replayed, Prod.mk.injEq] at front
  exact ⟨_, Prod.ext rfl front.2, front.1.symm⟩

end TwoPass
