import Mathlib.Data.List.Forall2
import TwoPass.Layout

/-!
What laying out can come to. `Placement` lists the eight outcomes of one statement and
`place_placement` says that there are no others, so that every invariant of a layout is a
case analysis over them. Over a whole run the records carry the fields of the statements
in front of the place where it ended (`run_carries`).
-/
namespace TwoPass

namespace Directive

/-- Directives are told apart by their names. -/
theorem ofName?_eq_some_iff (name : String) (directive : Directive) :
    ofName? name = some directive ↔ name = directive.name := by
  constructor
  · intro found
    have named := List.find?_some found
    exact (of_decide_eq_true named).symm
  · rintro rfl
    cases directive <;> decide +kernel

@[simp] theorem ofName?_name (directive : Directive) : ofName? directive.name = some directive :=
  (ofName?_eq_some_iff _ _).mpr rfl

theorem name_injective : Function.Injective name := by
  intro first second same
  have named := ofName?_name first
  rw [same, ofName?_name] at named
  exact (Option.some.inj named).symm

end Directive

/-- An opcode that neither sets the location counter nor ends the program. -/
def PlainOpcode (opcode : String) : Prop :=
  opcode ≠ Directive.start.name ∧ opcode ≠ Directive.finish.name

instance (opcode : String) : Decidable (PlainOpcode opcode) :=
  inferInstanceAs (Decidable (_ ∧ _))

/-- An opcode is START, END or plain. -/
theorem opcode_cases (opcode : String) :
    opcode = Directive.start.name ∨ opcode = Directive.finish.name ∨ PlainOpcode opcode := by
  by_cases isStart : opcode = Directive.start.name
  · exact .inl isStart
  · by_cases isEnd : opcode = Directive.finish.name
    · exact .inr (.inl isEnd)
    · exact .inr (.inr ⟨isStart, isEnd⟩)

/-- A record holds the fields, the line number and the text of a statement. -/
structure Record.Carries (record : Record) (statement : Statement) : Prop where
  label : record.label = statement.label
  opcode : record.opcode = statement.opcode
  operand : record.operand = statement.operand
  line : record.line = statement.line
  text : record.sourceLine = some statement.text

namespace Layout

theorem recordOf_carries (statement : Statement) (address : Option Int) :
    (recordOf statement address).Carries statement :=
  ⟨rfl, rfl, rfl, rfl, rfl⟩

/-- What is left for the next statement once a plain statement has its record. -/
def Progress.recorded (progress : Progress) (statement : Statement) : Progress :=
  { progress with symbols := definedSymbols progress statement, begun := true }

/-- The outcomes of one statement: its record, what is left for the next statement, and
    what keeps it from being laid out. -/
inductive Placement (table : OpcodeTable) (progress : Progress) (statement : Statement) :
    Option Record → Progress → Option Diagnostic → Prop
  /-- START sets the counter to the value of its operand. -/
  | start {address : Nat} (isStart : statement.opcode = Directive.start.name)
      (operand : Operand.startAddress statement.operand = .ok address) :
      Placement table progress statement (some (recordOf statement (some address)))
        { progress with
          counter := address
          startAddress := address
          programName := label? statement <|> progress.programName
          begun := true }
        none
  /-- START with any other operand gets no record. -/
  | startRefused {fault : OperandFault} (isStart : statement.opcode = Directive.start.name)
      (operand : Operand.startAddress statement.operand = .error fault) :
      Placement table progress statement none progress (some (invalidOperand statement fault))
  /-- END remembers the counter. -/
  | finish (isEnd : statement.opcode = Directive.finish.name) :
      Placement table progress statement (some (recordOf statement none))
        { progress with begun := true, endCounter := some progress.counter } none
  /-- No statement begins behind the last address. -/
  | beyond (plain : PlainOpcode statement.opcode) (beyond : maxAddress < progress.counter) :
      Placement table progress statement none progress
        (some
          { cause := .statementBeyondMemory progress.counter
            location := some statement.location
            sourceLine := some statement.text })
  /-- A malformed operand is found once the record is there. -/
  | refused {fault : OperandFault} (plain : PlainOpcode statement.opcode) (inside : progress.counter ≤ maxAddress)
      (size : statementSize table statement.opcode statement.operand = .error fault) :
      Placement table progress statement (some (recordOf statement (some progress.counter)))
        (progress.recorded statement) (some (invalidOperand statement fault))
  /-- An unknown opcode leaves the counter where it is. -/
  | unknown (plain : PlainOpcode statement.opcode) (inside : progress.counter ≤ maxAddress)
      (size : statementSize table statement.opcode statement.operand = .ok none) :
      Placement table progress statement (some (recordOf statement (some progress.counter)))
        (progress.recorded statement) none
  /-- A statement that fits advances the counter by its size. -/
  | sized {bytes : Nat} (plain : PlainOpcode statement.opcode) (inside : progress.counter ≤ maxAddress)
      (size : statementSize table statement.opcode statement.operand = .ok (some bytes))
      (fits : progress.counter + bytes ≤ maxAddress + 1) :
      Placement table progress statement (some (recordOf statement (some progress.counter)))
        { progress.recorded statement with counter := progress.counter + bytes } none
  /-- A statement that ends behind the last address has its record all the same. -/
  | overflow {bytes : Nat} (plain : PlainOpcode statement.opcode) (inside : progress.counter ≤ maxAddress)
      (size : statementSize table statement.opcode statement.operand = .ok (some bytes))
      (exceeds : maxAddress + 1 < progress.counter + bytes) :
      Placement table progress statement (some (recordOf statement (some progress.counter)))
        { progress.recorded statement with counter := progress.counter + bytes }
        (some
          { cause := .counterBeyondMemory (progress.counter + bytes)
            location := some statement.location
            sourceLine := some statement.text })

theorem place_start {settings : Settings} {table : OpcodeTable} {progress : Progress} {statement : Statement}
    (isStart : statement.opcode = Directive.start.name) :
    place settings table progress statement =
      { placeStart progress statement with
        events := remarks progress statement ++ (placeStart progress statement).events } := by
  simp only [place, isStart, Directive.ofName?_name]

theorem place_end {settings : Settings} {table : OpcodeTable} {progress : Progress} {statement : Statement}
    (isEnd : statement.opcode = Directive.finish.name) :
    place settings table progress statement =
      { placeEnd progress statement with
        events := remarks progress statement ++ (placeEnd progress statement).events } := by
  simp only [place, isEnd, Directive.ofName?_name]

theorem place_plain {settings : Settings} {table : OpcodeTable} {progress : Progress} {statement : Statement}
    (plain : PlainOpcode statement.opcode) :
    place settings table progress statement =
      { placeOther settings table progress statement with
        events := remarks progress statement ++ (placeOther settings table progress statement).events } := by
  simp only [place]
  split
  next found => exact absurd ((Directive.ofName?_eq_some_iff _ _).mp found) plain.1
  next found => exact absurd ((Directive.ofName?_eq_some_iff _ _).mp found) plain.2
  next => rfl

/-- Laying out a plain statement is one of the outcomes. -/
private theorem placeOther_placement (settings : Settings) (table : OpcodeTable) (progress : Progress)
    (statement : Statement) (plain : PlainOpcode statement.opcode) :
    Placement table progress statement (placeOther settings table progress statement).record
      (placeOther settings table progress statement).after (placeOther settings table progress statement).fault := by
  unfold placeOther
  by_cases beyond : maxAddress < progress.counter
  · simp only [beyond, if_true]
    exact .beyond plain beyond
  · have inside : progress.counter ≤ maxAddress := Nat.le_of_not_lt beyond
    simp only [beyond, if_false]
    cases size : statementSize table statement.opcode statement.operand with
    | error fault => exact .refused plain inside size
    | ok known =>
      cases known with
      | none => exact .unknown plain inside size
      | some bytes =>
        by_cases exceeds : maxAddress + 1 < progress.counter + bytes
        · simp only [exceeds, if_true]
          exact .overflow plain inside size exceeds
        · simp only [exceeds, if_false]
          exact .sized plain inside size (Nat.le_of_not_lt exceeds)

/-- Laying out a statement is one of the outcomes. -/
theorem place_placement (settings : Settings) (table : OpcodeTable) (progress : Progress) (statement : Statement) :
    Placement table progress statement (place settings table progress statement).record
      (place settings table progress statement).after (place settings table progress statement).fault := by
  rcases opcode_cases statement.opcode with isStart | isEnd | plain
  · rw [place_start isStart]
    unfold placeStart
    cases operand : Operand.startAddress statement.operand with
    | ok address => exact .start isStart operand
    | error fault => exact .startRefused isStart operand
  · rw [place_end isEnd]
    exact .finish isEnd
  · rw [place_plain plain]
    exact placeOther_placement settings table progress statement plain

theorem Placement.carries {table : OpcodeTable} {progress after : Progress} {statement : Statement} {record : Record}
    {fault : Option Diagnostic} (placed : Placement table progress statement (some record) after fault) :
    record.Carries statement := by
  cases placed <;> exact recordOf_carries statement _

/-- A statement that can be laid out gets a record. -/
theorem Placement.exists_record {table : OpcodeTable} {progress after : Progress} {statement : Statement}
    {record? : Option Record} (placed : Placement table progress statement record? after none) :
    ∃ record, record? = some record := by
  cases placed <;> exact ⟨_, rfl⟩

variable (settings : Settings) (table : OpcodeTable)

/-- A run stops at a statement that cannot be laid out. -/
theorem run_cons_fault {progress : Progress} {statement : Statement} {fault : Diagnostic} (rest : List Statement)
    (stopped : (place settings table progress statement).fault = some fault) :
    run settings table progress (statement :: rest) =
      { records := (place settings table progress statement).record.toList
        events := (place settings table progress statement).events ++
          [.debug ("Pass 1 stopped: " ++ fault.message), .reported fault]
        after := (place settings table progress statement).after
        aborted := true } := by
  rw [run]
  simp only [stopped]

/-- A run goes on behind a statement that can be laid out. -/
theorem run_cons_placed {progress : Progress} {statement : Statement} (rest : List Statement)
    (placed : (place settings table progress statement).fault = none) :
    run settings table progress (statement :: rest) =
      { records := (place settings table progress statement).record.toList ++
          (run settings table (place settings table progress statement).after rest).records
        events := (place settings table progress statement).events ++
          (run settings table (place settings table progress statement).after rest).events
        after := (run settings table (place settings table progress statement).after rest).after
        aborted := (run settings table (place settings table progress statement).after rest).aborted } := by
  rw [run]
  simp only [placed]

/-- A run that goes to the end lays out its first statement and then the rest. -/
theorem run_cons_complete {progress : Progress} {statement : Statement} {rest : List Statement}
    (complete : (run settings table progress (statement :: rest)).aborted = false) :
    ∃ record after, Placement table progress statement (some record) after none ∧
      (run settings table after rest).aborted = false ∧
      (run settings table progress (statement :: rest)).records = record :: (run settings table after rest).records ∧
      (run settings table progress (statement :: rest)).after = (run settings table after rest).after := by
  have placement := place_placement settings table progress statement
  cases outcome : (place settings table progress statement).fault with
  | some fault =>
    rw [run_cons_fault settings table rest outcome] at complete
    contradiction
  | none =>
    rw [outcome] at placement
    obtain ⟨record, recorded⟩ := placement.exists_record
    rw [recorded] at placement
    rw [run_cons_placed settings table rest outcome] at complete ⊢
    exact ⟨record, _, placement, complete, by rw [recorded]; rfl, rfl⟩

/-- What holds of every run: it holds of the empty one, of one that stops at its first
    statement, and of one that goes on behind its first statement if it holds of the rest. -/
theorem run_induction {motive : Progress → List Statement → List Record → Progress → Bool → Prop}
    (nil : ∀ progress, motive progress [] [] progress false)
    (stopped : ∀ progress statement rest record? after fault,
      Placement table progress statement record? after (some fault) →
        motive progress (statement :: rest) record?.toList after true)
    (placed : ∀ progress statement rest record after records final aborted,
      Placement table progress statement (some record) after none → motive after rest records final aborted →
        motive progress (statement :: rest) (record :: records) final aborted)
    (progress : Progress) (statements : List Statement) :
    motive progress statements (run settings table progress statements).records
      (run settings table progress statements).after (run settings table progress statements).aborted := by
  induction statements generalizing progress with
  | nil => exact nil progress
  | cons statement rest ih =>
    have placement := place_placement settings table progress statement
    cases outcome : (place settings table progress statement).fault with
    | some fault =>
      rw [run_cons_fault settings table rest outcome]
      rw [outcome] at placement
      exact stopped progress statement rest _ _ fault placement
    | none =>
      rw [run_cons_placed settings table rest outcome]
      rw [outcome] at placement
      obtain ⟨record, recorded⟩ := placement.exists_record
      rw [recorded] at placement ⊢
      exact placed progress statement rest record _ _ _ _ placement (ih _)

/-- The records are those of the statements in front of some place, which is the end
    unless a statement stopped the run. -/
theorem run_carries (progress : Progress) (statements : List Statement) :
    ∃ placed rest, statements = placed ++ rest ∧
      List.Forall₂ Record.Carries (run settings table progress statements).records placed ∧
      ((run settings table progress statements).aborted = false → rest = []) := by
  apply run_induction settings table
    (motive := fun _ statements records _ aborted => ∃ placed rest, statements = placed ++ rest ∧
      List.Forall₂ Record.Carries records placed ∧ (aborted = false → rest = []))
  case nil =>
    intro _
    exact ⟨[], [], rfl, .nil, fun _ => rfl⟩
  case stopped =>
    intro _ statement rest record? _ _ placement
    cases record? with
    | none => exact ⟨[], statement :: rest, rfl, .nil, nofun⟩
    | some record => exact ⟨[statement], rest, rfl, .cons placement.carries .nil, nofun⟩
  case placed =>
    rintro _ statement _ record _ records _ _ placement ⟨placed, rest, rfl, carried, complete⟩
    exact ⟨statement :: placed, rest, rfl, .cons placement.carries carried, complete⟩

end Layout

/-- The records of a layout, in the terms of its statements. -/
theorem layOut_carries (settings : Settings) (table : OpcodeTable) (statements : List Statement) :
    ∃ placed rest, statements = placed ++ rest ∧
      List.Forall₂ Record.Carries (layOut settings table statements).records placed ∧
      ((layOut settings table statements).aborted = false → rest = []) :=
  Layout.run_carries settings table {} statements

/-- A layout that nothing stopped has a record for every statement. -/
theorem layOut_carries_all {settings : Settings} {table : OpcodeTable} {statements : List Statement}
    (complete : (layOut settings table statements).aborted = false) :
    List.Forall₂ Record.Carries (layOut settings table statements).records statements := by
  obtain ⟨placed, rest, split, carried, ended⟩ := layOut_carries settings table statements
  rw [ended complete, List.append_nil] at split
  exact split ▸ carried

/-- The record of one statement among those of the others. -/
theorem exists_record_of_split {records : List Record} {earlier later : List Statement} {statement : Statement}
    (carried : List.Forall₂ Record.Carries records (earlier ++ statement :: later)) :
    ∃ front record back, records = front ++ record :: back ∧ front.length = earlier.length ∧
      record.Carries statement ∧ List.Forall₂ Record.Carries back later := by
  have front := List.forall₂_take_append records earlier (statement :: later) carried
  have behind := List.forall₂_drop_append records earlier (statement :: later) carried
  obtain ⟨record, back, carries, backCarries, split⟩ := List.forall₂_cons_right_iff.mp behind
  refine ⟨records.take earlier.length, record, back, ?_, front.length_eq, carries, backCarries⟩
  rw [← split, List.take_append_drop]

end TwoPass
