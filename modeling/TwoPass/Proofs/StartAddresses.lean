import TwoPass.Proofs.Extent
import TwoPass.Proofs.Runs

/-!
Programs with more than one START. Laying out lets every START set the start address, so that the last
one counts (`run_startAddress`); encoding looks for a START among the records, so that the first one
counts (`startAddress_eq_head`). They name the same address exactly if these two STARTs do (`StartLaw`).
-/
namespace TwoPass

open Text

/-- The value of an operand as hexadecimal digits. -/
def Statement.startValue (statement : Statement) : Nat :=
  digitsValue .sixteen (statement.operand.getD "").toList

/-- The addresses that the START statements give, in order. -/
def startValues (statements : List Statement) : List Nat :=
  (statements.filter (·.opcode = Directive.start.name)).map Statement.startValue

section
variable {statement : Statement} (rest : List Statement)

theorem startValues_cons_start (isStart : statement.opcode = Directive.start.name) :
    startValues (statement :: rest) = statement.startValue :: startValues rest := by
  simp [startValues, isStart]

theorem startValues_cons_other (other : statement.opcode ≠ Directive.start.name) :
    startValues (statement :: rest) = startValues rest := by
  simp [startValues, other]

end

theorem Statement.startValue_eq {statement : Statement} {address : Nat}
    (operand : Operand.startAddress statement.operand = .ok address) : statement.startValue = address :=
  ((Operand.startAddress_eq_ok_iff _ _).mp operand).2.2.1

namespace Layout

/-- Only START changes the start address. -/
theorem Placement.startAddress {table : OpcodeTable} {progress after : Progress} {statement : Statement} {record : Record}
    (placed : Placement table progress statement (some record) after none) :
    after.startAddress =
      if statement.opcode = Directive.start.name then statement.startValue else progress.startAddress := by
  cases placed with
  | start isStart operand => rw [if_pos isStart, Statement.startValue_eq operand]
  | finish isEnd =>
    have other : statement.opcode ≠ Directive.start.name := by
      rw [isEnd]
      decide
    rw [if_neg other]
  | unknown plain => rw [if_neg plain.1, Progress.recorded]
  | sized plain => rw [if_neg plain.1, Progress.recorded]

/-- A run to the end leaves the address of the last START, if it meets one. -/
theorem run_startAddress (settings : Settings) (table : OpcodeTable) {progress : Progress} {statements : List Statement}
    (complete : (run settings table progress statements).aborted = false) :
    (run settings table progress statements).after.startAddress =
      (startValues statements).getLast?.getD progress.startAddress := by
  -- What was set before the run counts as long as no START follows.
  induction statements generalizing progress with
  | nil => rfl
  | cons statement rest ih =>
    obtain ⟨record, after, placement, complete, -, final⟩ := run_cons_complete settings table complete
    rw [final, ih complete, placement.startAddress]
    by_cases isStart : statement.opcode = Directive.start.name
    · rw [if_pos isStart, startValues_cons_start rest isStart, List.getLast?_cons, Option.getD_some]
    · rw [if_neg isStart, startValues_cons_other rest isStart]

end Layout

theorem layOut_lastStart {settings : Settings} {table : OpcodeTable} {statements : List Statement}
    (complete : (layOut settings table statements).aborted = false) :
    (layOut settings table statements).startAddress = (startValues statements).getLast?.getD 0 :=
  Layout.run_startAddress settings table complete

theorem startAddress_cons_other {first : Record} (rest : List Record) (other : first.opcode ≠ Directive.start.name) :
    Encoder.startAddress (first :: rest) = Encoder.startAddress rest := by
  simp [Encoder.startAddress, Encoder.start?, other]

/-- Records are encoded from the address of the first START. -/
theorem startAddress_eq_head {records : List Record} {statements : List Statement}
    (carried : List.Forall₂ Record.Carries records statements)
    (stand : ∀ record ∈ records, ∃ counter, Layout.StandsAt counter record) :
    Encoder.startAddress records = ((startValues statements).head?.getD 0 : Nat) := by
  induction carried with
  | nil => rfl
  | @cons record statement records rest carries _ ih =>
    obtain ⟨⟨counter, stands⟩, behind⟩ := List.forall_mem_cons.mp stand
    by_cases isStart : record.opcode = Directive.start.name
    · obtain ⟨address, operand, addressed⟩ := stands.start isStart
      rw [carries.operand] at operand
      rw [startAddress_cons records isStart, startValues_cons_start rest (carries.opcode ▸ isStart), addressed,
        Statement.startValue_eq operand]
      rfl
    · rw [startAddress_cons_other records isStart, ih behind, startValues_cons_other rest (carries.opcode ▸ isStart)]

theorem layOut_firstStart {settings : Settings} {table : OpcodeTable} {statements : List Statement}
    (complete : (layOut settings table statements).aborted = false) :
    Encoder.startAddress (layOut settings table statements).records = ((startValues statements).head?.getD 0 : Nat) :=
  startAddress_eq_head (layOut_carries_all complete) fun _ => (layOut_standsAt settings table statements).of_mem

theorem getLast?_getD_eq_head?_getD_iff {values : List Nat} {fallback : Nat} :
    values.getLast?.getD fallback = values.head?.getD fallback ↔ values.getLast? = values.head? := by
  cases values with
  | nil => simp
  | cons first rest => rw [List.getLast?_cons, List.head?_cons, Option.getD_some, Option.getD_some, Option.some.injEq]

/-- Where the two passes let a program start, and when that is the same address. -/
structure StartLaw (statements : List Statement) (layout : Layout) (encoding : Encoding) : Prop where
  /-- The layout starts at the last START, -/
  laidOut : layout.startAddress = (startValues statements).getLast?.getD 0
  /-- and the object program at the first. -/
  encoded : encoding.startAddress = ((startValues statements).head?.getD 0 : Nat)
  /-- The header and the end record give the latter, -/
  recorded : encoding.program.header.start = encoding.startAddress ∧
    encoding.program.entry = some encoding.startAddress
  /-- so that they agree with the layout exactly if the first START and the last give the same address, -/
  agrees : (layout.startAddress : Int) = encoding.startAddress ↔
    (startValues statements).getLast? = (startValues statements).head?
  /-- as they do if there is no more than one START, wherever it stands. -/
  single : statements.countP (·.opcode = Directive.start.name) ≤ 1 → (layout.startAddress : Int) = encoding.startAddress

theorem program_startLaw (settings : Settings) (table : OpcodeTable) (statements : List Statement) (file : String)
    (warnUnknown : Bool) (complete : (layOut settings table statements).aborted = false) :
    StartLaw statements (layOut settings table statements)
      (encode (programEncoder settings table statements file warnUnknown) (layOut settings table statements).records) := by
  have laidOut := layOut_lastStart complete
  have encoded := layOut_firstStart complete
  have agrees : ((layOut settings table statements).startAddress : Int) =
      Encoder.startAddress (layOut settings table statements).records ↔
        (startValues statements).getLast? = (startValues statements).head? := by
    rw [laidOut, encoded, Int.natCast_inj]
    exact getLast?_getD_eq_head?_getD_iff
  refine ⟨laidOut, encoded, ⟨rfl, rfl⟩, agrees, ?_⟩
  intro single
  apply agrees.mpr
  have few : (startValues statements).length ≤ 1 := by
    rw [startValues, List.length_map, ← List.countP_eq_length_filter]
    exact single
  cases shape : startValues statements with
  | nil => rfl
  | cons first rest =>
    rw [shape, List.length_cons] at few
    rw [List.length_eq_zero_iff.mp (by omega : rest.length = 0)]
    rfl

/-- A START behind END counts in both passes. -/
theorem program_startLaw_behindEnd :
    let table : OpcodeTable := ⟨⟨[("LDA", "00")]⟩⟩
    let statements := Statement.parseAll {} table "<input>" " LDA\n END\n START 2000\n"
    (layOut {} table statements).aborted = false ∧ startValues statements = [0x2000] ∧
      StartLaw statements (layOut {} table statements)
        (encode (programEncoder {} table statements "<input>" false) (layOut {} table statements).records) := by
  intro table statements
  have complete : (layOut {} table statements).aborted = false := by decide +kernel
  exact ⟨complete, by decide +kernel, program_startLaw {} table statements "<input>" false complete⟩

/-- With two STARTs a program is assembled without an error, laid out from the second and recorded from the first. -/
theorem two_starts_disagree :
    ∃ assembly,
      (assemble {} "<input>" " START 1000\n START 2000\n LDA\n END\n" "LDA 00\n").result = .ok assembly ∧
        assembly.succeeded ∧ assembly.layout.map Layout.startAddress = some 0x2000 ∧
        assembly.encoding.map (·.program.header) = some ⟨"PROG", 0x1000, 0x1001⟩ :=
  exists_ok_of_any (by decide +kernel)

end TwoPass
