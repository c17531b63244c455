import Mathlib.Algebra.GroupWithZero.Nat
import TwoPass.Proofs.Placement

/-!
The addresses of a layout. `counterAfter` is where the location counter stands behind
records: at the address of the latest START, plus the bytes of what follows it. Every
record stands where the counter is (`run_standsAt`), and as long as nothing stops the
run the counter stays inside the memory (`run_fits`); both are statements about the
records with the counter in front of each (`Along`). Read off at one record they give the
address law (`AddressLaw`).
-/
namespace TwoPass

open Text

/-- A start address is the value of hexadecimal digits, and lies in the memory. -/
theorem Operand.startAddress_eq_ok_iff (operand : Option String) (address : Nat) :
    Operand.startAddress operand = .ok address ↔
      (operand.getD "").toList ≠ [] ∧ (∀ c ∈ (operand.getD "").toList, isHexDigit c) ∧
        digitsValue .sixteen (operand.getD "").toList = address ∧ address ≤ maxAddress := by
  simp only [Operand.startAddress]
  generalize (operand.getD "").toList = digits
  by_cases malformed : (digits.isEmpty || !digits.all isHexDigit) = true
  · rw [if_pos malformed]
    constructor
    · nofun
    · rintro ⟨nonempty, hexadecimal, -, -⟩
      simp [nonempty, List.all_eq_true.mpr hexadecimal] at malformed
  · rw [if_neg malformed]
    have wellFormed : digits ≠ [] ∧ ∀ c ∈ digits, isHexDigit c := by
      simpa using malformed
    by_cases inside : digitsValue .sixteen digits ≤ maxAddress
    · rw [if_pos inside]
      constructor
      · rintro ⟨⟩
        exact ⟨wellFormed.1, wellFormed.2, rfl, inside⟩
      · rintro ⟨-, -, rfl, -⟩
        rfl
    · rw [if_neg inside]
      constructor
      · nofun
      · rintro ⟨-, -, rfl, low⟩
        exact absurd low inside

/-- The bytes that the statement of a record takes: none if its opcode is not known. -/
def Record.bytes (table : OpcodeTable) (record : Record) : Nat :=
  match statementSize table record.opcode record.operand with
  | .ok (some size) => size
  | _ => 0

theorem Record.bytes_of_size {table : OpcodeTable} {record : Record} {size : Nat}
    (sized : statementSize table record.opcode record.operand = .ok (some size)) : record.bytes table = size := by
  simp only [Record.bytes, sized]

theorem Record.bytes_of_unknown {table : OpcodeTable} {record : Record}
    (unknown : statementSize table record.opcode record.operand = .ok none) : record.bytes table = 0 := by
  simp only [Record.bytes, unknown]

theorem statementSize_start (table : OpcodeTable) (operand : Option String) :
    statementSize table Directive.start.name operand = .ok (some 0) := by
  simp only [statementSize, OpcodeTable.operation, Directive.ofName?_name]

theorem statementSize_finish (table : OpcodeTable) (operand : Option String) :
    statementSize table Directive.finish.name operand = .ok (some 0) := by
  simp only [statementSize, OpcodeTable.operation, Directive.ofName?_name]

namespace Layout

/-- Where the location counter stands behind a record. -/
def advance (table : OpcodeTable) (counter : Nat) (record : Record) : Nat :=
  if record.opcode = Directive.start.name then (Operand.startAddress record.operand).toOption.getD 0
  else counter + record.bytes table

/-- Where the location counter stands behind records. -/
def counterAfter (table : OpcodeTable) (counter : Nat) (records : List Record) : Nat :=
  records.foldl (advance table) counter

theorem advance_of_not_start {table : OpcodeTable} {record : Record} {taken : Nat} (counter : Nat)
    (notStart : record.opcode ≠ Directive.start.name) (bytes : record.bytes table = taken) :
    advance table counter record = counter + taken := by
  rw [advance, if_neg notStart, bytes]

theorem counterAfter_append (table : OpcodeTable) (counter : Nat) (front back : List Record) :
    counterAfter table counter (front ++ back) = counterAfter table (counterAfter table counter front) back :=
  List.foldl_append

/-- Without START the counter advances by the bytes of the records. -/
theorem counterAfter_of_no_start (table : OpcodeTable) (counter : Nat) (records : List Record)
    (noStart : ∀ record ∈ records, record.opcode ≠ Directive.start.name) :
    counterAfter table counter records = counter + (records.map (Record.bytes table)).sum := by
  induction records generalizing counter with
  | nil => rfl
  | cons record rest ih =>
    have plain := noStart record List.mem_cons_self
    have later := ih (advance table counter record) fun other member => noStart other (List.mem_cons_of_mem _ member)
    rw [counterAfter, List.foldl_cons, ← counterAfter, later, List.map_cons, List.sum_cons]
    simp only [advance, plain, if_false]
    omega

/-- Every record satisfies a predicate together with the counter in front of it. -/
def Along (table : OpcodeTable) (holds : Nat → Record → Prop) : Nat → List Record → Prop
  | _, [] => True
  | counter, record :: rest => holds counter record ∧ Along table holds (advance table counter record) rest

theorem along_append (table : OpcodeTable) (holds : Nat → Record → Prop) (counter : Nat) (front back : List Record) :
    Along table holds counter (front ++ back) ↔
      Along table holds counter front ∧ Along table holds (counterAfter table counter front) back := by
  induction front generalizing counter with
  | nil => simp [Along, counterAfter]
  | cons record rest ih =>
    have behind : counterAfter table counter (record :: rest) =
        counterAfter table (advance table counter record) rest := rfl
    simp only [List.cons_append, Along, ih, behind, and_assoc]

/-- What holds along records holds of each of them at the counter behind those in front. -/
theorem Along.at_split {table : OpcodeTable} {holds : Nat → Record → Prop} {counter : Nat} {records earlier later : List Record}
    {record : Record} (along : Along table holds counter records) (split : records = earlier ++ record :: later) :
    holds (counterAfter table counter earlier) record := by
  subst split
  exact ((along_append table holds counter earlier (record :: later)).mp along).2.1

theorem Along.of_mem {table : OpcodeTable} {holds : Nat → Record → Prop} {counter : Nat} {records : List Record}
    {record : Record} (along : Along table holds counter records) (member : record ∈ records) :
    ∃ counter, holds counter record := by
  obtain ⟨earlier, later, split⟩ := List.append_of_mem member
  exact ⟨_, along.at_split split⟩

/-- The address of a record, given the counter in front of it. -/
structure StandsAt (counter : Nat) (record : Record) : Prop where
  start : record.opcode = Directive.start.name →
    ∃ address : Nat, Operand.startAddress record.operand = .ok address ∧ record.address = some (address : Int)
  finish : record.opcode = Directive.finish.name → record.address = none
  plain : PlainOpcode record.opcode → record.address = some (counter : Int) ∧ counter ≤ maxAddress

/-- A statement can be laid out at the counter: its size is known to be that of an
    unknown opcode or of one that ends inside the memory. -/
structure Fits (table : OpcodeTable) (counter : Nat) (record : Record) : Prop where
  readable : ∃ size?, statementSize table record.opcode record.operand = .ok size?
  inside : PlainOpcode record.opcode → counter + record.bytes table ≤ maxAddress + 1

private theorem start_ne_finish : Directive.start.name ≠ Directive.finish.name :=
  Directive.name_injective.ne nofun

theorem standsAt_start {counter : Nat} {record : Record} {address : Nat} (isStart : record.opcode = Directive.start.name)
    (operand : Operand.startAddress record.operand = .ok address) (stands : record.address = some (address : Int)) :
    StandsAt counter record where
  start _ := ⟨address, operand, stands⟩
  finish isEnd := absurd (isStart.symm.trans isEnd) start_ne_finish
  plain plain := absurd isStart plain.1

theorem standsAt_finish {counter : Nat} {record : Record} (isEnd : record.opcode = Directive.finish.name)
    (stands : record.address = none) : StandsAt counter record where
  start isStart := absurd (isStart.symm.trans isEnd) start_ne_finish
  finish _ := stands
  plain plain := absurd isEnd plain.2

theorem standsAt_plain {counter : Nat} {record : Record} (plain : PlainOpcode record.opcode)
    (stands : record.address = some (counter : Int)) (inside : counter ≤ maxAddress) : StandsAt counter record where
  start isStart := absurd isStart plain.1
  finish isEnd := absurd isEnd plain.2
  plain _ := ⟨stands, inside⟩

section
variable {table : OpcodeTable} {progress after : Progress} {statement : Statement} {record : Record}

/-- A record stands where the counter is, also when its statement stops the run. -/
theorem Placement.standsAt {fault : Option Diagnostic}
    (placed : Placement table progress statement (some record) after fault) : StandsAt progress.counter record := by
  cases placed with
  | start isStart operand => exact standsAt_start isStart operand rfl
  | finish isEnd => exact standsAt_finish isEnd rfl
  | refused plain inside _ => exact standsAt_plain plain rfl inside
  | unknown plain inside _ => exact standsAt_plain plain rfl inside
  | sized plain inside _ _ => exact standsAt_plain plain rfl inside
  | overflow plain inside _ _ => exact standsAt_plain plain rfl inside

/-- A statement that can be laid out fits into the memory. -/
theorem Placement.fits (placed : Placement table progress statement (some record) after none) :
    Fits table progress.counter record := by
  cases placed with
  | start isStart _ =>
    refine ⟨⟨some 0, ?_⟩, fun plain => absurd isStart plain.1⟩
    simp only [recordOf, isStart, statementSize_start]
  | finish isEnd =>
    refine ⟨⟨some 0, ?_⟩, fun plain => absurd isEnd plain.2⟩
    simp only [recordOf, isEnd, statementSize_finish]
  | unknown _ inside size =>
    refine ⟨⟨none, size⟩, fun _ => ?_⟩
    rw [Record.bytes_of_unknown size]
    omega
  | sized _ _ size fits =>
    refine ⟨⟨_, size⟩, fun _ => ?_⟩
    rw [Record.bytes_of_size size]
    exact fits

/-- A statement that can be laid out takes the counter behind its record. -/
theorem Placement.counter (placed : Placement table progress statement (some record) after none) :
    after.counter = advance table progress.counter record := by
  cases placed with
  | start isStart operand =>
    simp only [advance, recordOf, isStart, if_true, operand, Except.toOption, Option.getD_some]
  | finish isEnd =>
    have notStart : statement.opcode ≠ Directive.start.name := fun isStart =>
      start_ne_finish (isStart.symm.trans isEnd)
    have empty : (recordOf statement none).bytes table = 0 :=
      Record.bytes_of_size (by simp only [recordOf, isEnd, statementSize_finish])
    exact (advance_of_not_start progress.counter notStart empty).symm
  | unknown plain _ size =>
    exact (advance_of_not_start progress.counter plain.1 (Record.bytes_of_unknown size)).symm
  | sized plain _ size _ =>
    exact (advance_of_not_start progress.counter plain.1 (Record.bytes_of_size size)).symm

end

section
variable (settings : Settings) (table : OpcodeTable) (progress : Progress) (statements : List Statement)

/-- Every record of a run stands where the counter is. -/
theorem run_standsAt : Along table StandsAt progress.counter (run settings table progress statements).records := by
  apply run_induction settings table
    (motive := fun progress _ records _ _ => Along table StandsAt progress.counter records)
  case nil =>
    intro _
    trivial
  case stopped =>
    intro _ _ _ record? _ _ placement
    cases record? with
    | none => trivial
    | some record => exact ⟨placement.standsAt, trivial⟩
  case placed =>
    intro _ _ _ record _ _ _ _ placement along
    rw [placement.counter] at along
    exact ⟨placement.standsAt, along⟩

/-- Every statement of a run fits, up to the one that stops it. That one is the last with
    a record, if it has one. -/
theorem run_fits :
    Along table (Fits table) progress.counter (run settings table progress statements).records.dropLast ∧
      ((run settings table progress statements).aborted = false →
        Along table (Fits table) progress.counter (run settings table progress statements).records) := by
  apply run_induction settings table
    (motive := fun progress _ records _ aborted =>
      Along table (Fits table) progress.counter records.dropLast ∧
        (aborted = false → Along table (Fits table) progress.counter records))
  case nil =>
    intro _
    exact ⟨trivial, fun _ => trivial⟩
  case stopped =>
    intro _ _ _ record? _ _ _
    cases record? with
    | none => exact ⟨trivial, nofun⟩
    | some record => exact ⟨trivial, nofun⟩
  case placed =>
    rintro _ _ _ record _ records _ _ placement ⟨front, complete⟩
    rw [placement.counter] at front complete
    refine ⟨?_, fun ended => ⟨placement.fits, complete ended⟩⟩
    cases records with
    | nil => trivial
    | cons next rest =>
      rw [List.dropLast_cons_of_ne_nil (List.cons_ne_nil next rest)]
      exact ⟨placement.fits, front⟩

end

/-- How the addresses of a layout follow from its statements. -/
structure AddressLaw (table : OpcodeTable) (statements : List Statement) (layout : Layout) : Prop where
  /-- The records are those of the first statements, and of all unless one of them stopped the run. -/
  carried : ∃ placed rest, statements = placed ++ rest ∧ List.Forall₂ Record.Carries layout.records placed ∧
    (layout.aborted = false → rest = [])
  /-- Only END has no address. -/
  unaddressed : ∀ record ∈ layout.records, record.address = none ↔ record.opcode = Directive.finish.name
  /-- START stands at the value of its hexadecimal operand. -/
  start : ∀ record ∈ layout.records, record.opcode = Directive.start.name →
    (record.operand.getD "").toList ≠ [] ∧ (∀ c ∈ (record.operand.getD "").toList, isHexDigit c) ∧
      record.address = some (digitsValue .sixteen (record.operand.getD "").toList : Int)
  /-- The size of every statement in front of a record can be told. -/
  readable : ∀ earlier record later, layout.records = earlier ++ record :: later →
    ∀ other ∈ earlier, ∃ size?, statementSize table other.opcode other.operand = .ok size?
  /-- Any other statement stands as far behind the latest START as the statements between
      them take bytes. -/
  behindStart : ∀ earlier start between record later,
    layout.records = earlier ++ start :: between ++ record :: later →
    start.opcode = Directive.start.name → (∀ other ∈ between, other.opcode ≠ Directive.start.name) →
    PlainOpcode record.opcode →
      ∃ base : Int, start.address = some base ∧
        record.address = some (base + ((between.map (Record.bytes table)).sum : Nat))
  /-- Without a START in front of it, it stands as far behind 0. -/
  behindZero : ∀ earlier record later, layout.records = earlier ++ record :: later →
    (∀ other ∈ earlier, other.opcode ≠ Directive.start.name) → PlainOpcode record.opcode →
      record.address = some (((earlier.map (Record.bytes table)).sum : Nat) : Int)
  /-- All addresses lie in the memory. -/
  inside : ∀ record ∈ layout.records, ∀ address, record.address = some address → 0 ≤ address ∧ address ≤ 0xFFFF

section
variable {counter : Nat} {record : Record}

theorem StandsAt.address_eq_none_iff (stands : StandsAt counter record) :
    record.address = none ↔ record.opcode = Directive.finish.name := by
  constructor
  · intro unaddressed
    rcases opcode_cases record.opcode with isStart | isEnd | plain
    · obtain ⟨_, -, addressed⟩ := stands.start isStart
      rw [addressed] at unaddressed
      contradiction
    · exact isEnd
    · rw [(stands.plain plain).1] at unaddressed
      contradiction
  · exact stands.finish

theorem StandsAt.inside (stands : StandsAt counter record) {address : Int} (addressed : record.address = some address) :
    0 ≤ address ∧ address ≤ 0xFFFF := by
  have last : maxAddress = 0xFFFF := rfl
  rcases opcode_cases record.opcode with isStart | isEnd | plain
  · obtain ⟨value, operand, stands⟩ := stands.start isStart
    have low := ((Operand.startAddress_eq_ok_iff record.operand value).mp operand).2.2.2
    have same : (value : Int) = address := Option.some.inj (stands.symm.trans addressed)
    omega
  · rw [stands.finish isEnd] at addressed
    contradiction
  · obtain ⟨stands, low⟩ := stands.plain plain
    have same : (counter : Int) = address := Option.some.inj (stands.symm.trans addressed)
    omega

/-- Behind START the counter is at its address. -/
theorem StandsAt.advance_start (table : OpcodeTable) (stands : StandsAt counter record)
    (isStart : record.opcode = Directive.start.name) :
    record.address = some (advance table counter record : Int) := by
  obtain ⟨address, operand, stands⟩ := stands.start isStart
  rw [stands, advance, if_pos isStart, operand]
  rfl

end

end Layout

/-- Every record of a layout stands where the counter is. -/
theorem layOut_standsAt (settings : Settings) (table : OpcodeTable) (statements : List Statement) :
    Layout.Along table Layout.StandsAt 0 (layOut settings table statements).records :=
  Layout.run_standsAt settings table {} statements

/-- Every record of a complete layout fits. -/
theorem layOut_fits {settings : Settings} {table : OpcodeTable} {statements : List Statement}
    (complete : (layOut settings table statements).aborted = false) :
    Layout.Along table (Layout.Fits table) 0 (layOut settings table statements).records :=
  (Layout.run_fits settings table {} statements).2 complete

/-- The address law holds of every layout, whether or not a statement stopped it. -/
theorem layOut_addressLaw (settings : Settings) (table : OpcodeTable) (statements : List Statement) :
    Layout.AddressLaw table statements (layOut settings table statements) := by
  have along := layOut_standsAt settings table statements
  refine ⟨layOut_carries settings table statements, ?_, ?_, ?_, ?_, ?_, ?_⟩
  · intro record member
    obtain ⟨_, stands⟩ := along.of_mem member
    exact stands.address_eq_none_iff
  · intro record member isStart
    obtain ⟨_, stands⟩ := along.of_mem member
    obtain ⟨address, operand, stands⟩ := stands.start isStart
    obtain ⟨nonempty, hexadecimal, value, -⟩ := (Operand.startAddress_eq_ok_iff _ _).mp operand
    exact ⟨nonempty, hexadecimal, by rw [stands, value]⟩
  · intro earlier record later split other member
    have fits : Layout.Along table (Layout.Fits table) 0 (layOut settings table statements).records.dropLast :=
      (Layout.run_fits settings table {} statements).1
    -- What stands in front of a record is not the last record.
    rw [split, List.dropLast_append_of_ne_nil (List.cons_ne_nil record later)] at fits
    obtain ⟨_, fit⟩ := fits.of_mem (List.mem_append_left _ member)
    exact fit.readable
  · intro earlier start between record later split isStart noStart plain
    have startStands : Layout.StandsAt _ start :=
      along.at_split (split.trans (List.append_assoc earlier (start :: between) (record :: later)))
    have recordStands := (along.at_split split).plain plain
    refine ⟨_, startStands.advance_start table isStart, ?_⟩
    rw [recordStands.1, Layout.counterAfter_append]
    have behind := Layout.counterAfter_of_no_start table
      (Layout.advance table (Layout.counterAfter table 0 earlier) start) between noStart
    exact congrArg some (by exact_mod_cast behind)
  · intro earlier record later split noStart plain
    rw [((along.at_split split).plain plain).1, Layout.counterAfter_of_no_start table 0 earlier noStart, Nat.zero_add]
  · intro record member address addressed
    obtain ⟨_, stands⟩ := along.of_mem member
    exact stands.inside addressed

end TwoPass
