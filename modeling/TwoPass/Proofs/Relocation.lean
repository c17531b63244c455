import TwoPass.Proofs.Extent
import TwoPass.Proofs.Resolution

/-!
Relocation: the same program behind another START. Two runs of the layout go through the same
statements, their counters and symbols a fixed distance apart (`Progress.Moved`, `run_moved`). No
size and no decision of the packing depends on an address, so the object programs differ in their
addresses only, all of them by that distance (`RelocationLaw`).
-/
namespace TwoPass

open Text

variable {distance : Int}

/-- The second table holds the symbols of the first one, with their addresses moved. -/
def SymbolTable.Moved (distance : Int) (first second : SymbolTable) : Prop :=
  second.symbols.map Symbol.address = (first.symbols.map Symbol.address).map (· + distance)

namespace SymbolTable.Moved

variable {first second : SymbolTable} (moved : first.Moved distance second)
include moved

theorem address? (name : String) : second.address? name = (first.address? name).map (· + distance) := by
  rw [SymbolTable.address?, ← Dictionary.get?_map, moved, Dictionary.get?_map, Dictionary.get?_map]
  rfl

theorem addresses : second.addresses = first.addresses.map (Prod.map id (· + distance)) :=
  congrArg Dictionary.entries moved

theorem define (name : String) {address target : Int} (apart : target = address + distance)
    (location : Option Location) :
    (first.define name address location).Moved distance (second.define name target location) := by
  unfold Moved SymbolTable.define
  rw [Dictionary.map_insert, Dictionary.map_insert, Dictionary.map_insert, moved, apart]

end SymbolTable.Moved

/-- The second record has the address of the first one, moved, and the fields of the first one;
    the operand of START, which says where the program stands, is its own. -/
structure Record.Moved (distance : Int) (first second : Record) : Prop where
  address : second.address = first.address.map (· + distance)
  opcode : second.opcode = first.opcode
  operand : first.opcode ≠ Directive.start.name → second.operand = first.operand

namespace Layout

/-- The second run has come as far as the first one, a distance away. -/
structure Progress.Moved (distance : Int) (first second : Progress) : Prop where
  counter : (second.counter : Int) = first.counter + distance
  symbols : first.symbols.Moved distance second.symbols

section
variable {settings : Settings} {table : OpcodeTable} {first second : Progress} {statement : Statement}

theorem Progress.Moved.record (moved : first.Moved distance second) :
    (recordOf statement (some first.counter)).Moved distance (recordOf statement (some second.counter)) :=
  ⟨congrArg some moved.counter, rfl, fun _ => rfl⟩

theorem Progress.Moved.recorded (moved : first.Moved distance second) (statement : Statement) :
    (first.recorded statement).Moved distance (second.recorded statement) := by
  refine ⟨moved.counter, ?_⟩
  simp only [Progress.recorded, definedSymbols]
  cases label? statement with
  | none => exact moved.symbols
  | some label => exact moved.symbols.define label moved.counter _

/-- A statement that can be laid out at both places takes as much room at the one as at the other. -/
theorem Placement.moved {firstAfter secondAfter : Progress} {record other : Record}
    (moved : first.Moved distance second) (notStart : statement.opcode ≠ Directive.start.name)
    (placed : Placement table first statement (some record) firstAfter none)
    (otherPlaced : Placement table second statement (some other) secondAfter none) :
    record.Moved distance other ∧ firstAfter.Moved distance secondAfter := by
  cases placed with
  | start isStart => exact absurd isStart notStart
  | finish isEnd =>
    cases otherPlaced with
    | start isStart => exact absurd isStart notStart
    | finish => exact ⟨⟨rfl, rfl, fun _ => rfl⟩, moved.counter, moved.symbols⟩
    | unknown plain | sized plain => exact absurd isEnd plain.2
  | unknown plain _ size =>
    cases otherPlaced with
    | start isStart => exact absurd isStart notStart
    | finish isEnd => exact absurd isEnd plain.2
    | unknown => exact ⟨moved.record, moved.recorded statement⟩
    | sized _ _ otherSize =>
      rw [size] at otherSize
      exact absurd otherSize (by simp)
  | sized plain _ size =>
    cases otherPlaced with
    | start isStart => exact absurd isStart notStart
    | finish isEnd => exact absurd isEnd plain.2
    | unknown _ _ otherSize =>
      rw [size] at otherSize
      exact absurd otherSize (by simp)
    | sized _ _ otherSize =>
      rw [size, Except.ok.injEq, Option.some.injEq] at otherSize
      subst otherSize
      refine ⟨moved.record, ?_, (moved.recorded statement).symbols⟩
      have counter := moved.counter
      push_cast
      omega

/-- Two runs over statements without START stay apart by the same distance. -/
theorem run_moved {statements : List Statement} (moved : first.Moved distance second)
    (noStart : ∀ statement ∈ statements, statement.opcode ≠ Directive.start.name)
    (complete : (run settings table first statements).aborted = false)
    (otherComplete : (run settings table second statements).aborted = false) :
    List.Forall₂ (Record.Moved distance) (run settings table first statements).records
        (run settings table second statements).records ∧
      (run settings table first statements).after.Moved distance (run settings table second statements).after := by
  induction statements generalizing first second with
  | nil => exact ⟨.nil, moved⟩
  | cons statement rest ih =>
    -- Neither run need be complete because the other is: only the higher one may leave the memory.
    obtain ⟨record, after, placed, goesOn, records, final⟩ := run_cons_complete settings table complete
    obtain ⟨other, otherAfter, otherPlaced, otherGoesOn, otherRecords, otherFinal⟩ :=
      run_cons_complete settings table otherComplete
    obtain ⟨notStart, noStart⟩ := List.forall_mem_cons.mp noStart
    obtain ⟨recordMoved, afterMoved⟩ := placed.moved moved notStart otherPlaced
    obtain ⟨recordsMoved, finalMoved⟩ := ih afterMoved noStart goesOn otherGoesOn
    rw [records, otherRecords, final, otherFinal]
    exact ⟨.cons recordMoved recordsMoved, finalMoved⟩

end

/-- START puts a program at the address that it names. -/
theorem Placement.start_address {table : OpcodeTable} {progress after : Progress} {statement : Statement}
    {record : Record} {address : Nat} (placed : Placement table progress statement (some record) after none)
    (isStart : statement.opcode = Directive.start.name)
    (operand : Operand.startAddress statement.operand = .ok address) :
    record = recordOf statement (some address) ∧ after.counter = address ∧ after.symbols = progress.symbols := by
  cases placed with
  | start _ read =>
    rw [operand, Except.ok.injEq] at read
    exact ⟨by rw [read], read.symm, rfl⟩
  | finish isEnd => exact absurd (isStart.symm.trans isEnd) (by decide)
  | unknown plain | sized plain => exact absurd isStart plain.1

end Layout

theorem layOut_moved {settings : Settings} {table : OpcodeTable} {first second : Statement} {rest : List Statement}
    {address target : Nat} (isStart : first.opcode = Directive.start.name)
    (otherIsStart : second.opcode = Directive.start.name)
    (noStart : ∀ statement ∈ rest, statement.opcode ≠ Directive.start.name)
    (operand : Operand.startAddress first.operand = .ok address)
    (otherOperand : Operand.startAddress second.operand = .ok target)
    (complete : (layOut settings table (first :: rest)).aborted = false)
    (otherComplete : (layOut settings table (second :: rest)).aborted = false) :
    List.Forall₂ (Record.Moved (target - address)) (layOut settings table (first :: rest)).records
        (layOut settings table (second :: rest)).records ∧
      (layOut settings table (first :: rest)).symbols.Moved (target - address)
        (layOut settings table (second :: rest)).symbols := by
  obtain ⟨record, after, placed, goesOn, records, final⟩ := Layout.run_cons_complete settings table complete
  obtain ⟨other, otherAfter, otherPlaced, otherGoesOn, otherRecords, otherFinal⟩ :=
    Layout.run_cons_complete settings table otherComplete
  obtain ⟨rfl, counter, symbols⟩ := placed.start_address isStart operand
  obtain ⟨rfl, otherCounter, otherSymbols⟩ := otherPlaced.start_address otherIsStart otherOperand
  have startMoved : (Layout.recordOf first (some address)).Moved (target - address)
      (Layout.recordOf second (some target)) := by
    refine ⟨congrArg some ?_, otherIsStart.trans isStart.symm, fun notStart => absurd isStart notStart⟩
    change (target : Int) = address + (target - address)
    omega
  have afterMoved : after.Moved (target - address) otherAfter := by
    refine ⟨by omega, ?_⟩
    rw [symbols, otherSymbols]
    rfl
  obtain ⟨recordsMoved, finalMoved⟩ := Layout.run_moved afterMoved noStart goesOn otherGoesOn
  simp only [layOut, Layout.ofRun, records, otherRecords, final, otherFinal]
  exact ⟨.cons startMoved recordsMoved, finalMoved.symbols⟩

/-- Two codes of instructions that differ in the address field, by a distance. -/
def AddressMoved (distance : Int) (first second : String) : Prop :=
  ∃ operation field other, ∃ address target : Nat,
    first = operation ++ field ∧ second = operation ++ other ∧ IsNumeral 4 address field ∧ IsNumeral 4 target other ∧
      (target : Int) = address + distance

theorem AddressMoved.length_eq {first second : String} (moved : AddressMoved distance first second) :
    second.length = first.length := by
  obtain ⟨operation, field, other, address, target, rfl, rfl, numeral, otherNumeral, -⟩ := moved
  rw [String.length_append, String.length_append, numeral.length, otherNumeral.length]

/-- Every symbol has an address of four digits. -/
def SymbolTable.Inside (symbols : SymbolTable) : Prop :=
  ∀ name address, symbols.address? name = some address →
    ∃ value : Nat, address = value ∧ IsNumeral 4 value (upperHex 4 address)

namespace Encoder

/-- Whether a record is an instruction with an operand that is defined. -/
def isResolved (encoder : Encoder) (record : Record) : Bool :=
  refersTo encoder.table (fun symbol => (encoder.symbols.address? symbol).isSome) record

/-- The second encoder differs from the first one in the addresses of the symbols only. -/
structure Moved (distance : Int) (first second : Encoder) : Prop where
  table : second.table = first.table
  settings : second.settings = first.settings
  symbols : first.symbols.Moved distance second.symbols
  inside : first.symbols.Inside
  otherInside : second.symbols.Inside

section
variable {first second : Encoder} {record other : Record}

theorem Moved.instructionCode (moved : first.Moved distance second) (same : operand? other = operand? record)
    (code : String) :
    if isHexByte code ∧ ((operand? record).bind first.symbols.address?).isSome then
      AddressMoved distance (first.instructionCode record code) (second.instructionCode other code)
    else second.instructionCode other code = first.instructionCode record code := by
  have found : (operand? other).bind second.symbols.address? =
      ((operand? record).bind first.symbols.address?).map (· + distance) := by
    rw [same, Option.map_bind]
    exact congrArg _ (funext moved.symbols.address?)
  by_cases proper : isHexByte code
  · simp only [Encoder.instructionCode, proper, if_true, true_and]
    cases here : (operand? record).bind first.symbols.address? with
    | none =>
      rw [here] at found
      rw [addressField_of_unresolved here, addressField_of_unresolved found]
      simp
    | some address =>
      rw [here] at found
      obtain ⟨symbol, -, isAddress⟩ := Option.bind_eq_some_iff.mp here
      obtain ⟨otherSymbol, -, isTarget⟩ := Option.bind_eq_some_iff.mp found
      obtain ⟨value, valueIs, numeral⟩ := moved.inside symbol address isAddress
      obtain ⟨target, targetIs, otherNumeral⟩ := moved.otherInside otherSymbol (address + distance) isTarget
      rw [addressField_of_resolved here, addressField_of_resolved found]
      simp only [Option.isSome_some, if_true]
      exact ⟨_, _, _, value, target, rfl, rfl, numeral, otherNumeral, by omega⟩
  · simp [Encoder.instructionCode, proper]

/-- The code of a record does not depend on where the program stands, but for the address of its operand. -/
theorem Moved.recordCode (moved : first.Moved distance second) (recordMoved : record.Moved distance other) :
    if first.isResolved record then AddressMoved distance (first.recordCode record) (second.recordCode other)
    else second.recordCode other = first.recordCode record := by
  unfold Encoder.recordCode isResolved refersTo
  rw [moved.table, recordMoved.opcode]
  cases means : first.table.operation record.opcode with
  | unknown => simp
  | directive directive =>
    have sameOperand (notStart : directive ≠ .start) : other.operand = record.operand :=
      recordMoved.operand (ne_name_of_operation means (by simpa using notStart))
    cases directive with
    | word => simp [sameOperand (by decide)]
    | byte => simp [sameOperand (by decide)]
    | _ => simp
  | instruction code =>
    have sameOperand : operand? other = operand? record := by
      rw [operand?, operand?, recordMoved.operand (ne_name_of_operation means nofun)]
    have codes := moved.instructionCode sameOperand code
    cases operand : operand? record with
    | none =>
      rw [operand] at codes
      simpa using codes
    | some symbol =>
      rw [operand] at codes
      simpa using codes

end

end Encoder

/-- The second line is the first one, moved. -/
structure ListingLine.Moved (encoder : Encoder) (distance : Int) (first second : ListingLine) : Prop where
  record : first.record.Moved distance second.record
  /-- A code is the same unless the address of a symbol is in it. -/
  code : if encoder.isResolved first.record then AddressMoved distance first.code second.code
    else second.code = first.code

theorem ListingLine.Moved.length_eq {encoder : Encoder} {first second : ListingLine}
    (moved : first.Moved encoder distance second) : second.code.length = first.code.length := by
  have code := moved.code
  split at code
  · exact code.length_eq
  · rw [code]

theorem throughEnd_moved {first second : List Record} (moved : List.Forall₂ (Record.Moved distance) first second) :
    List.Forall₂ (Record.Moved distance) (throughEnd first) (throughEnd second) := by
  induction moved with
  | nil => exact .nil
  | cons recordMoved _ ih =>
    rw [throughEnd, throughEnd, recordMoved.opcode]
    split
    · exact .cons recordMoved .nil
    · exact .cons recordMoved ih

theorem Encoder.Moved.listing {encoder other : Encoder} {first second : List Record}
    (moved : encoder.Moved distance other) (recordsMoved : List.Forall₂ (Record.Moved distance) first second) :
    List.Forall₂ (ListingLine.Moved encoder distance) (encoder.listing first) (other.listing second) := by
  rw [Encoder.listing, Encoder.listing, List.forall₂_map_left_iff, List.forall₂_map_right_iff]
  exact (throughEnd_moved recordsMoved).imp fun _ _ recordMoved => ⟨recordMoved, moved.recordCode recordMoved⟩

/-! ### Packing -/

/-- The second fragment has as many digits as the first one, a distance away. -/
structure Fragment.Moved (distance : Int) (first second : Fragment) : Prop where
  address : second.address = first.address + distance
  length : second.code.length = first.code.length

/-- The second text record has as many fragments as the first one, each of the same length, a distance away. -/
structure TextRecord.Moved (distance : Int) (first second : TextRecord) : Prop where
  start : second.start = first.start + distance
  lengths : second.fragments.map String.length = first.fragments.map String.length

theorem ListingLine.Moved.fragment? {encoder : Encoder} {first second : ListingLine}
    (moved : first.Moved encoder distance second) :
    Option.Rel (Fragment.Moved distance) first.fragment? second.fragment? := by
  have empty : second.code.isEmpty = first.code.isEmpty := by
    rw [Bool.eq_iff_iff, String.isEmpty_iff, String.isEmpty_iff, ← String.length_eq_zero_iff,
      ← String.length_eq_zero_iff, moved.length_eq]
  rw [ListingLine.fragment?, ListingLine.fragment?, empty, moved.record.address]
  split
  · exact .none
  · cases first.record.address with
    | none => exact .none
    | some address => exact .some ⟨rfl, moved.length_eq⟩

section
variable {first second : Fragment}

theorem Fragment.Moved.size (moved : first.Moved distance second) : second.size = first.size := by
  rw [Fragment.size, Fragment.size, byteCount, byteCount, moved.length]

theorem Fragment.Moved.finish (moved : first.Moved distance second) : second.finish = first.finish + distance := by
  have start := moved.address
  rw [Fragment.finish, Fragment.finish, moved.size]
  omega

theorem Fragment.Moved.front (moved : first.Moved distance second) (bytes : Nat) :
    (first.front bytes).Moved distance (second.front bytes) := by
  refine ⟨moved.address, ?_⟩
  simp only [Fragment.front, String.length_ofList, List.length_take, String.length_toList, moved.length]

theorem Fragment.Moved.back (moved : first.Moved distance second) (bytes : Nat) :
    (first.back bytes).Moved distance (second.back bytes) := by
  have start := moved.address
  refine ⟨?_, ?_⟩
  · simp only [Fragment.back]
    omega
  · simp only [Fragment.back, String.length_ofList, List.length_drop, String.length_toList, moved.length]

end

theorem TextRecord.Moved.byteLength {first second : TextRecord} (moved : first.Moved distance second) :
    second.byteLength = first.byteLength := by
  have counted (record : TextRecord) :
      record.byteLength = (record.fragments.map String.length).foldr (· / 2 + ·) 0 := by
    rw [List.foldr_map]
    rfl
  rw [counted, counted, moved.lengths]

namespace Packing

/-- The second of two finished records is the first one, moved. -/
def Closed.Moved (distance : Int) (first second : Closed) : Prop :=
  first.record.Moved distance second.record

theorem cut_moved (capacity count : Nat) {first second : Fragment} (moved : first.Moved distance second) :
    List.Forall₂ (Closed.Moved distance) (cut capacity count first).1 (cut capacity count second).1 ∧
      (cut capacity count first).2.Moved distance (cut capacity count second).2 := by
  induction count generalizing first second with
  | zero => exact ⟨.nil, moved⟩
  | succ count ih =>
    obtain ⟨closedMoved, restMoved⟩ := ih (moved.back capacity)
    have front := moved.front capacity
    exact ⟨.cons ⟨front.address, congrArg (fun length => [length]) front.length⟩ closedMoved, restMoved⟩

section
variable {first second : Option TextRecord} (moved : Option.Rel (TextRecord.Moved distance) first second)
include moved

theorem makeRoom_moved (capacity size : Nat) :
    List.Forall₂ (Closed.Moved distance) (makeRoom capacity first size).1 (makeRoom capacity second size).1 ∧
      Option.Rel (TextRecord.Moved distance) (makeRoom capacity first size).2 (makeRoom capacity second size).2 := by
  cases moved with
  | none => exact ⟨.nil, .none⟩
  | some recordMoved =>
    simp only [makeRoom, recordMoved.byteLength]
    split
    · exact ⟨.cons recordMoved .nil, .none⟩
    · exact ⟨.nil, .some recordMoved⟩

theorem extend_moved {fragment other : Fragment} (fragmentMoved : fragment.Moved distance other) :
    (extend first fragment).Moved distance (extend second other) := by
  cases moved with
  | none => exact ⟨fragmentMoved.address, congrArg (fun length => [length]) fragmentMoved.length⟩
  | some recordMoved =>
    refine ⟨recordMoved.start, ?_⟩
    simp only [extend, List.map_append, recordMoved.lengths, List.map_cons, List.map_nil, fragmentMoved.length]

theorem add_moved (capacity : Nat) {fragment other : Fragment} (fragmentMoved : fragment.Moved distance other) :
    List.Forall₂ (Closed.Moved distance) (add capacity first fragment).1 (add capacity second other).1 ∧
      (add capacity first fragment).2.Moved distance (add capacity second other).2 := by
  simp only [add, fragmentMoved.size]
  obtain ⟨finishedMoved, roomMoved⟩ := makeRoom_moved moved capacity fragment.size
  obtain ⟨fullMoved, restMoved⟩ := cut_moved capacity (fullRecords capacity fragment.size) fragmentMoved
  exact ⟨List.rel_append finishedMoved fullMoved, extend_moved roomMoved restMoved⟩

/-- Packing makes the same decisions wherever the fragments stand. -/
theorem pack_moved (capacity : Nat) {fragments others : List Fragment}
    (fragmentsMoved : List.Forall₂ (Fragment.Moved distance) fragments others) :
    List.Forall₂ (Closed.Moved distance) (pack capacity first fragments) (pack capacity second others) := by
  induction fragmentsMoved generalizing first second with
  | nil =>
    cases moved with
    | none => exact .nil
    | some recordMoved => exact .cons recordMoved .nil
  | cons fragmentMoved _ ih =>
    obtain ⟨closedMoved, nextMoved⟩ := add_moved moved capacity fragmentMoved
    exact List.rel_append closedMoved (ih (.some nextMoved))

end

end Packing

/-! ### Programs -/

theorem max?_map_add (values : List Int) (distance : Int) :
    (values.map (· + distance)).max? = values.max?.map (· + distance) := by
  cases greatest : values.max? with
  | none => rw [List.max?_eq_none_iff.mp greatest]; rfl
  | some value =>
    rw [List.max?_eq_some_iff] at greatest
    rw [Option.map_some, List.max?_eq_some_iff, List.forall_mem_map]
    refine ⟨List.mem_map_of_mem greatest.1, ?_⟩
    intro other member
    have bound := greatest.2 other member
    omega

theorem map_finish_moved {first second : List Fragment} (moved : List.Forall₂ (Fragment.Moved distance) first second) :
    second.map Fragment.finish = (first.map Fragment.finish).map (· + distance) := by
  induction moved with
  | nil => rfl
  | cons fragmentMoved _ ih => rw [List.map_cons, List.map_cons, List.map_cons, fragmentMoved.finish, ih]

/-- The second object program is the first one, moved. -/
structure Encoding.Moved (encoder : Encoder) (distance : Int) (first second : Encoding) : Prop where
  listing : List.Forall₂ (ListingLine.Moved encoder distance) first.listing second.listing
  start : second.program.header.start = first.program.header.start + distance
  length : second.program.header.length = first.program.header.length
  texts : List.Forall₂ (TextRecord.Moved distance) first.program.texts second.program.texts
  entry : second.program.entry = first.program.entry.map (· + distance)
  ending : second.endingAddress = first.endingAddress + distance

theorem encode_moved {encoder other : Encoder} {first second : List Record} (moved : encoder.Moved distance other)
    (recordsMoved : List.Forall₂ (Record.Moved distance) first second)
    (start : Encoder.startAddress second = Encoder.startAddress first + distance) :
    (encode encoder first).Moved encoder distance (encode other second) := by
  have listing := moved.listing recordsMoved
  have fragments : List.Forall₂ (Fragment.Moved distance) ((encoder.listing first).filterMap ListingLine.fragment?)
      ((other.listing second).filterMap ListingLine.fragment?) :=
    List.rel_filterMap (fun _ _ lineMoved => lineMoved.fragment?) listing
  have finishes := map_finish_moved fragments
  have ending : (encode other second).endingAddress = (encode encoder first).endingAddress + distance := by
    simp only [encode, finishes, max?_map_add, start]
    cases ((((encoder.listing first).filterMap ListingLine.fragment?).map Fragment.finish).max?) <;> rfl
  refine ⟨listing, start, ?_, ?_, congrArg some start, ending⟩
  · change max ((encode other second).endingAddress - Encoder.startAddress second) 0 =
      max ((encode encoder first).endingAddress - Encoder.startAddress first) 0
    rw [ending, start]
    congr 1
    omega
  · rw [encode, encode, packed, packed, List.forall₂_map_left_iff, List.forall₂_map_right_iff, moved.settings]
    exact Packing.pack_moved .none encoder.settings.capacity fragments

/-- How a program changes when START puts it a distance away. -/
structure RelocationLaw (encoder : Encoder) (distance : Int) (first second : Layout) (encoding moved : Encoding) :
    Prop where
  /-- The addresses of the records move, -/
  records : List.Forall₂ (Record.Moved distance) first.records second.records
  /-- the symbols move, -/
  symbols : second.symbols.addresses = first.symbols.addresses.map fun (name, address) => (name, address + distance)
  /-- and the object program moves. -/
  encoding : encoding.Moved encoder distance moved

section
variable {settings : Settings} {table : OpcodeTable}

theorem layOut_inside (statements : List Statement) : (layOut settings table statements).symbols.Inside :=
  fun _ _ => layOut_address_numeral

theorem layOut_startAddress {start : Statement} {rest : List Statement} {address : Nat}
    (isStart : start.opcode = Directive.start.name) (operand : Operand.startAddress start.operand = .ok address)
    (complete : (layOut settings table (start :: rest)).aborted = false) :
    Encoder.startAddress (layOut settings table (start :: rest)).records = address := by
  obtain ⟨record, after, placed, -, records, -⟩ := Layout.run_cons_complete settings table complete
  obtain ⟨rfl, -⟩ := placed.start_address isStart operand
  rw [layOut, Layout.ofRun, records]
  exact startAddress_cons _ isStart

end

/-- Two programs that differ in their START statements only are one program at two places, as far as
    both of them can be laid out. -/
theorem program_relocationLaw (settings : Settings) (table : OpcodeTable) (file : String) (warnUnknown : Bool)
    (first second : Statement) (rest : List Statement) (address target : Nat)
    (isStart : first.opcode = Directive.start.name) (otherIsStart : second.opcode = Directive.start.name)
    (noStart : ∀ statement ∈ rest, statement.opcode ≠ Directive.start.name)
    (operand : Operand.startAddress first.operand = .ok address)
    (otherOperand : Operand.startAddress second.operand = .ok target)
    (complete : (layOut settings table (first :: rest)).aborted = false)
    (otherComplete : (layOut settings table (second :: rest)).aborted = false) :
    RelocationLaw (programEncoder settings table (first :: rest) file warnUnknown) (target - address)
      (layOut settings table (first :: rest)) (layOut settings table (second :: rest))
      (encode (programEncoder settings table (first :: rest) file warnUnknown)
        (layOut settings table (first :: rest)).records)
      (encode (programEncoder settings table (second :: rest) file warnUnknown)
        (layOut settings table (second :: rest)).records) := by
  obtain ⟨records, symbols⟩ := layOut_moved isStart otherIsStart noStart operand otherOperand complete otherComplete
  refine ⟨records, symbols.addresses, encode_moved ⟨rfl, rfl, symbols, layOut_inside _, layOut_inside _⟩ records ?_⟩
  rw [layOut_startAddress isStart operand complete, layOut_startAddress otherIsStart otherOperand otherComplete]
  omega

private def startAt (operand : String) : Statement :=
  { line := 1, text := " START " ++ operand, opcode := "START", operand := some operand }

/-- A program with a reference forwards, one backwards, one to a symbol that is not defined, and a
    constant that is longer than a text record. -/
private def movable : List Statement :=
  [{ line := 2, text := "LOOP LDA FAR", label := some "LOOP", opcode := "LDA", operand := some "FAR" },
    { line := 3, text := " BYTE C'constant'", opcode := "BYTE", operand := some "C'constant'" },
    { line := 4, text := " RESB 4096", opcode := "RESB", operand := some "4096" },
    { line := 5, text := "FAR LDA LOOP", label := some "FAR", opcode := "LDA", operand := some "LOOP" },
    { line := 6, text := " LDA NONE", opcode := "LDA", operand := some "NONE" },
    { line := 7, text := " END", opcode := "END" }]

theorem program_relocationLaw_split :
    let settings : Settings := { capacity := 5 }
    let table : OpcodeTable := ⟨⟨[("LDA", "0c")]⟩⟩
    let first := layOut settings table (startAt "10" :: movable)
    let second := layOut settings table (startAt "efd0" :: movable)
    let encoder := programEncoder settings table (startAt "10" :: movable) "<input>" false
    let other := programEncoder settings table (startAt "efd0" :: movable) "<input>" false
    (encode encoder first.records).codes = ["", "0C101B", "636F6E7374616E74", "", "0C0010", "0C", ""] ∧
      (encode other second.records).codes = ["", "0CFFDB", "636F6E7374616E74", "", "0CEFD0", "0C", ""] ∧
      RelocationLaw encoder 0xEFC0 first second (encode encoder first.records) (encode other second.records) :=
  ⟨by decide +kernel, by decide +kernel,
    program_relocationLaw { capacity := 5 } ⟨⟨[("LDA", "0c")]⟩⟩ "<input>" false (startAt "10") (startAt "efd0") movable
      0x10 0xEFD0 rfl rfl (by decide +kernel) (by decide +kernel) (by decide +kernel) (by decide +kernel)
      (by decide +kernel)⟩

end TwoPass
