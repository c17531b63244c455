import Mathlib.Data.List.Chain
import TwoPass.Proofs.Attribution
import TwoPass.Proofs.Listing

/-!
The text records of a program. `Fills` lists what packing does with one fragment, and
every law of the records is an induction over it: the shares divide the codes
(`Fills.divides`), records are neither empty nor too long (`Fills.bounded`), and none
could have taken what opens the next (`Fills.greedy`). Together they are the law of the
records of an encoding (`PackingLaw`).
-/
namespace TwoPass

open Text

namespace Packing

/-- The shares of a fragment that opens a record: as many full ones as leave at least one byte. -/
structure Pieces (capacity : Nat) (fragment : Fragment) (full : List Share) (final : Share) : Prop where
  divided : ∃ codes, full ++ [final] = Share.sequence fragment 0 codes ∧ String.join codes = fragment.code ∧ "" ∉ codes
  full : ∀ share ∈ full, share.code.length = 2 * capacity
  bounds : 1 ≤ final.size ∧ final.size ≤ capacity
  /-- The last share ends where the fragment ends. -/
  ends : 2 * final.offset + final.code.length = fragment.code.length

/-- The portions that fragments fill, behind an open one. -/
inductive Fills (capacity : Nat) : Option Portion → List Fragment → List Portion → Prop
  | empty : Fills capacity none [] []
  | last {portion : Portion} : Fills capacity (some portion) [] [portion]
  /-- A fragment joins the open portion if there is room for it. -/
  | joins {portion : Portion} {fragment : Fragment} {rest : List Fragment} {portions : List Portion}
      (positive : 0 < fragment.size) (room : portion.size + fragment.size ≤ capacity)
      (later : Fills capacity (some (portion.add (.whole fragment))) rest portions) :
      Fills capacity (some portion) (fragment :: rest) portions
  /-- Otherwise it closes the open portion, and its last share opens the next. -/
  | opens {current : Option Portion} {fragment : Fragment} {rest : List Fragment} {full : List Share} {final : Share}
      {portions : List Portion} (noRoom : ∀ portion ∈ current, capacity < portion.size + fragment.size)
      (pieces : Pieces capacity fragment full final) (later : Fills capacity (some (.single final)) rest portions) :
      Fills capacity current (fragment :: rest) (current.toList ++ full.map Portion.single ++ portions)

theorem byteCount_of_length {code : String} {bytes : Nat} (length : code.length = 2 * bytes) : byteCount code = bytes := by
  rw [byteCount, length]
  omega

theorem Pieces.size_full {capacity : Nat} {fragment : Fragment} {full : List Share} {final : Share}
    (pieces : Pieces capacity fragment full final) {share : Share} (member : share ∈ full) : share.size = capacity :=
  byteCount_of_length (pieces.full share member)

theorem Pieces.ends_size {capacity : Nat} {fragment : Fragment} {full : List Share} {final : Share}
    (pieces : Pieces capacity fragment full final) : final.offset + final.size = fragment.size := by
  have ends := pieces.ends
  simp only [Share.size, Fragment.size, byteCount]
  omega

theorem Pieces.owner_eq {capacity : Nat} {fragment : Fragment} {full : List Share} {final : Share}
    (pieces : Pieces capacity fragment full final) {share : Share} (member : share ∈ full ++ [final]) :
    share.owner = fragment := by
  obtain ⟨codes, parts, -, -⟩ := pieces.divided
  rw [parts] at member
  exact Share.owner_of_mem_sequence member

theorem ne_empty_of_byteCount {code : String} (positive : 0 < byteCount code) : code ≠ "" := by
  rintro rfl
  exact absurd positive (by decide)

theorem front_append_back (bytes : Nat) (fragment : Fragment) :
    (fragment.front bytes).code ++ (fragment.back bytes).code = fragment.code := by
  rw [Fragment.front, Fragment.back, ← String.ofList_append, List.take_append_drop, String.ofList_toList]

theorem length_front {bytes : Nat} {fragment : Fragment} (long : bytes ≤ fragment.size) :
    (fragment.front bytes).code.length = 2 * bytes := by
  simp only [Fragment.size, byteCount] at long
  simp only [Fragment.front, String.length_ofList, List.length_take, String.length_toList]
  omega

theorem length_back (bytes : Nat) (fragment : Fragment) :
    (fragment.back bytes).code.length = fragment.code.length - 2 * bytes := by
  simp only [Fragment.back, String.length_ofList, List.length_drop, String.length_toList]

/-- Cutting goes on where it has arrived in the code of `owner`. -/
theorem cut_sequence (owner : Fragment) (capacity count offset : Nat) (fragment : Fragment)
    (stands : fragment.address = owner.address + offset) (long : count * capacity < fragment.size) :
    ∃ codes last,
      (cut capacity count fragment).1.map Closed.record =
          ((Share.sequence owner offset codes).map Portion.single).map Portion.record ∧
        (cut capacity count fragment).2 = ⟨owner.address + (offset + count * capacity : Nat), last⟩ ∧
        Share.total (Share.sequence owner offset codes) = count * capacity ∧
        (∀ code ∈ codes, code.length = 2 * capacity) ∧ String.join codes ++ last = fragment.code ∧
        2 * (count * capacity) + last.length = fragment.code.length := by
  induction count generalizing offset fragment with
  | zero =>
    refine ⟨[], fragment.code, rfl, ?_, ?_, nofun, ?_, ?_⟩
    · rw [cut, Nat.zero_mul, Nat.add_zero, ← stands]
    · rw [Nat.zero_mul]; rfl
    · rw [String.join_nil, String.empty_append]
    · rw [Nat.zero_mul, Nat.mul_zero, Nat.zero_add]
  | succ count ih =>
    rw [Nat.succ_mul] at long ⊢
    have frontLength : (fragment.front capacity).code.length = 2 * capacity := length_front (by omega)
    have frontSize := byteCount_of_length frontLength
    have backLength := length_back capacity fragment
    have backStands : (fragment.back capacity).address = owner.address + (offset + capacity : Nat) := by
      simp only [Fragment.back, stands]
      omega
    obtain ⟨codes, last, closed, rest, size, full, joined, left⟩ := ih (offset + capacity) (fragment.back capacity)
      backStands (by simp only [Fragment.size, byteCount] at long ⊢; omega)
    simp only [Fragment.size, byteCount] at long
    refine ⟨(fragment.front capacity).code :: codes, last, ?_, ?_, ?_, ?_, ?_, by omega⟩
    · simp only [cut, List.map_cons, closed, Share.sequence, frontSize]
      rw [show (fragment.front capacity).address = owner.address + offset from stands]
      rfl
    · simp only [cut, rest]
      rw [show offset + capacity + count * capacity = offset + (count * capacity + capacity) by omega]
    · simp only [Share.sequence, Share.total_cons, Share.size, frontSize, size]
      omega
    · simpa [frontLength] using full
    · rw [String.join_cons, String.append_assoc, joined, front_append_back]

/-- A fragment is cut into full records and what is left. -/
theorem cut_pieces {capacity : Nat} {fragment : Fragment} (room : 0 < capacity) (positive : 0 < fragment.size) :
    ∃ full final, Pieces capacity fragment full final ∧
      (cut capacity (fullRecords capacity fragment.size) fragment).1.map Closed.record =
        (full.map Portion.single).map Portion.record ∧
      (cut capacity (fullRecords capacity fragment.size) fragment).2 = ⟨final.listed, final.code⟩ := by
  -- As many full records as leave a byte, and no fewer than leave at most a record.
  have count : fullRecords capacity fragment.size * capacity < fragment.size ∧
      fragment.size ≤ fullRecords capacity fragment.size * capacity + capacity := by
    have division := Nat.div_add_mod (fragment.size - 1) capacity
    have remainder := Nat.mod_lt (fragment.size - 1) room
    rw [Nat.mul_comm] at division
    rw [fullRecords]
    omega
  obtain ⟨codes, last, closed, rest, size, full, joined, left⟩ :=
    cut_sequence fragment capacity (fullRecords capacity fragment.size) 0 fragment (by simp) count.1
  have leftSize : fullRecords capacity fragment.size * capacity + byteCount last = fragment.size := by
    simp only [Fragment.size, byteCount] at left ⊢
    omega
  refine ⟨Share.sequence fragment 0 codes, ⟨fragment, fullRecords capacity fragment.size * capacity, last⟩,
    ⟨⟨codes ++ [last], ?_, ?_, ?_⟩, ?_, ?_, left⟩, closed, ?_⟩
  · rw [Share.sequence_append, size, Nat.zero_add]
    rfl
  · rw [String.join_append, String.join_cons, String.join_nil, String.append_empty, joined]
  · intro empty
    have positive : 0 < "".length := by
      rcases List.mem_append.mp empty with front | final
      · rw [full "" front]
        omega
      · have nothing : byteCount last = 0 := by rw [← List.mem_singleton.mp final]; rfl
        omega
    exact absurd positive (by decide)
  · intro share member
    have listed : share.code ∈ (Share.sequence fragment 0 codes).map Share.code := List.mem_map_of_mem member
    rw [Share.map_code_sequence] at listed
    exact full share.code listed
  · simp only [Share.size]
    omega
  · rw [rest, Nat.zero_add]
    rfl

/-- A fragment for which there is room becomes one more share of the open record. -/
theorem add_of_room {capacity : Nat} {portion : Portion} {fragment : Fragment} (positive : 0 < fragment.size)
    (room : portion.size + fragment.size ≤ capacity) :
    add capacity (some portion.record) fragment = ([], (portion.add (.whole fragment)).record) := by
  have fits : ¬ capacity < portion.record.byteLength + fragment.size := by
    rw [Portion.byteLength_record]
    omega
  have uncut : fullRecords capacity fragment.size = 0 := Nat.div_eq_of_lt (by omega)
  simp only [add, makeRoom, fits, if_false, uncut, cut, List.append_nil, extend, Portion.record_add]
  rfl

/-- A fragment for which there is no room closes the open record and is cut into new ones. -/
theorem add_of_no_room {capacity : Nat} {current : Option Portion} {fragment : Fragment}
    (noRoom : ∀ portion ∈ current, capacity < portion.size + fragment.size) :
    add capacity (current.map Portion.record) fragment =
      ((current.map fun portion => Closed.mk portion.record false).toList ++
          (cut capacity (fullRecords capacity fragment.size) fragment).1,
        extend none (cut capacity (fullRecords capacity fragment.size) fragment).2) := by
  cases current with
  | none => rfl
  | some portion =>
    have full : capacity < portion.record.byteLength + fragment.size := by
      rw [Portion.byteLength_record]
      exact noRoom portion rfl
    simp only [add, makeRoom, Option.map_some, full, if_true]
    rfl

/-- Packing fills portions. -/
theorem pack_fills {capacity : Nat} (room : 0 < capacity) (current : Option Portion) (fragments : List Fragment)
    (positive : ∀ fragment ∈ fragments, 0 < fragment.size) :
    ∃ portions, Fills capacity current fragments portions ∧
      (pack capacity (current.map Portion.record) fragments).map Closed.record = portions.map Portion.record := by
  induction fragments generalizing current with
  | nil =>
    cases current with
    | none => exact ⟨[], .empty, rfl⟩
    | some portion => exact ⟨[portion], .last, rfl⟩
  | cons fragment rest ih =>
    have here := positive fragment List.mem_cons_self
    have later := fun next => ih next fun other member => positive other (List.mem_cons_of_mem fragment member)
    by_cases joins : ∃ portion, current = some portion ∧ portion.size + fragment.size ≤ capacity
    · obtain ⟨portion, rfl, room⟩ := joins
      obtain ⟨portions, fills, records⟩ := later (some (portion.add (.whole fragment)))
      refine ⟨portions, .joins here room fills, ?_⟩
      simp only [pack, Option.map_some, add_of_room here room, List.nil_append]
      exact records
    · have noRoom : ∀ portion ∈ current, capacity < portion.size + fragment.size := by
        intro portion isOpen
        by_contra fits
        exact joins ⟨portion, isOpen, by omega⟩
      obtain ⟨full, final, pieces, closed, left⟩ := cut_pieces room here
      obtain ⟨portions, fills, records⟩ := later (some (.single final))
      refine ⟨_, .opens noRoom pieces fills, ?_⟩
      simp only [pack, add_of_no_room noRoom, left, List.map_append, closed]
      rw [show pack capacity (some (extend none ⟨final.listed, final.code⟩)) rest =
        pack capacity ((some (Portion.single final)).map Portion.record) rest from rfl, records]
      cases current <;> rfl

/-! ### What filling keeps -/

section
variable {capacity : Nat} {current : Option Portion} {fragments : List Fragment} {portions : List Portion}

/-- Every share comes from the open portion or is a part of a fragment, in order. -/
theorem Fills.divides (fills : Fills capacity current fragments portions) :
    ∃ shares, portions.flatMap Portion.shares = current.toList.flatMap Portion.shares ++ shares ∧
      Share.Divide fragments shares := by
  induction fills with
  | empty => exact ⟨[], rfl, .nil⟩
  | last => exact ⟨[], by simp, .nil⟩
  | @joins portion fragment rest portions positive _ _ ih =>
    obtain ⟨shares, all, divide⟩ := ih
    have nonempty : "" ∉ [fragment.code] := fun empty =>
      ne_empty_of_byteCount positive (List.mem_singleton.mp empty).symm
    refine ⟨Share.sequence fragment 0 [fragment.code] ++ shares, ?_, .cons (by simp [String.join_cons]) nonempty divide⟩
    rw [all]
    simp [Share.sequence, Share.whole]
  | @opens current fragment rest full final portions _ pieces _ ih =>
    obtain ⟨shares, all, divide⟩ := ih
    obtain ⟨codes, parts, joined, nonempty⟩ := pieces.divided
    refine ⟨Share.sequence fragment 0 codes ++ shares, ?_, .cons joined nonempty divide⟩
    rw [List.flatMap_append, List.flatMap_append, Portion.flatMap_shares_single, all, ← parts]
    simp

/-- What holds of every portion: it holds of each share that is cut to fill a record, and
    whatever holds of the open portion is kept when a fragment joins and implies it. -/
theorem Fills.invariant (allowed : Fragment → Prop) (opened : Portion → Prop) {finished : Portion → Prop}
    (closes : ∀ portion, opened portion → finished portion)
    (joins : ∀ portion fragment, allowed fragment → portion.size + fragment.size ≤ capacity → opened portion →
      opened (portion.add (.whole fragment)))
    (cuts : ∀ fragment full final, allowed fragment → Pieces capacity fragment full final →
      (∀ share ∈ full, finished (.single share)) ∧ opened (.single final))
    (fills : Fills capacity current fragments portions) (all : ∀ fragment ∈ fragments, allowed fragment)
    (start : ∀ portion ∈ current, opened portion) : ∀ portion ∈ portions, finished portion := by
  induction fills with
  | empty => nofun
  | @last portion => simpa using closes portion (start portion rfl)
  | @joins portion fragment rest portions _ room _ ih =>
    refine ih (fun other member => all other (List.mem_cons_of_mem fragment member)) ?_
    rintro _ ⟨⟩
    exact joins portion fragment (all fragment List.mem_cons_self) room (start portion rfl)
  | @opens current fragment rest full final portions _ pieces _ ih =>
    obtain ⟨cut, left⟩ := cuts fragment full final (all fragment List.mem_cons_self) pieces
    intro portion member
    rcases List.mem_append.mp member with front | later
    · rcases List.mem_append.mp front with isOpen | isFull
      · exact closes portion (start portion (by simpa using isOpen))
      · obtain ⟨share, isCut, rfl⟩ := List.mem_map.mp isFull
        exact cut share isCut
    · refine ih (fun other member => all other (List.mem_cons_of_mem fragment member)) ?_ portion later
      rintro _ ⟨⟩
      exact left

/-- No record is empty, and none exceeds the capacity. -/
theorem Fills.bounded (fills : Fills capacity none fragments portions) :
    ∀ portion ∈ portions, 1 ≤ portion.size ∧ portion.size ≤ capacity := by
  refine fills.invariant (fun _ => True) (fun portion => 1 ≤ portion.size ∧ portion.size ≤ capacity)
    (fun _ bounds => bounds) ?_ ?_ (fun _ _ => trivial) nofun
  · intro portion fragment _ room bounds
    have wholeSize : (Share.whole fragment).size = fragment.size := rfl
    rw [Portion.size_add, wholeSize]
    omega
  · intro fragment full final _ pieces
    have bounds := pieces.bounds
    refine ⟨fun share member => ?_, bounds⟩
    rw [Portion.size_single, pieces.size_full member]
    omega

/-- The open portion is extended, not replaced. -/
theorem Fills.head {portion : Portion} (fills : Fills capacity (some portion) fragments portions) :
    ∃ others rest, portions = ⟨portion.opening, others⟩ :: rest := by
  generalize start : some portion = current at fills
  induction fills generalizing portion with
  | empty => contradiction
  | last =>
    obtain rfl := Option.some.inj start
    exact ⟨_, [], rfl⟩
  | @joins _ fragment _ _ _ _ _ ih =>
    obtain rfl := Option.some.inj start
    exact @ih (portion.add (.whole fragment)) rfl
  | opens =>
    subst start
    exact ⟨_, _, rfl⟩

/-- A portion could not have taken what opens the next one. -/
def Tight (capacity : Nat) (first second : Portion) : Prop :=
  capacity < first.size + second.opening.owner.size

/-- Packing is greedy. -/
theorem Fills.greedy (fills : Fills capacity current fragments portions) : portions.IsChain (Tight capacity) := by
  induction fills with
  | empty => exact .nil
  | last => exact .singleton _
  | joins _ _ _ ih => exact ih
  | @opens current fragment rest full final portions noRoom pieces later ih =>
    obtain ⟨others, behind, rfl⟩ := later.head
    have positive : 0 < fragment.size := by
      have ends := pieces.ends_size
      have bounds := pieces.bounds
      omega
    -- Whatever precedes a share of the fragment has no room for the whole fragment.
    have tight : ∀ share ∈ full ++ [final], ∀ (others : List Share), ∀ earlier ∈ current.toList ++ full.map Portion.single,
        Tight capacity earlier ⟨share, others⟩ := by
      intro share member others earlier front
      simp only [Tight, pieces.owner_eq member]
      rcases List.mem_append.mp front with isOpen | isFull
      · exact noRoom earlier (by simpa using isOpen)
      · obtain ⟨cut, isCut, rfl⟩ := List.mem_map.mp isFull
        rw [Portion.size_single, pieces.size_full isCut]
        omega
    have fullTight : (full.map Portion.single).IsChain (Tight capacity) := by
      apply List.Pairwise.isChain
      apply List.pairwise_of_forall_mem_list
      intro earlier isFull next isNext
      obtain ⟨share, cut, rfl⟩ := List.mem_map.mp isNext
      exact tight share (List.mem_append_left _ cut) [] earlier (List.mem_append_right _ isFull)
    refine List.isChain_append.mpr ⟨List.isChain_append.mpr ⟨?_, fullTight, ?_⟩, ih, ?_⟩
    · cases current with
      | none => exact .nil
      | some portion => exact .singleton _
    · intro earlier isOpen next isNext
      obtain ⟨share, cut, rfl⟩ := List.mem_map.mp (List.mem_of_mem_head? isNext)
      exact tight share (List.mem_append_left _ cut) [] earlier (List.mem_append_left _ (List.mem_of_getLast? isOpen))
    · intro earlier front next isNext
      obtain rfl := Option.some.inj isNext
      exact tight final (by simp) others earlier (List.mem_of_getLast? front)

end

end Packing

/-! ### The records of an encoding -/

/-- Every code has at least one byte, whatever the symbols are. -/
theorem Encoder.recordCode_positive {encoder : Encoder} {record : Record} (bearing : encoder.recordCode record ≠ "") :
    0 < byteCount (encoder.recordCode record) := by
  revert bearing
  unfold recordCode
  cases encoder.table.operation record.opcode with
  | unknown => simp
  | instruction code =>
    simp only [instructionCode]
    by_cases proper : isHexByte code
    · intro _
      have length := (isHexByte_spells proper).length
      simp only [proper, if_true, byteCount, String.length_append, length]
      omega
    · simp [proper]
  | directive directive =>
    cases directive with
    | word =>
      cases Operand.word record.operand with
      | error fault => simp [Except.toOption]
      | ok value =>
        intro _
        simp [Except.toOption, (Operand.wordCode_spells value).byteCount]
    | byte =>
      cases operand : Operand.byteCode record.operand with
      | error fault => simp [Except.toOption]
      | ok constant =>
        intro _
        obtain ⟨bytes, positive, spells⟩ := Operand.byteCode_spells operand
        simp [Except.toOption, spells.byteCount, positive]
    | _ => simp

theorem encode_fragments_positive (encoder : Encoder) (records : List Record) :
    ∀ fragment ∈ (encode encoder records).listing.filterMap ListingLine.fragment?, 0 < fragment.size := by
  intro fragment member
  obtain ⟨line, listed, found⟩ := List.mem_filterMap.mp member
  obtain ⟨bearing, -, code⟩ := ListingLine.fragment?_eq_some_iff.mp found
  rw [(Encoder.mem_listing listed).2] at bearing code
  rw [Fragment.size, code]
  exact Encoder.recordCode_positive bearing

/-- The text records of an encoding have an attribution to its lines in which packing is
    greedy and no record is empty or too long. -/
theorem encode_fills (encoder : Encoder) (records : List Record) :
    ∃ portions, Packing.Fills encoder.settings.capacity none
        ((encode encoder records).listing.filterMap ListingLine.fragment?) portions ∧
      Attribution ((encode encoder records).listing.filterMap ListingLine.fragment?) (encode encoder records).program.texts
        portions := by
  obtain ⟨portions, fills, texts⟩ := Packing.pack_fills encoder.settings.capacity_pos none _
    (encode_fragments_positive encoder records)
  obtain ⟨shares, all, divide⟩ := fills.divides
  refine ⟨portions, fills, texts, ?_⟩
  rw [all]
  exact divide

/-- Lines without a code add nothing to the code of the lines that have an address. -/
theorem join_fragments (listing : List ListingLine) :
    String.join ((listing.filterMap ListingLine.fragment?).map Fragment.code) =
      String.join ((listing.filter (·.record.address.isSome)).map ListingLine.code) := by
  induction listing with
  | nil => rfl
  | cons line rest ih =>
    cases addressed : line.record.address with
    | none =>
      have absent : line.fragment? = none := by simp [ListingLine.fragment?, addressed]
      rw [List.filterMap_cons_none absent, ih, List.filter_cons_of_neg (by simp [addressed])]
    | some address =>
      rw [List.filter_cons_of_pos (by simp [addressed]), List.map_cons, String.join_cons, ← ih]
      by_cases empty : line.code = ""
      · have absent : line.fragment? = none := by simp [ListingLine.fragment?, empty]
        rw [List.filterMap_cons_none absent, empty, String.empty_append]
      · have found : line.fragment? = some ⟨address, line.code⟩ :=
          ListingLine.fragment?_eq_some_iff.mpr ⟨empty, addressed, rfl⟩
        rw [List.filterMap_cons_some found, List.map_cons, String.join_cons]

/-- How the text records of an encoding follow from its listing. -/
structure PackingLaw (capacity : Nat) (encoding : Encoding) : Prop where
  /-- The fragments of all records join to the codes of the lines that have an address. -/
  joined : String.join (encoding.program.texts.map TextRecord.code) =
    String.join ((encoding.listing.filter (·.record.address.isSome)).map ListingLine.code)
  /-- No record is empty, and none has more bytes than the capacity. -/
  bounded : ∀ record ∈ encoding.program.texts, 1 ≤ record.byteLength ∧ record.byteLength ≤ capacity
  /-- Every fragment belongs to a line, every record starts where the line of its first
      fragment has the bytes that are not in earlier records, and no record could have
      taken the whole code of the line that opens the next. -/
  attributed : ∃ portions,
    Attribution (encoding.listing.filterMap ListingLine.fragment?) encoding.program.texts portions ∧
      ∀ front first second back, portions = front ++ first :: second :: back →
        capacity < first.record.byteLength + second.opening.owner.size

/-- The encoder with another capacity of text records. -/
def Encoder.withCapacity (encoder : Encoder) (capacity : Nat) (positive : 0 < capacity) (bounded : capacity ≤ 255) :
    Encoder :=
  { encoder with
    settings := { encoder.settings with capacity, capacity_pos := positive, capacity_le := bounded } }

/-- The code in the text records, the header and the end record are the same. -/
structure SameProgram (first second : ObjectProgram) : Prop where
  code : String.join (first.texts.map TextRecord.code) = String.join (second.texts.map TextRecord.code)
  header : first.header = second.header
  entry : first.entry = second.entry

theorem encode_joined (encoder : Encoder) (records : List Record) :
    String.join ((encode encoder records).program.texts.map TextRecord.code) =
      String.join (((encode encoder records).listing.filter (·.record.address.isSome)).map ListingLine.code) := by
  obtain ⟨portions, -, attribution⟩ := encode_fills encoder records
  rw [← join_fragments, ← attribution.divide.join, attribution.records, Portion.join_records]

/-- Packing loses nothing and doubles nothing, and the capacity decides only where one
    text record ends and the next begins. -/
theorem encode_packingLaw (encoder : Encoder) (records : List Record) :
    PackingLaw encoder.settings.capacity (encode encoder records) ∧
      ∀ (capacity : Nat) (positive : 0 < capacity) (bounded : capacity ≤ 255),
        SameProgram (encode (encoder.withCapacity capacity positive bounded) records).program
          (encode encoder records).program := by
  obtain ⟨portions, fills, attribution⟩ := encode_fills encoder records
  refine ⟨⟨encode_joined encoder records, ?_, portions, attribution, ?_⟩, ?_⟩
  · intro record member
    rw [attribution.records] at member
    obtain ⟨portion, isPortion, rfl⟩ := List.mem_map.mp member
    rw [Portion.byteLength_record]
    exact fills.bounded portion isPortion
  · rintro front first second back rfl
    rw [Portion.byteLength_record]
    exact (List.isChain_append_cons_cons.mp fills.greedy).2.1
  · intro capacity positive bounded
    refine ⟨?_, rfl, rfl⟩
    rw [encode_joined, encode_joined]
    rfl

/-- Records with a constant that is cut, reserved storage and code without an address. -/
private def constants : List Record :=
  [{ address := some 0, opcode := "WORD", operand := some "1" },
    { address := some 3, opcode := "BYTE", operand := some "X'0102030405'" },
    { address := none, opcode := "WORD", operand := some "7" },
    { address := some 8, opcode := "RESW", operand := some "4" },
    { address := some 20, opcode := "WORD", operand := some "2" }]

theorem encode_packingLaw_cut :
    (encode { symbols := {}, table := {}, settings := { capacity := 4 } } constants).program.texts =
      [⟨0, ["000001"]⟩, ⟨3, ["01020304"]⟩, ⟨7, ["05", "000002"]⟩] ∧
    PackingLaw 4 (encode { symbols := {}, table := {}, settings := { capacity := 4 } } constants) ∧
    SameProgram
      (encode (Encoder.withCapacity { symbols := {}, table := {}, settings := { capacity := 4 } } 255 (by decide) (by decide))
        constants).program
      (encode { symbols := {}, table := {}, settings := { capacity := 4 } } constants).program :=
  have law := encode_packingLaw { symbols := {}, table := {}, settings := { capacity := 4 } } constants
  ⟨by decide +kernel, law.1, law.2 255 (by decide) (by decide)⟩

end TwoPass
