import TwoPass.Proofs.CodeSizes
import TwoPass.Proofs.TextRecords

/-!
The extent of a program. Where statements lie apart and in order, a text record ends in
front of the end of some statement, since packing only closes gaps (`Attribution.reach`).
In a program whose only START is its first statement the lines with code do lie so, at or
behind the start address (`program_apart`, `program_fragment_inside`), and the header spans
from there to the end of the last of them (`ExtentLaw`).
-/
namespace TwoPass

namespace Share

/-- One share ends in front of another where they are listed. -/
def Before (first second : Share) : Prop :=
  first.listed + first.size ≤ second.listed

theorem sequence_within {owner : Fragment} {offset : Nat} {codes : List String} {share : Share}
    (member : share ∈ sequence owner offset codes) :
    offset ≤ share.offset ∧ share.offset + share.size ≤ offset + byteCount (String.join codes) := by
  induction codes generalizing offset with
  | nil => contradiction
  | cons code rest ih =>
    simp only [String.join_cons, byteCount, String.length_append]
    rcases List.mem_cons.mp member with rfl | later
    · simp only [size, byteCount]
      omega
    · have within := ih later
      simp only [byteCount] at within
      omega

theorem sequence_ordered (owner : Fragment) (offset : Nat) (codes : List String) :
    (sequence owner offset codes).Pairwise Before := by
  induction codes generalizing offset with
  | nil => exact .nil
  | cons code rest ih =>
    refine .cons ?_ (ih _)
    intro later member
    have within := (sequence_within member).1
    have same := owner_of_mem_sequence member
    simp only [Before, listed, size, same]
    omega

/-- Every share lies within the code of its statement. -/
theorem Divide.within {owners : List Fragment} {shares : List Share} (divide : Divide owners shares) :
    ∀ share ∈ shares, share.owner ∈ owners ∧ share.offset + share.size ≤ share.owner.size := by
  induction divide with
  | nil => nofun
  | cons joined _ _ ih =>
    intro share member
    rcases List.mem_append.mp member with here | later
    · have within := (sequence_within here).2
      rw [owner_of_mem_sequence here]
      rw [joined, Nat.zero_add] at within
      exact ⟨List.mem_cons_self, within⟩
    · obtain ⟨owned, within⟩ := ih share later
      exact ⟨List.mem_cons_of_mem _ owned, within⟩

/-- The shares of statements that lie apart lie apart. -/
theorem Divide.ordered {owners : List Fragment} {shares : List Share} (divide : Divide owners shares)
    (apart : owners.Pairwise Fragment.Before) :
    shares.Pairwise Before := by
  induction divide with
  | nil => exact .nil
  | @cons owner owners codes shares joined _ others ih =>
    obtain ⟨later, apart⟩ := List.pairwise_cons.mp apart
    refine List.pairwise_append.mpr ⟨sequence_ordered owner 0 codes, ih apart, ?_⟩
    intro first isFirst second isSecond
    have within := (sequence_within isFirst).2
    have behind := later second.owner (others.within second isSecond).1
    rw [joined] at within
    simp only [Fragment.Before, Fragment.finish, Fragment.size] at behind
    simp only [Before, listed, owner_of_mem_sequence isFirst]
    omega

/-- Shares that lie apart take no more room when gaps are closed. -/
theorem exists_reach (first : Share) (rest : List Share)
    (ordered : (first :: rest).Pairwise Before) :
    ∃ last ∈ first :: rest, first.listed + total (first :: rest) ≤ last.listed + last.size := by
  induction rest generalizing first with
  | nil => exact ⟨first, List.mem_cons_self, by simp⟩
  | cons second rest ih =>
    obtain ⟨later, ordered⟩ := List.pairwise_cons.mp ordered
    obtain ⟨last, member, reach⟩ := ih second ordered
    have next : first.listed + first.size ≤ second.listed := later second List.mem_cons_self
    refine ⟨last, List.mem_cons_of_mem first member, ?_⟩
    rw [total_cons]
    omega

end Share

/-- A text record of statements that lie apart starts at or behind one of them, and ends
    at or in front of the end of one. -/
theorem Attribution.reach {owners : List Fragment} {texts : List TextRecord} {portions : List Portion}
    (attribution : Attribution owners texts portions) (apart : owners.Pairwise Fragment.Before) :
    ∀ record ∈ texts, ∃ first ∈ owners, ∃ last ∈ owners,
      first.address ≤ record.start ∧ record.start + record.byteLength ≤ last.finish := by
  intro record member
  rw [attribution.records] at member
  obtain ⟨portion, isPortion, rfl⟩ := List.mem_map.mp member
  have isShare : ∀ share ∈ portion.shares, share ∈ portions.flatMap Portion.shares := fun share here =>
    List.mem_flatMap.mpr ⟨portion, isPortion, here⟩
  have ordered := (attribution.divide.ordered apart).sublist (List.sublist_flatten_of_mem (List.mem_map_of_mem isPortion))
  obtain ⟨last, isLast, reach⟩ := Share.exists_reach portion.opening portion.others ordered
  obtain ⟨firstOwned, -⟩ := attribution.divide.within portion.opening (isShare _ List.mem_cons_self)
  obtain ⟨lastOwned, within⟩ := attribution.divide.within last (isShare _ isLast)
  refine ⟨_, firstOwned, _, lastOwned, ?_, ?_⟩
  · simp only [Portion.record, Share.listed]
    omega
  · rw [Portion.byteLength_record]
    simp only [Fragment.finish, Share.listed] at reach ⊢
    exact Int.le_trans reach (by omega)

theorem filterMap_fragment?_eq_nil {listing : List ListingLine} (codeless : ∀ line ∈ listing, line.code = "") :
    listing.filterMap ListingLine.fragment? = [] :=
  List.filterMap_eq_nil_iff.mpr fun line member => by simp [ListingLine.fragment?, codeless line member]

/-- Of statements that lie apart, the last ends last. -/
theorem finish_le_last {front : List Fragment} {last : Fragment} (apart : (front ++ [last]).Pairwise Fragment.Before) :
    ∀ fragment ∈ front ++ [last], fragment.finish ≤ last.finish := by
  intro fragment member
  rcases List.mem_append.mp member with isFront | isLast
  · have before := (List.pairwise_append.mp apart).2.2 fragment isFront last List.mem_cons_self
    simp only [Fragment.Before, Fragment.finish] at before ⊢
    omega
  · rw [List.mem_singleton.mp isLast]

theorem max?_finish {front : List Fragment} {last : Fragment} (apart : (front ++ [last]).Pairwise Fragment.Before) :
    ((front ++ [last]).map Fragment.finish).max? = some last.finish := by
  rw [List.max?_eq_some_iff]
  refine ⟨List.mem_map_of_mem (by simp), ?_⟩
  intro finish member
  obtain ⟨fragment, listed, rfl⟩ := List.mem_map.mp member
  exact finish_le_last apart fragment listed

theorem pairwise_of_splits {α : Type} {related : α → α → Prop} {items : List α}
    (splits : ∀ earlier first between second later, items = earlier ++ first :: between ++ second :: later →
      related first second) : items.Pairwise related := by
  induction items with
  | nil => exact .nil
  | cons item rest ih =>
    refine .cons ?_ (ih fun earlier first between second later split => ?_)
    · intro other member
      obtain ⟨between, later, split⟩ := List.append_of_mem member
      exact splits [] item between other later (by rw [split]; rfl)
    · exact splits (item :: earlier) first between second later (by rw [split]; rfl)

theorem counterAfter_ge (table : OpcodeTable) (counter : Nat) (records : List Record)
    (noStart : ∀ record ∈ records, record.opcode ≠ Directive.start.name) :
    counter ≤ Layout.counterAfter table counter records := by
  rw [Layout.counterAfter_of_no_start table counter records noStart]
  omega

/-- No record behind the first is START. -/
def StartLeads (records : List Record) : Prop :=
  ∀ record ∈ records.tail, record.opcode ≠ Directive.start.name

section
variable {table : OpcodeTable} {records : List Record}

theorem StartLeads.cases (leads : StartLeads records) :
    (∃ first rest, records = first :: rest ∧ first.opcode = Directive.start.name ∧
        ∀ other ∈ rest, other.opcode ≠ Directive.start.name) ∨
      ∀ record ∈ records, record.opcode ≠ Directive.start.name := by
  cases records with
  | nil => exact .inr nofun
  | cons first rest =>
    by_cases isStart : first.opcode = Directive.start.name
    · exact .inl ⟨first, rest, rfl, isStart, leads⟩
    · exact .inr (List.forall_mem_cons.mpr ⟨isStart, leads⟩)

theorem startAddress_cons {first : Record} (rest : List Record) (isStart : first.opcode = Directive.start.name) :
    Encoder.startAddress (first :: rest) = first.address.getD 0 := by
  simp [Encoder.startAddress, Encoder.start?, isStart]

theorem startAddress_eq_zero (noStart : ∀ record ∈ records, record.opcode ≠ Directive.start.name) :
    Encoder.startAddress records = 0 := by
  have absent : Encoder.start? records = none :=
    List.find?_eq_none.mpr fun record member isStart => noStart record member (of_decide_eq_true isStart)
  rw [Encoder.startAddress, absent]
  rfl

/-- START stands at the start address. -/
theorem StartLeads.address_eq (leads : StartLeads records) (stand : Layout.Along table Layout.StandsAt 0 records)
    {record : Record} (member : record ∈ records) (isStart : record.opcode = Directive.start.name) :
    record.address = some (Encoder.startAddress records) := by
  rcases leads.cases with ⟨first, rest, rfl, firstStarts, noStart⟩ | noStart
  · rcases List.mem_cons.mp member with rfl | behind
    · rw [startAddress_cons rest isStart, stand.1.advance_start table isStart]
      rfl
    · exact absurd isStart (noStart record behind)
  · exact absurd isStart (noStart record member)

/-- The start address lies in the memory, whichever START comes first. -/
theorem startAddress_inside (stand : Layout.Along table Layout.StandsAt 0 records) :
    0 ≤ Encoder.startAddress records ∧ Encoder.startAddress records ≤ 0xFFFF := by
  unfold Encoder.startAddress
  cases first : Encoder.start? records with
  | none => decide
  | some record =>
    obtain ⟨counter, stands⟩ := stand.of_mem (List.mem_of_find?_eq_some first)
    cases addressed : record.address with
    | none =>
      rw [Option.bind_some, addressed]
      decide
    | some address =>
      rw [Option.bind_some, addressed]
      exact stands.inside addressed

/-- The counter never falls below the start address. -/
theorem StartLeads.startAddress_le (leads : StartLeads records) (stand : Layout.Along table Layout.StandsAt 0 records)
    {earlier later : List Record} {record : Record} (split : records = earlier ++ record :: later)
    (plain : PlainOpcode record.opcode) : Encoder.startAddress records ≤ Layout.counterAfter table 0 earlier := by
  rcases leads.cases with ⟨first, rest, rfl, isStart, noStart⟩ | noStart
  · cases earlier with
    | nil =>
      obtain ⟨rfl, -⟩ := List.cons.inj split
      exact absurd isStart plain.1
    | cons other between =>
      obtain ⟨rfl, behind⟩ := List.cons.inj split
      have reached := counterAfter_ge table (Layout.advance table 0 first) between fun other member =>
        noStart other (behind ▸ List.mem_append_left _ member)
      rw [startAddress_cons rest isStart, stand.1.advance_start table isStart]
      exact Int.ofNat_le.mpr reached
  · rw [startAddress_eq_zero noStart]
    exact Int.natCast_nonneg _

end

section
variable {settings : Settings} {table : OpcodeTable} {statements : List Statement} (file : String) (warnUnknown : Bool)

theorem map_opcode_eq {records : List Record} {statements : List Statement}
    (carried : List.Forall₂ Record.Carries records statements) :
    records.map Record.opcode = statements.map Statement.opcode := by
  induction carried with
  | nil => rfl
  | cons carries _ ih => rw [List.map_cons, List.map_cons, carries.opcode, ih]

theorem layOut_startLeads (complete : (layOut settings table statements).aborted = false)
    (leading : ∀ statement ∈ statements.tail, statement.opcode ≠ Directive.start.name) :
    StartLeads (layOut settings table statements).records := by
  have behind := congrArg List.tail (map_opcode_eq (layOut_carries_all complete))
  rw [← List.map_tail, ← List.map_tail] at behind
  intro record member isStart
  have listed : Directive.start.name ∈ statements.tail.map Statement.opcode := by
    rw [← behind, ← isStart]
    exact List.mem_map_of_mem member
  obtain ⟨statement, isStatement, again⟩ := List.mem_map.mp listed
  exact leading statement isStatement again

theorem program_apart (complete : (layOut settings table statements).aborted = false)
    (leads : StartLeads (layOut settings table statements).records) :
    (((programEncoder settings table statements file warnUnknown).listing
      (layOut settings table statements).records).filterMap ListingLine.fragment?).Pairwise Fragment.Before := by
  rw [List.pairwise_filterMap]
  apply pairwise_of_splits
  intro earlier first between second later split here isHere there isThere
  obtain ⟨hereBearing, hereStands, hereCode⟩ := ListingLine.fragment?_eq_some_iff.mp isHere
  obtain ⟨thereBearing, thereStands, -⟩ := ListingLine.fragment?_eq_some_iff.mp isThere
  have firstSplit := split.trans (List.append_assoc earlier (first :: between) (second :: later))
  obtain ⟨hereCounter, plain, taken, -⟩ := bearing_line_stands complete firstSplit hereBearing
  obtain ⟨thereCounter, -, -, -⟩ := bearing_line_stands complete split thereBearing
  obtain ⟨rest, records⟩ := Encoder.listing_split split
  have noStart : ∀ record ∈ between.map ListingLine.record, record.opcode ≠ Directive.start.name := by
    intro record member
    apply leads record
    rw [records]
    cases earlier <;> simp only [List.map_append, List.map_cons, List.nil_append, List.cons_append, List.tail_cons,
      List.mem_append, List.mem_cons, member, true_or, or_true]
  -- The counter passes over the bytes of the first line and never falls behind them.
  have passed := counterAfter_ge table
    (Layout.advance table (Layout.counterAfter table 0 (earlier.map ListingLine.record)) first.record) _ noStart
  rw [Layout.advance_of_not_start _ plain.1 rfl] at passed
  have counter : Layout.counterAfter table 0 ((earlier ++ first :: between).map ListingLine.record) =
      Layout.counterAfter table (Layout.advance table (Layout.counterAfter table 0 (earlier.map ListingLine.record))
        first.record) (between.map ListingLine.record) := by
    rw [List.map_append, Layout.counterAfter_append]
    rfl
  have hereAddress := Option.some.inj (hereStands.symm.trans hereCounter)
  have thereAddress := Option.some.inj (thereStands.symm.trans thereCounter)
  rw [Layout.advance_of_not_start _ plain.1 rfl] at counter
  simp only [Fragment.Before, Fragment.finish, Fragment.size, hereCode, hereAddress, thereAddress, counter]
  omega

/-- Code stands at the counter of a record, and in the memory. -/
theorem program_fragment_stands (complete : (layOut settings table statements).aborted = false) {fragment : Fragment}
    (member : fragment ∈ ((programEncoder settings table statements file warnUnknown).listing
      (layOut settings table statements).records).filterMap ListingLine.fragment?) :
    ∃ earlier record later, (layOut settings table statements).records = earlier ++ record :: later ∧
      PlainOpcode record.opcode ∧ fragment.address = Layout.counterAfter table 0 earlier ∧ fragment.finish ≤ 0x10000 := by
  obtain ⟨line, listed, found⟩ := List.mem_filterMap.mp member
  obtain ⟨bearing, stands, code⟩ := ListingLine.fragment?_eq_some_iff.mp found
  obtain ⟨earlier, later, split⟩ := List.append_of_mem listed
  obtain ⟨counter, plain, taken, inside⟩ := bearing_line_stands complete split bearing
  obtain ⟨rest, records⟩ := Encoder.listing_split split
  have address := Option.some.inj (stands.symm.trans counter)
  have last : maxAddress = 0xFFFF := rfl
  refine ⟨_, _, _, records, plain, address, ?_⟩
  simp only [Fragment.finish, Fragment.size, code, address]
  omega

theorem program_fragment_inside (complete : (layOut settings table statements).aborted = false)
    (leads : StartLeads (layOut settings table statements).records) :
    ∀ fragment ∈ ((programEncoder settings table statements file warnUnknown).listing
        (layOut settings table statements).records).filterMap ListingLine.fragment?,
      Encoder.startAddress (layOut settings table statements).records ≤ fragment.address ∧ fragment.finish ≤ 0x10000 := by
  intro fragment member
  obtain ⟨earlier, record, later, records, plain, address, finish⟩ :=
    program_fragment_stands file warnUnknown complete member
  rw [address]
  exact ⟨leads.startAddress_le (layOut_standsAt settings table statements) records plain, finish⟩

end

/-- How the header and the end record of a program follow from its layout and its listing. -/
structure ExtentLaw (layout : Layout) (encoding : Encoding) : Prop where
  /-- The program starts at the address of START, -/
  started : ∀ record ∈ layout.records, record.opcode = Directive.start.name →
    record.address = some encoding.program.header.start
  /-- or at 0 if there is none, -/
  unstarted : (∀ record ∈ layout.records, record.opcode ≠ Directive.start.name) → encoding.program.header.start = 0
  /-- and execution begins there. -/
  entry : encoding.startAddress = encoding.program.header.start ∧
    encoding.program.entry = some encoding.program.header.start
  /-- It ends where the code of the last line with code ends, -/
  ending : ∀ earlier line later, encoding.listing = earlier ++ line :: later → line.code ≠ "" →
    (∀ other ∈ later, other.code = "") →
      ∃ address : Int, line.record.address = some address ∧ encoding.endingAddress = address + byteCount line.code
  /-- or where it starts if no line has code. -/
  codeless : (∀ line ∈ encoding.listing, line.code = "") → encoding.endingAddress = encoding.program.header.start
  /-- Its length is the distance, which is never negative. -/
  length : encoding.program.header.start ≤ encoding.endingAddress ∧
    encoding.program.header.length = encoding.endingAddress - encoding.program.header.start
  /-- All text records lie in it, -/
  covers : ∀ record ∈ encoding.program.texts, encoding.program.header.start ≤ record.start ∧
    record.start + record.byteLength ≤ encoding.program.header.start + encoding.program.header.length
  /-- and it lies in the memory. -/
  inside : 0 ≤ encoding.program.header.start ∧
    encoding.program.header.start + encoding.program.header.length ≤ 0x10000

theorem encode_ending_nil {encoder : Encoder} {records : List Record}
    (none : (encoder.listing records).filterMap ListingLine.fragment? = []) :
    (encode encoder records).endingAddress = Encoder.startAddress records := by
  simp only [encode, none]
  rfl

theorem encode_ending_concat {encoder : Encoder} {records : List Record} {front : List Fragment} {last : Fragment}
    (fragments : (encoder.listing records).filterMap ListingLine.fragment? = front ++ [last])
    (apart : (front ++ [last]).Pairwise Fragment.Before) : (encode encoder records).endingAddress = last.finish := by
  simp only [encode, fragments, max?_finish apart]
  rfl

section
variable {encoder : Encoder} {records : List Record}
  (apart : ((encoder.listing records).filterMap ListingLine.fragment?).Pairwise Fragment.Before)
  (within : ∀ fragment ∈ (encoder.listing records).filterMap ListingLine.fragment?,
    Encoder.startAddress records ≤ fragment.address ∧ fragment.finish ≤ 0x10000)
include apart within

/-- All code lies between the start address and the ending address. -/
theorem encode_ending_bounds (low : Encoder.startAddress records ≤ 0xFFFF) :
    Encoder.startAddress records ≤ (encode encoder records).endingAddress ∧
      (encode encoder records).endingAddress ≤ 0x10000 ∧
      ∀ fragment ∈ (encoder.listing records).filterMap ListingLine.fragment?,
        fragment.finish ≤ (encode encoder records).endingAddress := by
  rcases List.eq_nil_or_concat' ((encoder.listing records).filterMap ListingLine.fragment?) with
    none | ⟨front, last, fragments⟩
  · rw [encode_ending_nil none, none]
    exact ⟨Int.le_refl _, by omega, nofun⟩
  · rw [fragments] at apart within
    rw [encode_ending_concat fragments apart, fragments]
    obtain ⟨start, finish⟩ := within last (by simp)
    exact ⟨by simp only [Fragment.finish]; omega, finish, finish_le_last apart⟩

/-- The header spans all code, so the length needs no lower bound. -/
theorem encode_span (low : Encoder.startAddress records ≤ 0xFFFF) :
    (encode encoder records).program.header.start + (encode encoder records).program.header.length =
      (encode encoder records).endingAddress := by
  have bounds := (encode_ending_bounds apart within low).1
  have start : (encode encoder records).program.header.start = Encoder.startAddress records := rfl
  have length : (encode encoder records).program.header.length =
      (encode encoder records).endingAddress - Encoder.startAddress records := Int.max_eq_left (Int.sub_nonneg.mpr bounds)
  omega

/-- Every text record lies in what the header spans. -/
theorem encode_covers (low : Encoder.startAddress records ≤ 0xFFFF) :
    ∀ record ∈ (encode encoder records).program.texts, Encoder.startAddress records ≤ record.start ∧
      record.start + record.byteLength ≤ (encode encoder records).endingAddress := by
  intro record member
  obtain ⟨portions, -, attribution⟩ := encode_fills encoder records
  obtain ⟨first, isFirst, last, isLast, starts, ends⟩ := attribution.reach apart record member
  have behind := (within first isFirst).1
  have inFront := (encode_ending_bounds apart within low).2.2 last isLast
  omega

end

/-- The header of a program whose only START is its first statement covers the program. -/
theorem program_extentLaw (settings : Settings) (table : OpcodeTable) (statements : List Statement) (file : String)
    (warnUnknown : Bool) (leading : ∀ statement ∈ statements.tail, statement.opcode ≠ Directive.start.name)
    (complete : (layOut settings table statements).aborted = false) :
    ExtentLaw (layOut settings table statements)
      (encode (programEncoder settings table statements file warnUnknown) (layOut settings table statements).records) := by
  have leads := layOut_startLeads complete leading
  have stand := layOut_standsAt settings table statements
  have apart := program_apart file warnUnknown complete leads
  have within := program_fragment_inside file warnUnknown complete leads
  obtain ⟨natural, low⟩ := startAddress_inside stand
  obtain ⟨startsFirst, inMemory, -⟩ := encode_ending_bounds apart within low
  have span := encode_span apart within low
  refine ⟨?_, startAddress_eq_zero, ⟨rfl, rfl⟩, ?_, ?_, ⟨startsFirst, eq_sub_of_add_eq' span⟩, ?_, natural, ?_⟩
  · intro record member isStart
    exact leads.address_eq stand member isStart
  · intro earlier line later split bearing codeless
    obtain ⟨stands, -, -, -⟩ := bearing_line_stands complete split bearing
    have found : line.fragment? = some ⟨_, line.code⟩ := ListingLine.fragment?_eq_some_iff.mpr ⟨bearing, stands, rfl⟩
    have fragments := congrArg (List.filterMap ListingLine.fragment?) split
    rw [List.filterMap_append, List.filterMap_cons_some found, filterMap_fragment?_eq_nil codeless] at fragments
    exact ⟨_, stands, encode_ending_concat fragments (fragments ▸ apart)⟩
  · intro codeless
    exact encode_ending_nil (filterMap_fragment?_eq_nil codeless)
  · intro record member
    obtain ⟨starts, ends⟩ := encode_covers apart within low record member
    exact ⟨starts, Int.le_trans ends (Int.le_of_eq span.symm)⟩
  · exact Int.le_trans (Int.le_of_eq span) inMemory

/-- A program with a gap, an instruction of one byte, trailing storage and code behind END. -/
private def spaced : List Statement :=
  [{ line := 1, text := " START FF00", opcode := "START", operand := some "FF00" },
    { line := 2, text := " WORD 1", opcode := "WORD", operand := some "1" },
    { line := 3, text := " RESB 64", opcode := "RESB", operand := some "64" },
    { line := 4, text := " LDA", opcode := "LDA" },
    { line := 5, text := " RESB 16", opcode := "RESB", operand := some "16" },
    { line := 6, text := " END", opcode := "END" },
    { line := 7, text := " WORD 2", opcode := "WORD", operand := some "2" }]

theorem program_extentLaw_spaced :
    (encode (programEncoder {} ⟨⟨[("LDA", "0c")]⟩⟩ spaced "<input>" false)
      (layOut {} ⟨⟨[("LDA", "0c")]⟩⟩ spaced).records).program =
        ⟨⟨"PROG", 0xFF00, 0x44⟩, [⟨0xFF00, ["000001", "0C"]⟩], some 0xFF00⟩ ∧
    ExtentLaw (layOut {} ⟨⟨[("LDA", "0c")]⟩⟩ spaced)
      (encode (programEncoder {} ⟨⟨[("LDA", "0c")]⟩⟩ spaced "<input>" false)
        (layOut {} ⟨⟨[("LDA", "0c")]⟩⟩ spaced).records) :=
  ⟨by decide +kernel, program_extentLaw {} ⟨⟨[("LDA", "0c")]⟩⟩ spaced "<input>" false (by decide +kernel) (by decide +kernel)⟩

end TwoPass
