import TwoPass.Encoding
import TwoPass.Proofs.Addresses
import TwoPass.Proofs.Definitions
import TwoPass.Proofs.Hexadecimal

/-!
The listing of a program: its lines are the records up to the first END with their codes
(`mem_listing`, `listing_split`), and the code of an instruction is that of its mnemonic,
followed by the address of its operand if that is defined (`recordCode_instruction`). A change
of records that keeps their codes keeps the object program (`Encoder.Matches`).
-/
namespace TwoPass

open Text

/-- The encoder for a program: it takes the symbols of its layout. -/
def programEncoder (settings : Settings) (table : OpcodeTable) (statements : List Statement) (file : String)
    (warnUnknown : Bool) : Encoder :=
  { symbols := (layOut settings table statements).symbols, table, settings, file, warnUnknown }

/-- A directive keeps its meaning under every table. -/
@[simp] theorem OpcodeTable.operation_name (table : OpcodeTable) (directive : Directive) :
    table.operation directive.name = .directive directive := by
  simp only [OpcodeTable.operation, Directive.ofName?_name]

/-- Only a directive's name stands for it. -/
theorem OpcodeTable.operation_eq_directive_iff (table : OpcodeTable) (opcode : String) (directive : Directive) :
    table.operation opcode = .directive directive ↔ opcode = directive.name := by
  constructor
  · intro means
    rw [← Directive.ofName?_eq_some_iff]
    unfold OpcodeTable.operation at means
    split at means
    next other found =>
      rw [found, Operation.directive.inj means]
    next => split at means <;> contradiction
  · rintro rfl
    exact table.operation_name directive

/-- The fragment of a line is its code at its address, if it has both. -/
theorem ListingLine.fragment?_eq_some_iff {line : ListingLine} {fragment : Fragment} :
    line.fragment? = some fragment ↔
      line.code ≠ "" ∧ line.record.address = some fragment.address ∧ fragment.code = line.code := by
  unfold ListingLine.fragment?
  by_cases empty : line.code = ""
  · simp [empty]
  · obtain ⟨address, code⟩ := fragment
    cases line.record.address with
    | none => simp [empty]
    | some stands =>
      simp only [String.isEmpty_iff, empty, if_false, Option.map_some, Option.some.injEq, Fragment.mk.injEq, ne_eq,
        not_false_eq_true, true_and]
      exact and_congr_right' eq_comm

theorem throughEnd_isPrefix (records : List Record) : throughEnd records <+: records := by
  induction records with
  | nil => exact List.prefix_refl []
  | cons record rest ih =>
    rw [throughEnd]
    split
    · exact ⟨rest, rfl⟩
    · exact (List.prefix_cons_inj record).mpr ih

namespace Encoder

/-- A line is a record with its code. -/
theorem mem_listing {encoder : Encoder} {records : List Record} {line : ListingLine}
    (member : line ∈ encoder.listing records) : line.record ∈ records ∧ line.code = encoder.recordCode line.record := by
  obtain ⟨record, listed, rfl⟩ := List.mem_map.mp member
  exact ⟨(throughEnd_isPrefix records).subset listed, rfl⟩

/-- Lines in the listing are records in the same order. -/
theorem listing_split {encoder : Encoder} {records : List Record} {front back : List ListingLine}
    (split : encoder.listing records = front ++ back) :
    ∃ rest, records = front.map ListingLine.record ++ (back.map ListingLine.record ++ rest) := by
  obtain ⟨rest, whole⟩ := throughEnd_isPrefix records
  have listed : (encoder.listing records).map ListingLine.record = throughEnd records := by
    rw [listing, List.map_map]
    exact List.map_id _
  refine ⟨rest, ?_⟩
  rw [← whole, ← listed, split, List.map_append, List.append_assoc]

theorem isHexByte_spells {code : String} (proper : isHexByte code) :
    Spells 1 (String.ofList (code.toList.map Char.toUpper)) := by
  simp only [isHexByte, Bool.and_eq_true, beq_iff_eq, List.all_eq_true] at proper
  exact .map_toUpper (by rw [String.length_toList, proper.1]) proper.2

section
variable {encoder : Encoder} {record : Record}

theorem recordCode_word (isWord : record.opcode = Directive.word.name) :
    encoder.recordCode record = ((Operand.word record.operand).toOption.map Operand.wordCode).getD "" := by
  simp only [recordCode, isWord, OpcodeTable.operation_name]

theorem recordCode_byte (isByte : record.opcode = Directive.byte.name) :
    encoder.recordCode record = (Operand.byteCode record.operand).toOption.getD "" := by
  simp only [recordCode, isByte, OpcodeTable.operation_name]

theorem recordCode_instruction {code : String} (means : encoder.table.operation record.opcode = .instruction code)
    (proper : isHexByte code) :
    encoder.recordCode record = String.ofList (code.toList.map Char.toUpper) ++ encoder.addressField record := by
  simp only [recordCode, means, instructionCode, proper, if_true]

theorem addressField_of_unresolved (unresolved : (operand? record).bind encoder.symbols.address? = none) :
    encoder.addressField record = "" := by
  rw [addressField, unresolved]

theorem addressField_of_resolved {address : Int}
    (resolved : (operand? record).bind encoder.symbols.address? = some address) :
    encoder.addressField record = upperHex 4 address := by
  rw [addressField, resolved]

end

end Encoder

/-- Another encoder finds in changed records what an encoder finds in the records as they were: the same codes and,
    as far as a view of them shows, the same events. -/
structure Encoder.Matches {β : Type} (encoder other : Encoder) (image : Record → Record) (view : Event → β) :
    Prop where
  settings : other.settings = encoder.settings
  address : ∀ record, (image record).address = record.address
  label : ∀ record, (image record).label = record.label
  opcode : ∀ record, (image record).opcode = record.opcode
  code : ∀ record, other.recordCode (image record) = encoder.recordCode record
  events : ∀ record, (other.recordEvents (image record)).map view = (encoder.recordEvents record).map view
  report : ∀ record cause, view (other.report (image record) cause) = view (encoder.report record cause)

namespace Encoder.Matches

variable {β : Type} {encoder other : Encoder} {image : Record → Record} {view : Event → β}
  (matching : encoder.Matches other image view) (records : List Record)
include matching

theorem throughEnd_map : throughEnd (records.map image) = (throughEnd records).map image := by
  induction records with
  | nil => rfl
  | cons record rest ih =>
    rw [List.map_cons, throughEnd, throughEnd, ih, matching.opcode]
    split <;> rfl

theorem start?_map : start? (records.map image) = (start? records).map image := by
  have unchanged : (fun record => decide ((image record).opcode = Directive.start.name)) =
      fun record => decide (record.opcode = Directive.start.name) := by
    funext record
    rw [matching.opcode]
  rw [start?, List.find?_map]
  exact congrArg (fun isStart => (records.find? isStart).map image) unchanged

theorem startAddress_map : startAddress (records.map image) = startAddress records := by
  rw [startAddress, startAddress, matching.start?_map]
  cases start? records with
  | none => rfl
  | some record => exact congrArg (·.getD 0) (matching.address record)

theorem programName_map (settings : Settings) : programName settings (records.map image) = programName settings records := by
  rw [programName, programName, matching.start?_map]
  cases start? records with
  | none => rfl
  | some record => simp only [Option.map_some, Option.bind_some, matching.label]

theorem listingLine_map (record : Record) :
    other.listingLine (image record) = ⟨image record, (encoder.listingLine record).code⟩ :=
  congrArg (ListingLine.mk (image record)) (matching.code record)

theorem fragment?_map (line : ListingLine) :
    ListingLine.fragment? ⟨image line.record, line.code⟩ = line.fragment? := by
  simp only [ListingLine.fragment?, matching.address]

/-- The encoding is the same but for the records that are listed. -/
theorem encode_map :
    encode other (records.map image) =
      { encode encoder records with
        listing := (encode encoder records).listing.map fun line => ⟨image line.record, line.code⟩ } := by
  have listing : other.listing (records.map image) =
      (encoder.listing records).map fun line => ⟨image line.record, line.code⟩ := by
    rw [Encoder.listing, Encoder.listing, matching.throughEnd_map, List.map_map, List.map_map]
    exact List.map_congr_left fun record _ => matching.listingLine_map record
  have fragments : ((encoder.listing records).map fun line => ⟨image line.record, line.code⟩).filterMap
      ListingLine.fragment? = (encoder.listing records).filterMap ListingLine.fragment? := by
    rw [List.filterMap_map]
    exact List.filterMap_congr fun line _ => matching.fragment?_map line
  simp only [encode, listing, fragments, matching.startAddress_map, matching.programName_map, matching.settings]

theorem eventsFrom_map (current : Option TextRecord) :
    (other.eventsFrom current (records.map image)).map view = (encoder.eventsFrom current records).map view := by
  induction records generalizing current with
  | nil => rw [List.map_nil, eventsFrom, eventsFrom, matching.settings]
  | cons record rest ih =>
    have fragment : ListingLine.fragment? ⟨image record, (encoder.listingLine record).code⟩ =
        (encoder.listingLine record).fragment? := matching.fragment?_map (encoder.listingLine record)
    rw [List.map_cons, eventsFrom, eventsFrom, matching.listingLine_map, fragment, matching.settings, matching.opcode]
    cases (encoder.listingLine record).fragment? with
    | some fragment => simp only [List.map_append, matching.events, ih]
    | none =>
      simp only [List.map_append, matching.events, ih, apply_ite (List.map view), List.map_cons, matching.report]

theorem encodingEvents_map :
    (encodingEvents other (records.map image)).map view = (encodingEvents encoder records).map view := by
  rw [encodingEvents, encodingEvents, List.map_append, List.map_append, matching.throughEnd_map,
    matching.eventsFrom_map, matching.encode_map]

end Encoder.Matches

/-- A symbol stands in the memory, so that four digits hold its address. -/
theorem layOut_address_numeral {settings : Settings} {table : OpcodeTable} {statements : List Statement} {name : String}
    {address : Int} (found : (layOut settings table statements).symbols.address? name = some address) :
    ∃ value : Nat, address = value ∧ IsNumeral 4 value (upperHex 4 address) := by
  rw [(layOut_describes settings table statements).address name] at found
  obtain ⟨record, last, stands⟩ := Option.bind_eq_some_iff.mp found
  obtain ⟨-, earlier, later, split, -⟩ := (definer?_eq_some_iff _ name record).mp last
  obtain ⟨low, high⟩ := ((layOut_standsAt settings table statements).at_split split).inside stands
  exact ⟨address.toNat, (Int.toNat_of_nonneg low).symm, upperHex_numeral (by decide) low (by omega)⟩

end TwoPass
