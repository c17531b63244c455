import TwoPass.Proofs.Extent
import TwoPass.Proofs.Loading

/-!
The lines of an object program, said without the functions that write them: a header line, a line
for each text record and an end line (`WrittenAs`). In a program that was laid out to its end all
numbers have room for their digits, whatever START statements there are, so its text is made of
such lines (`program_writtenAs`).
-/
namespace TwoPass

open Text

/-- A natural number in so many digits. -/
def IsNumeralOf (width : Nat) (value : Int) (text : String) : Prop :=
  ∃ number : Nat, value = number ∧ IsNumeral width number text

theorem isNumeralOf_upperHex {width : Nat} {value : Int} (positive : 0 < width) (natural : 0 ≤ value)
    (fits : value < 16 ^ width) : IsNumeralOf width value (upperHex width value) :=
  ⟨value.toNat, (Int.toNat_of_nonneg natural).symm, upperHex_numeral positive natural fits⟩

/-- A header line: the name in six characters, cut or filled up with blanks, the start and the
    length. -/
def Header.IsLine (header : Header) (line : String) : Prop :=
  ∃ name start length, line = "H^" ++ name ++ "^" ++ start ++ "^" ++ length ∧
    name.toList = (header.name.toList ++ List.replicate 6 ' ').take 6 ∧
    IsNumeralOf 6 header.start start ∧ IsNumeralOf 6 header.length length

/-- The line of a text record: the start, the number of bytes and the fragments, in which there are
    two digits for each byte. -/
def TextRecord.IsLine (record : TextRecord) (line : String) : Prop :=
  ∃ start count bytes, line = "T^" ++ start ++ "^" ++ count ++ String.join (record.fragments.map ("^" ++ ·)) ∧
    IsNumeralOf 6 record.start start ∧ IsNumeral 2 bytes count ∧ 0 < bytes ∧
    (String.join record.fragments).length = 2 * bytes

/-- An end line: where execution begins. -/
def IsEndLine (entry : Int) (line : String) : Prop :=
  ∃ address, line = "E^" ++ address ∧ IsNumeralOf 6 entry address

/-- A text is the lines of a program, from the header to the end, each with a line feed behind it. -/
def ObjectProgram.WrittenAs (program : ObjectProgram) (text : String) : Prop :=
  ∃ header texts finish entry, text = String.join ((header :: texts ++ [finish]).map (· ++ "\n")) ∧
    program.header.IsLine header ∧ List.Forall₂ TextRecord.IsLine program.texts texts ∧
    program.entry = some entry ∧ IsEndLine entry finish

theorem toList_paddedName_eq_take (name : String) :
    (paddedName name).toList = (name.toList ++ List.replicate 6 ' ').take 6 := by
  have width : nameWidth = 6 := rfl
  rw [paddedName, String.toList_ofList, width, List.take_append, List.take_replicate, List.length_take]
  congr 2
  omega

theorem Header.isLine_text {header : Header} (start : 0 ≤ header.start ∧ header.start ≤ 0xFFFF)
    (length : 0 ≤ header.length ∧ header.length ≤ 0x10000) : header.IsLine header.text :=
  ⟨_, _, _, rfl, toList_paddedName_eq_take header.name, isNumeralOf_upperHex (by decide) start.1 (by omega),
    isNumeralOf_upperHex (by decide) length.1 (by omega)⟩

theorem length_join_of_even {codes : List String} (even : ∀ code ∈ codes, code.length % 2 = 0) :
    (String.join codes).length = 2 * codes.foldr (byteCount · + ·) 0 := by
  induction codes with
  | nil => rfl
  | cons code rest ih =>
    have here := even code List.mem_cons_self
    rw [String.join_cons, String.length_append, ih fun other member => even other (List.mem_cons_of_mem code member)]
    simp only [List.foldr_cons, byteCount]
    omega

theorem TextRecord.isLine_text {record : TextRecord} (start : 0 ≤ record.start ∧ record.start ≤ 0x10000)
    (even : ∀ code ∈ record.fragments, code.length % 2 = 0) (bytes : 1 ≤ record.byteLength ∧ record.byteLength ≤ 255) :
    record.IsLine record.text := by
  have fits : (record.byteLength : Int) < 16 ^ 2 := by omega
  have count := upperHex_numeral (by decide) (Int.natCast_nonneg _) fits
  rw [Int.toNat_natCast] at count
  exact ⟨_, _, record.byteLength, rfl, isNumeralOf_upperHex (by decide) start.1 (by omega), count, bytes.1,
    length_join_of_even even⟩

theorem endLines_eq_join (lines : List String) : endLines lines = String.join (lines.map (· ++ "\n")) := by
  induction lines with
  | nil => rfl
  | cons line rest ih => rw [endLines, ih, List.map_cons, String.join_cons]

section
variable {settings : Settings} {table : OpcodeTable} {statements : List Statement} (file : String) (warnUnknown : Bool)
  (complete : (layOut settings table statements).aborted = false)
include complete

theorem program_ending_le : (encode (programEncoder settings table statements file warnUnknown)
    (layOut settings table statements).records).endingAddress ≤ 0x10000 := by
  have low := (startAddress_inside (layOut_standsAt settings table statements)).2
  simp only [encode]
  cases latest : List.max? (List.map Fragment.finish (List.filterMap ListingLine.fragment? _)) with
  | none =>
    rw [Option.getD_none]
    omega
  | some ending =>
    obtain ⟨fragment, member, rfl⟩ := List.mem_map.mp (List.max?_mem latest)
    obtain ⟨-, -, -, -, -, -, inside⟩ := program_fragment_stands file warnUnknown complete member
    exact inside

/-- A text record has no more bytes than two digits can tell, and starts in the memory. -/
theorem program_text_isLine : ∀ record ∈ (encode (programEncoder settings table statements file warnUnknown)
    (layOut settings table statements).records).program.texts, record.IsLine record.text := by
  intro record member
  obtain ⟨portions, fills, attribution⟩ := encode_fills (programEncoder settings table statements file warnUnknown)
    (layOut settings table statements).records
  rw [attribution.records] at member
  obtain ⟨portion, isPortion, rfl⟩ := List.mem_map.mp member
  apply TextRecord.isLine_text
  · obtain ⟨owned, within⟩ := attribution.divide.within portion.opening
      (List.mem_flatMap.mpr ⟨portion, isPortion, List.mem_cons_self⟩)
    obtain ⟨_, _, _, -, -, address, finish⟩ := program_fragment_stands file warnUnknown complete owned
    simp only [Portion.record, Share.listed, Fragment.finish] at finish ⊢
    omega
  · intro code isCode
    obtain ⟨share, isShare, rfl⟩ := List.mem_map.mp isCode
    exact fills.even (program_fragments_even complete) portion isPortion share isShare
  · rw [Portion.byteLength_record]
    obtain ⟨positive, bounded⟩ := fills.bounded portion isPortion
    exact ⟨positive, Nat.le_trans bounded settings.capacity_le⟩

/-- The text of a program is its lines. -/
theorem program_writtenAs :
    let program := (encode (programEncoder settings table statements file warnUnknown)
      (layOut settings table statements).records).program
    program.WrittenAs program.text := by
  intro program
  obtain ⟨natural, low⟩ := startAddress_inside (layOut_standsAt settings table statements)
  have ending := program_ending_le file warnUnknown complete
  have start : program.header.start = Encoder.startAddress (layOut settings table statements).records := rfl
  have entry : program.entry = some program.header.start := rfl
  refine ⟨program.header.text, program.texts.map TextRecord.text, "E^" ++ upperHex 6 program.header.start,
    program.header.start, ?_, ?_, ?_, entry, _, rfl, ?_⟩
  · have lines : program.records.map ObjectRecord.line = program.header.text :: program.texts.map TextRecord.text ++
        ["E^" ++ upperHex 6 program.header.start] := by
      simp [ObjectProgram.records, entry, ObjectRecord.line, Function.comp_def]
    rw [ObjectProgram.text, endLines_eq_join, lines]
  · apply Header.isLine_text ⟨natural, low⟩
    simp only [program, encode] at ending ⊢
    omega
  · exact List.forall₂_map_right_iff.mpr (List.forall₂_same.mpr (program_text_isLine file warnUnknown complete))
  · rw [start]
    exact isNumeralOf_upperHex (by decide) natural (by omega)

end

end TwoPass
