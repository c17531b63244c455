import TwoPass.Proofs.ObjectFile
import TwoPass.Proofs.Runs

/-!
Assembled programs read back. The printed program is the listing with the records behind it. The
reader passes over the listing whatever its fields hold (`letter?_listing`), and object code is made
of digits (`mem_recordCode`), so that all depends on the name in the header (`ReadbackLaw`).
-/
namespace TwoPass

open Text

namespace ListingLine

/-- No line of a listing begins like a record: in front of its first tab stands a number or nothing. -/
theorem letter?_listing (line : ListingLine) : ObjectRecord.letter? line.text.toList = none := by
  have free : caret ∉ line.record.addressText.toList := by
    rw [Record.addressText]
    cases line.record.address with
    | none => simp
    | some address => exact (isField_upperHex 4 address).caret_notMem
  rw [toList_text, Record.toList_text, List.append_assoc]
  exact ObjectRecord.letter?_of_tab free _

theorem unbroken_listing {line : ListingLine} (storable : line.record.Storable)
    (code : ∀ c ∈ line.code.toList, c = '-' ∨ isCapitalDigit c) : ∀ c ∈ line.text.toList, isBoundary c = false :=
  unbroken storable fun c inCode => (isField_of_digits code c inCode).2

end ListingLine

namespace Encoder

/-- Object code is made of digits, and a minus sign if a symbol has a negative address. -/
theorem mem_recordCode {encoder : Encoder} {record : Record} {c : Char}
    (member : c ∈ (encoder.recordCode record).toList) : c = '-' ∨ isCapitalDigit c := by
  unfold recordCode at member
  cases means : encoder.table.operation record.opcode with
  | unknown => simp [means] at member
  | instruction code =>
    simp only [means, instructionCode] at member
    split at member
    next proper =>
      rw [String.toList_append, List.mem_append] at member
      rcases member with front | back
      · exact .inr ((isHexByte_spells proper).digits c front)
      · unfold addressField at back
        split at back
        · exact mem_upperHex back
        · contradiction
    next => contradiction
  | directive directive =>
    cases directive with
    | word =>
      cases operand : Operand.word record.operand with
      | error fault => simp [means, operand, Except.toOption] at member
      | ok value =>
        simp only [means, operand, Except.toOption, Option.map_some, Option.getD_some] at member
        exact .inr ((Operand.wordCode_spells value).digits c member)
    | byte =>
      cases operand : Operand.byteCode record.operand with
      | error fault => simp [means, operand, Except.toOption] at member
      | ok constant =>
        obtain ⟨bytes, -, spells⟩ := Operand.byteCode_spells operand
        simp only [means, operand, Except.toOption, Option.getD_some] at member
        exact .inr (spells.digits c member)
    | _ => simp [means] at member

end Encoder

theorem Share.Divide.mem_code {owners : List Fragment} {shares : List Share} {share : Share} {c : Char}
    (divide : Divide owners shares) (member : share ∈ shares) (inside : c ∈ share.code.toList) :
    ∃ owner ∈ owners, c ∈ owner.code.toList := by
  have joined : c ∈ (String.join (shares.map Share.code)).toList := by
    simp only [String.toList_join, List.mem_flatMap, List.mem_map, exists_exists_and_eq_and]
    exact ⟨share, member, inside⟩
  rw [divide.join] at joined
  simpa only [String.toList_join, List.mem_flatMap, List.mem_map, exists_exists_and_eq_and] using joined

theorem encode_isField_fragments (encoder : Encoder) (records : List Record) :
    ∀ text ∈ (encode encoder records).program.texts, ∀ fragment ∈ text.fragments, IsField fragment.toList := by
  obtain ⟨portions, -, attribution⟩ := encode_fills encoder records
  rw [attribution.records, List.forall_mem_map]
  intro portion isPortion fragment member
  obtain ⟨share, isShare, rfl⟩ := List.mem_map.mp member
  apply isField_of_digits
  intro c inside
  obtain ⟨owner, isOwner, owned⟩ := attribution.divide.mem_code (List.mem_flatMap.mpr ⟨portion, isPortion, isShare⟩) inside
  obtain ⟨line, listed, found⟩ := List.mem_filterMap.mp isOwner
  rw [(ListingLine.fragment?_eq_some_iff.mp found).2.2, (Encoder.mem_listing listed).2] at owned
  exact Encoder.mem_recordCode owned

/-- How a printed program is read. -/
structure ReadbackLaw (encoding : Encoding) (printed : String) : Prop where
  /-- The lines are those of the listing and then those of the records, -/
  lines : lines printed = encoding.listing.map ListingLine.text ++ lines encoding.program.text
  /-- and those of the listing are passed over. -/
  passed : ∀ line ∈ encoding.listing, ObjectRecord.letter? line.text.toList = none
  /-- The text records, the end record and the header with its addresses and what is left of its
      name are read back exactly if the header has neither a caret nor a line boundary from the name. -/
  read : ∀ file, ObjectProgram.parse file printed = .ok encoding.program.stored ↔
    IsField (keptName encoding.program.header.name)

theorem layOut_storable {settings : Settings} {table : OpcodeTable} {file source : String}
    (complete : (layOut settings table (Statement.parseAll settings table file source)).aborted = false) :
    ∀ record ∈ (layOut settings table (Statement.parseAll settings table file source)).records, record.Storable := by
  intro record member
  have cells := (forall_mem_of_carries Cells (layOut_carries_all complete)).mpr fun _ => Statement.parseAll_cells
  exact ⟨cells record member, layOut_visible member⟩

/-- A program that was assembled is read back from what is printed, unless its name holds a caret or
    a line boundary among the characters that the header takes from it. -/
theorem assemble_readbackLaw (settings : Settings) (file source tableText : String) {assembly : Assembly}
    {encoding : Encoding} (returned : (assemble settings file source tableText).result = .ok assembly)
    (isEncoded : assembly.encoding = some encoding) : ReadbackLaw encoding assembly.printout.objectProgram := by
  obtain ⟨complete, encodes, printed⟩ := assemble_encoded returned isEncoded
  have joined : assembly.printout.objectProgram =
      endLines (encoding.listing.map ListingLine.text) ++ encoding.program.text := by
    rw [printed]
    rfl
  have passed : ∀ line ∈ encoding.listing.map ListingLine.text, ObjectRecord.letter? line.toList = none := by
    rw [List.forall_mem_map]
    exact fun line _ => line.letter?_listing
  have unbroken : ∀ line ∈ encoding.listing.map ListingLine.text, ∀ c ∈ line.toList, isBoundary c = false := by
    rw [List.forall_mem_map, encodes]
    intro line listed
    obtain ⟨recorded, code⟩ := Encoder.mem_listing listed
    apply ListingLine.unbroken_listing (layOut_storable complete line.record recorded)
    rw [code]
    exact fun c => Encoder.mem_recordCode
  rw [joined]
  refine ⟨lines_endLines_append unbroken _, List.forall_mem_map.mp passed, ?_⟩
  apply ObjectProgram.parse_program_iff passed unbroken
  rw [encodes]
  exact encode_isField_fragments _ _

theorem assemble_readbackLaw_labelled :
    ∃ assembly encoding,
      (assemble { nameFromLabel := true } "<input>" "COPY-LOOP START 1000\nH^T BYTE X'0102'\n END\n" "LDA 00\n").result =
          .ok assembly ∧
        assembly.encoding = some encoding ∧ encoding.program.stored.header.name = "COPY-L" ∧
        ReadbackLaw encoding assembly.printout.objectProgram := by
  have returned : ∃ assembly,
      (assemble { nameFromLabel := true } "<input>" "COPY-LOOP START 1000\nH^T BYTE X'0102'\n END\n" "LDA 00\n").result =
          .ok assembly ∧
        assembly.encoding.map (·.program.stored.header.name) = some "COPY-L" := exists_ok_of_any (by decide +kernel)
  obtain ⟨assembly, returned, named⟩ := returned
  obtain ⟨encoding, isEncoded, named⟩ := Option.map_eq_some_iff.mp named
  exact ⟨assembly, encoding, returned, isEncoded, named, assemble_readbackLaw _ _ _ _ returned isEncoded⟩

/-- A program with a caret in the label that names it, and one whose name is broken off by a line
    feed, are assembled without an error and cannot be read back. -/
theorem caret_name_unread :
    (∃ assembly,
      (assemble { nameFromLabel := true } "<input>" "A^B START 1000\n LDA\n END\n" "LDA 00\n").result = .ok assembly ∧
        assembly.succeeded ∧
        ObjectProgram.parse "<object>" assembly.printout.objectProgram = .error
          { cause := .malformedRecord "H" "header needs name, start and length"
            location := some ⟨"<object>", 4, 0⟩
            sourceLine := some "H^A^B   ^001000^000001" }) ∧
    ∃ assembly,
      (assemble { programName := "A\nB" } "<input>" " START 1000\n LDA\n END\n" "LDA 00\n").result = .ok assembly ∧
        assembly.succeeded ∧
        ObjectProgram.parse "<object>" assembly.printout.objectProgram = .error
          { cause := .malformedRecord "H" "header needs name, start and length"
            location := some ⟨"<object>", 4, 0⟩
            sourceLine := some "H^A" } := by
  constructor
  · exact exists_ok_of_any (by decide +kernel)
  · exact exists_ok_of_any (by decide +kernel)

end TwoPass
