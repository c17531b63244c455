import TwoPass.Proofs.Listing

/-!
Sizes and codes. The first pass reserves for a statement what the second pass fills: the
code of a record spells at most as many bytes as its statement takes, and exactly so many
if it is a word, a byte constant or an instruction with a defined operand (`code_cases`).
With the addresses of the layout, no code leaves the memory and no two codes overlap
(`MemoryLaw`).
-/
namespace TwoPass

open Text

section
variable {table : OpcodeTable} {opcode : String} {operand : Option String}

theorem statementSize_word (isWord : opcode = Directive.word.name) :
    statementSize table opcode operand = (Operand.word operand).map fun _ => some wordSize := by
  simp only [statementSize, isWord, OpcodeTable.operation_name]

theorem statementSize_byte (isByte : opcode = Directive.byte.name) :
    statementSize table opcode operand = (Operand.byteCode operand).map fun code => some (code.length / 2) := by
  simp only [statementSize, isByte, OpcodeTable.operation_name]

theorem statementSize_instruction {code : String} (means : table.operation opcode = .instruction code) :
    statementSize table opcode operand = .ok (some wordSize) := by
  simp only [statementSize, means]

/-- An operation that is no directive has another name than any directive. -/
theorem ne_name_of_operation {operation : Operation} (means : table.operation opcode = operation)
    {directive : Directive} (other : operation ≠ .directive directive) : opcode ≠ directive.name := by
  intro named
  rw [(table.operation_eq_directive_iff opcode directive).mpr named] at means
  exact other means.symm

end

/-- The codes that a record of a layout can have. -/
inductive CodeCase (encoder : Encoder) (record : Record) : Prop
  | word {value : Int} (isWord : record.opcode = Directive.word.name) (operand : Operand.word record.operand = .ok value)
      (code : encoder.recordCode record = Operand.wordCode value)
  | byte {constant : String} {bytes : Nat} (isByte : record.opcode = Directive.byte.name)
      (operand : Operand.byteCode record.operand = .ok constant) (code : encoder.recordCode record = constant)
      (positive : 0 < bytes) (spells : Spells bytes constant)
  | resolved {code : String} {address : Int} (means : encoder.table.operation record.opcode = .instruction code)
      (found : (Encoder.operand? record).bind encoder.symbols.address? = some address)
      (spells : Spells wordSize (encoder.recordCode record))
  | unresolved {code : String} (means : encoder.table.operation record.opcode = .instruction code)
      (missing : (Encoder.operand? record).bind encoder.symbols.address? = none)
      (spells : Spells 1 (encoder.recordCode record))
  | none (notWord : record.opcode ≠ Directive.word.name) (notByte : record.opcode ≠ Directive.byte.name)
      (code : encoder.recordCode record = "")

section
variable {settings : Settings} {table : OpcodeTable} {statements : List Statement} {file : String} {warnUnknown : Bool}
  {record : Record}

private theorem code_cases_instruction {code : String} (means : table.operation record.opcode = .instruction code) :
    CodeCase (programEncoder settings table statements file warnUnknown) record := by
  by_cases proper : Encoder.isHexByte code
  · have front := Encoder.isHexByte_spells proper
    have whole := Encoder.recordCode_instruction
      (show (programEncoder settings table statements file warnUnknown).table.operation record.opcode = _ from means) proper
    cases target : (Encoder.operand? record).bind (layOut settings table statements).symbols.address? with
    | none =>
      rw [Encoder.addressField_of_unresolved target, String.append_empty] at whole
      exact .unresolved means target (whole ▸ front)
    | some address =>
      obtain ⟨symbol, -, found⟩ := Option.bind_eq_some_iff.mp target
      obtain ⟨value, -, numeral⟩ := layOut_address_numeral found
      have field : Spells 2 (upperHex 4 address) := .of_numeral numeral
      rw [Encoder.addressField_of_resolved target] at whole
      exact .resolved means target (whole ▸ front.append field)
  · refine .none (ne_name_of_operation means nofun) (ne_name_of_operation means nofun) ?_
    simp only [Encoder.recordCode, programEncoder, means, Encoder.instructionCode, proper]
    rfl

/-- The second pass reads the operands that the first pass has read. -/
theorem code_cases (readable : ∃ size?, statementSize table record.opcode record.operand = .ok size?) :
    CodeCase (programEncoder settings table statements file warnUnknown) record := by
  obtain ⟨size?, size⟩ := readable
  cases means : table.operation record.opcode with
  | instruction code => exact code_cases_instruction means
  | unknown =>
    refine .none (ne_name_of_operation means (by simp)) (ne_name_of_operation means (by simp)) ?_
    simp only [Encoder.recordCode, programEncoder, means]
  | directive directive =>
    have named := (table.operation_eq_directive_iff record.opcode directive).mp means
    have silent (notWord : directive ≠ .word) (notByte : directive ≠ .byte)
        (code : (programEncoder settings table statements file warnUnknown).recordCode record = "") :
        CodeCase (programEncoder settings table statements file warnUnknown) record :=
      .none (named ▸ Directive.name_injective.ne notWord) (named ▸ Directive.name_injective.ne notByte) code
    cases directive with
    | word =>
      rw [statementSize_word named] at size
      cases operand : Operand.word record.operand with
      | error fault => simp [operand, Except.map] at size
      | ok value =>
        refine .word named operand ?_
        rw [Encoder.recordCode_word named, operand]
        rfl
    | byte =>
      rw [statementSize_byte named] at size
      cases operand : Operand.byteCode record.operand with
      | error fault => simp [operand, Except.map] at size
      | ok constant =>
        obtain ⟨bytes, positive, spells⟩ := Operand.byteCode_spells operand
        refine .byte named operand ?_ positive spells
        rw [Encoder.recordCode_byte named, operand]
        rfl
    | _ => exact silent (by decide) (by decide) (by simp only [Encoder.recordCode, programEncoder, means])

end

section
variable {encoder : Encoder} {record : Record}

/-- The code of a record spells no more bytes than its statement takes. -/
theorem CodeCase.fits (code : CodeCase encoder record) (bearing : encoder.recordCode record ≠ "") :
    ∃ bytes size, Spells bytes (encoder.recordCode record) ∧
      statementSize encoder.table record.opcode record.operand = .ok (some size) ∧ bytes ≤ size := by
  cases code with
  | word isWord operand code =>
    refine ⟨3, wordSize, ?_, by rw [statementSize_word isWord, operand]; rfl, Nat.le_refl 3⟩
    rw [code]
    exact Operand.wordCode_spells _
  | byte isByte operand code _ spells =>
    refine ⟨_, _, by rw [code]; exact spells, by rw [statementSize_byte isByte, operand]; rfl, ?_⟩
    rw [spells.length]
    omega
  | resolved means _ spells => exact ⟨wordSize, wordSize, spells, statementSize_instruction means, Nat.le_refl _⟩
  | unresolved means _ spells => exact ⟨1, wordSize, spells, statementSize_instruction means, by decide⟩
  | none _ _ code => exact absurd code bearing

/-- Neither START nor END has a code. -/
theorem CodeCase.plain (code : CodeCase encoder record) (bearing : encoder.recordCode record ≠ "") :
    PlainOpcode record.opcode := by
  cases code with
  | word isWord _ _ =>
    rw [isWord]
    exact ⟨Directive.name_injective.ne nofun, Directive.name_injective.ne nofun⟩
  | byte isByte _ _ _ _ =>
    rw [isByte]
    exact ⟨Directive.name_injective.ne nofun, Directive.name_injective.ne nofun⟩
  | resolved means _ _ => exact ⟨ne_name_of_operation means nofun, ne_name_of_operation means nofun⟩
  | unresolved means _ _ => exact ⟨ne_name_of_operation means nofun, ne_name_of_operation means nofun⟩
  | none _ _ code => exact absurd code bearing

/-- A word has the code of the value of its operand. -/
theorem CodeCase.word_code (code : CodeCase encoder record) (isWord : record.opcode = Directive.word.name) :
    ∃ value, Operand.word record.operand = .ok value ∧ encoder.recordCode record = Operand.wordCode value := by
  cases code with
  | word _ operand code => exact ⟨_, operand, code⟩
  | byte isByte _ _ _ _ => exact absurd (isWord.symm.trans isByte) (Directive.name_injective.ne nofun)
  | resolved means _ _ => exact absurd isWord (ne_name_of_operation means nofun)
  | unresolved means _ _ => exact absurd isWord (ne_name_of_operation means nofun)
  | none notWord _ _ => exact absurd isWord notWord

/-- Words, byte constants and instructions with a defined operand fill what their
    statements take. -/
theorem CodeCase.fills (code : CodeCase encoder record)
    (full : record.opcode = Directive.word.name ∨ record.opcode = Directive.byte.name ∨
      encoder.recordCode record ≠ "" ∧ ((Encoder.operand? record).bind encoder.symbols.address?).isSome) :
    encoder.recordCode record ≠ "" ∧
      statementSize encoder.table record.opcode record.operand = .ok (some (byteCount (encoder.recordCode record))) := by
  cases code with
  | @word value isWord operand code =>
    have spells := Operand.wordCode_spells value
    rw [code, statementSize_word isWord, operand, spells.byteCount]
    exact ⟨spells.ne_empty (by decide), rfl⟩
  | byte isByte operand code positive spells =>
    rw [code, statementSize_byte isByte, operand]
    exact ⟨spells.ne_empty positive, rfl⟩
  | resolved means _ spells =>
    rw [statementSize_instruction means, spells.byteCount]
    exact ⟨spells.ne_empty (by decide), rfl⟩
  | unresolved means missing _ =>
    rcases full with isWord | isByte | ⟨-, found⟩
    · exact absurd isWord (ne_name_of_operation means nofun)
    · exact absurd isByte (ne_name_of_operation means nofun)
    · rw [missing] at found
      contradiction
  | none notWord notByte code =>
    rcases full with isWord | isByte | ⟨bearing, -⟩
    · exact absurd isWord notWord
    · exact absurd isByte notByte
    · exact absurd code bearing

end

/-- How the codes of a listing lie in the memory. -/
structure MemoryLaw (encoder : Encoder) (listing : List ListingLine) : Prop where
  /-- A code is an even number of capital digits. -/
  digits : ∀ line ∈ listing, line.code ≠ "" →
    line.code.length % 2 = 0 ∧ ∀ c ∈ line.code.toList, isCapitalDigit c
  /-- It spells no more bytes than its statement takes. -/
  fits : ∀ line ∈ listing, line.code ≠ "" →
    ∃ size, statementSize encoder.table line.record.opcode line.record.operand = .ok (some size) ∧
      byteCount line.code ≤ size
  /-- It spells as many if it is that of a word, a byte constant or an instruction with a
      defined operand. -/
  fills : ∀ line ∈ listing,
    (line.record.opcode = Directive.word.name ∨ line.record.opcode = Directive.byte.name ∨
      line.code ≠ "" ∧ ((Encoder.operand? line.record).bind encoder.symbols.address?).isSome) →
    line.code ≠ "" ∧ statementSize encoder.table line.record.opcode line.record.operand = .ok (some (byteCount line.code))
  /-- A word has six digits, with the value of its operand up to a multiple of 2 to the 24. -/
  word : ∀ line ∈ listing, line.record.opcode = Directive.word.name →
    ∃ value, Operand.word line.record.operand = .ok value ∧ line.code.length = 6 ∧
      (digitsValue .sixteen line.code.toList : Int) ≡ value [ZMOD 2 ^ 24]
  /-- No code leaves the memory. -/
  inside : ∀ line ∈ listing, line.code ≠ "" →
    ∃ address : Int, line.record.address = some address ∧ address + byteCount line.code ≤ 0x10000
  /-- A code ends in front of every later one that no START separates from it. -/
  apart : ∀ earlier first between second later, listing = earlier ++ first :: between ++ second :: later →
    first.code ≠ "" → second.code ≠ "" → (∀ line ∈ between, line.record.opcode ≠ Directive.start.name) →
      ∃ here there : Int, first.record.address = some here ∧ second.record.address = some there ∧
        here + byteCount first.code ≤ there

section
variable {settings : Settings} {table : OpcodeTable} {statements : List Statement} {file : String} {warnUnknown : Bool}

/-- What a line of a complete program holds. -/
theorem line_code_cases (complete : (layOut settings table statements).aborted = false) {line : ListingLine}
    (member : line ∈ (programEncoder settings table statements file warnUnknown).listing
      (layOut settings table statements).records) :
    line.code = (programEncoder settings table statements file warnUnknown).recordCode line.record ∧
      CodeCase (programEncoder settings table statements file warnUnknown) line.record := by
  obtain ⟨recorded, code⟩ := Encoder.mem_listing member
  obtain ⟨_, fit⟩ := (layOut_fits complete).of_mem recorded
  exact ⟨code, code_cases fit.readable⟩

/-- A line with a code takes at least the bytes of the code, from the counter on. -/
theorem bearing_line_stands (complete : (layOut settings table statements).aborted = false)
    {earlier later : List ListingLine} {line : ListingLine}
    (split : (programEncoder settings table statements file warnUnknown).listing
      (layOut settings table statements).records = earlier ++ line :: later)
    (bearing : line.code ≠ "") :
    line.record.address = some (Layout.counterAfter table 0 (earlier.map ListingLine.record) : Int) ∧
      PlainOpcode line.record.opcode ∧ byteCount line.code ≤ line.record.bytes table ∧
      Layout.counterAfter table 0 (earlier.map ListingLine.record) + line.record.bytes table ≤ maxAddress + 1 := by
  obtain ⟨code, cases⟩ := line_code_cases complete (split ▸ List.mem_append_right earlier List.mem_cons_self)
  rw [code] at bearing ⊢
  have plain := cases.plain bearing
  obtain ⟨bytes, size, spells, sized, le⟩ := cases.fits bearing
  obtain ⟨rest, records⟩ := Encoder.listing_split split
  have stands := (layOut_standsAt settings table statements).at_split records
  have fits := (layOut_fits complete).at_split records
  refine ⟨(stands.plain plain).1, plain, ?_, fits.inside plain⟩
  have taken : line.record.bytes table = size := Record.bytes_of_size sized
  rw [taken, spells.byteCount]
  exact le

end

/-- The codes of a program that was laid out to its end lie apart in the memory, each
    within what was reserved for its statement. -/
theorem listing_memoryLaw (settings : Settings) (table : OpcodeTable) (statements : List Statement) (file : String)
    (warnUnknown : Bool) (complete : (layOut settings table statements).aborted = false) :
    MemoryLaw (programEncoder settings table statements file warnUnknown)
      (encode (programEncoder settings table statements file warnUnknown)
        (layOut settings table statements).records).listing := by
  refine ⟨?_, ?_, ?_, ?_, ?_, ?_⟩
  · intro line member bearing
    obtain ⟨code, cases⟩ := line_code_cases complete member
    rw [code] at bearing ⊢
    obtain ⟨bytes, -, spells, -, -⟩ := cases.fits bearing
    exact ⟨by rw [spells.length]; omega, spells.digits⟩
  · intro line member bearing
    obtain ⟨code, cases⟩ := line_code_cases complete member
    rw [code] at bearing ⊢
    obtain ⟨bytes, size, spells, sized, le⟩ := cases.fits bearing
    exact ⟨size, sized, by rw [spells.byteCount]; exact le⟩
  · intro line member full
    obtain ⟨code, cases⟩ := line_code_cases complete member
    rw [code] at full ⊢
    exact cases.fills full
  · intro line member isWord
    obtain ⟨code, cases⟩ := line_code_cases complete member
    obtain ⟨value, operand, written⟩ := cases.word_code isWord
    rw [code, written]
    exact ⟨value, operand, (Operand.wordCode_numeral value).length, Operand.wordCode_modEq value⟩
  · intro line member bearing
    obtain ⟨earlier, later, split⟩ := List.append_of_mem member
    obtain ⟨stands, -, taken, inside⟩ := bearing_line_stands complete split bearing
    have last : maxAddress = 0xFFFF := rfl
    exact ⟨_, stands, by omega⟩
  · intro earlier first between second later split firstBearing secondBearing noStart
    have firstSplit := split.trans (List.append_assoc earlier (first :: between) (second :: later))
    obtain ⟨here, plain, taken, -⟩ := bearing_line_stands complete firstSplit firstBearing
    obtain ⟨there, -, -, -⟩ := bearing_line_stands complete split secondBearing
    refine ⟨_, _, here, there, ?_⟩
    -- From the first code on, the counter passes over the bytes of its statement and of those between.
    have passed : ∀ record ∈ (first :: between).map ListingLine.record, record.opcode ≠ Directive.start.name := by
      intro record member
      rcases List.mem_cons.mp member with rfl | isBetween
      · exact plain.1
      · obtain ⟨line, listed, rfl⟩ := List.mem_map.mp isBetween
        exact noStart line listed
    have counter := Layout.counterAfter_of_no_start table
      (Layout.counterAfter table 0 (earlier.map ListingLine.record)) _ passed
    rw [← Layout.counterAfter_append, ← List.map_append, List.map_cons, List.map_cons, List.sum_cons] at counter
    omega

/-- A program with code on both sides of reserved storage and behind a second START. -/
private def spread : List Statement :=
  [{ line := 1, text := " START FFF0", opcode := "START", operand := some "FFF0" },
    { line := 2, text := "ONE WORD -1", label := some "ONE", opcode := "WORD", operand := some "-1" },
    { line := 3, text := " RESB 4", opcode := "RESB", operand := some "4" },
    { line := 4, text := " LDA ONE", opcode := "LDA", operand := some "ONE" },
    { line := 5, text := " BYTE C'end...'", opcode := "BYTE", operand := some "C'end...'" },
    { line := 6, text := " START 0", opcode := "START", operand := some "0" },
    { line := 7, text := " LDA", opcode := "LDA" }]

theorem listing_memoryLaw_spread :
    (encode (programEncoder {} ⟨⟨[("LDA", "0c")]⟩⟩ spread "<input>" false)
      (layOut {} ⟨⟨[("LDA", "0c")]⟩⟩ spread).records).codes = ["", "FFFFFF", "", "0CFFF0", "656E642E2E2E", "", "0C"] ∧
    MemoryLaw (programEncoder {} ⟨⟨[("LDA", "0c")]⟩⟩ spread "<input>" false)
      (encode (programEncoder {} ⟨⟨[("LDA", "0c")]⟩⟩ spread "<input>" false)
        (layOut {} ⟨⟨[("LDA", "0c")]⟩⟩ spread).records).listing :=
  ⟨by decide +kernel, listing_memoryLaw {} ⟨⟨[("LDA", "0c")]⟩⟩ spread "<input>" false (by decide +kernel)⟩

end TwoPass
