import TwoPass.Proofs.ObjectFile

/-!
The texts that are written and read again, as codecs. An object program is read back from its text if
no caret and no line boundary stands in its name and its fragments, and no program is ever read that has
one there (`CodecLaw`). The lines of an intermediate file give back the records they were written for,
numbered by line, whether or not object code stands behind them (`parse_listing`).
-/
namespace TwoPass

open Text

namespace ObjectProgram

/-- All texts of a program can stand in fields. -/
structure Clear (program : ObjectProgram) : Prop where
  name : IsField program.header.name.toList
  fragments : ∀ record ∈ program.texts, ∀ fragment ∈ record.fragments, IsField fragment.toList

variable {program : ObjectProgram}

theorem Clear.parse_text (clear : program.Clear) (file : String) : parse file program.text = .ok program.stored := by
  have kept : IsField (keptName program.header.name) := fun c member => clear.name c (List.mem_of_mem_take member)
  have read := (parse_program_iff (List.forall_mem_nil _) (List.forall_mem_nil _) clear.fragments file).mpr kept
  rwa [endLines, String.empty_append] at read

theorem clear_of_parse {file text : String} (read : parse file text = .ok program) : program.Clear where
  name := parse_isField read
  fragments record member := by
    have listed : ObjectRecord.text record ∈ program.records := by simp [records, member]
    exact parse_whole read _ listed

/-- How programs are written and read. -/
structure CodecLaw (file : String) : Prop where
  /-- A program without carets and line boundaries is read back, with the first six characters of its
      name and without the blanks at their end. -/
  written : ∀ program : ObjectProgram, program.Clear → parse file program.text = .ok program.stored
  /-- Every program that is read from any text is such a program, -/
  read : ∀ text program, parse file text = .ok program → program.Clear
  /-- so that writing it and reading it again changes no more than the name. -/
  reread : ∀ text program, parse file text = .ok program → parse file program.text = .ok program.stored

theorem parse_codecLaw (file : String) : CodecLaw file where
  written _ clear := clear.parse_text file
  read _ _ := clear_of_parse
  reread _ _ read := (clear_of_parse read).parse_text file

/-- A program without an end record, with a name that is cut behind a blank, numbers of any sign and size,
    a record without fragments and fragments that are empty or of odd length. -/
private def ragged : ObjectProgram :=
  { header := ⟨"COPY  LOOP", -1, 0x1234567⟩
    texts := [⟨0x1000, []⟩, ⟨-0x20, ["", "0A1", "FFFF"]⟩] }

theorem parse_codecLaw_ragged :
    ragged.text = "H^COPY  ^-00001^1234567\nT^001000^00\nT^-00020^03^^0A1^FFFF\n" ∧
      parse "<object>" ragged.text = .ok { ragged with header := ⟨"COPY", -1, 0x1234567⟩ } :=
  ⟨by decide +kernel, (parse_codecLaw "<object>").written ragged ⟨by decide, by decide⟩⟩

end ObjectProgram

/-- The fields of a record can be told apart in a line, and there is something to be seen of it. -/
structure Record.Writable (record : Record) : Prop where
  cells : Cells record.label record.opcode record.operand
  tabFree : TabFree record.label record.opcode record.operand
  shown : record.address.isSome ∨ record.label.isSome ∨ record.operand.isSome ∨ record.opcode ≠ ""

instance (record : Record) : Decidable record.Writable :=
  decidable_of_iff
    (Cells record.label record.opcode record.operand ∧ TabFree record.label record.opcode record.operand ∧
      (record.address.isSome ∨ record.label.isSome ∨ record.operand.isSome ∨ record.opcode ≠ ""))
    ⟨fun all => ⟨all.1, all.2.1, all.2.2⟩, fun writable => ⟨writable.cells, writable.tabFree, writable.shown⟩⟩

/-- A record as it is read from a line of the given number. -/
def Record.readAt (record : Record) (number : Nat) (line : String) : Record :=
  { record with line := number, sourceLine := some line }

namespace Record

variable {record : Record}

theorem Writable.storable (writable : record.Writable) : record.Storable := by
  refine ⟨writable.cells, ?_⟩
  -- What is there of a record is not empty in its column.
  have present {field : Option String} (there : field.isSome) (nonempty : ∀ text ∈ field, text ≠ "" ∧ IsCell text) :
      field.getD "" ≠ "" := by
    obtain ⟨text, rfl⟩ := Option.isSome_iff_exists.mp there
    exact (nonempty text rfl).1
  simp only [columns, List.exists_mem_cons_iff]
  rcases writable.shown with address | label | operand | opcode
  · obtain ⟨value, stands⟩ := Option.isSome_iff_exists.mp address
    left
    rw [addressText, stands]
    exact upperHex_ne_empty 4 value
  · exact .inr (.inl (present label writable.cells.label))
  · exact .inr (.inr (.inr (.inl (present operand writable.cells.operand))))
  · exact .inr (.inr (.inl opcode))

theorem tab_notMem_columns (free : TabFree record.label record.opcode record.operand) :
    ∀ column ∈ record.columns, '\t' ∉ column.toList :=
  List.forall_mem_cons.mpr ⟨record.tab_notMem_addressText, free⟩

theorem fields_text_of_tabFree (free : TabFree record.label record.opcode record.operand) :
    fields '\t' record.text.toList = record.columns.map String.toList := by
  have single : ∀ column ∈ record.columns, fields '\t' column.toList = [column.toList] := fun column isColumn =>
    fields_of_not_mem (tab_notMem_columns free column isColumn)
  rw [fields_text, List.flatMap_congr single, List.map_eq_flatMap]

end Record

namespace ListingLine

variable {line : ListingLine}

/-- The columns of a line in a listing: those of its record, and one more if there is code. -/
theorem fields_text (free : TabFree line.record.label line.record.opcode line.record.operand)
    (dark : ∀ c ∈ line.code.toList, isBlank c = false) :
    ∃ others, fields '\t' line.text.toList = line.record.columns.map String.toList ++ others := by
  have codeFree : '\t' ∉ line.code.toList := fun member => absurd (dark '\t' member) (by decide)
  rw [toList_text]
  split
  · exact ⟨[], by rw [List.append_nil, List.append_nil, Record.fields_text_of_tabFree free]⟩
  · exact ⟨[line.code.toList], by rw [fields_append, Record.fields_text_of_tabFree free, fields_of_not_mem codeFree]⟩

end ListingLine

namespace Intermediate

theorem column_append {columns : List String} {index : Nat} {text : String} (found : columns[index]? = some text)
    (cell : IsCell text) (others : List (List Char)) : column (columns.map String.toList ++ others) index = text := by
  have inside : index < (columns.map String.toList).length := by
    rw [List.length_map]
    exact (List.getElem?_eq_some_iff.mp found).1
  rw [column, List.getElem?_append_left inside, List.getElem?_map, found]
  simp [cell.trimmed]

/-- A record is read from a line that begins with its columns. -/
theorem readLine_of_columns {record : Record} {line : String} {others : List (List Char)}
    (cells : Cells record.label record.opcode record.operand)
    (split : fields '\t' line.toList = record.columns.map String.toList ++ others) (file : String) (number : Nat) :
    readLine file number line = .ok (record.readAt number line) := by
  have cell := Record.isCell_columns cells
  simp only [Record.columns, List.forall_mem_cons] at cell
  obtain ⟨addressCell, labelCell, opcodeCell, operandCell, -⟩ := cell
  have long : ¬ (record.columns.map String.toList ++ others).length < 3 := by simp [Record.columns]
  have address : column (record.columns.map String.toList ++ others) 0 = record.addressText :=
    column_append rfl addressCell others
  have label : column? (record.columns.map String.toList ++ others) 1 = record.label := by
    rw [column?, filter_isEmpty_eq_iff fun text present => (cells.label text present).1]
    exact column_append rfl labelCell others
  have opcode : column (record.columns.map String.toList ++ others) 2 = record.opcode :=
    column_append rfl opcodeCell others
  have operand : column? (record.columns.map String.toList ++ others) 3 = record.operand := by
    rw [column?, filter_isEmpty_eq_iff fun text present => (cells.operand text present).1]
    exact column_append rfl operandCell others
  simp only [readLine, split, if_neg long, address, readAddress_addressText, label, opcode, operand, Record.readAt]

section
variable {listing : List ListingLine} (writable : ∀ line ∈ listing, line.record.Writable)
  (dark : ∀ line ∈ listing, ∀ c ∈ line.code.toList, isBlank c = false)
include writable dark

/-- The lines of a listing give back its records, numbered by line. -/
theorem readLines_listing (file : String) (number : Nat) :
    readLines file number (listing.map ListingLine.text) =
      .ok ((numbered number listing).map fun entry => entry.2.record.readAt entry.1 entry.2.text) := by
  induction listing generalizing number with
  | nil => rfl
  | cons line rest ih =>
    rw [List.forall_mem_cons] at writable dark
    obtain ⟨others, split⟩ := ListingLine.fields_text writable.1.tabFree dark.1
    have visible : ¬ line.text.toList.all isBlank := by simp [ListingLine.not_blank writable.1.storable]
    rw [List.map_cons, readLines, if_neg visible, readLine_of_columns writable.1.cells split,
      ih writable.2 dark.2 (number + 1)]
    rfl

theorem parse_listing (file : String) :
    parse file (endLines (listing.map ListingLine.text)) =
      .ok ((numbered 1 listing).map fun entry => entry.2.record.readAt entry.1 entry.2.text) := by
  have unbroken : ∀ text ∈ listing.map ListingLine.text, ∀ c ∈ text.toList, isBoundary c = false := by
    rw [List.forall_mem_map]
    intro line isLine
    exact ListingLine.unbroken (writable line isLine).storable (isCell_of_dark (dark line isLine)).unbroken
  rw [parse, lines_endLines unbroken]
  exact readLines_listing writable dark file 1

end

/-- How the file of records is read. -/
structure FileLaw (records : List Record) (file : String) : Prop where
  /-- The records come back in order, with the number and the text of their lines. -/
  plain : parse file (render records) =
    .ok ((numbered 1 records).map fun entry => entry.2.readAt entry.1 entry.2.text)
  /-- So they do if object code stands behind any of their lines, but that the code is in the text. -/
  coded : ∀ listing : List ListingLine, listing.map ListingLine.record = records →
    (∀ line ∈ listing, ∀ c ∈ line.code.toList, isHexDigit c) →
      parse file (endLines (listing.map ListingLine.text)) =
        .ok ((numbered 1 listing).map fun entry => entry.2.record.readAt entry.1 entry.2.text)

theorem parse_fileLaw {records : List Record} (writable : ∀ record ∈ records, record.Writable) (file : String) :
    FileLaw records file where
  plain := by
    -- The lines of records are those of a listing without code.
    have bare : ∀ line ∈ records.map fun record => (⟨record, ""⟩ : ListingLine), line.record.Writable :=
      List.forall_mem_map.mpr writable
    have read := parse_listing bare (List.forall_mem_map.mpr fun _ _ => List.forall_mem_nil _) file
    rw [numbered_map, List.map_map, List.map_map] at read
    exact read
  coded listing same digits := by
    rw [← same, List.forall_mem_map] at writable
    exact parse_listing writable (fun line isLine c inside => isBlank_of_isHexDigit (digits line isLine c inside)) file

/-- Records with an address below zero, without an address, beyond four digits and without an opcode. -/
private def mixed : List Record :=
  [{ address := some (-10), label := some "A", opcode := "LDA", operand := some "C'x  y'" },
    { address := none, opcode := "END" },
    { address := some 0x12345, opcode := "" },
    { address := none, label := some "B", opcode := "" }]

theorem parse_fileLaw_mixed :
    render mixed = "-00A\tA\tLDA\tC'x  y'\n\t\tEND\t\n12345\t\t\t\n\tB\t\t\n" ∧ (∀ record ∈ mixed, record.Writable) ∧
      FileLaw mixed "<intermediate>" :=
  ⟨by decide +kernel, by decide +kernel, parse_fileLaw (by decide +kernel) "<intermediate>"⟩

end Intermediate

end TwoPass
