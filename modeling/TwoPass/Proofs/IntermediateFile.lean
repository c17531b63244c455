import TwoPass.Intermediate
import TwoPass.Proofs.Places
import TwoPass.Proofs.Tokens

/-!
The intermediate file between the passes. What layout wrote is read without a fault, and a
record comes back with the fields it had exactly if none of them holds a tab (`readLine_text`).
Encoding does not read where a record stands in the source (`encode_congr`), so that a program
without tabs in its fields is encoded from the file as it is encoded directly
(`program_rereadLaw`).
-/
namespace TwoPass

open Text

/-- None of the fields of a statement holds a tab. -/
def TabFree (label : Option String) (opcode : String) (operand : Option String) : Prop :=
  ∀ field ∈ [label.getD "", opcode, operand.getD ""], '\t' ∉ field.toList

instance (label : Option String) (opcode : String) (operand : Option String) :
    Decidable (TabFree label opcode operand) :=
  inferInstanceAs (Decidable (∀ field ∈ [label.getD "", opcode, operand.getD ""], '\t' ∉ field.toList))

theorem tabFree_iff {label : Option String} {opcode : String} {operand : Option String} :
    TabFree label opcode operand ↔
      '\t' ∉ (label.getD "").toList ∧ '\t' ∉ opcode.toList ∧ '\t' ∉ (operand.getD "").toList := by
  simp [TabFree]

namespace Intermediate

/-- A text as it is read from the column it was written to. -/
def readBack (text : String) : String :=
  String.ofList (trimBlanks (text.toList.takeWhile (· ≠ '\t')))

/-- What was written to a column comes back exactly if it holds no tab. -/
theorem readBack_eq_iff {text : String} (cell : IsCell text) : readBack text = text ↔ '\t' ∉ text.toList := by
  rw [readBack, ← String.toList_inj, String.toList_ofList]
  constructor
  · intro same tabbed
    -- The column ends in front of the tab, so what is read from it is too short.
    have shorter := length_trimBlanks_le (text.toList.takeWhile (· ≠ '\t'))
    rw [same] at shorter
    have cut : (text.toList.takeWhile (· ≠ '\t')).length = text.toList.length :=
      Nat.le_antisymm (List.takeWhile_sublist _).length_le shorter
    have whole := List.takeWhile_eq_self_iff.mp ((List.takeWhile_sublist _).eq_of_length cut)
    exact absurd (whole '\t' tabbed) (by decide)
  · intro free
    have whole : text.toList.takeWhile (· ≠ '\t') = text.toList := by
      apply List.takeWhile_eq_self_iff.mpr
      intro c member
      exact decide_eq_true fun isTab => free (isTab ▸ member)
    rw [whole, cell.trimmed]

theorem column_of_fields (front : List (List Char)) (text : String) (back : List (List Char)) :
    column (front ++ (fields '\t' text.toList ++ back)) front.length = readBack text := by
  have first : (fields '\t' text.toList ++ back).head? = some (text.toList.takeWhile (· ≠ '\t')) := by
    rw [List.head?_append, head?_fields]
    rfl
  rw [column, List.getElem?_append_right (Nat.le_refl _), Nat.sub_self, ← List.head?_eq_getElem?, first]
  rfl

/-- An absent field is an empty column. -/
theorem filter_isEmpty_eq_iff {field : Option String} (nonempty : ∀ text ∈ field, text ≠ "") (text : String) :
    (some text).filter (!·.isEmpty) = field ↔ text = field.getD "" := by
  cases field with
  | none => simp
  | some other =>
    have present := nonempty other rfl
    simp only [Option.filter_some, Option.getD_some]
    constructor
    · intro same
      split at same
      · exact Option.some.inj same
      · contradiction
    · rintro rfl
      simp [present]

end Intermediate

namespace Record

variable {record : Record}

theorem toList_text (record : Record) :
    record.text.toList = record.addressText.toList ++ '\t' :: ((record.label.getD "").toList ++
      '\t' :: (record.opcode.toList ++ '\t' :: (record.operand.getD "").toList)) := by
  simp [text, columns]

theorem mem_text_iff {c : Char} : c ∈ record.text.toList ↔ c = '\t' ∨ ∃ column ∈ record.columns, c ∈ column.toList := by
  rw [toList_text]
  simp only [columns, List.mem_append, List.mem_cons, List.not_mem_nil, or_false, or_and_right, exists_or,
    exists_eq_left]
  tauto

/-- The columns of a line are those of its fields, more than one for a field with tabs. -/
theorem fields_text (record : Record) :
    fields '\t' record.text.toList = record.columns.flatMap fun column => fields '\t' column.toList := by
  rw [toList_text, fields_append, fields_append, fields_append]
  simp [columns]

theorem mem_addressText {c : Char} (member : c ∈ record.addressText.toList) : isBlank c = false := by
  rw [addressText] at member
  split at member
  · rcases mem_upperHex member with rfl | capital
    · decide
    · exact isBlank_of_isCapitalDigit capital
  · contradiction

theorem isCell_addressText (record : Record) : IsCell record.addressText :=
  isCell_of_dark fun _ => mem_addressText

theorem tab_notMem_addressText (record : Record) : '\t' ∉ record.addressText.toList :=
  fun member => absurd (mem_addressText member) (by decide)

theorem isCell_columns (cells : Cells record.label record.opcode record.operand) :
    ∀ column ∈ record.columns, IsCell column := by
  have optional {field : Option String} (cell : ∀ text ∈ field, text ≠ "" ∧ IsCell text) : IsCell (field.getD "") := by
    cases field with
    | none => exact isCell_empty
    | some text => exact (cell text rfl).2
  simp only [columns, List.forall_mem_cons]
  exact ⟨isCell_addressText record, optional cells.label, cells.opcode, optional cells.operand, nofun⟩

/-- The fields can stand in columns, and not all columns are empty. -/
structure Storable (record : Record) : Prop where
  cells : Cells record.label record.opcode record.operand
  visible : ∃ column ∈ record.columns, column ≠ ""

theorem Storable.unbroken (storable : record.Storable) : ∀ c ∈ record.text.toList, isBoundary c = false := by
  intro c member
  rcases mem_text_iff.mp member with rfl | ⟨column, isColumn, inside⟩
  · decide
  · exact (isCell_columns storable.cells column isColumn).unbroken c inside

theorem Storable.not_blank (storable : record.Storable) : record.text.toList.all isBlank = false := by
  obtain ⟨column, isColumn, nonempty⟩ := storable.visible
  obtain ⟨c, inside, dark⟩ := (isCell_columns storable.cells column isColumn).exists_dark nonempty
  rw [List.all_eq_false]
  exact ⟨c, mem_text_iff.mpr (.inr ⟨column, isColumn, inside⟩), by simp [dark]⟩

/-- A record comes back from the file with the fields it had exactly if none holds a tab. -/
def Reread (again record : Record) : Prop :=
  again.bare = record.bare ↔ TabFree record.label record.opcode record.operand

end Record

namespace ListingLine

theorem toList_text (line : ListingLine) :
    line.text.toList = line.record.text.toList ++ if line.code.isEmpty then [] else '\t' :: line.code.toList := by
  rw [text, Record.text]
  by_cases empty : line.code.isEmpty
  · simp [empty]
  · simp [empty, Record.columns]

theorem unbroken {line : ListingLine} (storable : line.record.Storable)
    (code : ∀ c ∈ line.code.toList, isBoundary c = false) : ∀ c ∈ line.text.toList, isBoundary c = false := by
  intro c member
  rw [toList_text] at member
  rcases List.mem_append.mp member with inRecord | behind
  · exact storable.unbroken c inRecord
  · split at behind
    · contradiction
    · rcases List.mem_cons.mp behind with rfl | inCode
      · decide
      · exact code c inCode

theorem not_blank {line : ListingLine} (storable : line.record.Storable) : line.text.toList.all isBlank = false := by
  rw [toList_text, List.all_append, storable.not_blank, Bool.false_and]

end ListingLine

namespace Intermediate

theorem readAddress_addressText (record : Record) : readAddress record.addressText = .ok record.address := by
  rw [Record.addressText]
  cases record.address with
  | none => rfl
  | some address =>
    simp only [readAddress, String.isEmpty_iff, upperHex_ne_empty, if_false, readInt_upperHex]
    rfl

section
variable (record : Record)

theorem length_fields_text : ¬ (fields '\t' record.text.toList).length < 3 := by
  have positive (text : String) := List.length_pos_iff.mpr (fields_ne_nil '\t' text.toList)
  have address := positive record.addressText
  have label := positive (record.label.getD "")
  have opcode := positive record.opcode
  rw [Record.fields_text]
  simp only [Record.columns, List.flatMap_cons, List.length_append]
  omega

theorem column_address : column (fields '\t' record.text.toList) 0 = record.addressText := by
  rw [Record.fields_text, Record.columns, List.flatMap_cons]
  have read := column_of_fields [] record.addressText
  exact (read _).trans ((readBack_eq_iff record.isCell_addressText).mpr record.tab_notMem_addressText)

theorem column_label : column (fields '\t' record.text.toList) 1 = readBack (record.label.getD "") := by
  rw [Record.fields_text, Record.columns, List.flatMap_cons, List.flatMap_cons,
    fields_of_not_mem record.tab_notMem_addressText]
  exact column_of_fields [_] (record.label.getD "") _

variable {record}

theorem column_opcode (labelFree : '\t' ∉ (record.label.getD "").toList) :
    column (fields '\t' record.text.toList) 2 = readBack record.opcode := by
  rw [Record.fields_text, Record.columns, List.flatMap_cons, List.flatMap_cons, List.flatMap_cons,
    fields_of_not_mem record.tab_notMem_addressText, fields_of_not_mem labelFree]
  exact column_of_fields [_, _] record.opcode _

theorem column_operand (labelFree : '\t' ∉ (record.label.getD "").toList) (opcodeFree : '\t' ∉ record.opcode.toList) :
    column (fields '\t' record.text.toList) 3 = readBack (record.operand.getD "") := by
  rw [Record.fields_text, Record.columns, List.flatMap_cons, List.flatMap_cons, List.flatMap_cons, List.flatMap_cons,
    fields_of_not_mem record.tab_notMem_addressText, fields_of_not_mem labelFree, fields_of_not_mem opcodeFree]
  exact column_of_fields [_, _, _] (record.operand.getD "") _

/-- The line of a record is read without a fault. -/
theorem readLine_text (cells : Cells record.label record.opcode record.operand) (file : String) (number : Nat) :
    ∃ again, readLine file number record.text = .ok again ∧ again.Reread record := by
  have cell := Record.isCell_columns cells
  simp only [Record.columns, List.forall_mem_cons] at cell
  obtain ⟨-, labelCell, opcodeCell, operandCell, -⟩ := cell
  -- A column is in its place only if no field in front of it holds a tab.
  have label : column? (fields '\t' record.text.toList) 1 = record.label ↔ '\t' ∉ (record.label.getD "").toList := by
    rw [column?, filter_isEmpty_eq_iff (fun text present => (cells.label text present).1), column_label,
      readBack_eq_iff labelCell]
  have opcode (labelFree : '\t' ∉ (record.label.getD "").toList) :
      column (fields '\t' record.text.toList) 2 = record.opcode ↔ '\t' ∉ record.opcode.toList := by
    rw [column_opcode labelFree, readBack_eq_iff opcodeCell]
  have operand (labelFree : '\t' ∉ (record.label.getD "").toList) (opcodeFree : '\t' ∉ record.opcode.toList) :
      column? (fields '\t' record.text.toList) 3 = record.operand ↔ '\t' ∉ (record.operand.getD "").toList := by
    rw [column?, filter_isEmpty_eq_iff (fun text present => (cells.operand text present).1),
      column_operand labelFree opcodeFree, readBack_eq_iff operandCell]
  refine ⟨{ address := record.address
            label := column? (fields '\t' record.text.toList) 1
            opcode := column (fields '\t' record.text.toList) 2
            operand := column? (fields '\t' record.text.toList) 3
            line := number
            sourceLine := some record.text }, ?_, ?_⟩
  · simp only [readLine, if_neg (length_fields_text record), column_address, readAddress_addressText]
  · rw [Record.Reread, tabFree_iff]
    simp only [Record.bare, Record.mk.injEq, true_and, and_true]
    constructor
    · rintro ⟨sameOpcode, sameLabel, sameOperand⟩
      have labelFree := label.mp sameLabel
      have opcodeFree := (opcode labelFree).mp sameOpcode
      exact ⟨labelFree, opcodeFree, (operand labelFree opcodeFree).mp sameOperand⟩
    · rintro ⟨labelFree, opcodeFree, operandFree⟩
      exact ⟨(opcode labelFree).mpr opcodeFree, label.mpr labelFree, (operand labelFree opcodeFree).mpr operandFree⟩

end

/-- Every record comes back, in order. -/
theorem readLines_texts {records : List Record} (storable : ∀ record ∈ records, record.Storable) (file : String)
    (number : Nat) : ∃ reread, readLines file number (records.map Record.text) = .ok reread ∧
      List.Forall₂ Record.Reread reread records := by
  induction records generalizing number with
  | nil => exact ⟨[], rfl, .nil⟩
  | cons record rest ih =>
    rw [List.forall_mem_cons] at storable
    obtain ⟨here, later⟩ := storable
    obtain ⟨again, read, isReread⟩ := readLine_text here.cells file number
    obtain ⟨reread, readRest, areReread⟩ := ih later (number + 1)
    refine ⟨again :: reread, ?_, .cons isReread areReread⟩
    rw [List.map_cons, readLines, if_neg (by simp [here.not_blank]), read, readRest]
    rfl

theorem parse_render {records : List Record} (storable : ∀ record ∈ records, record.Storable) (file : String) :
    ∃ reread, parse file (render records) = .ok reread ∧ List.Forall₂ Record.Reread reread records := by
  have unbroken : ∀ line ∈ records.map Record.text, ∀ c ∈ line.toList, isBoundary c = false := by
    intro line member
    obtain ⟨record, isRecord, rfl⟩ := List.mem_map.mp member
    exact (storable record isRecord).unbroken
  rw [parse, render, lines_endLines unbroken]
  exact readLines_texts storable file 1

end Intermediate

/-- Records that come back with their fields, all of them or not. -/
theorem map_bare_eq_iff {reread records : List Record} (areReread : List.Forall₂ Record.Reread reread records) :
    reread.map Record.bare = records.map Record.bare ↔
      ∀ record ∈ records, TabFree record.label record.opcode record.operand := by
  induction areReread with
  | nil => simp
  | cons isReread _ ih =>
    rw [Record.Reread] at isReread
    rw [List.map_cons, List.map_cons, List.cons.injEq, isReread, ih, List.forall_mem_cons]

/-- Two encodings with the same codes and the same object program. -/
structure SameEncoding (first second : Encoding) : Prop where
  codes : first.codes = second.codes
  program : first.program = second.program
  startAddress : first.startAddress = second.startAddress
  endingAddress : first.endingAddress = second.endingAddress

/-- Encoding does not read where a record stands in the source. -/
theorem encode_congr (encoder : Encoder) {first second : List Record}
    (same : first.map Record.bare = second.map Record.bare) :
    SameEncoding (encode encoder first) (encode encoder second) := by
  have encodings : (encode encoder first).unplaced = (encode encoder second).unplaced := by
    rw [← encode_unplaced, same, encode_unplaced]
  have codes : (encode encoder first).codes = (encode encoder second).codes := by
    rw [← Encoding.codes_unplaced, encodings, Encoding.codes_unplaced]
  simp only [Encoding.unplaced, Encoding.mk.injEq] at encodings
  obtain ⟨-, program, startAddress, endingAddress⟩ := encodings
  exact ⟨codes, program, startAddress, endingAddress⟩

/-- Whether the error limit ends the encoding does not depend on where records stand. -/
theorem encodingEvents_stop_congr (encoder : Encoder) {first second : List Record}
    (same : first.map Record.bare = second.map Record.bare) (before : Journal) :
    (before.replay (encodingEvents encoder first)).2 = (before.replay (encodingEvents encoder second)).2 := by
  have events : (encodingEvents encoder first).map Event.unplaced = (encodingEvents encoder second).map Event.unplaced := by
    rw [← encodingEvents_unplaced, same, encodingEvents_unplaced]
  obtain ⟨other, replayed, -⟩ := Journal.replay_congr (show before.unplaced = _ from rfl) events rfl
  rw [replayed]

theorem forall_mem_of_carries (holds : Option String → String → Option String → Prop) {records : List Record}
    {statements : List Statement} (carried : List.Forall₂ Record.Carries records statements) :
    (∀ record ∈ records, holds record.label record.opcode record.operand) ↔
      ∀ statement ∈ statements, holds statement.label statement.opcode statement.operand := by
  induction carried with
  | nil => simp
  | cons carries _ ih =>
    rw [List.forall_mem_cons, List.forall_mem_cons, ih, carries.label, carries.opcode, carries.operand]

/-- A record of a layout has an address, or its opcode is END. -/
theorem layOut_visible {settings : Settings} {table : OpcodeTable} {statements : List Statement} {record : Record}
    (member : record ∈ (layOut settings table statements).records) : ∃ column ∈ record.columns, column ≠ "" := by
  obtain ⟨_, stands⟩ := (layOut_standsAt settings table statements).of_mem member
  cases address : record.address with
  | none =>
    refine ⟨record.opcode, by simp [Record.columns], ?_⟩
    rw [stands.address_eq_none_iff.mp address]
    decide
  | some value =>
    refine ⟨record.addressText, by simp [Record.columns], ?_⟩
    rw [Record.addressText, address]
    exact upperHex_ne_empty 4 value

/-- What comes back from the file of a program, compared with the records of its layout. -/
structure RereadLaw (statements : List Statement) (records reread : List Record) : Prop where
  inPlace : List.Forall₂ Record.Reread reread records
  /-- All records come back with their fields exactly if no statement has a tab in one. -/
  whole : reread.map Record.bare = records.map Record.bare ↔
    ∀ statement ∈ statements, TabFree statement.label statement.opcode statement.operand
  /-- Encoding what came back gives the same codes and the same object program, and the error
      limit ends it in the same way. -/
  encoding : reread.map Record.bare = records.map Record.bare → ∀ encoder : Encoder,
    SameEncoding (encode encoder reread) (encode encoder records) ∧
      ∀ before : Journal, (before.replay (encodingEvents encoder reread)).2 =
        (before.replay (encodingEvents encoder records)).2

/-- The file of a program is read without a fault, and the program comes back from it exactly
    if no field of a statement holds a tab. It is then encoded as it is without the file. -/
theorem program_rereadLaw (settings : Settings) (table : OpcodeTable) (file source name : String)
    (complete : (layOut settings table (Statement.parseAll settings table file source)).aborted = false) :
    ∃ reread, Intermediate.parse name
        (Intermediate.render (layOut settings table (Statement.parseAll settings table file source)).records) =
          .ok reread ∧
      RereadLaw (Statement.parseAll settings table file source)
        (layOut settings table (Statement.parseAll settings table file source)).records reread := by
  have carried := layOut_carries_all complete
  have cells := (forall_mem_of_carries Cells carried).mpr fun _ => Statement.parseAll_cells
  have storable : ∀ record ∈ (layOut settings table (Statement.parseAll settings table file source)).records,
      record.Storable := fun record member => ⟨cells record member, layOut_visible member⟩
  obtain ⟨reread, read, areReread⟩ := Intermediate.parse_render storable name
  refine ⟨reread, read, areReread, ?_, ?_⟩
  · rw [map_bare_eq_iff areReread]
    exact forall_mem_of_carries TabFree carried
  · exact fun same encoder => ⟨encode_congr encoder same, encodingEvents_stop_congr encoder same⟩

/-- A program with blanks in a constant and a label in front of a colon. -/
private def spacedSource : String :=
  "COPY  START 1000\nFIRST LDA FIVE\nNAME: BYTE C'A  B'\nFIVE  WORD 5\n      END FIRST\n"

private def loadOnly : OpcodeTable :=
  ⟨⟨[("LDA", "00")]⟩⟩

theorem program_rereadLaw_spaced :
    (layOut {} loadOnly (Statement.parseAll {} loadOnly "<input>" spacedSource)).aborted = false ∧
    (∀ statement ∈ Statement.parseAll {} loadOnly "<input>" spacedSource,
      TabFree statement.label statement.opcode statement.operand) ∧
    ∃ reread, Intermediate.parse "<intermediate>"
        (Intermediate.render (layOut {} loadOnly (Statement.parseAll {} loadOnly "<input>" spacedSource)).records) =
          .ok reread ∧
      RereadLaw (Statement.parseAll {} loadOnly "<input>" spacedSource)
        (layOut {} loadOnly (Statement.parseAll {} loadOnly "<input>" spacedSource)).records reread :=
  ⟨by decide +kernel, by decide +kernel,
    program_rereadLaw {} loadOnly "<input>" spacedSource "<intermediate>" (by decide +kernel)⟩

/-- The statements of a program that names a symbol by a constant with a tab in it. -/
private def tabbed (settings : Settings) : List Statement :=
  Statement.parseAll settings loadOnly "<input>" "C'a\tb' WORD 1\n LDA C'a\tb'\n"

/-- Through the file, a program with tabs in its fields gets other fields and other code. -/
theorem tabbed_program_changed :
    (layOut {} loadOnly (tabbed {})).aborted = false ∧
    ∃ reread, Intermediate.parse "<intermediate>" (Intermediate.render (layOut {} loadOnly (tabbed {})).records) =
        .ok reread ∧
      reread.map Record.bare ≠ (layOut {} loadOnly (tabbed {})).records.map Record.bare ∧
      (encode (programEncoder {} loadOnly (tabbed {}) "<input>" true) (layOut {} loadOnly (tabbed {})).records).codes =
        ["000001", "000000"] ∧
      (encode (programEncoder {} loadOnly (tabbed {}) "<input>" true) reread).codes = ["", "00"] := by
  refine ⟨by decide +kernel,
    [{ address := some 0, label := "C'a", opcode := "b'", operand := "WORD", line := 1,
       sourceLine := "0000\tC'a\tb'\tWORD\t1" },
     { address := some 3, opcode := "LDA", operand := "C'a", line := 2, sourceLine := "0003\t\tLDA\tC'a\tb'" }],
    ?_, ?_, ?_, ?_⟩
  all_goals decide +kernel

end TwoPass
