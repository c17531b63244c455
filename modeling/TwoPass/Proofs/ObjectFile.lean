import TwoPass.Proofs.IntermediateFile
import TwoPass.Proofs.TextRecords

/-!
Object programs as text. Carets tell the fields of a record apart and line boundaries the records,
so a record is read back if no field holds either (`readLine_line`), and nothing that was read holds
either (`parse_whole`). Numbers and object code never do, so that only its name can keep a program
from being read back, also behind lines that do not begin like a record (`parse_program_iff`).
-/
namespace TwoPass

open Text

/-- A text can stand in a field: it holds neither a caret nor a line boundary. -/
def IsField (text : List Char) : Prop :=
  ∀ c ∈ text, c ≠ caret ∧ isBoundary c = false

instance (text : List Char) : Decidable (IsField text) :=
  List.decidableBAll (fun c => c ≠ caret ∧ isBoundary c = false) text

/-- The characters of a name that a header has room for. -/
def keptName (name : String) : List Char :=
  name.toList.take nameWidth

/-- A header as it is read back: of its name the characters that were kept, without the
    blanks behind them. -/
def Header.stored (header : Header) : Header :=
  { header with name := String.ofList (trimEnd isBlank (keptName header.name)) }

theorem exists_of_bind_eq_ok {ε α β : Type} {outcome : Except ε α} {next : α → Except ε β} {result : β}
    (succeeded : outcome >>= next = .ok result) : ∃ value, outcome = .ok value ∧ next value = .ok result := by
  cases outcome with
  | error fault => contradiction
  | ok value => exact ⟨value, rfl, succeeded⟩

theorem exists_of_map_eq_ok {ε α β : Type} {outcome : Except ε α} {image : α → β} {result : β}
    (succeeded : outcome.map image = .ok result) : ∃ value, outcome = .ok value ∧ image value = result := by
  cases outcome with
  | error fault => contradiction
  | ok value => exact ⟨value, rfl, Except.ok.inj succeeded⟩

theorem IsField.caret_notMem {text : List Char} (isField : IsField text) : caret ∉ text :=
  fun member => (isField caret member).1 rfl

theorem isField_of_digits {text : List Char} (digits : ∀ c ∈ text, c = '-' ∨ isCapitalDigit c) : IsField text := by
  intro c member
  rcases digits c member with rfl | capital
  · decide
  · exact forall_isCapitalDigit (motive := fun c => c ≠ caret ∧ isBoundary c = false) (by decide +kernel) capital

theorem isField_upperHex (width : Nat) (n : Int) : IsField (upperHex width n).toList :=
  isField_of_digits fun _ => mem_upperHex

theorem toList_paddedName (name : String) :
    (paddedName name).toList = keptName name ++ List.replicate (nameWidth - (keptName name).length) ' ' := by
  simp only [paddedName, String.toList_ofList, keptName]

theorem isField_paddedName {name : String} (clear : IsField (keptName name)) : IsField (paddedName name).toList := by
  rw [toList_paddedName]
  intro c member
  rcases List.mem_append.mp member with kept | fill
  · exact clear c kept
  · rw [List.eq_of_mem_replicate fill]
    decide

theorem trimEnd_paddedName (name : String) :
    trimEnd isBlank (paddedName name).toList = trimEnd isBlank (keptName name) := by
  rw [toList_paddedName]
  apply trimEnd_append
  intro c fill
  rw [List.eq_of_mem_replicate fill]
  decide

namespace ObjectRecord

theorem readField_upperHex (width : Nat) (n : Int) : readField (upperHex width n).toList = .ok n := by
  rw [readField, String.ofList_toList, readInt_upperHex]
  rfl

def letter : ObjectRecord → Char
  | header _ => 'H'
  | text _ => 'T'
  | finish _ => 'E'

/-- The fields behind the letter, as they are written. -/
def written : ObjectRecord → List (List Char)
  | header record =>
    [(paddedName record.name).toList, (upperHex 6 record.start).toList, (upperHex 6 record.length).toList]
  | text record =>
    (upperHex 6 record.start).toList :: (upperHex 2 record.byteLength).toList :: record.fragments.map String.toList
  | finish entry => [(upperHex 6 entry).toList]

/-- A record as it is read back. -/
def stored : ObjectRecord → ObjectRecord
  | header record => header record.stored
  | record => record

/-- What a record holds besides numbers can stand in fields. -/
def Clear : ObjectRecord → Prop
  | header record => IsField (keptName record.name)
  | text record => ∀ fragment ∈ record.fragments, IsField fragment.toList
  | finish _ => True

theorem toList_line (record : ObjectRecord) :
    record.line.toList = [record.letter] ++ record.written.flatMap (caret :: ·) := by
  cases record with
  | header record => simp [line, Header.text, letter, written, caret]
  | text record =>
    have fragments : (String.join (record.fragments.map ("^" ++ ·))).toList =
        (record.fragments.map String.toList).flatMap (caret :: ·) := by
      simp [List.flatMap_map, caret]
    simp only [line, TextRecord.text, String.toList_append, fragments, letter, written, List.flatMap_cons]
    simp [caret]
  | finish entry => simp [line, letter, written, caret]

theorem letter?_line (record : ObjectRecord) : letter? record.line.toList = some record.letter := by
  rw [toList_line]
  cases record <;> rfl

theorem isField_letter (record : ObjectRecord) : IsField [record.letter] := by
  cases record <;> simp only [letter] <;> decide

variable {record : ObjectRecord}

theorem Clear.written (clear : record.Clear) : ∀ field ∈ record.written, IsField field := by
  cases record with
  | header record =>
    simp only [ObjectRecord.written, List.forall_mem_cons]
    exact ⟨isField_paddedName clear, isField_upperHex 6 _, isField_upperHex 6 _, nofun⟩
  | text record =>
    simp only [ObjectRecord.written, List.forall_mem_cons, List.forall_mem_map]
    exact ⟨isField_upperHex 6 _, isField_upperHex 2 _, clear⟩
  | finish entry =>
    simp only [ObjectRecord.written, List.forall_mem_cons]
    exact ⟨isField_upperHex 6 _, nofun⟩

theorem Clear.unbroken (clear : record.Clear) : ∀ c ∈ record.line.toList, isBoundary c = false := by
  intro c member
  rw [toList_line, List.singleton_append, List.mem_cons, List.mem_flatMap] at member
  rcases member with rfl | ⟨field, isWritten, inside⟩
  · exact (isField_letter record _ List.mem_cons_self).2
  · rcases List.mem_cons.mp inside with rfl | inside
    · decide
    · exact (clear.written field isWritten c inside).2

/-- Any record is found in the fields that are written for it. -/
theorem ofFields_written (record : ObjectRecord) : ofFields record.letter record.written = .ok record.stored := by
  cases record with
  | header record =>
    have read : readHeader (written (header record)) = .ok record.stored := by
      simp only [written, readHeader, readField_upperHex, trimEnd_paddedName]
      rfl
    simp only [ofFields, letter, if_true, read]
    rfl
  | text record =>
    have read : readText (written (text record)) = .ok record := by
      have fragments : (record.fragments.map String.toList).map String.ofList = record.fragments := by simp
      simp only [written, readText, readField_upperHex, fragments]
      exact if_pos rfl
    simp only [ofFields, letter, read]
    rfl
  | finish entry =>
    simp only [ofFields, letter, written, readEnd, readField_upperHex]
    rfl

theorem readLine_line (clear : record.Clear) (file : String) (number : Nat) :
    readLine file number record.line = .ok (some record.stored) := by
  have split : fields caret record.line.toList = [record.letter] :: record.written := by
    rw [toList_line]
    exact fields_flatMap (isField_letter record).caret_notMem fun field isWritten =>
      (clear.written field isWritten).caret_notMem
  simp only [readLine, letter?_line, split, List.tail_cons, ofFields_written]

theorem readLines_lines {records : List ObjectRecord} (clear : ∀ record ∈ records, record.Clear) (file : String)
    (number : Nat) : readLines file number (records.map line) = .ok (records.map stored) := by
  induction records generalizing number with
  | nil => rfl
  | cons record rest ih =>
    rw [List.forall_mem_cons] at clear
    rw [List.map_cons, readLines, readLine_line clear.1, ih clear.2]
    rfl

/-- Lines that do not begin like a record are passed over. -/
theorem readLines_append {front : List String} (passed : ∀ line ∈ front, letter? line.toList = none) (file : String)
    (number : Nat) (back : List String) :
    readLines file number (front ++ back) = readLines file (number + front.length) back := by
  induction front generalizing number with
  | nil => rfl
  | cons line rest ih =>
    rw [List.forall_mem_cons] at passed
    have here : readLine file number line = .ok none := by simp only [readLine, passed.1]
    rw [List.cons_append, readLines, here, ih passed.2, List.length_cons, Nat.add_right_comm, Nat.add_assoc]
    cases readLines file (number + (rest.length + 1)) back <;> rfl

/-- A line with no caret in front of its first tab does not begin like a record. -/
theorem letter?_of_tab {front : List Char} (free : caret ∉ front) (back : List Char) :
    letter? (front ++ '\t' :: back) = none := by
  have other : '\t' ≠ caret := by decide
  match front with
  | [] => cases back <;> simp [letter?]
  | [first] => simp [letter?, other]
  | first :: second :: rest =>
    have here : second ≠ caret := fun isCaret => free (by simp [isCaret])
    simp [letter?, here]

/-- A header with nothing but a name is refused. -/
theorem readLine_lone_name {name : List Char} (free : caret ∉ name) (file : String) (number : Nat) :
    readLine file number (String.ofList ('H' :: caret :: name)) = .error
      { cause := .malformedRecord "H" RecordFault.headerFields.message
        location := some ⟨file, number, 0⟩
        sourceLine := some (String.ofList ('H' :: caret :: name)) } := by
  have split : fields caret ('H' :: caret :: name) = [['H'], name] := by
    have joined : fields caret (['H'] ++ [name].flatMap (caret :: ·)) = [['H'], name] :=
      fields_flatMap (by decide) (by simpa using free)
    simpa using joined
  simp only [readLine, String.toList_ofList, split]
  rfl

theorem isField_trimEnd {drop : Char → Bool} {text : List Char} (isField : IsField text) :
    IsField (trimEnd drop text) :=
  fun c member => isField c (mem_of_mem_trimEnd member)

theorem readHeader_isField {texts : List (List Char)} {found : Header} (isField : ∀ text ∈ texts, IsField text)
    (read : readHeader texts = .ok found) : IsField found.name.toList := by
  unfold readHeader at read
  split at read
  next name start length =>
    obtain ⟨startValue, -, read⟩ := exists_of_bind_eq_ok read
    obtain ⟨lengthValue, -, read⟩ := exists_of_bind_eq_ok read
    obtain rfl := Except.ok.inj read
    rw [String.toList_ofList]
    exact isField_trimEnd (isField name List.mem_cons_self)
  next => contradiction

theorem readText_isField {texts : List (List Char)} {found : TextRecord} (isField : ∀ text ∈ texts, IsField text)
    (read : readText texts = .ok found) : ∀ fragment ∈ found.fragments, IsField fragment.toList := by
  unfold readText at read
  split at read
  next start length fragments =>
    obtain ⟨startValue, -, read⟩ := exists_of_bind_eq_ok read
    obtain ⟨declared, -, read⟩ := exists_of_bind_eq_ok read
    split at read
    next =>
      obtain rfl := Except.ok.inj read
      intro fragment member
      obtain ⟨text, isText, rfl⟩ := List.mem_map.mp member
      rw [String.toList_ofList]
      exact isField text (List.mem_cons_of_mem _ (List.mem_cons_of_mem _ isText))
    next => contradiction
  next => contradiction

/-- What a record holds besides numbers comes from single fields. -/
def Whole : ObjectRecord → Prop
  | header record => IsField record.name.toList
  | text record => ∀ fragment ∈ record.fragments, IsField fragment.toList
  | finish _ => True

theorem ofFields_whole {letter : Char} {texts : List (List Char)} {found : ObjectRecord}
    (isField : ∀ text ∈ texts, IsField text) (read : ofFields letter texts = .ok found) : found.Whole := by
  unfold ofFields at read
  split at read
  next =>
    obtain ⟨record, recordRead, rfl⟩ := exists_of_map_eq_ok read
    exact readHeader_isField isField recordRead
  next =>
    split at read
    next =>
      obtain ⟨record, recordRead, rfl⟩ := exists_of_map_eq_ok read
      exact readText_isField isField recordRead
    next =>
      obtain ⟨entry, -, rfl⟩ := exists_of_map_eq_ok read
      trivial

theorem readLine_whole {file text : String} {number : Nat} {found : ObjectRecord}
    (unbroken : ∀ c ∈ text.toList, isBoundary c = false) (read : readLine file number text = .ok (some found)) :
    found.Whole := by
  have isField : ∀ field ∈ (fields caret text.toList).tail, IsField field := by
    intro field member c inside
    obtain ⟨free, kept⟩ := mem_fields (List.mem_of_mem_tail member)
    exact ⟨fun isCaret => free (isCaret ▸ inside), unbroken c (kept c inside)⟩
  unfold readLine at read
  split at read
  next => simp at read
  next letter _ =>
    split at read
    next record ofThem =>
      obtain rfl := Option.some.inj (Except.ok.inj read)
      exact ofFields_whole isField ofThem
    next => contradiction

theorem readLines_whole {file : String} {number : Nat} {texts : List String} {records : List ObjectRecord}
    (unbroken : ∀ text ∈ texts, ∀ c ∈ text.toList, isBoundary c = false)
    (read : readLines file number texts = .ok records) : ∀ record ∈ records, record.Whole := by
  induction texts generalizing number records with
  | nil =>
    obtain rfl := Except.ok.inj read
    nofun
  | cons text rest ih =>
    rw [List.forall_mem_cons] at unbroken
    rw [readLines] at read
    obtain ⟨record?, here, read⟩ := exists_of_bind_eq_ok read
    obtain ⟨others, later, read⟩ := exists_of_bind_eq_ok read
    obtain rfl := Except.ok.inj read
    intro record member
    rcases List.mem_append.mp member with first | behind
    · rw [Option.mem_toList.mp first] at here
      exact readLine_whole unbroken.1 here
    · exact ih unbroken.2 later record behind

theorem header?_eq_some_iff {record : ObjectRecord} {found : Header} : record.header? = some found ↔ record = header found := by
  cases record <;> simp [header?]

theorem text?_eq_some_iff {record : ObjectRecord} {found : TextRecord} : record.text? = some found ↔ record = text found := by
  cases record <;> simp [text?]

theorem finish?_eq_some_iff {record : ObjectRecord} {entry : Int} : record.finish? = some entry ↔ record = finish entry := by
  cases record <;> simp [finish?]

end ObjectRecord

namespace ObjectProgram

/-- A program as it is read back. -/
def stored (program : ObjectProgram) : ObjectProgram :=
  { program with header := program.header.stored }

theorem records_stored (program : ObjectProgram) :
    program.records.map ObjectRecord.stored = program.stored.records := by
  have texts : (program.texts.map ObjectRecord.text).map ObjectRecord.stored = program.texts.map ObjectRecord.text :=
    List.map_map
  have entry : (program.entry.map ObjectRecord.finish).toList.map ObjectRecord.stored =
      (program.entry.map ObjectRecord.finish).toList := by cases program.entry <;> rfl
  rw [records, List.map_append, List.map_cons, texts, entry]
  rfl

/-- The records of a program make the program. -/
theorem ofRecords?_records (program : ObjectProgram) : ofRecords? program.records = some program := by
  obtain ⟨header, texts, entry⟩ := program
  have noHeader : texts.filterMap (ObjectRecord.header? ∘ ObjectRecord.text) = [] :=
    List.filterMap_eq_nil_iff.mpr fun _ _ => rfl
  have allTexts : texts.filterMap (ObjectRecord.text? ∘ ObjectRecord.text) = texts := List.filterMap_some
  have noEnd : texts.filterMap (ObjectRecord.finish? ∘ ObjectRecord.text) = [] :=
    List.filterMap_eq_nil_iff.mpr fun _ _ => rfl
  simp only [ofRecords?, records, List.filterMap_append, List.filterMap_cons, List.filterMap_map, noHeader, allTexts,
    noEnd, ObjectRecord.header?, ObjectRecord.text?, ObjectRecord.finish?]
  cases entry with
  | none => simp
  | some entry => simp [List.filterMap_cons, ObjectRecord.header?, ObjectRecord.text?, ObjectRecord.finish?]

/-- A program is made of records that were read. -/
theorem records_subset {records : List ObjectRecord} {program : ObjectProgram} (made : ofRecords? records = some program) :
    ∀ record ∈ program.records, record ∈ records := by
  obtain ⟨header, last, rfl⟩ := Option.map_eq_some_iff.mp made
  simp only [ObjectProgram.records, List.forall_mem_append, List.forall_mem_cons, List.forall_mem_map]
  refine ⟨⟨?_, ?_⟩, ?_⟩
  · obtain ⟨record, isRecord, isHeader⟩ := List.mem_filterMap.mp (List.mem_of_getLast? last)
    rwa [← ObjectRecord.header?_eq_some_iff.mp isHeader]
  · intro text member
    obtain ⟨record, isRecord, isText⟩ := List.mem_filterMap.mp member
    rwa [← ObjectRecord.text?_eq_some_iff.mp isText]
  · intro finish member
    obtain ⟨entry, last, rfl⟩ := Option.map_eq_some_iff.mp (Option.mem_toList.mp member)
    obtain ⟨record, isRecord, isEnd⟩ := List.mem_filterMap.mp (List.mem_of_getLast? last)
    rwa [← ObjectRecord.finish?_eq_some_iff.mp isEnd]

theorem parse_whole {file text : String} {program : ObjectProgram} (read : parse file text = .ok program) :
    ∀ record ∈ program.records, record.Whole := by
  obtain ⟨records, readLines, read⟩ := exists_of_bind_eq_ok read
  split at read
  next other found =>
    obtain rfl := Except.ok.inj read
    exact fun record member =>
      ObjectRecord.readLines_whole (fun _ => mem_lines) readLines record (records_subset found record member)
  next => contradiction

theorem parse_isField {file text : String} {program : ObjectProgram} (read : parse file text = .ok program) :
    IsField program.header.name.toList :=
  parse_whole read (.header program.header) List.mem_cons_self

/-- A line boundary in the name ends the first line of a program. -/
theorem lines_text_of_boundary {program : ObjectProgram} {before behind : List Char} {c : Char}
    (split : keptName program.header.name = before ++ c :: behind) (boundary : isBoundary c)
    (whole : ∀ c ∈ before, isBoundary c = false) :
    ∃ rest, lines program.text = String.ofList ('H' :: caret :: before) :: rest := by
  have shape : ∃ back, program.text = String.ofList (('H' :: caret :: before) ++ c :: back) := by
    simp only [← String.toList_inj, String.toList_ofList, text, toList_endLines, records, List.cons_append,
      List.map_cons, List.flatMap_cons, ObjectRecord.toList_line, ObjectRecord.letter, ObjectRecord.written,
      toList_paddedName, split, List.append_assoc, List.nil_append]
    exact ⟨_, rfl⟩
  obtain ⟨back, shape⟩ := shape
  rw [shape]
  apply lines_of_boundary _ boundary
  simp only [List.forall_mem_cons]
  exact ⟨by decide, by decide, whole⟩

section
variable {front : List String} (passed : ∀ line ∈ front, ObjectRecord.letter? line.toList = none)
  (unbroken : ∀ line ∈ front, ∀ c ∈ line.toList, isBoundary c = false) {program : ObjectProgram}
include passed unbroken

theorem parse_text (clear : ∀ record ∈ program.records, record.Clear) (file : String) :
    parse file (endLines front ++ program.text) = .ok program.stored := by
  have whole : ∀ line ∈ program.records.map ObjectRecord.line, ∀ c ∈ line.toList, isBoundary c = false := by
    rw [List.forall_mem_map]
    exact fun record isRecord => (clear record isRecord).unbroken
  rw [parse, lines_endLines_append unbroken, text, lines_endLines whole, ObjectRecord.readLines_append passed,
    ObjectRecord.readLines_lines clear]
  simp only [bind, Except.bind, records_stored, ofRecords?_records]
  rfl

theorem parse_broken {c : Char} (caretFree : caret ∉ keptName program.header.name)
    (broken : c ∈ keptName program.header.name) (boundary : isBoundary c) (file : String) :
    ∃ fault, parse file (endLines front ++ program.text) = .error fault := by
  -- The first boundary cuts the header off behind its name, and a header without addresses is refused.
  obtain ⟨first, found⟩ := Option.isSome_iff_exists.mp (List.find?_isSome.mpr ⟨c, broken, boundary⟩)
  obtain ⟨isFirst, before, behind, split, whole⟩ := List.find?_eq_some_iff_append.mp found
  have beforeFree : caret ∉ before := fun member => caretFree (split ▸ List.mem_append_left _ member)
  obtain ⟨rest, headLine⟩ := lines_text_of_boundary split isFirst (by simpa using whole)
  rw [parse, lines_endLines_append unbroken, headLine, ObjectRecord.readLines_append passed, ObjectRecord.readLines,
    ObjectRecord.readLine_lone_name beforeFree]
  exact ⟨_, rfl⟩

/-- A program is read back exactly if what is kept of its name can stand in a field. -/
theorem parse_program_iff (clear : ∀ record ∈ program.texts, ∀ fragment ∈ record.fragments, IsField fragment.toList)
    (file : String) :
    parse file (endLines front ++ program.text) = .ok program.stored ↔ IsField (keptName program.header.name) := by
  constructor
  · intro read
    have isField := parse_isField read
    rw [stored, Header.stored, String.toList_ofList] at isField
    have caretFree : caret ∉ keptName program.header.name := fun member =>
      isField.caret_notMem (mem_trimEnd member (by decide))
    intro c member
    refine ⟨fun isCaret => caretFree (isCaret ▸ member), ?_⟩
    by_contra boundary
    obtain ⟨fault, failed⟩ := parse_broken passed unbroken caretFree member (by simpa using boundary) file
    rw [failed] at read
    contradiction
  · intro isField
    apply parse_text passed unbroken
    intro record member
    rcases List.mem_append.mp member with first | last
    · rcases List.mem_cons.mp first with rfl | isText
      · exact isField
      · obtain ⟨text, listed, rfl⟩ := List.mem_map.mp isText
        exact clear text listed
    · obtain ⟨entry, -, rfl⟩ := Option.map_eq_some_iff.mp (Option.mem_toList.mp last)
      trivial

end

end ObjectProgram

end TwoPass
