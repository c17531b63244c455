import TwoPass.Proofs.ObjectFile

/-!
Which lines are read as text records. The bytes of a record are counted fragment by fragment, two characters
each, and nothing is asked of the characters (`readLine_text_iff`). A record that was read therefore has half
as many bytes as hexadecimal digits exactly if its fragments are digits, an even number of them each
(`TextRecord.sound_iff`); no other length is accepted for such fragments (`TextLineLaw`).
-/
namespace TwoPass

open Text

/-- The rule for text records: fragments are hexadecimal digits, and the declared number of bytes is half of
    how many there are. -/
structure TextRecord.Sound (record : TextRecord) (declared : Int) : Prop where
  digits : ∀ fragment ∈ record.fragments, ∀ c ∈ fragment.toList, isHexDigit c
  half : 2 * declared = (record.code.length : Int)

/-- A line begins like a text record, and its fields are those of a record and the number of bytes that it
    declares. -/
structure TextLine (line : String) (record : TextRecord) (declared : Int) : Prop where
  letter : ObjectRecord.letter? line.toList = some 'T'
  fields : ∃ start length,
    (fields caret line.toList).tail = start :: length :: record.fragments.map String.toList ∧
      ObjectRecord.readField start = .ok record.start ∧ ObjectRecord.readField length = .ok declared

/-- The declared length counts the bytes of each fragment. -/
def TextLine.Counted (line : String) (record : TextRecord) : Prop :=
  TextLine line record record.byteLength

/-- The lines of a text that begin like a text record. -/
def textLines (text : String) : List String :=
  (lines text).filter (ObjectRecord.letter? ·.toList = some 'T')

namespace TextRecord

theorem two_mul_bytes_le (fragments : List String) :
    2 * fragments.foldr (byteCount · + ·) 0 ≤ (String.join fragments).length := by
  induction fragments with
  | nil => simp
  | cons fragment rest ih =>
    have bytes : byteCount fragment = fragment.length / 2 := rfl
    simp only [List.foldr_cons, String.join_cons, String.length_append]
    omega

/-- Half of the characters are counted exactly if no fragment has an odd one. -/
theorem two_mul_byteLength_iff (record : TextRecord) :
    2 * record.byteLength = record.code.length ↔ ∀ fragment ∈ record.fragments, fragment.length % 2 = 0 := by
  obtain ⟨start, fragments⟩ := record
  simp only [byteLength, code]
  induction fragments with
  | nil => simp
  | cons fragment rest ih =>
    -- A fragment of odd length loses a character, and no other makes up for it.
    have behind := two_mul_bytes_le rest
    have bytes : byteCount fragment = fragment.length / 2 := rfl
    simp only [List.foldr_cons, String.join_cons, String.length_append, List.forall_mem_cons, ← ih]
    omega

/-- A record with the length that was counted obeys the rule exactly if its fragments are whole bytes. -/
theorem sound_iff (record : TextRecord) :
    record.Sound record.byteLength ↔
      ∀ fragment ∈ record.fragments, (∀ c ∈ fragment.toList, isHexDigit c) ∧ fragment.length % 2 = 0 := by
  have halves := record.two_mul_byteLength_iff
  constructor
  · rintro ⟨digits, half⟩ fragment member
    exact ⟨digits fragment member, halves.mp (by omega) fragment member⟩
  · intro whole
    have half := halves.mpr fun fragment member => (whole fragment member).2
    exact ⟨fun fragment member => (whole fragment member).1, by omega⟩

end TextRecord

namespace ObjectRecord

theorem readText_eq_ok_iff {texts : List (List Char)} {record : TextRecord} :
    readText texts = .ok record ↔ ∃ start length, texts = start :: length :: record.fragments.map String.toList ∧
      readField start = .ok record.start ∧ readField length = .ok (record.byteLength : Int) := by
  constructor
  · intro read
    unfold readText at read
    split at read
    next start length fragments =>
      obtain ⟨startValue, startRead, read⟩ := exists_of_bind_eq_ok read
      obtain ⟨declared, lengthRead, read⟩ := exists_of_bind_eq_ok read
      split at read
      next same =>
        obtain rfl := Except.ok.inj read
        refine ⟨start, length, by simp, startRead, ?_⟩
        rw [lengthRead, same]
      next => contradiction
    next => contradiction
  · rintro ⟨start, length, rfl, startRead, lengthRead⟩
    have fragments : (record.fragments.map String.toList).map String.ofList = record.fragments := by simp
    simp only [readText, startRead, lengthRead, fragments]
    exact if_pos rfl

theorem ofFields_eq_text_iff {letter : Char} {texts : List (List Char)} {record : TextRecord} :
    ofFields letter texts = .ok (text record) ↔ letter = 'T' ∧ readText texts = .ok record := by
  unfold ofFields
  by_cases isHeader : letter = 'H'
  · cases readHeader texts <;> simp [isHeader, Except.map]
  · by_cases isText : letter = 'T'
    · cases readText texts <;> simp [isText, Except.map]
    · cases readEnd texts <;> simp [isHeader, isText, Except.map]

theorem ofFields_text {texts : List (List Char)} {found : ObjectRecord} (read : ofFields 'T' texts = .ok found) :
    ∃ record, found = text record := by
  obtain ⟨record, -, rfl⟩ := exists_of_map_eq_ok (show (readText texts).map text = .ok found from read)
  exact ⟨record, rfl⟩

theorem readLine_of_letter {line : String} {letter : Char} {found : Option ObjectRecord} {file : String} {number : Nat}
    (begins : letter? line.toList = some letter) (read : readLine file number line = .ok found) :
    ∃ record, found = some record ∧ ofFields letter (fields caret line.toList).tail = .ok record := by
  simp only [readLine, begins] at read
  split at read
  next record ofThem => exact ⟨record, (Except.ok.inj read).symm, ofThem⟩
  next => contradiction

theorem readLine_of_no_letter {line : String} {found : Option ObjectRecord} {file : String} {number : Nat}
    (begins : letter? line.toList = none) (read : readLine file number line = .ok found) : found = none := by
  simp only [readLine, begins] at read
  exact (Except.ok.inj read).symm

/-- A line is read as a text record exactly if its length counts the bytes of its fragments. -/
theorem readLine_text_iff {line : String} {record : TextRecord} {file : String} {number : Nat} :
    readLine file number line = .ok (some (text record)) ↔ TextLine.Counted line record := by
  constructor
  · intro read
    cases begins : letter? line.toList with
    | none =>
      have nothing := readLine_of_no_letter begins read
      contradiction
    | some letter =>
      obtain ⟨found, same, ofThem⟩ := readLine_of_letter begins read
      obtain rfl := Option.some.inj same
      obtain ⟨rfl, readText⟩ := ofFields_eq_text_iff.mp ofThem
      exact ⟨begins, readText_eq_ok_iff.mp readText⟩
  · rintro ⟨begins, split⟩
    have ofThem := ofFields_eq_text_iff.mpr ⟨rfl, readText_eq_ok_iff.mpr split⟩
    simp only [readLine, begins, ofThem]

theorem readLine_category {line : String} {fault : Diagnostic} {file : String} {number : Nat}
    (refused : readLine file number line = .error fault) : fault.category = .malformedText := by
  unfold readLine at refused
  split at refused
  next => contradiction
  next =>
    split at refused
    next => contradiction
    next =>
      obtain rfl := Except.error.inj refused
      rfl

theorem readLines_category {texts : List String} {fault : Diagnostic} {file : String} {number : Nat}
    (refused : readLines file number texts = .error fault) : fault.category = .malformedText := by
  induction texts generalizing number with
  | nil => contradiction
  | cons line rest ih =>
    rw [readLines] at refused
    cases here : readLine file number line with
    | error first =>
      rw [here] at refused
      obtain rfl := Except.error.inj refused
      exact readLine_category here
    | ok record? =>
      cases later : readLines file (number + 1) rest with
      | error second =>
        rw [here, later] at refused
        obtain rfl := Except.error.inj refused
        exact ih later
      | ok records =>
        rw [here, later] at refused
        contradiction

/-- The text records that were read are those of the lines that begin like one, in order. -/
theorem readLines_counted {texts : List String} {records : List ObjectRecord} {file : String} {number : Nat}
    (read : readLines file number texts = .ok records) :
    List.Forall₂ TextLine.Counted (texts.filter (letter? ·.toList = some 'T')) (records.filterMap text?) := by
  induction texts generalizing number records with
  | nil =>
    obtain rfl := Except.ok.inj read
    exact .nil
  | cons line rest ih =>
    rw [readLines] at read
    obtain ⟨record?, here, read⟩ := exists_of_bind_eq_ok read
    obtain ⟨others, later, read⟩ := exists_of_bind_eq_ok read
    obtain rfl := Except.ok.inj read
    have behind := ih later
    rw [List.filterMap_append, List.filter_cons]
    by_cases isText : letter? line.toList = some 'T'
    · obtain ⟨found, rfl, ofThem⟩ := readLine_of_letter isText here
      obtain ⟨record, rfl⟩ := ofFields_text ofThem
      rw [if_pos (by simpa using isText)]
      exact .cons (readLine_text_iff.mp here) behind
    · -- Any other line gives a record of another kind, or none.
      have none : record?.toList.filterMap text? = [] := by
        rw [List.filterMap_eq_nil_iff]
        intro found member
        rw [Option.mem_toList] at member
        cases found with
        | text record =>
          rw [member] at here
          exact absurd (readLine_text_iff.mp here).letter isText
        | header | finish => rfl
      rw [if_neg (by simpa using isText), none]
      exact behind

end ObjectRecord

namespace ObjectProgram

theorem parse_category {file text : String} {fault : Diagnostic} (refused : parse file text = .error fault) :
    fault.category = .malformedText := by
  unfold parse at refused
  cases read : ObjectRecord.readLines file 1 (lines text) with
  | error first =>
    rw [read] at refused
    obtain rfl := Except.error.inj refused
    exact ObjectRecord.readLines_category read
  | ok records =>
    rw [read] at refused
    simp only [bind, Except.bind] at refused
    split at refused
    next => contradiction
    next =>
      obtain rfl := Except.error.inj refused
      rfl

theorem parse_counted {file text : String} {program : ObjectProgram} (read : parse file text = .ok program) :
    List.Forall₂ TextLine.Counted (textLines text) program.texts := by
  obtain ⟨records, readLines, read⟩ := exists_of_bind_eq_ok read
  split at read
  next other found =>
    obtain rfl := Except.ok.inj read
    obtain ⟨header, -, rfl⟩ := Option.map_eq_some_iff.mp found
    exact ObjectRecord.readLines_counted readLines
  next => contradiction

theorem exists_counted {texts : List String} {records : List TextRecord} {line : String}
    (counted : List.Forall₂ TextLine.Counted texts records) (member : line ∈ texts) :
    ∃ record, TextLine.Counted line record := by
  induction counted with
  | nil => contradiction
  | @cons _ record _ _ here _ ih =>
    rcases List.mem_cons.mp member with rfl | behind
    · exact ⟨record, here⟩
    · exact ih behind

theorem parse_refused {file text line : String} (member : line ∈ textLines text)
    (malformed : ∀ record, ¬ TextLine.Counted line record) :
    ∃ fault, parse file text = .error fault ∧ fault.category = .malformedText := by
  cases outcome : parse file text with
  | ok program =>
    obtain ⟨record, counted⟩ := exists_counted (parse_counted outcome) member
    exact absurd counted (malformed record)
  | error fault => exact ⟨fault, rfl, parse_category outcome⟩

/-- Of fragments that are whole bytes, no other number than half of their characters is counted. -/
theorem not_counted_of_half_ne {line : String} {record : TextRecord} {declared : Int}
    (isLine : TextLine line record declared) (even : ∀ fragment ∈ record.fragments, fragment.length % 2 = 0)
    (wrong : 2 * declared ≠ (record.code.length : Int)) : ∀ other, ¬ TextLine.Counted line other := by
  intro other counted
  obtain ⟨start, length, split, -, lengthRead⟩ := isLine.fields
  obtain ⟨otherStart, otherLength, otherSplit, -, otherRead⟩ := counted.fields
  rw [split, List.cons.injEq, List.cons.injEq] at otherSplit
  obtain ⟨-, rfl, same⟩ := otherSplit
  have fragments : record.fragments = other.fragments :=
    List.map_injective_iff.mpr (fun _ _ => String.toList_inj.mp) same
  have declares : declared = other.byteLength := Except.ok.inj (lengthRead.symm.trans otherRead)
  have half := record.two_mul_byteLength_iff.mpr even
  rw [TextRecord.byteLength] at half declares
  rw [fragments] at half
  omega

/-- How the lines of a text that begin like text records are read. -/
structure TextLineLaw (file text : String) : Prop where
  /-- A program that is read has a record for each of them, in order, and the declared length of each is
      the number of bytes in its fragments, counted one by one. -/
  read : ∀ program, parse file text = .ok program → List.Forall₂ TextLine.Counted (textLines text) program.texts
  /-- Any such line without a record makes the whole text malformed, -/
  refused : ∀ line ∈ textLines text, (∀ record, ¬ TextLine.Counted line record) →
    ∃ fault, parse file text = .error fault ∧ fault.category = .malformedText
  /-- as one does that declares anything but half the number of characters in fragments of whole bytes. -/
  wrong : ∀ line ∈ textLines text, ∀ record declared, TextLine line record declared →
    (∀ fragment ∈ record.fragments, fragment.length % 2 = 0) → 2 * declared ≠ (record.code.length : Int) →
      ∃ fault, parse file text = .error fault ∧ fault.category = .malformedText
  /-- The rule for text records holds of a record that was read exactly if its fragments are hexadecimal
      digits, an even number of them each. -/
  sound_iff : ∀ program, parse file text = .ok program → ∀ record ∈ program.texts,
    (record.Sound record.byteLength ↔
      ∀ fragment ∈ record.fragments, (∀ c ∈ fragment.toList, isHexDigit c) ∧ fragment.length % 2 = 0)

theorem parse_textLineLaw (file text : String) : TextLineLaw file text := by
  refine ⟨fun _ => parse_counted, fun _ => parse_refused, ?_, ?_⟩
  · intro line member record declared isLine even wrong
    exact parse_refused member (not_counted_of_half_ne isLine even wrong)
  · intro program read record member
    exact record.sound_iff

/-- Two fragments of three digits are read as two bytes, and fragments need not be digits. -/
theorem uneven_fragments_read :
    parse "<object>" "H^PROG  ^000000^000002\nT^000000^02^4C0^0FF\nT^000002^01^ZZ\nE^000000\n" =
        .ok { header := ⟨"PROG", 0, 2⟩, texts := [⟨0, ["4C0", "0FF"]⟩, ⟨2, ["ZZ"]⟩], entry := some 0 } ∧
      ¬ TextRecord.Sound ⟨0, ["4C0", "0FF"]⟩ 2 ∧ ¬ TextRecord.Sound ⟨2, ["ZZ"]⟩ 1 := by
  refine ⟨by decide +kernel, ?_, ?_⟩
  · intro sound
    exact absurd sound.half (by decide)
  · intro sound
    exact absurd (sound.digits "ZZ" List.mem_cons_self 'Z' List.mem_cons_self) (by decide)

end ObjectProgram

end TwoPass
