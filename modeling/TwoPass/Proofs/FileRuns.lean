import TwoPass.Proofs.InputFaults
import TwoPass.Proofs.Lines

/-!
Runs over files and runs over the texts in them. A file is read as the text it holds, up to the form of
its newlines, and a source is cut into lines the same way in either case. A table in a file is not: only
newlines end its lines, so that it is read like a text with blanks for all other line boundaries
(`ofLines_tableLines`). The log has no part in the result (`run_result_congr`).
-/
namespace TwoPass

open Text

namespace Text

/-- The characters that a newline is made of. -/
def isNewline (c : Char) : Bool :=
  c == '\n' || c == '\r'

/-- A blank in place of a line boundary that is no newline. -/
def blankBoundary (c : Char) : Char :=
  if isBoundary c && !isNewline c then ' ' else c

/-- The text with blanks in place of all line boundaries but newlines. -/
def blankBoundaries (text : String) : String :=
  String.ofList (text.toList.map blankBoundary)

theorem isBoundary_of_isNewline {c : Char} (newline : isNewline c) : isBoundary c := by
  simp only [isNewline, Bool.or_eq_true, beq_iff_eq] at newline
  rcases newline with rfl | rfl <;> decide

theorem isBoundary_blankBoundary (c : Char) : isBoundary (blankBoundary c) = isNewline c := by
  unfold blankBoundary
  cases newline : isNewline c with
  | true => simp [isBoundary_of_isNewline newline]
  | false =>
    cases boundary : isBoundary c with
    | true =>
      simp only [Bool.not_false, Bool.and_self, if_true]
      decide
    | false => simp [boundary]

theorem isBlank_blankBoundary (c : Char) : isBlank (blankBoundary c) = isBlank c := by
  unfold blankBoundary
  split
  next replaced =>
    simp only [Bool.and_eq_true] at replaced
    rw [isBlank_of_isBoundary replaced.1]
    decide
  next => rfl

theorem blankBoundary_of_dark {c : Char} (dark : isBlank c = false) : blankBoundary c = c := by
  have inside : isBoundary c = false := by
    cases boundary : isBoundary c with
    | true => simp [isBlank_of_isBoundary boundary] at dark
    | false => rfl
  simp [blankBoundary, inside]

theorem blankBoundary_eq_iff {c d : Char} (newline : isNewline d) : blankBoundary c = d ↔ c = d := by
  unfold blankBoundary
  split
  next replaced =>
    simp only [Bool.and_eq_true, Bool.not_eq_true'] at replaced
    constructor
    · rintro rfl
      exact absurd newline (by decide)
    · rintro rfl
      simp [newline] at replaced
  next => rfl

theorem blankBoundaries_of_newlines {text : String} (newlines : ∀ c ∈ text.toList, isBoundary c → isNewline c) :
    blankBoundaries text = text := by
  have kept : text.toList.map blankBoundary = text.toList := by
    refine (List.map_congr_left fun c member => ?_).trans (List.map_id _)
    cases boundary : isBoundary c with
    | true => simp [blankBoundary, newlines c member boundary]
    | false => simp [blankBoundary, boundary]
  rw [blankBoundaries, kept, String.ofList_toList]

theorem mergeNewlinePairs_map (text : List Char) :
    mergeNewlinePairs (text.map blankBoundary) = (mergeNewlinePairs text).map blankBoundary := by
  induction text using mergeNewlinePairs.induct with
  | case1 => rfl
  | case2 rest ih =>
    have feed : blankBoundary '\n' = '\n' := by decide
    have back : blankBoundary '\r' = '\r' := by decide
    simp only [List.map_cons, feed, back, mergeNewlinePairs, ih]
  | case3 c rest unpaired ih =>
    have stays : ∀ behind, blankBoundary c = '\r' → rest.map blankBoundary = '\n' :: behind → False := by
      intro behind isReturn isFeed
      obtain ⟨next, others, rfl, isNext, -⟩ := List.map_eq_cons_iff.mp isFeed
      rw [blankBoundary_eq_iff (by decide)] at isReturn isNext
      exact unpaired others isReturn (by rw [isNext])
    rw [List.map_cons, mergeNewlinePairs.eq_3 _ _ stays, mergeNewlinePairs.eq_3 _ _ unpaired, ih, List.map_cons]

/-- Other blanks between its words leave a line the same words. -/
theorem words_map {image : Char → Char} (blanks : ∀ c, isBlank (image c) = isBlank c)
    (dark : ∀ c, isBlank c = false → image c = c) (line : List Char) :
    words (String.ofList (line.map image)) = words (String.ofList line) := by
  rw [words, words, String.toList_ofList, String.toList_ofList, pieces_map_of_fixed blanks dark]

theorem return_notMem_unifyNewlines (text : List Char) : '\r' ∉ unifyNewlines text := by
  intro member
  obtain ⟨c, -, image⟩ := List.mem_map.mp member
  split at image
  next => exact absurd image (by decide)
  next other => exact other image

theorem decode?_toUTF8 (text : String) : decode? text.toUTF8 = some text := by
  simp only [decode?, String.fromUTF8?, String.toUTF8_eq_toByteArray, dif_pos text.isValidUTF8]
  rfl

end Text

namespace InputFile

/-- The form of its newlines makes no difference to the lines of a text. -/
theorem lines_withLineFeeds (text : String) : lines (withLineFeeds text) = lines text := by
  rw [lines, lines, withLineFeeds, String.toList_ofList, mergeNewlinePairs_of_free (return_notMem_unifyNewlines _),
    unifyNewlines, pieces_map_of_fixed]
  · intro c
    split
    next isReturn => rw [isReturn]; decide
    next => rfl
  · intro c inside
    rw [if_neg]
    rintro rfl
    exact absurd inside (by decide)

theorem tableLines_eq (text : String) :
    tableLines text = (pieces isNewline (mergeNewlinePairs text.toList)).map String.ofList := by
  -- What is left of the carriage returns ends a line as a line feed does, and is in no line.
  rw [tableLines, lineFeedLines, withLineFeeds, String.toList_ofList, unifyNewlines, pieces_map_of_fixed]
  · intro c
    split
    next isReturn => rw [isReturn]; decide
    next other => simp [isNewline, other]
  · intro c inside
    rw [if_neg]
    rintro rfl
    exact absurd inside (by decide)

/-- A table in a file is read like a text in which only newlines end a line. -/
theorem ofLines_tableLines (text : String) :
    OpcodeTable.ofLines (tableLines text) = .ofText (blankBoundaries text) := by
  have cut : lines (blankBoundaries text) =
      (pieces isNewline (mergeNewlinePairs text.toList)).map fun piece => String.ofList (piece.map blankBoundary) := by
    rw [lines, blankBoundaries, String.toList_ofList, mergeNewlinePairs_map, pieces_map isBoundary_blankBoundary,
      List.map_map]
    rfl
  have pairs (piece : List Char) :
      OpcodeTable.pair? (String.ofList (piece.map blankBoundary)) = OpcodeTable.pair? (String.ofList piece) := by
    unfold OpcodeTable.pair?
    rw [words_map isBlank_blankBoundary fun _ => blankBoundary_of_dark]
  unfold OpcodeTable.ofText OpcodeTable.ofLines
  rw [tableLines_eq, cut, List.filterMap_map, List.filterMap_map]
  simp only [Function.comp_def, pairs]

end InputFile

namespace Assembly

variable {settings : Settings} {table : OpcodeTable} {file source : String} {first second : Journal}

theorem finish_result_congr (same : first.collector = second.collector) (stage : Stage) (layout? : Option Layout)
    (encoding? : Option Encoding) :
    (finish first stage table layout? encoding?).result = (finish second stage table layout? encoding?).result := by
  simp only [finish, same]

theorem stopped_collector (same : first.collector = second.collector) (stop : Diagnostic) :
    (stopped first stop).collector = (stopped second stop).collector := by
  simp only [stopped, same]

theorem assembleWith_result_congr (same : first.collector = second.collector) :
    (assembleWith settings table file source first).result = (assembleWith settings table file source second).result := by
  have ending := assembleWith_ending settings table file source first
  generalize assembleWith settings table file source first = outcome at ending
  cases ending with
  | layoutStopped replayed =>
    obtain ⟨other, replayed, same⟩ := Journal.replay_collector replayed same
    rw [(Ending.layoutStopped replayed).eq]
    exact finish_result_congr (stopped_collector same _) _ _ _
  | aborted replayed aborted =>
    obtain ⟨other, replayed, same⟩ := Journal.replay_collector replayed same
    rw [(Ending.aborted replayed aborted).eq]
    exact finish_result_congr same _ _ _
  | encodingStopped replayed complete encoded =>
    obtain ⟨between, replayed, same⟩ := Journal.replay_collector replayed same
    obtain ⟨other, encoded, same⟩ := Journal.replay_collector encoded same
    rw [(Ending.encodingStopped replayed complete encoded).eq]
    exact finish_result_congr (stopped_collector same _) _ _ _
  | encoded replayed complete encoded =>
    obtain ⟨between, replayed, same⟩ := Journal.replay_collector replayed same
    obtain ⟨other, encoded, same⟩ := Journal.replay_collector encoded same
    rw [(Ending.encoded replayed complete encoded).eq]
    exact finish_result_congr same _ _ _

/-- The result of a run does not depend on what was logged before it. -/
theorem run_result_congr (same : first.collector = second.collector) :
    (run settings table file source first).result = (run settings table file source second).result := by
  unfold run
  split
  next =>
    unfold fail Journal.submit
    rw [same]
    cases second.collector.stop? { cause := .emptyTable } with
    | some stop => rfl
    | none => exact finish_result_congr rfl _ _ _
  next => exact assembleWith_result_congr same

theorem run_withLineFeeds (settings : Settings) (table : OpcodeTable) (file source : String) (journal : Journal) :
    run settings table file (InputFile.withLineFeeds source) journal = run settings table file source journal := by
  unfold run assembleWith Statement.parseAll
  rw [InputFile.lines_withLineFeeds]

end Assembly

theorem OpcodeTable.eq_empty_of_size {table : OpcodeTable} (empty : table.size = 0) : table = {} := by
  obtain ⟨⟨entries⟩⟩ := table
  obtain rfl := List.length_eq_zero_iff.mp empty
  rfl

namespace Assembly

variable {settings : Settings} {table : OpcodeTable} {file source : String} {journal : Journal}

/-- A run gives its table back, -/
theorem run_table {assembly : Assembly} (returned : (run settings table file source journal).result = .ok assembly) :
    assembly.table = table := by
  unfold run at returned
  split at returned
  next empty =>
    obtain ⟨-, finished⟩ := fail_returned returned
    obtain rfl := Except.ok.inj finished
    rw [OpcodeTable.eq_empty_of_size empty]
  next =>
    have ending := assembleWith_ending settings table file source journal
    generalize assembleWith settings table file source journal = outcome at ending returned
    cases ending <;>
    · obtain rfl := Except.ok.inj returned
      rfl

/-- unless the table has no entries. -/
theorem table_eq_empty_of_error {interruption : Interruption}
    (escaped : (run settings table file source journal).result = .error interruption) : table = {} := by
  unfold run at escaped
  split at escaped
  next empty => exact OpcodeTable.eq_empty_of_size empty
  next =>
    obtain ⟨assembly, returned, -⟩ := assembleWith_returns settings table file source journal
    rw [returned] at escaped
    cases escaped

/-- Runs with different tables have different results. -/
theorem table_eq_of_run_result {other : OpcodeTable}
    (same : (run settings table file source journal).result = (run settings other file source journal).result) :
    table = other := by
  cases outcome : (run settings table file source journal).result with
  | error interruption =>
    rw [table_eq_empty_of_error outcome, table_eq_empty_of_error (same.symm.trans outcome)]
  | ok assembly => rw [← run_table outcome, run_table (same.symm.trans outcome)]

end Assembly

theorem assemble_result (settings : Settings) (file source tableText : String) :
    (assemble settings file source tableText).result =
      (Assembly.run settings (.ofText tableText) file source (Assembly.newJournal settings)).result := by
  rw [assemble]
  exact Assembly.run_result_congr rfl

/-- A path that leads to a file with a text. -/
def FileTree.Holds (tree : FileTree) (path text : String) : Prop :=
  tree.read (Path.normalize path) = .ok text.toUTF8

instance (tree : FileTree) (path text : String) : Decidable (tree.Holds path text) :=
  inferInstanceAs (Decidable (tree.read (Path.normalize path) = .ok text.toUTF8))

section
variable {tree : FileTree} {path text : String}

theorem InputFile.readText_stored (reason : FileFault → String) (stored : tree.Holds path text) :
    readText reason tree path = .ok (withLineFeeds text) := by
  unfold readText
  rw [stored]
  dsimp only
  rw [decode?_toUTF8]

theorem InputFile.readTable_stored (stored : tree.Holds path text) :
    readTable tree path = .ok (.ofText (blankBoundaries text)) := by
  rw [readTable, readText_stored _ stored, ← ofLines_tableLines]
  rfl

end

section
variable (settings : Settings) {tree : FileTree} {sourcePath tablePath source tableText : String}
  (sourceStored : tree.Holds sourcePath source) (tableStored : tree.Holds tablePath tableText)
include sourceStored tableStored

theorem assembleFile_result : (assembleFile settings tree sourcePath tablePath).result =
    (assemble settings sourcePath source (blankBoundaries tableText)).result := by
  obtain ⟨journal, fresh, outcome⟩ :=
    assembleFile_of_table_read settings (InputFile.readTable_stored tableStored) sourcePath
  rw [outcome, InputFile.readSource, InputFile.readText_stored _ sourceStored, Assembly.continueWith,
    Assembly.run_withLineFeeds, assemble_result]
  exact Assembly.run_result_congr fresh

theorem assembleFile_result_eq_iff :
    (assembleFile settings tree sourcePath tablePath).result = (assemble settings sourcePath source tableText).result ↔
      OpcodeTable.ofText (blankBoundaries tableText) = .ofText tableText := by
  rw [assembleFile_result settings sourceStored tableStored, assemble_result, assemble_result]
  constructor
  · exact Assembly.table_eq_of_run_result
  · intro tables
    rw [tables]

end

/-- How a run over files compares with runs over texts. -/
structure FileRunLaw (settings : Settings) (tree : FileTree) (sourcePath tablePath source tableText : String) : Prop where
  /-- It comes to the same as over the texts, with blanks in the table for line boundaries that are no
      newlines. -/
  result : (assembleFile settings tree sourcePath tablePath).result =
    (assemble settings sourcePath source (blankBoundaries tableText)).result
  /-- So it comes to the same as over the texts themselves exactly if these blanks leave the table as it is, -/
  agrees : (assembleFile settings tree sourcePath tablePath).result =
      (assemble settings sourcePath source tableText).result ↔
    OpcodeTable.ofText (blankBoundaries tableText) = .ofText tableText
  /-- in particular if there are no such boundaries in it. -/
  newlines : (∀ c ∈ tableText.toList, isBoundary c → isNewline c) →
    (assembleFile settings tree sourcePath tablePath).result = (assemble settings sourcePath source tableText).result

theorem assembleFile_fileRunLaw (settings : Settings) {tree : FileTree} {sourcePath tablePath source tableText : String}
    (sourceStored : tree.Holds sourcePath source) (tableStored : tree.Holds tablePath tableText) :
    FileRunLaw settings tree sourcePath tablePath source tableText := by
  have result := assembleFile_result settings sourceStored tableStored
  refine ⟨result, assembleFile_result_eq_iff settings sourceStored tableStored, ?_⟩
  intro newlines
  rw [result, blankBoundaries_of_newlines newlines]

private def storedFiles (source tableText : String) : FileTree :=
  { nodes := [(["prog.asm"], .file source.toUTF8), (["optab.txt"], .file tableText.toUTF8)] }

/-- A form feed at the end of a line does no harm. -/
theorem assembleFile_fileRunLaw_paged :
    let tree := storedFiles "COPY START 1000\r\n LDA COPY\n END\n" "LDA 00\x0c\r\nSTA 0C\n"
    tree.Holds "./prog.asm" "COPY START 1000\r\n LDA COPY\n END\n" ∧ tree.Holds "optab.txt" "LDA 00\x0c\r\nSTA 0C\n" ∧
      (assembleFile {} tree "./prog.asm" "optab.txt").result =
        (assemble {} "./prog.asm" "COPY START 1000\r\n LDA COPY\n END\n" "LDA 00\x0c\r\nSTA 0C\n").result := by
  intro tree
  have sourceStored : tree.Holds "./prog.asm" "COPY START 1000\r\n LDA COPY\n END\n" := by decide +kernel
  have tableStored : tree.Holds "optab.txt" "LDA 00\x0c\r\nSTA 0C\n" := by decide +kernel
  exact ⟨sourceStored, tableStored, (assembleFile_fileRunLaw {} sourceStored tableStored).agrees.mpr (by decide +kernel)⟩

/-- With a form feed between two lines, a file has an empty table where the text has two entries. -/
theorem form_feed_table_differs :
    (∃ assembly, (assembleFile {} (storedFiles " LDA\n END\n" "LDA 00\x0cSTA 0C\n") "prog.asm" "optab.txt").result =
        .ok assembly ∧
      assembly.collector.errors = [{ cause := .emptyTable }]) ∧
    ∃ assembly, (assemble {} "prog.asm" " LDA\n END\n" "LDA 00\x0cSTA 0C\n").result = .ok assembly ∧
      assembly.table.size = 2 ∧ assembly.succeeded := by
  have sourceStored : (storedFiles " LDA\n END\n" "LDA 00\x0cSTA 0C\n").Holds "prog.asm" " LDA\n END\n" := by
    decide +kernel
  have tableStored : (storedFiles " LDA\n END\n" "LDA 00\x0cSTA 0C\n").Holds "optab.txt" "LDA 00\x0cSTA 0C\n" := by
    decide +kernel
  rw [assembleFile_result {} sourceStored tableStored]
  constructor
  · exact exists_ok_of_any (by decide +kernel)
  · exact exists_ok_of_any (by decide +kernel)

end TwoPass
