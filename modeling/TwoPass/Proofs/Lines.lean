import Mathlib.Data.List.TakeWhile
import TwoPass.Text.Blank
import TwoPass.Text.Lines

/-!
Cutting texts that were put together. Fields are read back as they were joined
(`fields_append`), terminated lines as they were written (`lines_endLines`), and a text
without blanks at its ends is not trimmed. No line holds a line boundary (`mem_lines`), and texts
that are joined at the end of a line keep their lines, but for an empty one (`lines_append`).
-/
namespace TwoPass.Text

theorem fields_ne_nil (separator : Char) (text : List Char) : fields separator text ≠ [] := by
  cases text with
  | nil => simp [fields]
  | cons c rest =>
    rw [fields]
    split
    · simp
    · cases fields separator rest <;> simp [extendFirst]

theorem fields_append (separator : Char) (front back : List Char) :
    fields separator (front ++ separator :: back) = fields separator front ++ fields separator back := by
  induction front with
  | nil => simp [fields]
  | cons c rest ih =>
    rw [List.cons_append, fields, fields, ih]
    split
    · rfl
    · cases shape : fields separator rest with
      | nil => exact absurd shape (fields_ne_nil separator rest)
      | cons first others => rfl

/-- The first field ends in front of the first separator. -/
theorem head?_fields (separator : Char) (text : List Char) :
    (fields separator text).head? = some (text.takeWhile (· ≠ separator)) := by
  induction text with
  | nil => rfl
  | cons c rest ih =>
    rw [fields]
    by_cases isSeparator : c = separator
    · simp [isSeparator]
    · cases shape : fields separator rest with
      | nil => exact absurd shape (fields_ne_nil separator rest)
      | cons first others =>
        rw [shape] at ih
        obtain rfl := Option.some.inj ih
        simp [isSeparator, extendFirst]

theorem fields_of_not_mem {separator : Char} {text : List Char} (free : separator ∉ text) :
    fields separator text = [text] := by
  induction text with
  | nil => rfl
  | cons c rest ih =>
    rw [List.mem_cons, not_or] at free
    rw [fields, if_neg (Ne.symm free.1), ih free.2]
    rfl

theorem fields_flatMap {separator : Char} {first : List Char} {texts : List (List Char)} (firstFree : separator ∉ first)
    (free : ∀ text ∈ texts, separator ∉ text) :
    fields separator (first ++ texts.flatMap (separator :: ·)) = first :: texts := by
  induction texts generalizing first with
  | nil => rw [List.flatMap_nil, List.append_nil, fields_of_not_mem firstFree]
  | cons text rest ih =>
    rw [List.forall_mem_cons] at free
    rw [List.flatMap_cons, List.cons_append, fields_append, fields_of_not_mem firstFree, ih free.1 free.2]
    rfl

/-- A field holds no separator, and nothing that is not in the text. -/
theorem mem_fields {separator : Char} {text field : List Char} (member : field ∈ fields separator text) :
    separator ∉ field ∧ ∀ c ∈ field, c ∈ text := by
  induction text generalizing field with
  | nil =>
    rw [List.mem_singleton.mp member]
    exact ⟨nofun, nofun⟩
  | cons c rest ih =>
    have behind {other : List Char} (later : other ∈ fields separator rest) :
        separator ∉ other ∧ ∀ d ∈ other, d ∈ c :: rest :=
      ⟨(ih later).1, fun d inside => List.mem_cons_of_mem c ((ih later).2 d inside)⟩
    rw [fields] at member
    split at member
    next =>
      rcases List.mem_cons.mp member with rfl | later
      · exact ⟨nofun, nofun⟩
      · exact behind later
    next other =>
      cases shape : fields separator rest with
      | nil => exact absurd shape (fields_ne_nil separator rest)
      | cons first others =>
        rw [shape, extendFirst, List.mem_cons] at member
        rcases member with rfl | later
        · obtain ⟨free, inside⟩ := behind (shape ▸ List.mem_cons_self)
          exact ⟨by simp [free, Ne.symm other], List.forall_mem_cons.mpr ⟨List.mem_cons_self, inside⟩⟩
        · exact behind (shape ▸ List.mem_cons_of_mem first later)

theorem pieces_append {ends : Char → Bool} {front : List Char} {c : Char} (whole : ∀ c ∈ front, ends c = false)
    (isEnd : ends c) (back : List Char) : pieces ends (front ++ c :: back) = front :: pieces ends back := by
  induction front with
  | nil => simp [pieces, isEnd]
  | cons first rest ih =>
    have here := whole first List.mem_cons_self
    have later := ih fun other member => whole other (List.mem_cons_of_mem first member)
    simp [pieces, here, later, extendFirst]

/-- Only characters that end no piece are in one. -/
theorem mem_pieces {ends : Char → Bool} {text piece : List Char} (member : piece ∈ pieces ends text) :
    ∀ c ∈ piece, ends c = false := by
  induction text generalizing piece with
  | nil => contradiction
  | cons first rest ih =>
    rw [pieces] at member
    split at member
    next =>
      rcases List.mem_cons.mp member with rfl | later
      · nofun
      · exact ih later
    next whole =>
      have here : ends first = false := by simpa using whole
      cases shape : pieces ends rest with
      | nil =>
        rw [shape, extendFirst, List.mem_singleton] at member
        simpa [member] using here
      | cons front others =>
        rw [shape, extendFirst, List.mem_cons] at member
        rcases member with rfl | later
        · exact List.forall_mem_cons.mpr ⟨here, ih (shape ▸ List.mem_cons_self)⟩
        · exact ih (shape ▸ List.mem_cons_of_mem front later)

/-- Where an image ends a piece, the text is cut as its image is. -/
theorem pieces_map {ends other : Char → Bool} {image : Char → Char} (same : ∀ c, ends (image c) = other c)
    (text : List Char) : pieces ends (text.map image) = (pieces other text).map (List.map image) := by
  induction text with
  | nil => rfl
  | cons c rest ih =>
    rw [List.map_cons, pieces, pieces, ih, same]
    split
    · rfl
    · cases pieces other rest <;> rfl

/-- If only characters that end a piece are changed, the pieces stay. -/
theorem pieces_map_of_fixed {ends other : Char → Bool} {image : Char → Char} (same : ∀ c, ends (image c) = other c)
    (fixed : ∀ c, other c = false → image c = c) (text : List Char) :
    pieces ends (text.map image) = pieces other text := by
  rw [pieces_map same]
  refine (List.map_congr_left fun piece isPiece => ?_).trans (List.map_id _)
  exact (List.map_congr_left fun c inside => fixed c (mem_pieces isPiece c inside)).trans (List.map_id piece)

theorem mergeNewlinePairs_of_free {text : List Char} (free : '\r' ∉ text) : mergeNewlinePairs text = text := by
  induction text using mergeNewlinePairs.induct with
  | case1 => rfl
  | case2 rest _ => simp at free
  | case3 c rest _ ih =>
    rw [List.mem_cons, not_or] at free
    rw [mergeNewlinePairs, ih free.2]
    simp_all

/-- Only a carriage return and the line feed behind it are taken together. -/
theorem mergeNewlinePairs_append {front back : List Char}
    (apart : front.getLast? = some '\r' → back.head? ≠ some '\n') :
    mergeNewlinePairs (front ++ back) = mergeNewlinePairs front ++ mergeNewlinePairs back := by
  induction front using mergeNewlinePairs.induct with
  | case1 => rfl
  | case2 rest ih =>
    have later := ih fun last => apart (by simp [List.getLast?_cons, last])
    simp [mergeNewlinePairs, later]
  | case3 c rest unpaired ih =>
    have later := ih fun last => apart (by simp [List.getLast?_cons, last])
    have stays : ∀ behind, c = '\r' → rest ++ back = '\n' :: behind → False := by
      intro behind isReturn pair
      cases rest with
      | nil =>
        subst isReturn
        exact apart rfl (by rw [List.nil_append] at pair; rw [pair]; rfl)
      | cons next others => exact unpaired others isReturn (by rw [(List.cons.inj pair).1])
    rw [List.cons_append, mergeNewlinePairs.eq_3 _ _ stays, mergeNewlinePairs.eq_3 _ _ unpaired, later, List.cons_append]

/-- No line holds a line boundary. -/
theorem mem_lines {text line : String} (member : line ∈ lines text) : ∀ c ∈ line.toList, isBoundary c = false := by
  obtain ⟨piece, isPiece, rfl⟩ := List.mem_map.mp member
  rw [String.toList_ofList]
  exact mem_pieces isPiece

theorem mem_of_mem_numbered {α : Type} {first number : Nat} {item : α} {items : List α}
    (member : (number, item) ∈ numbered first items) : item ∈ items := by
  induction items generalizing first with
  | nil => contradiction
  | cons other rest ih =>
    rcases List.mem_cons.mp member with here | later
    · rw [(Prod.mk.inj here).2]
      exact List.mem_cons_self
    · exact List.mem_cons_of_mem other (ih later)

theorem le_of_mem_numbered {α : Type} {first number : Nat} {item : α} {items : List α}
    (member : (number, item) ∈ numbered first items) : first ≤ number := by
  induction items generalizing first with
  | nil => contradiction
  | cons other rest ih =>
    rcases List.mem_cons.mp member with here | later
    · exact Nat.le_of_eq (Prod.mk.inj here).1.symm
    · exact Nat.le_of_succ_le (ih later)

theorem pairwise_numbered {α : Type} (first : Nat) (items : List α) : (numbered first items).Pairwise (·.1 < ·.1) := by
  induction items generalizing first with
  | nil => exact .nil
  | cons item rest ih =>
    refine .cons ?_ (ih (first + 1))
    intro entry member
    exact le_of_mem_numbered member

theorem numbered_map {α β : Type} (image : α → β) (first : Nat) (items : List α) :
    numbered first (items.map image) = (numbered first items).map fun entry => (entry.1, image entry.2) := by
  induction items generalizing first with
  | nil => rfl
  | cons item rest ih => rw [List.map_cons, numbered, numbered, ih, List.map_cons]

theorem toList_endLines (texts : List String) :
    (endLines texts).toList = texts.flatMap fun line => line.toList ++ ['\n'] := by
  induction texts with
  | nil => rfl
  | cons line rest ih =>
    rw [endLines, String.toList_append, String.toList_append, ih, List.flatMap_cons]
    rfl

/-- Lines without a line boundary are read back as they were written, whatever follows them. -/
theorem lines_endLines_append {texts : List String} (whole : ∀ line ∈ texts, ∀ c ∈ line.toList, isBoundary c = false)
    (back : String) : lines (endLines texts ++ back) = texts ++ lines back := by
  have noReturn : '\r' ∉ (endLines texts).toList := by
    rw [toList_endLines]
    intro member
    obtain ⟨line, isLine, here⟩ := List.mem_flatMap.mp member
    rcases List.mem_append.mp here with inLine | isFeed
    · exact absurd (whole line isLine _ inLine) (by decide)
    · exact absurd (List.mem_singleton.mp isFeed) (by decide)
  have apart : (endLines texts).toList.getLast? = some '\r' → (back.toList).head? ≠ some '\n' := fun last =>
    absurd (List.mem_of_getLast? last) noReturn
  rw [lines, String.toList_append, mergeNewlinePairs_append apart, mergeNewlinePairs_of_free noReturn, toList_endLines]
  clear noReturn apart
  induction texts with
  | nil => rfl
  | cons line rest ih =>
    rw [List.flatMap_cons, List.append_assoc, List.append_assoc, List.singleton_append,
      pieces_append (whole line List.mem_cons_self) (by decide), List.map_cons, String.ofList_toList,
      ih fun other member => whole other (List.mem_cons_of_mem line member), List.cons_append]

theorem lines_endLines {texts : List String} (whole : ∀ line ∈ texts, ∀ c ∈ line.toList, isBoundary c = false) :
    lines (endLines texts) = texts := by
  have alone := lines_endLines_append whole ""
  rwa [String.append_empty, show lines "" = [] from rfl, List.append_nil] at alone

/-- The first line ends in front of the first line boundary. -/
theorem lines_of_boundary {front : List Char} {c : Char} (whole : ∀ c ∈ front, isBoundary c = false)
    (boundary : isBoundary c) (back : List Char) :
    ∃ rest, lines (String.ofList (front ++ c :: back)) = String.ofList front :: rest := by
  have noReturn : '\r' ∉ front := fun member => absurd (whole _ member) (by decide)
  have apart : front.getLast? = some '\r' → (c :: back).head? ≠ some '\n' := fun last =>
    absurd (List.mem_of_getLast? last) noReturn
  -- A carriage return may be merged with what follows it, but that is a line boundary still.
  have merged : ∃ other behind, mergeNewlinePairs (c :: back) = other :: behind ∧ isBoundary other := by
    by_cases pair : c = '\r' ∧ ∃ behind, back = '\n' :: behind
    · obtain ⟨rfl, behind, rfl⟩ := pair
      exact ⟨'\n', _, mergeNewlinePairs.eq_2 behind, by decide⟩
    · exact ⟨c, _, mergeNewlinePairs.eq_3 c back fun behind isReturn isFeed => pair ⟨isReturn, behind, isFeed⟩, boundary⟩
  obtain ⟨other, behind, shape, isEnd⟩ := merged
  refine ⟨(pieces isBoundary behind).map String.ofList, ?_⟩
  rw [lines, String.toList_ofList, mergeNewlinePairs_append apart, mergeNewlinePairs_of_free noReturn, shape,
    pieces_append whole isEnd, List.map_cons]

/-- A text that is empty or ends in a line boundary. -/
def EndsLine (text : String) : Prop :=
  ∀ c ∈ text.toList.getLast?, isBoundary c

instance (text : String) : Decidable (EndsLine text) :=
  decidable_of_iff (text.toList.getLast?.all isBoundary) (Option.all_eq_true _ _)

theorem pieces_ne_nil {ends : Char → Bool} {text : List Char} (nonempty : text ≠ []) : pieces ends text ≠ [] := by
  cases text with
  | nil => contradiction
  | cons c rest =>
    rw [pieces]
    split
    · simp
    · cases pieces ends rest <;> simp [extendFirst]

theorem pieces_append_of_end {ends : Char → Bool} {c : Char} (isEnd : ends c) (front back : List Char) :
    pieces ends (front ++ c :: back) = pieces ends (front ++ [c]) ++ pieces ends back := by
  induction front with
  | nil => simp [pieces, isEnd]
  | cons first rest ih =>
    simp only [List.cons_append, pieces, ih]
    split
    · rfl
    · cases shape : pieces ends (rest ++ [c]) with
      | nil => exact absurd shape (pieces_ne_nil (by simp))
      | cons => rfl

theorem pieces_concat_congr {ends : Char → Bool} {c other : Char} (isEnd : ends c) (otherIsEnd : ends other)
    (front : List Char) : pieces ends (front ++ [c]) = pieces ends (front ++ [other]) := by
  induction front with
  | nil => simp [pieces, isEnd, otherIsEnd]
  | cons first rest ih => simp only [List.cons_append, pieces, ih]

theorem getLast?_mergeNewlinePairs (text : List Char) : (mergeNewlinePairs text).getLast? = text.getLast? := by
  induction text using mergeNewlinePairs.induct with
  | case1 => rfl
  | case2 rest ih => simp [mergeNewlinePairs, List.getLast?_cons, ih]
  | case3 c rest unpaired ih => rw [mergeNewlinePairs.eq_3 _ _ unpaired, List.getLast?_cons, List.getLast?_cons, ih]

/-- The lines of a text and of what stands behind it are those of both, except that a line feed
    which stands behind a carriage return ends no line of its own. -/
theorem lines_append {front : String} (ended : EndsLine front) (back : String) :
    lines (front ++ back) = lines front ++ lines back ∨
      ∃ rest, lines back = "" :: rest ∧ lines (front ++ back) = lines front ++ rest := by
  simp only [lines, String.toList_append]
  cases last : front.toList.getLast? with
  | none =>
    left
    rw [List.getLast?_eq_none_iff.mp last]
    rfl
  | some c =>
    have boundary : isBoundary c := ended c last
    by_cases pair : c = '\r' ∧ ∃ behind, back.toList = '\n' :: behind
    · right
      obtain ⟨rfl, behind, backShape⟩ := pair
      obtain ⟨start, shape⟩ := List.getLast?_eq_some_iff.mp last
      have alone : mergeNewlinePairs ['\r'] = ['\r'] := rfl
      have feed : mergeNewlinePairs ('\n' :: behind) = '\n' :: mergeNewlinePairs behind :=
        mergeNewlinePairs.eq_3 _ _ (by simp)
      refine ⟨(pieces isBoundary (mergeNewlinePairs behind)).map String.ofList, ?_, ?_⟩
      · rw [backShape, feed]
        rfl
      · rw [shape, backShape, List.append_assoc, List.singleton_append, mergeNewlinePairs_append (by simp),
          mergeNewlinePairs.eq_2, mergeNewlinePairs_append (by simp), alone, pieces_append_of_end (by decide),
          List.map_append, pieces_concat_congr (by decide) boundary]
    · left
      have apart : front.toList.getLast? = some '\r' → back.toList.head? ≠ some '\n' := by
        intro isReturn first
        rw [last, Option.some.injEq] at isReturn
        exact pair ⟨isReturn, List.head?_eq_some_iff.mp first⟩
      rw [← getLast?_mergeNewlinePairs] at last
      obtain ⟨merged, shape⟩ := List.getLast?_eq_some_iff.mp last
      rw [mergeNewlinePairs_append apart, shape, List.append_assoc, List.singleton_append,
        pieces_append_of_end boundary, List.map_append]

theorem isBlank_of_isBoundary {c : Char} (boundary : isBoundary c) : isBlank c := by
  simp only [isBoundary, isBlank, Bool.or_eq_true, Bool.and_eq_true, decide_eq_true_eq, beq_iff_eq] at boundary ⊢
  omega

theorem length_trimEnd_le (drop : Char → Bool) (text : List Char) : (trimEnd drop text).length ≤ text.length := by
  rw [trimEnd, List.length_reverse]
  exact (List.length_dropWhile_le drop text.reverse).trans (by rw [List.length_reverse])

theorem length_trimBlanks_le (text : List Char) : (trimBlanks text).length ≤ text.length :=
  (length_trimEnd_le isBlank _).trans (List.length_dropWhile_le isBlank text)

/-- A text that begins and ends with other characters than blanks has nothing to trim. -/
theorem trimBlanks_of_ends {text : List Char} (first : ∀ c ∈ text.head?, isBlank c = false)
    (last : ∀ c ∈ text.getLast?, isBlank c = false) : trimBlanks text = text := by
  have front : text.dropWhile isBlank = text := by
    cases text with
    | nil => rfl
    | cons c rest => rw [List.dropWhile_cons_of_neg (by simp [first c rfl])]
  have back : text.reverse.dropWhile isBlank = text.reverse := by
    cases shape : text.reverse with
    | nil => rfl
    | cons c rest =>
      have isLast : text.getLast? = some c := by rw [← List.head?_reverse, shape]; rfl
      rw [List.dropWhile_cons_of_neg (by simp [last c isLast])]
  rw [trimBlanks, front, trimEnd, back, List.reverse_reverse]

theorem trimBlanks_of_dark {text : List Char} (dark : ∀ c ∈ text, isBlank c = false) : trimBlanks text = text :=
  trimBlanks_of_ends (fun c first => dark c (List.mem_of_mem_head? first))
    fun c last => dark c (List.mem_of_mem_getLast? last)

theorem trimEnd_of_free {drop : Char → Bool} {text : List Char} (stays : ∀ c ∈ text, drop c = false) :
    trimEnd drop text = text := by
  rw [trimEnd, List.reverse_eq_iff]
  cases shape : text.reverse with
  | nil => rfl
  | cons last rest =>
    have isLast : last ∈ text := List.mem_reverse.mp (shape ▸ List.mem_cons_self)
    rw [List.dropWhile_cons_of_neg (by simp [stays last isLast])]

theorem trimEnd_append {drop : Char → Bool} {back : List Char} (dropped : ∀ c ∈ back, drop c) (front : List Char) :
    trimEnd drop (front ++ back) = trimEnd drop front := by
  rw [trimEnd, List.reverse_append, List.dropWhile_append_of_pos fun c member => dropped c (List.mem_reverse.mp member)]
  rfl

theorem exists_trimEnd_append (drop : Char → Bool) (text : List Char) :
    ∃ back, text = trimEnd drop text ++ back ∧ ∀ c ∈ back, drop c := by
  refine ⟨(text.reverse.takeWhile drop).reverse, ?_, ?_⟩
  · rw [trimEnd, ← List.reverse_append, List.takeWhile_append_dropWhile, List.reverse_reverse]
  · intro c member
    exact List.mem_takeWhile_imp (List.mem_reverse.mp member)

theorem mem_of_mem_trimEnd {drop : Char → Bool} {text : List Char} {c : Char} (member : c ∈ trimEnd drop text) :
    c ∈ text :=
  List.mem_reverse.mp ((List.dropWhile_sublist drop).subset (List.mem_reverse.mp member))

/-- Only characters that are dropped at the end are lost. -/
theorem mem_trimEnd {drop : Char → Bool} {text : List Char} {c : Char} (member : c ∈ text) (stays : drop c = false) :
    c ∈ trimEnd drop text := by
  have reversed : c ∈ text.reverse.takeWhile drop ++ text.reverse.dropWhile drop := by
    rw [List.takeWhile_append_dropWhile]
    exact List.mem_reverse.mpr member
  rcases List.mem_append.mp reversed with front | back
  · exact absurd (List.mem_takeWhile_imp front) (by simp [stays])
  · exact List.mem_reverse.mpr back

/-- Blanks behind a text are trimmed with its own. -/
theorem trimBlanks_append {back : List Char} (blank : ∀ c ∈ back, isBlank c) (front : List Char) :
    trimBlanks (front ++ back) = trimBlanks front := by
  rw [trimBlanks, trimBlanks, List.dropWhile_append]
  split
  next empty =>
    rw [List.isEmpty_iff.mp empty, List.dropWhile_eq_nil_iff.mpr blank]
  next => exact trimEnd_append blank _

theorem trimBlanks_of_all_blank {text : List Char} (blank : text.all isBlank) : trimBlanks text = [] := by
  rw [trimBlanks, List.dropWhile_eq_nil_iff.mpr (List.all_eq_true.mp blank)]
  rfl

end TwoPass.Text
