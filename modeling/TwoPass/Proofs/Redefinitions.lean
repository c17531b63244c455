import TwoPass.Proofs.UnknownOpcodes

/-!
Reports of symbols that are defined again. The symbol table remembers the place of the latest definition
(`Remembers`), so that every report names the definition in front of it as the first one (`run_redefinitions`).
It is the first one only for the second definition of a symbol (`Redefinition`).
-/
namespace TwoPass

open Text

/-- The symbol that a statement defines. -/
def Statement.symbol? (statement : Statement) : Option String :=
  symbolOf statement.opcode statement.label

/-- The report that a statement defines a symbol which was defined at some place before. -/
def Statement.redefinition (settings : Settings) (statement : Statement) (name : String) (earlier : Location) :
    Diagnostic :=
  { cause := .duplicateSymbol name (some earlier)
    severity := if settings.strict then .error else .warning
    location := some statement.location
    sourceLine := some statement.text }

/-- The statements that define a symbol, in order. -/
def definersOf (name : String) (statements : List Statement) : List Statement :=
  statements.filter (·.symbol? = some name)

/-- The report for a statement behind others, if it defines a symbol again: it names the latest definition. -/
def redefinition? (settings : Settings) (earlier : List Statement) (statement : Statement) : Option Diagnostic :=
  statement.symbol?.bind fun name =>
    (definersOf name earlier).getLast?.map fun previous => statement.redefinition settings name previous.location

/-- The reports for statements behind others, in order. -/
def redefinitions (settings : Settings) (earlier : List Statement) : List Statement → List Diagnostic
  | [] => []
  | statement :: rest =>
    (redefinition? settings earlier statement).toList ++ redefinitions settings (earlier ++ [statement]) rest

theorem definersOf_append (name : String) (front back : List Statement) :
    definersOf name (front ++ back) = definersOf name front ++ definersOf name back :=
  List.filter_append front back

theorem getLast?_definersOf_concat (name : String) (earlier : List Statement) (statement : Statement) :
    (definersOf name (earlier ++ [statement])).getLast? =
      if statement.symbol? = some name then some statement else (definersOf name earlier).getLast? := by
  rw [definersOf_append]
  by_cases defines : statement.symbol? = some name
  · simp [definersOf, defines]
  · simp [definersOf, defines]

theorem mem_redefinitions {settings : Settings} {earlier statements : List Statement} {report : Diagnostic}
    (member : report ∈ redefinitions settings earlier statements) :
    ∃ between statement later, statements = between ++ statement :: later ∧
      redefinition? settings (earlier ++ between) statement = some report := by
  induction statements generalizing earlier with
  | nil => contradiction
  | cons statement rest ih =>
    rcases List.mem_append.mp member with here | behind
    · exact ⟨[], statement, rest, rfl, by simpa using here⟩
    · obtain ⟨between, other, later, rfl, found⟩ := ih behind
      refine ⟨statement :: between, other, later, rfl, ?_⟩
      rwa [List.append_assoc, List.singleton_append] at found

theorem SymbolTable.definition?_define (symbols : SymbolTable) (name other : String) (address : Int)
    (location : Location) :
    (symbols.define name address (some location)).definition? other =
      if name = other then some location else symbols.definition? other := by
  simp only [definition?, define, Dictionary.get?_insert]
  split <;> rfl

/-- A symbol table knows the places of the latest definitions. -/
def SymbolTable.Remembers (symbols : SymbolTable) (earlier : List Statement) : Prop :=
  ∀ name, symbols.definition? name = (definersOf name earlier).getLast?.map Statement.location

namespace Layout

variable {settings : Settings} {table : OpcodeTable} {progress : Progress} {statement : Statement}

/-- A statement with a record is the latest to define its symbol. -/
theorem Placement.remembers {after : Progress} {record : Record} {fault : Option Diagnostic} {earlier : List Statement}
    (placed : Placement table progress statement (some record) after fault)
    (remembered : progress.symbols.Remembers earlier) : after.symbols.Remembers (earlier ++ [statement]) := by
  have same : record.symbol? = statement.symbol? := by
    rw [Record.symbol?, Statement.symbol?, placed.carries.opcode, placed.carries.label]
  have entered := placed.enters
  generalize after.symbols = symbols at entered
  intro name
  rw [getLast?_definersOf_concat]
  cases entered with
  | nothing defines =>
    have none : statement.symbol? = none := same ▸ defines
    rw [remembered name, none, if_neg (by simp)]
  | @symbol _ other address defines _ =>
    rw [SymbolTable.definition?_define, remembered name, ← same, defines]
    by_cases isName : other = name <;> simp [isName]

/-- What a definition reports, by the symbol table. -/
theorem definitionEvents_redefinition (plain : PlainOpcode statement.opcode) :
    ofCategory .duplicateSymbol (diagnosticsOf (definitionEvents settings progress statement)) =
      (statement.symbol?.bind fun name =>
        (progress.symbols.definition? name).map (statement.redefinition settings name)).toList := by
  have same : statement.symbol? = label? statement := if_pos plain
  rw [same, definitionEvents]
  cases label? statement with
  | none => rfl
  | some name =>
    simp only [Option.bind_some]
    cases progress.symbols.definition? name with
    | none => rfl
    | some earlier => rfl

theorem placeOther_redefinition (plain : PlainOpcode statement.opcode) :
    ofCategory .duplicateSymbol (diagnosticsOf (placeOther settings table progress statement).events) =
      if (placeOther settings table progress statement).record.isSome then
        (statement.symbol?.bind fun name =>
          (progress.symbols.definition? name).map (statement.redefinition settings name)).toList
      else [] := by
  rw [← definitionEvents_redefinition plain]
  unfold placeOther
  by_cases beyond : maxAddress < progress.counter
  · simp [beyond, ofCategory]
  · simp only [beyond, if_false]
    cases statementSize table statement.opcode statement.operand with
    | error fault => rfl
    | ok size? =>
      cases size? with
      | none =>
        rw [diagnosticsOf_append, ofCategory_append]
        exact List.append_nil _
      | some bytes => rfl

/-- A statement with a record is reported if the table knows its symbol. -/
theorem place_redefinition :
    ofCategory .duplicateSymbol (diagnosticsOf (place settings table progress statement).events) =
      if (place settings table progress statement).record.isSome then
        (statement.symbol?.bind fun name =>
          (progress.symbols.definition? name).map (statement.redefinition settings name)).toList
      else [] := by
  have remarked : ofCategory .duplicateSymbol (diagnosticsOf (remarks progress statement)) = [] :=
    List.length_eq_zero_iff.mp (duplicates_remarks progress statement)
  rcases opcode_cases statement.opcode with isStart | isEnd | plain
  · have silent : ofCategory .duplicateSymbol (diagnosticsOf (placeStart progress statement).events) = [] := by
      unfold placeStart
      dsimp only
      split <;> split <;> rfl
    have none : statement.symbol? = none := if_neg fun plain => plain.1 isStart
    rw [place_start isStart, diagnosticsOf_append, ofCategory_append, remarked, silent, none]
    exact (ite_self _).symm
  · have none : statement.symbol? = none := if_neg fun plain => plain.2 isEnd
    rw [place_end isEnd, diagnosticsOf_append, ofCategory_append, remarked, none]
    exact (ite_self _).symm
  · rw [place_plain plain, diagnosticsOf_append, ofCategory_append, remarked, List.nil_append]
    exact placeOther_redefinition plain

/-- A run reports the statements with a record that define a symbol again, up to where it ends. -/
theorem run_redefinitions {earlier statements : List Statement} (remembered : progress.symbols.Remembers earlier) :
    ofCategory .duplicateSymbol (diagnosticsOf (run settings table progress statements).events) =
      redefinitions settings earlier (statements.take (run settings table progress statements).records.length) := by
  induction statements generalizing progress earlier with
  | nil => rfl
  | cons statement rest ih =>
    have placement := place_placement settings table progress statement
    have reported : ofCategory .duplicateSymbol (diagnosticsOf (place settings table progress statement).events) = _ :=
      place_redefinition
    -- What the table knows of a symbol is the latest of the statements so far.
    have latest : (statement.symbol?.bind fun name =>
        (progress.symbols.definition? name).map (statement.redefinition settings name)) =
          redefinition? settings earlier statement := by
      simp only [redefinition?, remembered _, Option.map_map]
      rfl
    rw [latest] at reported
    cases outcome : (place settings table progress statement).fault with
    | some fault =>
      rw [outcome] at placement
      have other : fault.category ≠ .duplicateSymbol := by
        rcases placement.fault_category with category | category <;> simp [category]
      have unreported : ofCategory .duplicateSymbol
          (diagnosticsOf [.debug ("Pass 1 stopped: " ++ fault.message), .reported fault]) = [] :=
        List.length_eq_zero_iff.mp (duplicates_other other [])
      rw [run_cons_fault settings table rest outcome, diagnosticsOf_append, ofCategory_append, unreported, reported,
        List.append_nil]
      cases (place settings table progress statement).record with
      | none => rfl
      | some record => simp [redefinitions]
    | none =>
      rw [outcome] at placement
      obtain ⟨record, recorded⟩ := placement.exists_record
      rw [recorded] at placement reported
      rw [run_cons_placed settings table rest outcome, diagnosticsOf_append, ofCategory_append, reported, recorded,
        ih (placement.remembers remembered)]
      rfl

end Layout

theorem layoutEvents_redefinitions (settings : Settings) (table : OpcodeTable) (statements : List Statement) :
    ofCategory .duplicateSymbol (diagnosticsOf (layoutEvents settings table statements)) =
      redefinitions settings [] (statements.take (layOut settings table statements).records.length) := by
  have closed : ofCategory .duplicateSymbol (diagnosticsOf (Layout.closingEvents (layOut settings table statements))) = [] :=
    List.length_eq_zero_iff.mp (Layout.duplicates_closingEvents _)
  have nothing : ({} : Layout.Progress).symbols.Remembers [] := fun _ => rfl
  rw [layoutEvents, diagnosticsOf_append, ofCategory_append, closed, List.append_nil, layOut,
    Layout.run_redefinitions nothing]
  rfl

theorem Statement.parseAll_ordered (settings : Settings) (table : OpcodeTable) (file source : String) :
    (parseAll settings table file source).Pairwise (·.line < ·.line) := by
  have ascending := pairwise_numbered 1 (lines source)
  apply ascending.filterMap
  intro first second before statement found other otherFound
  rw [(parse?_placed found).2, (parse?_placed otherFound).2]
  exact_mod_cast before

/-- In order of their lines, the last of some statements stands where the first does only if it is the first. -/
theorem getLast?_location_eq_iff {definers : List Statement} {first last : Statement}
    (ordered : definers.Pairwise (·.line < ·.line)) (isFirst : definers.head? = some first)
    (isLast : definers.getLast? = some last) : last.location = first.location ↔ definers = [first] := by
  obtain ⟨rest, rfl⟩ := List.head?_eq_some_iff.mp isFirst
  constructor
  · intro same
    cases rest with
    | nil => rfl
    | cons second others =>
      have behind : last ∈ second :: others := by
        rw [List.getLast?_cons_cons] at isLast
        exact List.mem_of_getLast? isLast
      have lines : last.line = first.line := congrArg Location.line same
      have before : first.line < last.line := List.rel_of_pairwise_cons ordered behind
      omega
  · intro single
    rw [single, List.getLast?_singleton, Option.some.injEq] at isLast
    rw [isLast]

/-- A report that a statement behind others defines a symbol again: it names the last of the definitions in
    front of it as the first one. -/
structure Redefinition (settings : Settings) (statements : List Statement) (report : Diagnostic) (name : String)
    (earlier : List Statement) (statement first named : Statement) : Prop where
  isBehind : earlier ++ [statement] <+: statements
  defines : statement.symbol? = some name
  isFirst : (definersOf name statements).head? = some first
  isNamed : (definersOf name earlier).getLast? = some named
  isReport : report = statement.redefinition settings name named.location
  hint : report.hint = some ("'" ++ name ++ "' was first defined at " ++ named.location.text)
  /-- It is right for the second definition of a symbol, and for no further one. -/
  right_iff : named.location = first.location ↔ definersOf name earlier = [first]

theorem exists_redefinition {settings : Settings} {statements front : List Statement} {report : Diagnostic}
    (ordered : statements.Pairwise (·.line < ·.line)) (isFront : front <+: statements)
    (member : report ∈ redefinitions settings [] front) :
    ∃ name earlier statement first named,
      Redefinition settings statements report name earlier statement first named := by
  obtain ⟨earlier, statement, later, rfl, found⟩ := mem_redefinitions member
  obtain ⟨name, defines, found⟩ := Option.bind_eq_some_iff.mp found
  obtain ⟨named, isNamed, rfl⟩ := Option.map_eq_some_iff.mp found
  rw [List.nil_append] at isNamed
  have isBehind : earlier ++ [statement] <+: statements := by
    refine List.IsPrefix.trans ⟨later, ?_⟩ isFront
    rw [List.append_assoc, List.singleton_append]
  obtain ⟨back, split⟩ := (List.prefix_append earlier [statement]).trans isBehind
  cases definers : definersOf name earlier with
  | nil =>
    rw [definers] at isNamed
    contradiction
  | cons first others =>
    have isFirst : (definersOf name statements).head? = some first := by
      rw [← split, definersOf_append, definers]
      rfl
    have inOrder : (definersOf name earlier).Pairwise (·.line < ·.line) := by
      rw [← split] at ordered
      exact (List.pairwise_append.mp ordered).1.filter _
    refine ⟨name, earlier, statement, first, named, isBehind, defines, isFirst, isNamed, rfl, rfl, ?_⟩
    exact getLast?_location_eq_iff inOrder (by rw [definers]; rfl) isNamed

/-- What laying out a program has reported about symbols that are defined again. -/
structure RedefinitionLaw (settings : Settings) (statements : List Statement) (layout : Layout)
    (stop? : Option Diagnostic) (reported : List Diagnostic) : Prop where
  /-- The statements that were laid out are reported in order, -/
  inOrder : ofCategory .duplicateSymbol reported <+:
    redefinitions settings [] (statements.take layout.records.length)
  /-- all of them unless the error limit is reached. -/
  complete : stop? = none → ofCategory .duplicateSymbol reported =
    redefinitions settings [] (statements.take layout.records.length)
  /-- A report names the definition in front of it, which is the first one only if it is for the second. -/
  named : ∀ report ∈ reported, report.category = .duplicateSymbol →
    ∃ name earlier statement first named, Redefinition settings statements report name earlier statement first named

theorem layOut_redefinitionLaw (settings : Settings) (table : OpcodeTable) (file source : String) (before : Journal) :
    let statements := Statement.parseAll settings table file source
    let outcome := before.replay (layoutEvents settings table statements)
    ∃ reported, outcome.1.collector.errors = before.collector.errors ++ reported.filter (!·.isWarning) ∧
      outcome.1.collector.warnings = before.collector.warnings ++ reported.filter (·.isWarning) ∧
      RedefinitionLaw settings statements (layOut settings table statements) outcome.2 reported := by
  intro statements outcome
  have ordered : statements.Pairwise (·.line < ·.line) := Statement.parseAll_ordered settings table file source
  have reports := layoutEvents_redefinitions settings table statements
  obtain ⟨reported, isFront, whole, collected⟩ := Journal.replay_entered (show _ = (outcome.1, outcome.2) from rfl)
  have inOrder : ofCategory .duplicateSymbol reported <+:
      redefinitions settings [] (statements.take (layOut settings table statements).records.length) := by
    rw [← reports]
    exact isFront.filter _
  refine ⟨reported, by rw [collected], by rw [collected], inOrder, ?_, ?_⟩
  · intro goesOn
    rw [whole goesOn, reports]
  · intro report member duplicate
    apply exists_redefinition ordered (List.take_prefix (layOut settings table statements).records.length _)
    exact inOrder.subset (List.mem_filter.mpr ⟨member, decide_eq_true duplicate⟩)

/-- The third definition of a symbol is reported as one that was first defined by the second. -/
theorem third_definition_misattributed :
    let statements := Statement.parseAll {} {} "<input>" "A WORD 1\nA WORD 2\nA WORD 3\n"
    (definersOf "A" statements).map Statement.location = [⟨"<input>", 1, 0⟩, ⟨"<input>", 2, 0⟩, ⟨"<input>", 3, 0⟩] ∧
      (ofCategory .duplicateSymbol (({} : Journal).replay (layoutEvents {} {} statements)).1.collector.warnings).map
          (fun report => (report.location, report.hint)) =
        [(some ⟨"<input>", 2, 0⟩, some "'A' was first defined at <input>:1"),
          (some ⟨"<input>", 3, 0⟩, some "'A' was first defined at <input>:2")] := by
  decide +kernel

end TwoPass
