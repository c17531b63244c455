import TwoPass.Proofs.Placement
import TwoPass.Proofs.Reports

/-!
The symbols of a layout. Every record but START and END defines its label
(`Record.symbol?`), and the symbol table of a layout describes exactly these definitions:
the names in the order of their first definition, each with the address of its last one
(`Describes`). Every further definition of a name is reported (`run_duplicates`).
-/
namespace TwoPass

namespace Dictionary

variable {α : Type}

private theorem find?_isSome_iff (key : String) (entries : List (String × α)) :
    (find? key entries).isSome ↔ key ∈ entries.map Prod.fst := by
  induction entries with
  | nil => simp [find?]
  | cons entry rest ih =>
    obtain ⟨first, value⟩ := entry
    by_cases same : first = key
    · simp [find?, same]
    · have other : key ≠ first := fun equal => same equal.symm
      simp [find?, same, other, ih]

/-- A key has a value exactly if it is among the keys. -/
theorem get?_isSome_iff (dictionary : Dictionary α) (key : String) :
    (dictionary.get? key).isSome ↔ key ∈ dictionary.keys :=
  find?_isSome_iff key dictionary.entries

section
variable {β : Type} (image : α → β)

/-- A dictionary with a function applied to every value. -/
def map (dictionary : Dictionary α) : Dictionary β :=
  ⟨dictionary.entries.map (Prod.map id image)⟩

theorem get?_map (dictionary : Dictionary α) (key : String) :
    (dictionary.map image).get? key = (dictionary.get? key).map image := by
  obtain ⟨entries⟩ := dictionary
  change find? key (entries.map (Prod.map id image)) = (find? key entries).map image
  induction entries with
  | nil => rfl
  | cons entry rest ih =>
    simp only [List.map_cons, find?, Prod.map, id_eq]
    split
    · rfl
    · exact ih

theorem map_insert (dictionary : Dictionary α) (key : String) (value : α) :
    (dictionary.insert key value).map image = (dictionary.map image).insert key (image value) := by
  obtain ⟨entries⟩ := dictionary
  change mk ((put key value entries).map (Prod.map id image)) =
    mk (put key (image value) (entries.map (Prod.map id image)))
  congr 1
  induction entries with
  | nil => rfl
  | cons entry rest ih =>
    simp only [List.map_cons, put, Prod.map, id_eq]
    split
    · rfl
    · rw [List.map_cons, ih]
      rfl

@[simp] theorem keys_map (dictionary : Dictionary α) : (dictionary.map image).keys = dictionary.keys := by
  rw [keys, keys, map, List.map_map]
  rfl

end

end Dictionary

namespace SymbolTable

theorem address?_isSome_iff (symbols : SymbolTable) (name : String) :
    (symbols.address? name).isSome ↔ name ∈ symbols.names := by
  rw [address?, Option.isSome_map]
  exact symbols.symbols.get?_isSome_iff name

theorem definition?_isSome_iff (symbols : SymbolTable) (name : String) :
    (symbols.definition? name).isSome ↔ name ∈ symbols.names := by
  rw [definition?, Option.isSome_map]
  exact symbols.symbols.get?_isSome_iff name

/-- The last definition of a name gives its address. -/
theorem address?_define (symbols : SymbolTable) (name other : String) (address : Int) (location : Option Location) :
    (symbols.define name address location).address? other =
      if name = other then some address else symbols.address? other := by
  simp only [address?, define, Dictionary.get?_insert]
  split <;> rfl

/-- The first definition of a name gives its place. -/
theorem names_define (symbols : SymbolTable) (name : String) (address : Int) (location : Option Location) :
    (symbols.define name address location).names =
      if name ∈ symbols.names then symbols.names else symbols.names ++ [name] :=
  symbols.symbols.keys_insert name _

theorem size_eq_length_names (symbols : SymbolTable) : symbols.size = symbols.names.length :=
  (List.length_map _).symm

end SymbolTable

/-- The symbol that a statement with this opcode and label defines, if there is one. -/
def symbolOf (opcode : String) (label : Option String) : Option String :=
  if PlainOpcode opcode then label.filter (!·.isEmpty) else none

/-- A symbol is defined by a label that is not empty, in front of any opcode but START and END. -/
theorem symbolOf_eq_some_iff (opcode : String) (label : Option String) (name : String) :
    symbolOf opcode label = some name ↔ label = some name ∧ name ≠ "" ∧ PlainOpcode opcode := by
  rw [symbolOf]
  split
  next plain => simp [Option.filter_eq_some_iff, plain]
  next special => simp [special]

/-- The symbol that a record defines. -/
def Record.symbol? (record : Record) : Option String :=
  symbolOf record.opcode record.label

/-- The symbols that records define, once for every definition. -/
def definitions (records : List Record) : List String :=
  records.filterMap Record.symbol?

theorem definitions_append (front back : List Record) :
    definitions (front ++ back) = definitions front ++ definitions back :=
  List.filterMap_append

theorem definitions_toList (record? : Option Record) :
    definitions record?.toList = (record?.bind Record.symbol?).toList := by
  cases record? with
  | none => rfl
  | some record => cases defines : record.symbol? <;> simp [definitions, defines]

/-- The last record that defines a symbol. -/
def definer? (records : List Record) (name : String) : Option Record :=
  records.reverse.find? (·.symbol? = some name)

theorem definer?_concat (records : List Record) (record : Record) (name : String) :
    definer? (records ++ [record]) name = if record.symbol? = some name then some record else definer? records name := by
  by_cases defines : record.symbol? = some name
  · simp [definer?, defines]
  · simp [definer?, defines]

/-- The last definition is one with no other behind it. -/
theorem definer?_eq_some_iff (records : List Record) (name : String) (record : Record) :
    definer? records name = some record ↔
      record.symbol? = some name ∧ ∃ earlier later, records = earlier ++ record :: later ∧
        ∀ other ∈ later, other.symbol? ≠ some name := by
  rw [definer?, List.find?_eq_some_iff_append]
  constructor
  · rintro ⟨defines, front, back, split, none⟩
    refine ⟨of_decide_eq_true defines, back.reverse, front.reverse, ?_, ?_⟩
    · have turned := congrArg List.reverse split
      simpa using turned
    · intro other member
      simpa using none other (List.mem_reverse.mp member)
  · rintro ⟨defines, earlier, later, rfl, none⟩
    refine ⟨decide_eq_true defines, later.reverse, earlier.reverse, by simp, ?_⟩
    intro other member
    simpa using none other (List.mem_reverse.mp member)

/-- A symbol table holds what records define: the names in the order of their first
    definition, each with the address of its last one. -/
structure SymbolTable.Describes (symbols : SymbolTable) (records : List Record) : Prop where
  names : symbols.names = (definitions records).eraseDups
  address : ∀ name, symbols.address? name = (definer? records name).bind Record.address

theorem eraseDups_concat (names : List String) (name : String) :
    (names ++ [name]).eraseDups = if name ∈ names then names.eraseDups else names.eraseDups ++ [name] := by
  rw [List.eraseDups_append]
  by_cases known : name ∈ names
  · simp [List.removeAll, known]
  · simp [List.removeAll, known, List.eraseDups_cons]

namespace SymbolTable.Describes

theorem empty : ({} : SymbolTable).Describes [] :=
  ⟨rfl, fun _ => rfl⟩

variable {symbols : SymbolTable} {records : List Record} {record : Record}

/-- A record that defines nothing leaves the table as it is. -/
theorem concat_none (described : symbols.Describes records) (defines : record.symbol? = none) :
    symbols.Describes (records ++ [record]) where
  names := by
    rw [described.names, definitions_append]
    simp [definitions, defines]
  address name := by
    rw [described.address, definer?_concat, defines]
    simp

/-- A record that defines a symbol enters it at its address. -/
theorem concat_some {name : String} {address : Int} (described : symbols.Describes records)
    (defines : record.symbol? = some name) (stands : record.address = some address) (location : Option Location) :
    (symbols.define name address location).Describes (records ++ [record]) where
  names := by
    have appended : definitions (records ++ [record]) = definitions records ++ [name] := by
      simp [definitions, defines]
    rw [SymbolTable.names_define, described.names, appended, eraseDups_concat]
    simp only [List.mem_eraseDups]
  address other := by
    rw [SymbolTable.address?_define, described.address, definer?_concat, defines]
    by_cases same : name = other
    · simp [same, stands]
    · simp [same]

end SymbolTable.Describes

/-! ### One statement -/

/-- What a statement with the given record does to the symbols: it defines what the
    record defines, at the address of the record. -/
inductive SymbolTable.Enters (before : SymbolTable) (location : Location) : Option Record → SymbolTable → Prop
  | nothing {record? : Option Record} (defines : record?.bind Record.symbol? = none) : Enters before location record? before
  | symbol {record : Record} {name : String} {address : Int} (defines : record.symbol? = some name)
      (stands : record.address = some address) :
      Enters before location (some record) (before.define name address (some location))

/-- A table stays in step with the records. -/
theorem SymbolTable.Enters.describes {before after : SymbolTable} {location : Location} {record? : Option Record}
    {earlier : List Record} (enters : before.Enters location record? after) (described : before.Describes earlier) :
    after.Describes (earlier ++ record?.toList) := by
  cases enters with
  | nothing defines =>
    cases record? with
    | none => simpa using described
    | some record => exact described.concat_none defines
  | symbol defines stands => exact described.concat_some defines stands _

namespace Layout

theorem symbol?_recordOf_plain {statement : Statement} (plain : PlainOpcode statement.opcode) (address : Option Int) :
    (recordOf statement address).symbol? = label? statement :=
  if_pos plain

/-- A plain statement with a record defines its label. -/
private theorem enters_plain (progress : Progress) {statement : Statement} (plain : PlainOpcode statement.opcode) :
    progress.symbols.Enters statement.location (some (recordOf statement (some progress.counter)))
      (definedSymbols progress statement) := by
  have same := symbol?_recordOf_plain plain (some progress.counter)
  rw [definedSymbols]
  cases labelled : label? statement with
  | none => exact .nothing (same.trans labelled)
  | some name => exact .symbol (same.trans labelled) rfl

theorem Placement.enters {table : OpcodeTable} {progress after : Progress} {statement : Statement}
    {record? : Option Record} {fault : Option Diagnostic} (placed : Placement table progress statement record? after fault) :
    progress.symbols.Enters statement.location record? after.symbols := by
  cases placed with
  | start isStart _ => exact .nothing (if_neg fun plain => plain.1 isStart)
  | startRefused _ _ => exact .nothing rfl
  | finish isEnd => exact .nothing (if_neg fun plain => plain.2 isEnd)
  | beyond _ _ => exact .nothing rfl
  | refused plain _ _ => exact enters_plain progress plain
  | unknown plain _ _ => exact enters_plain progress plain
  | sized plain _ _ _ => exact enters_plain progress plain
  | overflow plain _ _ _ => exact enters_plain progress plain

/-- The number of further definitions that are reported. -/
def duplicates (events : List Event) : Nat :=
  (ofCategory .duplicateSymbol (diagnosticsOf events)).length

@[simp] theorem duplicates_append (first second : List Event) :
    duplicates (first ++ second) = duplicates first + duplicates second := by
  simp [duplicates]

@[simp] theorem duplicates_nil : duplicates [] = 0 := rfl

@[simp] theorem duplicates_debug (message : String) (events : List Event) :
    duplicates (.debug message :: events) = duplicates events := rfl

theorem duplicates_other {diagnostic : Diagnostic} (other : diagnostic.category ≠ .duplicateSymbol)
    (events : List Event) : duplicates (.reported diagnostic :: events) = duplicates events := by
  simp [duplicates, ofCategory, other]

theorem duplicates_duplicate {diagnostic : Diagnostic} (duplicate : diagnostic.category = .duplicateSymbol)
    (events : List Event) : duplicates (.reported diagnostic :: events) = duplicates events + 1 := by
  simp [duplicates, ofCategory, duplicate]

theorem duplicates_remarks (progress : Progress) (statement : Statement) :
    duplicates (remarks progress statement) = 0 := by
  rw [remarks, duplicates_append]
  split <;> split <;> rfl

/-- A definition is reported unless it makes the table longer. -/
theorem duplicates_definitionEvents (settings : Settings) (progress : Progress) (statement : Statement) :
    duplicates (definitionEvents settings progress statement) + (definedSymbols progress statement).size =
      progress.symbols.size + (label? statement).toList.length := by
  rw [definitionEvents, definedSymbols]
  cases label? statement with
  | none => simp
  | some name =>
    have listed := progress.symbols.definition?_isSome_iff name
    simp only [SymbolTable.size_eq_length_names, SymbolTable.names_define, duplicates_debug]
    cases known : progress.symbols.definition? name with
    | none =>
      have fresh : name ∉ progress.symbols.names := by simpa [known] using listed
      simp [fresh]
    | some earlier =>
      have again : name ∈ progress.symbols.names := by simpa [known] using listed
      simp only [again, if_true, duplicates_debug]
      rw [duplicates_duplicate rfl]
      simp [Nat.add_comm]

/-- Laying out a plain statement reports its definition unless that makes the table longer. -/
private theorem placeOther_duplicates (settings : Settings) (table : OpcodeTable) (progress : Progress)
    {statement : Statement} (plain : PlainOpcode statement.opcode) :
    duplicates (placeOther settings table progress statement).events +
        (placeOther settings table progress statement).after.symbols.size =
      progress.symbols.size + ((placeOther settings table progress statement).record.bind Record.symbol?).toList.length := by
  have defined := duplicates_definitionEvents settings progress statement
  rw [← symbol?_recordOf_plain plain (some progress.counter)] at defined
  unfold placeOther
  by_cases beyond : maxAddress < progress.counter
  · simp [beyond]
  · simp only [beyond, if_false]
    cases statementSize table statement.opcode statement.operand with
    | error fault => exact defined
    | ok known =>
      cases known with
      | none =>
        have unreported : duplicates (unknownOpcodeEvents table statement) = 0 := rfl
        rw [duplicates_append, unreported]
        exact defined
      | some bytes => exact defined

/-- Laying out a statement reports its definition unless that makes the table longer. -/
theorem place_duplicates (settings : Settings) (table : OpcodeTable) (progress : Progress) (statement : Statement) :
    duplicates (place settings table progress statement).events +
        (place settings table progress statement).after.symbols.size =
      progress.symbols.size + ((place settings table progress statement).record.bind Record.symbol?).toList.length := by
  rcases opcode_cases statement.opcode with isStart | isEnd | plain
  · have special (address : Option Int) : (recordOf statement address).symbol? = none :=
      if_neg fun plain => plain.1 isStart
    rw [place_start isStart, duplicates_append, duplicates_remarks]
    have late : duplicates (if progress.begun then [warning .lateStart (some statement.location)] else []) = 0 := by
      split <;> rfl
    unfold placeStart
    cases Operand.startAddress statement.operand with
    | ok address => simp [late, special]
    | error fault => simp [late]
  · have special : (recordOf statement none).symbol? = none := if_neg fun plain => plain.2 isEnd
    rw [place_end isEnd, duplicates_append, duplicates_remarks]
    simp [placeEnd, special]
  · rw [place_plain plain, duplicates_append, duplicates_remarks, Nat.zero_add]
    exact placeOther_duplicates settings table progress plain

/-- What stops a run is no further definition. -/
theorem Placement.fault_category {table : OpcodeTable} {progress after : Progress} {statement : Statement}
    {record? : Option Record} {fault : Diagnostic} (placed : Placement table progress statement record? after (some fault)) :
    fault.category = .invalidOperand ∨ fault.category = .general := by
  cases placed with
  | startRefused _ _ => exact .inl rfl
  | refused _ _ _ => exact .inl rfl
  | beyond _ _ => exact .inr rfl
  | overflow _ _ _ _ => exact .inr rfl

/-! ### Whole runs -/

section
variable (settings : Settings) (table : OpcodeTable) (progress : Progress) (statements : List Statement)

/-- A run keeps the symbols in step with the records, also when a statement stops it. -/
theorem run_describes {earlier : List Record} (described : progress.symbols.Describes earlier) :
    (run settings table progress statements).after.symbols.Describes
      (earlier ++ (run settings table progress statements).records) := by
  refine run_induction settings table
    (motive := fun progress _ records after _ => ∀ earlier, progress.symbols.Describes earlier →
      after.symbols.Describes (earlier ++ records)) ?_ ?_ ?_ progress statements earlier described
  · intro _ earlier described
    simpa using described
  · intro _ _ _ _ _ _ placement earlier described
    exact placement.enters.describes described
  · intro _ _ _ record _ records _ _ placement later earlier described
    have behind := later (earlier ++ [record]) (placement.enters.describes described)
    rwa [List.append_assoc, List.singleton_append] at behind

/-- A run reports as many definitions as do not make the table longer. -/
theorem run_duplicates :
    duplicates (run settings table progress statements).events +
        (run settings table progress statements).after.symbols.size =
      progress.symbols.size + (definitions (run settings table progress statements).records).length := by
  induction statements generalizing progress with
  | nil => simp [run, definitions]
  | cons statement rest ih =>
    have first := place_duplicates settings table progress statement
    cases outcome : (place settings table progress statement).fault with
    | some fault =>
      have placement := place_placement settings table progress statement
      rw [outcome] at placement
      have other : fault.category ≠ .duplicateSymbol := by
        rcases placement.fault_category with category | category <;> simp [category]
      rw [run_cons_fault settings table rest outcome, duplicates_append, duplicates_debug, duplicates_other other]
      rw [definitions_toList]
      simpa using first
    | none =>
      have later := ih (place settings table progress statement).after
      rw [run_cons_placed settings table rest outcome, duplicates_append, definitions_append, definitions_toList,
        List.length_append]
      dsimp only
      omega

end

theorem duplicates_closingEvents (layout : Layout) : duplicates (closingEvents layout) = 0 := by
  rw [closingEvents, duplicates_append]
  split <;> rfl

end Layout

/-- The symbols of a layout are those that its records define. -/
theorem layOut_describes (settings : Settings) (table : OpcodeTable) (statements : List Statement) :
    (layOut settings table statements).symbols.Describes (layOut settings table statements).records :=
  Layout.run_describes settings table {} statements SymbolTable.Describes.empty

/-- Every definition makes the table of a layout longer or is reported. -/
theorem layOut_duplicates (settings : Settings) (table : OpcodeTable) (statements : List Statement) :
    Layout.duplicates (layoutEvents settings table statements) + (layOut settings table statements).symbols.size =
      (definitions (layOut settings table statements).records).length := by
  have counted := Layout.run_duplicates settings table {} statements
  rw [layoutEvents, Layout.duplicates_append, Layout.duplicates_closingEvents]
  exact counted.trans (Nat.zero_add _)

/-- How the symbols of a layout follow from its records, and what is reported about them. -/
structure Layout.SymbolLaw (layout : Layout) (reported : List Diagnostic) : Prop where
  /-- The symbols are the labels of all records but START and END. -/
  mem_names_iff : ∀ name, name ∈ layout.symbols.names ↔
    ∃ record ∈ layout.records, record.label = some name ∧ name ≠ "" ∧ PlainOpcode record.opcode
  /-- The last record that defines a symbol gives it its address. -/
  address : ∀ name earlier record later, layout.records = earlier ++ record :: later →
    record.symbol? = some name → (∀ other ∈ later, other.symbol? ≠ some name) →
      ∃ address, record.address = some address ∧ layout.symbols.address? name = some address
  /-- The first record that defines a symbol gives it its place. -/
  order : layout.symbols.names = (definitions layout.records).eraseDups
  /-- All definitions of a symbol but one are reported as further ones. -/
  duplicates : (ofCategory .duplicateSymbol reported).length + layout.symbols.size =
    (definitions layout.records).length

theorem SymbolTable.Describes.mem_names_iff {symbols : SymbolTable} {records : List Record}
    (described : symbols.Describes records) (name : String) :
    name ∈ symbols.names ↔ ∃ record ∈ records, record.symbol? = some name := by
  rw [described.names, List.mem_eraseDups, definitions, List.mem_filterMap]

/-- What defines a symbol last has an address, and it is that of the symbol. -/
theorem SymbolTable.Describes.address_of_definer {symbols : SymbolTable} {records : List Record} {name : String}
    {record : Record} (described : symbols.Describes records) (last : definer? records name = some record) :
    ∃ address, record.address = some address ∧ symbols.address? name = some address := by
  obtain ⟨defines, earlier, later, split, -⟩ := (definer?_eq_some_iff records name record).mp last
  have listed : name ∈ symbols.names :=
    (described.mem_names_iff name).mpr ⟨record, by simp [split], defines⟩
  obtain ⟨address, found⟩ := Option.isSome_iff_exists.mp ((symbols.address?_isSome_iff name).mpr listed)
  have same := described.address name
  rw [found, last] at same
  exact ⟨address, same.symm, found⟩

/-- If the error limit does not stop laying out, whatever was reported before, the symbol
    law holds of the layout and of what was added to the errors and warnings. It holds as
    well if a statement stopped the layout. -/
theorem layOut_symbolLaw (settings : Settings) (table : OpcodeTable) (statements : List Statement)
    {before after : Journal} (returned : before.replay (layoutEvents settings table statements) = (after, none)) :
    ∃ errors warnings, after.collector.errors = before.collector.errors ++ errors ∧
      after.collector.warnings = before.collector.warnings ++ warnings ∧
      (layOut settings table statements).SymbolLaw (errors ++ warnings) := by
  have described := layOut_describes settings table statements
  rw [Journal.replay_complete returned]
  refine ⟨_, _, rfl, rfl, ?_, ?_, described.names, ?_⟩
  · intro name
    rw [described.mem_names_iff]
    simp only [Record.symbol?, symbolOf_eq_some_iff]
  · intro name earlier record later split defines lastOne
    exact described.address_of_definer
      ((definer?_eq_some_iff _ name record).mpr ⟨defines, earlier, later, split, lastOne⟩)
  · have sorted := (errors_append_warnings_perm (diagnosticsOf (layoutEvents settings table statements))).filter
      (·.category = .duplicateSymbol)
    rw [ofCategory, sorted.length_eq]
    exact layOut_duplicates settings table statements

/-- A program that defines FIRST twice and stops at the malformed constant behind LAST. -/
private def redefining : List Statement :=
  [{ line := 1, text := "FIRST WORD 1", label := some "FIRST", opcode := "WORD", operand := some "1" },
    { line := 2, text := "FIRST WORD 2", label := some "FIRST", opcode := "WORD", operand := some "2" },
    { line := 3, text := "LAST BYTE 3", label := some "LAST", opcode := "BYTE", operand := some "3" },
    { line := 4, text := "NEVER WORD 4", label := some "NEVER", opcode := "WORD", operand := some "4" }]

theorem layOut_symbolLaw_redefining :
    (layOut {} {} redefining).aborted = true ∧
    (layOut {} {} redefining).symbols.addresses = [("FIRST", 3), ("LAST", 6)] ∧
    ∃ after errors warnings, ({} : Journal).replay (layoutEvents {} {} redefining) = (after, none) ∧
      after.collector.errors = errors ∧ after.collector.warnings = warnings ∧
      (layOut {} {} redefining).SymbolLaw (errors ++ warnings) := by
  have returned := Journal.replay_of_not_stopped
    (show (({} : Journal).replay (layoutEvents {} {} redefining)).2 = none by decide +kernel)
  obtain ⟨errors, warnings, errorsAre, warningsAre, law⟩ := layOut_symbolLaw {} {} redefining returned
  exact ⟨by decide +kernel, by decide +kernel, _, errors, warnings, returned, errorsAre, warningsAre, law⟩

end TwoPass
