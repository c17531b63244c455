import TwoPass.Proofs.Definitions

/-!
Symbol tables over a history of definitions, some of which tell where they stand. One more definition keeps a
table in step with the history (`Reflects.define`), so that the table after any history holds every name once,
in the order of the first definitions, with the address of the last one and the place that was told last
(`enterAll_historyLaw`).
-/
namespace TwoPass

open Text

/-- A definition of a symbol, which need not tell where it stands. -/
structure Definition where
  name : String
  address : Int
  location : Option Location := none
  deriving DecidableEq, Repr

/-- The definitions of a name, in order. -/
def definitionsOf (name : String) (history : List Definition) : List Definition :=
  history.filter (·.name = name)

/-- The last definition of a name. -/
def lastDefinition? (name : String) (history : List Definition) : Option Definition :=
  (definitionsOf name history).getLast?

/-- The place of the last definition of a name that tells its place. -/
def lastPlace? (name : String) (history : List Definition) : Option Location :=
  ((definitionsOf name history).filterMap Definition.location).getLast?

/-- How many definitions stand in front of the first one of a name. -/
def firstPosition (name : String) (history : List Definition) : Nat :=
  history.findIdx (·.name = name)

section
variable (name : String) (history : List Definition) (definition : Definition)

theorem definitionsOf_concat :
    definitionsOf name (history ++ [definition]) =
      definitionsOf name history ++ if definition.name = name then [definition] else [] := by
  by_cases same : definition.name = name <;> simp [definitionsOf, same]

theorem lastDefinition?_concat :
    lastDefinition? name (history ++ [definition]) =
      if definition.name = name then some definition else lastDefinition? name history := by
  rw [lastDefinition?, definitionsOf_concat]
  split
  · exact List.getLast?_concat
  · rw [List.append_nil, lastDefinition?]

theorem lastPlace?_concat :
    lastPlace? name (history ++ [definition]) =
      if definition.name = name then definition.location <|> lastPlace? name history else lastPlace? name history := by
  rw [lastPlace?, definitionsOf_concat]
  split
  · cases told : definition.location with
    | none => simp [told, lastPlace?]
    | some place => simp [told]
  · rw [List.append_nil, lastPlace?]

/-- A name has a last definition exactly if it has any. -/
theorem lastDefinition?_eq_none_iff :
    lastDefinition? name history = none ↔ ∀ definition ∈ history, definition.name ≠ name := by
  simp [lastDefinition?, definitionsOf]

/-- A further definition has no part in where the first one stands. -/
theorem firstPosition_concat_of_mem {name : String} {history : List Definition}
    (known : ∃ definition ∈ history, definition.name = name) :
    firstPosition name (history ++ [definition]) = firstPosition name history := by
  have inside : firstPosition name history < history.length := by
    simpa [firstPosition] using known
  rw [firstPosition, List.findIdx_append]
  exact if_pos inside

theorem firstPosition_concat_of_new {history : List Definition}
    (new : ∀ other ∈ history, other.name ≠ definition.name) :
    firstPosition definition.name (history ++ [definition]) = history.length := by
  have behind : history.findIdx (·.name = definition.name) = history.length := by
    simpa [List.findIdx_eq_length] using new
  rw [firstPosition, List.findIdx_append, behind]
  simp

end

namespace SymbolTable

variable {table : SymbolTable} {history : List Definition}

/-- A definition that tells no place leaves the one that was told before. -/
theorem location?_define (table : SymbolTable) (name other : String) (address : Int) (location : Option Location) :
    (table.define name address location).location? other =
      if name = other then location <|> table.location? name else table.location? other := by
  simp only [location?, define, Dictionary.get?_insert]
  split <;> rfl

theorem definition?_eq (table : SymbolTable) (name : String) :
    table.definition? name = (table.address? name).map fun _ => (table.location? name).getD unknownLocation := by
  rw [definition?, address?, location?]
  cases table.symbols.get? name <;> rfl

/-- A table holds what a history of definitions says. -/
structure Reflects (table : SymbolTable) (history : List Definition) : Prop where
  address : ∀ name, table.address? name = (lastDefinition? name history).map Definition.address
  location : ∀ name, table.location? name = lastPlace? name history
  ordered : table.names.Pairwise fun first second => firstPosition first history < firstPosition second history

theorem Reflects.empty : ({} : SymbolTable).Reflects [] :=
  ⟨fun _ => rfl, fun _ => rfl, .nil⟩

/-- The names of a table are those that the history defines. -/
theorem Reflects.mem_names_iff (reflects : table.Reflects history) (name : String) :
    name ∈ table.names ↔ ∃ definition ∈ history, definition.name = name := by
  rw [← address?_isSome_iff, reflects.address, Option.isSome_map, Option.isSome_iff_ne_none, Ne,
    lastDefinition?_eq_none_iff]
  simp

/-- One more definition keeps a table in step with the history. -/
theorem Reflects.define (reflects : table.Reflects history) (definition : Definition) :
    (table.define definition.name definition.address definition.location).Reflects (history ++ [definition]) where
  address name := by
    rw [address?_define, lastDefinition?_concat, reflects.address]
    split <;> rfl
  location name := by
    rw [location?_define, lastPlace?_concat, reflects.location, reflects.location]
    split
    next same => rw [same]
    next => rfl
  ordered := by
    have kept : table.names.Pairwise fun first second =>
        firstPosition first (history ++ [definition]) < firstPosition second (history ++ [definition]) := by
      refine reflects.ordered.imp_of_mem fun {first second} firstListed secondListed before => ?_
      rw [firstPosition_concat_of_mem definition ((reflects.mem_names_iff first).mp firstListed),
        firstPosition_concat_of_mem definition ((reflects.mem_names_iff second).mp secondListed)]
      exact before
    rw [names_define]
    split
    next => exact kept
    next unlisted =>
      rw [List.pairwise_append]
      refine ⟨kept, List.pairwise_singleton _ _, ?_⟩
      intro first listed last isLast
      obtain rfl := List.mem_singleton.mp isLast
      have known := (reflects.mem_names_iff first).mp listed
      have new : ∀ other ∈ history, other.name ≠ definition.name := by
        intro other member same
        exact unlisted ((reflects.mem_names_iff _).mpr ⟨other, member, same⟩)
      rw [firstPosition_concat_of_mem definition known, firstPosition_concat_of_new definition new]
      simpa [firstPosition] using known

/-- The place that the last definition of a name would be replaced at. -/
theorem Reflects.definition? (reflects : table.Reflects history) (name : String) :
    table.definition? name =
      (lastDefinition? name history).map fun _ => (lastPlace? name history).getD unknownLocation := by
  rw [definition?_eq, reflects.address, reflects.location, Option.map_map]
  rfl

end SymbolTable

namespace Dictionary

variable {α : Type}

/-- Where no key stands twice, every entry can be looked up. -/
theorem get?_of_mem {dictionary : Dictionary α} (distinct : dictionary.keys.Nodup) {entry : String × α}
    (member : entry ∈ dictionary.entries) : dictionary.get? entry.1 = some entry.2 := by
  obtain ⟨entries⟩ := dictionary
  change find? entry.1 entries = some entry.2
  induction entries with
  | nil => contradiction
  | cons first rest ih =>
    obtain ⟨elsewhere, distinct⟩ := List.nodup_cons.mp distinct
    rcases List.mem_cons.mp member with rfl | later
    · exact if_pos rfl
    · have other : first.1 ≠ entry.1 := by
        intro same
        exact elsewhere (same ▸ List.mem_map_of_mem later)
      rw [find?, if_neg other]
      exact ih distinct later

end Dictionary

namespace SymbolTable

/-- Enters a definition, and tells the place of the one that it replaces. -/
def enter (table : SymbolTable) (definition : Definition) : SymbolTable × Option Location :=
  (table.define definition.name definition.address definition.location, table.definition? definition.name)

/-- Enters definitions in order, and tells for each the place of the one that it replaces. -/
def enterAll (table : SymbolTable) : List Definition → SymbolTable × List (Option Location)
  | [] => (table, [])
  | definition :: rest =>
    let (after, replaced) := table.enter definition
    let (final, others) := after.enterAll rest
    (final, replaced :: others)

/-- What is told about the definition that one more definition of a name replaces: nothing if there is none,
    else the place that was told last, or that it is unknown. -/
structure Replaces (earlier : List Definition) (name : String) (replaced : Option Location) : Prop where
  none_iff : replaced = none ↔ ∀ definition ∈ earlier, definition.name ≠ name
  place : ∀ location, replaced = some location → location = (lastPlace? name earlier).getD ⟨"<unknown>", 0, 0⟩

variable {table : SymbolTable} {earlier : List Definition}

theorem Reflects.replaces (reflects : table.Reflects earlier) (name : String) :
    Replaces earlier name (table.definition? name) := by
  rw [reflects.definition?]
  constructor
  · rw [Option.map_eq_none_iff, lastDefinition?_eq_none_iff]
  · intro location found
    obtain ⟨definition, -, rfl⟩ := Option.map_eq_some_iff.mp found
    rfl

theorem Reflects.enterAll (reflects : table.Reflects earlier) (history : List Definition) :
    (table.enterAll history).1.Reflects (earlier ++ history) := by
  induction history generalizing table earlier with
  | nil => simpa [SymbolTable.enterAll] using reflects
  | cons definition rest ih =>
    have behind := ih (reflects.define definition)
    rwa [List.append_assoc, List.singleton_append] at behind

/-- Every definition of a history is told what it replaces. -/
theorem Reflects.replaced (reflects : table.Reflects earlier) (history : List Definition) :
    (table.enterAll history).2.length = history.length ∧
      ∀ front definition back, history = front ++ definition :: back →
        ∃ replaced, (table.enterAll history).2[front.length]? = some replaced ∧
          Replaces (earlier ++ front) definition.name replaced := by
  induction history generalizing table earlier with
  | nil => exact ⟨rfl, by simp⟩
  | cons first rest ih =>
    obtain ⟨length, later⟩ := ih (reflects.define first)
    refine ⟨congrArg Nat.succ length, ?_⟩
    intro front definition back split
    cases front with
    | nil =>
      obtain ⟨rfl, -⟩ := List.cons.inj split
      rw [List.append_nil]
      exact ⟨_, rfl, reflects.replaces first.name⟩
    | cons other front =>
      obtain ⟨rfl, behind⟩ := List.cons.inj split
      obtain ⟨replaced, told, replaces⟩ := later front definition back behind
      rw [List.append_assoc, List.singleton_append] at replaces
      exact ⟨replaced, told, replaces⟩

/-- Every name stands in a table with the address of its last definition. -/
theorem Reflects.addresses (reflects : table.Reflects earlier) :
    List.Forall₂ (fun name entry => ∃ last, lastDefinition? name earlier = some last ∧ entry = (name, last.address))
      table.names table.addresses := by
  have distinct : table.symbols.keys.Nodup :=
    reflects.ordered.imp fun before same => absurd (same ▸ before) (Nat.lt_irrefl _)
  rw [names, Dictionary.keys, SymbolTable.addresses, List.forall₂_map_left_iff, List.forall₂_map_right_iff,
    List.forall₂_same]
  intro entry member
  have found : table.address? entry.1 = some entry.2.address := by
    rw [address?, Dictionary.get?_of_mem distinct member, Option.map_some]
  rw [reflects.address] at found
  obtain ⟨last, isLast, same⟩ := Option.map_eq_some_iff.mp found
  exact ⟨last, isLast, by rw [same]⟩

/-- What a table holds after a history of definitions, and what each of them was told. -/
structure HistoryLaw (history : List Definition) (table : SymbolTable) (replaced : List (Option Location)) : Prop where
  /-- The last definition of a name gives its address. -/
  address : ∀ name, table.address? name = (lastDefinition? name history).map Definition.address
  /-- The last place that was told for a name is kept. -/
  location : ∀ name, table.location? name = lastPlace? name history
  /-- Every name that was defined is listed once, in the order of the first definitions, -/
  mem_names_iff : ∀ name, name ∈ table.names ↔ ∃ definition ∈ history, definition.name = name
  ordered : table.names.Pairwise fun first second => firstPosition first history < firstPosition second history
  /-- with its last address, -/
  addresses : List.Forall₂
    (fun name entry => ∃ last, lastDefinition? name history = some last ∧ entry = (name, last.address))
      table.names table.addresses
  /-- and so it is written. -/
  text : table.text = endLines (table.addresses.map fun entry => entry.1 ++ "\t" ++ upperHex 4 entry.2)
  /-- Every definition was told what it replaced. -/
  length_replaced : replaced.length = history.length
  replaced : ∀ earlier definition later, history = earlier ++ definition :: later →
    ∃ told, replaced[earlier.length]? = some told ∧ Replaces earlier definition.name told

theorem enterAll_historyLaw (history : List Definition) :
    HistoryLaw history (({} : SymbolTable).enterAll history).1 (({} : SymbolTable).enterAll history).2 := by
  have reflects := Reflects.empty.enterAll history
  obtain ⟨length, replaced⟩ := Reflects.empty.replaced history
  rw [List.nil_append] at reflects
  exact
    { address := reflects.address
      location := reflects.location
      mem_names_iff := reflects.mem_names_iff
      ordered := reflects.ordered
      addresses := reflects.addresses
      text := rfl
      length_replaced := length
      replaced := replaced }

end SymbolTable

end TwoPass
