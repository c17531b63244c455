/-!
Dictionaries that keep the order in which keys were first inserted. Inserting a key
again replaces its value and leaves its place (`get?_insert`, `keys_insert`).
-/
namespace TwoPass

/-- Values under text keys, in the order in which the keys were first inserted. -/
structure Dictionary (α : Type) where
  entries : List (String × α) := []
  deriving DecidableEq, Repr

namespace Dictionary

variable {α : Type}

/-- The value of the first entry of a key. -/
def find? (key : String) : List (String × α) → Option α
  | [] => none
  | (other, value) :: rest => if other = key then some value else find? key rest

/-- The value under a key. -/
def get? (dictionary : Dictionary α) (key : String) : Option α :=
  find? key dictionary.entries

def contains (dictionary : Dictionary α) (key : String) : Bool :=
  (dictionary.get? key).isSome

/-- The keys in order of first insertion. -/
def keys (dictionary : Dictionary α) : List String :=
  dictionary.entries.map Prod.fst

def size (dictionary : Dictionary α) : Nat :=
  dictionary.entries.length

/-- Replaces the first entry of a key, or appends one. -/
def put (key : String) (value : α) : List (String × α) → List (String × α)
  | [] => [(key, value)]
  | (other, old) :: rest => if other = key then (key, value) :: rest else (other, old) :: put key value rest

/-- Enters a value under a key. -/
def insert (dictionary : Dictionary α) (key : String) (value : α) : Dictionary α :=
  ⟨put key value dictionary.entries⟩

theorem find?_put (key other : String) (value : α) (entries : List (String × α)) :
    find? other (put key value entries) = if key = other then some value else find? other entries := by
  induction entries with
  | nil => simp [put, find?]
  | cons entry rest ih =>
    obtain ⟨first, old⟩ := entry
    by_cases here : first = key
    · subst here
      by_cases same : first = other <;> simp [put, find?, same]
    · by_cases found : first = other
      · subst found
        simp [put, find?, here, Ne.symm here]
      · simp [put, find?, here, found, ih]

/-- A lookup sees the latest insertion. -/
theorem get?_insert (dictionary : Dictionary α) (key other : String) (value : α) :
    (dictionary.insert key value).get? other = if key = other then some value else dictionary.get? other :=
  find?_put key other value dictionary.entries

theorem map_fst_put (key : String) (value : α) (entries : List (String × α)) :
    (put key value entries).map Prod.fst =
      if key ∈ entries.map Prod.fst then entries.map Prod.fst else entries.map Prod.fst ++ [key] := by
  induction entries with
  | nil => simp [put]
  | cons entry rest ih =>
    obtain ⟨first, old⟩ := entry
    by_cases here : first = key
    · simp [put, here]
    · have elsewhere : ¬ key = first := fun same => here same.symm
      simp only [put, here, if_false, List.map_cons, ih, List.mem_cons, elsewhere, false_or]
      split <;> simp

/-- An insertion moves no key, and a new key comes last. -/
theorem keys_insert (dictionary : Dictionary α) (key : String) (value : α) :
    (dictionary.insert key value).keys =
      if key ∈ dictionary.keys then dictionary.keys else dictionary.keys ++ [key] :=
  map_fst_put key value dictionary.entries

end Dictionary

end TwoPass
