import Mathlib.Data.List.Basic
import TwoPass.FileTree

/-!
What writing changes in a file tree. A file is written only where no directory stands, so every
path leads to the same place before and after it (`SameDirectories.resolve`), and all that changes
is the file at the place that the written path leads to (`write_touches`).
-/
namespace TwoPass.FileTree

theorem find?_replaced {place other : List String} (node : FileNode) (differ : other ≠ place)
    (nodes : List (List String × FileNode)) :
    (nodes.map fun entry => if entry.1 = place then (place, node) else entry).find? (·.1 = other) =
      nodes.find? (·.1 = other) := by
  induction nodes with
  | nil => rfl
  | cons entry rest ih =>
    by_cases here : entry.1 = place
    · simp [here, Ne.symm differ, ih]
    · simp [List.find?_cons, here, ih]

theorem node?_put_of_ne (tree : FileTree) {place other : List String} (node : FileNode) (differ : other ≠ place) :
    (tree.put place node).node? other = tree.node? other := by
  have found : (tree.put place node).nodes.find? (·.1 = other) = tree.nodes.find? (·.1 = other) := by
    unfold put
    split
    · exact find?_replaced node differ tree.nodes
    · simp [List.find?_append, Ne.symm differ]
  rw [node?, node?, found]

theorem find?_put_self (tree : FileTree) (place : List String) (node : FileNode) :
    (tree.put place node).nodes.find? (·.1 = place) = some (place, node) := by
  unfold put
  split
  next present =>
    generalize tree.nodes = nodes at present
    induction nodes with
    | nil => contradiction
    | cons entry rest ih =>
      by_cases here : entry.1 = place
      · simp [here]
      · simp [here, ih (by simpa [here] using present)]
  next absent =>
    have none : tree.nodes.find? (·.1 = place) = none := by
      rw [List.find?_eq_none]
      intro entry member here
      exact absent (List.any_eq_true.mpr ⟨entry, member, here⟩)
    simp [List.find?_append, none]

theorem node?_put_self (tree : FileTree) {place : List String} (node : FileNode)
    (free : tree.node? place ≠ some .directory) : (tree.put place node).node? place = some node := by
  have guard : ¬ (place.all (· = "..") ∨ place = rootPlace) := by
    intro fixed
    exact free (if_pos fixed)
  rw [node?, if_neg guard, find?_put_self]
  rfl

theorem refusal?_put (tree : FileTree) (place : List String) (node : FileNode) :
    (tree.put place node).refusal? = tree.refusal? := by
  unfold put
  split <;> rfl

/-- Two trees have their directories at the same places, and the same is refused in both. -/
structure SameDirectories (first second : FileTree) : Prop where
  directory : ∀ place, first.node? place = some .directory ↔ second.node? place = some .directory
  refusal? : first.refusal? = second.refusal?

theorem SameDirectories.refl (tree : FileTree) : tree.SameDirectories tree :=
  ⟨fun _ => .rfl, rfl⟩

theorem SameDirectories.trans {first second third : FileTree} (front : first.SameDirectories second)
    (back : second.SameDirectories third) : first.SameDirectories third :=
  ⟨fun place => (front.directory place).trans (back.directory place), front.refusal?.trans back.refusal?⟩

theorem follow_cons_eq_ok_iff {tree : FileTree} {place target : List String} {component : String} {rest : List String} :
    tree.follow place (component :: rest) = .ok target ↔
      tree.node? place = some .directory ∧ tree.refusal? .pass place = none ∧
        ∃ next, enter place component = .ok next ∧ tree.follow next rest = .ok target := by
  rw [follow]
  cases tree.node? place with
  | none => simp
  | some node =>
    cases node with
    | file => simp
    | directory =>
      cases tree.refusal? .pass place with
      | some fault => simp
      | none => cases enter place component <;> simp [bind, Except.bind]

theorem SameDirectories.follow {first second : FileTree} (same : first.SameDirectories second)
    {place target : List String} {components : List String} :
    first.follow place components = .ok target ↔ second.follow place components = .ok target := by
  induction components generalizing place with
  | nil => rfl
  | cons component rest ih => simp only [follow_cons_eq_ok_iff, same.directory place, same.refusal?, ih]

/-- A path leads to the same place if it leads anywhere. -/
theorem SameDirectories.resolve {first second : FileTree} (same : first.SameDirectories second) {path : String}
    {place : List String} : first.resolve path = .ok place ↔ second.resolve path = .ok place := by
  unfold FileTree.resolve
  split
  · rfl
  split
  · rfl
  split
  · rfl
  exact same.follow

/-- Two paths lead to one place. -/
def SameFile (tree : FileTree) (first second : String) : Prop :=
  ∃ place, tree.resolve first = .ok place ∧ tree.resolve second = .ok place

theorem SameFile.symm {tree : FileTree} {first second : String} (shared : tree.SameFile first second) :
    tree.SameFile second first := by
  obtain ⟨place, toFirst, toSecond⟩ := shared
  exact ⟨place, toSecond, toFirst⟩

theorem SameDirectories.sameFile {first second : FileTree} (same : first.SameDirectories second) {path other : String} :
    first.SameFile path other ↔ second.SameFile path other := by
  simp only [SameFile, same.resolve]

/-- A file may be written: the path leads somewhere, not to a directory, and the system has nothing
    against it. -/
def CanWrite (tree : FileTree) (path : String) : Prop :=
  ∃ place, tree.resolve path = .ok place ∧ tree.node? place ≠ some .directory ∧ tree.refusal? .write place = none

theorem SameDirectories.canWrite {first second : FileTree} (same : first.SameDirectories second) {path : String} :
    first.CanWrite path ↔ second.CanWrite path := by
  simp only [CanWrite, same.resolve, ne_eq, same.directory, same.refusal?]

/-- What stands at a path, if anything does. -/
def standing? (tree : FileTree) (path : String) : Option FileNode :=
  (tree.stat path).toOption

theorem standing?_eq_some_iff {tree : FileTree} {path : String} {node : FileNode} :
    tree.standing? path = some node ↔ ∃ place, tree.resolve path = .ok place ∧ tree.node? place = some node := by
  unfold standing? stat
  cases tree.resolve path with
  | error fault => simp [bind, Except.bind, Except.toOption]
  | ok place => cases found : tree.node? place <;> simp [bind, Except.bind, pure, Except.pure, Except.toOption, found]

/-- Where a path leads that never goes up, if it leads anywhere. -/
def placeOf (path : String) : List String :=
  (if path.startsWith "/" then rootPlace else []) ++
    (Path.components path).filter fun component => component ≠ "" && component ≠ "."

theorem follow_of_no_parent {tree : FileTree} {place target : List String} {components : List String}
    (straight : ".." ∉ components) (followed : tree.follow place components = .ok target) :
    target = place ++ components.filter fun component => component ≠ "" && component ≠ "." := by
  induction components generalizing place with
  | nil =>
    obtain rfl := Except.ok.inj followed
    simp
  | cons component rest ih =>
    rw [List.mem_cons, not_or] at straight
    obtain ⟨notUp, straight⟩ := straight
    obtain ⟨-, -, next, entered, followed⟩ := follow_cons_eq_ok_iff.mp followed
    rw [ih straight followed]
    unfold enter at entered
    split at entered
    next stays =>
      obtain rfl := Except.ok.inj entered
      rcases stays with rfl | rfl <;> simp
    next goes =>
      rw [not_or] at goes
      rw [if_neg (Ne.symm notUp)] at entered
      split at entered
      · contradiction
      obtain rfl := Except.ok.inj entered
      simp [goes.1, goes.2]

/-- Paths that never go up lead to one file only if they name the same components. -/
theorem not_sameFile {tree : FileTree} {first second : String} (straight : ".." ∉ Path.components first)
    (straight' : ".." ∉ Path.components second) (differ : placeOf first ≠ placeOf second) :
    ¬ tree.SameFile first second := by
  have leads {path : String} {place : List String} (straight : ".." ∉ Path.components path)
      (resolved : tree.resolve path = .ok place) : place = placeOf path := by
    unfold resolve at resolved
    split at resolved
    · contradiction
    split at resolved
    · contradiction
    split at resolved
    · contradiction
    exact follow_of_no_parent straight resolved
  rintro ⟨place, toFirst, toSecond⟩
  exact differ ((leads straight toFirst).symm.trans (leads straight' toSecond))

theorem write_eq_ok_iff {tree after : FileTree} {path : String} {content : ByteArray} :
    tree.write path content = .ok after ↔
      ∃ place, tree.resolve path = .ok place ∧ tree.node? place ≠ some .directory ∧
        tree.refusal? .write place = none ∧ tree.put place (.file content) = after := by
  unfold write
  cases tree.resolve path with
  | error fault => simp [bind, Except.bind]
  | ok place =>
    cases found : tree.node? place with
    | none => cases refused : tree.refusal? .write place <;> simp [bind, Except.bind, pure, Except.pure, found, refused]
    | some node =>
      cases node with
      | directory => simp [bind, Except.bind, found]
      | file =>
        cases refused : tree.refusal? .write place <;> simp [bind, Except.bind, pure, Except.pure, found, refused]

theorem exists_write_iff {tree : FileTree} {path : String} (content : ByteArray) :
    (∃ after, tree.write path content = .ok after) ↔ tree.CanWrite path := by
  simp only [write_eq_ok_iff, CanWrite]
  constructor
  · rintro ⟨_, place, resolved, free, permitted, -⟩
    exact ⟨place, resolved, free, permitted⟩
  · rintro ⟨place, resolved, free, permitted⟩
    exact ⟨_, place, resolved, free, permitted, rfl⟩

/-- Two trees differ at most in the files that paths lead to. -/
structure Touches (paths : List String) (before after : FileTree) : Prop where
  directories : before.SameDirectories after
  elsewhere : ∀ place, (∀ path ∈ paths, before.resolve path ≠ .ok place) → after.node? place = before.node? place

theorem Touches.refl (tree : FileTree) : Touches [] tree tree :=
  ⟨.refl tree, fun _ _ => rfl⟩

theorem Touches.mono {paths more : List String} {before after : FileTree} (touched : Touches paths before after)
    (among : paths ⊆ more) : Touches more before after :=
  ⟨touched.directories, fun place apart => touched.elsewhere place fun path member => apart path (among member)⟩

theorem Touches.trans {paths more : List String} {before between after : FileTree}
    (front : Touches paths before between) (back : Touches more between after) :
    Touches (paths ++ more) before after := by
  refine ⟨front.directories.trans back.directories, ?_⟩
  intro place apart
  have apartBack : ∀ path ∈ more, between.resolve path ≠ .ok place := by
    intro path member resolved
    exact apart path (List.mem_append_right paths member) (front.directories.resolve.mpr resolved)
  rw [back.elsewhere place apartBack]
  exact front.elsewhere place fun path member => apart path (List.mem_append_left more member)

theorem Touches.standing? {paths : List String} {before after : FileTree} (touched : Touches paths before after)
    {path : String} (apart : ∀ other ∈ paths, ¬ before.SameFile other path) :
    after.standing? path = before.standing? path := by
  ext node
  rw [standing?_eq_some_iff, standing?_eq_some_iff]
  apply exists_congr
  intro place
  rw [← touched.directories.resolve]
  apply and_congr_right
  intro resolved
  rw [touched.elsewhere place fun other member there => apart other member ⟨place, there, resolved⟩]

theorem write_touches {tree after : FileTree} {path : String} {content : ByteArray}
    (written : tree.write path content = .ok after) : Touches [path] tree after := by
  obtain ⟨place, resolved, free, -, rfl⟩ := write_eq_ok_iff.mp written
  refine ⟨⟨?_, (refusal?_put tree place _).symm⟩, ?_⟩
  · intro other
    by_cases here : other = place
    · subst here
      simp [node?_put_self tree _ free, free]
    · rw [node?_put_of_ne tree _ here]
  · intro other apart
    apply node?_put_of_ne
    rintro rfl
    exact apart path List.mem_cons_self resolved

theorem standing?_write {tree after : FileTree} {path : String} {content : ByteArray}
    (written : tree.write path content = .ok after) : after.standing? path = some (.file content) := by
  have same := (write_touches written).directories
  obtain ⟨place, resolved, free, -, rfl⟩ := write_eq_ok_iff.mp written
  exact standing?_eq_some_iff.mpr ⟨place, same.resolve.mp resolved, node?_put_self tree _ free⟩

end TwoPass.FileTree
