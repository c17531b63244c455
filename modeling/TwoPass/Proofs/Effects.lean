import TwoPass.Command.Run
import TwoPass.Proofs.FileWrites

/-!
What the effects of the command come to. They change nothing but the files they write
(`performAll_touches`), one that fails changes no file (`perform_cases`), and they all take place
exactly if each file can be written at the start and every message is taken (`performAll_done_iff`).
-/
namespace TwoPass.Command

/-- The path that an effect writes to. -/
def Effect.path? : Effect → Option String
  | write path _ => some path
  | _ => none

/-- What an effect prints, and where. -/
def Effect.message? : Effect → Option (Stream × String)
  | echo stream text => some (stream, text)
  | _ => none

def writtenPaths (effects : List Effect) : List String :=
  effects.filterMap Effect.path?

def messages (effects : List Effect) : List (Stream × String) :=
  effects.filterMap Effect.message?

/-- The streams take messages, before which so many others were printed. -/
def Host.Takes (host : Host) : Nat → List (Stream × String) → Prop
  | _, [] => True
  | printed, message :: rest => (host.echo printed message.1 message.2).2 = none ∧ host.Takes (printed + 1) rest

@[simp] theorem writtenPaths_append (front back : List Effect) :
    writtenPaths (front ++ back) = writtenPaths front ++ writtenPaths back :=
  List.filterMap_append

theorem writtenPaths_cons (effect : Effect) (rest : List Effect) :
    writtenPaths (effect :: rest) = effect.path?.toList ++ writtenPaths rest := by
  cases effect <;> rfl

theorem messages_append (front back : List Effect) : messages (front ++ back) = messages front ++ messages back :=
  List.filterMap_append

theorem messages_cons (effect : Effect) (rest : List Effect) :
    messages (effect :: rest) = effect.message?.toList ++ messages rest := by
  cases effect <;> rfl

theorem messages_concat_write (front : List Effect) (path text : String) :
    messages (front ++ [.write path text]) = messages front := by
  rw [messages_append]
  exact List.append_nil _

theorem Host.takes_append (host : Host) (printed : Nat) (front back : List (Stream × String)) :
    host.Takes printed (front ++ back) ↔ host.Takes printed front ∧ host.Takes (printed + front.length) back := by
  induction front generalizing printed with
  | nil => simp [Takes]
  | cons message rest ih =>
    rw [List.cons_append, Takes, Takes, ih, List.length_cons, and_assoc, Nat.add_right_comm, Nat.add_assoc]

namespace Console

@[simp] theorem receive_tree (console : Console) (stream : Stream) (text : String) :
    (console.receive stream text).tree = console.tree := by
  cases stream <;> rfl

@[simp] theorem receive_printed (console : Console) (stream : Stream) (text : String) :
    (console.receive stream text).printed = console.printed := by
  cases stream <;> rfl

section
variable {console after : Console} {host : Host} {effect : Effect} {failure? : Option Failure}

/-- An effect changes no file, unless it is a write that does not fail. -/
theorem perform_cases (performed : console.perform host effect = (after, failure?)) :
    after.tree = console.tree ∨ failure? = none ∧
      ∃ path text, effect = .write path text ∧ console.tree.write path text.toUTF8 = .ok after.tree := by
  cases effect with
  | echo | log =>
    obtain ⟨rfl, -⟩ := Prod.mk.inj performed
    exact .inl (receive_tree console _ _)
  | write path text =>
    rw [perform] at performed
    split at performed
    next tree written =>
      obtain ⟨rfl, rfl⟩ := Prod.mk.inj performed
      exact .inr ⟨rfl, path, text, rfl, written⟩
    next =>
      obtain ⟨rfl, -⟩ := Prod.mk.inj performed
      exact .inl rfl

theorem perform_touches (performed : console.perform host effect = (after, failure?)) :
    FileTree.Touches effect.path?.toList console.tree after.tree := by
  rcases perform_cases performed with same | ⟨-, path, text, rfl, written⟩
  · rw [same]
    exact (FileTree.Touches.refl console.tree).mono (List.nil_subset _)
  · exact FileTree.write_touches written

theorem perform_printed (performed : console.perform host effect = (after, failure?)) :
    after.printed = console.printed + effect.message?.toList.length := by
  cases effect with
  | echo | log =>
    obtain ⟨rfl, -⟩ := Prod.mk.inj performed
    simp [Effect.message?]
  | write path text =>
    rw [perform] at performed
    split at performed <;>
    · obtain ⟨rfl, -⟩ := Prod.mk.inj performed
      rfl

theorem perform_failed {failure : Failure} (failed : console.perform host effect = (after, some failure)) :
    after.tree = console.tree := by
  rcases perform_cases failed with same | ⟨never, -⟩
  · exact same
  · cases never

end

section
variable (console : Console) (host : Host) (effects : List Effect)

theorem perform_done_iff (effect : Effect) : (console.perform host effect).2 = none ↔
    (∀ path ∈ effect.path?.toList, console.tree.CanWrite path) ∧
      host.Takes console.printed effect.message?.toList := by
  cases effect with
  | echo | log => simp [perform, Effect.path?, Effect.message?, Host.Takes]
  | write path text =>
    simp only [Effect.path?, Effect.message?, Option.toList_some, Option.toList_none, List.mem_singleton, forall_eq,
      Host.Takes, and_true]
    rw [← FileTree.exists_write_iff text.toUTF8, perform]
    cases console.tree.write path text.toUTF8 <;> simp

/-- Effects change nothing but the files that they write. -/
theorem performAll_touches :
    FileTree.Touches (writtenPaths effects) console.tree (console.performAll host effects).1.tree := by
  induction effects generalizing console with
  | nil => exact .refl console.tree
  | cons effect rest ih =>
    rw [performAll, writtenPaths_cons]
    cases performed : console.perform host effect with
    | mk next failure? =>
      have touched := perform_touches performed
      cases failure? with
      | none => exact touched.trans (ih next)
      | some failure => exact touched.mono (List.subset_append_left _ _)

/-- No effect fails exactly if every file can be written at the start, since writing one never keeps
    another from being written, and every message is taken. -/
theorem performAll_done_iff : (console.performAll host effects).2 = none ↔
    (∀ path ∈ writtenPaths effects, console.tree.CanWrite path) ∧ host.Takes console.printed (messages effects) := by
  induction effects generalizing console with
  | nil => simp [performAll, writtenPaths, messages, Host.Takes]
  | cons effect rest ih =>
    have done := console.perform_done_iff host effect
    rw [performAll, writtenPaths_cons, messages_cons, Host.takes_append]
    simp only [List.mem_append, or_imp, forall_and]
    cases performed : console.perform host effect with
    | mk next failure? =>
      have same := (perform_touches performed).directories
      rw [performed] at done
      cases failure? with
      | none =>
        obtain ⟨writable, taken⟩ := done.mp rfl
        -- The directories and what is refused stay the same, so the rest may look at the first tree.
        dsimp only
        rw [ih next, perform_printed performed]
        simp only [← same.canWrite, taken, true_and]
        exact and_congr_left fun _ => (and_iff_right writable).symm
      | some failure =>
        have undone := mt done.mpr (Option.some_ne_none failure)
        exact iff_of_false (Option.some_ne_none failure) fun all => undone ⟨all.1.1, all.2.1⟩

theorem performAll_append (front back : List Effect) : console.performAll host (front ++ back) =
    if (console.performAll host front).2.isNone then (console.performAll host front).1.performAll host back
    else console.performAll host front := by
  induction front generalizing console with
  | nil => rfl
  | cons effect rest ih =>
    rw [List.cons_append, performAll, performAll]
    cases performed : console.perform host effect with
    | mk next failure? =>
      cases failure? with
      | none => exact ih next
      | some failure => rfl

theorem performAll_append_done {front : List Effect} (done : (console.performAll host front).2 = none)
    (back : List Effect) :
    console.performAll host (front ++ back) = (console.performAll host front).1.performAll host back := by
  rw [performAll_append, done]
  rfl

/-- What comes behind an effect that fails is not done. -/
theorem performAll_append_failed {front : List Effect} {failure : Failure}
    (failed : (console.performAll host front).2 = some failure) (back : List Effect) :
    console.performAll host (front ++ back) = console.performAll host front := by
  rw [performAll_append, failed]
  rfl

theorem performAll_concat_failed {front : List Effect} {effect : Effect} {failure : Failure}
    (failed : (console.performAll host (front ++ [effect])).2 = some failure) :
    FileTree.Touches (writtenPaths front) console.tree (console.performAll host (front ++ [effect])).1.tree := by
  have touched := console.performAll_touches host front
  cases ended : (console.performAll host front).2 with
  | some earlier =>
    rw [performAll_append_failed console host ended]
    exact touched
  | none =>
    rw [performAll_append_done console host ended] at failed ⊢
    generalize (console.performAll host front).1 = between at failed touched
    rw [performAll] at failed ⊢
    cases performed : between.perform host effect with
    | mk next failure? =>
      rw [performed] at failed
      cases failure? with
      | none => contradiction
      | some failure =>
        dsimp only
        rwa [perform_failed performed]

variable {console host} in
theorem performAll_front_done {front back : List Effect} (done : (console.performAll host (front ++ back)).2 = none) :
    (console.performAll host front).2 = none := by
  cases ended : (console.performAll host front).2 with
  | none => rfl
  | some failure =>
    rw [performAll_append_failed console host ended, ended] at done
    contradiction

theorem performAll_back_done_iff {front : List Effect} (done : (console.performAll host front).2 = none)
    (back : List Effect) : (console.performAll host (front ++ back)).2 = none ↔
      (∀ path ∈ writtenPaths back, console.tree.CanWrite path) ∧
        host.Takes (console.printed + (messages front).length) (messages back) := by
  obtain ⟨writable, taken⟩ := (performAll_done_iff console host front).mp done
  rw [performAll_done_iff, writtenPaths_append, messages_append, Host.takes_append, and_iff_right taken,
    List.forall_mem_append, and_iff_right writable]

/-- A file that is written and not written over stands there in the end. -/
theorem standing?_performAll {path text : String} {front back : List Effect}
    (done : (console.performAll host (front ++ .write path text :: back)).2 = none)
    (last : ∀ other ∈ writtenPaths back, ¬ console.tree.SameFile other path) :
    (console.performAll host (front ++ .write path text :: back)).1.tree.standing? path = some (.file text.toUTF8) := by
  have same := (console.performAll_touches host front).directories
  have doneFront := performAll_front_done done
  rw [performAll_append_done console host doneFront] at done ⊢
  generalize (console.performAll host front).1 = between at same done
  have writable : between.tree.CanWrite path :=
    ((between.performAll_done_iff host _).mp done).1 path List.mem_cons_self
  obtain ⟨after, written⟩ := (FileTree.exists_write_iff text.toUTF8).mpr writable
  rw [performAll, perform, written]
  dsimp only
  rw [(performAll_touches { between with tree := after } host back).standing?]
  · exact FileTree.standing?_write written
  · intro other member shared
    have same := same.trans (FileTree.write_touches written).directories
    exact last other member (same.sameFile.mpr shared)

end

end Console

end TwoPass.Command
