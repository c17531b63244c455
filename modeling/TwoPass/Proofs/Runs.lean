import TwoPass.Assembly
import TwoPass.Proofs.Listing
import TwoPass.Proofs.Reports

/-!
What a run can come to. Once the table is there, it ends in one of four ways (`Ending`): the error
limit stops the layout or the encoding, a statement cannot be laid out, or the program is encoded.
Each of them follows from how the events of the two passes are replayed, so that two runs are
compared by comparing their replays.
-/
namespace TwoPass

open Text

theorem exists_ok_of_any {ε α : Type} {outcome : Except ε α} {holds : α → Prop} [DecidablePred holds]
    (checked : outcome.toOption.any (holds ·)) : ∃ value, outcome = .ok value ∧ holds value := by
  cases outcome with
  | error fault => contradiction
  | ok value => exact ⟨value, rfl, of_decide_eq_true checked⟩

namespace Assembly

/-- The ways in which a run over statements ends. -/
inductive Ending (settings : Settings) (table : OpcodeTable) (file : String) (statements : List Statement)
    (journal : Journal) : Outcome → Prop
  /-- The limit stops the layout, of which nothing is left. -/
  | layoutStopped {after : Journal} {stop : Diagnostic}
      (replayed : journal.replay (layoutEvents settings table statements) = (after, some stop)) :
      Ending settings table file statements journal (finish (stopped after stop) .tableLoaded table)
  /-- A statement cannot be laid out. -/
  | aborted {after : Journal} (replayed : journal.replay (layoutEvents settings table statements) = (after, none))
      (aborted : (layOut settings table statements).aborted = true) :
      Ending settings table file statements journal
        (finish after .tableLoaded table (layOut settings table statements))
  /-- The limit stops the encoding, and the layout is left. -/
  | encodingStopped {between after : Journal} {stop : Diagnostic}
      (replayed : journal.replay (layoutEvents settings table statements) = (between, none))
      (complete : (layOut settings table statements).aborted = false)
      (encoded : between.replay (encodingEvents (programEncoder settings table statements file false)
        (layOut settings table statements).records) = (after, some stop)) :
      Ending settings table file statements journal
        (finish (stopped after stop) .tableLoaded table (layOut settings table statements))
  | encoded {between after : Journal}
      (replayed : journal.replay (layoutEvents settings table statements) = (between, none))
      (complete : (layOut settings table statements).aborted = false)
      (encoded : between.replay (encodingEvents (programEncoder settings table statements file false)
        (layOut settings table statements).records) = (after, none)) :
      Ending settings table file statements journal
        (finish after .tableLoaded table (layOut settings table statements)
          (encode (programEncoder settings table statements file false) (layOut settings table statements).records))

section
variable {settings : Settings} {table : OpcodeTable} {file source : String} {journal : Journal}

/-- A run ends in one of these ways, -/
theorem assembleWith_ending (settings : Settings) (table : OpcodeTable) (file source : String) (journal : Journal) :
    Ending settings table file (Statement.parseAll settings table file source) journal
      (assembleWith settings table file source journal) := by
  unfold assembleWith encodeLayout
  dsimp only
  split
  next after stop replayed => exact .layoutStopped replayed
  next between replayed =>
    split
    next isAborted => exact .aborted replayed isAborted
    next complete =>
      have complete := Bool.eq_false_iff.mpr complete
      split
      next after stop encoded => exact .encodingStopped replayed complete encoded
      next after encoded => exact .encoded replayed complete encoded

/-- and in only one of them. -/
theorem Ending.eq {outcome : Outcome}
    (ending : Ending settings table file (Statement.parseAll settings table file source) journal outcome) :
    assembleWith settings table file source journal = outcome := by
  have encoderIs (layout : Layout) : encoderFor settings table file layout =
      { symbols := layout.symbols, table, settings, file, warnUnknown := false } := rfl
  cases ending with
  | layoutStopped replayed => simp only [assembleWith, replayed]
  | aborted replayed aborted => simp only [assembleWith, replayed, aborted, if_true]
  | encodingStopped replayed complete encoded =>
    rw [programEncoder, ← encoderIs] at encoded
    simp only [assembleWith, encodeLayout, replayed, complete, encoded, Bool.false_eq_true, if_false]
  | encoded replayed complete encoded =>
    rw [programEncoder, ← encoderIs] at encoded ⊢
    simp only [assembleWith, encodeLayout, replayed, complete, encoded, Bool.false_eq_true, if_false]

end

theorem Ending.of_encoding {settings : Settings} {table : OpcodeTable} {file : String} {statements : List Statement}
    {journal : Journal} {outcome : Outcome} {assembly : Assembly} {encoding : Encoding}
    (ending : Ending settings table file statements journal outcome) (returned : outcome.result = .ok assembly)
    (isEncoded : assembly.encoding = some encoding) :
    (layOut settings table statements).aborted = false ∧
      encoding = encode (programEncoder settings table statements file false) (layOut settings table statements).records ∧
      assembly.printout = .of (layOut settings table statements) (some encoding) assembly.collector := by
  cases ending with
  | layoutStopped | aborted | encodingStopped =>
    obtain rfl := Except.ok.inj returned
    contradiction
  | encoded _ complete _ =>
    obtain rfl := Except.ok.inj returned
    obtain rfl := Option.some.inj isEncoded
    exact ⟨complete, rfl, rfl⟩

/-- Both passes of a program that was encoded came to their end. -/
theorem Ending.replays {settings : Settings} {table : OpcodeTable} {file : String} {statements : List Statement}
    {journal : Journal} {outcome : Outcome} {assembly : Assembly} {encoding : Encoding}
    (ending : Ending settings table file statements journal outcome) (returned : outcome.result = .ok assembly)
    (isEncoded : assembly.encoding = some encoding) :
    ∃ between after, journal.replay (layoutEvents settings table statements) = (between, none) ∧
      between.replay (encodingEvents (programEncoder settings table statements file false)
        (layOut settings table statements).records) = (after, none) ∧
      assembly.collector = after.collector := by
  cases ending with
  | layoutStopped | aborted | encodingStopped =>
    obtain rfl := Except.ok.inj returned
    contradiction
  | encoded replayed _ encoded =>
    obtain rfl := Except.ok.inj returned
    exact ⟨_, _, replayed, encoded, rfl⟩

section
variable {journal : Journal} {fault : Diagnostic} {stage : Stage} {table : OpcodeTable} {assembly : Assembly}
  (returned : (fail journal fault stage table).result = .ok assembly)
include returned

/-- A fault that leaves a result is not the last error allowed, and the run ends with it. -/
theorem fail_returned :
    journal.collector.stop? fault = none ∧
      (finish { journal with collector := journal.collector.add fault } stage table).result = .ok assembly := by
  unfold fail at returned
  split at returned
  next => contradiction
  next after submitted =>
    obtain ⟨rfl, goesOn⟩ := Prod.mk.inj submitted
    exact ⟨goesOn, returned⟩

/-- A run without an opcode table encodes nothing. -/
theorem fail_encoding : assembly.encoding = none := by
  obtain ⟨-, finished⟩ := fail_returned returned
  obtain rfl := Except.ok.inj finished
  rfl

end

end Assembly

section
variable {settings : Settings} {file source tableText : String} {assembly : Assembly} {encoding : Encoding}
  (returned : (assemble settings file source tableText).result = .ok assembly)
  (isEncoded : assembly.encoding = some encoding)
include returned isEncoded

/-- A program is encoded only if its table is not empty. -/
theorem assemble_ending :
    let table := OpcodeTable.ofText tableText
    Assembly.Ending settings table file (Statement.parseAll settings table file source)
      { Assembly.newJournal settings with log := OpcodeTable.loadingEntries (lines tableText) }
      (assemble settings file source tableText) := by
  rw [assemble, Assembly.run] at returned ⊢
  split at returned
  next =>
    rw [Assembly.fail_encoding returned] at isEncoded
    contradiction
  next nonempty =>
    rw [if_neg nonempty]
    exact Assembly.assembleWith_ending _ _ _ _ _

/-- A program that was encoded was laid out to its end, and all of it is printed. -/
theorem assemble_encoded :
    let table := OpcodeTable.ofText tableText
    let statements := Statement.parseAll settings table file source
    (layOut settings table statements).aborted = false ∧
      encoding = encode (programEncoder settings table statements file false) (layOut settings table statements).records ∧
      assembly.printout = .of (layOut settings table statements) (some encoding) assembly.collector :=
  (assemble_ending returned isEncoded).of_encoding returned isEncoded

end

end TwoPass
