import TwoPass.Proofs.Effects
import TwoPass.Proofs.InputFaults
import TwoPass.Proofs.ObjectLines

/-!
The files that the command writes. The object program comes last among them, and behind it there are
only messages (`Around`). So whatever ends the command before it is written, the file is left as it
was, and once it is written it is there as a whole, even if a message about it is not taken
(`ObjectFileLaw`). A program that is written is one whose assembly succeeded, and its text is its
header, text and end lines.
-/
namespace TwoPass

section
variable {settings : Settings} {tree : FileTree} {sourcePath tablePath : String} {assembly : Assembly}
  {encoding : Encoding} (returned : (assembleFile settings tree sourcePath tablePath).result = .ok assembly)
  (isEncoded : assembly.encoding = some encoding)
include returned isEncoded

/-- A program is encoded only if its files can be read and its table is not empty. -/
theorem assembleFile_ending : ∃ table source journal,
    Assembly.Ending settings table sourcePath (Statement.parseAll settings table sourcePath source) journal
      (assembleFile settings tree sourcePath tablePath) := by
  have unfailed {journal : Journal} {fault : Diagnostic} {stage : Stage} {table : OpcodeTable}
      (failed : (Assembly.fail journal fault stage table).result = .ok assembly) : False := by
    rw [Assembly.fail_encoding failed] at isEncoded
    cases isEncoded
  cases readTable : InputFile.readTable tree tablePath with
  | error interruption =>
    cases interruption with
    | invalidPath =>
      rw [assembleFile_of_table_invalid settings readTable] at returned
      cases returned
    | diagnosed fault =>
      obtain ⟨journal, -, outcome⟩ := assembleFile_of_table_unread settings readTable sourcePath
      rw [outcome] at returned
      exact (unfailed returned).elim
  | ok table =>
    obtain ⟨journal, -, outcome⟩ := assembleFile_of_table_read settings readTable sourcePath
    rw [outcome] at returned ⊢
    cases readSource : InputFile.readSource tree sourcePath with
    | error interruption =>
      rw [readSource] at returned
      cases interruption with
      | invalidPath => cases returned
      | diagnosed fault => exact (unfailed returned).elim
    | ok source =>
      rw [readSource, Assembly.continueWith, Assembly.run] at returned
      rw [Assembly.continueWith, Assembly.run]
      split at returned
      next => exact (unfailed returned).elim
      next nonempty =>
        rw [if_neg nonempty]
        exact ⟨table, source, journal, Assembly.assembleWith_ending _ _ _ _ _⟩

theorem assembleFile_encoded : ∃ layout, assembly.layout = some layout ∧
    assembly.printout = .of layout (some encoding) assembly.collector ∧
    encoding.program.WrittenAs encoding.program.text := by
  obtain ⟨table, source, journal, ending⟩ := assembleFile_ending returned isEncoded
  generalize assembleFile settings tree sourcePath tablePath = outcome at returned ending
  cases ending with
  | layoutStopped | aborted | encodingStopped =>
    obtain rfl := Except.ok.inj returned
    cases isEncoded
  | encoded _ complete _ =>
    obtain rfl := Except.ok.inj returned
    obtain rfl := Option.some.inj isEncoded
    exact ⟨_, rfl, rfl, program_writtenAs sourcePath false complete⟩

end

namespace Command

namespace Job

variable (job : Job)

/-- The files that are written before the object program, whether or not assembly succeeds. -/
def reports : List String :=
  (job.intermediate.toList ++ job.symbols.toList).map Path.normalize ++ job.listing.toList.map Path.normalize

theorem listing_mem_reports {listing : String} (given : listing ∈ job.listing) :
    Path.normalize listing ∈ job.reports := by
  simp [reports, Option.mem_def.mp given]

/-- Every file that is written, in order. -/
def outputs : List String :=
  job.reports ++ job.output.toList.map Path.normalize

end Job

section
variable (job : Job) (assembly : Assembly)

@[simp] theorem writtenPaths_writeEffects (path? : Option String) (what text : String) :
    writtenPaths (writeEffects job path? what text) = path?.toList.map Path.normalize := by
  cases path? with
  | none => rfl
  | some path =>
    rw [writeEffects]
    split <;> rfl

@[simp] theorem writtenPaths_printEffects (texts : List String) : writtenPaths (printEffects job texts) = [] := by
  unfold printEffects
  split
  · rfl
  · simp [writtenPaths, Effect.path?]

theorem writtenPaths_complaint (text : String) :
    writtenPaths (if text.isEmpty then [] else [.echo .errors (text ++ "\n")]) = [] := by
  split <;> rfl

@[simp] theorem writtenPaths_openingEffects (log : List LogEntry) : writtenPaths (openingEffects job log) = [] := by
  unfold openingEffects
  split
  · simp [writtenPaths, Effect.path?]
  · rfl

theorem writtenPaths_reportEffects : writtenPaths (reportEffects job assembly) =
    (if assembly.layout.isSome then (job.intermediate.toList ++ job.symbols.toList).map Path.normalize else []) ++
      (if assembly.encoding.isSome then job.listing.toList.map Path.normalize else []) := by
  unfold reportEffects
  rw [writtenPaths_append, writtenPaths_append, writtenPaths_complaint, List.append_nil]
  congr 1
  · split
    · simp
    · rfl
  · split
    · simp
    · rfl

theorem writtenPaths_reportEffects_subset : writtenPaths (reportEffects job assembly) ⊆ job.reports := by
  rw [writtenPaths_reportEffects, Job.reports]
  apply List.append_subset.mpr
  constructor
  · split
    · exact List.subset_append_left _ _
    · exact List.nil_subset _
  · split
    · exact List.subset_append_right _ _
    · exact List.nil_subset _

theorem exists_writeEffects (path what text : String) :
    ∃ told, writtenPaths told = [] ∧ (job.verbose = false → told = []) ∧
      writeEffects job (some path) what text = .write (Path.normalize path) text :: told := by
  rw [writeEffects]
  refine ⟨_, ?_, ?_, rfl⟩
  · split <;> rfl
  · intro silent
    rw [silent]
    rfl

/-- Behind the object program there are only messages, and only if they are wanted. -/
theorem exists_successEffects {path : String} (output : job.output = some path) :
    ∃ told, writtenPaths told = [] ∧ (job.verbose = false → told = []) ∧
      successEffects job assembly = .write (Path.normalize path) assembly.printout.records :: told := by
  obtain ⟨told, unwritten, silent, written⟩ :=
    exists_writeEffects job path "object program" assembly.printout.records
  unfold successEffects
  rw [output, written, List.cons_append]
  refine ⟨_, ?_, ?_, rfl⟩
  · rw [writtenPaths_append, unwritten]
    split <;> rfl
  · intro quiet
    rw [silent quiet, quiet]
    rfl

theorem exists_reportEffects {listing : String} (given : job.listing = some listing)
    (isEncoded : assembly.encoding.isSome) :
    ∃ front back, writtenPaths back = [] ∧
      reportEffects job assembly =
        front ++ .write (Path.normalize listing) assembly.printout.objectProgram :: back := by
  obtain ⟨told, unwritten, -, written⟩ := exists_writeEffects job listing "listing" assembly.printout.objectProgram
  have regrouped (laidOut printed complaint : List Effect) {effect : Effect} :
      laidOut ++ (printed ++ effect :: told) ++ complaint = (laidOut ++ printed) ++ effect :: (told ++ complaint) := by
    simp
  unfold reportEffects
  dsimp only
  rw [given, written, if_pos isEncoded]
  refine ⟨_, _, ?_, regrouped _ _ _⟩
  rw [writtenPaths_append, unwritten, writtenPaths_complaint]
  rfl

end

theorem ExitCode.value_eq_zero_iff {exitCode : ExitCode} : exitCode.value = 0 ↔ exitCode = .success := by
  cases exitCode <;> decide

theorem Failure.exitCode_ne_success (failure : Failure) : failure.exitCode ≠ .success := by
  unfold exitCode
  cases failure.kind <;> decide

theorem exitCodeOf_eq_success_iff {assembly : Assembly} : exitCodeOf assembly = .success ↔ assembly.succeeded := by
  unfold exitCodeOf
  split
  next succeeded => simp [succeeded]
  next failed => split <;> simp [failed]

section
variable (host : Host) (verbose : Bool) (activity : Option String) (console : Console) (failure : Failure)

theorem tell_tree : (tell host verbose activity console failure).1.tree = console.tree := by
  have kept : (console.perform host (.echo .errors (failure.text activity))).1.tree = console.tree :=
    console.receive_tree _ _
  unfold tell
  split
  next told performed =>
    rw [performed] at kept
    split
    · rw [Console.trace, Console.receive_tree, kept]
    · exact kept
  next => exact kept

/-- A failure changes no file, -/
theorem respondFailure_tree : (respondFailure host verbose activity console failure).console.tree = console.tree := by
  have kept := tell_tree host verbose activity console failure
  unfold respondFailure
  split <;>
  next told =>
    rw [told] at kept
    exact kept

/-- and it is never a success. -/
theorem respondFailure_value : (respondFailure host verbose activity console failure).status.value ≠ 0 := by
  unfold respondFailure
  split
  next => exact mt ExitCode.value_eq_zero_iff.mp failure.exitCode_ne_success
  next => exact Nat.one_ne_zero

end

section
variable (host : Host) (tree : FileTree) (lookup : String → Option String) (job : Job)

/-- The files after a job are those after its effects, -/
theorem runJob_tree : (runJob host tree lookup job).console.tree =
    (Console.performAll { tree } host (jobEffects job (job.outcome tree lookup))).1.tree := by
  unfold runJob
  dsimp only
  split
  next performed => rw [performed, respondFailure_tree]
  next performed _ => rw [performed, respondFailure_tree]
  next performed _ => rw [performed]

/-- and it succeeds exactly if none of them fails and assembly succeeds. -/
theorem runJob_value : (runJob host tree lookup job).status.value = 0 ↔
    (Console.performAll { tree } host (jobEffects job (job.outcome tree lookup))).2 = none ∧
      ∃ assembly, (job.outcome tree lookup).result = .ok assembly ∧ assembly.succeeded := by
  unfold runJob
  dsimp only
  split
  next performed =>
    rw [performed]
    exact iff_of_false (respondFailure_value _ _ _ _ _) (by simp)
  next performed returned =>
    rw [returned]
    exact iff_of_false (respondFailure_value _ _ _ _ _) (by simp)
  next performed returned =>
    rw [performed, returned, Status.value, ExitCode.value_eq_zero_iff, exitCodeOf_eq_success_iff]
    simp

end

/-- The object program among the effects of a job: in front of it are the reports, and behind it only
    messages, if they are wanted at all. -/
structure Job.Around (job : Job) (outcome : Outcome) (assembly : Assembly) (path : String)
    (front told : List Effect) : Prop where
  effects : jobEffects job outcome = front ++ [.write (Path.normalize path) assembly.printout.records] ++ told
  reports : writtenPaths front = job.reports
  listing : ∀ listing ∈ job.listing, ∃ before behind,
    front = before ++ .write (Path.normalize listing) assembly.printout.objectProgram :: behind ∧
      writtenPaths behind = []
  unwritten : writtenPaths told = []
  silent : job.verbose = false → told = []

section
variable {tree : FileTree} {lookup : String → Option String} {job : Job} {assembly : Assembly}

theorem jobEffects_eq (returned : (job.outcome tree lookup).result = .ok assembly) :
    jobEffects job (job.outcome tree lookup) =
      openingEffects job (job.outcome tree lookup).log ++ resultEffects job assembly := by
  unfold jobEffects
  rw [returned]

/-- Without success only the reports are written. -/
theorem writtenPaths_unsuccessful
    (failed : ¬ ∃ assembly, (job.outcome tree lookup).result = .ok assembly ∧ assembly.succeeded) :
    writtenPaths (jobEffects job (job.outcome tree lookup)) ⊆ job.reports := by
  cases returned : (job.outcome tree lookup).result with
  | error interruption =>
    unfold jobEffects
    rw [returned, writtenPaths_append, writtenPaths_openingEffects]
    exact List.nil_subset _
  | ok assembly =>
    have unsuccessful : ¬ assembly.succeeded := fun succeeded => failed ⟨assembly, returned, succeeded⟩
    rw [jobEffects_eq returned, resultEffects, if_neg unsuccessful, List.append_nil, writtenPaths_append,
      writtenPaths_openingEffects, List.nil_append]
    exact writtenPaths_reportEffects_subset job assembly

section
variable (returned : (job.outcome tree lookup).result = .ok assembly) (succeeded : assembly.succeeded)
include returned succeeded

theorem outcome_succeeded :
    ∃ encoding, assembly.layout.isSome ∧ assembly.encoding = some encoding ∧ assembly.collector.errors = [] ∧
      encoding.program.WrittenAs encoding.program.text ∧ assembly.printout.records = encoding.program.text ∧
      assembly.printout.objectProgram = encoding.listingText ++ encoding.program.text := by
  rw [Assembly.succeeded, Bool.and_eq_true, Option.isSome_iff_exists, Bool.not_eq_true', Collector.hasErrors,
    Bool.not_eq_false', List.isEmpty_iff] at succeeded
  obtain ⟨⟨encoding, isEncoded⟩, errorless⟩ := succeeded
  obtain ⟨layout, laidOut, printed, isWritten⟩ := assembleFile_encoded returned isEncoded
  rw [laidOut, printed]
  exact ⟨encoding, rfl, isEncoded, errorless, isWritten, rfl, rfl⟩

/-- A job that succeeds has an object program among its effects. -/
theorem exists_around {path : String} (output : job.output = some path) :
    ∃ front told, job.Around (job.outcome tree lookup) assembly path front told := by
  obtain ⟨encoding, laidOut, isEncoded, -⟩ := outcome_succeeded returned succeeded
  obtain ⟨told, unwritten, silent, split⟩ := exists_successEffects job assembly output
  refine ⟨openingEffects job (job.outcome tree lookup).log ++ reportEffects job assembly, told, ?_, ?_, ?_, unwritten,
    silent⟩
  · rw [jobEffects_eq returned, resultEffects, if_pos succeeded, split]
    simp
  · rw [writtenPaths_append, writtenPaths_openingEffects, writtenPaths_reportEffects, laidOut, isEncoded]
    rfl
  · intro listing given
    obtain ⟨before, behind, unwritten, reported⟩ :=
      exists_reportEffects job assembly given (by rw [isEncoded]; rfl)
    exact ⟨_ ++ before, behind, by rw [reported, List.append_assoc], unwritten⟩

end

end

/-- The files after the command, which only a job can change. -/
def Result.treeAfter (before : FileTree) : Result → FileTree
  | done response => response.console.tree
  | _ => before

/-- A job with an object program to be written, and nothing else into the same file. -/
structure Job.WritesTo (job : Job) (tree : FileTree) (path : String) : Prop where
  output : job.output = some path
  apart : ∀ other ∈ job.reports, ¬ tree.SameFile other (Path.normalize path)

/-- Assembly succeeds without errors, and a file holds exactly the header, text and end lines of the
    program, which is how the file for the listing ends as well. -/
def Job.Delivers (job : Job) (before : FileTree) (lookup : String → Option String) (path : String) (after : FileTree) :
    Prop :=
  ∃ assembly encoding text, (job.outcome before lookup).result = .ok assembly ∧ assembly.succeeded ∧
    assembly.collector.errors = [] ∧ assembly.encoding = some encoding ∧ encoding.program.WrittenAs text ∧
    after.standing? (Path.normalize path) = some (.file text.toUTF8) ∧
    ∀ listing ∈ job.listing, after.standing? (Path.normalize listing) = some (.file (encoding.listingText ++ text).toUTF8)

/-- Of the messages behind the object program not all are taken. -/
def Job.TellsInVain (job : Job) (host : Host) (outcome : Outcome) (path : String) : Prop :=
  ∃ front text told, jobEffects job outcome = front ++ [.write (Path.normalize path) text] ++ told ∧
    writtenPaths told = [] ∧ host.Takes 0 (messages front) ∧ ¬ host.Takes (messages front).length (messages told)

/-- What fails behind the object program is a message. -/
theorem Job.Around.tellsInVain {job : Job} {outcome : Outcome} {assembly : Assembly} {path : String}
    {front told : List Effect} (around : job.Around outcome assembly path front told) {host : Host} {tree : FileTree}
    (written : (Console.performAll { tree } host
      (front ++ [.write (Path.normalize path) assembly.printout.records])).2 = none)
    (failed : (Console.performAll { tree } host (jobEffects job outcome)).2 ≠ none) :
    job.verbose ∧ job.TellsInVain host outcome path := by
  have taken := ((Console.performAll_done_iff _ host _).mp written).2
  rw [around.effects, ne_eq, Console.performAll_back_done_iff _ host written, around.unwritten] at failed
  rw [messages_concat_write] at taken failed
  have untold : ¬ host.Takes (messages front).length (messages told) := by
    intro told
    apply failed
    rw [Nat.zero_add]
    exact ⟨nofun, told⟩
  refine ⟨?_, front, _, told, around.effects, around.unwritten, taken, untold⟩
  cases wanted : job.verbose with
  | true => rfl
  | false =>
    rw [around.silent wanted] at untold
    exact absurd trivial untold

section
variable {host : Host} {tree : FileTree} {lookup : String → Option String} {job : Job} {path : String}
  (writes : job.WritesTo tree path)
include writes

/-- Once the object program is written, nothing changes in the files. -/
theorem delivers_of_written {assembly : Assembly} (returned : (job.outcome tree lookup).result = .ok assembly)
    (succeeded : assembly.succeeded) {front told : List Effect}
    (around : job.Around (job.outcome tree lookup) assembly path front told)
    (written : (Console.performAll { tree } host
      (front ++ [.write (Path.normalize path) assembly.printout.records])).2 = none) :
    job.Delivers tree lookup path (runJob host tree lookup job).console.tree := by
  obtain ⟨encoding, -, isEncoded, errorless, isWritten, records, objectProgram⟩ :=
    outcome_succeeded returned succeeded
  have left (other : String) : (runJob host tree lookup job).console.tree.standing? other =
      (Console.performAll { tree } host
        (front ++ [.write (Path.normalize path) assembly.printout.records])).1.tree.standing? other := by
    rw [runJob_tree, around.effects, Console.performAll_append_done _ host written]
    apply (Console.performAll_touches _ host told).standing?
    rw [around.unwritten]
    nofun
  refine ⟨assembly, encoding, encoding.program.text, returned, succeeded, errorless, isEncoded, isWritten, ?_, ?_⟩
  · rw [left, ← records]
    exact Console.standing?_performAll _ host written nofun
  · intro listing given
    obtain ⟨before, behind, rfl, bare⟩ := around.listing listing given
    rw [List.append_assoc, List.cons_append] at written left
    rw [left, ← objectProgram]
    refine Console.standing?_performAll _ host written ?_
    intro other member shared
    rw [writtenPaths_append, bare] at member
    obtain rfl := List.mem_singleton.mp member
    exact writes.apart _ (job.listing_mem_reports given) shared.symm

/-- A job succeeds exactly if assembly does, every file can be written and every message is taken. -/
theorem runJob_success_iff : (runJob host tree lookup job).status.value = 0 ↔
    ∃ assembly, (job.outcome tree lookup).result = .ok assembly ∧ assembly.succeeded ∧
      (∀ output ∈ job.outputs, tree.CanWrite output) ∧
      host.Takes 0 (messages (jobEffects job (job.outcome tree lookup))) := by
  have paths {assembly : Assembly} (returned : (job.outcome tree lookup).result = .ok assembly)
      (succeeded : assembly.succeeded) : writtenPaths (jobEffects job (job.outcome tree lookup)) = job.outputs := by
    obtain ⟨front, told, around⟩ := exists_around returned succeeded writes.output
    rw [around.effects, writtenPaths_append, writtenPaths_append, around.reports, around.unwritten, Job.outputs,
      writes.output, List.append_nil]
    rfl
  rw [runJob_value, Console.performAll_done_iff]
  constructor
  · rintro ⟨⟨writable, taken⟩, assembly, returned, succeeded⟩
    rw [paths returned succeeded] at writable
    exact ⟨assembly, returned, succeeded, writable, taken⟩
  · rintro ⟨assembly, returned, succeeded, writable, taken⟩
    rw [paths returned succeeded]
    exact ⟨⟨writable, taken⟩, assembly, returned, succeeded⟩

theorem runJob_written (success : (runJob host tree lookup job).status.value = 0) :
    job.Delivers tree lookup path (runJob host tree lookup job).console.tree := by
  obtain ⟨done, assembly, returned, succeeded⟩ := (runJob_value host tree lookup job).mp success
  obtain ⟨front, told, around⟩ := exists_around returned succeeded writes.output
  rw [around.effects] at done
  exact delivers_of_written writes returned succeeded around (Console.performAll_front_done done)

/-- What is left of the file for the object program when a job does not succeed. -/
theorem runJob_kept (failed : (runJob host tree lookup job).status.value ≠ 0) :
    (runJob host tree lookup job).console.tree.standing? (Path.normalize path) = tree.standing? (Path.normalize path) ∨
      job.verbose ∧ job.Delivers tree lookup path (runJob host tree lookup job).console.tree ∧
        job.TellsInVain host (job.outcome tree lookup) path := by
  by_cases success : ∃ assembly, (job.outcome tree lookup).result = .ok assembly ∧ assembly.succeeded
  · obtain ⟨assembly, returned, succeeded⟩ := success
    obtain ⟨front, told, around⟩ := exists_around returned succeeded writes.output
    -- Nothing is written behind the object program, so it only counts whether all went well up to it.
    cases ended : (Console.performAll { tree } host
        (front ++ [.write (Path.normalize path) assembly.printout.records])).2 with
    | some failure =>
      left
      rw [runJob_tree, around.effects, Console.performAll_append_failed _ host ended]
      apply (Console.performAll_concat_failed _ host ended).standing?
      rw [around.reports]
      exact writes.apart
    | none =>
      right
      have undone : (Console.performAll { tree } host (jobEffects job (job.outcome tree lookup))).2 ≠ none :=
        fun done => failed ((runJob_value host tree lookup job).mpr ⟨done, assembly, returned, succeeded⟩)
      obtain ⟨verbose, vain⟩ := around.tellsInVain ended undone
      exact ⟨verbose, delivers_of_written writes returned succeeded around ended, vain⟩
  · left
    rw [runJob_tree]
    exact ((Console.performAll_touches _ host _).mono (writtenPaths_unsuccessful success)).standing? writes.apart

end

/-- What the command does with the file for the object program. -/
structure ObjectFileLaw (host : Host) (tree : FileTree) (lookup : String → Option String)
    (reading : Except UsageFault Request) (path : String) : Prop where
  /-- It ends well exactly if a job is asked for, assembly succeeds, every file can be written and every
      message is taken. -/
  succeeds : (run host tree lookup reading).status.value = 0 ↔
    ∃ job assembly, reading = .ok (.job job) ∧ (job.outcome tree lookup).result = .ok assembly ∧
      assembly.succeeded ∧ (∀ output ∈ job.outputs, tree.CanWrite output) ∧
      host.Takes 0 (messages (jobEffects job (job.outcome tree lookup)))
  /-- Then the file holds the program. -/
  written : (run host tree lookup reading).status.value = 0 →
    ∃ job, reading = .ok (.job job) ∧ job.Delivers tree lookup path ((run host tree lookup reading).treeAfter tree)
  /-- Otherwise it is left as it is, unless messages are wanted and one behind the program is not
      taken: then the file holds the program all the same. -/
  kept : (run host tree lookup reading).status.value ≠ 0 →
    ((run host tree lookup reading).treeAfter tree).standing? (Path.normalize path) =
        tree.standing? (Path.normalize path) ∨
      ∃ job, reading = .ok (.job job) ∧ job.verbose ∧
        job.Delivers tree lookup path ((run host tree lookup reading).treeAfter tree) ∧
        job.TellsInVain host (job.outcome tree lookup) path

private def programFiles : FileTree :=
  { nodes := [(["prog.asm"], .file " START 0\n LDA TEN\n END\n".toUTF8), (["optab.txt"], .file "LDA 00\n".toUTF8),
      (["prog.obj"], .file "old\n".toUTF8), (["d"], .directory)] }

private def programJob : Job :=
  { source := "prog.asm", table := "optab.txt", output := some "prog.obj", listing := some "./prog.lst" }

private def strictJob : Job :=
  { programJob with strict := true }

private def verboseJob : Job :=
  { programJob with quiet := true, verbose := true }

/-- Streams of which the output takes no message behind so many others. -/
private def closedAfter (printed : Nat) : Host :=
  { Host.plain fun _ => false with
    echo := fun count stream text =>
      if printed ≤ count ∧ stream = .output then ("", some ⟨.internal, "[Errno 32] Broken pipe"⟩) else (text, none) }

end Command

end TwoPass
