import TwoPass.Assembly
import TwoPass.Command.Arguments
import TwoPass.Text.Escapes
import TwoPass.Text.Quoted

/-!
The command: assembles a source file, prints what came of it and writes the files it was
asked for. What it does is a list of effects in order, and one that fails ends it there: a
file may not be writable, and a stream may not take a text. The streams are those of a host,
and so is the reading of the arguments. The object program is written last, and only if
assembly succeeded.
-/
namespace TwoPass.Command

open Text

/-- The exit codes of the command. -/
inductive ExitCode
  | success
  /-- Errors were reported. -/
  | buildError
  /-- The arguments or input files cannot be used. -/
  | invalidArguments
  | internalError
  deriving DecidableEq, Repr

def ExitCode.value : ExitCode → Nat
  | success => 0
  | buildError => 1
  | invalidArguments => 2
  | internalError => 3

/-- The kinds of failures that end the command. -/
inductive FailureKind
  | assembly
  | unusableInput
  | internal
  deriving DecidableEq, Repr

/-- The kind of failure that a fault of a file is. -/
def FailureKind.ofFault : FileFault → FailureKind
  | .notFound | .notPermitted _ _ => unusableInput
  | _ => internal

/-- A failure that ends the command. -/
structure Failure where
  kind : FailureKind
  message : String
  deriving DecidableEq, Repr

namespace Failure

def exitCode (failure : Failure) : ExitCode :=
  match failure.kind with
  | .assembly => .buildError
  | .unusableInput => .invalidArguments
  | .internal => .internalError

/-- The line that tells about a failure; `activity` names what failed. -/
def text (failure : Failure) (activity : Option String) : String :=
  let opening :=
    match failure.kind, activity.filter (!·.isEmpty) with
    | .assembly, some activity => activity ++ " error: "
    | .internal, _ => "Internal error: "
    | _, _ => "Error: "
  opening ++ failure.message ++ "\n"

/-- The failure to write a file. -/
def ofWrite (path : String) (fault : FileFault) : Failure :=
  { kind := .ofFault fault
    message :=
      match fault.number? with
      | some number => "[Errno " ++ toString number ++ "] " ++ fault.message ++ ": " ++ quoted path
      | none => fault.message }

/-- The failure of a run without a result. -/
def ofInterruption (interruption : Interruption) : Failure :=
  { kind := if interruption = .invalidPath then .internal else .assembly
    message := interruption.text }

end Failure

/-- Where the command prints. -/
inductive Stream
  | output
  | errors
  deriving DecidableEq, Repr

/-- What is done outside the command with what it prints. -/
structure Host where
  /-- What a stream takes of a text, and why it takes no more. Texts are numbered in the order in
      which they are printed, so that a stream may fail at any of them. -/
  echo : Nat → Stream → String → String × Option Failure
  /-- What the error stream takes of a line of the log. That it does not take it all is passed over. -/
  log : String → String
  /-- The trace of an internal failure on the error stream, and why it is not complete. -/
  trace : Failure → String × Option Failure

/-- Streams that take everything. Escape sequences are for a terminal only, and of a trace there is
    its last line. -/
def Host.plain (isTerminal : Stream → Bool) : Host :=
  { echo := fun _ stream text => (if isTerminal stream then text else withoutEscapes text, none)
    log := id
    trace := fun failure => (failure.message ++ "\n", none) }

/-- One thing that the command does. -/
inductive Effect
  /-- Prints text. -/
  | echo (stream : Stream) (text : String)
  /-- Writes a line of the log to the error stream. -/
  | log (entry : LogEntry)
  /-- Writes a text to a file. -/
  | write (path text : String)
  deriving DecidableEq, Repr

/-- What the command has printed and written. -/
structure Console where
  output : String := ""
  errors : String := ""
  /-- How many texts were printed. -/
  printed : Nat := 0
  tree : FileTree

namespace Console

/-- Adds what a stream takes. -/
def receive (console : Console) (stream : Stream) (text : String) : Console :=
  match stream with
  | .output => { console with output := console.output ++ text }
  | .errors => { console with errors := console.errors ++ text }

/-- Does one thing, and gives the failure if it fails. -/
def perform (console : Console) (host : Host) : Effect → Console × Option Failure
  | .echo stream text =>
    let (taken, failure?) := host.echo console.printed stream text
    ({ console.receive stream taken with printed := console.printed + 1 }, failure?)
  | .log entry => (console.receive .errors (host.log (entry.text ++ "\n")), none)
  | .write path text =>
    match console.tree.write path text.toUTF8 with
    | .ok tree => ({ console with tree }, none)
    | .error fault => (console, some (.ofWrite path fault))

/-- Prints the trace of a failure. -/
def trace (console : Console) (host : Host) (failure : Failure) : Console × Option Failure :=
  let (taken, failure?) := host.trace failure
  (console.receive .errors taken, failure?)

/-- Does things in order, up to the first that fails. -/
def performAll (console : Console) (host : Host) : List Effect → Console × Option Failure
  | [] => (console, none)
  | effect :: rest =>
    match console.perform host effect with
    | (console, none) => console.performAll host rest
    | (console, some failure) => (console, some failure)

end Console

/-- The exit code for the result of a run. -/
def exitCodeOf (assembly : Assembly) : ExitCode :=
  if assembly.succeeded then .success
  else if assembly.collector.errors.any (·.category = .unreadableInput) then .invalidArguments
  else .buildError

/-- Writes a text to a file if one is named, and tells so if that is wanted. -/
def writeEffects (job : Job) (path? : Option String) (what text : String) : List Effect :=
  match path? with
  | none => []
  | some path =>
    let path := Path.normalize path
    .write path text :: if job.verbose then [.echo .output ("Wrote " ++ what ++ " to " ++ path ++ "\n")] else []

/-- What is printed unless the command is to be quiet. -/
def printEffects (job : Job) (texts : List String) : List Effect :=
  if job.quiet then [] else texts.map (.echo .output)

/-- What is printed and written whether or not assembly succeeded. -/
def reportEffects (job : Job) (assembly : Assembly) : List Effect :=
  let printout := assembly.printout
  (if assembly.layout.isSome then
    printEffects job ["Intermediate File:\n", printout.intermediate, "SYMTAB:\n", printout.symbols] ++
      writeEffects job job.intermediate "intermediate file" printout.intermediate ++
      writeEffects job job.symbols "symbol table" printout.symbols
  else []) ++
  (if assembly.encoding.isSome then
    printEffects job ["Machine Code:\n", printout.objectProgram] ++
      writeEffects job job.listing "listing" printout.objectProgram
  else []) ++
  (if printout.diagnostics.isEmpty then [] else [.echo .errors (printout.diagnostics ++ "\n")])

/-- What is written and printed once assembly has succeeded. -/
def successEffects (job : Job) (assembly : Assembly) : List Effect :=
  writeEffects job job.output "object program" assembly.printout.records ++
    match job.verbose, assembly.encoding with
    | true, some encoding =>
      [.echo .output ("Assembly complete: " ++ toString encoding.program.codeBytes ++ " bytes of object code at " ++
          upperHex 4 encoding.program.header.start ++ "\n"),
        .echo .output ("Defined " ++ toString assembly.symbols.length ++ " symbols\n")]
    | _, _ => []

/-- The settings for a job: those of the environment, and what the options change. -/
def settingsFor (lookup : String → Option String) (job : Job) : Settings :=
  (Settings.ofEnvironment lookup).updateIfValid
    { strict := if job.strict then some true else none
      programName := job.programName
      nameFromLabel := if job.nameFromLabel then some true else none }

/-- The run that a job asks for. -/
def Job.outcome (job : Job) (tree : FileTree) (lookup : String → Option String) : Outcome :=
  assembleFile (settingsFor lookup job) tree (Path.normalize job.source) (Path.normalize job.table)

/-- What is printed as the run goes on, if that is wanted. -/
def openingEffects (job : Job) (log : List LogEntry) : List Effect :=
  if job.verbose then
    .echo .output
      ("Assembling " ++ Path.normalize job.source ++ " with " ++ Path.normalize job.table ++ "...\n") :: log.map .log
  else []

/-- What is done with a result. -/
def resultEffects (job : Job) (assembly : Assembly) : List Effect :=
  reportEffects job assembly ++ if assembly.succeeded then successEffects job assembly else []

/-- All that is done for a job. -/
def jobEffects (job : Job) (outcome : Outcome) : List Effect :=
  openingEffects job outcome.log ++
    match outcome.result with
    | .error _ => []
    | .ok assembly => resultEffects job assembly

/-- Tells about a failure, with its trace if it is an internal one and that is wanted. -/
def tell (host : Host) (verbose : Bool) (activity : Option String) (console : Console) (failure : Failure) :
    Console × Option Failure :=
  match console.perform host (.echo .errors (failure.text activity)) with
  | (console, none) =>
    if failure.kind = .internal ∧ verbose then console.trace host failure else (console, none)
  | result => result

/-- How the command ends. -/
inductive Status
  | exit (code : ExitCode)
  /-- Not even a failure could be told. -/
  | escaped (failure : Failure)
  deriving DecidableEq, Repr

def Status.value : Status → Nat
  | exit code => code.value
  | escaped _ => 1

/-- What the command left behind. -/
structure Response where
  status : Status
  console : Console

/-- The response of a command that a failure ends. -/
def respondFailure (host : Host) (verbose : Bool) (activity : Option String) (console : Console) (failure : Failure) :
    Response :=
  match tell host verbose activity console failure with
  | (console, none) => ⟨.exit failure.exitCode, console⟩
  | (console, some untold) => ⟨.escaped untold, console⟩

/-- Does a job. -/
def runJob (host : Host) (tree : FileTree) (lookup : String → Option String) (job : Job) : Response :=
  let outcome := job.outcome tree lookup
  match ({ tree } : Console).performAll host (jobEffects job outcome), outcome.result with
  | (console, some failure), _ => respondFailure host job.verbose (some "Assembly") console failure
  | (console, none), .error interruption =>
    respondFailure host job.verbose (some "Assembly") console (.ofInterruption interruption)
  | (console, none), .ok assembly => ⟨.exit (exitCodeOf assembly), console⟩

/-- The result of the command. -/
inductive Result
  | help
  | version
  | refused (fault : UsageFault)
  | done (response : Response)

def Result.status : Result → Status
  | help | version => .exit .success
  | refused _ => .exit .invalidArguments
  | done response => response.status

/-- The text that tells the version. -/
def versionText : String := "sicasm, version 1.0.0\n"

/-- How the command is called. -/
def usageText : String := "Usage: sicasm [OPTIONS] INPUT_FILE\n"

/-- What the options mean. -/
def helpText : String :=
  usageText ++ Text.endLines
    ["",
      "  Assemble a program with a two-pass assembler.",
      "",
      "Options:",
      "  -t, --optab FILE         Opcode table, one mnemonic and its code per line  [required]",
      "  -o, --output FILE        Write the header, text and end records to this file",
      "  -l, --listing FILE       Write the listing followed by the records",
      "  -s, --symbols FILE       Write the symbol table",
      "  -i, --intermediate FILE  Write the intermediate file",
      "  --strict                 Report undefined and duplicate symbols as errors",
      "  -n, --program-name TEXT  Program name in the header record",
      "  --name-from-label        Name the program after the label on START",
      "  -q, --quiet              Print no results",
      "  -v, --verbose            Tell what is being done",
      "  --version                Show the version",
      "  --help                   Show this message"]

/-- Runs the command on a file tree, in an environment, with what was read of its arguments. -/
def run (host : Host) (tree : FileTree) (lookup : String → Option String) (reading : Except UsageFault Request) :
    Result :=
  match reading with
  | .error fault => .refused fault
  | .ok .help => .help
  | .ok .version => .version
  | .ok (.job job) => .done (runJob host tree lookup job)

end TwoPass.Command
