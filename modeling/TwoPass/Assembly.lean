import TwoPass.InputFile
import TwoPass.Printout

/-!
Assembly runs: load the opcode table, lay out the program, encode it, and print
everything. A run ends early when the table is empty, an input cannot be read, a
statement cannot be laid out or the error limit is reached; what was done up to then is
still printed. Only a limit that is reached before the program is laid out, and a path
that can name no file, leave no result at all.
-/
namespace TwoPass

open Text

/-- How far a run got. -/
inductive Stage
  | idle
  | tableLoaded
  | rendered
  deriving DecidableEq, Repr

def Stage.name : Stage → String
  | idle => "idle"
  | tableLoaded => "optab loaded"
  | rendered => "rendered"

/-- The result of a run. -/
structure Assembly where
  printout : Printout := {}
  collector : Collector := {}
  stage : Stage := .idle
  table : OpcodeTable := {}
  layout : Option Layout := none
  encoding : Option Encoding := none

/-- The log of a run, and its result unless something left none. -/
structure Outcome where
  log : List LogEntry
  result : Except Interruption Assembly

namespace Assembly

/-- Whether the program was encoded and no error was reported. -/
def succeeded (assembly : Assembly) : Bool :=
  assembly.encoding.isSome && !assembly.collector.hasErrors

/-- The symbols with their addresses. -/
def symbols (assembly : Assembly) : List (String × Int) :=
  (assembly.layout.map (·.symbols.addresses)).getD []

/-- The object code of every line of the listing. -/
def codes (assembly : Assembly) : List String :=
  (assembly.encoding.map Encoding.codes).getD []

/-- The whole run as it is shown, without the parts that were not reached. -/
def report (assembly : Assembly) : String :=
  let printout := assembly.printout
  joinLines <|
    (if assembly.layout.isSome then
      ["Intermediate File:\n" ++ printout.intermediate, "SYMTAB:\n" ++ printout.symbols] else []) ++
    (if assembly.encoding.isSome then ["Machine Code:\n" ++ printout.objectProgram] else []) ++
    (if printout.diagnostics.isEmpty then [] else [printout.diagnostics ++ "\n"])

/-- What is printed of a run that got as far as the given results. -/
def printoutOf (layout : Option Layout) (encoding : Option Encoding) (collector : Collector) : Printout :=
  match layout with
  | some layout => .of layout encoding collector
  | none => { diagnostics := collector.report }

/-- Ends a run: prints what there is. -/
def finish (journal : Journal) (stage : Stage) (table : OpcodeTable)
    (layout : Option Layout := none) (encoding : Option Encoding := none) : Outcome :=
  let collector := journal.collector
  { log := journal.log ++
      [⟨.info, "Assembly finished: " ++ toString collector.errors.length ++ " errors, " ++
        toString collector.warnings.length ++ " warnings"⟩]
    result := .ok
      { printout := printoutOf layout encoding collector
        collector
        stage := if layout.isSome then .rendered else stage
        table
        layout
        encoding } }

/-- Ends a run without a result. -/
def escape (journal : Journal) (interruption : Interruption) : Outcome :=
  { log := journal.log, result := .error interruption }

/-- Reports a fault that ends a run before the program is laid out. -/
def fail (journal : Journal) (fault : Diagnostic) (stage : Stage) (table : OpcodeTable) : Outcome :=
  match journal.submit fault with
  | (journal, some stop) => escape journal (.diagnosed stop)
  | (journal, none) => finish journal stage table

/-- Enters the limit that ended a pass among the errors. -/
def stopped (journal : Journal) (stop : Diagnostic) : Journal :=
  { collector := { journal.collector with errors := journal.collector.errors ++ [stop] }
    log := journal.log ++ [⟨.debug, stop.text⟩] }

/-- The encoder for a layout. Opcodes that are not known were reported when they were laid out. -/
def encoderFor (settings : Settings) (table : OpcodeTable) (file : String) (layout : Layout) : Encoder :=
  { symbols := layout.symbols, table, settings, file, warnUnknown := false }

/-- Encodes a layout and ends the run. -/
def encodeLayout (settings : Settings) (table : OpcodeTable) (file : String) (journal : Journal)
    (layout : Layout) : Outcome :=
  let encoder := encoderFor settings table file layout
  match journal.replay (encodingEvents encoder layout.records) with
  | (journal, some stop) => finish (stopped journal stop) .tableLoaded table layout
  | (journal, none) => finish journal .tableLoaded table layout (encode encoder layout.records)

/-- Assembles a source with a table that is not empty. -/
def assembleWith (settings : Settings) (table : OpcodeTable) (file source : String) (journal : Journal) :
    Outcome :=
  let statements := Statement.parseAll settings table file source
  match journal.replay (layoutEvents settings table statements) with
  | (journal, some stop) => finish (stopped journal stop) .tableLoaded table
  | (journal, none) =>
    let layout := layOut settings table statements
    if layout.aborted then finish journal .tableLoaded table layout
    else encodeLayout settings table file journal layout

/-- Assembles a source, unless the table is empty. -/
def run (settings : Settings) (table : OpcodeTable) (file source : String) (journal : Journal) : Outcome :=
  if table.size = 0 then fail journal { cause := .emptyTable } .idle {}
  else assembleWith settings table file source journal

/-- A journal without entries, with the error limit of the settings. -/
def newJournal (settings : Settings) : Journal :=
  { collector := { limit := settings.errorLimit } }

end Assembly

/-- Assembles the text of a program with the text of an opcode table. -/
def assemble (settings : Settings) (file source tableText : String) : Outcome :=
  let tableLines := lines tableText
  let journal := Assembly.newJournal settings
  Assembly.run settings (.ofLines tableLines) file source
    { journal with log := OpcodeTable.loadingEntries tableLines }

/-- Assembles a source file with the opcode table in another file. -/
def assembleFile (settings : Settings) (tree : FileTree) (sourcePath tablePath : String) : Outcome :=
  let journal := (Assembly.newJournal settings).record
    ⟨.info, "Assembling " ++ sourcePath ++ " with opcode table " ++ tablePath⟩
  match journal.replay (InputFile.loadingEvents tree tablePath) with
  | (journal, some stop) => Assembly.escape journal (.diagnosed stop)
  | (journal, none) =>
    match InputFile.loadTable tree tablePath with
    | .error interruption => Assembly.escape journal interruption
    | .ok table =>
      if journal.collector.hasErrors then Assembly.finish journal .idle {}
      else match InputFile.readSource tree sourcePath with
        | .ok source => Assembly.run settings table sourcePath source journal
        | .error .invalidPath => Assembly.escape journal .invalidPath
        | .error (.diagnosed fault) =>
          Assembly.fail (journal.record ⟨.debug, "Failed to read source: " ++ fault.text⟩) fault
            (if table.size = 0 then .idle else .tableLoaded) table

end TwoPass
