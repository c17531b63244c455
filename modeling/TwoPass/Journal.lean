import TwoPass.Diagnostic

/-!
What a run leaves behind besides its results: a log, and the diagnostics it reported.
The stages of a run are plain functions that give their events in order; `replay` enters
them into a journal and stops at the diagnostic with which the number of errors reaches
the limit, so that everything behind it is as if it had not happened.
-/
namespace TwoPass

open Text

inductive Level
  | debug
  | info
  deriving DecidableEq, Repr

def Level.name : Level → String
  | .debug => "DEBUG"
  | .info => "INFO"

structure LogEntry where
  level : Level
  message : String
  deriving DecidableEq, Repr

def LogEntry.text (entry : LogEntry) : String :=
  entry.level.name ++ ": " ++ entry.message

/-- One thing that happens during a stage. -/
inductive Event
  | logged (entry : LogEntry)
  | reported (diagnostic : Diagnostic)
  deriving DecidableEq, Repr

def Event.debug (message : String) : Event :=
  .logged ⟨.debug, message⟩

/-- The diagnostics among events, in order. -/
def diagnosticsOf (events : List Event) : List Diagnostic :=
  events.filterMap fun
    | .reported diagnostic => some diagnostic
    | .logged _ => none

/-- The errors and warnings of a run, each in order, and how many errors end it. -/
structure Collector where
  errors : List Diagnostic := []
  warnings : List Diagnostic := []
  limit : Int := 100
  deriving DecidableEq, Repr

namespace Collector

/-- Enters a diagnostic under the errors or the warnings. -/
def add (collector : Collector) (diagnostic : Diagnostic) : Collector :=
  if diagnostic.isWarning then { collector with warnings := collector.warnings ++ [diagnostic] }
  else { collector with errors := collector.errors ++ [diagnostic] }

/-- The diagnostic that ends a run in which the limit is reached. -/
def limitReached (collector : Collector) : Diagnostic :=
  { cause := .errorLimit collector.limit }

/-- What ends the run when a diagnostic is added: the limit, if this error reaches it. -/
def stop? (collector : Collector) (diagnostic : Diagnostic) : Option Diagnostic :=
  if diagnostic.isWarning then none
  else if collector.limit ≤ collector.errors.length + 1 then some collector.limitReached
  else none

/-- Adds a diagnostic, and tells whether that ends the run. -/
def submit (collector : Collector) (diagnostic : Diagnostic) : Collector × Option Diagnostic :=
  (collector.add diagnostic, collector.stop? diagnostic)

def hasErrors (collector : Collector) : Bool :=
  !collector.errors.isEmpty

/-- Forgets the diagnostics and keeps the limit. -/
def clear (collector : Collector) : Collector :=
  { limit := collector.limit }

/-- A number with a noun in singular or plural. -/
def counted (count : Nat) (noun : String) : String :=
  toString count ++ " " ++ noun ++ (if count = 1 then "" else "s")

/-- The warnings under their title, each line set in. -/
def warningLines (warnings : List Diagnostic) : List String :=
  if warnings.isEmpty then []
  else "Warnings:" :: warnings.flatMap fun warning => (lines warning.text).map ("  " ++ ·)

/-- All errors, all warnings and a line that counts them. -/
def report (collector : Collector) : String :=
  joinLines (collector.errors.flatMap (fun error => [error.text, ""]) ++ warningLines collector.warnings ++
    ["\n" ++ counted collector.errors.length "error" ++ ", " ++ counted collector.warnings.length "warning"])

/-- The report, or nothing when there is nothing to report. -/
def diagnosticsText (collector : Collector) : String :=
  if collector.errors.isEmpty && collector.warnings.isEmpty then "" else collector.report

end Collector

/-- The diagnostics and the log of a run so far. -/
structure Journal where
  collector : Collector := {}
  log : List LogEntry := []
  deriving DecidableEq, Repr

namespace Journal

def record (journal : Journal) (entry : LogEntry) : Journal :=
  { journal with log := journal.log ++ [entry] }

def submit (journal : Journal) (diagnostic : Diagnostic) : Journal × Option Diagnostic :=
  ({ journal with collector := journal.collector.add diagnostic }, journal.collector.stop? diagnostic)

/-- Enters events in order until one reaches the error limit. -/
def replay (journal : Journal) : List Event → Journal × Option Diagnostic
  | [] => (journal, none)
  | .logged entry :: rest => (journal.record entry).replay rest
  | .reported diagnostic :: rest =>
    match journal.submit diagnostic with
    | (after, some stop) => (after, some stop)
    | (after, none) => after.replay rest

end Journal

end TwoPass
