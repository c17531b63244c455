import TwoPass.Assembly

/-!
Sessions: the passes run one by one, with one collector for all of them. A session
remembers the last layout and encoding, and the records that are encoded next, which may
have gone through the intermediate file.
-/
namespace TwoPass

structure Session where
  table : OpcodeTable := {}
  settings : Settings := {}
  file : String := "<input>"
  collector : Collector := {}
  layout : Option Layout := none
  encoding : Option Encoding := none
  records : List Record := []

namespace Session

/-- A session whose collector has the error limit of the settings. -/
def start (table : OpcodeTable) (settings : Settings) (file : String) : Session :=
  { table, settings, file, collector := { limit := settings.errorLimit } }

/-- Enters events into the collector, and tells what stopped that. -/
def report (session : Session) (events : List Event) : Session × Option Diagnostic :=
  let (journal, stop) := ({ collector := session.collector } : Journal).replay events
  ({ session with collector := journal.collector }, stop)

/-- Lays out a source. If the error limit is reached, nothing but the collector changes. -/
def layOutSource (session : Session) (source : String) : Session × Except Diagnostic Layout :=
  let statements := Statement.parseAll session.settings session.table session.file source
  match session.report (layoutEvents session.settings session.table statements) with
  | (session, some stop) => (session, .error stop)
  | (session, none) =>
    let layout := layOut session.settings session.table statements
    ({ session with layout := some layout, encoding := none, records := layout.records }, .ok layout)

/-- Sends the records through the intermediate file. -/
def reparse (session : Session) : Session × Except Diagnostic (List Record) :=
  match Intermediate.parse "<intermediate>" (Intermediate.render session.records) with
  | .ok records => ({ session with records }, .ok records)
  | .error fault => (session, .error fault)

/-- Encodes the records with the symbols of a layout. If the error limit is reached,
    nothing but the collector changes. -/
def encodeWith (session : Session) (layout : Layout) (warnUnknown : Bool) : Session × Except Diagnostic Encoding :=
  let encoder : Encoder :=
    { symbols := layout.symbols, table := session.table, settings := session.settings, file := session.file, warnUnknown }
  match session.report (encodingEvents encoder session.records) with
  | (session, some stop) => (session, .error stop)
  | (session, none) =>
    let encoding := encode encoder session.records
    ({ session with encoding := some encoding }, .ok encoding)

/-- What is printed of a layout, the last encoding and all diagnostics. -/
def printout (session : Session) (layout : Layout) : Printout :=
  .of layout session.encoding session.collector

/-- The object program that is read back from the printed one. -/
def reload (session : Session) (layout : Layout) : Except Diagnostic ObjectProgram :=
  ObjectProgram.parse "<object>" (session.printout layout).objectProgram

/-- Changes settings; the collector keeps its limit. -/
def changeSettings (session : Session) (change : SettingsChange) : Except SettingsFault Session :=
  (session.settings.update? change).map fun settings => { session with settings }

def useTable (session : Session) (table : OpcodeTable) : Session :=
  { session with table }

def clear (session : Session) : Session :=
  { session with collector := session.collector.clear }

end Session

end TwoPass
