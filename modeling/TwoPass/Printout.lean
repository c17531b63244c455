import TwoPass.Encoding
import TwoPass.Intermediate
import TwoPass.Layout

/-!
The texts that a run prints: the intermediate file, the symbols, the listing with the
object program behind it, the object program alone, and the diagnostics.
-/
namespace TwoPass

open Text

structure Printout where
  intermediate : String := ""
  symbols : String := ""
  /-- The listing followed by the records. -/
  objectProgram : String := ""
  /-- The header, text and end records. -/
  records : String := ""
  diagnostics : String := ""
  deriving DecidableEq, Repr

/-- The listing as text. -/
def Encoding.listingText (encoding : Encoding) : String :=
  endLines (encoding.listing.map ListingLine.text)

/-- What is printed of a layout and, if there is one, its encoding. -/
def Printout.of (layout : Layout) (encoding : Option Encoding) (collector : Collector) : Printout :=
  let records := (encoding.map (·.program.text)).getD ""
  { intermediate := Intermediate.render layout.records
    symbols := layout.symbols.text
    objectProgram := (encoding.map Encoding.listingText).getD "" ++ records
    records
    diagnostics := collector.diagnosticsText }

end TwoPass
