import TwoPass.Text.Split

/-!
Lines of a text. A boundary ends the line before it, so a text that ends in one has
no empty last line. `lines` ends lines at every boundary character, `lineFeedLines`
at line feeds only, once `unifyNewlines` has turned the other two newline forms into
line feeds.
-/
namespace TwoPass.Text

/-- The characters that end a line. -/
def isBoundary (c : Char) : Bool :=
  let n := c.toNat
  (10 ≤ n && n ≤ 13) || (28 ≤ n && n ≤ 30) || n == 0x85 || n == 0x2028 || n == 0x2029

/-- Writes a carriage return and the line feed behind it as one line feed. -/
def mergeNewlinePairs : List Char → List Char
  | [] => []
  | '\r' :: '\n' :: rest => '\n' :: mergeNewlinePairs rest
  | c :: rest => c :: mergeNewlinePairs rest

/-- Writes every newline form as a line feed. -/
def unifyNewlines (text : List Char) : List Char :=
  (mergeNewlinePairs text).map fun c => if c = '\r' then '\n' else c

/-- The lines of a text; a carriage return and the line feed behind it end one line. -/
def lines (text : String) : List String :=
  (pieces isBoundary (mergeNewlinePairs text.toList)).map String.ofList

/-- The lines of a text in which only a line feed ends a line. -/
def lineFeedLines (text : String) : List String :=
  (pieces (· == '\n') text.toList).map String.ofList

/-- Every line followed by a line feed. -/
def endLines : List String → String
  | [] => ""
  | line :: rest => line ++ "\n" ++ endLines rest

/-- The lines with a line feed between neighbours. -/
def joinLines (text : List String) : String :=
  "\n".intercalate text

end TwoPass.Text
