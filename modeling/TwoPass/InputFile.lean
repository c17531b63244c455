import TwoPass.FileTree
import TwoPass.OpcodeTable
import TwoPass.Text.Utf8

/-!
Input files: source programs and opcode tables stored as text. A file that cannot be read
or is no text is reported under the plain form of its path. A path with a NUL character
can name no file: it is no fault of an input, and nothing is reported about it.
-/
namespace TwoPass

/-- Why something ends without a result. -/
inductive Interruption
  /-- A diagnostic tells about it. -/
  | diagnosed (diagnostic : Diagnostic)
  /-- A path holds a NUL character. -/
  | invalidPath
  deriving DecidableEq, Repr

def Interruption.text : Interruption → String
  | diagnosed diagnostic => diagnostic.text
  | invalidPath => FileFault.nulInPath.message

namespace InputFile

open Text

/-- The reason given for a file that is no text. -/
def notText : String := "not a text file"

/-- The reason given for a source that cannot be read. -/
def sourceReason : FileFault → String
  | .notFound => "file not found"
  | fault => fault.message

/-- The reason given for a table that cannot be read. -/
def tableReason : FileFault → String
  | .notFound => "file not found"
  | .notPermitted _ _ => "permission denied"
  | .isDirectory => "is a directory"
  | fault => fault.message

/-- The report that a file cannot be read. -/
def unreadable (path reason : String) : Diagnostic :=
  { cause := .unreadable (Path.normalize path) reason }

/-- How a file that cannot be opened ends its reading. -/
def interruption (reason : FileFault → String) (path : String) : FileFault → Interruption
  | .nulInPath => .invalidPath
  | fault => .diagnosed (unreadable path (reason fault))

/-- A text with every newline form as a line feed. -/
def withLineFeeds (text : String) : String :=
  String.ofList (unifyNewlines text.toList)

/-- The text in a file, with a reason why it cannot be read. -/
def readText (reason : FileFault → String) (tree : FileTree) (path : String) : Except Interruption String :=
  match tree.read (Path.normalize path) with
  | .error fault => .error (interruption reason path fault)
  | .ok content =>
    match decode? content with
    | some text => .ok (withLineFeeds text)
    | none => .error (.diagnosed (unreadable path notText))

/-- The text of a source file. -/
def readSource (tree : FileTree) (path : String) : Except Interruption String :=
  readText sourceReason tree path

/-- The table in a file. -/
def readTable (tree : FileTree) (path : String) : Except Interruption OpcodeTable :=
  (readText tableReason tree path).map fun text => .ofLines (lineFeedLines text)

/-- The lines of a table file. -/
def tableLines (text : String) : List String :=
  lineFeedLines (withLineFeeds text)

/-- The lines that end within a text. A carriage return at its end may be half a newline. -/
def endedLines (text : String) : List String :=
  let text := trimLast '\r' text.toList
  lineFeedLines (String.ofList (trimEnd (· != '\n') (unifyNewlines text)))
where
  /-- The text without its last character, if that is `c`. -/
  trimLast (c : Char) (text : List Char) : List Char :=
    if text.getLast? = some c then text.dropLast else text

/-- The log of reading a table file, as far as it can be read. -/
def tableLog (tree : FileTree) (path : String) : List LogEntry :=
  match tree.read (Path.normalize path) with
  | .error _ => []
  | .ok content =>
    match decode? content with
    | some text => OpcodeTable.loadingEntries (tableLines text)
    | none => OpcodeTable.ignoredEntries (endedLines (textBeforeFault content))

/-- The table in a file, or an empty one if the file cannot be read. Only a path that can
    name no file gives none. -/
def loadTable (tree : FileTree) (path : String) : Except Interruption OpcodeTable :=
  match readTable tree path with
  | .error (.diagnosed _) => .ok {}
  | result => result

/-- What happens while a table is loaded. -/
def loadingEvents (tree : FileTree) (path : String) : List Event :=
  (tableLog tree path).map .logged ++
    match readTable tree path with
    | .error (.diagnosed fault) => [.debug ("Failed to load OPTAB: " ++ fault.text), .reported fault]
    | _ => []

end InputFile

end TwoPass
