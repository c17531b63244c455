import TwoPass.FileTree

/-!
Arguments of the command. Options and the one plain argument may come in any order; a
value may be attached to its option; single letters may be grouped; behind `--` everything
is a plain argument.
-/
namespace TwoPass.Command

/-- The options without a value. -/
inductive Switch
  | strict
  | nameFromLabel
  | quiet
  | verbose
  | version
  | help
  deriving DecidableEq, Repr

/-- The options with a value. -/
inductive Parameter
  | table
  | output
  | listing
  | symbols
  | intermediate
  | programName
  deriving DecidableEq, Repr

inductive OptionKind
  | switch (switch : Switch)
  | parameter (parameter : Parameter)
  deriving DecidableEq, Repr

/-- The option of a long name. -/
def longOption? : String → Option OptionKind
  | "--optab" => some (.parameter .table)
  | "--output" => some (.parameter .output)
  | "--listing" => some (.parameter .listing)
  | "--symbols" => some (.parameter .symbols)
  | "--intermediate" => some (.parameter .intermediate)
  | "--strict" => some (.switch .strict)
  | "--program-name" => some (.parameter .programName)
  | "--name-from-label" => some (.switch .nameFromLabel)
  | "--quiet" => some (.switch .quiet)
  | "--verbose" => some (.switch .verbose)
  | "--version" => some (.switch .version)
  | "--help" => some (.switch .help)
  | _ => none

/-- The option of a letter. -/
def shortOption? : Char → Option OptionKind
  | 't' => some (.parameter .table)
  | 'o' => some (.parameter .output)
  | 'l' => some (.parameter .listing)
  | 's' => some (.parameter .symbols)
  | 'i' => some (.parameter .intermediate)
  | 'n' => some (.parameter .programName)
  | 'q' => some (.switch .quiet)
  | 'v' => some (.switch .verbose)
  | _ => none

/-- Why arguments are refused. -/
inductive UsageFault
  | unknownOption (name : String)
  | missingValue (name : String)
  | unexpectedValue (name : String)
  | missingSource
  | extraArgument (argument : String)
  | missingTable
  | noSuchFile (path : String)
  | isDirectory (path : String)
  | notReadable (path : String)
  /-- A path holds a NUL character. -/
  | invalidPath
  deriving DecidableEq, Repr

def UsageFault.message : UsageFault → String
  | .unknownOption name => "no such option: " ++ name
  | .missingValue name => "option " ++ name ++ " requires a value"
  | .unexpectedValue name => "option " ++ name ++ " does not take a value"
  | .missingSource => "missing source file"
  | .extraArgument argument => "unexpected extra argument: " ++ argument
  | .missingTable => "missing option --optab"
  | .noSuchFile path => "file does not exist: " ++ path
  | .isDirectory path => "file is a directory: " ++ path
  | .notReadable path => "file is not readable: " ++ path
  | .invalidPath => FileFault.nulInPath.message

/-- One thing that the arguments say. -/
inductive Item
  | switch (switch : Switch)
  | parameter (parameter : Parameter) (value : String)
  | argument (text : String)
  deriving DecidableEq, Repr

/-- What one argument says, and an option that takes the next argument as its value. -/
abbrev Reading := List Item × Option (Parameter × String)

/-- Reads an argument that begins with two dashes. -/
def readLong (argument : String) : Except UsageFault Reading :=
  let name := String.ofList (argument.toList.takeWhile (· != '='))
  let value? := match argument.toList.dropWhile (· != '=') with
    | [] => none
    | _ :: value => some (String.ofList value)
  match longOption? name, value? with
  | none, _ => .error (.unknownOption name)
  | some (.switch switch), none => .ok ([.switch switch], none)
  | some (.switch _), some _ => .error (.unexpectedValue name)
  | some (.parameter parameter), some value => .ok ([.parameter parameter value], none)
  | some (.parameter parameter), none => .ok ([], some (parameter, name))

/-- Reads the letters behind one dash; what follows the letter of a parameter is its value. -/
def readLetters : List Char → Except UsageFault Reading
  | [] => .ok ([], none)
  | letter :: rest =>
    match shortOption? letter with
    | none => .error (.unknownOption (String.ofList ['-', letter]))
    | some (.switch switch) => do
      let (items, open?) ← readLetters rest
      return (.switch switch :: items, open?)
    | some (.parameter parameter) =>
      if rest.isEmpty then .ok ([], some (parameter, String.ofList ['-', letter]))
      else .ok ([.parameter parameter (String.ofList rest)], none)

/-- Reads one argument. A single dash is a plain argument. -/
def readArgument (argument : String) : Except UsageFault Reading :=
  match argument.toList with
  | '-' :: '-' :: _ => readLong argument
  | '-' :: letter :: letters => readLetters (letter :: letters)
  | _ => .ok ([.argument argument], none)

/-- Reads all arguments. -/
def readItems : List String → Except UsageFault (List Item)
  | [] => .ok []
  | argument :: rest =>
    if argument = "--" then .ok (rest.map .argument)
    else match readArgument argument, rest with
      | .error fault, _ => .error fault
      | .ok (items, none), rest => (readItems rest).map (items ++ ·)
      | .ok (_, some (_, name)), [] => .error (.missingValue name)
      | .ok (items, some (parameter, _)), value :: rest =>
        (readItems rest).map (items ++ .parameter parameter value :: ·)
termination_by arguments => arguments.length

/-- What a run is asked to do. -/
structure Job where
  source : String
  table : String
  output : Option String := none
  listing : Option String := none
  symbols : Option String := none
  intermediate : Option String := none
  programName : Option String := none
  strict : Bool := false
  nameFromLabel : Bool := false
  quiet : Bool := false
  verbose : Bool := false
  deriving DecidableEq, Repr

/-- What the command is asked to do. -/
inductive Request
  | help
  | version
  | job (job : Job)
  deriving DecidableEq, Repr

/-- The last value that is given for a parameter. -/
def valueOf (parameter : Parameter) (items : List Item) : Option String :=
  (items.filterMap fun
    | .parameter other value => if other = parameter then some value else none
    | _ => none).getLast?

def isGiven (switch : Switch) (items : List Item) : Bool :=
  items.contains (.switch switch)

/-- The plain arguments. -/
def argumentsOf (items : List Item) : List String :=
  items.filterMap fun
    | .argument text => some text
    | _ => none

/-- The request for help or for the version that comes first, if there is one. -/
def information? (items : List Item) : Option Request :=
  items.findSome? fun
    | .switch .help => some .help
    | .switch .version => some .version
    | _ => none

/-- The job that items describe. -/
def jobOf (items : List Item) : Except UsageFault Job :=
  match argumentsOf items, valueOf .table items with
  | [], _ => .error .missingSource
  | _, none => .error .missingTable
  | _ :: extra :: _, some _ => .error (.extraArgument extra)
  | [source], some table => .ok
    { source, table
      output := valueOf .output items
      listing := valueOf .listing items
      symbols := valueOf .symbols items
      intermediate := valueOf .intermediate items
      programName := valueOf .programName items
      strict := isGiven .strict items
      nameFromLabel := isGiven .nameFromLabel items
      quiet := isGiven .quiet items
      verbose := isGiven .verbose items }

/-- The parameters that items give, each once, in the order in which they first occur. -/
def parametersOf (items : List Item) : List Parameter :=
  (items.filterMap fun
    | .parameter parameter _ => some parameter
    | _ => none).eraseDups

/-- Refuses a file that may not be read. -/
def checkReadable (tree : FileTree) (path : String) : Except UsageFault Unit :=
  match tree.read path with
  | .error (.notPermitted _ _) => .error (.notReadable path)
  | _ => .ok ()

/-- Refuses an input that is no file. -/
def checkInput (tree : FileTree) (path : String) : Except UsageFault Unit :=
  match tree.stat path with
  | .ok (.file _) => checkReadable tree path
  | .ok .directory => .error (.isDirectory path)
  | .error .nulInPath => .error .invalidPath
  | .error _ => .error (.noSuchFile path)

/-- Refuses an output that is a directory. -/
def checkOutput (tree : FileTree) (path : String) : Except UsageFault Unit :=
  match tree.stat path with
  | .ok (.file _) => checkReadable tree path
  | .ok .directory => .error (.isDirectory path)
  | .error .nulInPath => .error .invalidPath
  | _ => .ok ()

/-- Refuses a value that a parameter cannot take. -/
def Parameter.check (tree : FileTree) : Parameter → String → Except UsageFault Unit
  | table, path => checkInput tree path
  | programName, _ => .ok ()
  | _, path => checkOutput tree path

/-- Refuses items that name an input that is no file, or a directory for an output. Options
    are checked where they first occur, and the source behind all of them. -/
def checkPaths (tree : FileTree) (items : List Item) : Except UsageFault Unit := do
  (parametersOf items).forM fun parameter => (valueOf parameter items).forM (parameter.check tree)
  (argumentsOf items).head?.forM (checkInput tree)

/-- What arguments ask for. -/
def readRequest (tree : FileTree) (arguments : List String) : Except UsageFault Request := do
  let items ← readItems arguments
  match information? items with
  | some request => return request
  | none =>
    checkPaths tree items
    return .job (← jobOf items)

/-- Every path that items may name. -/
def pathsOf (items : List Item) : List String :=
  items.filterMap fun
    | .switch _ | .parameter .programName _ => none
    | .parameter _ path | .argument path => some path

end TwoPass.Command
