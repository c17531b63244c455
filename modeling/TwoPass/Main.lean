import TwoPass.Command.Run

/-!
The command line program. It takes down what stands at the paths that the arguments name,
lets the command run on that, and then prints and writes what came of it.
-/
namespace TwoPass.Main

open TwoPass.Command

/-- Takes down what stands at a path and at the directories it leads through. -/
def survey (tree : FileTree) (path : String) : IO FileTree := do
  let here ← IO.currentDir
  let parts := (List.range (Path.components path).length).map fun count =>
    "/".intercalate ((Path.components path).take (count + 1))
  parts.foldlM (fun tree part => do
    match tree.resolve part with
    | .error _ => return tree
    | .ok place =>
      if ← (here / part).isDir then return tree.put place .directory
      else if ← (here / part).pathExists then
        try
          return tree.put place (.file (← IO.FS.readBinFile part))
        catch
          | .permissionDenied _ number reason =>
            return (tree.put place (.file .empty)).refuse .read place (.notPermitted number.toNat reason)
          | fault => throw fault
      else return tree) tree

/-- The variables of the environment that the command asks for. -/
def environment : IO (String → Option String) := do
  let values ← Settings.variableNames.mapM fun name => do return (name, ← IO.getEnv name)
  return fun name => (values.find? (·.1 = name)).bind Prod.snd

/-- The file tree that a request is about. -/
def treeFor (arguments : List String) : IO FileTree := do
  match readItems arguments with
  | .ok items => (pathsOf items ++ (pathsOf items).map Path.normalize).foldlM survey {}
  | .error _ => return {}

/-- Runs the command on the disk, and gives its exit code. -/
def execute (arguments : List String) : IO UInt32 := do
  let tree ← treeFor arguments
  let outputIsTerminal ← (← IO.getStdout).isTty
  let errorsAreTerminal ← (← IO.getStderr).isTty
  let host := Host.plain fun
    | .output => outputIsTerminal
    | .errors => errorsAreTerminal
  let result := run host tree (← environment) (readRequest tree arguments)
  match result with
  | .help => IO.print helpText
  | .version => IO.print versionText
  | .refused fault => IO.eprint (usageText ++ "\nError: " ++ fault.message ++ "\n")
  | .done response =>
    IO.print response.console.output
    IO.eprint response.console.errors
    for (path, content) in tree.changedFiles response.console.tree do
      IO.FS.writeBinFile path content
  return UInt32.ofNat result.status.value

end TwoPass.Main

def main (arguments : List String) : IO UInt32 :=
  TwoPass.Main.execute arguments
