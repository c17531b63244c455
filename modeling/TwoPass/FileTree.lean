import TwoPass.Text.Split

/-!
File trees: files and directories below a working directory, named by paths. A path is
followed component by component, and every component but the last must name a directory.
Reading and writing give the reason when they fail, and what the system has against them is
part of the tree.
-/
namespace TwoPass

inductive FileNode
  | file (content : ByteArray)
  | directory

instance : DecidableEq FileNode
  | .file first, .file second =>
    match ByteArray.instDecidableEq first second with
    | isTrue same => isTrue (congrArg FileNode.file same)
    | isFalse differ => isFalse fun same => differ (FileNode.file.inj same)
  | .directory, .directory => isTrue rfl
  | .file _, .directory => isFalse FileNode.noConfusion
  | .directory, .file _ => isFalse FileNode.noConfusion

/-- Why a file cannot be read or written. -/
inductive FileFault
  | notFound
  | notDirectory
  | isDirectory
  | nameTooLong
  /-- The path holds a NUL character, so that it cannot be handed to the system. -/
  | nulInPath
  /-- The system does not permit it. -/
  | notPermitted (number : Nat) (reason : String)
  /-- The system has another reason of its own. -/
  | refused (number : Nat) (reason : String)
  deriving DecidableEq, Repr

namespace FileFault

/-- The system's number of a fault, if the system found it. -/
def number? : FileFault → Option Nat
  | notFound => some 2
  | notDirectory => some 20
  | isDirectory => some 21
  | nameTooLong => some 36
  | nulInPath => none
  | notPermitted number _ | refused number _ => some number

/-- The description of a fault. -/
def message : FileFault → String
  | notFound => "No such file or directory"
  | notDirectory => "Not a directory"
  | isDirectory => "Is a directory"
  | nameTooLong => "File name too long"
  | nulInPath => "embedded null byte"
  | notPermitted _ reason | refused _ reason => reason

end FileFault

namespace Path

/-- The components of a path, as they are written. -/
def components (path : String) : List String :=
  (Text.fields '/' path.toList).map String.ofList

/-- The slashes that make a path begin at the root; exactly two of them stay two. -/
def root (path : String) : String :=
  match (path.toList.takeWhile (· == '/')).length with
  | 0 => ""
  | 2 => "//"
  | _ => "/"

/-- The plain form of a path: single slashes, no component that stays in place, and a dot
    for the working directory. -/
def normalize (path : String) : String :=
  let kept := (components path).filter fun component => component ≠ "" && component ≠ "."
  let normal := root path ++ "/".intercalate kept
  if normal.isEmpty then "." else normal

/-- Whether a path holds a NUL character. -/
def hasNul (path : String) : Bool :=
  path.toList.contains '\x00'

/-- The longest name of a file, in bytes. -/
def maxNameBytes : Nat := 255

/-- Paths are shorter than this many bytes. -/
def maxPathBytes : Nat := 4096

end Path

/-- What is done at a place. -/
inductive Access
  /-- A path leads through a directory. -/
  | pass
  | read
  | write
  deriving DecidableEq, Repr

/-- The nodes of a tree by their places below the working directory. -/
structure FileTree where
  nodes : List (List String × FileNode) := []
  /-- What the system has against an access to a place. -/
  refusal? : Access → List String → Option FileFault := fun _ _ => none

namespace FileTree

/-- The place of the file system's root. -/
def rootPlace : List String := ["/"]

/-- The node at a place. The working directory, the directories above it and the root are
    always there. -/
def node? (tree : FileTree) (place : List String) : Option FileNode :=
  if place.all (· = "..") ∨ place = rootPlace then some .directory
  else (tree.nodes.find? (·.1 = place)).map Prod.snd

/-- Puts a node at a place. -/
def put (tree : FileTree) (place : List String) (node : FileNode) : FileTree :=
  if tree.nodes.any (·.1 = place) then
    { tree with nodes := tree.nodes.map fun entry => if entry.1 = place then (place, node) else entry }
  else { tree with nodes := tree.nodes ++ [(place, node)] }

/-- Lets the system refuse an access to a place. -/
def refuse (tree : FileTree) (access : Access) (place : List String) (fault : FileFault) : FileTree :=
  { tree with refusal? := fun other there =>
      if other = access ∧ there = place then some fault else tree.refusal? other there }

/-- The place above a place. -/
def parent (place : List String) : List String :=
  if place = rootPlace then rootPlace
  else if place.all (· = "..") then place ++ [".."]
  else place.dropLast

/-- The place that a component names in a directory. -/
def enter (place : List String) (component : String) : Except FileFault (List String) :=
  if component = "" ∨ component = "." then .ok place
  else if component = ".." then .ok (parent place)
  else if Path.maxNameBytes < component.utf8ByteSize then .error .nameTooLong
  else .ok (place ++ [component])

/-- Follows components from a place; there need not be a node where they lead. -/
def follow (tree : FileTree) (place : List String) : List String → Except FileFault (List String)
  | [] => .ok place
  | component :: rest =>
    match tree.node? place with
    | none => .error .notFound
    | some (.file _) => .error .notDirectory
    | some .directory =>
      match tree.refusal? .pass place with
      | some fault => .error fault
      | none => do tree.follow (← enter place component) rest

/-- The place that a path leads to. -/
def resolve (tree : FileTree) (path : String) : Except FileFault (List String) :=
  if Path.hasNul path then .error .nulInPath
  else if path.isEmpty then .error .notFound
  else if Path.maxPathBytes ≤ path.utf8ByteSize then .error .nameTooLong
  else tree.follow (if path.startsWith "/" then rootPlace else []) (Path.components path)

/-- The node that a path leads to. -/
def stat (tree : FileTree) (path : String) : Except FileFault FileNode := do
  match tree.node? (← tree.resolve path) with
  | some node => return node
  | none => .error .notFound

/-- The content of a file. -/
def read (tree : FileTree) (path : String) : Except FileFault ByteArray := do
  let place ← tree.resolve path
  match tree.node? place, tree.refusal? .read place with
  | none, _ => .error .notFound
  | some _, some fault => .error fault
  | some (.file content), none => return content
  | some .directory, none => .error .isDirectory

/-- Writes a file, which is made if there is none. -/
def write (tree : FileTree) (path : String) (content : ByteArray) : Except FileFault FileTree := do
  let place ← tree.resolve path
  match tree.node? place, tree.refusal? .write place with
  | some .directory, _ => .error .isDirectory
  | _, some fault => .error fault
  | _, none => return tree.put place (.file content)

/-- Puts a node under a name, and directories above it. -/
def provide (tree : FileTree) (path : String) (node : FileNode) : FileTree :=
  let place := (Path.components path).filter fun component => component ≠ "" && component ≠ "."
  let above := (List.range place.length).map place.take
  let tree := above.foldl (fun tree place => if (tree.node? place).isSome then tree else tree.put place .directory) tree
  tree.put place node

/-- The files that differ from those of an earlier tree, or are new. -/
def changedFiles (before after : FileTree) : List (String × ByteArray) :=
  after.nodes.filterMap fun (place, node) =>
    match node, before.node? place with
    | .file content, some (.file old) => if content == old then none else some ("/".intercalate place, content)
    | .file content, _ => some ("/".intercalate place, content)
    | .directory, _ => none

end FileTree

end TwoPass
