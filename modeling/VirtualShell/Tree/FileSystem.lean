import VirtualShell.Tree.Node

/-!
# The file system

The tree with its working directory, and the four ways to change it: making a file or a directory,
removing an entry, and writing a file. Each answers with the changed file system, or with `none`
where the change is refused and nothing happens. Limits on sizes and names are the business of the
commands.
-/

namespace VirtualShell

/-- A tree and the path of the working directory in it. -/
structure FileSystem where
  root : Node
  cwd : Path := []

namespace FileSystem

/-- Walks along a path from the root. -/
def lookup (fs : FileSystem) (path : Path) : Except TreeFault Lookup :=
  fs.root.walk [] path

/-- The node at a path, if there is one. -/
def node? (fs : FileSystem) (path : Path) : Except TreeFault (Option Node) :=
  (fs.lookup path).map Lookup.node?

/-- The path that an input names from the working directory. -/
def resolve (fs : FileSystem) (input : String) : Path :=
  Path.resolve fs.cwd input

/-- The node that an input names, if there is one. -/
def named? (fs : FileSystem) (input : String) : Except TreeFault (Option Node) :=
  fs.node? (fs.resolve input)

/-- The file system with the node at a path changed. -/
def modifyAt (fs : FileSystem) (path : Path) (f : Node → Node) : FileSystem :=
  { fs with root := fs.root.modifyAt f path }

/-- The directory at a path, if there is one; it must have its entries. -/
def directory? (fs : FileSystem) (path : Path) : Except TreeFault (Option (Table Node)) := do
  match ← fs.node? path with
  | some (.directory _ entries) => return some entries
  | some (.hollow _) => throw (.lostEntries path)
  | _ => return none

/-- Puts a node into the directory at a path, in the place of an entry of the same name. -/
def addEntry (fs : FileSystem) (now : Timestamp) (path : Path) (name : String) (node : Node) :
    Except TreeFault (Option FileSystem) := do
  match ← fs.directory? path with
  | none => return none
  | some _ =>
    return some (fs.modifyAt path fun d => (d.mapEntries (·.put name node)).touch now)

/-- Makes or replaces a file in the directory at a path. -/
def createFile (fs : FileSystem) (now : Timestamp) (path : Path) (name : String)
    (content : String := "") : Except TreeFault (Option FileSystem) :=
  fs.addEntry now path name (Node.newFile now name content)

/-- Makes or replaces an empty directory in the directory at a path. -/
def createDirectory (fs : FileSystem) (now : Timestamp) (path : Path) (name : String) :
    Except TreeFault (Option FileSystem) :=
  fs.addEntry now path name (Node.newDirectory now name)

/-- Removes an entry from the directory at a path. -/
def deleteEntry (fs : FileSystem) (now : Timestamp) (path : Path) (name : String) :
    Except TreeFault (Option FileSystem) := do
  match ← fs.directory? path with
  | none => return none
  | some entries =>
    if Table.contains entries name then
      return some (fs.modifyAt path fun d => (d.mapEntries (·.erase name)).touch now)
    else return none

/-- Replaces the content of the file at a path, and makes the file if it is missing. -/
def writeFile (fs : FileSystem) (now : Timestamp) (path : Path) (content : String) :
    Except TreeFault (Option FileSystem) := do
  match path.getLast? with
  | none => return none
  | some name =>
    match ← fs.node? path with
    | none => fs.createFile now path.dropLast name content
    | some (.file ..) =>
      return some (fs.modifyAt path fun n => (n.withContent content).touch now)
    | some _ => return none

end FileSystem

end VirtualShell
