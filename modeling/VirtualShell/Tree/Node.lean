import VirtualShell.Json.Basic
import VirtualShell.Path
import VirtualShell.Time.Timestamp

/-!
# The tree

A node is a file with its content or a directory with its entries, which keep the order in which
they were made. A directory whose entries have been lost is a third kind of node: the shell never
makes one, but a host can, and whoever walks through it is told so.

Nodes do not know their parents, so every walk starts at the root and follows a path.
-/

namespace VirtualShell

/-- What files and directories have in common. The permissions are shown in listings and kept in
documents, and are not enforced; a document may hold any value for them. -/
structure NodeInfo where
  name : String
  permissions : Json
  createdAt : Timestamp
  modifiedAt : Timestamp

/-- A node of the tree. -/
inductive Node where
  /-- A file with its content. -/
  | file (info : NodeInfo) (content : String)
  /-- A directory with its entries, by name. -/
  | directory (info : NodeInfo) (entries : List (String × Node))
  /-- A directory whose entries are lost. -/
  | hollow (info : NodeInfo)

/-- What is wrong with a tree. -/
inductive TreeFault where
  /-- The directory at a path has lost its entries. -/
  | lostEntries (path : Path)
  deriving DecidableEq, Repr

/-- A message about a place in the tree; an empty place is left out. -/
def TreeFault.messageAt (message place : String) : String :=
  if place = "" then message else message ++ " (path=" ++ place ++ ")"

/-- The message for a tree that is not sound. -/
def TreeFault.message : TreeFault → String
  | .lostEntries path => messageAt "directory has no children collection" path.text

namespace Node

/-- The permissions of a new file. -/
def filePermissions : Json := .str "-rw-r--r--"

/-- The permissions of a new directory. -/
def directoryPermissions : Json := .str "drwxr-xr-x"

/-- The size that every directory is listed with. -/
def directorySize : Nat := 4096

/-- A new file. -/
def newFile (now : Timestamp) (name content : String) (permissions : Json := filePermissions) :
    Node :=
  .file { name, permissions, createdAt := now, modifiedAt := now } content

/-- A new directory with the given nodes as its entries, each under its own name. -/
def newDirectory (now : Timestamp) (name : String) (entries : Table Node := [])
    (permissions : Json := directoryPermissions) : Node :=
  .directory { name, permissions, createdAt := now, modifiedAt := now } entries

/-! ## Looking at a node -/

/-- What the node has in common with all others. -/
def info : Node → NodeInfo
  | .file info _ => info
  | .directory info _ => info
  | .hollow info => info

/-- The name that the node itself bears; its directory may keep it under another one. -/
def name (n : Node) : String :=
  n.info.name

/-- Whether the node is a file. -/
def isFile : Node → Bool
  | .file .. => true
  | _ => false

/-- Whether the node is a directory. -/
def isDirectory (n : Node) : Bool :=
  !n.isFile

/-- The word for the kind of the node. -/
def kind (n : Node) : String :=
  if n.isFile then "file" else "directory"

/-- The content of a file; a directory has none. -/
def content? : Node → Option String
  | .file _ content => some content
  | _ => none

/-- The entries of a directory, as far as there are any. -/
def entries : Node → Table Node
  | .directory _ entries => entries
  | _ => []

/-- The size that the node is listed with: the number of characters of a file. -/
def size : Node → Nat
  | .file _ content => content.length
  | _ => directorySize

mutual

/-- The number of characters in all files at or below the node. -/
def totalSize : Node → Nat
  | .file _ content => content.length
  | .directory _ entries => totalSizes entries
  | .hollow _ => 0

/-- The number of characters in all files at or below the entries. -/
def totalSizes : List (String × Node) → Nat
  | [] => 0
  | (_, n) :: rest => n.totalSize + totalSizes rest

end

/-! ## Changing a node -/

/-- The node with its common part changed. -/
def mapInfo (f : NodeInfo → NodeInfo) : Node → Node
  | .file info content => .file (f info) content
  | .directory info entries => .directory (f info) entries
  | .hollow info => .hollow (f info)

/-- The node as changed at a moment. -/
def touch (now : Timestamp) (n : Node) : Node :=
  n.mapInfo fun info => { info with modifiedAt := now }

/-- The file with a new content; a directory stays. -/
def withContent (content : String) : Node → Node
  | .file info _ => .file info content
  | n => n

/-- The directory with its entries changed; other nodes stay. -/
def mapEntries (f : Table Node → Table Node) : Node → Node
  | .directory info entries => .directory info (f entries)
  | n => n

/-- The directory without its entries. -/
def loseEntries : Node → Node
  | .directory info _ => .hollow info
  | n => n

/-- Changes the node at a path below this one; the tree stays where there is no such node. -/
def modifyAt (f : Node → Node) : Path → Node → Node
  | [], n => f n
  | segment :: rest, .directory info entries =>
    match Table.find? entries segment with
    | some child => .directory info (Table.put entries segment (modifyAt f rest child))
    | none => .directory info entries
  | _ :: _, n => n

/-! ## Walking -/

end Node

/-- What a walk along a path ends in. -/
inductive Lookup where
  | found (node : Node)
  /-- A directory on the way has no entry of the next name. -/
  | missing
  /-- A file on the way is used as a directory. -/
  | notADirectory

/-- The node that a walk has found. -/
def Lookup.node? : Lookup → Option Node
  | .found node => some node
  | _ => none

/-- Walks down from a node that lies at the path `walked`. -/
def Node.walk (walked : Path) : Path → Node → Except TreeFault Lookup
  | [], n => .ok (.found n)
  | segment :: rest, n =>
    match n with
    | .file .. => .ok .notADirectory
    | .hollow _ => .error (.lostEntries walked)
    | .directory _ entries =>
      match Table.find? entries segment with
      | none => .ok .missing
      | some child => child.walk (walked ++ [segment]) rest

end VirtualShell
