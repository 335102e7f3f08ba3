import VirtualShell.Builtin.Input
import VirtualShell.Options

/-!
# Moving around and looking around

The commands `cd`, `pwd` and `ls`.
-/

namespace VirtualShell.Builtin

/-- Makes a path the working directory. -/
def enter (path : Path) : Shell Unit :=
  Shell.modify fun s => { s with fileSystem := { s.fileSystem with cwd := path } }

/-- Changes the working directory to a directory, or to the home directory. -/
def runCd (args : List String) : Shell Result := do
  match args with
  | [] =>
    match ← Shell.node? Path.home with
    | some node =>
      if node.isDirectory then
        enter Path.home
        return .ok
      else return .fail "cd: no such file or directory: ~"
    | none => return .fail "cd: no such file or directory: ~"
  | target :: _ =>
    let path := (← Shell.session).fileSystem.resolve target
    match ← Shell.node? path with
    | none => return .fail ("cd: no such file or directory: " ++ target)
    | some node =>
      if node.isDirectory then
        enter path
        return .ok
      else return .fail ("cd: not a directory: " ++ target)

/-- Prints the working directory. -/
def runPwd : Shell Result :=
  Shell.query fun s => return .say s.fileSystem.cwd.text

/-! ## Listings -/

/-- The order of a listing: directories first, and by name. -/
def listedBefore (a b : Node) : Bool :=
  if a.isDirectory == b.isDirectory then decide (a.name ≤ b.name) else a.isDirectory

/-- The nodes of a directory that a listing shows, in its order. -/
def listed (showHidden : Bool) (directory : Node) : List Node :=
  (directory.entries.values.filter fun n => showHidden || !Text.hasStart "." n.name).mergeSort
    listedBefore

/-- A node in the long form. -/
def longForm (n : Node) : List Segment :=
  [{ text := n.info.permissions.plain ++ " " ++ Text.padStart 8 (Text.natText n.size) ++ " "
      ++ n.info.modifiedAt.listing ++ " " },
    { text := n.name, style := n.kind }]

/-- A node in the short form. -/
def shortForm (n : Node) : List Segment :=
  [{ text := n.name, style := n.kind }]

/-- Lists of segments in a row with a separator between them. -/
def separate (separator : String) : List (List Segment) → List Segment
  | [] => []
  | first :: rest => first ++ rest.flatMap fun parts => { text := separator } :: parts

/-- Lists a directory, or names a file. -/
def runLs (args : List String) : Shell Result :=
  Shell.query fun s => do
    let options := Options.parse args
    let target := options.operands.head?.filter (· != "")
    let path := (target.map s.fileSystem.resolve).getD s.fileSystem.cwd
    match ← (s.fileSystem.node? path).mapError Fault.tree with
    | none =>
      return .fail ("ls: cannot access '" ++ target.getD path.text
        ++ "': No such file or directory")
    | some node =>
      if node.isFile then return .ok (.segments [{ text := node.name, style := "file" }])
      else
        let nodes := listed (options.has ["a", "all"]) node
        let parts :=
          if options.has ["l"] then separate "\n" (nodes.map longForm)
          else separate "  " (nodes.map shortForm)
        return .ok (.segments parts)

end VirtualShell.Builtin
