import VirtualShell.Builtin.Input
import VirtualShell.Builtin.Limits
import VirtualShell.Options

/-!
# Making and removing nodes

The commands `touch`, `mkdir`, `rm` and `rmdir`. Each goes through its operands in order and stops
at the first mistake; what it did for earlier operands stays done.
-/

namespace VirtualShell.Builtin

/-- The ceiling that making an empty node at a path would break, as a message. -/
def excessAt (path : Path) : Shell (Option String) :=
  Shell.query fun s =>
    ((Limits.check s.fileSystem path 0).map (·.map Limits.Excess.message)).mapError Fault.tree

/-- The name that a path ends in. -/
def lastName (path : Path) : String :=
  path.getLast?.getD ""

/-! ## Files -/

/-- The longest name of a file that `touch` makes. -/
def maxNameLength : Nat := 255

/-- Makes an empty file, or notes that an entry was changed now. -/
def touchOne (filename : String) : Shell (Option String) := do
  let path := (← Shell.session).fileSystem.resolve filename
  let name := lastName path
  if path.isEmpty then return some ("touch: cannot touch '" ++ filename ++ "'")
  if name.toList.contains '\\' || name.toList.contains '\x00' then
    return some "touch: invalid filename"
  if maxNameLength < name.length then return some "touch: filename too long"
  match ← Shell.node? path.dropLast with
  | some (.directory _ entries) =>
    if Table.contains entries name then
      let now ← Shell.now
      Shell.modify fun s => { s with fileSystem := s.fileSystem.modifyAt path (·.touch now) }
      return none
    else
      match ← excessAt path with
      | some message => return some ("touch: " ++ message)
      | none =>
        let _ ← Shell.changeTree fun now fs => fs.createFile now path.dropLast name
        return none
  | some (.hollow _) => Shell.ofExcept (.error .fetchedLostEntries)
  | _ => return some ("touch: cannot touch '" ++ filename ++ "': No such file or directory")

/-- Makes empty files, or notes that entries were changed now. -/
def runTouch (args : List String) : Shell Result :=
  if args.isEmpty then return .fail "touch: missing file operand" else forEach args touchOne

/-! ## Directories -/

/-- The message for a directory that cannot be made. -/
def cannotCreate (operand reason : String) : String :=
  "mkdir: cannot create directory '" ++ operand ++ "': " ++ reason

/-- Makes a directory in a directory that is there. -/
def makeDirectory (operand : String) (path : Path) : Shell (Option String) := do
  match ← Shell.node? path.dropLast with
  | some (.directory _ entries) =>
    if Table.contains entries (lastName path) then
      return some (cannotCreate operand "File exists")
    else
      match ← excessAt path with
      | some message => return some ("mkdir: " ++ message)
      | none =>
        let _ ← Shell.changeTree fun now fs => fs.createDirectory now path.dropLast (lastName path)
        return none
  | some (.hollow _) => Shell.ofExcept (.error .searchedLostEntries)
  | _ => return some (cannotCreate operand "No such file or directory")

/-- Makes the directories along a path that are missing: those at `made` and, name by name, below
it. -/
def makeParents (operand : String) (made : Path) : List String → Shell (Option String)
  | [] => return none
  | name :: rest => do
    let path := made ++ [name]
    match ← Shell.node? path with
    | none =>
      match ← excessAt path with
      | some message => return some ("mkdir: " ++ message)
      | none =>
        let _ ← Shell.changeTree fun now fs => fs.createDirectory now made name
        makeParents operand path rest
    | some node =>
      if node.isDirectory then makeParents operand path rest
      else return some (cannotCreate operand "Not a directory")

/-- Makes the directory that an operand names. With `parents` the directories above it are made as
well, and one that is there is no mistake. -/
def mkdirOne (parents : Bool) (operand : String) : Shell (Option String) := do
  let path := (← Shell.session).fileSystem.resolve operand
  if path.isEmpty then
    return if parents then none else some (cannotCreate operand "File exists")
  else if Limits.maxDepth < path.length then return some ("mkdir: " ++ Limits.tooDeep)
  else if parents then makeParents operand [] path
  else makeDirectory operand path

/-- Makes directories. -/
def runMkdir (args : List String) : Shell Result :=
  let options := Options.parse args
  if options.operands.isEmpty then return .fail "mkdir: missing operand"
  else forEach options.operands (mkdirOne (options.has ["p", "parents"]))

/-! ## Removal -/

/-- Whether a path is that of the working directory or of a directory above it. -/
def isBusy (s : Session) (path : Path) : Bool :=
  path.isPrefixOf s.fileSystem.cwd

/-- Removes the entry that a path ends in. -/
def removeAt (path : Path) : Shell Bool :=
  Shell.changeTree fun now fs => fs.deleteEntry now path.dropLast (lastName path)

/-- The message for a node that cannot be removed. -/
def cannotRemove (operand reason : String) : String :=
  "rm: cannot remove '" ++ operand ++ "': " ++ reason

/-- Removes the node that an operand names. -/
def rmOne (recursive force : Bool) (operand : String) : Shell (Option String) := do
  let path := (← Shell.session).fileSystem.resolve operand
  match ← Shell.node? path with
  | none => return if force then none else some (cannotRemove operand "No such file or directory")
  | some node =>
    if node.isDirectory && !recursive then return some (cannotRemove operand "Is a directory")
    else if isBusy (← Shell.session) path then
      return some (cannotRemove operand "Device or resource busy")
    else
      let removed ← removeAt path
      return if removed || force then none else some ("rm: cannot remove '" ++ operand ++ "'")

/-- Removes files, and directories with all they hold where that is asked for. -/
def runRm (args : List String) : Shell Result :=
  let options := Options.parse args
  if options.operands.isEmpty then return .fail "rm: missing operand"
  else
    forEach options.operands
      (rmOne (options.has ["r", "R", "recursive"]) (options.has ["f", "force"]))

/-- The message for a directory that cannot be removed. -/
def failedToRemove (operand reason : String) : String :=
  "rmdir: failed to remove '" ++ operand ++ "': " ++ reason

/-- Removes the empty directory that an operand names. -/
def rmdirOne (operand : String) : Shell (Option String) := do
  let path := (← Shell.session).fileSystem.resolve operand
  match ← Shell.node? path with
  | none => return some (failedToRemove operand "No such file or directory")
  | some node =>
    if !node.isDirectory then return some (failedToRemove operand "Not a directory")
    else if !node.entries.isEmpty then return some (failedToRemove operand "Directory not empty")
    else if isBusy (← Shell.session) path then
      return some (failedToRemove operand "Device or resource busy")
    else
      let _ ← removeAt path
      return none

/-- Removes empty directories. -/
def runRmdir (args : List String) : Shell Result :=
  if args.isEmpty then return .fail "rmdir: missing operand" else forEach args rmdirOne

end VirtualShell.Builtin
