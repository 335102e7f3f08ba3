import VirtualShell.Table
import VirtualShell.Text.Number
import VirtualShell.Text.Quoted
import VirtualShell.Text.Split

/-!
# The files of the host

States are saved to and loaded from files of the host, which lie in one directory without further
directories in it. A file may be named with dots and slashes that lead nowhere; any other path names
nothing, or nothing that could be a file.
-/

namespace VirtualShell

/-- The files of the host, by name. -/
abbrev HostFiles := Table String

namespace HostFiles

/-- Why a file of the host cannot be read or written. -/
inductive Error where
  | missing
  | underFile
  | isDirectory
  | nameTooLong
  deriving DecidableEq, Repr

/-- The number of an error and what it means. -/
def Error.meaning : Error → Nat × String
  | .missing => (2, "No such file or directory")
  | .underFile => (20, "Not a directory")
  | .isDirectory => (21, "Is a directory")
  | .nameTooLong => (36, "File name too long")

/-- The message for a file that cannot be read or written. -/
def Error.message (e : Error) (path : String) : String :=
  "[Errno " ++ Text.natText e.meaning.1 ++ "] " ++ e.meaning.2 ++ ": " ++ Text.quoted path

/-- The most bytes in the name of a file. -/
def maxNameBytes : Nat := 255

/-- The most bytes in a path. -/
def maxPathBytes : Nat := 4095

/-- What a path names. -/
inductive Place where
  /-- A file of the directory, if it is there. -/
  | file (name : String)
  /-- A directory of the name of a file. -/
  | slashed (name : String)
  /-- Something below a file or a missing directory. -/
  | below (name : String)
  /-- The directory itself or one above it. -/
  | directory
  /-- Something far from the directory. -/
  | elsewhere
  deriving DecidableEq, Repr

/-- What a path names. -/
def Place.ofPath (path : String) : Place :=
  let parts := Text.splitOn '/' path
  match parts.dropWhile fun p => p = "" || p = "." with
  | [] => .directory
  | name :: rest =>
    if Text.hasStart "/" path then .elsewhere
    else if rest.isEmpty then if name = ".." then .directory else .file name
    else if rest.all (· = "") then .slashed name
    else .below name

/-- The name of the file that a path leads through. -/
def Place.name? : Place → Option String
  | .file name | .slashed name | .below name => some name
  | .directory | .elsewhere => none

/-- Whether a path or a name in it is too long. -/
def isTooLong (path : String) : Bool :=
  maxPathBytes < path.utf8ByteSize ||
    (Place.ofPath path).name?.any fun name => maxNameBytes < name.utf8ByteSize

/-- What is wrong with a path that leads through a name as if it were a directory. -/
def through (files : HostFiles) (name : String) : Error :=
  if files.contains name then .underFile else .missing

/-- A text with every kind of line end turned into a line feed. -/
def withLineFeeds : List Char → List Char
  | '\r' :: '\n' :: rest => '\n' :: withLineFeeds rest
  | '\r' :: rest => '\n' :: withLineFeeds rest
  | c :: rest => c :: withLineFeeds rest
  | [] => []

/-- The text of the file at a path. -/
def read (files : HostFiles) (path : String) : Except Error String :=
  if isTooLong path then .error .nameTooLong
  else
    match Place.ofPath path with
    | .file name =>
      match files.find? name with
      | some text => .ok (String.ofList (withLineFeeds text.toList))
      | none => .error .missing
    | .slashed name | .below name => .error (files.through name)
    | .directory => .error .isDirectory
    | .elsewhere => .error .missing

/-- The files with a text in the file at a path, which is made if it is missing. -/
def write (files : HostFiles) (path text : String) : Except Error HostFiles :=
  if isTooLong path then .error .nameTooLong
  else
    match Place.ofPath path with
    | .file name => .ok (files.put name text)
    | .below name => .error (files.through name)
    | .slashed _ | .directory => .error .isDirectory
    | .elsewhere => .error .missing

end HostFiles

end VirtualShell
