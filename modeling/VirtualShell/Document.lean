import VirtualShell.Json.Reader
import VirtualShell.Json.Writer
import VirtualShell.Session

/-!
# Saved states

A session is saved as a JSON document with the whole tree, the working directory, the mode, the
variables that were changed and the aliases. Reading checks the document as a whole before anything
is applied; variables and aliases that are not valid are passed over when it is applied.

Reading and writing go down to any depth of the tree. The limit that an interpreter sets to nested
calls is left out: with it, a document that is nested some hundreds of levels deep could be neither
read nor written.
-/

namespace VirtualShell

/-- A state that has been read from a document and checked. -/
structure Document where
  root : Node
  mode : String
  version : String
  savedAt : String
  cwd : Path
  environment : Table Json
  aliases : Option (List Json)

namespace Document

/-- The version of the format. -/
def currentVersion : String := "1.0.0"

/-- Why a document is not accepted. -/
inductive Error where
  /-- The text is not JSON. -/
  | unreadable (e : Json.ReadError)
  /-- A part is missing or of the wrong type. -/
  | badFormat
  | environmentNotObject
  | aliasesNotList
  /-- The tree holds something that is not a node. -/
  | badNode (e : NodeError)
  | rootNotDirectory

/-- The message for a document that is not accepted. -/
def Error.message : Error → String
  | .unreadable e => "Failed to parse saved data: " ++ e.message
  | .badFormat => "Invalid saved filesystem data format"
  | .environmentNotObject => "environment must be an object"
  | .aliasesNotList => "aliases must be a list"
  | .badNode e => "Invalid node structure: " ++ e.message
  | .rootNotDirectory => "filesystem root must be a directory"

/-! ## Writing -/

/-- The value that saves a session. -/
def ofSession (now : Timestamp) (s : Session) : Json :=
  .obj [
    ("filesystem", s.fileSystem.root.toJson),
    ("mode", .str s.mode),
    ("version", .str currentVersion),
    ("savedAt", .str now.text),
    ("currentPath", .arr (s.fileSystem.cwd.map .str)),
    ("environment", .obj (s.environment.changed.map fun (name, value) => (name, .str value))),
    ("aliases", .arr s.aliases.toJson)]

/-- The document that saves a session. -/
def save (now : Timestamp) (s : Session) : String :=
  (ofSession now s).write

/-! ## Reading -/

/-- A field that must be a text. -/
def textField (fields : Table Json) (name : String) : Except Error String :=
  match fields.find? name with
  | some (.str s) => .ok s
  | _ => .error .badFormat

/-- The fields of the root, which must have a name and a type. -/
def rootField (fields : Table Json) : Except Error Json := do
  match fields.find? "filesystem" with
  | some (.obj root) =>
    let _ ← textField root "name"
    let _ ← textField root "type"
    return .obj root
  | _ => throw .badFormat

/-- The names of a path, which must all be texts. -/
def pathField (fields : Table Json) : Except Error Path :=
  match fields.find? "currentPath" with
  | some (.arr items) =>
    match items.mapM Json.text? with
    | some path => .ok path
    | none => .error .badFormat
  | _ => .error .badFormat

/-- The saved variables; they may be missing or null. -/
def environmentField (fields : Table Json) : Except Error (Table Json) :=
  match fields.find? "environment" with
  | none | some .null => .ok []
  | some (.obj fields) => .ok fields
  | some _ => .error .environmentNotObject

/-- The saved aliases; they may be missing or null. -/
def aliasesField (fields : Table Json) : Except Error (Option (List Json)) :=
  match fields.find? "aliases" with
  | none | some .null => .ok none
  | some (.arr items) => .ok (some items)
  | some _ => .error .aliasesNotList

/-- The parts of a document, each of the right type; the tree is not looked into yet. -/
structure Outline where
  root : Json
  mode : String
  version : String
  savedAt : String
  cwd : Path
  environment : Table Json
  aliases : Option (List Json)

/-- The parts of the document that a value is. -/
def outline (v : Json) : Except Error Outline := do
  match v with
  | .obj fields =>
    let root ← rootField fields
    let mode ← textField fields "mode"
    let version ← textField fields "version"
    let savedAt ← textField fields "savedAt"
    let cwd ← pathField fields
    let environment ← environmentField fields
    let aliases ← aliasesField fields
    return { root, mode, version, savedAt, cwd, environment, aliases }
  | _ => throw .badFormat

/-- The note about a document of another version. -/
def Outline.notes (o : Outline) : List Note :=
  if o.version = currentVersion then []
  else
    [.warning .documents ("Version mismatch: saved " ++ o.version ++ ", current "
      ++ currentVersion)]

/-- The state with the parts of a document. There is one version of the format so far, so a document
of another version is taken as one of the current version. -/
def Outline.document (now : Timestamp) (o : Outline) : Except Error Document := do
  match Node.ofJson now o.root with
  | .error e => throw (.badNode e)
  | .ok root =>
    if root.isFile then throw .rootNotDirectory
    return {
      root, mode := o.mode, version := currentVersion, savedAt := o.savedAt, cwd := o.cwd,
      environment := o.environment, aliases := o.aliases }

/-- The parts of a document. -/
def readOutline (text : String) : Except Error Outline :=
  match Json.read text with
  | .error e => .error (.unreadable e)
  | .ok v => outline v

/-- The state that a document saves. -/
def load (now : Timestamp) (text : String) : Except Error Document := do
  (← readOutline text).document now

/-- The notes about a document. -/
def loadNotes (text : String) : List Note :=
  match readOutline text with
  | .ok o => o.notes
  | .error _ => []

/-! ## Applying -/

/-- A path as notes show it. -/
def shownPath (p : Path) : String :=
  (Json.arr (p.map .str)).shown

/-- Whether a path names a directory. -/
def isDirectoryAt (fs : FileSystem) (path : Path) : Bool :=
  match fs.node? path with
  | .ok (some node) => node.isDirectory
  | _ => false

/-- The working directory of a saved state: where the saved one is no directory any more, the home
directory, or else the root. -/
def workingDirectory (d : Document) : Path :=
  let fs : FileSystem := { root := d.root }
  if isDirectoryAt fs d.cwd then d.cwd
  else if isDirectoryAt fs Path.home then Path.home
  else []

/-- What applying a state has come to. The session is left as far as the application got. -/
structure Applied where
  session : Session
  error : Option Aliases.DataError := none
  notes : List Note := []

/-- Replaces the file system, the mode, the variables and the aliases of a session by saved ones. -/
def apply (d : Document) (now : Timestamp) (s : Session) : Applied :=
  let cwd := d.workingDirectory
  let moved :=
    if cwd = d.cwd then []
    else
      [Note.warning .documents ("saved directory " ++ shownPath d.cwd ++ " is missing, using "
        ++ shownPath cwd)]
  let imported := s.environment.importFrom d.environment
  let refused := imported.rejections.map fun (name, r) => Note.ofVariableRejection name r
  let s := { s with
    fileSystem := { root := d.root, cwd }
    mode := d.mode
    environment := imported.environment.withCwd cwd }
  match d.aliases with
  | none => { session := s, notes := moved ++ refused }
  | some items =>
    let loaded := Aliases.ofJson now (.arr items)
    { session := { s with aliases := loaded.aliases }
      error := loaded.error
      notes := moved ++ refused ++ loaded.rejections.map .ofAliasRejection }

end Document

end VirtualShell
