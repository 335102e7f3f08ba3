import VirtualShell.Alias.Definition
import VirtualShell.Tree.Codec

/-!
# The alias book

The aliases of a session, by name. Setting an alias checks its name and its command. Resolving one
follows aliases whose command lines start with another alias, until a line starts with none; a
cycle, or more than ten aliases in a row, ends the resolution without a result.
-/

namespace VirtualShell

/-- The aliases of a session, by name. -/
abbrev Aliases := Table Alias

namespace Aliases

/-- The most aliases that a resolution goes through. -/
def maxDepth : Nat := 10

/-- Why an alias is not set. -/
inductive Rejection where
  /-- The name, here as messages show it, is no name for an alias. -/
  | badName (shown : String)
  /-- There is no command. -/
  | noCommand (name : String)
  deriving DecidableEq, Repr

/-- Sets or replaces an alias. -/
def set (t : Aliases) (now : Timestamp) (name command : String) : Except Rejection Aliases :=
  let command := Text.strip command
  if !Alias.isValidName name then .error (.badName (Text.quoted name))
  else if command = "" then .error (.noCommand name)
  else .ok (t.put name { name, command, createdAt := now })

/-- The command line of an alias. -/
def command? (t : Aliases) (name : String) : Option String :=
  (t.find? name).map Alias.command

/-- The aliases by increasing name. -/
def inOrder (t : Aliases) : List Alias :=
  t.sorted.values

/-- The names in increasing order. -/
def sortedNames (t : Aliases) : List String :=
  t.sorted.names

/-- The definitions as commands, by increasing name. -/
def listing (t : Aliases) : List String :=
  t.inOrder.map fun a => Alias.format a.name a.command

/-! ## Resolution -/

/-- What the resolution of a name ends in. -/
inductive Resolution where
  /-- A command line that starts with no alias. -/
  | line (text : String)
  /-- The name is no alias. -/
  | undefined
  /-- The resolution came back to this alias. -/
  | cycle (name : String)
  /-- Too many aliases lead to this one. -/
  | tooDeep (name : String)
  deriving DecidableEq, Repr

/-- The command line of a resolution. -/
def Resolution.line? : Resolution → Option String
  | .line text => some text
  | _ => none

/-- The first word of a command line and the further ones, as single blanks divide them. -/
def wordsOf (line : String) : String × List String :=
  match Text.splitOn ' ' line with
  | [] => ("", [])
  | first :: rest => (first, rest)

/-- Resolves a name with arguments through at most so many aliases, none of them visited before. -/
def resolveWithin (t : Aliases) :
    Nat → List String → String → List String → Except Text.NumberError Resolution
  | 0, _, name, _ => .ok (.tooDeep name)
  | budget + 1, visited, name, args =>
    if visited.contains name then .ok (.cycle name)
    else
      match t.find? name with
      | none => .ok .undefined
      | some a =>
        match Alias.substitute a.command args with
        | .error e => .error e
        | .ok line =>
          let (first, rest) := wordsOf line
          if t.contains first then resolveWithin t budget (name :: visited) first rest
          else .ok (.line line)

/-- Resolves a name with arguments into a command line. -/
def resolve (t : Aliases) (name : String) (args : List String) :
    Except Text.NumberError Resolution :=
  resolveWithin t maxDepth [] name args

/-! ## In documents -/

/-- The object that writes an alias. -/
def aliasToJson (a : Alias) : Json :=
  .obj [("name", .str a.name), ("command", .str a.command), ("createdAt", .str a.createdAt.text)]

/-- The aliases as the items of an array, by increasing name. -/
def toJson (t : Aliases) : List Json :=
  t.inOrder.map aliasToJson

/-- A value in the place of an alias that cannot even be refused. -/
inductive DataError where
  /-- The command is not a text. -/
  | commandNotText (v : Json)
  /-- The name is a value without a length. -/
  | nameHasNoLength (v : Json)
  /-- The name has a length but is not a text. -/
  | nameNotText (v : Json)
  /-- The aliases are not given as a list. -/
  | notAList (v : Json)

/-- The message for a value in the place of an alias. -/
def DataError.message : DataError → String
  | .commandNotText v => "'" ++ v.typeName ++ "' object has no attribute 'strip'"
  | .nameHasNoLength v => "object of type '" ++ v.typeName ++ "' has no len()"
  | .nameNotText v => "expected string or bytes-like object, got '" ++ v.typeName ++ "'"
  | .notAList v => "'" ++ v.typeName ++ "' object is not iterable"

/-- The command of an entry; a value that counts as false is an empty one. -/
def commandOf (v : Json) : Except DataError String :=
  match v with
  | .str s => .ok s
  | v => if v.isTruthy then .error (.commandNotText v) else .ok ""

/-- The name of an entry, or `none` for a value that is refused as a name. -/
def nameOf (v : Json) : Except DataError (Option String) :=
  match v with
  | .str s => .ok (some s)
  | .arr items =>
    if items.isEmpty || Alias.maxNameLength < items.length then .ok none
    else .error (.nameNotText v)
  | .obj fields =>
    if fields.isEmpty || Alias.maxNameLength < fields.length then .ok none
    else .error (.nameNotText v)
  | v => if v.isTruthy then .error (.nameHasNoLength v) else .ok none

/-- Sets the alias that an entry writes, with the date that it gives. -/
def addEntry (t : Aliases) (now : Timestamp) (fields : Table Json) :
    Except DataError (Except Rejection Aliases) := do
  let command ← commandOf ((fields.find? "command").getD (.str ""))
  let name := (fields.find? "name").getD (.str "")
  match ← nameOf name with
  | none => return .error (.badName name.shown)
  | some name =>
    match t.set now name command with
    | .error r => return .error r
    | .ok t =>
      let createdAt := Timestamp.ofJson now (fields.find? "createdAt")
      return .ok (t.adjust name fun a => { a with createdAt })

/-- What reading a list of aliases has come to: the aliases so far, the refused ones, and the value
that ended it early. -/
structure Loaded where
  aliases : Aliases := []
  rejections : List Rejection := []
  error : Option DataError := none

/-- Reads the entries one after another; what is not an object is passed over. -/
def Loaded.read (now : Timestamp) (l : Loaded) : List Json → Loaded
  | [] => l
  | .obj fields :: rest =>
    match addEntry l.aliases now fields with
    | .error e => { l with error := some e }
    | .ok (.error r) => Loaded.read now { l with rejections := l.rejections ++ [r] } rest
    | .ok (.ok aliases) => Loaded.read now { l with aliases } rest
  | _ :: rest => Loaded.read now l rest

/-- The aliases that a value lists. A text or an object lists nothing that is an alias, and a value
that counts as false lists nothing at all. -/
def ofJson (now : Timestamp) (v : Json) : Loaded :=
  match v with
  | .arr items => Loaded.read now {} items
  | .str _ | .obj _ => {}
  | v => if v.isTruthy then { error := some (.notAList v) } else {}

end Aliases

end VirtualShell
