import VirtualShell.Json.Basic
import VirtualShell.Path
import VirtualShell.Text.Blank
import VirtualShell.Text.Character

/-!
# Environment variables

Named texts, with ceilings on their number and lengths. A reference `$NAME` or `${NAME}` in a text
is replaced by the value of the variable, and stays as typed where there is none. The text of a
value is not searched for references again.
-/

namespace VirtualShell

namespace Variable

/-- The most variables that there may be. -/
def maxCount : Nat := 100

/-- The longest name. -/
def maxNameLength : Nat := 100

/-- The longest value. -/
def maxValueLength : Nat := 1000

/-- The variables that cannot be removed. -/
def reserved : List String := ["HOME", "USER", "SHELL", "TERM"]

/-- Why a variable is not set. -/
inductive Rejection where
  | badName (name : String)
  | nameTooLong
  | valueTooLong
  | tooMany
  deriving DecidableEq, Repr

/-- The message for a variable that is not set. -/
def Rejection.message : Rejection → String
  | .badName name => "invalid variable name '" ++ name ++ "'"
  | .nameTooLong => "variable name too long (max " ++ Text.natText maxNameLength ++ " characters)"
  | .valueTooLong =>
    "variable value too long (max " ++ Text.natText maxValueLength ++ " characters)"
  | .tooMany => "too many variables (max " ++ Text.natText maxCount ++ ")"

/-- Whether a text may name a variable: an identifier, behind which one line feed may stand. -/
def isName (name : String) : Bool :=
  Text.isIdentifier name.toList || Text.isIdentifier (Text.dropFinalNewline name.toList)

/-- Splits `NAME=value` at its first equals sign, if an identifier stands before that. -/
def parseAssignment? (text : String) : Option (String × String) :=
  let cs := Text.trim text.toList
  let name := cs.takeWhile Text.isNameChar
  match cs.drop name.length with
  | '=' :: value =>
    if Text.isIdentifier name then some (String.ofList name, String.ofList value) else none
  | _ => none

/-! ## References -/

/-- A part of a text: a character, or a reference to a variable with the form in which it was
typed. -/
inductive Piece where
  | char (c : Char)
  | reference (name : List Char) (typed : List Char)
  deriving DecidableEq, Repr

/-- The reference that a text behind a dollar sign starts with, and what follows it: a name in
braces, which is anything but a closing brace, or an identifier. -/
def readReference? (cs : List Char) : Option (Piece × List Char) :=
  match cs with
  | '\x7b' :: rest =>
    let name := rest.takeWhile (· != '\x7d')
    match rest.drop name.length with
    | _ :: tail =>
      if name.isEmpty then none
      else some (.reference name ('$' :: '\x7b' :: name ++ ['\x7d']), tail)
    | [] => none
  | c :: rest =>
    if Text.isNameStart c then
      let name := c :: rest.takeWhile Text.isNameChar
      some (.reference name ('$' :: name), cs.drop name.length)
    else none
  | [] => none

/-- The pieces of a text, in at most so many steps; the length of the text is enough. -/
def piecesWithin : Nat → List Char → List Piece
  | 0, cs => cs.map .char
  | _ + 1, [] => []
  | fuel + 1, c :: rest =>
    if c = '$' then
      match readReference? rest with
      | some (piece, tail) => piece :: piecesWithin fuel tail
      | none => .char c :: piecesWithin fuel rest
    else .char c :: piecesWithin fuel rest

/-- The pieces of a text. -/
def pieces (cs : List Char) : List Piece :=
  piecesWithin cs.length cs

/-- The name in a reference. -/
def Piece.name? : Piece → Option String
  | .char _ => none
  | .reference name _ => some (String.ofList name)

/-- The names that a text refers to, in order, each once. -/
def references (text : String) : List String :=
  ((pieces text.toList).filterMap Piece.name?).eraseDups

/-- A piece with its reference replaced by a value, where there is one. -/
def Piece.expand (value : String → Option String) : Piece → List Char
  | .char c => [c]
  | .reference name typed =>
    match value (String.ofList name) with
    | some v => v.toList
    | none => typed

/-- A text with its references replaced by their values, where there are any. -/
def expand (value : String → Option String) (text : String) : String :=
  String.ofList ((pieces text.toList).flatMap (·.expand value))

end Variable

/-- The variables of a session, and those it started with. -/
structure Environment where
  defaults : Table String
  current : Table String

namespace Environment

/-- The variables that a session starts with. -/
def defaultVariables (cwd : Option Path) (user : String) : Table String := [
  ("HOME", Path.home.text),
  ("USER", user),
  ("SHELL", "/bin/bash"),
  ("TERM", "terminal-emulator"),
  ("PATH", "/usr/bin:/bin:/usr/local/bin"),
  ("LANG", "en_US.UTF-8"),
  ("PWD", (cwd.getD Path.home).text),
  ("TERMINAL_VERSION", "1.0.0"),
  ("EDITOR", "vi")]

/-- The environment of a new session. -/
def new (cwd : Path) (user : String) : Environment :=
  let initial := defaultVariables (some cwd) user
  { defaults := initial, current := initial }

/-- The value of a variable. -/
def get? (e : Environment) (name : String) : Option String :=
  e.current.find? name

/-- Why a variable may not be set to a value, if it may not. -/
def validate (e : Environment) (name value : String) : Option Variable.Rejection :=
  if !Variable.isName name then some (.badName name)
  else if Variable.maxNameLength < name.length then some .nameTooLong
  else if Variable.maxValueLength < value.length then some .valueTooLong
  else if !e.current.contains name && Variable.maxCount ≤ e.current.length then some .tooMany
  else none

/-- Stores a value without any check. -/
def store (e : Environment) (name value : String) : Environment :=
  { e with current := e.current.put name value }

/-- Sets a variable, if it may be set. -/
def set (e : Environment) (name value : String) : Except Variable.Rejection Environment :=
  match e.validate name value with
  | some r => .error r
  | none => .ok (e.store name value)

/-- Removes a variable that is known and not reserved. -/
def unset? (e : Environment) (name : String) : Option Environment :=
  if Variable.reserved.contains name || !e.current.contains name then none
  else some { e with current := e.current.erase name }

/-- The variables by increasing name. -/
def inOrder (e : Environment) : Table String :=
  e.current.sorted

/-- A text with the variables filled in. -/
def expand (e : Environment) (text : String) : String :=
  Variable.expand e.get? text

/-- Notes the working directory in the variable that shows it. -/
def withCwd (e : Environment) (cwd : Path) : Environment :=
  e.store "PWD" cwd.text

/-- The variables that were added or changed since the session started, apart from the one that
shows the working directory. -/
def changed (e : Environment) : Table String :=
  List.filter (fun (name, value) => name ≠ "PWD" ∧ e.defaults.find? name ≠ some value) e.current

/-- What taking over variables has come to. -/
structure Imported where
  environment : Environment
  applied : Nat := 0
  rejections : List (String × Variable.Rejection) := []

/-- Sets each of the given variables whose value is a text, as far as they may be set. -/
def importFrom (e : Environment) (fields : Table Json) : Imported :=
  fields.foldl (fun done (name, v) =>
    match v with
    | .str value =>
      match done.environment.set name value with
      | .ok environment => { done with environment, applied := done.applied + 1 }
      | .error r => { done with rejections := done.rejections ++ [(name, r)] }
    | _ => done) { environment := e }

end Environment

end VirtualShell
