import VirtualShell.Result
import VirtualShell.Session

/-!
# The input of commands

Commands that work on text take it from the files they are given, or else from the text that is
piped or redirected into them.
-/

namespace VirtualShell.Builtin

/-- A value, or the message for a user's mistake. -/
abbrev Checked (α : Type) := Except String α

/-- The content of a file, for a command that names itself in its messages. -/
def readFile (s : Session) (command filename : String) : Except Fault (Checked String) := do
  match ← (s.fileSystem.named? filename).mapError Fault.tree with
  | none => return .error (command ++ ": " ++ filename ++ ": No such file or directory")
  | some (.file _ content) => return .ok content
  | some _ => return .error (command ++ ": " ++ filename ++ ": Is a directory")

/-- The contents of files, up to the first that cannot be read. -/
def readFiles (s : Session) (command : String) :
    List String → Except Fault (Checked (List (String × String)))
  | [] => .ok (.ok [])
  | filename :: rest => do
    match ← readFile s command filename with
    | .error message => return .error message
    | .ok content =>
      match ← readFiles s command rest with
      | .error message => return .error message
      | .ok contents => return .ok ((filename, content) :: contents)

/-- The text of all files in a row, or the text that is piped in if there are none. -/
def gatherInput (s : Session) (command : String) (files : List String) (stdin : Option String) :
    Except Fault (Checked String) := do
  if files.isEmpty then
    match stdin with
    | none => return .error (command ++ ": missing file operand")
    | some text => return .ok text
  else
    match ← readFiles s command files with
    | .error message => return .error message
    | .ok contents => return .ok (String.join (contents.map Prod.snd))

/-- A command that turns its input text into output text. -/
def filterText (command : String) (files : List String) (stdin : Option String)
    (f : String → Output) : Shell Result :=
  Shell.query fun s => do
    match ← gatherInput s command files stdin with
    | .error message => return .fail message
    | .ok text => return .ok (f text)

/-- Runs a step for each operand until one reports a mistake; what the steps before it did stays
done. -/
def forEach (operands : List String) (step : String → Shell (Option String)) : Shell Result :=
  match operands with
  | [] => return .ok
  | operand :: rest => do
    match ← step operand with
    | some message => return .fail message
    | none => forEach rest step

end VirtualShell.Builtin
