import VirtualShell.Line.Chain
import VirtualShell.Pattern.Reader
import VirtualShell.Script
import VirtualShell.Tree.FileSystem

/-!
# Sessions

A session owns what a shell can change: the file system, the aliases and the environment, with the
mode it was started in and the exit code of the last command. Everything that works on a session is
a `Shell` action: it is told the time, takes the session it finds, and leaves a session behind even
where it fails, so the effects that came before a failure stay.
-/

namespace VirtualShell

/-- What a shell can change. -/
structure Session where
  fileSystem : FileSystem
  aliases : Aliases := []
  environment : Environment
  mode : String := "default"
  lastExitCode : Int := 0

/-! ## Faults -/

/-- Why an action breaks off, as opposed to a command that reports a user's mistake in its result.
-/
inductive Fault where
  /-- A line cannot be read. -/
  | line (e : Line.ParseError)
  /-- The tree is not sound. -/
  | tree (e : TreeFault)
  /-- A number cannot be read. -/
  | number (e : Text.NumberError)
  /-- A pattern asks for something that no search can do. -/
  | pattern (e : Pattern.ReadError)
  /-- An entry was looked for in a directory that has lost its entries. -/
  | searchedLostEntries
  /-- An entry was fetched from a directory that has lost its entries. -/
  | fetchedLostEntries

/-- The message of a fault. -/
def Fault.message : Fault → String
  | .line e => e.message
  | .tree e => e.message
  | .number e => e.message
  | .pattern e => e.message ""
  | .searchedLostEntries => "argument of type 'NoneType' is not iterable"
  | .fetchedLostEntries => "'NoneType' object has no attribute 'get'"

/-! ## Actions -/

/-- What an action has come to: a value or a fault, the session it leaves, and its notes. -/
structure Step (α : Type) where
  outcome : Except Fault α
  session : Session
  notes : List Note := []

/-- An action on a session at a given time. -/
def Shell (α : Type) : Type :=
  Timestamp → Session → Step α

namespace Shell

variable {α β : Type}

/-- Runs an action. -/
def run (action : Shell α) (now : Timestamp) (s : Session) : Step α :=
  action now s

/-- Runs one action after another; a fault ends the run and keeps the session as it is. -/
protected def bind (first : Shell α) (next : α → Shell β) : Shell β := fun now s =>
  let step := first now s
  match step.outcome with
  | .error e => { outcome := .error e, session := step.session, notes := step.notes }
  | .ok a =>
    let step' := next a now step.session
    { step' with notes := step.notes ++ step'.notes }

instance : Monad Shell where
  pure a := fun _ s => { outcome := .ok a, session := s }
  bind := Shell.bind

/-- The session. -/
def session : Shell Session := fun _ s =>
  { outcome := .ok s, session := s }

/-- The time. -/
def now : Shell Timestamp := fun t s =>
  { outcome := .ok t, session := s }

/-- Changes the session. -/
def modify (f : Session → Session) : Shell Unit := fun _ s =>
  { outcome := .ok (), session := f s }

/-- Notes something down. -/
def note (n : Note) : Shell Unit := fun _ s =>
  { outcome := .ok (), session := s, notes := [n] }

/-- Notes several things down. -/
def noteAll (ns : List Note) : Shell Unit := fun _ s =>
  { outcome := .ok (), session := s, notes := ns }

/-- Breaks off, or goes on with a value. -/
def ofExcept (e : Except Fault α) : Shell α := fun _ s =>
  { outcome := e, session := s }

/-- An action that only looks at the session. -/
def query (f : Session → Except Fault α) : Shell α := fun _ s =>
  { outcome := f s, session := s }

/-- Hands a fault of an action over as a value. -/
def attempt (action : Shell α) : Shell (Except Fault α) := fun t s =>
  let step := action t s
  { outcome := .ok step.outcome, session := step.session, notes := step.notes }

/-- The node at a path of the tree. -/
def node? (path : Path) : Shell (Option Node) :=
  query fun s => (s.fileSystem.node? path).mapError .tree

/-- Replaces the file system where a change of it went through; tells whether it did. -/
def changeTree (f : Timestamp → FileSystem → Except TreeFault (Option FileSystem)) : Shell Bool :=
  fun t s =>
    match f t s.fileSystem with
    | .error e => { outcome := .error (.tree e), session := s }
    | .ok none => { outcome := .ok false, session := s }
    | .ok (some fileSystem) => { outcome := .ok true, session := { s with fileSystem } }

end Shell

/-! ## Starting a session -/

namespace Session

/-- The file that a session reads when it starts. -/
def startFile : Path := Path.home ++ [".bashrc"]

/-- A session on a file system, before any file is read. -/
def new (fileSystem : FileSystem) (mode : String := "default") (user : String := "user") :
    Session :=
  { fileSystem, environment := Environment.new fileSystem.cwd user, mode }

/-- Applies a script to the session. -/
def applyScript (text : String) : Shell Script.Execution := fun now s =>
  let p := Script.apply now s.aliases (some s.environment) (Script.parse text)
  { outcome := .ok p.execution
    session := { s with aliases := p.aliases, environment := p.environment.getD s.environment }
    notes := p.notes }

/-- Applies the start file, if there is one. -/
def loadStartFile : Shell (Option Script.Execution) := do
  match ← Shell.node? startFile with
  | some (.file _ content) =>
    let execution ← applyScript content
    Shell.noteAll (execution.errors.map fun message => .warning .session (".bashrc: " ++ message))
    Shell.note (.debug .session ("rc file applied " ++ Text.natText execution.aliases.length
      ++ " aliases, " ++ Text.natText execution.exports.length ++ " exports"))
    return some execution
  | _ => return none

/-- A new session on a file system, in which the start file has been applied if asked for. -/
def launch (now : Timestamp) (fileSystem : FileSystem) (mode user : String)
    (readsStartFile : Bool) : Step Unit :=
  let action := if readsStartFile then loadStartFile else pure none
  (Functor.discard action).run now (new fileSystem mode user)

end Session

end VirtualShell
