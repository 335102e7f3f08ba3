import VirtualShell.CommandLine
import VirtualShell.Document
import VirtualShell.Host
import VirtualShell.Terminal.Conversation

/-!
# The program

The program opens a terminal as its command line asks for: on a new session, or on one that was
saved to a file. It runs a single command or holds a conversation, and may save the session in the
end. Here the user and the files of the host are values, so a whole run is a function of them.
-/

namespace VirtualShell.Application

open CommandLine (Request)

/-! ## What the program makes of its command line -/

/-- A value that was given and is not empty. -/
def given (value : Option String) : Option String :=
  value.filter (· != "")

/-- The settings of the terminal. There are colors only where someone looks at them. -/
def configFor (r : Request) (hostname : String) (isTerminal : Bool) : Terminal.Config :=
  { user := r.user
    hostname
    startDirectory := r.directory
    colors := !r.noColor && isTerminal
    readsStartFile := !r.noStartFile }

/-- The notes that are shown, each on a line. -/
def shownNotes (r : Request) (notes : List Note) : String :=
  let shown := if r.verbose then notes else notes.filter (·.level = .warning)
  String.join (shown.map fun n => n.line ++ "\n")

/-- A message of the program itself. -/
def complaint (message : String) : String :=
  "memshell: " ++ message ++ "\n"

/-- What is said to someone whose command line was not understood. -/
def usageError (message : String) : String :=
  CommandLine.usage ++ complaint ("error: " ++ message)

/-! ## Saved states -/

/-- Something that ends the program in the middle of its work. -/
inductive Crash where
  /-- The saved aliases hold a value that cannot even be refused. -/
  | badAlias (e : Aliases.DataError)
  /-- A path of the host holds a NUL. -/
  | badPath
  /-- The session is broken. -/
  | fault (e : Fault)

/-- The message of a crash. -/
def Crash.message : Crash → String
  | .badAlias e => e.message
  | .badPath => "embedded null byte"
  | .fault e => e.message

/-- What opening a session has come to: the session, or the message that says why there is none. -/
structure Opened where
  session : Except String Session
  notes : List Note := []

/-- A session with the state of a document. -/
def restore (now : Timestamp) (text : String) : Except Crash Opened :=
  let notes := Document.loadNotes text
  match Document.load now text with
  | .error e => .ok { session := .error e.message, notes }
  | .ok d =>
    let applied := d.apply now (Session.new (DefaultTree.fileSystem now))
    match applied.error with
    | some e => .error (.badAlias e)
    | none => .ok { session := .ok applied.session, notes := notes ++ applied.notes }

/-- The message for a state that cannot be loaded. -/
def cannotLoad (path reason : String) : String :=
  "cannot load state from " ++ path ++ ": " ++ reason

/-- The message for a state that cannot be saved. -/
def cannotSave (path reason : String) : String :=
  "cannot save state to " ++ path ++ ": " ++ reason

/-- A path of the host, in which no NUL may stand. -/
def checkPath (path : String) : Except Crash Unit :=
  if path.toList.contains '\x00' then .error .badPath else .ok ()

/-- A new session as the settings ask for it. -/
def openNew (c : Terminal.Config) (now : Timestamp) : Except Crash Opened :=
  let step := Terminal.newSession c now
  match step.outcome with
  | .error e => .error (.fault e)
  | .ok () => .ok { session := .ok step.session, notes := step.notes }

/-! ## The work -/

/-- What is left of the work: all that was shown, and an exit code. -/
structure Done where
  shown : String
  exitCode : Int := 0

/-- Runs a single command. -/
def runCommand (c : Terminal.Config) (line : String) : Shell Done := do
  let shown ← Terminal.runLine c line
  return { shown := Terminal.lineOf (shown.getD ""), exitCode := (← Shell.session).lastExitCode }

/-- Opens the terminal, and runs the command or holds a conversation. -/
def work (c : Terminal.Config) (r : Request) (replies : List Terminal.Reply) : Shell Done := do
  let history ← Terminal.start c
  match given r.command with
  | some line => runCommand c line
  | none =>
    let (shown, _) ← Terminal.converse c replies history
    return { shown }

/-! ## A whole run -/

/-- What surrounds the program. -/
structure Host where
  hostname : String
  /-- Whether a terminal shows what the program writes. -/
  isTerminal : Bool := false
  replies : List Terminal.Reply := []
  files : HostFiles := []

/-- What a run of the program leaves. -/
structure Outcome where
  exitCode : Int := 0
  stdout : String := ""
  stderr : String := ""
  files : HostFiles := []

/-- The outcome of a command line that does not let the program run. -/
def stopped (stop : CommandLine.Stop) (files : HostFiles) : Outcome :=
  match stop.message? with
  | none => { stdout := CommandLine.help, files }
  | some message => { exitCode := 2, stderr := usageError message, files }

/-- The session that the program works on. -/
def openSession (now : Timestamp) (host : Host) (c : Terminal.Config) (r : Request) :
    Except Crash Opened := do
  match given r.load with
  | none => openNew c now
  | some path =>
    checkPath path
    match host.files.read path with
    | .error e => return { session := .error (cannotLoad path (e.message path)) }
    | .ok text => restore now text

/-- Saves the session, if asked for, and ends the run. -/
def finish (now : Timestamp) (r : Request) (s : Session) (o : Outcome) : Except Crash Outcome := do
  match given r.save with
  | none => return o
  | some path =>
    checkPath path
    match o.files.write path (Document.save now s) with
    | .error e =>
      return { o with
        exitCode := 1, stderr := o.stderr ++ complaint (cannotSave path (e.message path)) }
    | .ok files => return { o with files }

/-- A run of the program. -/
def run (now : Timestamp) (host : Host) (arguments : List String) : Except Crash Outcome := do
  match CommandLine.read arguments with
  | .error stop => return stopped stop host.files
  | .ok r =>
    let c := configFor r host.hostname host.isTerminal
    let opened ← openSession now host c r
    let early := shownNotes r opened.notes
    match opened.session with
    | .error message =>
      return { exitCode := 1, stderr := early ++ complaint message, files := host.files }
    | .ok session =>
      let step := (work c r host.replies).run now session
      match step.outcome with
      | .error e => throw (.fault e)
      | .ok done =>
        finish now r step.session {
          exitCode := done.exitCode
          stdout := done.shown
          stderr := early ++ shownNotes r step.notes
          files := host.files }

end VirtualShell.Application
