import Std.Time.DateTime.Timestamp
import VirtualShell.Application

/-!
# Running the program

The program on a real host: it reads the clock, files and lines, and writes what the shell has to
say. All decisions are made elsewhere.
-/

open VirtualShell Application

namespace VirtualShell.Main

/-- The time on the clock of the host. -/
def currentTime : IO Timestamp := do
  return .ofEpochSeconds (← Std.Time.Timestamp.now).toSecondsSinceUnixEpoch.val.toNat

/-- The first part of the name of the host. -/
def hostname : IO String := do
  let name ← try IO.FS.readFile "/etc/hostname" catch _ => pure "localhost"
  return (Text.splitOn '.' (Text.strip name)).headD ""

/-- Writes a text that does not end a line. -/
def write (text : String) : IO Unit := do
  let out ← IO.getStdout
  out.putStr text
  out.flush

/-- Runs an action of the shell at the present time, and writes its notes. A broken session ends the
program. -/
def perform {α : Type} (r : CommandLine.Request) (action : Shell α) (s : Session) :
    IO (α × Session) := do
  let step := action.run (← currentTime) s
  IO.eprint (shownNotes r step.notes)
  match step.outcome with
  | .ok a => return (a, step.session)
  | .error e => throw (IO.userError e.message)

/-- The rounds of a conversation. -/
partial def rounds (c : Terminal.Config) (r : CommandLine.Request) (h : History) (s : Session) :
    IO Session := do
  match c.prompt s.fileSystem.cwd with
  | .error e =>
    write (Terminal.errorLine e.message)
    return s
  | .ok prompt =>
    write prompt
    let line ← (← IO.getStdin).getLine
    if line.isEmpty then
      write "\n"
      return s
    let typed := String.ofList (Text.dropFinalNewline line.toList)
    let (turn, s) ← perform r (Terminal.round c h (.line typed)) s
    write turn.shown
    if turn.goesOn then rounds c r turn.history s else return s

/-- Works on a session, and gives the session in the end and the exit code. -/
def work (c : Terminal.Config) (r : CommandLine.Request) (s : Session) : IO (Session × Int) := do
  let (history, s) ← perform r (Terminal.start c) s
  match given r.command with
  | some line =>
    let (done, s) ← perform r (Application.runCommand c line) s
    write done.shown
    return (s, done.exitCode)
  | none =>
    write Terminal.welcome
    let s ← rounds c r history s
    write Terminal.goodbye
    return (s, 0)

/-- The session that the program works on. -/
def openSession (c : Terminal.Config) (r : CommandLine.Request) : IO (Except Crash Opened) := do
  match given r.load with
  | none => return openNew c (← currentTime)
  | some path =>
    try return restore (← currentTime) (← IO.FS.readFile path)
    catch e => return .ok { session := .error (cannotLoad path (toString e)) }

/-- Saves the session if asked for, and gives the exit code. -/
def save (r : CommandLine.Request) (s : Session) (exitCode : Int) : IO Int := do
  match given r.save with
  | none => return exitCode
  | some path =>
    try
      IO.FS.writeFile path (Document.save (← currentTime) s)
      return exitCode
    catch e =>
      IO.eprint (complaint (cannotSave path (toString e)))
      return 1

/-- Runs the program as the command line asks for. -/
def run (r : CommandLine.Request) : IO Int := do
  let c := configFor r (← hostname) (← (← IO.getStdout).isTty)
  match ← openSession c r with
  | .error e => throw (IO.userError e.message)
  | .ok opened =>
    IO.eprint (shownNotes r opened.notes)
    match opened.session with
    | .error message =>
      IO.eprint (complaint message)
      return 1
    | .ok s =>
      let (s, exitCode) ← work c r s
      save r s exitCode

end VirtualShell.Main

/-- The program. -/
def main (arguments : List String) : IO UInt32 := do
  match CommandLine.read arguments with
  | .ok r => return (← Main.run r).toNat.toUInt32
  | .error stop =>
    let outcome := stopped stop []
    IO.print outcome.stdout
    IO.eprint outcome.stderr
    return outcome.exitCode.toNat.toUInt32
