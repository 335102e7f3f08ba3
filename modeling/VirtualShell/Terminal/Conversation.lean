import VirtualShell.Completion
import VirtualShell.Execution
import VirtualShell.Terminal.Display
import VirtualShell.Terminal.History
import VirtualShell.Tree.Default

/-!
# Conversations with a user

A terminal runs the lines that a user enters. A conversation goes round by round: the terminal shows
its prompt, the user replies, and the terminal takes the reply up in the history, runs it and shows
the result. It ends when the user asks for that or has nothing more to say.
-/

namespace VirtualShell.Terminal

/-! ## Starting -/

/-- Moves to the directory to start in, if there is one. -/
def enterStartDirectory (c : Config) : Shell Unit := do
  match c.startDirectory with
  | none | some "" => return ()
  | some directory =>
    let path := (← Shell.session).fileSystem.resolve directory
    let node ← Shell.node? path
    if node.any Node.isDirectory then
      Shell.modify fun s =>
        { s with
          fileSystem := { s.fileSystem with cwd := path }
          environment := s.environment.withCwd path }
    else
      Shell.note (.warning .terminal ("initial directory " ++ directory ++ " does not exist"))

/-- Opens a terminal on the session: loads the history and moves to the directory to start in. -/
def start (c : Config) : Shell History := do
  let history ← History.load { limit := c.historyLimit }
  enterStartDirectory c
  return history

/-- A new session on the default tree, as the settings ask for it. -/
def newSession (c : Config) (now : Timestamp) : Step Unit :=
  Session.launch now (DefaultTree.fileSystem now) c.mode c.user c.readsStartFile

/-! ## Single lines -/

/-- The lines that end a conversation. -/
def farewells : List String := ["exit", "quit"]

/-- Runs a line and gives what is shown, or `none` for a line that ends the conversation. -/
def runLine (c : Config) (line : String) : Shell (Option String) := do
  let trimmed := Text.strip line
  if trimmed = "" then return some ""
  if farewells.contains trimmed then return none
  let result ← Execution.execute line
  match result.action with
  | none => return some (c.render result)
  | some action => return some (Config.stacked (c.render result) (notice action))

/-- Runs lines one after another up to one that ends the conversation, and gives what each of them
shows. Empty lines and comments are passed over. -/
def runScript (c : Config) : List String → Shell (List String)
  | [] => return []
  | line :: rest => do
    let trimmed := Text.strip line
    if trimmed = "" || Text.hasStart "#" trimmed then runScript c rest
    else
      match ← runLine c trimmed with
      | none => return []
      | some shown => return shown :: (← runScript c rest)

/-! ## Rounds -/

/-- What a user does at a prompt. -/
inductive Reply where
  | line (text : String)
  | interrupt
  deriving DecidableEq, Repr

/-- What a round leaves: the history, the text that was shown, and whether another round follows. -/
structure Round where
  history : History
  shown : String := ""
  goesOn : Bool := true

/-- A text on a line of its own; an empty text makes no line. -/
def lineOf (text : String) : String :=
  if text = "" then "" else text ++ "\n"

/-- What is shown for an error of the terminal itself. -/
def errorLine (message : String) : String :=
  "Error: " ++ message ++ "\n"

/-- One round behind the prompt. A line that cannot be taken up in the history is not run. -/
def round (c : Config) (h : History) : Reply → Shell Round
  | .interrupt => return { history := h, shown := "^C\n" }
  | .line line => do
    let (history, fault) ← h.record line
    match fault with
    | some fault => return { history, shown := errorLine fault.message }
    | none =>
      match ← runLine c line with
      | none => return { history, goesOn := false }
      | some shown => return { history, shown := lineOf shown }

/-- What is shown before the first round. -/
def welcome : String :=
  "Welcome to memshell\nType 'help' for help, 'exit' to quit\n\n"

/-- What is shown after the last round. -/
def goodbye : String := "Goodbye!\n"

/-- The prompt of the session. -/
def promptNow (c : Config) : Shell (Except Template.Error String) := do
  return c.prompt (← Shell.session).fileSystem.cwd

/-- The rounds of a user who gives these replies and then has nothing more to say: all that is
shown, and the history in the end. Where there is no prompt there is no reply, and what is shown
ends with the reason. -/
def rounds (c : Config) : List Reply → History → Shell (String × History)
  | replies, h => do
    match ← promptNow c with
    | .error e => return (errorLine e.message, h)
    | .ok prompt =>
      match replies with
      | [] => return (prompt ++ "\n", h)
      | reply :: rest =>
        let r ← round c h reply
        if r.goesOn then
          let (shown, h) ← rounds c rest r.history
          return (prompt ++ r.shown ++ shown, h)
        else return (prompt ++ r.shown, r.history)

/-- A whole conversation with a user who gives these replies. -/
def converse (c : Config) (replies : List Reply) (h : History) : Shell (String × History) := do
  let (shown, h) ← rounds c replies h
  return (welcome ++ shown ++ goodbye, h)

/-! ## Line editing -/

/-- How a line editor is set up. -/
structure EditorSetup where
  /-- The characters that end a word. -/
  delimiters : String := " \t\n;|&<>"
  bindings : List String := ["tab: complete"]
  history : List String := []
  deriving DecidableEq, Repr

/-- The setup for a history. -/
def editorSetup (h : History) : EditorSetup :=
  { history := h.entries }

/-- The text before a place in a line; a negative place counts from the end. -/
def textBefore (line : String) (place : Int) : String :=
  if place < 0 then Text.takeChars (line.length - (-place).toNat) line
  else Text.takeChars place.toNat line

/-- What a line editor offers at a place in a line. -/
def editorMatches (s : Session) (line : String) (place : Int) : Except TreeFault (List String) :=
  Completion.candidates Builtin.names s (textBefore line place)

end VirtualShell.Terminal
