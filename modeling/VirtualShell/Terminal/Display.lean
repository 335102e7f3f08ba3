import VirtualShell.Path
import VirtualShell.Result
import VirtualShell.Terminal.Template

/-!
# What a terminal shows

The settings of a terminal, and what they make of a prompt and of the result of a line. With colors,
the prompt has a fixed form and styled output is colored; without them, the prompt follows a
template and output is plain.
-/

namespace VirtualShell.Terminal

/-- The settings of a terminal. -/
structure Config where
  user : String := "user"
  hostname : String
  /-- The directory to start in; an empty text counts as none. -/
  startDirectory : Option String := none
  promptTemplate : String := "\x7buser\x7d@\x7bhostname\x7d:\x7bcwd\x7d$ "
  colors : Bool := true
  historyLimit : Int := 1000
  readsStartFile : Bool := true
  mode : String := "default"

/-! ## Colors -/

/-- The sequence that clears the screen and goes to its top. -/
def clearSequence : String := "\x1b[2J\x1b[H"

/-- The sequence that ends a color. -/
def resetSequence : String := "\x1b[0m"

/-- The sequence that starts the color of a style, for the styles that have one. -/
def colorOf? : String → Option String
  | "directory" => some "\x1b[34m"
  | "error" => some "\x1b[31m"
  | "success" => some "\x1b[32m"
  | "info" => some "\x1b[36m"
  | "hidden" => some "\x1b[90m"
  | _ => none

/-- A text in the color of a style. -/
def colored (style text : String) : String :=
  match colorOf? style with
  | some color => color ++ text ++ resetSequence
  | none => text

namespace Config

/-- A text in the color of a style, if the terminal has colors. -/
def paint (c : Config) (style text : String) : String :=
  if c.colors then colored style text else text

/-! ## The prompt -/

/-- The texts that the template of the prompt can name. -/
def promptValues (c : Config) (cwd : Path) : Template.Values :=
  [("user", c.user), ("hostname", c.hostname), ("cwd", cwd.tildeText)]

/-- The prompt in a working directory. -/
def prompt (c : Config) (cwd : Path) : Except Template.Error String :=
  if c.colors then
    .ok (colored "success" (c.user ++ "@" ++ c.hostname) ++ ":" ++ colored "directory" cwd.tildeText
      ++ "$ ")
  else Template.fill (c.promptValues cwd) c.promptTemplate

/-! ## Results -/

/-- The output of a result as it is shown, without the line feeds at its end. -/
def shownOutput (c : Config) (r : Result) : String :=
  let text := match r.output with
    | .text s => s
    | .segments parts => String.join (parts.map fun p => c.paint p.style p.text)
  Text.dropTrailing '\n' text

/-- Two texts on lines of their own, or the second one alone if the first is empty. -/
def stacked (above below : String) : String :=
  if above = "" then below else above ++ "\n" ++ below

/-- A result as it is shown: the output, and the message below it. -/
def render (c : Config) (r : Result) : String :=
  match r.message? with
  | some message => stacked (c.shownOutput r) (c.paint "error" message)
  | none => c.shownOutput r

end Config

/-- What a terminal shows where a command asks something of it. It can clear the screen; it has no
editor. -/
def notice : HostAction → String
  | .clearScreen => clearSequence
  | .openEditor filename content =>
    "vi: " ++ filename ++ " (" ++ Text.natText content.length
      ++ " bytes): no editor is attached to this terminal"

end VirtualShell.Terminal
