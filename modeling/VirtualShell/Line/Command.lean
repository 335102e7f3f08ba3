import VirtualShell.Line.Quoting
import VirtualShell.Text.Number

/-!
# Single commands

A command is a word with its arguments, and perhaps a redirection of its output or its input. The
redirection is found on the whole text before that is cut into tokens: it is the first unquoted `>`
or `>>`, or else the first unquoted `<` or `<<`, provided that both sides of it hold something and
no further sign of the same direction follows. Where that fails, the sign is an ordinary character.
-/

namespace VirtualShell

namespace Line

/-- The longest line that is read. -/
def maxLength : Nat := 1000

/-- The longest name that a redirection may have. -/
def maxTargetLength : Nat := 255

/-- Why a line is not read. -/
inductive ParseError where
  | lineTooLong
  | targetTooLong
  | forbiddenTarget
  | brokenChain
  | mixedPipes
  deriving DecidableEq, Repr

/-- The message for a line that is not read. -/
def ParseError.message : ParseError → String
  | .lineTooLong => "Command too long (max " ++ Text.natText maxLength ++ " characters)"
  | .targetTooLong => "Filename too long"
  | .forbiddenTarget => "Invalid filename: contains forbidden characters"
  | .brokenChain => "Invalid command chain syntax"
  | .mixedPipes =>
    "Cannot mix pipe operators (|) with other chaining operators (&&, ||, ;)"

end Line

/-- Where the output of a command goes. -/
structure OutputRedirect where
  /-- Behind the present content of the file, instead of in its place. -/
  append : Bool
  target : String
  deriving DecidableEq, Repr

/-- The sign of an output redirection. -/
def OutputRedirect.sign (r : OutputRedirect) : String :=
  if r.append then ">>" else ">"

/-- Where the input of a command comes from. -/
structure InputRedirect where
  /-- From lines that follow the command, up to a mark, instead of from a file. -/
  inline : Bool
  source : String
  deriving DecidableEq, Repr

/-- The sign of an input redirection. -/
def InputRedirect.sign (r : InputRedirect) : String :=
  if r.inline then "<<" else "<"

/-- A single command. The word of an empty line is empty. -/
structure Command where
  word : String
  args : List String := []
  output : Option OutputRedirect := none
  input : Option InputRedirect := none
  deriving DecidableEq, Repr

namespace Command

/-- Whether there is nothing to run. -/
def isEmpty (c : Command) : Bool :=
  c.word == ""

/-- The command in one line: its word, its arguments and its redirections. -/
def text (c : Command) : String :=
  let input := match c.input with
    | some r => [r.sign, r.source]
    | none => []
  let output := match c.output with
    | some r => [r.sign, r.target]
    | none => []
  Text.joinWith " " (c.word :: c.args ++ input ++ output)

end Command

namespace Line

/-- The two sides of a redirection, and whether its sign is doubled. -/
structure Split where
  left : List Char
  doubled : Bool
  right : List Char
  deriving DecidableEq, Repr

/-- Cuts a text at its first unquoted redirection sign of a direction. There is no redirection where
a side is blank or the right side holds another such sign. -/
def splitRedirection? (sign : Char) (cs : List Char) : Option Split :=
  match plainPositions sign cs with
  | [] => none
  | i :: _ =>
    let doubled := cs[i + 1]? == some sign
    let left := Text.trim (cs.take i)
    let right := Text.trim (cs.drop (if doubled then i + 2 else i + 1))
    if left.isEmpty || right.isEmpty || !(plainPositions sign right).isEmpty then none
    else some { left, doubled, right }

/-- The text without one quote character at its start and one at its end. -/
def unquoteEnds (cs : List Char) : List Char :=
  let cs := if cs.head?.any isQuote then cs.drop 1 else cs
  if cs.getLast?.any isQuote then cs.dropLast else cs

/-- The name that a redirection goes to or comes from. A name that is too long, or that could lead
out of its directory, is refused. -/
def readTarget (cs : List Char) : Except ParseError String :=
  let target := unquoteEnds (Text.trim cs)
  if maxTargetLength < target.length then .error .targetTooLong
  else if target.contains '\x00' || Text.hasPair '.' '.' target then .error .forbiddenTarget
  else .ok (String.ofList target)

/-- The word and the arguments of a text without redirections. -/
def readWords (cs : List Char) : Command :=
  match tokens cs with
  | [] => { word := "" }
  | word :: args => { word := String.ofList word, args := args.map String.ofList }

/-- The text of a line without the blanks around it, unless it is too long. -/
def trimLine (cs : List Char) : Except ParseError (List Char) :=
  let text := Text.trim cs
  if maxLength < text.length then .error .lineTooLong else .ok text

/-- Reads a single command. -/
def readCommand (cs : List Char) : Except ParseError Command := do
  let text ← trimLine cs
  match splitRedirection? '>' text with
  | some split =>
    let target ← readTarget split.right
    return { readWords split.left with output := some { append := split.doubled, target } }
  | none =>
    match splitRedirection? '<' text with
    | some split =>
      let source ← readTarget split.right
      return { readWords split.left with input := some { inline := split.doubled, source } }
    | none => return readWords text

end Line

/-- Reads a single command from a string. -/
def Command.parse (line : String) : Except Line.ParseError Command :=
  Line.readCommand line.toList

end VirtualShell
