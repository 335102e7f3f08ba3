import VirtualShell.Log
import VirtualShell.Pattern.Match

/-!
# Scripts

The files that `source` reads and that a session reads when it starts. Of a script only the lines
that define aliases or export variables take effect; other commands are noted and never run. An
alias whose command looks dangerous is refused.
-/

namespace VirtualShell

/-! ## Checking aliases -/

namespace Alias

/-- Commands that a script or a user may not hide behind an alias. -/
def dangerous : List Pattern :=
  let lit := Pattern.literal
  let seq := Pattern.sequence
  [ seq [lit "rm", .someBlanks, lit "-rf", .someBlanks, lit "/"],
    seq [lit ">", .blanks, lit "/dev/null", .blanks, lit "2>&1", .anything, lit "rm"],
    seq [lit "eval", .blanks, lit "("],
    seq [lit "$(", .anything, lit ")"],
    seq [lit "`", .anything, lit "`"],
    seq [.wordBorder, lit "mkfs", .wordBorder],
    seq [.wordBorder, lit "dd", .someBlanks, lit "if="],
    seq [lit ":()", .blanks, lit "\x7b"] ]

/-- Whether a command looks dangerous. -/
def isDangerous (command : String) : Bool :=
  dangerous.any fun p => p.search command.toList

/-- Why an alias may not be defined. -/
inductive Fault where
  | emptyName
  | badName
  | emptyCommand
  | dangerousCommand
  deriving DecidableEq, Repr

/-- The message for an alias that may not be defined. -/
def Fault.message : Fault → String
  | .emptyName => "Alias name cannot be empty"
  | .badName => "Invalid alias name. Use only letters, numbers, and underscores"
  | .emptyCommand => "Alias command cannot be empty"
  | .dangerousCommand => "Potentially dangerous command detected"

/-- Why a name and a command may not be an alias, if they may not. -/
def validate (name command : String) : Option Fault :=
  if Text.isBlankText name then some .emptyName
  else if !isValidName name then some .badName
  else if Text.isBlankText command then some .emptyCommand
  else if isDangerous command then some .dangerousCommand
  else none

end Alias

namespace Script

/-! ## Lines -/

/-- What a line of a script is. -/
inductive LineKind where
  | empty
  | comment
  | defineAlias (name command : String)
  | exportVariable (name value : String)
  | command
  | error (message : String)
  deriving DecidableEq, Repr

/-- A line of a script without the blanks around it; lines count from one. -/
structure Line where
  number : Nat
  content : String
  kind : LineKind
  deriving DecidableEq, Repr

/-- The name and the value of a definition: a keyword, blanks, an identifier, and an equals sign
with blanks around it or not. -/
def readDefinition? (keyword : String) (cs : List Char) : Option (List Char × List Char) :=
  if keyword.toList.isPrefixOf cs then
    let rest := cs.drop keyword.length
    let body := Text.trimStart rest
    let name := body.takeWhile Text.isNameChar
    match Text.trimStart (body.drop name.length) with
    | '=' :: value =>
      if rest.length != body.length && Text.isIdentifier name then
        some (name, Text.trimStart value)
      else none
    | _ => none
  else none

/-- A quote character. -/
def isQuote (c : Char) : Bool :=
  c == '"' || c == '\''

/-- What stands between a quote character at the start and one at the end. -/
def unquote? (cs : List Char) : Option (List Char) :=
  match cs with
  | q :: rest =>
    if isQuote q && rest.getLast?.any isQuote then some rest.dropLast else none
  | [] => none

/-- The name and the command of an alias definition. -/
def readAlias? (cs : List Char) : Option (String × String) := do
  let (name, value) ← readDefinition? "alias" cs
  match unquote? value with
  | some inner => some (String.ofList name, String.ofList (Text.trim inner))
  | none =>
    if value.isEmpty then none
    else some (String.ofList name, String.ofList (Text.trim value))

/-- The name and the value of an export: the value holds no quote characters, but may have one
before and one behind it. -/
def readExport? (cs : List Char) : Option (String × String) := do
  let (name, value) ← readDefinition? "export" cs
  let inner := if value.head?.any isQuote then value.drop 1 else value
  let plain := inner.takeWhile fun c => !isQuote c
  if (inner.drop plain.length).length ≤ 1 then
    some (String.ofList name, String.ofList plain)
  else none

/-- What a line without blanks around it is. -/
def classify (content : String) : LineKind :=
  let cs := content.toList
  if cs.isEmpty then .empty
  else if cs.head? = some '#' then .comment
  else
    match readAlias? cs with
    | some (name, command) =>
      match Alias.validate name command with
      | some fault => .error fault.message
      | none => .defineAlias name command
    | none =>
      match readExport? cs with
      | some (name, value) => .exportVariable name value
      | none =>
        if Text.hasStart "alias " content then
          .error "Invalid alias syntax. Use: alias name='command'"
        else .command

/-- The lines of a script. -/
def parse (text : String) : List Line :=
  if text = "" then []
  else
    (Text.splitOn '\n' text).zipIdx.map fun (raw, i) =>
      let content := Text.strip raw
      { number := i + 1, content, kind := classify content }

/-- The message of a line that is wrong. -/
def Line.error? (l : Line) : Option String :=
  match l.kind with
  | .error message => some ("Line " ++ Text.natText l.number ++ ": " ++ message)
  | _ => none

/-- The messages of the lines that are wrong. -/
def errors (script : List Line) : List String :=
  script.filterMap Line.error?

/-! ## Applying a script -/

/-- What applying a script has changed. -/
structure Execution where
  aliases : List String := []
  exports : List String := []
  skipped : List String := []
  errors : List String := []
  deriving DecidableEq, Repr

/-- Whether everything went well. -/
def Execution.success (e : Execution) : Bool :=
  e.errors.isEmpty

/-- What the application of a script goes through. The environment may be missing, in which case
exports are passed over. -/
structure Progress where
  aliases : Aliases
  environment : Option Environment
  execution : Execution := {}
  notes : List Note := []

/-- Applies one line. -/
def Progress.step (now : Timestamp) (p : Progress) (l : Line) : Progress :=
  let done := p.execution
  match l.kind with
  | .defineAlias name command =>
    match p.aliases.set now name command with
    | .ok aliases =>
      { p with aliases, execution := { done with aliases := done.aliases ++ [name] } }
    | .error r =>
      { p with
        execution := { done with errors := done.errors ++ ["Failed to set alias: " ++ name] }
        notes := p.notes ++ [.ofAliasRejection r] }
  | .exportVariable name value =>
    match p.environment with
    | none => p
    | some e =>
      match e.set name value with
      | .ok e =>
        { p with
          environment := some e
          execution := { done with exports := done.exports ++ [name] } }
      | .error r =>
        { p with
          execution := { done with errors := done.errors ++ ["Failed to export: " ++ name] }
          notes := p.notes ++ [.ofVariableRejection name r] }
  | .command => { p with execution := { done with skipped := done.skipped ++ [l.content] } }
  | _ => p

/-- Applies the lines of a script one after another. -/
def apply (now : Timestamp) (aliases : Aliases) (environment : Option Environment)
    (script : List Line) : Progress :=
  let p := script.foldl (Progress.step now)
    { aliases, environment, execution := { errors := errors script } }
  if p.execution.success then p
  else
    let count := Text.natText p.execution.errors.length
    { p with notes := p.notes ++
        [.warning .scripts ("script applied with " ++ count ++ " error(s)")] }

end Script

end VirtualShell
