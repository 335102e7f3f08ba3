import VirtualShell.Builtin.Input
import VirtualShell.Builtin.Manual

/-!
# Aliases, variables and the host

The commands that define and remove aliases and variables, apply scripts, show help, manual pages
and the history, and ask the host to act.
-/

namespace VirtualShell.Builtin

/-! ## Aliases -/

/-- Splits `NAME=command` at its first equals sign, if a name for an alias stands before that. -/
def aliasAssignment? (arg : String) : Option (String × String) :=
  let cs := arg.toList
  let name := cs.takeWhile (· != '=')
  match cs.drop name.length with
  | _ :: command =>
    if Alias.isWord name then some (String.ofList name, String.ofList command) else none
  | [] => none

/-- Defines an alias; tells what is wrong with it, if anything. -/
def defineOne (name command : String) : Shell (Option String) := do
  match Alias.validate name command with
  | some fault => return some ("alias: " ++ fault.message)
  | none =>
    let now ← Shell.now
    match (← Shell.session).aliases.set now name command with
    | .ok aliases =>
      Shell.modify fun s => { s with aliases }
      return none
    | .error r =>
      Shell.note (.ofAliasRejection r)
      return some ("alias: invalid alias '" ++ name ++ "'")

/-- Goes through the arguments of `alias`, defining or showing; `shown` holds what is shown so
far. -/
def aliasArguments (shown : List String) : List String → Shell Result
  | [] => return .say (Text.joinWith "\n" shown)
  | arg :: rest => do
    match aliasAssignment? arg with
    | some (name, command) =>
      match ← defineOne name (Text.strip command) with
      | some message => return .fail message
      | none => aliasArguments shown rest
    | none =>
      match (← Shell.session).aliases.command? arg with
      | none => return .fail ("alias: " ++ arg ++ ": not found")
      | some command => aliasArguments (shown ++ [Alias.format arg command]) rest

/-- Defines or shows aliases; without arguments, all are shown. -/
def runAlias (args : List String) : Shell Result :=
  if args.isEmpty then
    Shell.query fun s => return .say (Text.joinWith "\n" s.aliases.listing)
  else aliasArguments [] args

/-- Removes the alias of a name. -/
def unaliasOne (name : String) : Shell (Option String) := do
  if (← Shell.session).aliases.contains name then
    Shell.modify fun s => { s with aliases := s.aliases.erase name }
    return none
  else return some ("unalias: " ++ name ++ ": not found")

/-- Removes aliases, or all of them. -/
def runUnalias (args : List String) : Shell Result := do
  match args with
  | [] => return .fail "unalias: missing operand"
  | "-a" :: _ =>
    Shell.modify fun s => { s with aliases := [] }
    return .ok
  | names => forEach names unaliasOne

/-- Applies the aliases and exports of a file. -/
def runSource (args : List String) : Shell Result := do
  match args with
  | [] => return .fail "source: missing operand"
  | filename :: _ =>
    match ← Shell.query fun s => readFile s "source" filename with
    | .error message => return .fail message
    | .ok content =>
      let execution ← Session.applyScript content
      let summary := "Applied " ++ Text.natText execution.aliases.length ++ " aliases and "
        ++ Text.natText execution.exports.length ++ " exports from " ++ filename
      if execution.success then return .say summary
      else
        return {
          success := false
          output := .text (summary ++ "\n")
          error := some (Text.joinWith "\n" (execution.errors.map ("source: " ++ ·)))
          exitCode := 1 }

/-! ## Variables -/

/-- Sets a variable from `NAME=value`; a name alone keeps its value, or gets an empty one. -/
def exportOne (arg : String) : Shell (Option String) := do
  let environment := (← Shell.session).environment
  let (name, value) :=
    (Variable.parseAssignment? arg).getD (arg, (environment.get? arg).getD "")
  match environment.set name value with
  | .error r => return some ("export: " ++ r.message)
  | .ok environment =>
    Shell.modify fun s => { s with environment }
    return none

/-- Sets variables; without arguments, all are shown. -/
def runExport (args : List String) : Shell Result :=
  if args.isEmpty then
    Shell.query fun s =>
      let rows := s.environment.inOrder.map fun (name, value) =>
        "declare -x " ++ name ++ "=\"" ++ value ++ "\""
      return .say (Text.joinWith "\n" rows)
  else forEach args exportOne

/-- Shows all variables. -/
def runEnv : Shell Result :=
  Shell.query fun s =>
    let rows := s.environment.inOrder.map fun (name, value) => name ++ "=" ++ value
    return .say (Text.joinWith "\n" rows)

/-- Removes a variable; one that is not there is no mistake. -/
def unsetOne (name : String) : Shell (Option String) := do
  if Variable.reserved.contains name then
    return some ("unset: " ++ name ++ ": cannot unset reserved variable")
  else
    Shell.modify fun s =>
      { s with environment := (s.environment.unset? name).getD s.environment }
    return none

/-- Removes variables. -/
def runUnset (args : List String) : Shell Result :=
  if args.isEmpty then return .fail "unset: missing operand" else forEach args unsetOne

/-! ## Help -/

/-- The file that keeps the history. -/
def historyFile : Path := Path.home ++ [".history"]

/-- The lines of a text that are not blank. -/
def entryLines (text : String) : List String :=
  (Text.splitOn '\n' text).filter fun line => !Text.isBlankText line

/-- Shows the history with numbers. -/
def runHistory : Shell Result :=
  Shell.query fun s => do
    let nothing := Result.say "No command history available"
    match ← (s.fileSystem.node? historyFile).mapError Fault.tree with
    | some (.file _ content) =>
      if content = "" then return nothing
      else
        let rows := (entryLines content).zipIdx.map fun (line, i) =>
          Text.padStart 4 (Text.natText (i + 1)) ++ "  " ++ line
        return .say (Text.joinWith "\n" rows)
    | _ => return nothing

/-- The directory of the manual pages. -/
def manDirectory : Path := ["usr", "share", "man", "man1"]

/-- Shows a manual page. -/
def runMan (args : List String) : Shell Result :=
  Shell.query fun s => do
    match args with
    | [] => return .fail "What manual page do you want?"
    | page :: _ =>
      match ← (s.fileSystem.node? (manDirectory ++ [page ++ ".1"])).mapError Fault.tree with
      | some (.file _ content) => return .say content
      | _ => return .fail ("No manual entry for " ++ page)

/-- The width of the longest name of a command. -/
def nameWidth : Nat :=
  (names.map String.length).foldl max 0

/-- A section of help: a heading, the lines indented, and an empty line. -/
def helpSection (heading : String) (ls : List String) : List String :=
  if ls.isEmpty then [] else heading :: ls.map ("    " ++ ·) ++ [""]

/-- The overview of all commands. -/
def helpOverview : String :=
  let rows := all.map fun b => "  " ++ Text.padEnd nameWidth b.name ++ "  " ++ b.sections.description
  Text.joinWith "\n"
    (["Available commands:", ""] ++ rows ++ ["", "Type 'help COMMAND' for details."])

/-- The help for one command. -/
def helpFor (b : Builtin) : String :=
  let m := b.sections
  let usage := if m.usage = "" then [] else [m.usage]
  Text.dropTrailing '\n' (Text.joinWith "\n"
    ([b.name ++ " - " ++ m.description, ""] ++ helpSection "Usage:" usage
      ++ helpSection "Options:" m.options ++ helpSection "Examples:" m.examples))

/-- Shows help for all commands or for one. -/
def runHelp (args : List String) : Result :=
  match args with
  | [] => .say helpOverview
  | name :: _ =>
    match ofName? name with
    | some b => .say (helpFor b)
    | none => .fail ("help: no help available for '" ++ name ++ "'")

/-! ## The host -/

/-- Asks the host to open the editor on a file, which need not be there yet. -/
def runVi (args : List String) : Shell Result :=
  Shell.query fun s => do
    match args with
    | [] => return .fail "vi: missing filename argument"
    | filename :: _ =>
      match ← (s.fileSystem.named? filename).mapError Fault.tree with
      | none => return .request (.openEditor filename "")
      | some (.file _ content) => return .request (.openEditor filename content)
      | some _ => return .fail ("vi: " ++ filename ++ ": Is a directory")

end VirtualShell.Builtin
