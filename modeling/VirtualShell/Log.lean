import VirtualShell.Alias.Book
import VirtualShell.Environment

/-!
# Notes

What the shell notes down about its work, for whoever looks into it. Notes never influence what the
shell does; a front end shows those that are grave enough.
-/

namespace VirtualShell

/-- How grave a note is. -/
inductive Level where
  | debug
  | warning
  deriving DecidableEq, Repr

/-- The part of the shell that a note comes from. -/
inductive Source where
  | parser
  | aliases
  | environment
  | scripts
  | executor
  | session
  | documents
  | terminal
  deriving DecidableEq, Repr

/-- The name of a part of the shell in its notes. -/
def Source.name : Source → String
  | .parser => "memshell.command_parser"
  | .aliases => "memshell.aliases"
  | .environment => "memshell.environment"
  | .scripts => "memshell.script_parser"
  | .executor => "memshell.executor"
  | .session => "memshell.session"
  | .documents => "memshell.persistence"
  | .terminal => "memshell.terminal"

/-- The word for a level in notes. -/
def Level.name : Level → String
  | .debug => "DEBUG"
  | .warning => "WARNING"

/-- A note. -/
structure Note where
  level : Level
  source : Source
  text : String
  deriving DecidableEq, Repr

namespace Note

/-- A note that only a verbose front end shows. -/
def debug (source : Source) (text : String) : Note :=
  { level := .debug, source, text }

/-- A note that every front end shows. -/
def warning (source : Source) (text : String) : Note :=
  { level := .warning, source, text }

/-- The line that shows a note. -/
def line (n : Note) : String :=
  n.level.name ++ " " ++ n.source.name ++ ": " ++ n.text

/-- Notes that an alias was not set. -/
def ofAliasRejection : Aliases.Rejection → Note
  | .badName shown => .debug .aliases ("rejected alias name " ++ shown)
  | .noCommand name => .debug .aliases ("rejected empty alias " ++ Text.quoted name)

/-- Notes that a variable was not set. -/
def ofVariableRejection (name : String) (r : Variable.Rejection) : Note :=
  .debug .environment ("rejected variable " ++ Text.quoted name ++ ": " ++ r.message)

/-- Notes that an alias led nowhere. -/
def ofResolution : Aliases.Resolution → List Note
  | .cycle name => [.debug .aliases ("alias cycle through " ++ Text.quoted name)]
  | .tooDeep name =>
    [.debug .aliases ("alias " ++ Text.quoted name ++ " exceeds depth "
      ++ Text.natText Aliases.maxDepth)]
  | _ => []

end Note

end VirtualShell
