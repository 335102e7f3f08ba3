import VirtualShell.Text.Blank
import VirtualShell.Text.Split

/-!
# The commands and their manuals

The commands that the shell knows by itself, and what `help` says about them. The text of a manual
has one layout: a description in its first line, and then sections for the usage, the options and
the examples.
-/

namespace VirtualShell

/-- A command that the shell knows by itself. -/
inductive Builtin where
  | defineAlias
  | cat
  | cd
  | clear
  | echo
  | printVariables
  | exportVariables
  | fail
  | grep
  | head
  | help
  | history
  | ls
  | man
  | mkdir
  | pwd
  | rm
  | rmdir
  | sort
  | source
  | tail
  | touch
  | succeed
  | removeAliases
  | uniq
  | unsetVariables
  | vi
  | wc
  deriving DecidableEq, Repr

namespace Builtin

/-- All commands, by increasing name. -/
def all : List Builtin := [
  Builtin.defineAlias, .cat, .cd, .clear, .echo, .printVariables, .exportVariables, .fail, .grep,
  .head, .help, .history, .ls, .man, .mkdir, .pwd, .rm, .rmdir, .sort, .source, .tail, .touch,
  .succeed, .removeAliases, .uniq, .unsetVariables, .vi, .wc]

/-- The name of a command. -/
def name : Builtin → String
  | .defineAlias => "alias"
  | .cat => "cat"
  | .cd => "cd"
  | .clear => "clear"
  | .echo => "echo"
  | .printVariables => "env"
  | .exportVariables => "export"
  | .fail => "false"
  | .grep => "grep"
  | .head => "head"
  | .help => "help"
  | .history => "history"
  | .ls => "ls"
  | .man => "man"
  | .mkdir => "mkdir"
  | .pwd => "pwd"
  | .rm => "rm"
  | .rmdir => "rmdir"
  | .sort => "sort"
  | .source => "source"
  | .tail => "tail"
  | .touch => "touch"
  | .succeed => "true"
  | .removeAliases => "unalias"
  | .uniq => "uniq"
  | .unsetVariables => "unset"
  | .vi => "vi"
  | .wc => "wc"

/-- The command with a name. -/
def ofName? (name : String) : Option Builtin :=
  all.find? fun b => b.name == name

/-- The names of all commands, in increasing order. -/
def names : List String :=
  all.map name

/-! ## Manuals -/

/-- The lines of the manual of a command. -/
def manualLines : Builtin → List String
  | .defineAlias => [
    "Define or display aliases",
    "",
    "Usage:",
    "    alias [NAME[='COMMAND']]...",
    "",
    "Examples:",
    "    alias                  # List all aliases",
    "    alias ll='ls -la'      # Define an alias",
    "    alias ll               # Show one alias"]
  | .cat => [
    "Print file contents",
    "",
    "Usage:",
    "    cat [FILE]...",
    "",
    "Examples:",
    "    cat readme.txt",
    "    cat a.txt b.txt        # Concatenate",
    "    echo hi | cat          # Read standard input"]
  | .cd => [
    "Change the working directory",
    "",
    "Usage:",
    "    cd [DIR]",
    "",
    "Examples:",
    "    cd documents           # Enter a subdirectory",
    "    cd ..                  # Go up one level",
    "    cd                     # Go home"]
  | .clear => [
    "Clear the terminal screen",
    "",
    "Usage:",
    "    clear"]
  | .echo => [
    "Display a line of text",
    "",
    "Usage:",
    "    echo [-n] [STRING]...",
    "",
    "Options:",
    "    -n                     Do not print the trailing newline",
    "",
    "Examples:",
    "    echo \"Hello World\" > hello.txt"]
  | .printVariables => [
    "Print environment variables",
    "",
    "Usage:",
    "    env"]
  | .exportVariables => [
    "Set environment variables",
    "",
    "Usage:",
    "    export [NAME=VALUE]...",
    "",
    "Examples:",
    "    export EDITOR=vi",
    "    export                 # List all variables"]
  | .fail => [
    "Do nothing, unsuccessfully",
    "",
    "Usage:",
    "    false"]
  | .grep => [
    "Print lines matching a pattern",
    "",
    "Usage:",
    "    grep [-i] [-v] [-n] [-c] PATTERN [FILE]...",
    "",
    "Options:",
    "    -i                     Ignore case",
    "    -v                     Select non-matching lines",
    "    -n                     Prefix each line with its number",
    "    -c                     Print only the number of matching lines",
    "",
    "Examples:",
    "    grep TODO notes.md",
    "    cat readme.txt | grep -i welcome"]
  | .head => [
    "Print the first lines of input",
    "",
    "Usage:",
    "    head [-n N | -N] [FILE]",
    "",
    "Examples:",
    "    head -5 notes.md"]
  | .help => [
    "Show help for commands",
    "",
    "Usage:",
    "    help [COMMAND]",
    "",
    "Examples:",
    "    help                   # List all commands",
    "    help grep              # Details for grep"]
  | .history => [
    "Show command history",
    "",
    "Usage:",
    "    history"]
  | .ls => [
    "List directory contents",
    "",
    "Usage:",
    "    ls [-a] [-l] [PATH]",
    "",
    "Options:",
    "    -a                     Include entries starting with .",
    "    -l                     Long listing format",
    "",
    "Examples:",
    "    ls -la                 # Everything, in detail",
    "    ls documents           # List a subdirectory"]
  | .man => [
    "Show the manual page for a command",
    "",
    "Usage:",
    "    man COMMAND",
    "",
    "Examples:",
    "    man ls"]
  | .mkdir => [
    "Create directories",
    "",
    "Usage:",
    "    mkdir [-p] DIR...",
    "",
    "Options:",
    "    -p                     Create parents as needed, ignore existing",
    "",
    "Examples:",
    "    mkdir -p deep/nested/path"]
  | .pwd => [
    "Print the working directory",
    "",
    "Usage:",
    "    pwd"]
  | .rm => [
    "Remove files or directories",
    "",
    "Usage:",
    "    rm [-r] [-f] FILE...",
    "",
    "Options:",
    "    -r                     Remove directories and their contents",
    "    -f                     Ignore missing files",
    "",
    "Examples:",
    "    rm old.txt",
    "    rm -rf build"]
  | .rmdir => [
    "Remove empty directories",
    "",
    "Usage:",
    "    rmdir DIR..."]
  | .sort => [
    "Sort lines of text",
    "",
    "Usage:",
    "    sort [-r] [-n] [-u] [FILE]...",
    "",
    "Options:",
    "    -r                     Reverse the order",
    "    -n                     Compare by numeric value",
    "    -u                     Drop duplicate lines"]
  | .source => [
    "Apply aliases and exports from a file",
    "",
    "Usage:",
    "    source FILE",
    "",
    "Examples:",
    "    source ~/.bashrc"]
  | .tail => [
    "Print the last lines of input",
    "",
    "Usage:",
    "    tail [-n N | -N] [FILE]",
    "",
    "Examples:",
    "    tail -n 3 /var/log/system.log"]
  | .touch => [
    "Create empty files or update their timestamps",
    "",
    "Usage:",
    "    touch FILE...",
    "",
    "Examples:",
    "    touch notes.txt"]
  | .succeed => [
    "Do nothing, successfully",
    "",
    "Usage:",
    "    true"]
  | .removeAliases => [
    "Remove aliases",
    "",
    "Usage:",
    "    unalias [-a] NAME...",
    "",
    "Options:",
    "    -a                     Remove all aliases"]
  | .uniq => [
    "Collapse adjacent duplicate lines",
    "",
    "Usage:",
    "    uniq [-c] [FILE]",
    "",
    "Options:",
    "    -c                     Prefix lines with their repeat count"]
  | .unsetVariables => [
    "Remove environment variables",
    "",
    "Usage:",
    "    unset NAME..."]
  | .vi => [
    "Edit a file",
    "",
    "Usage:",
    "    vi FILE",
    "",
    "Examples:",
    "    vi notes.txt           # Opens (or creates on save) notes.txt"]
  | .wc => [
    "Count lines, words and characters",
    "",
    "Usage:",
    "    wc [-l] [-w] [-c] [FILE]...",
    "",
    "Options:",
    "    -l                     Lines only",
    "    -w                     Words only",
    "    -c                     Characters only",
    "",
    "Examples:",
    "    wc readme.txt",
    "    cat notes.md | wc -l"]

/-- The manual of a command. -/
def manual (b : Builtin) : String :=
  Text.joinWith "\n" b.manualLines

end Builtin

/-- The parts of a manual. -/
structure Manual where
  description : String := ""
  usage : String := ""
  options : List String := []
  examples : List String := []
  deriving DecidableEq, Repr

namespace Manual

/-- The sections of a manual. -/
inductive Section where
  | usage
  | options
  | examples
  deriving DecidableEq, Repr

/-- The section that a line opens. -/
def Section.ofHeading? (line : String) : Option Section :=
  if line = "Usage:" then some .usage
  else if line = "Options:" then some .options
  else if line = "Examples:" then some .examples
  else none

/-- Adds a line to a section; a usage has one line, and the last one counts. -/
def addLine (m : Manual) (line : String) : Section → Manual
  | .usage => { m with usage := line }
  | .options => { m with options := m.options ++ [line] }
  | .examples => { m with examples := m.examples ++ [line] }

/-- Takes the next line, which opens a section, belongs to the open one, or is passed over. -/
def step (state : Option Section × Manual) (raw : String) : Option Section × Manual :=
  let (current, m) := state
  let line := Text.strip raw
  match Section.ofHeading? line with
  | some s => (some s, m)
  | none =>
    match current with
    | some s => if line = "" then state else (current, m.addLine line s)
    | none => state

/-- The parts that a text in the layout of a manual holds. -/
def parse (text : String) : Manual :=
  match Text.splitOn '\n' (Text.strip text) with
  | [] => {}
  | first :: rest =>
    (rest.foldl step (none, { description := Text.strip first })).2

end Manual

/-- The parts of the manual of a command. -/
def Builtin.sections (b : Builtin) : Manual :=
  Manual.parse b.manual

end VirtualShell
