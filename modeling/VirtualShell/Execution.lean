import VirtualShell.Builtin.Run

/-!
# Executing lines

A line is read, its variables are filled in, and its commands are run: a chain from left to right,
as the exit codes allow, and a pipeline stage by stage, each on the whole output of the one before.
An alias runs the line that it resolves to, and such lines may nest ten levels deep.

The runners of chains and pipelines are told how to run a single command, and the runner of a single
command is told how to dispatch it, so each can be looked at by itself.
-/

namespace VirtualShell.Execution

/-- How a command is run on its input. -/
abbrev Runner := Command → Option String → Shell Result

/-! ## Variables -/

/-- A text with the last exit code and the variables filled in. -/
def expandText (s : Session) (text : String) : String :=
  let code := (Text.intText s.lastExitCode).toList
  s.environment.expand (String.ofList (Text.replacePair '$' '?' code text.toList))

/-- A command with the last exit code and the variables filled in everywhere. -/
def expandCommand (s : Session) (c : Command) : Command :=
  { word := expandText s c.word
    args := c.args.map (expandText s)
    output := c.output.map fun r => { r with target := expandText s r.target }
    input := c.input.map fun r => { r with source := expandText s r.source } }

/-! ## Single commands -/

/-- Notes the exit code of a command that is done. -/
def finish (r : Result) : Shell Result := do
  Shell.modify fun s => { s with lastExitCode := r.exitCode }
  return r

/-- The new content of a file: an appended text starts on a line of its own. -/
def newContent (append : Bool) (old : Option String) (text : String) : String :=
  match old with
  | some old =>
    if append && old != "" then old ++ (if Text.hasEnd "\n" old then "" else "\n") ++ text
    else text
  | none => text

/-- Writes the output of a successful command to a file instead of showing it. -/
def redirectOutput (redirect : OutputRedirect) (r : Result) : Shell Result := do
  if !r.success then return r
  let cannot := fun (reason : String) =>
    Result.fail ("cannot write to '" ++ redirect.target ++ "': " ++ reason)
  let fs := (← Shell.session).fileSystem
  let path := fs.resolve redirect.target
  let node ← Shell.node? path
  if path.isEmpty || node.any Node.isDirectory then return cannot "Is a directory"
  let content := newContent redirect.append (node.bind Node.content?) r.text
  match ← Shell.ofExcept ((Limits.check fs path content.length node).mapError Fault.tree) with
  | some excess => return cannot excess.message
  | none =>
    if ← Shell.changeTree fun now fs => fs.writeFile now path content then
      return { exitCode := r.exitCode, action := r.action }
    else return cannot "Permission denied or invalid path"

/-- What an input redirection gives a command. -/
inductive Input where
  /-- This text. -/
  | text (stdin : Option String)
  /-- The command is done without being run. -/
  | done (r : Result)

/-- The input of a command: from a file, empty where lines would have to follow, or what is piped
in. -/
def inputOf (c : Command) (stdin : Option String) : Shell Input := do
  match c.input with
  | none => return .text stdin
  | some redirect =>
    if redirect.inline then
      if c.word = "cat" ∧ c.args.isEmpty then
        return .done (.say ("Reading input until '" ++ redirect.source ++ "'..."))
      else return .text (some "")
    else
      let fs := (← Shell.session).fileSystem
      match ← Shell.node? (fs.resolve redirect.source) with
      | some (.file _ content) => return .text (some content)
      | _ =>
        return .done (.fail ("cannot read from '" ++ redirect.source
          ++ "': No such file or directory"))

/-- Runs one command: fills in variables, takes its input, dispatches it, and sends its output where
it belongs. -/
def runCommand (dispatch : Runner) (c : Command) (stdin : Option String) : Shell Result := do
  let c := expandCommand (← Shell.session) c
  if c.isEmpty then return .ok
  Shell.note (.debug .executor ("executing " ++ c.text))
  match ← inputOf c stdin with
  | .done r => finish r
  | .text stdin =>
    let r ← dispatch c stdin
    let r ← match c.output with
      | some redirect => redirectOutput redirect r
      | none => pure r
    finish r

/-! ## Chains and pipelines -/

/-- Whether the command behind an operator runs after a command with this exit code. -/
def proceeds (op : Operator) (exitCode : Int) : Bool :=
  match op with
  | .and => exitCode == 0
  | .or => exitCode != 0
  | _ => true

/-- Runs the further commands of a chain after one with result `last`; answers with the results of
those that ran. -/
def runRest (run : Runner) (last : Result) : List (Operator × Command) → Shell (List Result)
  | [] => return []
  | (op, command) :: rest =>
    if proceeds op last.exitCode then do
      let r ← run command none
      return r :: (← runRest run r rest)
    else runRest run last rest

/-- Runs a chain; only its first command gets the input. -/
def runChain (run : Runner) (chain : Chain) (stdin : Option String) : Shell Result := do
  let first ← run chain.first stdin
  return Result.combine first (← runRest run first chain.rest)

/-- Runs the commands of a pipeline on each other's output, up to the first that fails. -/
def runPipeline (run : Runner) (last : Result) (stdin : Option String) :
    List Command → Shell Result
  | [] => return last
  | command :: rest => do
    let r ← run command stdin
    if r.success then runPipeline run r (some r.text) rest else return r

/-! ## Lines -/

/-- How the line of an alias is run; `none` where lines are nested too deeply. -/
abbrev LineRunner := Option (String → Option String → Shell Result)

/-- Runs the line that the word of a command resolves to, or else the command that the shell knows
by this word. -/
def runResolved (nested : LineRunner) (c : Command) (stdin : Option String) :
    Option String → Shell Result
  | some line =>
    match nested with
    | none => return .fail (c.word ++ ": alias expansion too deep")
    | some run => do
      Shell.note (.debug .executor ("alias " ++ c.word ++ " -> " ++ line))
      run line stdin
  | none =>
    match Builtin.ofName? c.word with
    | some b => b.run c.args stdin
    | none => return .fail (c.word ++ ": command not found") 127

/-- Runs a command by its word: an alias that resolves to a line, or else one that the shell
knows. -/
def dispatch (nested : LineRunner) : Runner := fun c stdin => do
  let aliases := (← Shell.session).aliases
  let resolved ←
    if aliases.contains c.word then do
      let resolution ← Shell.ofExcept
        ((aliases.resolve c.word (c.args.map Alias.quoteArgument)).mapError Fault.number)
      Shell.noteAll (Note.ofResolution resolution)
      pure resolution.line?
    else pure none
  runResolved nested c stdin resolved

/-- Runs what a line holds. -/
def runProgram (run : Runner) (p : Program) (stdin : Option String) : Shell Result :=
  match p with
  | .command c => run c stdin
  | .chain chain =>
    if chain.isPipeline then runPipeline run .ok stdin chain.commands
    else runChain run chain stdin

/-- Reads a line and notes the chain that it holds. -/
def readLine (line : String) : Shell Program := do
  let program ← Shell.ofExcept ((Program.parse line).mapError Fault.line)
  match program with
  | .chain chain => Shell.note (.debug .parser ("parsed chain: " ++ chain.text))
  | .command _ => pure ()
  return program

/-- Reads and runs a line. -/
def runLineWith (nested : LineRunner) (line : String) (stdin : Option String) : Shell Result := do
  let program ← readLine line
  runProgram (runCommand (dispatch nested)) program stdin

/-- Reads and runs a line in which aliases may nest so many levels deep. -/
def runLine : Nat → String → Option String → Shell Result
  | 0 => runLineWith none
  | depth + 1 => runLineWith (some (runLine depth))

/-- The result that stands for a fault. -/
def faultResult : Fault → Result
  | .line e => .fail e.message
  | fault => .fail ("Error: " ++ fault.message)

/-- Notes a line that could not be read. -/
def noteFault : Fault → List Note
  | .line e => [.debug .executor ("parse error: " ++ e.message)]
  | _ => []

/-- Executes one line. Every fault becomes a result; in the end the session knows the exit code and
shows its working directory in the environment. -/
def execute (line : String) : Shell Result := do
  let outcome ← Shell.attempt (runLine Aliases.maxDepth line none)
  let result ← match outcome with
    | .ok r => pure r
    | .error fault => do
      Shell.noteAll (noteFault fault)
      pure (faultResult fault)
  Shell.modify fun s =>
    { s with
      lastExitCode := result.exitCode
      environment := s.environment.withCwd s.fileSystem.cwd }
  return result

end VirtualShell.Execution
