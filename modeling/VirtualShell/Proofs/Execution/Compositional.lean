import VirtualShell.Execution

/-!
# What holds of all lines

A line is run by running its parts in a row: it is read, the words of its commands are resolved,
input is taken, commands are run, output goes to files, and exit codes are noted. A property of
actions is compositional if all these parts have it, and if one action followed by another has it
where both have it. Then every line has it (`Compositional.runLine`).

Chains, pipelines and nested aliases are gone through here once, for all such properties.
-/

namespace VirtualShell.Execution

/-- A property of actions that the parts of a line have, and sequences of actions that have it. -/
structure Compositional (P : ∀ {α : Type}, Shell α → Prop) : Prop where
  pure : ∀ {α : Type} (a : α), P (Pure.pure a : Shell α)
  bind : ∀ {α β : Type} {first : Shell α} {next : α → Shell β},
    P first → (∀ a, P (next a)) → P (first >>= next)
  session : P Shell.session
  note : ∀ n, P (Shell.note n)
  noteAll : ∀ ns, P (Shell.noteAll ns)
  parse : ∀ line, P (Shell.ofExcept ((Program.parse line).mapError Fault.line))
  resolve : ∀ (aliases : Aliases) word args,
    P (Shell.ofExcept ((aliases.resolve word args).mapError Fault.number))
  inputOf : ∀ c stdin, P (inputOf c stdin)
  builtin : ∀ (b : Builtin) args stdin, P (b.run args stdin)
  redirectOutput : ∀ redirect r, P (redirectOutput redirect r)
  finish : ∀ r, P (finish r)

namespace Compositional

variable {P : ∀ {α : Type}, Shell α → Prop} {run : Runner} {nested : LineRunner}

/-- A property of the actions of the shell holds of a command if it holds of its dispatch. -/
theorem runCommand (h : Compositional P) {dispatch : Runner}
    (hdispatch : ∀ c stdin, P (dispatch c stdin)) (c : Command) (stdin : Option String) :
    P (runCommand dispatch c stdin) := by
  refine h.bind h.session fun s => ?_
  dsimp only
  split
  · exact h.pure _
  refine h.bind (h.note _) fun _ => h.bind (h.inputOf _ stdin) fun input => ?_
  cases input with
  | done r => exact h.finish r
  | text stdin =>
    refine h.bind (hdispatch _ stdin) fun r => ?_
    split
    · exact h.bind (h.redirectOutput _ r) h.finish
    · exact h.bind (h.pure r) h.finish

/-! ## Chains and pipelines -/

/-- It holds of the links of a chain if it holds of every command. -/
theorem runRest (h : Compositional P) (hrun : ∀ c stdin, P (run c stdin)) (last : Result)
    (rest : List (Operator × Command)) : P (runRest run last rest) := by
  induction rest generalizing last with
  | nil => exact h.pure _
  | cons link rest ih =>
    unfold Execution.runRest
    split
    · refine h.bind (hrun link.2 none) fun r => ?_
      exact h.bind (ih r) fun results => h.pure _
    · exact ih last

/-- So it does of a pipeline. -/
theorem runPipeline (h : Compositional P) (hrun : ∀ c stdin, P (run c stdin)) (last : Result)
    (stdin : Option String) (commands : List Command) :
    P (runPipeline run last stdin commands) := by
  induction commands generalizing last stdin with
  | nil => exact h.pure _
  | cons command rest ih =>
    refine h.bind (hrun command stdin) fun r => ?_
    split
    · exact ih r (some r.text)
    · exact h.pure _

/-- So it does of whatever a line holds. -/
theorem runProgram (h : Compositional P) (hrun : ∀ c stdin, P (run c stdin)) (p : Program)
    (stdin : Option String) : P (runProgram run p stdin) := by
  cases p with
  | command c => exact hrun c stdin
  | chain chain =>
    rw [Execution.runProgram]
    split
    · exact h.runPipeline hrun _ stdin _
    · refine h.bind (hrun chain.first stdin) fun first => ?_
      exact h.bind (h.runRest hrun first chain.rest) fun results => h.pure _

/-! ## Lines -/

/-- It holds of a dispatch if it holds of the lines that are run in it. -/
theorem dispatch (h : Compositional P)
    (hnested : ∀ run, nested = some run → ∀ line stdin, P (run line stdin)) (c : Command)
    (stdin : Option String) : P (dispatch nested c stdin) := by
  have hresolved (resolved : Option String) : P (runResolved nested c stdin resolved) := by
    cases resolved with
    | none =>
      rw [runResolved]
      split
      · exact h.builtin _ c.args stdin
      · exact h.pure _
    | some line =>
      cases nested with
      | none => exact h.pure _
      | some run => exact h.bind (h.note _) fun _ => hnested run rfl line stdin
  refine h.bind h.session fun s => ?_
  dsimp only
  split
  · refine h.bind (h.resolve _ _ _) fun resolution => ?_
    exact h.bind (h.noteAll _) fun _ => hresolved resolution.line?
  · exact hresolved none

/-- It holds of reading a line. -/
theorem readLine (h : Compositional P) (line : String) : P (readLine line) := by
  refine h.bind (h.parse line) fun program => ?_
  cases program with
  | chain chain => exact h.bind (h.note _) fun _ => h.pure _
  | command c => exact h.pure _

/-- It holds of a line if it holds of the lines that are run in it. -/
theorem runLineWith (h : Compositional P)
    (hnested : ∀ run, nested = some run → ∀ line stdin, P (run line stdin)) (line : String)
    (stdin : Option String) : P (runLineWith nested line stdin) := by
  refine h.bind (h.readLine line) fun program => ?_
  exact h.runProgram (h.runCommand (h.dispatch hnested)) program stdin

/-- A compositional property holds of every line, to whatever depth aliases may nest. -/
theorem runLine (h : Compositional P) (depth : Nat) (line : String) (stdin : Option String) :
    P (runLine depth line stdin) := by
  -- Induction on the depth that is left for aliases; at depth zero no further line is run.
  induction depth generalizing line stdin with
  | zero => exact h.runLineWith (fun _ hnone => by cases hnone) line stdin
  | succ depth ih =>
    refine h.runLineWith (fun run hrun => ?_) line stdin
    cases hrun
    exact ih

end Compositional

end VirtualShell.Execution
