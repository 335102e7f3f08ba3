import VirtualShell.Proofs.Execution.Runs
import VirtualShell.Proofs.Session.Laws

/-!
# What a semicolon guards against

The calls of a chain tell for each of its commands what it has come to, or that it was not run
(`chainCalls`). The run of the chain is that of its calls in a row (`run_runChain`), so whatever is
said about the calls is said about the run.

A semicolon lets the next command run whatever the result of the one before is. It does not help
against a fault: a command that breaks off takes the rest of its chain with it. So the command
behind a semicolon is run just where no command before it breaks off
(`proceeds_after_sequence_iff`).
-/

namespace VirtualShell

/-! ## Steps in a row -/

/-- Steps in a row as one, up to the first that breaks off; without any, the session stays. -/
def Step.gather (s : Session) : List (Step Result) → Step (List Result)
  | [] => { outcome := .ok [], session := s }
  | step :: steps =>
    match step.outcome with
    | .error e => { outcome := .error e, session := step.session, notes := step.notes }
    | .ok r =>
      let rest := gather step.session steps
      { outcome := rest.outcome.map (r :: ·)
        session := rest.session
        notes := step.notes ++ rest.notes }

/-- Results in a row as one. -/
def Result.combineAll : List Result → Result
  | [] => .ok
  | first :: rest => combine first rest

namespace Execution

/-! ## Calls -/

/-- What the commands of a chain have come to, each in its place; `none` where one was not run. -/
abbrev Calls := List (Option (Step Result))

/-- The command at a place was run. -/
def Calls.Ran (calls : Calls) (i : Nat) : Prop :=
  ∃ step, calls[i]? = some (some step)

/-- The command at a place was run and broke off. -/
def Calls.BrokeOff (calls : Calls) (i : Nat) : Prop :=
  ∃ step e, calls[i]? = some (some step) ∧ step.outcome = .error e

/-- The steps of the commands that were run. -/
def Calls.steps (calls : Calls) : List (Step Result) :=
  calls.filterMap id

/-- The calls that start with a step and go on as its result lets them; where it breaks off, so many
more commands are not run. -/
def callsAfter (step : Step Result) (more : Nat) (next : Result → Calls) : Calls :=
  some step ::
    match step.outcome with
    | .ok r => next r
    | .error _ => List.replicate more none

/-- The calls behind the operators of a chain, after a command with result `last`. -/
def restCalls (run : Runner) (now : Timestamp) (s : Session) (last : Result) :
    List (Operator × Command) → Calls
  | [] => []
  | (op, c) :: links =>
    if proceeds op last.exitCode then
      let step := (run c none).run now s
      callsAfter step links.length fun r => restCalls run now step.session r links
    else none :: restCalls run now s last links

/-- The calls of a chain. -/
def chainCalls (run : Runner) (chain : Chain) (stdin : Option String) (now : Timestamp)
    (s : Session) : Calls :=
  let step := (run chain.first stdin).run now s
  callsAfter step chain.rest.length fun r => restCalls run now step.session r chain.rest

/-! ## The run of a chain is that of its calls -/

/-- The steps of a call and what follows it: a call that breaks off is the last one. -/
theorem steps_callsAfter (step : Step Result) (more : Nat) (next : Result → Calls) :
    (callsAfter step more next).steps
      = step :: match step.outcome with
        | .ok r => (next r).steps
        | .error _ => [] := by
  rw [callsAfter, Calls.steps, List.filterMap_cons]
  cases step.outcome with
  | ok r => rfl
  | error e => simp only [id, List.filterMap_replicate_of_none]

/-- A command is run, and what follows is run as far as its result lets it. -/
theorem run_cons (s : Session) (now : Timestamp) (action : Shell Result)
    (next : Result → Shell (List Result)) (more : Nat) (calls : Result → Calls)
    (hnext : ∀ r, (next r).run now (action.run now s).session
      = Step.gather (action.run now s).session (calls r).steps) :
    (do let r ← action; let rest ← next r; pure (r :: rest) : Shell (List Result)).run now s
      = Step.gather s (callsAfter (action.run now s) more calls).steps := by
  change Shell.bind action (fun r => Shell.bind (next r) fun rest => pure (r :: rest)) now s = _
  rw [Shell.bind, steps_callsAfter, Step.gather]
  change ∀ r, next r now (action now s).session = _ at hnext
  simp only [Shell.run] at hnext ⊢
  cases houtcome : (action now s).outcome with
  | error e => rfl
  | ok r =>
    simp only [Shell.bind, hnext r]
    cases hrest : (Step.gather (action now s).session (calls r).steps).outcome with
    | error e => rfl
    | ok rest => simp only [Except.map, pure, List.append_nil]

/-- Running the links of a chain gathers the steps of their calls. -/
theorem run_runRest (run : Runner) (now : Timestamp) (s : Session) (last : Result)
    (links : List (Operator × Command)) :
    (runRest run last links).run now s
      = Step.gather s (restCalls run now s last links).steps := by
  induction links generalizing s last with
  | nil => rfl
  | cons link links ih =>
    obtain ⟨op, c⟩ := link
    rw [runRest, restCalls]
    by_cases hp : proceeds op last.exitCode
    · simp only [hp, if_true]
      exact run_cons s now (run c none) (runRest run · links) _ _ fun r => ih _ r
    · simp only [hp, if_false, Bool.false_eq_true]
      exact ih s last

/-- The run of a chain is that of its calls in a row. -/
theorem run_runChain (run : Runner) (chain : Chain) (stdin : Option String) (now : Timestamp)
    (s : Session) :
    (runChain run chain stdin).run now s
      = let step := Step.gather s (chainCalls run chain stdin now s).steps
        { outcome := step.outcome.map Result.combineAll
          session := step.session
          notes := step.notes } := by
  have h : runChain run chain stdin = Result.combineAll <$> (do
      let first ← run chain.first stdin
      let rest ← runRest run first chain.rest
      pure (first :: rest)) := by
    simp only [runChain, Result.combineAll, map_bind, map_pure]
  rw [h, Shell.run_map, chainCalls, run_cons s now (run chain.first stdin) _ _ _ fun r =>
    run_runRest run now _ r chain.rest]

/-! ## The command behind a semicolon -/

/-- The first call broke off just where its step has no result. -/
theorem Calls.brokeOff_cons_zero_iff (step : Step Result) (calls : Calls) :
    BrokeOff (some step :: calls) 0 ↔ step.outcome.toBool = false := by
  constructor
  · rintro ⟨step', e, hstep, he⟩
    cases hstep
    rw [he]
    rfl
  · intro hfalse
    rcases houtcome : step.outcome with e | r
    · exact ⟨step, e, rfl, houtcome⟩
    · rw [houtcome] at hfalse
      cases hfalse

/-- Calls that were left out did not run. -/
theorem Calls.not_ran_replicate (n i : Nat) : ¬ Ran (List.replicate n none) i := by
  rintro ⟨step, hstep⟩
  simp [List.getElem?_replicate] at hstep

/-- A command behind a step is run just where nothing before it breaks off, if that holds of what
follows the step. -/
theorem ran_callsAfter_iff (step : Step Result) (more : Nat) (next : Result → Calls) (k : Nat)
    (hnext : ∀ r, (next r).Ran k ↔ ∀ j < k, ¬ (next r).BrokeOff j) :
    (callsAfter step more next).Ran (k + 1)
      ↔ ∀ j < k + 1, ¬ (callsAfter step more next).BrokeOff j := by
  rw [callsAfter, Nat.forall_lt_succ_left, Calls.brokeOff_cons_zero_iff]
  rcases step.outcome with e | r
  · exact iff_of_false (Calls.not_ran_replicate more k) fun h => h.1 rfl
  · exact (hnext r).trans ⟨fun h => ⟨Bool.noConfusion, h⟩, fun h => h.2⟩

/-- Behind a semicolon a command runs unless an earlier one broke off. -/
theorem ran_restCalls_iff (run : Runner) (now : Timestamp) (s : Session) (last : Result)
    {links : List (Operator × Command)} {k : Nat}
    (hop : (links.map Prod.fst)[k]? = some .sequence) :
    (restCalls run now s last links).Ran k
      ↔ ∀ j < k, ¬ (restCalls run now s last links).BrokeOff j := by
  induction links generalizing s last k with
  | nil => cases hop
  | cons link links ih =>
    obtain ⟨op, c⟩ := link
    rw [restCalls]
    cases k with
    | zero =>
      obtain rfl : op = .sequence := by simpa using hop
      exact iff_of_true ⟨_, rfl⟩ fun j hj => absurd hj (Nat.not_lt_zero j)
    | succ k =>
      by_cases hp : proceeds op last.exitCode
      · simp only [hp, if_true]
        exact ran_callsAfter_iff _ _ _ k fun r => ih _ r hop
      · simp only [hp, if_false, Bool.false_eq_true]
        have hskip : ¬ Calls.BrokeOff (none :: restCalls run now s last links) 0 := by
          rintro ⟨step, e, hstep, -⟩
          cases hstep
        rw [Nat.forall_lt_succ_left]
        exact (ih s last hop).trans ⟨fun h => ⟨hskip, h⟩, fun h => h.2⟩

/-- How the commands of a line are run that is not the line of an alias. -/
def runOutermost : Runner :=
  runCommand (dispatch (some (runLine (Aliases.maxDepth - 1))))

/-- A line is run with one depth less for the lines in it. -/
theorem runLine_maxDepth :
    runLine Aliases.maxDepth = runLineWith (some (runLine (Aliases.maxDepth - 1))) := by
  have hdepth : Aliases.maxDepth = (Aliases.maxDepth - 1) + 1 := by decide
  exact (congrArg runLine hdepth).trans (funext fun _ => by rw [runLine])

/-- A line that is a chain without pipes is run as this chain, once it has been noted down. -/
theorem run_runLineWith_of_chain {line : String} {chain : Chain}
    (hline : Program.parse line = .ok (.chain chain)) (hchain : chain.isPipeline = false)
    (nested : LineRunner) (stdin : Option String) (now : Timestamp) (s : Session) :
    (runLineWith nested line stdin).run now s
      = let step := (runChain (runCommand (dispatch nested)) chain stdin).run now s
        { step with notes := .debug .parser ("parsed chain: " ++ chain.text) :: step.notes } := by
  have hread : (readLine line).run now s
      = { outcome := .ok (.chain chain), session := s,
          notes := [.debug .parser ("parsed chain: " ++ chain.text)] } := by
    rw [readLine, hline]
    rfl
  change Shell.bind (readLine line) _ now s = _
  rw [Shell.run] at hread
  rw [Shell.bind, hread]
  simp only [runProgram, hchain, Bool.false_eq_true, if_false, List.singleton_append, Shell.run]

/-- In a whole chain, too, a command behind a semicolon runs unless an earlier one broke off. -/
theorem ran_chainCalls_iff (run : Runner) {chain : Chain} {i : Nat}
    (hop : chain.operators[i]? = some .sequence) (stdin : Option String) (now : Timestamp)
    (s : Session) :
    (chainCalls run chain stdin now s).Ran (i + 1)
      ↔ ∀ j ≤ i, ¬ (chainCalls run chain stdin now s).BrokeOff j := by
  have h : (chainCalls run chain stdin now s).Ran (i + 1)
      ↔ ∀ j < i + 1, ¬ (chainCalls run chain stdin now s).BrokeOff j :=
    ran_callsAfter_iff _ _ _ i fun r => ran_restCalls_iff run now _ r hop
  simpa only [Nat.lt_succ_iff] using h

/-- The run of a line that is a chain without pipes is that of its calls, and the command behind a
semicolon is among those that were run just where no command before it broke off. Whether those
before it were successful makes no difference. -/
theorem proceeds_after_sequence_iff {line : String} {chain : Chain} {i : Nat}
    (hline : Program.parse line = .ok (.chain chain)) (hchain : chain.isPipeline = false)
    (hop : chain.operators[i]? = some .sequence) (now : Timestamp) (s : Session) :
    let calls := chainCalls runOutermost chain none now s
    (runLine Aliases.maxDepth line none).run now s
        = { outcome := (Step.gather s calls.steps).outcome.map Result.combineAll
            session := (Step.gather s calls.steps).session
            notes := .debug .parser ("parsed chain: " ++ chain.text)
              :: (Step.gather s calls.steps).notes } ∧
      (calls.Ran (i + 1) ↔ ∀ j ≤ i, ¬ calls.BrokeOff j) := by
  refine ⟨?_, ran_chainCalls_iff runOutermost hop none now s⟩
  rw [runLine_maxDepth, run_runLineWith_of_chain hline hchain, ← runOutermost, run_runChain]

/-- A command that the shell does not know does not keep the next one from running. -/
theorem proceeds_after_unknown_command :
    let s := Session.new (DefaultTree.fileSystem .epoch)
    let chain : Chain := { first := { word := "nope" }, rest := [(.sequence, { word := "pwd" })] }
    Program.parse "nope; pwd" = .ok (.chain chain) ∧ chain.isPipeline = false ∧
      chain.operators[0]? = some .sequence ∧
      (chainCalls runOutermost chain none .epoch s).Ran 1 := by
  have hfirst : ((runOutermost { word := "nope" } none).run .epoch
      (Session.new (DefaultTree.fileSystem .epoch))).outcome.toBool = true := by
    decide +kernel
  intro s chain
  have hline : Program.parse "nope; pwd" = .ok (.chain chain) := rfl
  have hchain : chain.isPipeline = false := rfl
  have hop : chain.operators[0]? = some .sequence := rfl
  have hran := (proceeds_after_sequence_iff hline hchain hop .epoch s).2
  refine ⟨hline, hchain, hop, hran.2 fun j hj => ?_⟩
  obtain rfl : j = 0 := Nat.le_zero.1 hj
  rw [chainCalls, callsAfter, Calls.brokeOff_cons_zero_iff, hfirst]
  exact Bool.noConfusion

/-- An alias whose line cannot be read ends the chain: the command behind the semicolon is not
run. -/
theorem unreadable_alias_ends_chain :
    let s := (Session.new (DefaultTree.fileSystem .epoch)).afterLines [(.epoch, "alias bad='|'")]
    let chain : Chain := { first := { word := "bad" }, rest := [(.sequence, { word := "pwd" })] }
    Program.parse "bad; pwd" = .ok (.chain chain) ∧ chain.isPipeline = false ∧
      chain.operators[0]? = some .sequence ∧
      ¬ (chainCalls runOutermost chain none .epoch s).Ran 1 := by
  have hfirst : ((runOutermost { word := "bad" } none).run .epoch
      ((Session.new (DefaultTree.fileSystem .epoch)).afterLines
        [(.epoch, "alias bad='|'")])).outcome.toBool = false := by
    decide +kernel
  intro s chain
  have hop : chain.operators[0]? = some .sequence := rfl
  have hbroke : (chainCalls runOutermost chain none .epoch s).BrokeOff 0 := by
    rw [chainCalls, callsAfter, Calls.brokeOff_cons_zero_iff]
    exact hfirst
  refine ⟨rfl, rfl, hop, fun hran => ?_⟩
  exact (ran_chainCalls_iff runOutermost hop none .epoch s).1 hran 0 (Nat.le_refl 0) hbroke

end Execution

end VirtualShell
