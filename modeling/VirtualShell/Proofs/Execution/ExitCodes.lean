import VirtualShell.Proofs.Execution.Calls
import VirtualShell.Proofs.Execution.Transparent
import VirtualShell.Proofs.Text.Digits

/-!
# The last exit code within a chain

The exit code of a command is kept in two places while a chain is run. The chain itself keeps the
result of the last command that it has run, and decides by its exit code which command comes next.
The session keeps the exit code that `$?` stands for.

A command notes its exit code in the session when it is done (`lastExitCode_runCommand`), with one
exception: a command of which nothing is left once its variables are filled in succeeds without a
note. So the command that is run next sees the exit code that has let it run, unless the one before
it was empty and the exit code from before that was not zero (`sees_deciding_code_iff`).
-/

namespace VirtualShell.Execution

/-! ## Noting exit codes -/

/-- Whenever the action comes to a result, its exit code is that of the session it leaves. -/
def NotesCode (action : Shell Result) : Prop :=
  ∀ now s r, (action.run now s).outcome = .ok r →
    (action.run now s).session.lastExitCode = r.exitCode

/-- Finishing a command notes its exit code. -/
theorem notesCode_finish (r : Result) : NotesCode (finish r) := by
  intro now s r' hr
  cases hr
  rfl

/-- It is the last action that counts. -/
theorem NotesCode.bind {α : Type} (first : Shell α) {next : α → Shell Result}
    (h : ∀ a, NotesCode (next a)) : NotesCode (first >>= next) := by
  intro now s r
  change (Shell.bind first next now s).outcome = .ok r →
    (Shell.bind first next now s).session.lastExitCode = r.exitCode
  rw [Shell.bind]
  cases (first now s).outcome with
  | error e =>
    intro hr
    cases hr
  | ok a => exact h a now (first now s).session r

variable {d : Runner} {c : Command} {stdin : Option String} {now : Timestamp} {s : Session}
  {r : Result}

/-- A command that is not empty once it is filled in notes its exit code, whether it is run, only
answers that it reads input, or cannot read its input. -/
theorem lastExitCode_runCommand (hc : (expandCommand s c).isEmpty = false)
    (hr : ((runCommand d c stdin).run now s).outcome = .ok r) :
    ((runCommand d c stdin).run now s).session.lastExitCode = r.exitCode := by
  rw [runCommand, Shell.run_session_bind] at hr ⊢
  simp only [hc, Bool.false_eq_true, if_false] at hr ⊢
  refine NotesCode.bind _ (fun _ => NotesCode.bind _ fun input => ?_) now s r hr
  cases input with
  | done r => exact notesCode_finish r
  | text stdin =>
    refine NotesCode.bind _ fun r => ?_
    cases (expandCommand s c).output with
    | none => exact NotesCode.bind _ notesCode_finish
    | some redirect => exact NotesCode.bind _ notesCode_finish

/-- An empty command succeeds and leaves everything as it is. -/
theorem run_runCommand_of_isEmpty (hc : (expandCommand s c).isEmpty = true) :
    (runCommand d c stdin).run now s = { outcome := .ok .ok, session := s } := by
  rw [runCommand, Shell.run_session_bind]
  simp only [hc, if_true]
  rfl

/-- After a command the session knows its exit code, unless the command was empty and the exit code
from before is another one than that of an empty command. -/
theorem lastExitCode_eq_iff (hr : ((runCommand d c stdin).run now s).outcome = .ok r) :
    ((runCommand d c stdin).run now s).session.lastExitCode = r.exitCode ↔
      ((expandCommand s c).isEmpty = true → s.lastExitCode = 0) := by
  cases hc : (expandCommand s c).isEmpty with
  | true =>
    rw [run_runCommand_of_isEmpty hc] at hr ⊢
    cases hr
    exact ⟨fun h _ => h, fun h => h rfl⟩
  | false => exact iff_of_true (lastExitCode_runCommand hc hr) nofun

/-! ## Filling in exit codes -/

/-- The sign for the exit code stands for the one that was noted last. -/
theorem expandText_code (s : Session) : expandText s "$?" = Text.intText s.lastExitCode := by
  have hdollar : '$' ∉ (Text.intText s.lastExitCode).toList :=
    Text.notMem_intText (by decide) (by decide) _
  have hcode (code : List Char) : Text.replacePair '$' '?' code "$?".toList = code := by
    simp [Text.replacePair]
  rw [expandText, hcode, String.ofList_toList, Environment.expand_of_notMem _ hdollar]

/-- Sessions that differ in their last exit code only fill in a command alike, whatever it is, just
where they do not differ at all. -/
theorem expandCommand_withCode_iff (s : Session) (code : Int) :
    (∀ c, expandCommand s c = expandCommand { s with lastExitCode := code } c) ↔
      s.lastExitCode = code := by
  constructor
  · intro h
    have hword := congrArg Command.word (h { word := "$?" })
    simp only [expandCommand, expandText_code] at hword
    exact Text.intText_injective hword
  · rintro rfl c
    rfl

/-! ## Commands in a row -/

namespace Calls

/-- No command before this place was run, but the one at it was. -/
structure First (calls : Calls) (i : Nat) : Prop where
  ran : calls.Ran i
  skipped : ∀ k < i, ¬ calls.Ran k

/-- The command at place `i` is the one that was run next after that at place `j`. -/
@[mk_iff]
structure Follows (calls : Calls) (j i : Nat) : Prop where
  lt : j < i
  ran_before : calls.Ran j
  ran : calls.Ran i
  skipped : ∀ k < i, j < k → ¬ calls.Ran k

instance (calls : Calls) (i : Nat) : Decidable (calls.Ran i) :=
  decidable_of_iff (calls[i]?.join.isSome = true) (by
    rw [Option.isSome_iff_exists]
    simp only [Option.join_eq_some_iff, Ran])

instance (calls : Calls) (j i : Nat) : Decidable (calls.Follows j i) :=
  decidable_of_iff' _ (follows_iff calls j i)

/-- The result of the command at a place, if it was run and did not break off. -/
def result? (calls : Calls) (i : Nat) : Option Result :=
  calls[i]?.join.bind fun step => step.outcome.toOption

/-- The session that the commands before a place leave. -/
def sessionAt (s : Session) : Calls → Nat → Session
  | some step :: calls, i + 1 => sessionAt step.session calls i
  | none :: calls, i + 1 => sessionAt s calls i
  | _, _ => s

variable {calls : Calls} {call : Option (Step Result)} {i j : Nat}

/-- The result of a call is the one that its step came to. -/
theorem result?_of_outcome {step : Step Result} {r : Result} (hstep : calls[i]? = some (some step))
    (hr : step.outcome = .ok r) : calls.result? i = some r := by
  rw [result?, hstep, Option.join_some, Option.bind_some, hr]
  rfl

/-- Without calls none ran. -/
theorem not_ran_nil : ¬ Ran [] i := by
  rintro ⟨step, hstep⟩
  cases hstep

/-- A call that was left out did not run. -/
theorem not_ran_none_cons_zero : ¬ Ran (none :: calls) 0 := by
  rintro ⟨step, hstep⟩
  cases hstep

/-- A call that follows another one is not the first. -/
theorem Follows.exists_succ (h : calls.Follows j i) : ∃ i', i = i' + 1 :=
  Nat.exists_eq_add_one_of_ne_zero (Nat.ne_zero_of_lt h.lt)

/-- What follows the first call is the first one that ran of the others. -/
theorem follows_cons_zero (h : Follows (call :: calls) 0 (i + 1)) : calls.First i where
  ran := h.ran
  skipped k hk := h.skipped (k + 1) (Nat.succ_lt_succ hk) (Nat.succ_pos k)

/-- Among the later calls, one follows another as it does among all. -/
theorem follows_cons_succ (h : Follows (call :: calls) (j + 1) (i + 1)) : calls.Follows j i where
  lt := Nat.lt_of_succ_lt_succ h.lt
  ran_before := h.ran_before
  ran := h.ran
  skipped k hk hjk := h.skipped (k + 1) (Nat.succ_lt_succ hk) (Nat.succ_lt_succ hjk)

/-- As long as no command is run, the session stays. -/
theorem sessionAt_of_skipped (s : Session) (h : ∀ k < i, ¬ calls.Ran k) :
    calls.sessionAt s i = s := by
  induction calls generalizing i with
  | nil => simp [sessionAt]
  | cons call calls ih =>
    cases i with
    | zero => simp [sessionAt]
    | succ i =>
      cases call with
      | some step => exact absurd ⟨step, rfl⟩ (h 0 (Nat.succ_pos i))
      | none => exact ih fun k hk => h (k + 1) (Nat.succ_lt_succ hk)

/-- The next command that is run finds the session that the one before it has left. -/
theorem sessionAt_of_follows (s : Session) (h : calls.Follows j i) {step : Step Result}
    (hstep : calls[j]? = some (some step)) : calls.sessionAt s i = step.session := by
  obtain ⟨i, rfl⟩ := h.exists_succ
  induction calls generalizing s j i with
  | nil => cases hstep
  | cons call calls ih =>
    cases j with
    | zero =>
      obtain rfl : call = some step := Option.some.inj hstep
      exact sessionAt_of_skipped step.session (follows_cons_zero h).skipped
    | succ j =>
      have hrest := follows_cons_succ h
      obtain ⟨i, rfl⟩ := hrest.exists_succ
      cases call with
      | some first => exact ih first.session hstep i hrest
      | none => exact ih s hstep i hrest

end Calls

/-! ## The command that is run next -/

section Chain

variable {run : Runner} {last : Result} {links : List (Operator × Command)} {i j : Nat}

/-- A later call ran only if the first one came to a result. -/
theorem ran_callsAfter {step : Step Result} {more : Nat} {next : Result → Calls}
    (h : (callsAfter step more next).Ran (i + 1)) :
    ∃ r, step.outcome = .ok r ∧ callsAfter step more next = some step :: next r := by
  rw [callsAfter] at h ⊢
  cases houtcome : step.outcome with
  | ok r => exact ⟨r, rfl, rfl⟩
  | error e =>
    rw [houtcome] at h
    exact absurd h (Calls.not_ran_replicate more i)

/-- A command behind an operator that was run has been run on no input and in the session that those
before it have left. -/
theorem getElem?_restCalls (h : (restCalls run now s last links).Ran i) :
    ∃ c, (links.map Prod.snd)[i]? = some c ∧
      (restCalls run now s last links)[i]?
        = some (some ((run c none).run now ((restCalls run now s last links).sessionAt s i))) := by
  induction links generalizing s last i with
  | nil => exact absurd h Calls.not_ran_nil
  | cons link links ih =>
    obtain ⟨op, c⟩ := link
    rw [restCalls] at h ⊢
    by_cases hp : proceeds op last.exitCode
    · simp only [hp, if_true] at h ⊢
      cases i with
      | zero => exact ⟨c, rfl, rfl⟩
      | succ i =>
        obtain ⟨r, -, hcalls⟩ := ran_callsAfter h
        rw [hcalls] at h ⊢
        exact ih h
    · simp only [hp, if_false, Bool.false_eq_true] at h ⊢
      cases i with
      | zero => exact absurd h Calls.not_ran_none_cons_zero
      | succ i => exact ih h

/-- The operators in front of the first command that is run: all but the last of them hold it back
after `last`. -/
theorem proceeds_iff_of_first (h : (restCalls run now s last links).First i) {k : Nat}
    {op : Operator} (hk : k ≤ i) (hop : (links.map Prod.fst)[k]? = some op) :
    proceeds op last.exitCode = true ↔ k = i := by
  induction links generalizing i k with
  | nil => cases hop
  | cons link links ih =>
    obtain ⟨first, c⟩ := link
    obtain ⟨hran, hskipped⟩ := h
    rw [restCalls] at hran hskipped
    by_cases hp : proceeds first last.exitCode
    · simp only [hp, if_true] at hskipped
      obtain rfl : i = 0 := by
        by_contra hi
        exact hskipped 0 (Nat.pos_of_ne_zero hi) ⟨_, rfl⟩
      obtain rfl : k = 0 := Nat.le_zero.mp hk
      obtain rfl : first = op := Option.some.inj hop
      exact iff_of_true hp rfl
    · simp only [hp, if_false, Bool.false_eq_true] at hran hskipped
      cases i with
      | zero => exact absurd hran Calls.not_ran_none_cons_zero
      | succ i =>
        cases k with
        | zero =>
          obtain rfl : first = op := Option.some.inj hop
          exact iff_of_false hp (Nat.succ_ne_zero i).symm
        | succ k =>
          have hfirst : (restCalls run now s last links).First i :=
            ⟨hran, fun m hm => hskipped (m + 1) (Nat.succ_lt_succ hm)⟩
          rw [ih hfirst (Nat.le_of_succ_le_succ hk) hop, Nat.add_right_cancel_iff]

/-- The command at place `j` has come to a result, by the exit code of which the operators in front
of the places behind it hold back all commands up to that at place `i`, and let that one run. -/
def Decides (calls : Calls) (operators : List Operator) (j i : Nat) : Prop :=
  ∃ step r, calls[j]? = some (some step) ∧ step.outcome = .ok r ∧
    ∀ k op, j < k → k ≤ i → operators[k]? = some op → (proceeds op r.exitCode = true ↔ k = i)

/-- What decides among the later calls decides among all. -/
theorem Decides.cons {calls : Calls} {operators : List Operator} (h : Decides calls operators j i)
    (call : Option (Step Result)) (first : Operator) :
    Decides (call :: calls) (first :: operators) (j + 1) (i + 1) := by
  obtain ⟨step, r, hstep, hr, hdecides⟩ := h
  refine ⟨step, r, hstep, hr, fun k op hjk hki hop => ?_⟩
  cases k with
  | zero => omega
  | succ k =>
    rw [hdecides k op (Nat.lt_of_succ_lt_succ hjk) (Nat.le_of_succ_le_succ hki) hop,
      Nat.add_right_cancel_iff]

/-- The first command of a chain decides over those behind it, and one of these over the rest if
that holds of them by themselves. The operator in front of the first command is never asked. -/
theorem decides_callsAfter {step : Step Result} {more : Nat} (first : Operator)
    (hrest : ∀ r j i, (restCalls run now s r links).Follows j i →
      Decides (restCalls run now s r links) (links.map Prod.fst) j i)
    (h : (callsAfter step more fun r => restCalls run now s r links).Follows j i) :
    Decides (callsAfter step more fun r => restCalls run now s r links)
      (first :: links.map Prod.fst) j i := by
  obtain ⟨i, rfl⟩ := h.exists_succ
  obtain ⟨r, hr, hcalls⟩ := ran_callsAfter h.ran
  rw [hcalls] at h ⊢
  cases j with
  | zero =>
    refine ⟨step, r, rfl, hr, fun k op hk hki hop => ?_⟩
    cases k with
    | zero => omega
    | succ k =>
      rw [proceeds_iff_of_first (Calls.follows_cons_zero h) (Nat.le_of_succ_le_succ hki) hop,
        Nat.add_right_cancel_iff]
  | succ j => exact (hrest r j i (Calls.follows_cons_succ h)).cons _ first

/-- Among the calls of a chain, the operator in front of a command decides on the call that ran
before it. -/
theorem decides_restCalls (h : (restCalls run now s last links).Follows j i) :
    Decides (restCalls run now s last links) (links.map Prod.fst) j i := by
  induction links generalizing s last j i with
  | nil => exact absurd h.ran Calls.not_ran_nil
  | cons link links ih =>
    obtain ⟨op, c⟩ := link
    rw [restCalls] at h ⊢
    by_cases hp : proceeds op last.exitCode
    · simp only [hp, if_true] at h ⊢
      exact decides_callsAfter op (fun r j i => ih) h
    · simp only [hp, if_false, Bool.false_eq_true] at h ⊢
      obtain ⟨i, rfl⟩ := h.exists_succ
      cases j with
      | zero => exact absurd h.ran_before Calls.not_ran_none_cons_zero
      | succ j => exact (ih (Calls.follows_cons_succ h)).cons none op

/-- Only the first command of a chain gets the input. -/
theorem getElem?_chainCalls {chain : Chain} (h : (chainCalls run chain stdin now s).Ran i) :
    ∃ c, chain.commands[i]? = some c ∧
      (chainCalls run chain stdin now s)[i]?
        = some (some ((run c (if i = 0 then stdin else none)).run now
            ((chainCalls run chain stdin now s).sessionAt s i))) := by
  rw [chainCalls] at h ⊢
  cases i with
  | zero => exact ⟨chain.first, rfl, rfl⟩
  | succ i =>
    obtain ⟨r, -, hcalls⟩ := ran_callsAfter h
    simp only [hcalls] at h ⊢
    exact getElem?_restCalls h

/-- So it is for a whole chain, whose first command stands behind a semicolon, as it were. -/
theorem decides_chainCalls {chain : Chain}
    (h : (chainCalls run chain stdin now s).Follows j i) :
    Decides (chainCalls run chain stdin now s) (.sequence :: chain.operators) j i :=
  decides_callsAfter .sequence (fun _ _ _ => decides_restCalls) h

end Chain

/-- Of two commands of a chain that are run one after the other, the first has come to a result, by
the exit code of which all operators in between are decided, and the second is run in the session
that the first has left. There `$?` stands for this exit code, in every word, argument and target,
just where the first command was not empty once it was filled in, or the exit code before it was
zero. -/
theorem sees_deciding_code_iff (nested : LineRunner) (chain : Chain) (stdin : Option String)
    (now : Timestamp) (s : Session) {j i : Nat}
    (h : (chainCalls (runCommand (dispatch nested)) chain stdin now s).Follows j i) :
    let run := runCommand (dispatch nested)
    let calls := chainCalls run chain stdin now s
    let before := calls.sessionAt s j
    let after := calls.sessionAt s i
    (runChain run chain stdin).run now s
        = { outcome := (Step.gather s calls.steps).outcome.map Result.combineAll
            session := (Step.gather s calls.steps).session
            notes := (Step.gather s calls.steps).notes } ∧
    ∃ c c' step r, chain.commands[j]? = some c ∧ chain.commands[i]? = some c' ∧
      step = (run c (if j = 0 then stdin else none)).run now before ∧
      calls[j]? = some (some step) ∧ step.outcome = .ok r ∧ step.session = after ∧
      calls[i]? = some (some ((run c' none).run now after)) ∧
      (∀ k op, j ≤ k → k < i → chain.operators[k]? = some op →
        (proceeds op r.exitCode = true ↔ k + 1 = i)) ∧
      ((∀ c, expandCommand after c = expandCommand { after with lastExitCode := r.exitCode } c) ↔
        ((expandCommand before c).isEmpty = true → before.lastExitCode = 0)) := by
  intro run calls before after
  obtain ⟨c, hc, hfirst⟩ := getElem?_chainCalls h.ran_before
  obtain ⟨c', hc', hsecond⟩ := getElem?_chainCalls h.ran
  have hi : i ≠ 0 := Nat.ne_zero_of_lt h.lt
  rw [if_neg hi] at hsecond
  obtain ⟨step, r, hstep, hr, hdecides⟩ := decides_chainCalls h
  obtain rfl := Option.some.inj (Option.some.inj (hfirst.symm.trans hstep))
  have hsession := Calls.sessionAt_of_follows s h hfirst
  have hcode := lastExitCode_eq_iff hr
  rw [← hsession, ← expandCommand_withCode_iff] at hcode
  refine ⟨run_runChain run chain stdin now s, c, c', _, r, hc, hc', rfl, hfirst, hr, hsession.symm,
    hsecond, ?_, hcode⟩
  intro k op hjk hki hop
  rw [hdecides (k + 1) op (Nat.lt_succ_of_le hjk) hki hop]

/-- The command behind `||` sees the exit code of the one that has failed, over the one that was not
run. -/
theorem sees_code_of_failed_command :
    let s := Session.new (DefaultTree.fileSystem .epoch)
    let chain : Chain :=
      { first := { word := "false" }
        rest := [(.and, { word := "pwd" }), (.or, { word := "echo", args := ["$?"] })] }
    let calls := chainCalls runOutermost chain none .epoch s
    Program.parse "false && pwd || echo $?" = .ok (.chain chain) ∧ calls.Follows 0 2 ∧
      (calls.result? 0).map Result.exitCode = some 1 ∧
      (calls.result? 2).map Result.text = some "1\n" ∧
      ∀ c, expandCommand (calls.sessionAt s 2) c
        = expandCommand { calls.sessionAt s 2 with lastExitCode := 1 } c := by
  intro s chain calls
  have hfollows : calls.Follows 0 2 := by decide +kernel
  have hcode : (calls.result? 0).map Result.exitCode = some 1 := by decide +kernel
  refine ⟨rfl, hfollows, hcode, by decide +kernel, ?_⟩
  obtain ⟨-, c, -, step, r, -, -, -, hstep, hr, -, -, -, hsees⟩ :=
    sees_deciding_code_iff (some (runLine (Aliases.maxDepth - 1))) chain none .epoch s hfollows
  have hresult : calls.result? 0 = some r := Calls.result?_of_outcome hstep hr
  have hone : r.exitCode = 1 := by
    rw [hresult] at hcode
    exact Option.some.inj hcode
  rw [← hone]
  exact hsees.2 fun _ => rfl

/-- What is left of `$E` is empty and succeeds, so the command behind `&&` is run; but it sees the
exit code of the command before that. -/
theorem sees_code_before_empty_command :
    let s := (Session.new (DefaultTree.fileSystem .epoch)).afterLines [(.epoch, "export E=")]
    let chain : Chain :=
      { first := { word := "false" }
        rest := [(.sequence, { word := "$E" }), (.and, { word := "echo", args := ["$?"] })] }
    let calls := chainCalls runOutermost chain none .epoch s
    Program.parse "false; $E && echo $?" = .ok (.chain chain) ∧ calls.Follows 1 2 ∧
      (calls.result? 1).map Result.exitCode = some 0 ∧
      (calls.result? 2).map Result.text = some "1\n" := by
  refine ⟨rfl, ?_, ?_, ?_⟩
  · decide +kernel
  · decide +kernel
  · decide +kernel

end VirtualShell.Execution
