import VirtualShell.Proofs.Execution.Runs
import VirtualShell.Proofs.Result
import VirtualShell.Proofs.Session.Laws

/-!
# What becomes of error messages

The runners answer with a result, and tell nothing about the commands that were run for it. Here
they are run with a log beside the result (`Report`): an entry for each command, at every level of
nesting, with what it came to. Without their logs the reports are the results
(`result_reportLine`), so the log is that of the run itself.

Only a chain puts messages together. A command that succeeded loses its messages where its output
is redirected, as does a stage of a pipeline where another stage follows it; the entries of such
commands are marked as lost. They can have messages nevertheless, as the line of an alias succeeds
if its last command does. All other messages occur in the error of the line (`kept_messages_occur`).
-/

namespace VirtualShell

/-! ## Messages within messages -/

/-- A message is a part of the error of a result. -/
def Result.Mentions (r : Result) (message : String) : Prop :=
  ∃ error, r.error = some error ∧ message.toList <:+: error.toList

/-- A text occurs in every line that it is joined into. -/
theorem Text.isInfix_joinWith {texts : List String} {text : String} (h : text ∈ texts)
    (sep : String) : text.toList <:+: (joinWith sep texts).toList := by
  induction texts with
  | nil => cases h
  | cons first rest ih =>
    cases rest with
    | nil =>
      obtain rfl := List.mem_singleton.mp h
      rw [joinWith, String.intercalate_singleton]
    | cons second rest =>
      rw [joinWith, String.intercalate_cons_cons, String.toList_append, String.toList_append]
      rcases List.mem_cons.mp h with rfl | hrest
      · exact ⟨[], sep.toList ++ _, (List.append_assoc _ _ _).symm⟩
      · exact (ih hrest).trans (List.suffix_append _ _).isInfix

namespace Result

/-- A result mentions its message. -/
theorem mentions_of_message? {r : Result} {message : String} (h : r.message? = some message) :
    r.Mentions message := by
  obtain ⟨herror, -⟩ := Option.filter_eq_some_iff.mp h
  exact ⟨message, herror, List.infix_rfl⟩

/-- What a result mentions, its combination with others mentions. -/
theorem Mentions.combine {r first : Result} {rest : List Result} {message : String}
    (h : r.Mentions message) (hmessage : message ≠ "") (hr : r ∈ first :: rest) :
    (combine first rest).Mentions message := by
  obtain ⟨error, herror, hinfix⟩ := h
  have hne : error ≠ "" := by
    rintro rfl
    exact hmessage (String.toList_inj.mp (List.infix_nil.mp hinfix))
  have hown : r.message? = some error := by
    rw [message?, herror, Option.filter_some]
    simp [hne]
  have hmem : error ∈ (first :: rest).filterMap message? := List.mem_filterMap.mpr ⟨r, hr, hown⟩
  refine ⟨_, ?_, hinfix.trans (Text.isInfix_joinWith hmem "\n")⟩
  rw [error_combine, joinMessages, if_neg]
  simpa using List.ne_nil_of_mem hmem

end Result

namespace Execution

/-! ## Reports -/

/-- A command that was run, with what it came to. -/
structure Entry where
  result : Result
  /-- Its message was dropped on the way to the result of the line. -/
  lost : Bool := false
  deriving DecidableEq

/-- A result with the commands that were run for it, in order. -/
structure Report where
  result : Result
  log : List Entry := []
  deriving DecidableEq

/-- The log of a result that is dropped. -/
def Report.dropped (report : Report) : List Entry :=
  report.log.map ({ · with lost := true })

/-- Every message that is not lost occurs in the error of the result. -/
def Report.Heard (report : Report) : Prop :=
  ∀ e ∈ report.log, e.lost = false → ∀ message, e.result.message? = some message →
    report.result.Mentions message

/-- How a command is run on its input, with a report. -/
abbrev Reporter := Command → Option String → Shell Report

/-- The report of a command that has answered: the command itself is entered behind those that were
run for it. -/
def Report.answered (report : Report) : Report :=
  { report with log := report.log ++ [{ result := report.result }] }

/-- The report of a command whose output was redirected with a result. -/
def Report.redirected (report : Report) (r : Result) : Report :=
  if report.result.success then { result := r, log := report.dropped ++ [{ result := r }] }
  else { report with result := r }

/-- The report of a redirected result is about that result. -/
theorem Report.result_redirected (report : Report) (r : Result) :
    (report.redirected r).result = r := by
  rw [redirected]
  split <;> rfl

/-- The report of a stage of a pipeline, behind the stages before it. -/
def Report.piped (last report : Report) : Report :=
  { report with log := last.dropped ++ report.log }

/-- The report of commands in a row. -/
def Report.combine (first : Report) (rest : List Report) : Report where
  result := Result.combine first.result (rest.map Report.result)
  log := first.log ++ rest.flatMap Report.log

/-! ## Runs with reports -/

/-- Runs one command and reports it. -/
def reportCommand (dispatch : Reporter) : Reporter := fun c stdin => do
  let c := expandCommand (← Shell.session) c
  if c.isEmpty then return { result := .ok }
  Shell.note (.debug .executor ("executing " ++ c.text))
  match ← inputOf c stdin with
  | .done r =>
    let r ← finish r
    return Report.answered { result := r }
  | .text stdin =>
    let report ← dispatch c stdin
    let report ← match c.output with
      | some redirect => report.answered.redirected <$> redirectOutput redirect report.result
      | none => pure report.answered
    let _ ← finish report.result
    return report

/-- Runs the further commands of a chain and reports those that ran. -/
def reportRest (run : Reporter) (last : Result) : List (Operator × Command) → Shell (List Report)
  | [] => return []
  | (op, command) :: rest =>
    if proceeds op last.exitCode then do
      let report ← run command none
      return report :: (← reportRest run report.result rest)
    else reportRest run last rest

/-- Runs a chain and reports all commands that ran. -/
def reportChain (run : Reporter) (chain : Chain) (stdin : Option String) : Shell Report := do
  let first ← run chain.first stdin
  return first.combine (← reportRest run first.result chain.rest)

/-- Runs a pipeline and reports all stages that ran; only the last of them is heard. -/
def reportPipeline (run : Reporter) (last : Report) (stdin : Option String) :
    List Command → Shell Report
  | [] => return last
  | command :: rest => do
    let report ← last.piped <$> run command stdin
    if report.result.success then reportPipeline run report (some report.result.text) rest
    else return report

/-- How the line of an alias is run with a report; `none` where lines are nested too deeply. -/
abbrev LineReporter := Option (String → Option String → Shell Report)

/-- Runs the line that the word of a command resolves to with a report, or else the command that the
shell knows by this word, for which nothing else is run. -/
def reportResolved (nested : LineReporter) (c : Command) (stdin : Option String)
    (resolved : Option String) : Shell Report :=
  match nested, resolved with
  | some run, some line => do
    Shell.note (.debug .executor ("alias " ++ c.word ++ " -> " ++ line))
    run line stdin
  | _, _ => ({ result := · }) <$> runResolved none c stdin resolved

/-- Runs a command by its word, with a report of what is run for it. -/
def reportDispatch (nested : LineReporter) : Reporter := fun c stdin => do
  let aliases := (← Shell.session).aliases
  let resolved ←
    if aliases.contains c.word then do
      let resolution ← Shell.ofExcept
        ((aliases.resolve c.word (c.args.map Alias.quoteArgument)).mapError Fault.number)
      Shell.noteAll (Note.ofResolution resolution)
      pure resolution.line?
    else pure none
  reportResolved nested c stdin resolved

/-- Runs what a line holds, with a report. -/
def reportProgram (run : Reporter) (p : Program) (stdin : Option String) : Shell Report :=
  match p with
  | .command c => run c stdin
  | .chain chain =>
    if chain.isPipeline then reportPipeline run { result := .ok } stdin chain.commands
    else reportChain run chain stdin

/-- Reads and runs a line, with a report. -/
def reportLineWith (nested : LineReporter) (line : String) (stdin : Option String) :
    Shell Report := do
  let program ← readLine line
  reportProgram (reportCommand (reportDispatch nested)) program stdin

/-- Reads and runs a line in which aliases may nest so many levels deep, with a report. -/
def reportLine : Nat → String → Option String → Shell Report
  | 0 => reportLineWith none
  | depth + 1 => reportLineWith (some (reportLine depth))

/-! ## Reports without their logs -/

section Erasure

variable {report : Reporter} {run : Runner}

/-- Reporting a command runs it. -/
theorem result_reportCommand {dispatch : Reporter} {d : Runner}
    (h : ∀ c stdin, Report.result <$> dispatch c stdin = d c stdin) (c : Command)
    (stdin : Option String) :
    Report.result <$> reportCommand dispatch c stdin = runCommand d c stdin := by
  -- The exit code is noted once the result is known, and is not what is reported.
  have hfinish (r : Result) : (finish r >>= fun _ => pure r) = finish r := by
    simp only [finish, bind_assoc, pure_bind]
  rw [reportCommand, runCommand, map_bind]
  refine congrArg _ (funext fun s => ?_)
  dsimp only
  split
  · rw [map_pure]
  rw [map_bind]
  refine congrArg _ (funext fun _ => ?_)
  rw [map_bind]
  refine congrArg _ (funext fun input => ?_)
  cases input with
  | done r => simp only [map_bind, map_pure, Report.answered, bind_pure]
  | text stdin =>
    dsimp only
    rw [map_bind, ← h, bind_map_left]
    refine congrArg _ (funext fun report => ?_)
    cases (expandCommand s c).output with
    | none => simp only [pure_bind, map_bind, map_pure, Report.answered, hfinish]
    | some redirect =>
      simp only [bind_map_left, map_bind, map_pure, hfinish, Report.result_redirected]

/-- Reporting the links of a chain runs them. -/
theorem result_reportRest (h : ∀ c stdin, Report.result <$> report c stdin = run c stdin)
    (last : Result) (links : List (Operator × Command)) :
    List.map Report.result <$> reportRest report last links = runRest run last links := by
  induction links generalizing last with
  | nil => simp only [reportRest, runRest, map_pure, List.map_nil]
  | cons link links ih =>
    obtain ⟨op, c⟩ := link
    rw [reportRest, runRest]
    split
    · simp only [← h, ← ih, map_bind, bind_map_left, map_pure, List.map_cons]
    · exact ih last

/-- Reporting a chain runs it. -/
theorem result_reportChain (h : ∀ c stdin, Report.result <$> report c stdin = run c stdin)
    (chain : Chain) (stdin : Option String) :
    Report.result <$> reportChain report chain stdin = runChain run chain stdin := by
  simp only [reportChain, runChain, ← h, ← result_reportRest h, map_bind, bind_map_left, map_pure,
    Report.combine]

/-- Reporting a pipeline runs it. -/
theorem result_reportPipeline (h : ∀ c stdin, Report.result <$> report c stdin = run c stdin)
    (last : Report) (stdin : Option String) (commands : List Command) :
    Report.result <$> reportPipeline report last stdin commands
      = runPipeline run last.result stdin commands := by
  induction commands generalizing last stdin with
  | nil => simp only [reportPipeline, runPipeline, map_pure]
  | cons c rest ih =>
    rw [reportPipeline, runPipeline, ← h, map_bind, bind_map_left, bind_map_left]
    refine congrArg _ (funext fun next => ?_)
    change Report.result <$> (if next.result.success = true then _ else _) = _
    split
    · exact ih (last.piped next) _
    · rw [map_pure]
      rfl

/-- Reporting a resolved alias runs its line. -/
theorem result_reportResolved {nested : LineReporter} {lines : LineRunner}
    (h : lines = nested.map fun run line stdin => Report.result <$> run line stdin) (c : Command)
    (stdin : Option String) (resolved : Option String) :
    Report.result <$> reportResolved nested c stdin resolved
      = runResolved lines c stdin resolved := by
  subst h
  cases resolved with
  | none => cases nested <;> simp only [reportResolved, Functor.map_map, id_map'] <;> rfl
  | some line =>
    cases nested with
    | none => simp only [reportResolved, Functor.map_map, id_map', Option.map_none]
    | some run => simp only [reportResolved, map_bind, Option.map_some, runResolved]

/-- Reporting a dispatch runs it. -/
theorem result_reportDispatch {nested : LineReporter} {lines : LineRunner}
    (h : lines = nested.map fun run line stdin => Report.result <$> run line stdin) (c : Command)
    (stdin : Option String) :
    Report.result <$> reportDispatch nested c stdin = dispatch lines c stdin := by
  rw [reportDispatch, dispatch, map_bind]
  refine congrArg _ (funext fun s => ?_)
  dsimp only
  split <;> simp only [map_bind, result_reportResolved h]

/-- Reporting what a line holds runs it. -/
theorem result_reportProgram (h : ∀ c stdin, Report.result <$> report c stdin = run c stdin)
    (p : Program) (stdin : Option String) :
    Report.result <$> reportProgram report p stdin = runProgram run p stdin := by
  cases p with
  | command c => exact h c stdin
  | chain chain =>
    rw [reportProgram, runProgram]
    split
    · exact result_reportPipeline h _ stdin chain.commands
    · exact result_reportChain h chain stdin

/-- Reporting a line runs it. -/
theorem result_reportLineWith {nested : LineReporter} {lines : LineRunner}
    (h : lines = nested.map fun run line stdin => Report.result <$> run line stdin) (line : String)
    (stdin : Option String) :
    Report.result <$> reportLineWith nested line stdin = runLineWith lines line stdin := by
  have hcommand := result_reportCommand (result_reportDispatch h)
  simp only [reportLineWith, runLineWith, map_bind, result_reportProgram hcommand]

/-- The reports of a line are those of its run. -/
theorem result_reportLine (depth : Nat) (line : String) (stdin : Option String) :
    Report.result <$> reportLine depth line stdin = runLine depth line stdin := by
  induction depth generalizing line stdin with
  | zero =>
    rw [reportLine, runLine]
    exact result_reportLineWith rfl line stdin
  | succ depth ih =>
    rw [reportLine, runLine]
    refine result_reportLineWith ?_ line stdin
    simp only [Option.map_some, ih]

end Erasure

end Execution

/-! ## Which messages are heard -/

/-- Whenever the action comes to a value, the value has the property. -/
def Shell.Ensures {α : Type} (P : α → Prop) (action : Shell α) : Prop :=
  ∀ now s a, (action.run now s).outcome = .ok a → P a

namespace Shell.Ensures

variable {α β : Type} {P : α → Prop} {Q : β → Prop}

/-- An action that only answers ensures what holds of its answer. -/
theorem pure {a : α} (h : P a) : Ensures P (Pure.pure a) := by
  intro now s a' ha
  cases ha
  exact h

/-- Every action ensures what always holds. -/
theorem trivial (action : Shell α) : Ensures (fun _ => True) action :=
  fun _ _ _ _ => True.intro

/-- What an action ensures may be used by what follows it. -/
theorem bind {action : Shell α} {next : α → Shell β} (h : Ensures P action)
    (hnext : ∀ a, P a → Ensures Q (next a)) : Ensures Q (action >>= next) := by
  intro now s b hb
  change (Shell.bind action next now s).outcome = .ok b at hb
  rw [Shell.bind] at hb
  cases ho : (action now s).outcome with
  | error e =>
    rw [ho] at hb
    cases hb
  | ok a =>
    rw [ho] at hb
    exact hnext a (h now s a ho) now _ b hb

/-- Where nothing is known of the first action. -/
theorem of_next {action : Shell α} {next : α → Shell β} (hnext : ∀ a, Ensures Q (next a)) :
    Ensures Q (action >>= next) :=
  (trivial action).bind fun a _ => hnext a

/-- What is ensured of an answer is ensured of what is made of it. -/
theorem map {action : Shell α} (h : Ensures P action) {f : α → β} (hf : ∀ a, P a → Q (f a)) :
    Ensures Q (f <$> action) := by
  rw [map_eq_pure_bind]
  exact h.bind fun a ha => pure (hf a ha)

end Shell.Ensures

namespace Execution

open Shell

/-- Nothing is heard of a log that was dropped. -/
theorem Report.lost_of_mem_dropped {report : Report} {e : Entry} (h : e ∈ report.dropped) :
    e.lost = true := by
  obtain ⟨e, -, rfl⟩ := List.mem_map.mp h
  rfl

/-- A report without messages is heard. -/
theorem Report.heard_of_empty (r : Result) : Heard { result := r } := by
  intro e he
  cases he

/-- A report that is heard stays so when it is answered. -/
theorem Report.Heard.answered {report : Report} (h : report.Heard) : report.answered.Heard := by
  intro e he hlost message hmessage
  rcases List.mem_append.mp he with he | he
  · exact h e he hlost message hmessage
  · obtain rfl := List.mem_singleton.mp he
    exact Result.mentions_of_message? hmessage

/-- A command that failed is not redirected, so its messages stay. -/
theorem Report.Heard.redirected {report : Report} (h : report.Heard) {r : Result}
    (hr : report.result.success = false → r = report.result) : (report.redirected r).Heard := by
  rw [Report.redirected]
  split
  · intro e he hlost message hmessage
    rcases List.mem_append.mp he with he | he
    · rw [lost_of_mem_dropped he] at hlost
      cases hlost
    · obtain rfl := List.mem_singleton.mp he
      exact Result.mentions_of_message? hmessage
  · rename_i hfailed
    rw [hr (Bool.eq_false_iff.mpr hfailed)]
    exact h

/-- So it does behind a pipe. -/
theorem Report.Heard.piped {report : Report} (h : report.Heard) (last : Report) :
    (last.piped report).Heard := by
  intro e he hlost message hmessage
  rcases List.mem_append.mp he with he | he
  · rw [lost_of_mem_dropped he] at hlost
    cases hlost
  · exact h e he hlost message hmessage

/-- Reports that are heard are heard together. -/
theorem Report.heard_combine {first : Report} {rest : List Report} (hfirst : first.Heard)
    (hrest : ∀ report ∈ rest, report.Heard) : (first.combine rest).Heard := by
  intro e he hlost message hmessage
  have hall : ∃ report ∈ first :: rest, e ∈ report.log ∧ report.Heard := by
    rcases List.mem_append.mp he with he | he
    · exact ⟨first, List.mem_cons_self, he, hfirst⟩
    · obtain ⟨report, hreport, he⟩ := List.mem_flatMap.mp he
      exact ⟨report, List.mem_cons_of_mem _ hreport, he, hrest report hreport⟩
  obtain ⟨report, hreport, he, hheard⟩ := hall
  have hne : message ≠ "" := by
    obtain ⟨-, hne⟩ := Option.filter_eq_some_iff.mp hmessage
    simpa using hne
  exact (hheard e he hlost message hmessage).combine hne (List.mem_map_of_mem hreport)

/-- What did not succeed is not redirected. -/
theorem ensures_redirectOutput (redirect : OutputRedirect) (r : Result) :
    Ensures (fun r' => r.success = false → r' = r) (redirectOutput redirect r) := by
  cases hsuccess : r.success with
  | true => exact fun _ _ _ _ => nofun
  | false =>
    have hsame : redirectOutput redirect r = Pure.pure r := by
      rw [redirectOutput, hsuccess]
      rfl
    rw [hsame]
    exact Ensures.pure fun _ => rfl

section Heard

variable {report : Reporter}

/-- The report of a command is heard if that of its dispatch is. -/
theorem heard_reportCommand {dispatch : Reporter}
    (h : ∀ c stdin, Ensures Report.Heard (dispatch c stdin)) (c : Command) (stdin : Option String) :
    Ensures Report.Heard (reportCommand dispatch c stdin) := by
  refine Ensures.of_next fun s => ?_
  dsimp only
  split
  · exact Ensures.pure (Report.heard_of_empty _)
  refine Ensures.of_next fun _ => Ensures.of_next fun input => ?_
  cases input with
  | done r => exact Ensures.of_next fun r => Ensures.pure (Report.heard_of_empty r).answered
  | text stdin =>
    refine (h _ stdin).bind fun report hreport => ?_
    have hend : ∀ report : Report, report.Heard →
        Ensures Report.Heard (finish report.result >>= fun _ => Pure.pure report) :=
      fun report hreport => Ensures.of_next fun _ => Ensures.pure hreport
    cases (expandCommand s c).output with
    | none => exact hend _ hreport.answered
    | some redirect =>
      have hredirected := (ensures_redirectOutput redirect report.result).map
        (Q := Report.Heard) fun r hr => hreport.answered.redirected hr
      exact hredirected.bind hend

/-- The reports of the links of a chain are heard. -/
theorem heard_reportRest (h : ∀ c stdin, Ensures Report.Heard (report c stdin)) (last : Result)
    (links : List (Operator × Command)) :
    Ensures (fun reports => ∀ r ∈ reports, r.Heard) (reportRest report last links) := by
  induction links generalizing last with
  | nil => exact Ensures.pure nofun
  | cons link links ih =>
    obtain ⟨op, c⟩ := link
    rw [reportRest]
    split
    · refine (h c none).bind fun first hfirst => (ih first.result).bind fun rest hrest => ?_
      exact Ensures.pure (List.forall_mem_cons.mpr ⟨hfirst, hrest⟩)
    · exact ih last

/-- The report of a pipeline is heard. -/
theorem heard_reportPipeline (h : ∀ c stdin, Ensures Report.Heard (report c stdin))
    {last : Report} (hlast : last.Heard) (stdin : Option String) (commands : List Command) :
    Ensures Report.Heard (reportPipeline report last stdin commands) := by
  induction commands generalizing last stdin with
  | nil => exact Ensures.pure hlast
  | cons c rest ih =>
    refine ((h c stdin).map fun r hr => hr.piped last).bind fun next hnext => ?_
    split
    · exact ih hnext _
    · exact Ensures.pure hnext

/-- The report of what a line holds is heard. -/
theorem heard_reportProgram (h : ∀ c stdin, Ensures Report.Heard (report c stdin)) (p : Program)
    (stdin : Option String) : Ensures Report.Heard (reportProgram report p stdin) := by
  cases p with
  | command c => exact h c stdin
  | chain chain =>
    rw [reportProgram]
    split
    · exact heard_reportPipeline h (Report.heard_of_empty _) stdin chain.commands
    · refine (h chain.first stdin).bind fun first hfirst => ?_
      refine (heard_reportRest h first.result chain.rest).bind fun rest hrest => ?_
      exact Ensures.pure (Report.heard_combine hfirst hrest)

/-- The report of a dispatch is heard if those of the lines in it are. -/
theorem heard_reportDispatch {nested : LineReporter}
    (h : ∀ run ∈ nested, ∀ line stdin, Ensures Report.Heard (run line stdin)) (c : Command)
    (stdin : Option String) : Ensures Report.Heard (reportDispatch nested c stdin) := by
  have hresolved (resolved : Option String) :
      Ensures Report.Heard (reportResolved nested c stdin resolved) := by
    unfold reportResolved
    split
    · exact Ensures.of_next fun _ => h _ rfl _ stdin
    · exact (Ensures.trivial _).map fun r _ => Report.heard_of_empty r
  refine Ensures.of_next fun s => ?_
  dsimp only
  split
  · exact Ensures.of_next fun _ => Ensures.of_next fun _ => Ensures.of_next hresolved
  · exact Ensures.of_next hresolved

/-- So is the report of a line. -/
theorem heard_reportLineWith {nested : LineReporter}
    (h : ∀ run ∈ nested, ∀ line stdin, Ensures Report.Heard (run line stdin)) (line : String)
    (stdin : Option String) : Ensures Report.Heard (reportLineWith nested line stdin) :=
  Ensures.of_next fun p =>
    heard_reportProgram (heard_reportCommand (heard_reportDispatch h)) p stdin

/-- To any depth of aliases the report of a line is heard. -/
theorem heard_reportLine (depth : Nat) (line : String) (stdin : Option String) :
    Ensures Report.Heard (reportLine depth line stdin) := by
  induction depth generalizing line stdin with
  | zero =>
    rw [reportLine]
    exact heard_reportLineWith (fun run hrun => by cases hrun) line stdin
  | succ depth ih =>
    rw [reportLine]
    refine heard_reportLineWith (fun run hrun => ?_) line stdin
    obtain rfl := Option.some.inj hrun
    exact ih

end Heard

/-! ## Lines -/

/-- A line comes to the result that is reported, or to that of the fault it breaks off with. -/
theorem outcome_execute_eq (line : String) (now : Timestamp) (s : Session) :
    ((execute line).run now s).outcome = .ok (resultOf
      (((reportLine Aliases.maxDepth line none).run now s).outcome.map Report.result)) := by
  rw [(run_execute line now s).1, ← result_reportLine, Shell.run_map]

/-- The report of a line is that of its run. Where the run comes to an end, that is what the line
comes to, and every message of a command that was run occurs in its error, unless it is lost. Where
the run breaks off, the line comes to the message of the fault alone. -/
theorem kept_messages_occur (line : String) (now : Timestamp) (s : Session) :
    let step := (reportLine Aliases.maxDepth line none).run now s
    Report.result <$> reportLine Aliases.maxDepth line none = runLine Aliases.maxDepth line none ∧
      (∀ report, step.outcome = .ok report →
        ((execute line).run now s).outcome = .ok report.result ∧
          ∀ e ∈ report.log, e.lost = false → ∀ message, e.result.message? = some message →
            report.result.Mentions message) ∧
      (∀ fault, step.outcome = .error fault →
        ((execute line).run now s).outcome = .ok (faultResult fault)) := by
  intro step
  have hexecute := outcome_execute_eq line now s
  refine ⟨result_reportLine _ line none, fun report hreport => ⟨?_, ?_⟩, fun fault hfault => ?_⟩
  · rw [hexecute]
    exact congrArg (fun x => Except.ok (resultOf (x.map Report.result))) hreport
  · exact heard_reportLine _ line none now s report hreport
  · rw [hexecute]
    exact congrArg (fun x => Except.ok (resultOf (x.map Report.result))) hfault

/-- A session on an empty tree, in which `both` stands for a command that fails and one that does
not. -/
def bothSession : Session :=
  (Session.new { root := Node.newDirectory .epoch "/" }).afterLines
    [(.epoch, "alias both='cat nope ; echo hi'")]

/-- What has a value did not break off. -/
theorem exists_ok_of_toOption {ε α β : Type} {x : Except ε α} {f : α → β} {b : β}
    (h : x.toOption.map f = some b) : ∃ a, x = .ok a ∧ f a = b := by
  cases x with
  | error e => cases h
  | ok a => exact ⟨a, rfl, Option.some.inj h⟩

/-- In a chain the message of a nested command is kept. -/
theorem nested_message_occurs :
    ∃ report, ((reportLine Aliases.maxDepth "both && pwd" none).run .epoch bothSession).outcome
        = .ok report ∧
      (∃ e ∈ report.log, e.lost = false ∧
        e.result.message? = some "cat: nope: No such file or directory") ∧
      ((execute "both && pwd").run .epoch bothSession).outcome = .ok report.result ∧
      report.result.Mentions "cat: nope: No such file or directory" := by
  have hrun : ((reportLine Aliases.maxDepth "both && pwd" none).run .epoch
      bothSession).outcome.toOption.map (fun report => report.log.any fun e =>
        !e.lost && e.result.message? == some "cat: nope: No such file or directory")
      = some true := by decide +kernel
  obtain ⟨report, hreport, hany⟩ := exists_ok_of_toOption hrun
  obtain ⟨e, he, hentry⟩ := List.any_eq_true.mp hany
  rw [Bool.and_eq_true, Bool.not_eq_true', beq_iff_eq] at hentry
  obtain ⟨hresult, hheard⟩ := (kept_messages_occur "both && pwd" .epoch bothSession).2.1 _ hreport
  exact ⟨report, hreport, ⟨e, he, hentry⟩, hresult, hheard e he hentry.1 _ hentry.2⟩

/-- A line is read and run to its end, and a message of a command that was run for it does not occur
in its error. -/
def Loses (s : Session) (line message : String) : Prop :=
  (Program.parse line).toBool = true ∧
    ∃ report, ((reportLine Aliases.maxDepth line none).run .epoch s).outcome = .ok report ∧
      ((execute line).run .epoch s).outcome = .ok report.result ∧
      (∃ e ∈ report.log, e.result.message? = some message) ∧ ¬ report.result.Mentions message

/-- A line without an error loses every message that is in its log. -/
theorem loses_of_error_eq_none {s : Session} {line message : String}
    (hparse : (Program.parse line).toBool = true)
    (hrun : ((reportLine Aliases.maxDepth line none).run .epoch s).outcome.toOption.map
      (fun report => (report.log.any (·.result.message? == some message), report.result.error))
        = some (true, none)) : Loses s line message := by
  obtain ⟨report, hreport, heq⟩ := exists_ok_of_toOption hrun
  obtain ⟨hany, herror⟩ := Prod.mk.inj heq
  obtain ⟨e, he, hmessage⟩ := List.any_eq_true.mp hany
  refine ⟨hparse, report, hreport, ?_, ⟨e, he, beq_iff_eq.mp hmessage⟩, ?_⟩
  · rw [outcome_execute_eq, hreport]
    rfl
  · rintro ⟨error, hsome, -⟩
    rw [herror] at hsome
    cases hsome

/-- The message of a nested command is lost where the output of the alias is redirected, and where
it is piped into another command. -/
theorem nested_message_is_lost :
    Loses bothSession "both > out.txt" "cat: nope: No such file or directory" ∧
      Loses bothSession "both | wc -l" "cat: nope: No such file or directory" :=
  ⟨loses_of_error_eq_none (by decide +kernel) (by decide +kernel),
    loses_of_error_eq_none (by decide +kernel) (by decide +kernel)⟩

end Execution

end VirtualShell
