import VirtualShell.Proofs.Environment.References
import VirtualShell.Proofs.Execution.Transparent
import VirtualShell.Proofs.Line.Chain
import VirtualShell.Proofs.Text.Digits

/-!
# Where output is redirected to

The target of a redirection is checked when its line is read: it must not be too long, and hold
neither the null character nor two dots in a row. Variables are filled in later, when the command is
run, and the result is not checked again. So what is sure of a target is sure of it as typed, and of
the name that a file is written under only as far as filling in keeps it
(`redirects_as_typed`): always where there is nothing to fill in, and up to its length where the
values are harmless.

To say what all redirections of a run are like, the runner of commands is told how to redirect
(`runCommandVia`). A line redirects only in a certain way if it makes no difference what would be
done with other redirections (`RedirectsOnly`).
-/

namespace VirtualShell

/-! ## Filling in variables -/

/-- The digits of a number are harmless, also behind a minus sign. -/
theorem Text.harmless_intText (n : Int) : Harmless (intText n).toList := by
  have hne : (intText n).toList ≠ [] := by
    cases n with
    | ofNat n =>
      rw [intText, natText, String.toList_ofList]
      exact Nat.toDigits_ne_nil
    | negSucc n => simp [intText]
  exact harmless_of_notMem hne (notMem_intText (by decide) (by decide) n)
    (notMem_intText (by decide) (by decide) n)

namespace Variable

variable {P : List Char → Prop} {value : String → Option String}

/-- Values are filled in for references, and everything else is kept. -/
theorem filled_piecesWithin (fuel : Nat) (cs : List Char)
    (h : ∀ name typed, .reference name typed ∈ piecesWithin fuel cs →
      ∀ v, value (String.ofList name) = some v → P v.toList) :
    Text.Filled P cs ((piecesWithin fuel cs).flatMap (·.expand value)) := by
  fun_induction piecesWithin fuel cs with
  | case1 cs =>
    have hsame : (cs.map Piece.char).flatMap (·.expand value) = cs := by
      simp [List.flatMap_map, Piece.expand]
    rw [hsame]
    exact .refl cs
  | case2 => exact .nil
  | case3 fuel rest piece tail hread ih =>
    obtain ⟨name, typed, rfl, hstarts⟩ := referenceAt_of_readReference? hread
    have htail := ih fun name typed hmem => h name typed (List.mem_cons_of_mem _ hmem)
    rw [hstarts.eq_append, List.flatMap_cons, Piece.expand]
    cases hvalue : value (String.ofList name) with
    | none => exact htail.keepAll typed
    | some v => exact .replace typed (h name typed List.mem_cons_self v hvalue) htail
  | case4 fuel rest hread ih =>
    exact .keep '$' (ih fun name typed hmem => h name typed (List.mem_cons_of_mem _ hmem))
  | case5 fuel c rest hc ih =>
    exact .keep c (ih fun name typed hmem => h name typed (List.mem_cons_of_mem _ hmem))

end Variable

namespace Execution

/-- The text of the last exit code. -/
def codeText (s : Session) : List Char :=
  (Text.intText s.lastExitCode).toList

/-- All variables that a text refers to, once the last exit code is filled in, have harmless values
or none. -/
def FillsHarmlessly (s : Session) (text : String) : Prop :=
  ∀ name ∈ Variable.references (String.ofList (Text.replacePair '$' '?' (codeText s) text.toList)),
    ∀ v, s.environment.get? name = some v → Text.Harmless v.toList

/-- Filling in harmless values keeps a text clean. -/
theorem clean_expandText {s : Session} {text : String} (hclean : Text.Clean text.toList)
    (hfills : FillsHarmlessly s text) : Text.Clean (expandText s text).toList := by
  have hcode := Text.Filled.replacePair (a := '$') (b := '?')
    (Text.harmless_intText s.lastExitCode) text.toList
  rw [expandText, Environment.expand, Variable.expand, String.toList_ofList, String.toList_ofList]
  refine (Variable.filled_piecesWithin _ _ fun name typed hmem v hv => ?_).clean
    (hcode.clean hclean)
  refine hfills (String.ofList name) ?_ v hv
  rw [Variable.references, List.mem_eraseDups, List.mem_filterMap, String.toList_ofList]
  exact ⟨.reference name typed, hmem, rfl⟩

end Execution

/-! ## Targets as typed -/

/-- What a target is checked for: it is clean, and not too long. -/
structure Line.Confined (target : String) : Prop where
  clean : Text.Clean target.toList
  short : target.length ≤ maxTargetLength

instance (target : String) : Decidable (Line.Confined target) :=
  decidable_of_iff (Text.Clean target.toList ∧ target.length ≤ Line.maxTargetLength)
    ⟨fun h => ⟨h.1, h.2⟩, fun h => ⟨h.1, h.2⟩⟩

/-- A command whose output goes to a confined target, if it is redirected. -/
def Command.TargetsConfined (c : Command) : Prop :=
  ∀ redirect, c.output = some redirect → Line.Confined redirect.target

/-- The commands that a line holds. -/
def Program.commands : Program → List Command
  | .command c => [c]
  | .chain c => c.commands

namespace Line

/-- A target that has been read is confined. -/
theorem confined_of_readTarget {cs : List Char} {target : String}
    (h : readTarget cs = .ok target) : Confined target := by
  unfold readTarget at h
  dsimp only at h
  split at h
  · cases h
  rename_i hshort
  split at h
  · cases h
  rename_i hforbidden
  rw [Bool.or_eq_true, not_or, List.contains_iff_mem, Text.hasPair_iff] at hforbidden
  cases h
  refine ⟨?_, ?_⟩
  · rw [String.toList_ofList]
    exact ⟨hforbidden.1, hforbidden.2⟩
  · rw [String.length_ofList]
    exact Nat.not_lt.mp hshort

/-- A command of mere words has no target. -/
theorem targetsConfined_readWords (cs : List Char) : (readWords cs).TargetsConfined := by
  intro redirect h
  unfold readWords at h
  split at h <;> cases h

/-- A command that has been read has confined targets. -/
theorem targetsConfined_of_readCommand {cs : List Char} {c : Command}
    (h : readCommand cs = .ok c) : c.TargetsConfined := by
  unfold readCommand at h
  obtain ⟨text, -, h⟩ := exists_of_bind_eq_ok h
  split at h
  · obtain ⟨target, htarget, h⟩ := exists_of_bind_eq_ok h
    cases h
    intro redirect hredirect
    cases hredirect
    exact confined_of_readTarget htarget
  · split at h
    · obtain ⟨source, -, h⟩ := exists_of_bind_eq_ok h
      cases h
      exact targetsConfined_readWords _
    · cases h
      exact targetsConfined_readWords _

/-- So have the commands of a chain. -/
theorem targetsConfined_of_readPieces {texts : List (List Char)} {commands : List Command}
    (h : readPieces texts = .ok commands) : ∀ c ∈ commands, c.TargetsConfined := by
  rw [readPieces_eq_ok_iff] at h
  intro c hc
  have hmem : Except.ok c ∈ commands.map (Except.ok : Command → Except ParseError Command) :=
    List.mem_map_of_mem hc
  rw [← h] at hmem
  obtain ⟨piece, -, hpiece⟩ := List.mem_map.mp hmem
  exact targetsConfined_of_readCommand hpiece

/-- So have all commands of a line. -/
theorem targetsConfined_of_parse {line : String} {p : Program} (h : Program.parse line = .ok p) :
    ∀ c ∈ p.commands, c.TargetsConfined := by
  unfold Program.parse readProgram at h
  obtain ⟨text, -, h⟩ := exists_of_bind_eq_ok h
  split at h
  · obtain ⟨c, hc, h⟩ := exists_of_bind_eq_ok h
    cases h
    exact List.forall_mem_singleton.mpr (targetsConfined_of_readCommand hc)
  · obtain ⟨commands, hcommands, h⟩ := exists_of_bind_eq_ok h
    obtain ⟨chain, hchain, h⟩ := exists_of_bind_eq_ok h
    split at h
    · cases h
    · cases h
      rw [Program.commands, (Chain.ofLists_eq_ok_iff.mp hchain).1]
      exact targetsConfined_of_readPieces hcommands

end Line

namespace Execution

/-! ## Runs that are told how to redirect -/

/-- How the result of a command is redirected, given the session in which its variables are filled
in and the redirection as typed. -/
abbrev Redirector := Session → OutputRedirect → Result → Shell Result

/-- Fills in the variables of the target and writes the output there. -/
def toFile : Redirector := fun s redirect r =>
  redirectOutput { redirect with target := expandText s redirect.target } r

/-- Runs one command with a way to redirect. -/
def runCommandVia (redirector : Redirector) (dispatch : Runner) (c : Command)
    (stdin : Option String) : Shell Result := do
  let s ← Shell.session
  let filled := expandCommand s c
  if filled.isEmpty then return .ok
  Shell.note (.debug .executor ("executing " ++ filled.text))
  match ← inputOf filled stdin with
  | .done r => finish r
  | .text stdin =>
    let r ← dispatch filled stdin
    let r ← match c.output with
      | some redirect => redirector s redirect r
      | none => pure r
    finish r

/-- Reads and runs a line with a way to redirect. -/
def runLineWithVia (redirector : Redirector) (nested : LineRunner) (line : String)
    (stdin : Option String) : Shell Result := do
  let program ← readLine line
  runProgram (runCommandVia redirector (dispatch nested)) program stdin

/-- Reads and runs a line with a way to redirect, also for the lines that aliases stand for. -/
def runLineVia (redirector : Redirector) : Nat → String → Option String → Shell Result
  | 0 => runLineWithVia redirector none
  | depth + 1 => runLineWithVia redirector (some (runLineVia redirector depth))

/-- A command that redirects to files is run as it is run in the shell. -/
theorem runCommandVia_toFile (dispatch : Runner) :
    runCommandVia toFile dispatch = runCommand dispatch := by
  funext c stdin
  rw [runCommandVia, runCommand]
  refine congrArg _ (funext fun s => ?_)
  have houtput : (expandCommand s c).output
      = c.output.map fun r => { r with target := expandText s r.target } := rfl
  dsimp only
  rw [houtput]
  cases c.output <;> rfl

/-- So is a line. -/
theorem runLineWithVia_toFile (nested : LineRunner) :
    runLineWithVia toFile nested = runLineWith nested := by
  funext line stdin
  rw [runLineWithVia, runLineWith, runCommandVia_toFile]

/-- All redirections of a line have a property, whether it makes them itself or through aliases:
with any way to redirect that does the same with those, the line runs as it does. -/
def RedirectsOnly (P : Session → OutputRedirect → Prop) (depth : Nat) (line : String)
    (stdin : Option String) : Prop :=
  ∀ redirector : Redirector,
    (∀ s redirect, P s redirect → redirector s redirect = toFile s redirect) →
      runLineVia redirector depth line stdin = runLine depth line stdin

/-! ## What runs agree on -/

section Congruence

variable {run run' : Runner}

/-- Runners that agree on the commands of a chain run its links alike. -/
theorem runRest_congr {links : List (Operator × Command)}
    (h : ∀ link ∈ links, ∀ stdin, run link.2 stdin = run' link.2 stdin) (last : Result) :
    runRest run last links = runRest run' last links := by
  induction links generalizing last with
  | nil => rfl
  | cons link links ih =>
    have hlinks := fun r => ih (fun other hother => h other (List.mem_cons_of_mem _ hother)) r
    rw [runRest, runRest, h link List.mem_cons_self none]
    simp only [hlinks]

/-- They run a pipeline alike. -/
theorem runPipeline_congr {commands : List Command}
    (h : ∀ c ∈ commands, ∀ stdin, run c stdin = run' c stdin) (last : Result)
    (stdin : Option String) :
    runPipeline run last stdin commands = runPipeline run' last stdin commands := by
  induction commands generalizing last stdin with
  | nil => rfl
  | cons c rest ih =>
    have hrest := fun r input =>
      ih (fun other hother => h other (List.mem_cons_of_mem _ hother)) r input
    rw [runPipeline, runPipeline, h c List.mem_cons_self stdin]
    simp only [hrest]

/-- Only how its own commands are run matters to a program. -/
theorem runProgram_congr {p : Program} (h : ∀ c ∈ p.commands, ∀ stdin, run c stdin = run' c stdin)
    (stdin : Option String) : runProgram run p stdin = runProgram run' p stdin := by
  cases p with
  | command c => exact h c List.mem_cons_self stdin
  | chain chain =>
    have hrest : ∀ link ∈ chain.rest, ∀ stdin, run link.2 stdin = run' link.2 stdin :=
      fun link hlink => h link.2 (List.mem_cons_of_mem _ (List.mem_map_of_mem hlink))
    have hpipeline : runPipeline run .ok stdin chain.commands
        = runPipeline run' .ok stdin chain.commands := runPipeline_congr h .ok stdin
    rw [runProgram, runProgram, hpipeline, runChain, runChain,
      h chain.first List.mem_cons_self stdin]
    simp only [runRest_congr hrest]

/-- What follows the reading of a line is looked at for the program that the line holds. -/
theorem readLine_bind_congr {line : String} {f g : Program → Shell Result}
    (h : ∀ p, Program.parse line = .ok p → f p = g p) :
    readLine line >>= f = readLine line >>= g := by
  rw [readLine, bind_assoc, bind_assoc]
  cases hparse : Program.parse line with
  | error e => rfl
  | ok p =>
    have hvalue (k : Program → Shell Result) :
        (Shell.ofExcept ((Except.ok p : Except Line.ParseError Program).mapError Fault.line) >>= k)
          = k p := rfl
    rw [hvalue, hvalue]
    cases p <;> simp only [bind_assoc, pure_bind, h _ hparse]

end Congruence

/-- Where a way to redirect agrees with redirecting to files on confined targets, it makes no
difference to a line, as all targets that are typed are confined. -/
theorem runLineVia_eq {redirector : Redirector}
    (h : ∀ s redirect, Line.Confined redirect.target → redirector s redirect = toFile s redirect)
    (depth : Nat) : runLineVia redirector depth = runLine depth := by
  have hcommand (dispatch : Runner) {c : Command} (hc : c.TargetsConfined)
      (stdin : Option String) :
      runCommandVia redirector dispatch c stdin = runCommandVia toFile dispatch c stdin := by
    rw [runCommandVia, runCommandVia]
    cases houtput : c.output with
    | none => rfl
    | some redirect => simp only [h _ redirect (hc redirect houtput)]
  have hline (nested : LineRunner) : runLineWithVia redirector nested = runLineWith nested := by
    rw [← runLineWithVia_toFile]
    funext line stdin
    refine readLine_bind_congr fun p hp => runProgram_congr (fun c hc stdin => ?_) stdin
    exact hcommand _ (Line.targetsConfined_of_parse hp c hc) stdin
  -- Induction on the depth that is left for aliases, whose lines are read and checked like others.
  induction depth with
  | zero => rw [runLineVia, runLine, hline]
  | succ depth ih => rw [runLineVia, runLine, hline, ih]

/-- All targets that a line redirects to, itself or through aliases, are confined as typed. Where
nothing is to be filled in, that is where the output goes; and where only harmless values are filled
in, nothing but the length of the target can go wrong. -/
theorem redirects_as_typed (depth : Nat) (line : String) (stdin : Option String) :
    RedirectsOnly (fun s redirect =>
      Line.Confined redirect.target ∧
        ('$' ∉ redirect.target.toList → expandText s redirect.target = redirect.target) ∧
        (FillsHarmlessly s redirect.target →
          (Line.Confined (expandText s redirect.target) ↔
            (expandText s redirect.target).length ≤ Line.maxTargetLength)))
      depth line stdin := by
  intro redirector hredirector
  rw [runLineVia_eq fun s redirect hconfined => hredirector s redirect ⟨hconfined, ?_, ?_⟩]
  · exact expandText_of_notMem s
  · intro hfills
    have hclean := clean_expandText hconfined.clean hfills
    exact ⟨Line.Confined.short, fun hshort => ⟨hclean, hshort⟩⟩

/-- A session in a directory `d` of an otherwise empty tree, in which a variable holds two dots. -/
def dottedSession : Session :=
  (Session.new { root := Node.newDirectory .epoch "/" }).afterLines
    [(.epoch, "mkdir d; cd d; export D=..")]

/-- What stands in the file `f` beside the directory `d`. -/
def contentBeside (fs : FileSystem) : Option String :=
  (fs.root.at? ["f"]).bind Node.content?

/-- Writes to confined targets, and shows the output that would go to others. -/
def cautious : Redirector := fun s redirect r =>
  if Line.Confined (expandText s redirect.target) then toFile s redirect r else pure r

/-- Filled in, two dots lead to a file outside of the working directory; so it is not so that a line
redirects only to targets that are confined when they are filled in. -/
theorem redirects_to_parent_directory :
    contentBeside dottedSession.fileSystem = none ∧
      contentBeside ((execute "echo x > $D/f").run .epoch dottedSession).session.fileSystem
        = some "x\n" ∧
      ¬ RedirectsOnly (fun s redirect => Line.Confined (expandText s redirect.target))
        Aliases.maxDepth "echo x > $D/f" none := by
  have hwritten : contentBeside ((runLine Aliases.maxDepth "echo x > $D/f" none).run .epoch
      dottedSession).session.fileSystem = some "x\n" := by decide +kernel
  have hspared : contentBeside ((runLineVia cautious Aliases.maxDepth "echo x > $D/f" none).run
      .epoch dottedSession).session.fileSystem = none := by decide +kernel
  refine ⟨by decide +kernel, by decide +kernel, fun h => ?_⟩
  have hsame := h cautious fun s redirect hconfined => funext fun r => if_pos hconfined
  rw [hsame, hwritten] at hspared
  cases hspared

end Execution

end VirtualShell
