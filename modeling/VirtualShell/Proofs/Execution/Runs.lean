import VirtualShell.Proofs.Execution.Lawful
import VirtualShell.Proofs.Tree.Default

/-!
# Sessions over whole runs

A session is used by executing lines, one after another and each at its own time (`afterLines`).
What a single line does to the session is what running it does, followed by a note of its exit code
and of the working directory (`run_execute`). So whatever the listed changes keep, and these two
notes do not touch, holds after every run.

The main statement is that a sound session stays sound (`sound_after_each_line`).
-/

namespace VirtualShell

namespace Execution

variable {s : Session}

/-- The result of a line that came to a result or to a fault. -/
def resultOf : Except Fault Result → Result
  | .ok r => r
  | .error fault => faultResult fault

/-- Executing a line comes to a result, and notes its exit code and the working directory. -/
theorem run_execute (line : String) (now : Timestamp) (s : Session) :
    let inner := (runLine Aliases.maxDepth line none).run now s
    ((execute line).run now s).outcome = .ok (resultOf inner.outcome) ∧
      ((execute line).run now s).session =
        { inner.session with
          lastExitCode := (resultOf inner.outcome).exitCode
          environment := inner.session.environment.withCwd inner.session.fileSystem.cwd } := by
  simp only [execute, bind, Shell.bind, Shell.run, Shell.attempt]
  generalize runLine Aliases.maxDepth line none now s = inner
  obtain ⟨outcome, session, notes⟩ := inner
  cases outcome <;> exact ⟨rfl, rfl⟩

/-- A line that is run changes a sound session in the listed ways only. -/
theorem changes_runLine (hs : s.Sound) (line : String) (now : Timestamp) :
    s.Changes now ((runLine Aliases.maxDepth line none).run now s).session :=
  (lawful_runLine _ line none now s hs).changes

/-- Executing a line keeps a session sound. -/
theorem sound_execute (hs : s.Sound) (line : String) (now : Timestamp) :
    ((execute line).run now s).session.Sound := by
  have hinner := (changes_runLine hs line now).sound hs
  rw [(run_execute line now s).2]
  exact ⟨hinner.fileSystem, hinner.aliases, hinner.environment.withCwd _⟩

end Execution

namespace Session

variable {s : Session}

/-- The session after lines have been executed one after another, each at its own time. -/
def afterLines (s : Session) (calls : List (Timestamp × String)) : Session :=
  calls.foldl (fun s call => ((Execution.execute call.2).run call.1 s).session) s

/-- What every line keeps in a sound session, a run of lines keeps. -/
theorem keeps_afterLines {P : Session → Prop}
    (hP : ∀ {s}, s.Sound → P s → ∀ line now, P ((Execution.execute line).run now s).session)
    (hs : s.Sound) (hp : P s) (calls : List (Timestamp × String)) :
    (s.afterLines calls).Sound ∧ P (s.afterLines calls) := by
  -- Soundness is carried along, as each line is lawful in a sound session only.
  induction calls generalizing s with
  | nil => exact ⟨hs, hp⟩
  | cons call rest ih =>
    exact ih (Execution.sound_execute hs call.2 call.1) (hP hs hp call.2 call.1)

/-- So does executing any number of lines. -/
theorem sound_afterLines (hs : s.Sound) (calls : List (Timestamp × String)) :
    (s.afterLines calls).Sound :=
  (keeps_afterLines (P := fun _ => True) (fun _ _ _ _ => trivial) hs trivial calls).1

/-! ## Starting a session -/

/-- A new session on a sound file system is sound. -/
theorem sound_new {fs : FileSystem} (hfs : fs.Sound) (mode user : String) :
    (new fs mode user).Sound :=
  ⟨hfs, Table.distinct_nil, Environment.sound_new _ _⟩

/-- A session that has read its start file is as sound as the file system it was started on. -/
theorem sound_launch {fs : FileSystem} (hfs : fs.Sound) (now : Timestamp) (mode user : String)
    (readsStartFile : Bool) : (launch now fs mode user readsStartFile).session.Sound := by
  have hnew := sound_new hfs mode user
  have haction : (if readsStartFile then loadStartFile else pure none).Lawful := by
    cases readsStartFile with
    | true => exact lawful_loadStartFile
    | false => exact Shell.Lawful.pure _
  have hdiscard := (haction.bind fun _ => Shell.Lawful.pure ()) now _ hnew
  rw [launch, Functor.discard]
  exact hdiscard.changes.sound hnew

end Session

namespace Execution

/-- After every line of a run the session is sound, shows its working directory, and knows the exit
code of the result that the line came to; and no line blames the tree. -/
theorem sound_after_each_line {s : Session} (hs : s.Sound) (calls : List (Timestamp × String))
    (now : Timestamp) (line : String) :
    let before := s.afterLines calls
    let step := (execute line).run now before
    step.session.Sound ∧
      step.session.environment.get? "PWD" = some step.session.fileSystem.cwd.text ∧
      (∃ r, step.outcome = .ok r ∧ step.session.lastExitCode = r.exitCode) ∧
      Blameless ((runLine Aliases.maxDepth line none).run now before).outcome := by
  intro before step
  have hbefore : before.Sound := s.sound_afterLines hs calls
  obtain ⟨houtcome, hsession⟩ := run_execute line now before
  refine ⟨sound_execute hbefore line now, ?_, ⟨_, houtcome, ?_⟩, ?_⟩
  · rw [hsession]
    exact Environment.get?_withCwd _ _
  · rw [hsession]
  · exact (lawful_runLine _ line none now before hbefore).blameless

/-- On the default tree with its start file read, after entering a directory and in the attempt to
remove it. -/
theorem sound_after_rmdir_of_cwd :
    let s := (Session.launch .epoch (DefaultTree.fileSystem .epoch) "default" "user" true).session
    let step := (execute "rmdir /tmp").run .epoch (s.afterLines [(.epoch, "cd /tmp")])
    s.Sound ∧ step.session.Sound ∧
      step.session.environment.get? "PWD" = some step.session.fileSystem.cwd.text :=
  have hs := Session.sound_launch (DefaultTree.sound_fileSystem .epoch) .epoch "default" "user" true
  have h := sound_after_each_line hs [(.epoch, "cd /tmp")] .epoch "rmdir /tmp"
  ⟨hs, h.1, h.2.1⟩

end Execution

end VirtualShell
