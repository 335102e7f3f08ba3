import VirtualShell.Proofs.Builtin.Orderly
import VirtualShell.Proofs.Execution.Reached

/-!
# Runs of any session

Whatever tree a session has, running a line takes turns with its aliases and variables
(`turns_runLine`), and so does reading its start file. At the end of a line the exit code and the
working directory are noted. So a property of aliases and variables that every turn keeps, and that
these notes keep, holds over whole runs, also where lines break off half way.
-/

namespace VirtualShell

namespace Execution

open Shell

variable {Expected : Fault → Prop}

/-! ## Lines -/

/-- Noting an exit code is orderly. -/
theorem orderly_finish (r : Result) : (finish r).Orderly Expected := by
  intro now s
  have hturn : s.Turn now { s with lastExitCode := r.exitCode } := .elsewhere rfl rfl
  exact (OrderlyAt.modify hturn.turns).bind fun _ => Orderly.pure _ _ _

/-- Fetching the input of a command is orderly. -/
theorem orderly_inputOf (htree : ∀ e, Expected (.tree e)) (c : Command) (stdin : Option String) :
    (inputOf c stdin).Orderly Expected := by
  unfold inputOf
  split
  · exact Orderly.pure _
  split
  · split <;> exact Orderly.pure _
  refine Orderly.session.bind fun s => (Orderly.node? htree _).bind fun node => ?_
  split <;> exact Orderly.pure _

/-- Output goes to the tree only. -/
theorem orderly_redirectOutput (htree : ∀ e, Expected (.tree e)) (redirect : OutputRedirect)
    (r : Result) : (redirectOutput redirect r).Orderly Expected := by
  unfold redirectOutput
  split
  · exact Orderly.pure _
  refine Orderly.session.bind fun s => (Orderly.node? htree _).bind fun node => ?_
  dsimp only
  split
  · exact Orderly.pure _
  refine (Orderly.ofExcept (FaultsIn.mapError htree _)).bind fun excess => ?_
  split
  · exact Orderly.pure _
  refine (Orderly.changeTree htree _).bind fun done => ?_
  split <;> exact Orderly.pure _

/-- A line may break off with any fault. -/
theorem compositional_orderly : Compositional (Shell.Orderly fun _ => True) where
  pure := Orderly.pure
  bind := Orderly.bind
  session := Orderly.session
  note := Orderly.note
  noteAll := Orderly.noteAll
  parse _ := Orderly.ofExcept fun _ _ => trivial
  resolve _ _ _ := Orderly.ofExcept fun _ _ => trivial
  inputOf := orderly_inputOf fun _ => trivial
  builtin b args stdin := (b.orderly_run args stdin).mono fun _ _ => trivial
  redirectOutput := orderly_redirectOutput fun _ => trivial
  finish := orderly_finish

/-- A line takes turns with the aliases and variables. -/
theorem turns_runLine (depth : Nat) (line : String) (stdin : Option String) (now : Timestamp)
    (s : Session) : s.Turns now ((runLine depth line stdin).run now s).session :=
  (compositional_orderly.runLine depth line stdin now s).turns

end Execution

/-! ## Runs -/

namespace Session

variable {s : Session} {P : Session → Prop}

/-- So does the file that is read at the start. -/
theorem turns_loadStartFile (now : Timestamp) (s : Session) :
    s.Turns now (loadStartFile.run now s).session := by
  have horderly : loadStartFile.Orderly fun _ => True := orderly_loadStartFile fun _ => trivial
  exact (horderly now s).turns

/-- Starting a session takes turns with a new one. -/
theorem turns_launch (now : Timestamp) (fs : FileSystem) (mode user : String)
    (readsStartFile : Bool) :
    (new fs mode user).Turns now (launch now fs mode user readsStartFile).session := by
  have haction : (if readsStartFile then loadStartFile else pure none).Orderly fun _ => True := by
    cases readsStartFile with
    | true => exact orderly_loadStartFile fun _ => trivial
    | false => exact Shell.Orderly.pure _
  have hdiscard := (haction.bind fun _ => Shell.Orderly.pure ()) now (new fs mode user)
  rw [launch, Functor.discard]
  exact hdiscard.turns

/-- What turns and the notes at the end of a line keep, executing a line keeps. -/
theorem keeps_execute (hturn : ∀ {now s s'}, Turn now s s' → P s → P s')
    (hnoted : ∀ {s} code, P s → P (s.noted code)) (line : String) (now : Timestamp) (hp : P s) :
    P ((Execution.execute line).run now s).session := by
  rw [(Execution.run_execute line now s).2]
  exact hnoted _ ((Execution.turns_runLine _ line none now s).keeps hturn hp)

end Session

end VirtualShell
