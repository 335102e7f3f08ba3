import VirtualShell.Proofs.Session.Change

/-!
# Lawful actions

An action is lawful in a session if all that it does to the session are changes of the listed kinds
(`Session.Changes`), and if it does not break off with a fault that blames the tree. A lawful action
leaves a sound session sound, so lawful actions can be run one after another (`LawfulAt.bind`).

The rules for the basic actions come in the form in which the commands use them: at the head of a
sequence, where the rest of the sequence is looked at in the session that the first action leaves.
-/

namespace VirtualShell

variable {α β : Type}

/-! ## Faults -/

/-- Whether a fault blames the tree. -/
def Fault.blamesTree : Fault → Bool
  | .tree _ | .searchedLostEntries | .fetchedLostEntries => true
  | .line _ | .number _ | .pattern _ => false

/-- A computation that does not break off with a fault that blames the tree. -/
def Blameless (x : Except Fault α) : Prop :=
  ∀ e, x = .error e → e.blamesTree = false

namespace Blameless

/-- A result blames nothing. -/
theorem ok (a : α) : Blameless (Except.ok a) :=
  nofun

/-- Nor does an answer. -/
theorem pure (a : α) : Blameless (Pure.pure a : Except Fault α) :=
  nofun

/-- A fault is blameless if it does not blame the tree. -/
theorem error {e : Fault} (h : e.blamesTree = false) :
    Blameless (Except.error e : Except Fault α) := by
  intro e' he
  cases he
  exact h

/-- What follows a result must be blameless if the result is there. -/
theorem bind {x : Except Fault α} {f : α → Except Fault β} (hx : Blameless x)
    (hf : ∀ a, x = .ok a → Blameless (f a)) : Blameless (x >>= f) := by
  cases x with
  | error e => exact error (hx e rfl)
  | ok a => exact hf a rfl

/-- Faults that are renamed to blameless ones are blameless. -/
theorem mapError {ε : Type} {g : ε → Fault} (hg : ∀ e, (g e).blamesTree = false)
    (x : Except ε α) : Blameless (x.mapError g) := by
  cases x with
  | error e => exact error (hg e)
  | ok a => exact ok a

/-- What is made of a result is as blameless as the result. -/
theorem map {x : Except Fault α} (hx : Blameless x) (f : α → β) : Blameless (x.map f) := by
  cases x with
  | error e => exact error (hx e rfl)
  | ok a => exact ok (f a)

end Blameless

/-! ## Actions -/

namespace Shell

variable {now : Timestamp} {s : Session}

/-- The action, run in a session, makes lawful changes and blames no tree. -/
structure LawfulAt (now : Timestamp) (s : Session) (action : Shell α) : Prop where
  changes : s.Changes now (action.run now s).session
  blameless : Blameless (action.run now s).outcome

/-- The action is lawful in every sound session. -/
def Lawful (action : Shell α) : Prop :=
  ∀ now s, s.Sound → LawfulAt now s action

/-! ### Basic actions -/

/-- An action that only answers is lawful. -/
theorem LawfulAt.pure (a : α) : LawfulAt now s (Pure.pure a) :=
  ⟨Session.Changes.refl s, Blameless.ok a⟩

/-- One that looks at the session is lawful if it blames nothing. -/
theorem LawfulAt.query {f : Session → Except Fault α} (h : Blameless (f s)) :
    LawfulAt now s (Shell.query f) :=
  ⟨Session.Changes.refl s, h⟩

/-- One that may break off is lawful if it blames nothing. -/
theorem LawfulAt.ofExcept {x : Except Fault α} (h : Blameless x) :
    LawfulAt now s (Shell.ofExcept x) :=
  ⟨Session.Changes.refl s, h⟩

/-- Noting something is lawful. -/
theorem LawfulAt.note (n : Note) : LawfulAt now s (Shell.note n) :=
  ⟨Session.Changes.refl s, Blameless.ok ()⟩

/-- So is noting several things. -/
theorem LawfulAt.noteAll (ns : List Note) : LawfulAt now s (Shell.noteAll ns) :=
  ⟨Session.Changes.refl s, Blameless.ok ()⟩

/-- An action that changes the session in the listed ways is lawful. -/
theorem LawfulAt.modify {f : Session → Session} (h : s.Changes now (f s)) :
    LawfulAt now s (Shell.modify f) :=
  ⟨h, Blameless.ok ()⟩

/-! ### Sequences -/

/-- A sequence is lawful if its first action is, and the rest is in the session that this one
leaves. -/
theorem LawfulAt.bind_at {first : Shell α} {next : α → Shell β} (hfirst : LawfulAt now s first)
    (hnext : ∀ a, (first.run now s).outcome = .ok a →
      LawfulAt now (first.run now s).session (next a)) : LawfulAt now s (first >>= next) := by
  have hrun : (first >>= next).run now s = Shell.bind first next now s := rfl
  rw [Shell.bind] at hrun
  obtain ⟨hchanges, hblameless⟩ := hfirst
  rw [run] at hchanges hblameless hnext
  -- A fault ends the sequence where it is; a value hands the session on to the rest.
  cases ho : (first now s).outcome with
  | error e =>
    rw [ho] at hrun hblameless
    refine ⟨?_, ?_⟩ <;> rw [hrun]
    · exact hchanges
    · exact Blameless.error (hblameless e rfl)
  | ok a =>
    rw [ho] at hrun
    have hrest := hnext a ho
    refine ⟨?_, ?_⟩ <;> rw [hrun]
    · exact hchanges.trans hrest.changes
    · exact hrest.blameless

/-- In a sound session, lawful actions can follow each other. -/
theorem LawfulAt.bind {first : Shell α} {next : α → Shell β} (hs : s.Sound)
    (hfirst : LawfulAt now s first) (hnext : ∀ a, (next a).Lawful) :
    LawfulAt now s (first >>= next) :=
  hfirst.bind_at fun a _ => hnext a now _ (hfirst.changes.sound hs)

/-- Lawful actions may follow each other. -/
theorem Lawful.bind {first : Shell α} {next : α → Shell β} (hfirst : first.Lawful)
    (hnext : ∀ a, (next a).Lawful) : (first >>= next).Lawful :=
  fun now s hs => (hfirst now s hs).bind hs hnext

/-- In every session an answer is lawful. -/
theorem Lawful.pure (a : α) : Lawful (Pure.pure a) :=
  fun _ _ _ => LawfulAt.pure a

/-- An action may go on with the session. -/
theorem LawfulAt.session_bind {next : Session → Shell β} (h : LawfulAt now s (next s)) :
    LawfulAt now s (Shell.session >>= next) :=
  ⟨h.changes, h.blameless⟩

/-- It may go on with the time. -/
theorem LawfulAt.now_bind {next : Timestamp → Shell β} (h : LawfulAt now s (next now)) :
    LawfulAt now s (Shell.now >>= next) :=
  ⟨h.changes, h.blameless⟩

/-- It may note something and go on. -/
theorem LawfulAt.note_bind {n : Note} {next : Unit → Shell β} (h : LawfulAt now s (next ())) :
    LawfulAt now s (Shell.note n >>= next) :=
  ⟨h.changes, h.blameless⟩

/-- It may note several things and go on. -/
theorem LawfulAt.noteAll_bind {ns : List Note} {next : Unit → Shell β}
    (h : LawfulAt now s (next ())) : LawfulAt now s (Shell.noteAll ns >>= next) :=
  ⟨h.changes, h.blameless⟩

/-- It may go on with a result that is there. -/
theorem LawfulAt.ofExcept_bind {x : Except Fault α} {next : α → Shell β} (hx : Blameless x)
    (h : ∀ a, x = .ok a → LawfulAt now s (next a)) :
    LawfulAt now s (Shell.ofExcept x >>= next) :=
  LawfulAt.bind_at (LawfulAt.ofExcept hx) h

/-- It may go on with what it has found in the session. -/
theorem LawfulAt.query_bind {f : Session → Except Fault α} {next : α → Shell β}
    (hf : Blameless (f s)) (h : ∀ a, f s = .ok a → LawfulAt now s (next a)) :
    LawfulAt now s (Shell.query f >>= next) :=
  LawfulAt.bind_at (LawfulAt.query hf) h

/-- It may change the session and go on from there. -/
theorem LawfulAt.modify_bind {f : Session → Session} {next : Unit → Shell β}
    (hf : s.Changes now (f s)) (h : LawfulAt now (f s) (next ())) :
    LawfulAt now s (Shell.modify f >>= next) :=
  LawfulAt.bind_at (LawfulAt.modify hf) fun _ _ => h

/-- It may go on behind any action of which the answer and the session that it leaves are known. -/
theorem LawfulAt.bind_of_run {first : Shell α} {next : α → Shell β} {a : α} {s' : Session}
    (hrun : first.run now s = { outcome := .ok a, session := s' }) (hs : s.Changes now s')
    (h : LawfulAt now s' (next a)) : LawfulAt now s (first >>= next) := by
  refine LawfulAt.bind_at ⟨?_, ?_⟩ fun b hb => ?_
  · rw [hrun]
    exact hs
  · rw [hrun]
    exact Blameless.ok a
  · rw [hrun] at hb ⊢
    cases hb
    exact h

/-! ### The tree -/

/-- In a sound session a node is looked up as it is in the tree. -/
theorem node?_eq (hs : s.Sound) (path : Path) :
    (s.fileSystem.node? path).mapError Fault.tree = .ok (s.fileSystem.root.at? path) := by
  rw [hs.fileSystem.node?_eq]
  rfl

/-- In a sound session the node at a path is read without a fault. -/
theorem LawfulAt.node?_bind {path : Path} {next : Option Node → Shell β} (hs : s.Sound)
    (h : LawfulAt now s (next (s.fileSystem.root.at? path))) :
    LawfulAt now s (Shell.node? path >>= next) := by
  have heq := node?_eq hs path
  refine LawfulAt.query_bind (heq ▸ Blameless.ok _) fun a ha => ?_
  rw [heq] at ha
  cases ha
  exact h

/-- A change of the file system that goes through and is of a listed kind. -/
theorem LawfulAt.changeTree_bind {f : Timestamp → FileSystem → Except TreeFault (Option FileSystem)}
    {next : Bool → Shell β} {fs : FileSystem} (hf : f now s.fileSystem = .ok (some fs))
    (hfs : s.fileSystem.Change now fs) (h : LawfulAt now { s with fileSystem := fs } (next true)) :
    LawfulAt now s (Shell.changeTree f >>= next) := by
  have hrun : (Shell.changeTree f).run now s
      = { outcome := .ok true, session := { s with fileSystem := fs } } := by
    rw [run, Shell.changeTree, hf]
  exact LawfulAt.bind_of_run hrun (Session.Change.fileSystem hfs).changes h

/-- A change of the file system that is refused. -/
theorem LawfulAt.changeTree_bind_none
    {f : Timestamp → FileSystem → Except TreeFault (Option FileSystem)} {next : Bool → Shell β}
    (hf : f now s.fileSystem = .ok none) (h : LawfulAt now s (next false)) :
    LawfulAt now s (Shell.changeTree f >>= next) := by
  have hrun : (Shell.changeTree f).run now s = { outcome := .ok false, session := s } := by
    rw [run, Shell.changeTree, hf]
  exact LawfulAt.bind_of_run hrun (Session.Changes.refl s) h

end Shell

end VirtualShell
