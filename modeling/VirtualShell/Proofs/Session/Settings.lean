import VirtualShell.Proofs.Script

/-!
# What can happen to aliases and variables

`Session.Turn` lists what one step of a run can do to the aliases and the variables of a session.
Unlike the listed changes of a sound session, it says nothing about the tree. So it can be shown of
every action in every session, also where the tree has lost entries and the action breaks off; and
whatever each turn keeps, every run keeps (`Session.Turns.keeps`).

An action is orderly if it makes such turns and breaks off with expected faults only. What is
expected is a parameter: a command breaks off with faults of its own kind, and a whole line with any
fault. Orderly actions can be run one after another without any condition on the session in between
(`Shell.Orderly.bind`).
-/

namespace VirtualShell

variable {α β : Type}

/-! ## Turns -/

/-- A step of a run, as far as aliases and variables are concerned. -/
inductive Session.Turn (now : Timestamp) (s : Session) : Session → Prop
  /-- Both stay as they are, whatever becomes of the rest. -/
  | elsewhere {s' : Session} (haliases : s'.aliases = s.aliases)
      (henvironment : s'.environment = s.environment) : Turn now s s'
  /-- A valid alias is set, whose command has no blanks around it. -/
  | setAlias {name command : String} {t : Aliases} (hvalid : Alias.validate name command = none)
      (htrimmed : Text.strip command = command)
      (hset : s.aliases.set now name command = .ok t) : Turn now s { s with aliases := t }
  | removeAlias (name : String) : Turn now s { s with aliases := s.aliases.erase name }
  | clearAliases : Turn now s { s with aliases := [] }
  | setVariable {name value : String} {e : Environment}
      (hset : s.environment.set name value = .ok e) : Turn now s { s with environment := e }
  | unsetVariable {name : String} {e : Environment}
      (hunset : s.environment.unset? name = some e) : Turn now s { s with environment := e }

/-- A sequence of turns. -/
def Session.Turns (now : Timestamp) : Session → Session → Prop :=
  Relation.ReflTransGen (Session.Turn now)

namespace Session

variable {now : Timestamp} {s s' s'' : Session}

/-- Without a turn a session stays as it is. -/
theorem Turns.refl (s : Session) : Turns now s s :=
  Relation.ReflTransGen.refl

/-- One turn is a row of turns. -/
theorem Turn.turns (h : s.Turn now s') : s.Turns now s' :=
  Relation.ReflTransGen.single h

/-- Turns follow turns. -/
theorem Turns.trans (h : s.Turns now s') (h' : s'.Turns now s'') : s.Turns now s'' :=
  Relation.ReflTransGen.trans h h'

/-- What every turn keeps, a sequence of turns keeps. -/
theorem Turns.keeps {P : Session → Prop} (hP : ∀ {s s'}, s.Turn now s' → P s → P s')
    (h : s.Turns now s') (hp : P s) : P s' := by
  induction h with
  | refl => exact hp
  | tail _ hturn ih => exact hP hturn ih

end Session

/-! ## Expected faults -/

/-- A computation that breaks off with expected faults only. -/
def FaultsIn (Expected : Fault → Prop) (x : Except Fault α) : Prop :=
  ∀ e, x = .error e → Expected e

namespace FaultsIn

variable {Expected : Fault → Prop}

/-- A result is no fault. -/
theorem ok (a : α) : FaultsIn Expected (Except.ok a) :=
  nofun

/-- A fault that is expected is one of those. -/
theorem error {e : Fault} (h : Expected e) :
    FaultsIn Expected (Except.error e : Except Fault α) := by
  intro e' he
  cases he
  exact h

/-- What follows a result may break off with expected faults as well. -/
theorem bind {x : Except Fault α} {f : α → Except Fault β} (hx : FaultsIn Expected x)
    (hf : ∀ a, FaultsIn Expected (f a)) : FaultsIn Expected (x >>= f) := by
  cases x with
  | error e => exact error (hx e rfl)
  | ok a => exact hf a

/-- Faults that are renamed to expected ones are expected. -/
theorem mapError {ε : Type} {g : ε → Fault} (hg : ∀ e, Expected (g e)) (x : Except ε α) :
    FaultsIn Expected (x.mapError g) := by
  cases x with
  | error e => exact error (hg e)
  | ok a => exact ok a

/-- What is made of a result breaks off as the result does. -/
theorem map {x : Except Fault α} (hx : FaultsIn Expected x) (f : α → β) :
    FaultsIn Expected (x.map f) := by
  cases x with
  | error e => exact error (hx e rfl)
  | ok a => exact ok (f a)

end FaultsIn

/-! ## Orderly actions -/

namespace Shell

/-- The action, run in a session, takes turns there and breaks off with expected faults only. -/
structure OrderlyAt (Expected : Fault → Prop) (now : Timestamp) (s : Session)
    (action : Shell α) : Prop where
  turns : s.Turns now (action.run now s).session
  faults : FaultsIn Expected (action.run now s).outcome

/-- The action is orderly in every session. -/
def Orderly (Expected : Fault → Prop) (action : Shell α) : Prop :=
  ∀ now s, OrderlyAt Expected now s action

variable {Expected : Fault → Prop} {now : Timestamp} {s : Session}

/-- An action that leaves the session as it is and comes to a value. -/
theorem OrderlyAt.of_value {action : Shell α} {a : α} (hsession : (action.run now s).session = s)
    (houtcome : (action.run now s).outcome = .ok a) : OrderlyAt Expected now s action := by
  refine ⟨?_, ?_⟩
  · rw [hsession]
    exact Session.Turns.refl s
  · rw [houtcome]
    exact FaultsIn.ok a

/-- An action that only answers is orderly. -/
theorem Orderly.pure (a : α) : Orderly Expected (Pure.pure a : Shell α) :=
  fun _ _ => OrderlyAt.of_value rfl rfl

/-- So is a look at the session. -/
theorem Orderly.session : Orderly Expected Shell.session :=
  fun _ _ => OrderlyAt.of_value rfl rfl

/-- So is noting something. -/
theorem Orderly.note (n : Note) : Orderly Expected (Shell.note n) :=
  fun _ _ => OrderlyAt.of_value rfl rfl

/-- So is noting several things. -/
theorem Orderly.noteAll (ns : List Note) : Orderly Expected (Shell.noteAll ns) :=
  fun _ _ => OrderlyAt.of_value rfl rfl

/-- A look at the session that may break off is orderly if its faults are expected. -/
theorem Orderly.query {f : Session → Except Fault α} (hf : ∀ s, FaultsIn Expected (f s)) :
    Orderly Expected (Shell.query f) :=
  fun _ s => ⟨Session.Turns.refl s, hf s⟩

/-- So is an action that only breaks off. -/
theorem Orderly.ofExcept {x : Except Fault α} (hx : FaultsIn Expected x) :
    Orderly Expected (Shell.ofExcept x) :=
  fun _ s => ⟨Session.Turns.refl s, hx⟩

/-- An action that takes turns with the settings is orderly. -/
theorem OrderlyAt.modify {f : Session → Session} (hf : s.Turns now (f s)) :
    OrderlyAt Expected now s (Shell.modify f) :=
  ⟨hf, nofun⟩

/-- A fault ends a sequence where it is; a value hands the session on to the rest. -/
theorem OrderlyAt.bind {first : Shell α} {next : α → Shell β}
    (hfirst : OrderlyAt Expected now s first)
    (hnext : ∀ a, OrderlyAt Expected now (first.run now s).session (next a)) :
    OrderlyAt Expected now s (first >>= next) := by
  have hrun : (first >>= next).run now s = Shell.bind first next now s := rfl
  rw [Shell.bind] at hrun
  obtain ⟨hturns, hfaults⟩ := hfirst
  rw [run] at hturns hfaults hnext
  cases ho : (first now s).outcome with
  | error e =>
    rw [ho] at hrun
    refine ⟨?_, ?_⟩ <;> rw [hrun]
    · exact hturns
    · exact FaultsIn.error (hfaults e ho)
  | ok a =>
    rw [ho] at hrun
    refine ⟨?_, ?_⟩ <;> rw [hrun]
    · exact hturns.trans (hnext a).turns
    · exact (hnext a).faults

/-- Orderly actions may follow each other. -/
theorem Orderly.bind {first : Shell α} {next : α → Shell β} (hfirst : Orderly Expected first)
    (hnext : ∀ a, Orderly Expected (next a)) : Orderly Expected (first >>= next) :=
  fun now s => (hfirst now s).bind fun a => hnext a now _

/-- An action may go on with the session. -/
theorem OrderlyAt.session_bind {next : Session → Shell β}
    (h : OrderlyAt Expected now s (next s)) :
    OrderlyAt Expected now s (Shell.session >>= next) :=
  ⟨h.turns, h.faults⟩

/-- It may go on with the time. -/
theorem OrderlyAt.now_bind {next : Timestamp → Shell β}
    (h : OrderlyAt Expected now s (next now)) : OrderlyAt Expected now s (Shell.now >>= next) :=
  ⟨h.turns, h.faults⟩

/-- Where more faults are expected, an orderly action is orderly all the more. -/
theorem Orderly.mono {Expected' : Fault → Prop} {action : Shell α}
    (h : Orderly Expected action) (himp : ∀ e, Expected e → Expected' e) :
    Orderly Expected' action :=
  fun now s => ⟨(h now s).turns, fun e he => himp e ((h now s).faults e he)⟩

/-! ### The tree -/

/-- Looking up a node is orderly if a fault of the tree is expected. -/
theorem Orderly.node? (htree : ∀ e, Expected (.tree e)) (path : Path) :
    Orderly Expected (Shell.node? path) :=
  Orderly.query fun s => FaultsIn.mapError htree (s.fileSystem.node? path)

/-- So is changing the tree. -/
theorem Orderly.changeTree (htree : ∀ e, Expected (.tree e))
    (f : Timestamp → FileSystem → Except TreeFault (Option FileSystem)) :
    Orderly Expected (Shell.changeTree f) := by
  intro now s
  have hrun : (Shell.changeTree f).run now s = Shell.changeTree f now s := rfl
  rw [Shell.changeTree] at hrun
  cases hf : f now s.fileSystem with
  | error fault =>
    rw [hf] at hrun
    refine ⟨?_, ?_⟩ <;> rw [hrun]
    · exact Session.Turns.refl s
    · exact FaultsIn.error (htree fault)
  | ok changed =>
    rw [hf] at hrun
    cases changed with
    | none => exact OrderlyAt.of_value (congrArg Step.session hrun) (congrArg Step.outcome hrun)
    | some fs =>
      have hturn : s.Turn now { s with fileSystem := fs } := .elsewhere rfl rfl
      refine ⟨?_, ?_⟩ <;> rw [hrun]
      · exact hturn.turns
      · exact FaultsIn.ok true

end Shell

/-! ## Scripts -/

namespace Session

open Shell

variable {Expected : Fault → Prop}

/-- Applying a script takes turns, and never breaks off. -/
theorem orderly_applyScript (text : String) : (applyScript text).Orderly Expected := by
  intro now s
  have hturns : Script.Covers now (Session.Turn now) :=
    ⟨fun hvalid htrimmed hset => .setAlias hvalid htrimmed hset, fun hset => .setVariable hset⟩
  exact ⟨reached_applyScript hturns s text, nofun⟩

/-- So is reading the file at the start. -/
theorem orderly_loadStartFile (htree : ∀ e, Expected (.tree e)) :
    loadStartFile.Orderly Expected := by
  refine (Orderly.node? htree startFile).bind fun node => ?_
  split
  · refine (orderly_applyScript _).bind fun execution => ?_
    exact (Orderly.noteAll _).bind fun _ => (Orderly.note _).bind fun _ => Orderly.pure _
  · exact Orderly.pure _

end Session

end VirtualShell
