import VirtualShell.Session

/-!
# Actions in a row

It does not matter how actions in a row are grouped, and an action that only answers with a value
can be left out. So sequences of actions can be rearranged without looking at the sessions that they
go through.
-/

namespace VirtualShell

/-- A sequence that comes to a value has come to one in its first part. -/
theorem exists_of_bind_eq_ok {ε α β : Type} {x : Except ε α} {f : α → Except ε β} {b : β}
    (h : x >>= f = .ok b) : ∃ a, x = .ok a ∧ f a = .ok b := by
  cases x with
  | error e => cases h
  | ok a => exact ⟨a, rfl, h⟩

namespace Shell

variable {α β γ : Type}

/-- Answering what was answered changes nothing. -/
theorem bind_pure_eq (action : Shell α) : action >>= pure = action := by
  funext now s
  change Shell.bind action pure now s = action now s
  rw [Shell.bind]
  rcases action now s with ⟨outcome, session, notes⟩
  cases outcome with
  | error e => rfl
  | ok a => exact congrArg (Step.mk (.ok a) session) (List.append_nil notes)

/-- Notes are gathered in the order of the actions, however these are grouped. -/
theorem bind_bind_eq (action : Shell α) (f : α → Shell β) (g : β → Shell γ) :
    action >>= f >>= g = action >>= fun a => f a >>= g := by
  funext now s
  change Shell.bind (Shell.bind action f) g now s
    = Shell.bind action (fun a => Shell.bind (f a) g) now s
  simp only [Shell.bind]
  rcases action now s with ⟨outcome, session, notes⟩
  cases outcome with
  | error e => rfl
  | ok a =>
    dsimp only
    rcases f a now session with ⟨outcome', session', notes'⟩
    cases outcome' with
    | error e => rfl
    | ok b => simp only [List.append_assoc]

instance : LawfulMonad Shell :=
  LawfulMonad.mk' Shell bind_pure_eq (fun _ _ => rfl) bind_bind_eq

/-- A function of the answer changes nothing but the answer. -/
theorem run_map (f : α → β) (action : Shell α) (now : Timestamp) (s : Session) :
    (f <$> action).run now s
      = let step := action.run now s
        { outcome := step.outcome.map f, session := step.session, notes := step.notes } := by
  change Shell.bind action (fun a => pure (f a)) now s = _
  rw [Shell.bind, Shell.run]
  rcases action now s with ⟨outcome, session, notes⟩
  cases outcome with
  | error e => rfl
  | ok a => exact congrArg (Step.mk (.ok (f a)) session) (List.append_nil notes)

/-- Only what an action comes to matters to the next one. -/
theorem run_bind_congr {a b : Shell α} {now : Timestamp} {s : Session}
    (h : a.run now s = b.run now s) (next : α → Shell β) :
    (a >>= next).run now s = (b >>= next).run now s := by
  change Shell.bind a next now s = Shell.bind b next now s
  rw [Shell.run, Shell.run] at h
  rw [Shell.bind, Shell.bind, h]

/-- Where an action comes to a value, the next one goes on from the session that it leaves. -/
theorem outcome_bind_of_ok {action : Shell α} {now : Timestamp} {s : Session} {a : α}
    (h : (action.run now s).outcome = .ok a) (next : α → Shell β) :
    ((action >>= next).run now s).outcome
      = ((next a).run now (action.run now s).session).outcome := by
  change (Shell.bind action next now s).outcome = _
  rw [Shell.run] at h
  rw [Shell.bind, h]
  rfl

/-- An action that notes nothing down hands its value and its session to the next one. -/
theorem run_bind_of_run {action : Shell α} {now : Timestamp} {s s' : Session} {a : α}
    (h : action.run now s = { outcome := .ok a, session := s' }) (next : α → Shell β) :
    (action >>= next).run now s = (next a).run now s' := by
  change Shell.bind action next now s = _
  rw [Shell.run] at h
  rw [Shell.bind, h]
  rfl

/-- What follows a look at the clock is run with the time. -/
theorem run_now_bind (next : Timestamp → Shell α) (now : Timestamp) (s : Session) :
    (Shell.now >>= next).run now s = (next now).run now s :=
  rfl

/-- What follows a look at the session is run with it. -/
theorem run_session_bind (next : Session → Shell α) (now : Timestamp) (s : Session) :
    (Shell.session >>= next).run now s = (next s).run now s :=
  rfl

end Shell

end VirtualShell
