import VirtualShell.Proofs.Execution.Orderly

/-!
# Aliases stay valid

Aliases come into a session by the command `alias`, which reads them from its arguments, and by
scripts, which read them from lines of a text. Either way an alias is validated first, and what is
validated is the very text that is stored: it has lost the blanks around it before, so that the
table, which takes them away once more, does not change it.

So a table whose aliases are all vetted stays such a table, whatever is executed and however a
command that defines several aliases ends (`aliases_stay_vetted`).
-/

namespace VirtualShell

/-! ## Tables -/

namespace Aliases

/-- What is known of the alias that stands under a name in a table that lets in valid aliases
only. -/
structure Vetted (name : String) (a : Alias) : Prop where
  name_eq : a.name = name
  nonempty : a.command ≠ ""
  stripped : Text.strip a.command = a.command
  valid : Alias.validate name a.command = none

/-- A table of vetted aliases, each under its own name. -/
def AllVetted (t : Aliases) : Prop :=
  ∀ entry ∈ t, Vetted entry.1 entry.2

variable {t t' : Aliases} {now : Timestamp} {name command : String}

/-- A valid alias without blanks around it is stored as it is. -/
theorem AllVetted.set (h : t.AllVetted) (hvalid : Alias.validate name command = none)
    (htrimmed : Text.strip command = command) (hset : t.set now name command = .ok t') :
    t'.AllVetted := by
  obtain ⟨-, hcommand, rfl⟩ := set_eq_ok_iff.mp hset
  rw [htrimmed] at hcommand ⊢
  intro entry hentry
  rcases Table.mem_of_mem_put hentry with rfl | hold
  · exact ⟨rfl, hcommand, htrimmed, hvalid⟩
  · exact h entry hold

/-- Removing an alias leaves the others vetted. -/
theorem AllVetted.erase (h : t.AllVetted) (name : String) : AllVetted (Table.erase t name) :=
  fun entry hentry => h entry (List.mem_of_mem_filter hentry)

end Aliases

/-- The command of a valid alias matches no dangerous pattern. -/
theorem Alias.search_of_validate {name command : String} (h : validate name command = none)
    {p : Pattern} (hp : p ∈ dangerous) : p.search command.toList = false := by
  obtain ⟨-, -, -, hsafe⟩ := validate_eq_none_iff.mp h
  rw [isDangerous, List.any_eq_false] at hsafe
  exact Bool.eq_false_iff.mpr (hsafe p hp)

/-! ## Runs -/

namespace Session

/-- What can be asked of a session: to execute a line, or to apply its start file. -/
inductive Call where
  | execute (line : String)
  | loadStartFile

/-- The session that a call leaves. -/
def afterCall (s : Session) (now : Timestamp) : Call → Session
  | .execute line => ((Execution.execute line).run now s).session
  | .loadStartFile => (Session.loadStartFile.run now s).session

/-- The session after calls one after another, each at its own time. -/
def afterCalls (s : Session) (calls : List (Timestamp × Call)) : Session :=
  calls.foldl (fun s call => s.afterCall call.1 call.2) s

variable {s s' : Session} {now : Timestamp}

/-- A turn leaves all aliases vetted. -/
theorem Turn.allVetted (h : s.Turn now s') (hs : s.aliases.AllVetted) : s'.aliases.AllVetted := by
  cases h with
  | elsewhere haliases => exact haliases ▸ hs
  | setAlias hvalid htrimmed hset => exact hs.set hvalid htrimmed hset
  | removeAlias name => exact hs.erase name
  | clearAliases => exact nofun
  | setVariable | unsetVariable => exact hs

/-- So does a call. -/
theorem allVetted_afterCall (hs : s.aliases.AllVetted) (now : Timestamp) (call : Call) :
    (s.afterCall now call).aliases.AllVetted := by
  cases call with
  | execute line =>
    exact keeps_execute (P := fun s => s.aliases.AllVetted) (fun hturn => hturn.allVetted)
      (fun _ hp => hp) line now hs
  | loadStartFile =>
    exact (turns_loadStartFile now s).keeps (P := fun s => s.aliases.AllVetted)
      (fun hturn => hturn.allVetted) hs

/-- So does any number of calls. -/
theorem allVetted_afterCalls (hs : s.aliases.AllVetted) (calls : List (Timestamp × Call)) :
    (s.afterCalls calls).aliases.AllVetted := by
  induction calls generalizing s with
  | nil => exact hs
  | cons call rest ih => exact ih (allVetted_afterCall hs call.1 call.2)

end Session

namespace Execution

/-- Where all aliases of a session are vetted, they are so after any calls: each has its own name, a
command that is not empty and has no blanks around it, and is valid. So no alias ever stands for a
command that matches a dangerous pattern. -/
theorem aliases_stay_vetted {s : Session} (hs : s.aliases.AllVetted)
    (calls : List (Timestamp × Session.Call)) :
    ∀ entry ∈ (s.afterCalls calls).aliases,
      Aliases.Vetted entry.1 entry.2 ∧
        ∀ p ∈ Alias.dangerous, p.search entry.2.command.toList = false := by
  intro entry hentry
  have hvetted := Session.allVetted_afterCalls hs calls entry hentry
  exact ⟨hvetted, fun p hp => Alias.search_of_validate hvetted.valid hp⟩

/-- A command that defines three aliases ends at the second, which is dangerous; the first is there
afterwards, besides those of the start file. -/
theorem vetted_up_to_dangerous_alias :
    let s := Session.new (DefaultTree.fileSystem .epoch)
    let calls : List (Timestamp × Session.Call) :=
      [(.epoch, .loadStartFile), (.epoch, .execute "alias one=' echo 1 ' two='rm -rf /' three=pwd")]
    s.aliases.AllVetted ∧
      (s.afterCalls calls).aliases.map (fun entry => (entry.1, entry.2.command))
        = [("ll", "ls -la"), ("la", "ls -a"), ("l", "ls"), ("one", "echo 1")] ∧
      ∀ entry ∈ (s.afterCalls calls).aliases, Aliases.Vetted entry.1 entry.2 := by
  intro s calls
  have hs : s.aliases.AllVetted := nofun
  have htable : (s.afterCalls calls).aliases.map (fun entry => (entry.1, entry.2.command))
      = [("ll", "ls -la"), ("la", "ls -a"), ("l", "ls"), ("one", "echo 1")] := by decide +kernel
  refine ⟨hs, htable, fun entry hentry => ?_⟩
  exact (aliases_stay_vetted hs calls entry hentry).1

end Execution

end VirtualShell
