import VirtualShell.Alias.Book
import VirtualShell.Proofs.Table
import VirtualShell.Proofs.Text.Blank

/-!
# Setting aliases

An alias is stored under its own name after its name and its command have been checked, and the
command is stored without the blanks around it. Tables to which aliases come in no other way are
`Sound`.
-/

namespace VirtualShell.Aliases

variable {t t' : Aliases} {now : Timestamp} {name command : String}

/-- An alias is set if its name is one for an alias and its command is not blank. -/
theorem set_eq_ok_iff :
    t.set now name command = .ok t' ↔ Alias.isValidName name = true ∧ Text.strip command ≠ "" ∧
      t' = t.put name { name, command := Text.strip command, createdAt := now } := by
  rw [set]
  by_cases hname : Alias.isValidName name = true
  · by_cases hcommand : Text.strip command = ""
    · simp [hname, hcommand]
    · simp [hname, hcommand, eq_comm]
  · simp [hname]

/-! ## Tables of aliases -/

/-- A table that aliases have come into only by being set. They may have been removed again, and a
document may have given them other dates. -/
inductive Entered : Aliases → Prop
  | empty : Entered []
  | set {t t' : Aliases} {now : Timestamp} {name command : String} (h : Entered t)
      (hset : t.set now name command = .ok t') : Entered t'
  | erase {t : Aliases} (h : Entered t) (name : String) : Entered (Table.erase t name)
  | dated {t : Aliases} (h : Entered t) (name : String) (createdAt : Timestamp) :
      Entered (Table.adjust t name fun a => { a with createdAt })

/-- What an alias that is kept under a name satisfies. -/
structure KeptUnder (name : String) (a : Alias) : Prop where
  name_eq : a.name = name
  valid : Alias.isValidName name = true
  stripped : Text.strip a.command = a.command
  nonempty : a.command ≠ ""

/-- A table with each name once and each alias under its own name. -/
structure Sound (t : Aliases) : Prop where
  distinct : Table.Distinct t
  kept : ∀ entry ∈ t, KeptUnder entry.1 entry.2

/-- Setting an alias keeps a book sound. -/
theorem Sound.set (h : t.Sound) (hset : t.set now name command = .ok t') : t'.Sound := by
  obtain ⟨hname, hcommand, rfl⟩ := set_eq_ok_iff.mp hset
  refine ⟨h.distinct.put _ _, fun entry hentry => ?_⟩
  rcases Table.mem_of_mem_put hentry with rfl | hold
  · exact ⟨rfl, hname, Text.strip_strip command, hcommand⟩
  · exact h.kept entry hold

/-- So does removing one. -/
theorem Sound.erase (h : t.Sound) (name : String) : Sound (Table.erase t name) :=
  ⟨h.distinct.erase name, fun entry hentry => h.kept entry (List.mem_of_mem_filter hentry)⟩

/-- So does giving one another date. -/
theorem Sound.dated (h : t.Sound) (name : String) (createdAt : Timestamp) :
    Sound (Table.adjust t name fun a => { a with createdAt }) := by
  refine ⟨?_, fun entry hentry => ?_⟩
  · rw [Table.Distinct, Table.names_adjust]
    exact h.distinct
  · obtain ⟨old, hold, rfl⟩ := List.mem_map.mp hentry
    have hkept := h.kept old hold
    by_cases hname : old.1 = name
    · rw [if_pos hname]
      exact ⟨hkept.name_eq, hkept.valid, hkept.stripped, hkept.nonempty⟩
    · rw [if_neg hname]
      exact hkept

/-- A book that was filled by entries is sound. -/
theorem Entered.sound (h : t.Entered) : t.Sound := by
  induction h with
  | empty => exact ⟨Table.distinct_nil, nofun⟩
  | set _ hset ih => exact ih.set hset
  | erase _ name ih => exact ih.erase name
  | dated _ name createdAt ih => exact ih.dated name createdAt

end VirtualShell.Aliases
