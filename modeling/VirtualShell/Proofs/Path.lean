import VirtualShell.Path
import VirtualShell.Proofs.Text.Runs

/-!
# Names in paths

The names that can stand in a directory are those that a path can lead through: they are not empty,
hold no slash, and are not one of the two dots that stand for a step of their own. Whatever a user
types resolves to such names, as long as the working directory is made of them.

Seen from one path, any other path leads elsewhere, to the same place, or below it (`seenFrom`).
-/

namespace VirtualShell

namespace Path

/-- A text that can name an entry of a directory. -/
def IsName (name : String) : Prop :=
  name ≠ "" ∧ name ≠ "." ∧ name ≠ ".." ∧ '/' ∉ name.toList

instance (name : String) : Decidable (IsName name) := by
  unfold IsName
  infer_instance

/-- One step keeps a path of names, unless it is a step down to something that holds a slash. -/
theorem isName_of_mem_step {base : Path} {part : String} (hbase : ∀ name ∈ base, IsName name)
    (hpart : '/' ∉ part.toList) : ∀ name ∈ step base part, IsName name := by
  intro name hname
  unfold step at hname
  split at hname
  · exact hbase name hname
  · rename_i hplain
    split at hname
    · exact hbase name (List.dropLast_subset base hname)
    · rename_i hdots
      rw [List.mem_append, List.mem_singleton] at hname
      rcases hname with hname | rfl
      · exact hbase name hname
      · rw [not_or] at hplain
        exact ⟨hplain.1, hplain.2, hdots, hpart⟩

/-- Following parts without slashes from a path of names leads to a path of names. -/
theorem isName_of_mem_follow {base : Path} {parts : List String}
    (hbase : ∀ name ∈ base, IsName name) (hparts : ∀ part ∈ parts, '/' ∉ part.toList) :
    ∀ name ∈ follow base parts, IsName name := by
  unfold follow
  induction parts generalizing base with
  | nil => exact hbase
  | cons part rest ih =>
    rw [List.foldl_cons]
    refine ih (isName_of_mem_step hbase (hparts part List.mem_cons_self)) ?_
    exact fun part' h => hparts part' (List.mem_cons_of_mem _ h)

/-- Every input resolves to names. -/
theorem isName_of_mem_resolve {cwd : Path} (hcwd : ∀ name ∈ cwd, IsName name) (input : String) :
    ∀ name ∈ resolve cwd input, IsName name := by
  unfold resolve
  refine isName_of_mem_follow ?_ fun part h => Text.not_mem_of_mem_splitOn h
  split
  · simp
  · exact hcwd

/-! ## One path seen from another -/

/-- Where a path leads, seen from a place in the tree. -/
inductive SeenFrom (place : Path) : Path → Prop
  | elsewhere {path : Path} (h : ¬ place <+: path) : SeenFrom place path
  | there : SeenFrom place place
  | below (name : String) (rest : Path) : SeenFrom place (place ++ name :: rest)

/-- Every path is seen from every place in one of these ways. -/
theorem seenFrom (place path : Path) : SeenFrom place path := by
  by_cases h : place <+: path
  · obtain ⟨rest, rfl⟩ := h
    cases rest with
    | nil =>
      rw [List.append_nil]
      exact .there
    | cons name rest => exact .below name rest
  · exact .elsewhere h

/-- The path of an entry does not lead back to its directory. -/
theorem not_entry_isPrefix (place : Path) (name : String) : ¬ place ++ [name] <+: place := by
  intro h
  have hlength := h.length_le
  rw [List.length_append, List.length_singleton] at hlength
  omega

/-- Below a directory, a path leads through the entry that it names first. -/
theorem entry_isPrefix_iff {place rest : Path} {name other : String} :
    place ++ [name] <+: place ++ other :: rest ↔ other = name := by
  rw [List.prefix_append_right_inj, List.cons_prefix_cons, and_iff_left List.nil_prefix]
  exact eq_comm

end Path

end VirtualShell
