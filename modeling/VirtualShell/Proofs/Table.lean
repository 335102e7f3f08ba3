import VirtualShell.Table
import Mathlib.Data.List.Nodup
import Mathlib.Data.List.Perm.Basic

/-!
# Tables as maps

A table is a list, but it is meant as a map: no name stands in it twice (`Distinct`). What putting
and erasing do is said twice below, once about the names in their order and once about look-ups, so
that no later proof opens the recursion of `put` or the filter of `erase`.
-/

namespace VirtualShell.Table

variable {α : Type} {t : Table α} {name other : String} {v w : α}

/-- No name stands in the table twice. -/
def Distinct (t : Table α) : Prop :=
  (names t).Nodup

@[simp]
theorem names_nil : names ([] : Table α) = [] := rfl

@[simp]
theorem names_cons (entry : String × α) (rest : Table α) :
    names (entry :: rest) = entry.1 :: names rest := rfl

theorem distinct_nil : Distinct ([] : Table α) :=
  List.nodup_nil

theorem distinct_cons {entry : String × α} {rest : Table α} :
    Distinct (entry :: rest) ↔ entry.1 ∉ names rest ∧ Distinct rest :=
  List.nodup_cons

/-! ## Looking up -/

@[simp]
theorem find?_nil (name : String) : find? ([] : Table α) name = none := rfl

theorem find?_cons (entry : String × α) (rest : Table α) (name : String) :
    find? (entry :: rest) name = if entry.1 = name then some entry.2 else find? rest name := rfl

/-- A name that stands nowhere has no value, and only such a name. -/
theorem find?_eq_none_iff : find? t name = none ↔ name ∉ names t := by
  induction t with
  | nil => simp
  | cons entry rest ih =>
    rw [find?_cons, names_cons, List.mem_cons]
    by_cases h : entry.1 = name
    · simp [h]
    · rw [if_neg h, ih]
      simp [Ne.symm h]

/-- A name is not contained just where nothing is found under it. -/
theorem contains_eq_false_iff : contains t name = false ↔ find? t name = none := by
  simp [contains]

/-- It is contained just where it is one of the names. -/
theorem contains_iff : contains t name = true ↔ name ∈ names t := by
  rw [← not_iff_not, Bool.not_eq_true, contains_eq_false_iff, find?_eq_none_iff]

/-- A value that is found stands in the table under its name. -/
theorem mem_of_find? (h : find? t name = some v) : (name, v) ∈ t := by
  induction t with
  | nil => simp at h
  | cons entry rest ih =>
    rw [find?_cons] at h
    split at h
    · rename_i hname
      cases h
      rw [← hname]
      exact List.mem_cons_self
    · exact List.mem_cons_of_mem _ (ih h)

/-- Values that are mapped are found mapped. -/
theorem find?_map {β : Type} (f : α → β) (t : Table α) (name : String) :
    find? (t.map (Prod.map id f)) name = (find? t name).map f := by
  induction t with
  | nil => rfl
  | cons entry rest ih =>
    rw [List.map_cons, find?_cons, find?_cons, ih]
    change (if entry.1 = name then _ else _) = _
    split <;> rfl

/-- The name of an entry is one of the names. -/
theorem mem_names_of_mem {entry : String × α} (h : entry ∈ t) : entry.1 ∈ names t :=
  List.mem_map_of_mem h

/-- In a map every entry is found under its name. -/
theorem find?_of_mem (hd : Distinct t) (h : (name, v) ∈ t) : find? t name = some v := by
  induction t with
  | nil => simp at h
  | cons entry rest ih =>
    obtain ⟨hnew, hrest⟩ := distinct_cons.mp hd
    rw [find?_cons]
    rcases List.mem_cons.mp h with rfl | hmem
    · exact if_pos rfl
    · have hne : entry.1 ≠ name := fun he => hnew (he ▸ mem_names_of_mem hmem)
      rw [if_neg hne]
      exact ih hrest hmem

/-- Two maps with the same entries answer alike. -/
theorem find?_eq_of_perm {t u : Table α} (hd : Distinct t) (h : t.Perm u) (name : String) :
    find? u name = find? t name := by
  have hd' : Distinct u := (h.map Prod.fst).nodup_iff.mp hd
  cases hf : find? t name with
  | some v => exact find?_of_mem hd' (h.mem_iff.mp (mem_of_find? hf))
  | none =>
    rw [find?_eq_none_iff] at hf ⊢
    exact fun hmem => hf ((h.map Prod.fst).mem_iff.mpr hmem)

/-! ## Putting -/

theorem put_cons (entry : String × α) (rest : Table α) (name : String) (v : α) :
    put (entry :: rest) name v
      = if entry.1 = name then (name, v) :: rest else entry :: put rest name v := rfl

/-- What was put under a name is found there. -/
@[simp]
theorem find?_put_self (t : Table α) (name : String) (v : α) :
    find? (put t name v) name = some v := by
  induction t with
  | nil => simp [put, find?]
  | cons entry rest ih =>
    rw [put_cons]
    by_cases h : entry.1 = name
    · rw [if_pos h, find?_cons, if_pos rfl]
    · rw [if_neg h, find?_cons, if_neg h, ih]

/-- Under another name the same is found as before. -/
theorem find?_put_of_ne (t : Table α) (v : α) (h : other ≠ name) :
    find? (put t name v) other = find? t other := by
  induction t with
  | nil => rw [put, find?_cons, if_neg (Ne.symm h)]
  | cons entry rest ih =>
    rw [put_cons]
    by_cases hn : entry.1 = name
    · rw [if_pos hn, find?_cons, find?_cons, if_neg (Ne.symm h), if_neg (hn ▸ Ne.symm h)]
    · rw [if_neg hn, find?_cons, find?_cons, ih]

/-- Putting under a known name keeps all names in their places. -/
theorem names_put_of_mem (v : α) (h : name ∈ names t) : names (put t name v) = names t := by
  induction t with
  | nil => simp at h
  | cons entry rest ih =>
    rw [put_cons]
    by_cases hn : entry.1 = name
    · rw [if_pos hn, names_cons, names_cons, hn]
    · rw [names_cons, List.mem_cons] at h
      rw [if_neg hn, names_cons, names_cons, ih (h.resolve_left (Ne.symm hn))]

/-- Putting under a new name adds an entry at the end. -/
theorem put_of_not_mem (v : α) (h : name ∉ names t) : put t name v = t ++ [(name, v)] := by
  induction t with
  | nil => rfl
  | cons entry rest ih =>
    rw [names_cons, List.mem_cons, not_or] at h
    rw [put_cons, if_neg (Ne.symm h.1), ih h.2, List.cons_append]

/-- Putting in what is there already changes nothing. -/
theorem put_of_find? (h : find? t name = some v) : put t name v = t := by
  induction t with
  | nil => simp at h
  | cons entry rest ih =>
    rw [find?_cons] at h
    rw [put_cons]
    split at h
    · rename_i hkey
      cases h
      rw [if_pos hkey, ← hkey]
    · rename_i hkey
      rw [if_neg hkey, ih h]

/-- A new name comes last. -/
theorem names_put_of_not_mem (v : α) (h : name ∉ names t) :
    names (put t name v) = names t ++ [name] := by
  rw [put_of_not_mem v h]
  simp [names]

/-- The names are those from before and the one that was put. -/
theorem mem_names_put : other ∈ names (put t name v) ↔ other = name ∨ other ∈ names t := by
  by_cases h : name ∈ names t
  · rw [names_put_of_mem v h]
    exact ⟨Or.inr, fun ho => ho.elim (fun he => he ▸ h) id⟩
  · rw [names_put_of_not_mem v h, List.mem_append, List.mem_singleton, or_comm]

/-- The entries are the one that was put and some of those from before. -/
theorem mem_of_mem_put {entry : String × α} (h : entry ∈ put t name v) :
    entry = (name, v) ∨ entry ∈ t := by
  induction t with
  | nil => exact .inl (List.mem_singleton.mp h)
  | cons first rest ih =>
    rw [put_cons] at h
    split at h
    · exact (List.mem_cons.mp h).imp_right (List.mem_cons_of_mem _)
    · rcases List.mem_cons.mp h with rfl | hrest
      · exact .inr List.mem_cons_self
      · exact (ih hrest).imp_right (List.mem_cons_of_mem _)

/-- Putting an entry keeps the names apart. -/
theorem Distinct.put (hd : Distinct t) (name : String) (v : α) :
    Distinct (Table.put t name v) := by
  by_cases h : name ∈ names t
  · rw [Distinct, names_put_of_mem v h]
    exact hd
  · rw [Distinct, names_put_of_not_mem v h]
    exact List.Nodup.append hd (List.nodup_singleton name)
      (List.disjoint_singleton.mpr h)

/-- There are as many names as entries. -/
theorem length_names (t : Table α) : (names t).length = t.length :=
  List.length_map _

/-- Putting an entry makes a table no shorter. -/
theorem length_le_length_put (t : Table α) (name : String) (v : α) :
    t.length ≤ (put t name v).length := by
  rw [← length_names t, ← length_names (put t name v)]
  by_cases h : name ∈ names t
  · exact Nat.le_of_eq (congrArg List.length (names_put_of_mem v h)).symm
  · rw [names_put_of_not_mem v h, List.length_append]
    exact Nat.le_add_right _ _

/-! ## Erasing -/

/-- Erasing a name leaves the others in their order. -/
theorem names_erase (t : Table α) (name : String) :
    names (erase t name) = (names t).filter (· ≠ name) := by
  rw [erase, names, names, List.filter_map]
  rfl

/-- The names that are left are all but the erased one. -/
theorem mem_names_erase : other ∈ names (erase t name) ↔ other ∈ names t ∧ other ≠ name := by
  rw [names_erase, List.mem_filter, decide_eq_true_iff]

/-- Nothing is found under an erased name. -/
@[simp]
theorem find?_erase_self (t : Table α) (name : String) : find? (erase t name) name = none :=
  find?_eq_none_iff.mpr fun h => (mem_names_erase.mp h).2 rfl

/-- Under another name the same is found as before it was erased. -/
theorem find?_erase_of_ne (t : Table α) (h : other ≠ name) :
    find? (erase t name) other = find? t other := by
  induction t with
  | nil => rfl
  | cons entry rest ih =>
    rw [erase, List.filter_cons]
    by_cases hn : entry.1 = name
    · rw [if_neg (by simp [hn]), find?_cons, if_neg (hn ▸ Ne.symm h)]
      exact ih
    · rw [if_pos (by simp [hn]), find?_cons, find?_cons]
      split
      · rfl
      · exact ih

/-- Erasing a name keeps the others apart. -/
theorem Distinct.erase (hd : Distinct t) (name : String) : Distinct (Table.erase t name) := by
  rw [Distinct, names_erase]
  exact hd.filter _

/-- Any part of a table keeps its names apart. -/
theorem Distinct.filter (hd : Distinct t) (p : String × α → Bool) :
    Distinct (List.filter p t) :=
  hd.sublist (List.filter_sublist.map Prod.fst)

/-- In a map, what is found among some of the entries is what is found among all of them, if it is
one of those. -/
theorem find?_filter (hd : Distinct t) (p : String × α → Bool) (name : String) :
    find? (List.filter p t) name = (find? t name).filter fun v => p (name, v) := by
  induction t with
  | nil => rfl
  | cons entry rest ih =>
    obtain ⟨hentry, hrest⟩ := distinct_cons.mp hd
    have hfilter := ih hrest
    rw [List.filter_cons, find?_cons]
    by_cases hname : entry.1 = name
    · subst hname
      rw [if_pos rfl, Option.filter_some]
      split
      · rw [find?_cons, if_pos rfl]
      · rw [hfilter, find?_eq_none_iff.mpr hentry, Option.filter_none]
    · rw [if_neg hname, ← hfilter]
      split
      · rw [find?_cons, if_neg hname]
      · rfl

/-! ## Adjusting -/

/-- Adjusting an entry changes no name. -/
theorem names_adjust (t : Table α) (name : String) (f : α → α) :
    names (adjust t name f) = names t := by
  rw [adjust, names, names, List.map_map]
  refine List.map_congr_left fun entry _ => ?_
  rw [Function.comp_apply]
  split <;> rfl

/-- A name that is not there is not adjusted. -/
theorem adjust_of_not_mem (f : α → α) (h : name ∉ names t) : adjust t name f = t := by
  refine (List.map_congr_left fun entry hentry => ?_).trans (List.map_id t)
  have hne : entry.1 ≠ name := fun heq => h (heq ▸ mem_names_of_mem hentry)
  rw [if_neg hne, id]

/-- Adjusting a value that was just put is putting the adjusted value. -/
theorem adjust_put (hd : Distinct t) (name : String) (v : α) (f : α → α) :
    adjust (put t name v) name f = put t name (f v) := by
  induction t with
  | nil => simp [put, adjust]
  | cons entry rest ih =>
    obtain ⟨hentry, hrest⟩ := distinct_cons.mp hd
    rw [put_cons, put_cons]
    by_cases h : entry.1 = name
    · rw [if_pos h, if_pos h, adjust, List.map_cons, if_pos rfl]
      exact congrArg _ (adjust_of_not_mem f (h ▸ hentry))
    · rw [if_neg h, if_neg h, adjust, List.map_cons, if_neg h]
      exact congrArg _ (ih hrest)

/-! ## Building and sorting -/

/-- An entry of a new name goes behind the others. -/
theorem put_of_distinct {t rest : Table α} {e : String × α} (h : Distinct (t ++ e :: rest)) :
    put t e.1 e.2 = t ++ [e] := by
  refine put_of_not_mem e.2 fun hmem => ?_
  rw [Distinct, names, List.map_append, List.nodup_append] at h
  exact h.2.2 _ hmem _ List.mem_cons_self rfl

/-- Putting the entries of a map one after another into a map that knows none of their names lines
them up behind it. -/
theorem foldl_put_eq_append (t entries : Table α) (h : Distinct (t ++ entries)) :
    entries.foldl (fun t e => put t e.1 e.2) t = t ++ entries := by
  induction entries generalizing t with
  | nil => rw [List.foldl_nil, List.append_nil]
  | cons e rest ih =>
    have hput := put_of_distinct h
    rw [List.append_cons] at h ⊢
    rw [List.foldl_cons, hput, ih _ h]

/-- Sorting only changes the order of the entries. -/
theorem sorted_perm (t : Table α) : (sorted t).Perm t :=
  List.mergeSort_perm t _

/-- Sorting keeps the names apart. -/
theorem Distinct.sorted (hd : Distinct t) : Distinct (Table.sorted t) :=
  ((sorted_perm t).map Prod.fst).nodup_iff.mpr hd

end VirtualShell.Table
