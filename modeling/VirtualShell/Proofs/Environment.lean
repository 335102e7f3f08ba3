import VirtualShell.Environment
import VirtualShell.Proofs.Table

/-!
# Setting and removing variables

A variable is stored only after it has been validated, and the reserved ones are never removed. Both
keep the variables a map and the defaults as they are. Variables from a document are set one after
another, and those that may not be set are passed over.

So variables that are valid by themselves are all taken over, or else there is no room left for the
one that is missing (`get?_takeOver`).
-/

namespace VirtualShell

/-- A name and a value that a variable may have, if there is room for it. -/
structure Variable.IsValid (name value : String) : Prop where
  isName : Variable.isName name = true
  shortName : name.length ≤ Variable.maxNameLength
  shortValue : value.length ≤ Variable.maxValueLength

namespace Environment

variable {e e' : Environment} {name value : String}

/-- A variable is set if nothing speaks against it, and then its value is stored. -/
theorem set_eq_ok_iff :
    e.set name value = .ok e' ↔ e.validate name value = none ∧ e' = e.store name value := by
  rw [set]
  cases h : e.validate name value with
  | some r => simp
  | none => simp [eq_comm]

/-- A variable is removed if it is known and not reserved. -/
theorem unset?_eq_some_iff :
    e.unset? name = some e' ↔ name ∉ Variable.reserved ∧ name ∈ e.current.names ∧
      e' = { e with current := e.current.erase name } := by
  rw [unset?]
  by_cases hr : name ∈ Variable.reserved
  · simp [hr]
  · by_cases hn : name ∈ e.current.names
    · have hc := Table.contains_iff.mpr hn
      simp [hr, hn, hc, eq_comm]
    · have hc : e.current.contains name = false := by
        rw [← Bool.not_eq_true, Table.contains_iff]
        exact hn
      simp [hr, hn, hc]

/-- Nothing speaks against a variable that is valid and known, or for which there is room. -/
theorem validate_eq_none_iff :
    e.validate name value = none ↔ Variable.IsValid name value ∧
      (name ∈ e.current.names ∨ e.current.length < Variable.maxCount) := by
  have hroom : (!e.current.contains name && decide (Variable.maxCount ≤ e.current.length)) = false
      ↔ name ∈ e.current.names ∨ e.current.length < Variable.maxCount := by
    rw [Bool.and_eq_false_iff, Bool.not_eq_false', Table.contains_iff, decide_eq_false_iff_not,
      Nat.not_le]
  rw [← hroom, validate]
  split
  · rename_i hname
    refine iff_of_false nofun fun h => ?_
    simp [h.1.isName] at hname
  split
  · rename_i hlength
    exact iff_of_false nofun fun h => Nat.not_le.mpr hlength h.1.shortName
  split
  · rename_i hlength
    exact iff_of_false nofun fun h => Nat.not_le.mpr hlength h.1.shortValue
  split
  · rename_i hfull
    exact iff_of_false nofun fun h => Bool.eq_false_iff.mp h.2 hfull
  · rename_i hname hlength hvalue hfull
    have hvalid : Variable.IsValid name value :=
      ⟨by simpa using hname, Nat.not_lt.mp hlength, Nat.not_lt.mp hvalue⟩
    exact iff_of_true rfl ⟨hvalid, Bool.eq_false_iff.mpr hfull⟩

/-- Storing a variable puts it among the current ones. -/
@[simp]
theorem current_store (e : Environment) (name value : String) :
    (e.store name value).current = e.current.put name value := rfl

/-- The working directory can be read off its variable. -/
theorem get?_withCwd (e : Environment) (cwd : Path) :
    (e.withCwd cwd).get? "PWD" = some cwd.text :=
  Table.find?_put_self _ _ _

/-- The variables are a map, and the reserved ones are set. -/
structure Sound (e : Environment) : Prop where
  distinct : e.current.Distinct
  reserved : ∀ name ∈ Variable.reserved, name ∈ e.current.names

/-- Storing a variable keeps an environment sound. -/
theorem Sound.store (h : e.Sound) (name value : String) : (e.store name value).Sound where
  distinct := h.distinct.put name value
  reserved other hother := Table.mem_names_put.mpr (Or.inr (h.reserved other hother))

/-- So does setting one. -/
theorem Sound.set (h : e.Sound) (hset : e.set name value = .ok e') : e'.Sound := by
  obtain ⟨-, rfl⟩ := set_eq_ok_iff.mp hset
  exact h.store name value

/-- So does removing one. -/
theorem Sound.unset? (h : e.Sound) (hunset : e.unset? name = some e') : e'.Sound := by
  obtain ⟨hname, -, rfl⟩ := unset?_eq_some_iff.mp hunset
  refine ⟨h.distinct.erase name, fun other hother => Table.mem_names_erase.mpr ?_⟩
  exact ⟨h.reserved other hother, fun he => hname (he ▸ hother)⟩

/-- So does noting the working directory. -/
theorem Sound.withCwd (h : e.Sound) (cwd : Path) : (e.withCwd cwd).Sound :=
  h.store "PWD" cwd.text

/-- The variables of a new session are sound. -/
theorem sound_new (cwd : Path) (user : String) : (new cwd user).Sound where
  distinct := by
    simp [new, defaultVariables, Table.Distinct, Table.names]
  reserved := by
    simp [new, defaultVariables, Table.names, Variable.reserved]

/-! ## Taking over variables -/

/-- Sets a variable to a value if that is a text and may be set; passes it over otherwise. -/
def setText (e : Environment) (name : String) : Json → Environment
  | .str value => if e.validate name value = none then e.store name value else e
  | _ => e

/-- Sets variables one after another, as far as they may be set. -/
def takeOver (e : Environment) (fields : Table Json) : Environment :=
  fields.foldl (fun e field => e.setText field.1 field.2) e

/-- Importing takes over the variables that may be set, and only notes down the others. -/
theorem environment_importFrom (e : Environment) (fields : Table Json) :
    (e.importFrom fields).environment = e.takeOver fields := by
  refine (List.foldl_hom Imported.environment fun done field => ?_).symm
  obtain ⟨name, v⟩ := field
  cases v with
  | str value => cases h : done.environment.validate name value <;> simp [setText, set, h]
  | null | bool | int | float | arr | obj => rfl

/-- A valid variable is set, or it is not known and there is no room for it. -/
theorem setText_str (h : Variable.IsValid name value) :
    e.setText name (.str value) = e.store name value ∨
      e.setText name (.str value) = e ∧ e.get? name = none ∧
        Variable.maxCount ≤ e.current.length := by
  rw [setText]
  by_cases hroom : name ∈ e.current.names ∨ e.current.length < Variable.maxCount
  · rw [if_pos (validate_eq_none_iff.mpr ⟨h, hroom⟩)]
    exact .inl rfl
  · rw [if_neg fun hnone => hroom (validate_eq_none_iff.mp hnone).2]
    rw [not_or, Nat.not_lt] at hroom
    exact .inr ⟨rfl, Table.find?_eq_none_iff.mpr hroom.1, hroom.2⟩

/-- What one more variable keeps, taking over variables keeps. -/
theorem takeOver_keeps {P : Environment → Prop} {fields : Table Json} (he : P e)
    (hstore : ∀ e, ∀ field ∈ fields, ∀ value, P e → P (e.store field.1 value)) :
    P (e.takeOver fields) := by
  refine List.foldlRecOn fields _ he fun e he field hfield => ?_
  unfold setText
  split
  · split
    · exact hstore e field hfield _ he
    · exact he
  · exact he

/-- So does taking over the fields of a document. -/
theorem Sound.takeOver (h : e.Sound) (fields : Table Json) : (e.takeOver fields).Sound :=
  takeOver_keeps h fun _ field _ value he => he.store field.1 value

/-- Taking over fields removes no variable. -/
theorem length_le_length_takeOver (e : Environment) (fields : Table Json) :
    e.current.length ≤ (e.takeOver fields).current.length := by
  refine takeOver_keeps (P := fun e' => e.current.length ≤ e'.current.length) (Nat.le_refl _) ?_
  intro e' field _ value he'
  exact Nat.le_trans he' (Table.length_le_length_put e'.current field.1 value)

/-- It adds none but the fields. -/
theorem mem_names_takeOver {fields : Table Json} {other : String}
    (h : other ∈ (e.takeOver fields).current.names) :
    other ∈ e.current.names ∨ other ∈ fields.names := by
  refine takeOver_keeps (P := fun e' => ∀ other ∈ e'.current.names,
    other ∈ e.current.names ∨ other ∈ fields.names) (fun _ => .inl) ?_ other h
  intro e' field hfield value he' other hother
  rw [current_store] at hother
  rcases Table.mem_names_put.mp hother with rfl | hold
  · exact .inr (Table.mem_names_of_mem hfield)
  · exact he' other hold

/-- Of variables that are valid, each is taken over, and the others stay; or a variable is missing
because the environment is full. -/
theorem get?_takeOver {texts : Table String} (hd : texts.Distinct)
    (hvalid : ∀ entry ∈ texts, Variable.IsValid entry.1 entry.2) (other : String) :
    let e' := e.takeOver (texts.map fun (name, value) => (name, .str value))
    e'.get? other = (texts.find? other).or (e.get? other) ∨
      e'.get? other = none ∧ e.get? other = none ∧ other ∈ texts.names ∧
        Variable.maxCount ≤ e'.current.length := by
  induction texts generalizing e with
  | nil => exact .inl rfl
  | cons entry rest ih =>
    obtain ⟨hentry, hrest⟩ := Table.distinct_cons.mp hd
    rw [List.forall_mem_cons] at hvalid
    have hlater := @ih (e.setText entry.1 (.str entry.2)) hrest hvalid.2
    intro e'
    change (e'.get? other = _ ∨ e'.get? other = none ∧ _) at hlater
    rw [Table.find?_cons, Table.names_cons, List.mem_cons]
    by_cases hother : entry.1 = other
    · subst hother
      rw [if_pos rfl, Option.some_or]
      -- The later variables have other names, so only this step decides.
      have hkept : e'.get? entry.1 = (e.setText entry.1 (.str entry.2)).get? entry.1 := by
        rw [Table.find?_eq_none_iff.mpr hentry, Option.none_or] at hlater
        exact hlater.resolve_right fun hmissing => hentry hmissing.2.2.1
      rcases setText_str hvalid.1 with hset | ⟨hsame, hunknown, hfull⟩
      · rw [hkept, hset]
        exact .inl (Table.find?_put_self _ _ _)
      · rw [hkept, hsame]
        have hlength : (e.setText entry.1 (.str entry.2)).current.length ≤ e'.current.length :=
          length_le_length_takeOver _ _
        rw [hsame] at hlength
        exact .inr ⟨hunknown, hunknown, .inl rfl, Nat.le_trans hfull hlength⟩
    · have hget : (e.setText entry.1 (.str entry.2)).get? other = e.get? other := by
        rcases setText_str hvalid.1 with hset | ⟨hsame, -, -⟩
        · rw [hset]
          exact Table.find?_put_of_ne _ _ (Ne.symm hother)
        · rw [hsame]
      rw [if_neg hother, ← hget]
      exact hlater.imp_right fun ⟨hmissing, hnew, hmem, hfull⟩ => ⟨hmissing, hnew, .inr hmem, hfull⟩

end Environment

end VirtualShell
