import VirtualShell.Proofs.Alias.Book
import VirtualShell.Proofs.Time.RoundTrip

/-!
# Aliases in documents

The list of aliases in a document may hold anything. An entry that is an alias (`written?`) is
stored, one that ends the reading (`isMalformed`) ends it, and all others are passed over. So the
table that is read is that of the aliases before the first entry that ends the reading.
-/

namespace VirtualShell.Aliases

variable {t : Aliases} {now : Timestamp} {fields : Table Json}

/-! ## Entries -/

/-- The text of a field; one that is missing or no text counts as empty. -/
def fieldText (fields : Table Json) (name : String) : String :=
  ((Table.find? fields name).bind Json.text?).getD ""

/-- The alias that an entry writes, if its name and its command are valid. -/
def written? (now : Timestamp) : Json → Option Alias
  | .obj fields =>
    let name := fieldText fields "name"
    let command := Text.strip (fieldText fields "command")
    if Alias.isValidName name = true ∧ command ≠ "" then
      some { name, command, createdAt := .ofJson now (Table.find? fields "createdAt") }
    else none
  | _ => none

/-- The number of parts that a value has. -/
def partCount : Json → Nat
  | .arr items => items.length
  | .obj fields => fields.length
  | _ => 0

/-- A value that is no text and does not count as false. -/
def isBadCommand (v : Json) : Bool :=
  v.isTruthy && v.text?.isNone

/-- A value that is no text, does not count as false and is not refused for its length. -/
def isBadName (v : Json) : Bool :=
  isBadCommand v && !(Alias.maxNameLength < partCount v)

/-- Whether an entry ends the reading. -/
def isMalformed : Json → Bool
  | .obj fields =>
    (Table.find? fields "command").any isBadCommand || (Table.find? fields "name").any isBadName
  | _ => false

/-! ## One entry -/

/-- A bad command cannot be read. -/
theorem commandOf_of_bad {v : Json} (h : isBadCommand v = true) : ∃ e, commandOf v = .error e := by
  cases v <;> simp_all [commandOf, isBadCommand, Json.text?]

/-- Any other one is read, as an empty text if it is none. -/
theorem commandOf_of_not_bad {v : Json} (h : isBadCommand v = false) :
    commandOf v = .ok (v.text?.getD "") := by
  cases v <;> simp_all [commandOf, isBadCommand, Json.text?]

/-- A name is bad where it would be a bad command, unless it is too long to be looked at. -/
theorem isBadName_iff {v : Json} :
    isBadName v = true ↔ isBadCommand v = true ∧ partCount v ≤ Alias.maxNameLength := by
  rw [isBadName, Bool.and_eq_true, Bool.not_eq_true', decide_eq_false_iff_not, Nat.not_lt]

/-- A bad name cannot be read. -/
theorem nameOf_of_bad {v : Json} (h : isBadName v = true) : ∃ e, nameOf v = .error e := by
  obtain ⟨hbad, hcount⟩ := isBadName_iff.mp h
  cases v with
  | arr parts | obj parts =>
    have hne : parts.isEmpty = false := by
      simpa [isBadCommand, Json.isTruthy, Json.text?] using hbad
    have hlong : ¬ decide (Alias.maxNameLength < parts.length) = true := by
      rw [decide_eq_true_iff]
      exact Nat.not_lt.mpr hcount
    rw [nameOf, hne, Bool.false_or, if_neg hlong]
    exact ⟨_, rfl⟩
  | null | bool | int | float | str => simp_all [nameOf, isBadCommand, Json.text?]

/-- Any other one is read. -/
theorem nameOf_of_not_bad {v : Json} (h : isBadName v = false) : nameOf v = .ok v.text? := by
  rw [← Bool.not_eq_true, isBadName_iff, not_and, Nat.not_le] at h
  cases v <;> simp_all [nameOf, isBadCommand, partCount, Json.text?, Json.isTruthy]

/-- A field that is missing is read as an empty text, which ends no reading. -/
theorem isMalformed_obj (fields : Table Json) :
    isMalformed (.obj fields) = (isBadCommand ((fields.find? "command").getD (.str "")) ||
      isBadName ((fields.find? "name").getD (.str ""))) := by
  rw [isMalformed]
  cases Table.find? fields "command" <;> cases Table.find? fields "name" <;> rfl

/-- The text of a field that is missing, or no text, is empty. -/
theorem fieldText_eq (fields : Table Json) (name : String) :
    fieldText fields name = ((fields.find? name).getD (.str "")).text?.getD "" := by
  rw [fieldText]
  cases Table.find? fields name <;> rfl

/-- A malformed entry cannot be added. -/
theorem addEntry_of_malformed (t : Aliases) (now : Timestamp)
    (h : isMalformed (.obj fields) = true) : ∃ e, addEntry t now fields = .error e := by
  rw [isMalformed_obj, Bool.or_eq_true] at h
  rw [addEntry]
  cases hcommand : isBadCommand ((fields.find? "command").getD (.str "")) with
  | true =>
    obtain ⟨e, he⟩ := commandOf_of_bad hcommand
    rw [he]
    exact ⟨e, rfl⟩
  | false =>
    obtain ⟨e, he⟩ := nameOf_of_bad (h.resolve_left (by simp [hcommand]))
    rw [commandOf_of_not_bad hcommand]
    simp only [bind, Except.bind, he]
    exact ⟨e, rfl⟩

/-- An entry that does not end the reading is stored if it is an alias, and else refused. -/
theorem addEntry_of_not_malformed (now : Timestamp) (hd : Table.Distinct t)
    (h : isMalformed (.obj fields) = false) :
    match written? now (.obj fields) with
    | some a => addEntry t now fields = .ok (.ok (Table.put t a.name a))
    | none => ∃ r, addEntry t now fields = .ok (.error r) := by
  rw [isMalformed_obj, Bool.or_eq_false_iff] at h
  have hname := fieldText_eq fields "name"
  simp only [addEntry, commandOf_of_not_bad h.1, nameOf_of_not_bad h.2, ← fieldText_eq, written?,
    bind, Except.bind]
  cases hn : ((fields.find? "name").getD (.str "")).text? with
  -- A name that is no text is refused, and so is the empty text that `written?` reads for it.
  | none =>
    rw [hn, Option.getD_none] at hname
    rw [hname]
    exact ⟨_, rfl⟩
  | some name =>
    rw [hn, Option.getD_some] at hname
    rw [hname]
    by_cases hvalid : Alias.isValidName name = true
    · by_cases hcommand : Text.strip (fieldText fields "command") = ""
      · simp [set, hvalid, hcommand, pure, Except.pure]
      · simp [set, hvalid, hcommand, pure, Except.pure, Table.adjust_put hd]
    · simp [set, hvalid, pure, Except.pure]

/-! ## Lists of entries -/

/-- The aliases among some values, in their order. -/
def writtenIn (now : Timestamp) (items : List Json) : List Alias :=
  items.filterMap (written? now)

/-- Stores aliases one after another, each under its own name. -/
def putAll (t : Aliases) (added : List Alias) : Aliases :=
  added.foldl (fun t a => Table.put t a.name a) t

/-- Adding aliases keeps the names apart. -/
theorem distinct_putAll {added : List Alias} (hd : Table.Distinct t) :
    Table.Distinct (putAll t added) := by
  induction added generalizing t with
  | nil => exact hd
  | cons a added ih => exact ih (hd.put a.name a)

/-- A malformed entry ends the reading. -/
theorem Loaded.read_malformed (now : Timestamp) (l : Loaded) {v : Json} (h : isMalformed v = true)
    (rest : List Json) : ∃ e, Loaded.read now l (v :: rest) = { l with error := some e } := by
  cases v with
  | obj fields =>
    obtain ⟨e, he⟩ := addEntry_of_malformed l.aliases now h
    exact ⟨e, by rw [Loaded.read, he]⟩
  | null | bool | int | float | str | arr => exact absurd h Bool.false_ne_true

/-- Any other entry is added, if it writes a valid alias, and the reading goes on. -/
theorem Loaded.read_not_malformed (l : Loaded) (hd : Table.Distinct l.aliases) {v : Json}
    (h : isMalformed v = false) (rest : List Json) :
    ∃ rejections, Loaded.read now l (v :: rest) = Loaded.read now
      { l with aliases := putAll l.aliases (written? now v).toList, rejections } rest := by
  cases v with
  | obj fields =>
    have hentry := addEntry_of_not_malformed now hd h
    cases hw : written? now (.obj fields) with
    | some a =>
      rw [hw] at hentry
      exact ⟨_, by rw [Loaded.read, hentry]; rfl⟩
    | none =>
      rw [hw] at hentry
      obtain ⟨r, hr⟩ := hentry
      exact ⟨_, by rw [Loaded.read, hr]; rfl⟩
  | null | bool | int | float | str | arr => exact ⟨_, rfl⟩

/-- The reading goes through if no entry ends it. -/
theorem Loaded.error_read_eq_none_iff (l : Loaded) (hd : Table.Distinct l.aliases)
    (herror : l.error = none) (items : List Json) :
    (Loaded.read now l items).error = none ↔ ∀ v ∈ items, isMalformed v = false := by
  induction items generalizing l with
  | nil => simp [Loaded.read, herror]
  | cons v rest ih =>
    rw [List.forall_mem_cons]
    cases h : isMalformed v with
    | true =>
      obtain ⟨e, he⟩ := Loaded.read_malformed now l h rest
      simp [he]
    | false =>
      obtain ⟨rejections, he⟩ := Loaded.read_not_malformed l hd h rest
      have hrest := ih { l with aliases := putAll l.aliases (written? now v).toList, rejections }
        (distinct_putAll hd) herror
      rw [he, hrest]
      simp

/-- The aliases that are read are those before the first entry that ends the reading. -/
theorem Loaded.aliases_read (l : Loaded) (hd : Table.Distinct l.aliases) (items : List Json) :
    (Loaded.read now l items).aliases =
      putAll l.aliases (writtenIn now (items.takeWhile (!isMalformed ·))) := by
  -- Each entry stores at most one alias, and the names stay distinct along the way.
  induction items generalizing l with
  | nil => rfl
  | cons v rest ih =>
    cases h : isMalformed v with
    | true =>
      obtain ⟨e, he⟩ := Loaded.read_malformed now l h rest
      rw [he, List.takeWhile_cons, h]
      rfl
    | false =>
      obtain ⟨rejections, he⟩ := Loaded.read_not_malformed l hd h rest
      rw [he, ih _ (distinct_putAll hd), List.takeWhile_cons, h]
      cases hw : written? now v <;> simp [writtenIn, putAll, hw]

/-- A list of entries is read to its end just where none of them is malformed. -/
theorem error_ofJson_eq_none_iff (now : Timestamp) (items : List Json) :
    (ofJson now (.arr items)).error = none ↔ ∀ v ∈ items, isMalformed v = false :=
  Loaded.error_read_eq_none_iff {} Table.distinct_nil rfl items

/-- The aliases that are read are those that are written before the first malformed entry. -/
theorem aliases_ofJson (now : Timestamp) (items : List Json) :
    (ofJson now (.arr items)).aliases =
      putAll [] (writtenIn now (items.takeWhile (!isMalformed ·))) :=
  Loaded.aliases_read {} Table.distinct_nil items

/-- Without malformed entries nothing is cut off. -/
theorem takeWhile_of_not_malformed {items : List Json} (h : ∀ v ∈ items, isMalformed v = false) :
    items.takeWhile (!isMalformed ·) = items := by
  rw [List.takeWhile_eq_self_iff]
  intro v hv
  rw [h v hv, Bool.not_false]

/-! ## Round trip -/

/-- An alias that is kept under its name is written as itself. -/
theorem written?_aliasToJson (now : Timestamp) {name : String} {a : Alias} (h : KeptUnder name a) :
    written? now (aliasToJson a) = some a := by
  obtain ⟨rfl, hvalid, hstripped, hne⟩ := h
  simp [aliasToJson, written?, fieldText, Table.find?, Json.text?, Timestamp.ofJson_text, hvalid,
    hstripped, hne]

/-- Sorting keeps a book sound. -/
theorem Sound.sorted (h : t.Sound) : Sound (Table.sorted t) :=
  ⟨h.distinct.sorted, fun entry hentry => h.kept entry ((Table.sorted_perm t).mem_iff.mp hentry)⟩

/-- A sound book writes all its aliases, in the order of their names. -/
theorem writtenIn_toJson (now : Timestamp) (h : t.Sound) : writtenIn now t.toJson = t.inOrder := by
  rw [writtenIn, toJson, List.filterMap_map]
  refine (List.filterMap_congr fun a ha => ?_).trans List.filterMap_some
  obtain ⟨entry, hentry, rfl⟩ := List.mem_map.mp ha
  exact written?_aliasToJson now (h.sorted.kept entry hentry)

/-- No entry that a book writes is malformed. -/
theorem isMalformed_of_mem_toJson {v : Json} (h : v ∈ t.toJson) : isMalformed v = false := by
  obtain ⟨a, -, rfl⟩ := List.mem_map.mp h
  simp [aliasToJson, isMalformed, Table.find?, isBadCommand, isBadName, Json.text?]

/-- Storing the aliases of a sound table again gives the table. -/
theorem putAll_values (h : t.Sound) : putAll [] (Table.values t) = t := by
  have hstep : ∀ (u : Aliases), ∀ entry ∈ t,
      Table.put u entry.2.name entry.2 = Table.put u entry.1 entry.2 := by
    intro u entry hentry
    rw [(h.kept entry hentry).name_eq]
  calc putAll [] (Table.values t)
      = t.foldl (fun u entry => Table.put u entry.2.name entry.2) [] := List.foldl_map
    _ = t.foldl (fun u entry => Table.put u entry.1 entry.2) [] := List.foldl_ext _ _ _ hstep
    _ = t := Table.foldl_put_eq_append [] t h.distinct

/-- The written aliases are read without an error. -/
theorem error_ofJson_toJson (now : Timestamp) (t : Aliases) :
    (ofJson now (.arr t.toJson)).error = none :=
  (error_ofJson_eq_none_iff now t.toJson).mpr fun _ hv => isMalformed_of_mem_toJson hv

/-- The written aliases are read as they were, by increasing name. -/
theorem aliases_ofJson_toJson (now : Timestamp) (h : t.Sound) :
    (ofJson now (.arr t.toJson)).aliases = Table.sorted t := by
  rw [aliases_ofJson, takeWhile_of_not_malformed fun _ hv => isMalformed_of_mem_toJson hv,
    writtenIn_toJson now h, inOrder]
  exact putAll_values h.sorted

end VirtualShell.Aliases
