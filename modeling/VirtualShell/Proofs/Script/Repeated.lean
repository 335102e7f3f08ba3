import VirtualShell.Script
import VirtualShell.Proofs.Alias.Book
import VirtualShell.Proofs.Environment

/-!
# Applying a script twice

Whether a line of a script takes effect may depend on the lines before it: a new variable is refused
once there are too many. Still, a script that is applied again right away does what it did before.
Variables are only added, and none is added any more once there is no room (`Environment.Grows`). So
a variable that was set the first time is there the second time, and one for which there was no room
is still missing, with no room for it.

The proof follows both runs line by line (`Retraces`). In the second run every value is the one that
the first run had at the same line, if a line has set it by then, or else the one that the first run
has come to in the end. Behind the last line the two are the same (`applies_alike_again`).
-/

namespace VirtualShell

namespace Environment

variable {e e' f : Environment} {name value : String}

/-! ## Room for variables -/

/-- What setting variables can make of an environment: all names stay, and once there is no room for
others they are all there is. -/
structure Grows (e f : Environment) : Prop where
  names : ∀ name ∈ e.current.names, name ∈ f.current.names
  full : Variable.maxCount ≤ e.current.length → f.current.names = e.current.names

/-- An environment has grown from itself. -/
theorem Grows.refl (e : Environment) : Grows e e :=
  ⟨fun _ h => h, fun _ => rfl⟩

/-- Growing twice is growing. -/
theorem Grows.trans (h : Grows e e') (h' : Grows e' f) : Grows e f := by
  refine ⟨fun name hname => h'.names name (h.names name hname), ?_⟩
  intro hfull
  have hnames := h.full hfull
  have hlength : e'.current.length = e.current.length := by
    rw [← Table.length_names, hnames, Table.length_names]
  rw [h'.full (by omega), hnames]

/-- Setting a variable only adds names. -/
theorem grows_set (h : e.set name value = .ok e') : Grows e e' := by
  obtain ⟨hvalid, rfl⟩ := set_eq_ok_iff.mp h
  obtain ⟨-, hroom⟩ := validate_eq_none_iff.mp hvalid
  constructor
  · intro other hother
    exact Table.mem_names_put.mpr (.inr hother)
  · intro hfull
    rcases hroom with hknown | hroom
    · exact Table.names_put_of_mem value hknown
    · omega

/-- A variable that can be set on the way to an environment can be set behind it, where only the
values have changed, and one that cannot be set on the way cannot be set there either. -/
theorem validate_eq_none_iff_of_grows (hgrows : Grows (e.setText name (.str value)) f)
    (hnames : e'.current.names = f.current.names) :
    e'.validate name value = none ↔ e.validate name value = none := by
  rw [setText] at hgrows
  constructor
  · intro hagain
    by_contra hrefused
    rw [if_neg hrefused] at hgrows
    obtain ⟨hvalid, hroom⟩ := validate_eq_none_iff.mp hagain
    have hnoRoom : ¬ (name ∈ e.current.names ∨ e.current.length < Variable.maxCount) := by
      intro hroom
      exact hrefused (validate_eq_none_iff.mpr ⟨hvalid, hroom⟩)
    rw [not_or, Nat.not_lt] at hnoRoom
    -- There was no room for it, so nothing has come in since.
    have hsame : e'.current.names = e.current.names := by
      rw [hnames, hgrows.full hnoRoom.2]
    have hlength : e'.current.length = e.current.length := by
      rw [← Table.length_names, hsame, Table.length_names]
    rcases hroom with hknown | hroom
    · exact hnoRoom.1 (hsame ▸ hknown)
    · omega
  · intro hset
    rw [if_pos hset] at hgrows
    have hknown : name ∈ e'.current.names := by
      rw [hnames]
      exact hgrows.names name (Table.mem_names_put.mpr (.inl rfl))
    exact validate_eq_none_iff.mpr ⟨(validate_eq_none_iff.mp hset).1, .inl hknown⟩

/-- How the environment `e'` of a second run stands to the environment `e` of the first run at the
same line, where the first run comes to `f`. -/
structure Retraces (f e e' : Environment) : Prop where
  names : e'.current.names = f.current.names
  values : ∀ name, e'.get? name = e.get? name ∨ e'.get? name = f.get? name

/-- A variable that is set in the first run is set in the second one, too. -/
theorem Retraces.store (h : Retraces f e e') (hgrows : Grows (e.store name value) f) :
    Retraces f (e.store name value) (e'.store name value) := by
  have hknown : name ∈ e'.current.names := by
    rw [h.names]
    exact hgrows.names name (Table.mem_names_put.mpr (.inl rfl))
  constructor
  · rw [current_store, Table.names_put_of_mem value hknown, h.names]
  · intro other
    by_cases hother : other = name
    · subst hother
      left
      rw [get?, get?, current_store, current_store, Table.find?_put_self, Table.find?_put_self]
    · rw [get?, get?, current_store, current_store, Table.find?_put_of_ne _ _ hother,
        Table.find?_put_of_ne _ _ hother]
      exact h.values other

end Environment

namespace Aliases

/-- Whether an alias is set is a matter of its name and command alone. -/
theorem set_cases (name command : String) :
    (∃ r, ∀ (t : Aliases) now, t.set now name command = .error r) ∨
      ∀ (t : Aliases) now, t.set now name command
        = .ok (t.put name { name, command := Text.strip command, createdAt := now }) := by
  by_cases hname : Alias.isValidName name = true
  · by_cases hcommand : Text.strip command = ""
    · left
      refine ⟨.noCommand name, fun t now => ?_⟩
      simp [set, hname, hcommand]
    · right
      intro t now
      simp [set, hname, hcommand]
  · left
    refine ⟨.badName (Text.quoted name), fun t now => ?_⟩
    simp [set, hname]

/-- The command of an alias that was put is found under its name. -/
theorem command?_put_self (t : Aliases) (name : String) (a : Alias) :
    command? (t.put name a) name = some a.command := by
  rw [command?, Table.find?_put_self, Option.map_some]

/-- Under another name the same command is found as before. -/
theorem command?_put_of_ne (t : Aliases) {name other : String} (a : Alias) (h : other ≠ name) :
    command? (t.put name a) other = t.command? other := by
  rw [command?, command?, Table.find?_put_of_ne t a h]

end Aliases

namespace Script

open Environment

variable {now now' : Timestamp} {final p p' q : Progress} {l : Line}

/-! ## The first run -/

/-- A line lets the environment grow, if there is one. -/
theorem Progress.grows_step (now : Timestamp) (p : Progress) (l : Line) :
    Option.Rel Grows p.environment (p.step now l).environment := by
  have hsame : Option.Rel Grows p.environment p.environment := by
    cases p.environment with
    | none => exact .none
    | some e => exact .some (.refl e)
  unfold step
  dsimp only
  split
  · split <;> exact hsame
  · split
    · exact hsame
    · rename_i e he
      split
      · rename_i e' hset
        rw [he]
        exact .some (grows_set hset)
      · exact hsame
  · exact hsame
  · exact hsame

/-- A script lets the environment grow. -/
theorem grows_foldl (now : Timestamp) (script : List Line) (p : Progress) :
    Option.Rel Grows p.environment (script.foldl (Progress.step now) p).environment := by
  induction script generalizing p with
  | nil =>
    rw [List.foldl_nil]
    cases p.environment with
    | none => exact .none
    | some e => exact .some (.refl e)
  | cons l rest ih =>
    rw [List.foldl_cons]
    have hstep := p.grows_step now l
    have hrest := ih (p.step now l)
    revert hstep hrest
    generalize p.environment = first, (p.step now l).environment = second,
      (rest.foldl (Progress.step now) (p.step now l)).environment = last
    rintro (hstep | _) (hrest | _)
    · exact .some (hstep.trans hrest)
    · exact .none

/-! ## The second run -/

/-- How the state `p'` of a second run stands to the state `p` of the first run at the same line,
where the first run comes to `final`. -/
structure Retraces (final p p' : Progress) : Prop where
  execution : p'.execution = p.execution
  aliases : ∀ name, p'.aliases.command? name = p.aliases.command? name ∨
    p'.aliases.command? name = final.aliases.command? name
  environment : Option.Rel (fun e e' => ∃ f, final.environment = some f ∧
    Environment.Retraces f e e') p.environment p'.environment

/-- An alias that is defined in the first run is defined in the second one, too. -/
theorem Retraces.defineAlias (h : Retraces final p p') {name command : String}
    (hkind : l.kind = .defineAlias name command) :
    Retraces final (p.step now l) (p'.step now' l) := by
  obtain ⟨hexecution, haliases, henvironment⟩ := h
  rcases Aliases.set_cases name command with ⟨r, hrefused⟩ | hset
  · simp only [Progress.step, hkind, hrefused]
    exact ⟨by simp [hexecution], haliases, henvironment⟩
  · simp only [Progress.step, hkind, hset]
    refine ⟨by simp [hexecution], ?_, henvironment⟩
    intro other
    by_cases hother : other = name
    · subst hother
      left
      rw [Aliases.command?_put_self, Aliases.command?_put_self]
    · rw [Aliases.command?_put_of_ne _ _ hother, Aliases.command?_put_of_ne _ _ hother]
      exact haliases other

/-- A variable that is set in the first run is set in the second one, and one that is refused is
refused again. -/
theorem Retraces.exportVariable (h : Retraces final p p') {name value : String}
    (hkind : l.kind = .exportVariable name value)
    (hgrows : Option.Rel Grows (p.step now l).environment final.environment) :
    Retraces final (p.step now l) (p'.step now' l) := by
  obtain ⟨hexecution, haliases, henvironment⟩ := h
  generalize he : p.environment = first, he' : p'.environment = second at henvironment
  rcases henvironment with @⟨e, e', f, hf, hretraces⟩ | _
  · have hstep : (p.step now l).environment = some (e.setText name (.str value)) := by
      cases hv : e.validate name value with
      | none => simp [Progress.step, hkind, he, Environment.set, setText, hv]
      | some r => simp [Progress.step, hkind, he, Environment.set, setText, hv]
    rw [hstep, hf] at hgrows
    obtain ⟨hgrows⟩ := hgrows
    have hagain := validate_eq_none_iff_of_grows hgrows hretraces.names
    by_cases hv : e.validate name value = none
    · rw [setText, if_pos hv] at hgrows
      simp only [Progress.step, hkind, he, he', Environment.set, hv, hagain.mpr hv]
      exact ⟨by simp [hexecution], haliases, .some ⟨f, hf, hretraces.store hgrows⟩⟩
    · obtain ⟨r, hr⟩ := Option.ne_none_iff_exists'.mp hv
      obtain ⟨r', hr'⟩ := Option.ne_none_iff_exists'.mp (mt hagain.mp hv)
      simp only [Progress.step, hkind, he, he', Environment.set, hr, hr']
      refine ⟨by simp [hexecution], haliases, ?_⟩
      exact .some ⟨f, hf, hretraces⟩
  · simp only [Progress.step, hkind, he, he']
    exact ⟨hexecution, haliases, by rw [he, he']; exact .none⟩

/-- Both runs go on alike with the next line. -/
theorem Retraces.step (h : Retraces final p p')
    (hgrows : Option.Rel Grows (p.step now l).environment final.environment) :
    Retraces final (p.step now l) (p'.step now' l) := by
  cases hkind : l.kind with
  | defineAlias name command => exact h.defineAlias hkind
  | exportVariable name value => exact h.exportVariable hkind hgrows
  | command =>
    simp only [Progress.step, hkind]
    exact ⟨by simp [h.execution], h.aliases, h.environment⟩
  | empty | comment | error =>
    simp only [Progress.step, hkind]
    exact h

/-- Behind the last line both runs have come to the same. -/
theorem Retraces.foldl (now' : Timestamp) (script : List Line)
    (h : Retraces (script.foldl (Progress.step now) p) p p') :
    Retraces (script.foldl (Progress.step now) p) (script.foldl (Progress.step now) p)
      (script.foldl (Progress.step now') p') := by
  induction script generalizing p p' with
  | nil => exact h
  | cons l rest ih =>
    exact ih (h.step (grows_foldl now rest (p.step now l)))

/-- Where the application of a script starts. -/
def start (aliases : Aliases) (environment : Option Environment) (script : List Line) : Progress :=
  { aliases, environment, execution := { errors := errors script } }

/-- Behind the last line a warning may be written to the log, and nothing else is done. -/
theorem apply_eq (now : Timestamp) (aliases : Aliases) (environment : Option Environment)
    (script : List Line) :
    let p := apply now aliases environment script
    let final := script.foldl (Progress.step now) (start aliases environment script)
    p.aliases = final.aliases ∧ p.environment = final.environment ∧
      p.execution = final.execution := by
  dsimp only [apply, start]
  split
  · exact ⟨rfl, rfl, rfl⟩
  · exact ⟨rfl, rfl, rfl⟩

/-- At the start the second run has all that the first one has come to. -/
theorem retraces_start (now : Timestamp) (aliases : Aliases) (environment : Option Environment)
    (script : List Line) :
    let final := script.foldl (Progress.step now) (start aliases environment script)
    Retraces final (start aliases environment script)
      (start final.aliases final.environment script) := by
  intro final
  refine ⟨rfl, fun _ => .inr rfl, ?_⟩
  have hgrows := grows_foldl now script (start aliases environment script)
  change Option.Rel Grows environment final.environment at hgrows
  change Option.Rel _ environment final.environment
  generalize final.environment = last at hgrows ⊢
  rcases hgrows with @⟨_, f, _⟩ | _
  · exact .some ⟨f, rfl, rfl, fun _ => .inr rfl⟩
  · exact .none

/-- Where the first run has come to its end, the second one has come to the same. -/
theorem Retraces.same (h : Retraces final final p) : p.execution = final.execution ∧
    (∀ name, p.aliases.command? name = final.aliases.command? name) ∧
    p.environment.map Environment.get? = final.environment.map Environment.get? := by
  obtain ⟨hexecution, haliases, henvironment⟩ := h
  refine ⟨hexecution, ?_, ?_⟩
  · intro name
    rcases haliases name with hsame | hsame
    · exact hsame
    · exact hsame
  · generalize final.environment = last, p.environment = last' at henvironment ⊢
    rcases henvironment with @⟨f, f', g, hg, hretraces⟩ | _
    · obtain rfl := Option.some.inj hg
      have hvalues : f'.get? = f.get? := by
        funext name
        rcases hretraces.values name with hsame | hsame
        · exact hsame
        · exact hsame
      rw [Option.map_some, Option.map_some, hvalues]
    · rfl

/-- A script that is applied again right away reports the same aliases, exports, skipped commands
and errors as before, and leaves the command of every alias and the value of every variable as they
were. -/
theorem applies_alike_again (now now' : Timestamp) (text : String) (aliases : Aliases)
    (environment : Option Environment) :
    let first := apply now aliases environment (parse text)
    let second := apply now' first.aliases first.environment (parse text)
    second.execution = first.execution ∧
      (∀ name, second.aliases.command? name = first.aliases.command? name) ∧
      second.environment.map Environment.get? = first.environment.map Environment.get? := by
  intro first second
  obtain ⟨haliases, henvironment, hexecution⟩ := apply_eq now aliases environment (parse text)
  obtain ⟨haliases', henvironment', hexecution'⟩ :=
    apply_eq now' first.aliases first.environment (parse text)
  have hend := ((retraces_start now aliases environment (parse text)).foldl now' (parse text)).same
  rwa [← haliases, ← henvironment, ← haliases', ← henvironment', ← hexecution, ← hexecution']
    at hend

end Script

end VirtualShell
