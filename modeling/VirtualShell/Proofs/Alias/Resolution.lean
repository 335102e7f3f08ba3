import VirtualShell.Proofs.Alias.Book
import VirtualShell.Proofs.Alias.Parameters

/-!
# The way of a resolution

A resolution goes from call to call: the command line of an alias with its arguments filled in is
divided into words, and if the first of them is an alias, these words are the next call. On the way
the resolution keeps the names that it has visited and how many aliases it may still go through.
Both limits are said of the way as a whole (`Way`): its aliases are distinct, and there are at most
ten of them. Which line comes out is then a matter of the last call (`resolves_along_way`).

A line is also needed from every call on the way, and none comes of a template that refers to an
argument by a number of more than 4300 digits. There a resolution has no result at all
(`breaks_off_at_long_number`).
-/

namespace VirtualShell.Aliases

variable {t : Aliases}

/-! ## Calls -/

/-- A call of an alias: its name and its arguments. -/
abbrev Call := String × List String

/-- The command line of the called alias, with the arguments filled in, is this line, or filling
them in is this error. -/
def Expands (t : Aliases) (call : Call) (r : Except Text.NumberError String) : Prop :=
  ∃ template, t.command? call.1 = some template ∧ Alias.substitute template call.2 = r

/-- The words of the line that a call expands to are the next call. -/
def Leads (t : Aliases) (call next : Call) : Prop :=
  ∃ line, t.Expands call (.ok line) ∧ wordsOf line = next

/-- A resolution ends with this call: it expands to a line that starts with no alias, or to an
error. -/
def Ends (t : Aliases) (call : Call) (r : Except Text.NumberError String) : Prop :=
  t.Expands call r ∧ ∀ line, r = .ok line → t.contains (wordsOf line).1 = false

/-- Calls of distinct aliases, each of which leads to the next. There are at most so many of them,
and none is of an alias visited before. -/
structure Way (t : Aliases) (budget : Nat) (visited : List String) (first last : Call)
    (calls : List Call) : Prop where
  starts : calls.head? = some first
  stops : calls.getLast? = some last
  leads : calls.IsChain t.Leads
  defined : ∀ call ∈ calls, t.contains call.1 = true
  distinct : (calls.map Prod.fst).Nodup
  fresh : ∀ call ∈ calls, call.1 ∉ visited
  short : calls.length ≤ budget

/-- Some way from a call ends in a line or an error. -/
def Reaches (t : Aliases) (budget : Nat) (visited : List String) (first : Call)
    (r : Except Text.NumberError String) : Prop :=
  ∃ last calls, t.Way budget visited first last calls ∧ t.Ends last r

variable {budget : Nat} {visited : List String} {call first last next : Call} {calls : List Call}
  {r : Except Text.NumberError String}

/-- Only a name in the book is expanded. -/
theorem Expands.contains (h : t.Expands call r) : t.contains call.1 = true := by
  obtain ⟨template, hcommand, -⟩ := h
  obtain ⟨a, hfind, -⟩ := Option.map_eq_some_iff.mp hcommand
  rw [Table.contains, hfind]
  rfl

/-! ## One call after another -/

/-- A way of one call starts and ends there, at a name of the book that was not come by. -/
theorem way_singleton_iff : t.Way (budget + 1) visited first last [call] ↔
    call = first ∧ call = last ∧ t.contains call.1 = true ∧ call.1 ∉ visited := by
  constructor
  · intro h
    have hstarts : call = first := by simpa using h.starts
    have hstops : call = last := by simpa using h.stops
    exact ⟨hstarts, hstops, h.defined call List.mem_cons_self, h.fresh call List.mem_cons_self⟩
  · rintro ⟨rfl, rfl, hdefined, hfresh⟩
    exact {
      starts := rfl
      stops := rfl
      leads := .singleton _
      defined := by simpa using hdefined
      distinct := List.nodup_singleton _
      fresh := by simpa using hfresh
      short := by simp }

/-- Behind its first call, a way may go through one alias less and has visited one more. -/
theorem way_cons_iff : t.Way (budget + 1) visited first last (call :: next :: calls) ↔
    call = first ∧ call.1 ∉ visited ∧ t.Leads call next ∧
      t.Way budget (call.1 :: visited) next last (next :: calls) := by
  constructor
  · intro h
    have hstarts : call = first := by simpa using h.starts
    obtain ⟨hleads, hrest⟩ := List.isChain_cons_cons.mp h.leads
    obtain ⟨hnew, hdistinct⟩ := List.nodup_cons.mp h.distinct
    refine ⟨hstarts, h.fresh call List.mem_cons_self, hleads, ?_⟩
    exact {
      starts := rfl
      stops := by simpa using h.stops
      leads := hrest
      defined := fun other hother => h.defined other (List.mem_cons_of_mem _ hother)
      distinct := hdistinct
      fresh := by
        intro other hother hvisited
        rcases List.mem_cons.mp hvisited with heq | hvisited
        · exact hnew (List.mem_map.mpr ⟨other, hother, heq⟩)
        · exact h.fresh other (List.mem_cons_of_mem _ hother) hvisited
      short := by
        have hshort := h.short
        rw [List.length_cons] at hshort
        omega }
  · rintro ⟨rfl, hfresh, hleads, h⟩
    have hcontains : t.contains call.1 = true := by
      obtain ⟨line, hexpands, -⟩ := hleads
      exact hexpands.contains
    exact {
      starts := rfl
      stops := by simpa using h.stops
      leads := List.isChain_cons_cons.mpr ⟨hleads, h.leads⟩
      defined := List.forall_mem_cons.mpr ⟨hcontains, h.defined⟩
      distinct := by
        refine List.nodup_cons.mpr ⟨fun hmem => ?_, h.distinct⟩
        obtain ⟨other, hother, heq⟩ := List.mem_map.mp hmem
        exact h.fresh other hother (heq ▸ List.mem_cons_self)
      fresh := by
        refine List.forall_mem_cons.mpr ⟨hfresh, fun other hother hvisited => ?_⟩
        exact h.fresh other hother (List.mem_cons_of_mem _ hvisited)
      short := by
        rw [List.length_cons]
        exact Nat.succ_le_succ h.short }

/-- Without a step left, nothing is reached. -/
theorem not_reaches_zero : ¬ t.Reaches 0 visited first r := by
  rintro ⟨last, calls, hway, -⟩
  have hnil : calls = [] := List.eq_nil_of_length_eq_zero (Nat.le_zero.mp hway.short)
  have hstarts := hway.starts
  simp [hnil] at hstarts

/-- What is reached from a call is what it ends in, or what is reached from the call that it leads
to. -/
theorem reaches_succ_iff : t.Reaches (budget + 1) visited first r ↔
    first.1 ∉ visited ∧ (t.Ends first r ∨
      ∃ next, t.Leads first next ∧ t.contains next.1 = true ∧
        t.Reaches budget (first.1 :: visited) next r) := by
  constructor
  · rintro ⟨last, calls, hway, hends⟩
    rcases calls with _ | ⟨call, _ | ⟨next, calls⟩⟩
    · have hstarts := hway.starts
      simp at hstarts
    · obtain ⟨rfl, rfl, -, hfresh⟩ := way_singleton_iff.mp hway
      exact ⟨hfresh, .inl hends⟩
    · obtain ⟨rfl, hfresh, hleads, hrest⟩ := way_cons_iff.mp hway
      have hnext : t.contains next.1 = true := hrest.defined next List.mem_cons_self
      exact ⟨hfresh, .inr ⟨next, hleads, hnext, last, next :: calls, hrest, hends⟩⟩
  · rintro ⟨hfresh, hends | ⟨next, hleads, -, last, calls, hrest, hends⟩⟩
    · have hcontains : t.contains first.1 = true := hends.1.contains
      exact ⟨first, [first], way_singleton_iff.mpr ⟨rfl, rfl, hcontains, hfresh⟩, hends⟩
    · obtain ⟨calls, rfl⟩ := List.head?_eq_some_iff.mp hrest.starts
      exact ⟨last, first :: next :: calls, way_cons_iff.mpr ⟨rfl, hfresh, hleads, hrest⟩, hends⟩

/-! ## The resolution of a call -/

variable {name : String} {args : List String}

/-- Every call of an alias ends a resolution or leads on. -/
theorem ends_or_leads (call : Call) (h : t.contains call.1 = true) :
    (∃ r, t.Ends call r) ∨ ∃ next, t.Leads call next ∧ t.contains next.1 = true := by
  obtain ⟨a, hfind⟩ := Option.isSome_iff_exists.mp h
  have hexpands : t.Expands call (Alias.substitute a.command call.2) :=
    ⟨a.command, by simp [command?, hfind], rfl⟩
  rcases hline : Alias.substitute a.command call.2 with e | line <;> rw [hline] at hexpands
  · exact .inl ⟨.error e, hexpands, nofun⟩
  · by_cases hfirst : t.contains (wordsOf line).1 = true
    · exact .inr ⟨wordsOf line, ⟨line, hexpands, rfl⟩, hfirst⟩
    · refine .inl ⟨.ok line, hexpands, ?_⟩
      rintro _ ⟨⟩
      simpa using hfirst

/-- Where the way ends, resolving gives the line it ends in. -/
theorem Ends.resolveWithin_eq (h : t.Ends (name, args) r) (hfresh : name ∉ visited) :
    t.resolveWithin (budget + 1) visited name args = r.map .line := by
  obtain ⟨⟨template, hcommand, hline⟩, hfirst⟩ := h
  obtain ⟨a, hfind, rfl⟩ := Option.map_eq_some_iff.mp hcommand
  rcases r with e | line
  · simp [resolveWithin, hfresh, hfind, hline, Except.map]
  · simp [resolveWithin, hfresh, hfind, hline, hfirst line rfl, Except.map]

/-- Where the way leads on, resolving goes on from the next call. -/
theorem Leads.resolveWithin_eq (h : t.Leads (name, args) next) (hnext : t.contains next.1 = true)
    (hfresh : name ∉ visited) :
    t.resolveWithin (budget + 1) visited name args
      = t.resolveWithin budget (name :: visited) next.1 next.2 := by
  obtain ⟨line, ⟨template, hcommand, hline⟩, rfl⟩ := h
  obtain ⟨a, hfind, rfl⟩ := Option.map_eq_some_iff.mp hcommand
  simp [resolveWithin, hfresh, hfind, hline, hnext]

/-- A name that was come by before is a cycle. -/
theorem resolveWithin_of_mem (h : name ∈ visited) :
    t.resolveWithin (budget + 1) visited name args = .ok (.cycle name) := by
  simp [resolveWithin, h]

/-- A name that is not in the book is not resolved. -/
theorem resolveWithin_of_undefined (h : t.contains name = false) (hfresh : name ∉ visited) :
    t.resolveWithin (budget + 1) visited name args = .ok .undefined := by
  simp [resolveWithin, hfresh, Table.contains_eq_false_iff.mp h]

/-- Two lines, or errors, are the same resolution only if they are equal. -/
theorem map_line_eq_iff {r' : Except Text.NumberError String} :
    r.map Resolution.line = r'.map Resolution.line ↔ r = r' := by
  rcases r with e | line <;> rcases r' with e' | line' <;> simp [Except.map]

/-- A resolution without a line is none that a line makes. -/
theorem ok_ne_map_line {outcome : Resolution} (h : outcome.line? = none) :
    .ok outcome ≠ r.map Resolution.line := by
  rcases r with e | line
  · nofun
  · rintro ⟨⟩
    cases h

/-- A resolution gives the lines and the errors that some way ends in. -/
theorem resolveWithin_eq_iff (budget : Nat) (visited : List String) (name : String)
    (args : List String) (r : Except Text.NumberError String) :
    t.resolveWithin budget visited name args = r.map .line ↔
      t.Reaches budget visited (name, args) r := by
  -- With each alias the budget shrinks and the visited names grow, on both sides alike.
  induction budget generalizing visited name args with
  | zero => exact iff_of_false (ok_ne_map_line rfl) not_reaches_zero
  | succ budget ih =>
    rw [reaches_succ_iff]
    constructor
    · intro h
      have hfresh : name ∉ visited := fun hmem =>
        ok_ne_map_line rfl ((resolveWithin_of_mem hmem).symm.trans h)
      have hdefined : t.contains name = true := by
        by_contra hundefined
        have hfalse : t.contains name = false := by simpa using hundefined
        exact ok_ne_map_line rfl ((resolveWithin_of_undefined hfalse hfresh).symm.trans h)
      refine ⟨hfresh, ?_⟩
      rcases ends_or_leads (name, args) hdefined with ⟨r', hends⟩ | ⟨next, hleads, hnext⟩
      · rw [hends.resolveWithin_eq hfresh, map_line_eq_iff] at h
        exact .inl (h ▸ hends)
      · rw [hleads.resolveWithin_eq hnext hfresh] at h
        exact .inr ⟨next, hleads, hnext, (ih _ _ _).mp h⟩
    · rintro ⟨hfresh, hends | ⟨next, hleads, hnext, hreaches⟩⟩
      · exact hends.resolveWithin_eq hfresh
      · rw [hleads.resolveWithin_eq hnext hfresh]
        exact (ih _ _ _).mpr hreaches

/-! ## From the whole budget -/

/-- The line of a resolution, if it has one. -/
def resolvedLine? (t : Aliases) (name : String) (args : List String) :
    Except Text.NumberError (Option String) :=
  (t.resolve name args).map Resolution.line?

/-- A line is resolved just where the way of the call reaches it. -/
theorem resolvedLine?_eq_ok_iff {line : String} :
    t.resolvedLine? name args = .ok (some line) ↔
      t.Reaches maxDepth [] (name, args) (.ok line) := by
  rw [← resolveWithin_eq_iff, resolvedLine?, resolve]
  rcases t.resolveWithin maxDepth [] name args with e | _ | _ | _ | _ <;>
    simp [Except.map, Resolution.line?]

/-- Resolving fails just where the way of the call reaches the failure. -/
theorem resolvedLine?_eq_error_iff {e : Text.NumberError} :
    t.resolvedLine? name args = .error e ↔ t.Reaches maxDepth [] (name, args) (.error e) := by
  rw [← resolveWithin_eq_iff, resolvedLine?, resolve]
  rcases t.resolveWithin maxDepth [] name args with e | outcome <;> simp [Except.map]

/-- A resolution gives a line just where a way of at most ten distinct aliases ends in that line, so
the line starts with no alias. It ends in an error just where the template of the last alias on such
a way has a number with too many digits. Where no way ends in either, it ends without a line. -/
theorem resolves_along_way (t : Aliases) (name : String) (args : List String) :
    let way := t.Way maxDepth [] (name, args)
    let result := t.resolvedLine? name args
    (∀ line, result = .ok (some line) ↔
        ∃ last calls template, way last calls ∧ t.command? last.1 = some template ∧
          Alias.substitute template last.2 = .ok line ∧ t.contains (wordsOf line).1 = false) ∧
      (∀ e, result = .error e ↔
        ∃ last calls template n, way last calls ∧ t.command? last.1 = some template ∧
          Alias.overlong? template.toList = some n ∧ e = .tooLong n) ∧
      ((∀ last calls r, way last calls → ¬ t.Ends last r) → result = .ok none) ∧
      ∀ line, result = .ok (some line) → t.contains (wordsOf line).1 = false := by
  intro way result
  have hline (line : String) : result = .ok (some line) ↔
      ∃ last calls template, way last calls ∧ t.command? last.1 = some template ∧
        Alias.substitute template last.2 = .ok line ∧ t.contains (wordsOf line).1 = false := by
    rw [show result = _ from rfl, resolvedLine?_eq_ok_iff]
    constructor
    · rintro ⟨last, calls, hway, ⟨template, hcommand, hline⟩, hfirst⟩
      exact ⟨last, calls, template, hway, hcommand, hline, hfirst line rfl⟩
    · rintro ⟨last, calls, template, hway, hcommand, hline, hfirst⟩
      refine ⟨last, calls, hway, ⟨template, hcommand, hline⟩, ?_⟩
      rintro _ ⟨⟩
      exact hfirst
  have herror (e : Text.NumberError) : result = .error e ↔
      ∃ last calls template n, way last calls ∧ t.command? last.1 = some template ∧
        Alias.overlong? template.toList = some n ∧ e = .tooLong n := by
    rw [show result = _ from rfl, resolvedLine?_eq_error_iff]
    constructor
    · rintro ⟨last, calls, hway, ⟨template, hcommand, herror⟩, -⟩
      obtain ⟨n, hlong, rfl⟩ := Alias.substitute_eq_error_iff.mp herror
      exact ⟨last, calls, template, n, hway, hcommand, hlong, rfl⟩
    · rintro ⟨last, calls, template, n, hway, hcommand, hlong, rfl⟩
      have herror : Alias.substitute template last.2 = .error (.tooLong n) :=
        Alias.substitute_eq_error_iff.mpr ⟨n, hlong, rfl⟩
      exact ⟨last, calls, hway, ⟨template, hcommand, herror⟩, nofun⟩
  refine ⟨hline, herror, fun hnone => ?_, fun line hresult => ?_⟩
  · rcases hresult : result with e | _ | line
    · obtain ⟨last, calls, hway, hends⟩ := resolvedLine?_eq_error_iff.mp hresult
      exact absurd hends (hnone last calls _ hway)
    · rfl
    · obtain ⟨last, calls, hway, hends⟩ := resolvedLine?_eq_ok_iff.mp hresult
      exact absurd hends (hnone last calls _ hway)
  · obtain ⟨last, calls, template, -, -, -, hfirst⟩ := (hline line).mp hresult
    exact hfirst

/-- A reference to an argument by a number with one digit more than is read. -/
def longReference : String :=
  String.ofList ('$' :: List.replicate (Text.maxDigits + 1) '1')

theorem strip_longReference : Text.strip longReference = longReference := by
  have hlast : ('$' :: List.replicate (Text.maxDigits + 1) '1').getLast? = some '1' := by
    rw [List.replicate_succ', ← List.cons_append, List.getLast?_append]
    rfl
  have htrim : Text.trim longReference.toList = longReference.toList := by
    rw [Text.trim_eq_self_iff, longReference, String.toList_ofList, hlast, List.head?_cons]
    simp only [Option.mem_some_iff, forall_eq']
    decide
  rw [Text.strip, htrim, String.ofList_toList]

/-- An alias can be set to a line that no resolution of it comes to. -/
theorem breaks_off_at_long_number :
    let t : Aliases := [("x", { name := "x", command := longReference, createdAt := .epoch })]
    set [] .epoch "x" longReference = .ok t ∧
      t.resolvedLine? "x" [] = .error (.tooLong (Text.maxDigits + 1)) := by
  intro t
  have hset : set [] .epoch "x" longReference = .ok t := by
    rw [set_eq_ok_iff, strip_longReference]
    refine ⟨by decide, fun hempty => ?_, rfl⟩
    have hnil := congrArg String.toList hempty
    rw [longReference, String.toList_ofList] at hnil
    cases hnil
  have hlong : Alias.overlong? longReference.toList = some (Text.maxDigits + 1) := by
    have hdigit : ∀ d ∈ List.replicate (Text.maxDigits + 1) '1', Text.isDecimal d = true := by
      intro d hd
      rw [List.eq_of_mem_replicate hd]
      decide
    have hlength : (List.replicate (Text.maxDigits + 1) '1').length = Text.maxDigits + 1 :=
      List.length_replicate
    rw [longReference, String.toList_ofList, Alias.overlong?_digits hdigit (by omega), hlength]
  have hends : t.Ends ("x", []) (.error (.tooLong (Text.maxDigits + 1))) :=
    ⟨⟨longReference, rfl, Alias.substitute_eq_error_iff.mpr ⟨_, hlong, rfl⟩⟩, nofun⟩
  refine ⟨hset, resolvedLine?_eq_error_iff.mpr ?_⟩
  rw [maxDepth, reaches_succ_iff]
  exact ⟨List.not_mem_nil, .inl hends⟩

end VirtualShell.Aliases
