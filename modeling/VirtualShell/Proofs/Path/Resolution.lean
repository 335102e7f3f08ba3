import VirtualShell.Builtin.Navigation
import VirtualShell.Proofs.Path
import VirtualShell.Proofs.Session.WholeTree

/-!
# Resolving what was written

An input is resolved by following its fields. All that has to be known about an input with a slash
in it is where its fields are: those in front of the slash, and those behind it (`resolve_slash`).
The tilde does not disturb this, since it is a whole field or means nothing (`expandTilde_slash`).

Two things follow. A path of names is resolved from its written form, with a tilde or without one,
wherever that is typed (`resolves_written_paths`). And an input that does not name its own start is
resolved alike from where another input leads and behind that input, although steps up from the root
are lost on the way (`resolves_in_two_steps`).
-/

namespace VirtualShell

open Text

/-! ## Fields -/

/-- The characters of two texts with a slash between them. -/
theorem Text.toList_slash (x y : String) :
    (x ++ "/" ++ y).toList = x.toList ++ '/' :: y.toList := by
  rw [String.toList_append, String.toList_append, List.append_assoc]
  rfl

/-- A slash between two texts divides the fields of the one from those of the other. -/
theorem Text.splitOn_slash (x y : String) :
    splitOn '/' (x ++ "/" ++ y) = splitOn '/' x ++ splitOn '/' y := by
  rw [splitOn, toList_slash, splitOn_append_cons, List.map_append]
  rfl

/-- A text has a start just where something follows it to make the text. -/
theorem Text.hasStart_iff {start s : String} :
    hasStart start s = true ↔ ∃ rest, s = start ++ rest := by
  rw [hasStart, List.isPrefixOf_iff_prefix]
  constructor
  · rintro ⟨rest, hrest⟩
    refine ⟨String.ofList rest, String.toList_inj.mp ?_⟩
    rw [String.toList_append, String.toList_ofList, hrest]
  · rintro ⟨rest, rfl⟩
    rw [String.toList_append]
    exact List.prefix_append _ _

/-- A start stays one when something is put behind the text. -/
theorem Text.hasStart_append {start x : String} (h : hasStart start x = true) (y : String) :
    hasStart start (x ++ y) = true := by
  obtain ⟨rest, rfl⟩ := hasStart_iff.mp h
  exact hasStart_iff.mpr ⟨rest ++ y, String.append_assoc⟩

/-- The first character of a text decides whether it starts with a given one. -/
theorem Text.hasStart_singleton (c : Char) (s : String) :
    hasStart (String.singleton c) s = (s.toList.head? == some c) := by
  rw [hasStart, String.toList_singleton]
  cases s.toList with
  | nil => rfl
  | cons d cs => simp [List.isPrefixOf, beq_eq_decide, eq_comm]

/-- Whether a slash stands first is told by the first text that is not empty. -/
theorem Text.hasStart_slash_append {x : String} (hx : x ≠ "") (y : String) :
    hasStart "/" (x ++ y) = hasStart "/" x := by
  have hhead : ∀ s : String, hasStart "/" s = (s.toList.head? == some '/') :=
    hasStart_singleton '/'
  rw [hhead, hhead, String.toList_append,
    List.head?_append_of_ne_nil _ (mt String.toList_eq_nil_iff.mp hx)]

namespace Path

/-- Parts are followed one after another. -/
theorem follow_append (base : Path) (xs ys : List String) :
    follow base (xs ++ ys) = follow (follow base xs) ys :=
  List.foldl_append

/-- Names lead down, one after another. -/
theorem follow_names (base : Path) {names : List String} (h : ∀ name ∈ names, IsName name) :
    follow base names = base ++ names := by
  induction names generalizing base with
  | nil => exact (List.append_nil base).symm
  | cons name rest ih =>
    obtain ⟨⟨hempty, hdot, hdots, -⟩, hrest⟩ := List.forall_mem_cons.mp h
    have hstep : step base name = base ++ [name] := by
      rw [step, if_neg (not_or.mpr ⟨hempty, hdot⟩), if_neg hdots]
    change follow (step base name) rest = _
    rw [hstep, ih _ hrest, List.append_assoc, List.singleton_append]

/-! ## The tilde -/

/-- An input that starts with the tilde of the home directory. -/
def StartsAtHome (input : String) : Prop :=
  input = "~" ∨ hasStart "~/" input = true

instance (input : String) : Decidable (StartsAtHome input) :=
  inferInstanceAs (Decidable (_ ∨ _))

/-- The tilde before a slash stands for the home directory. -/
theorem expandTilde_tilde_slash (rest : String) :
    expandTilde ("~/" ++ rest) = text home ++ "/" ++ rest := by
  have hchars : ("~/" ++ rest).toList = '~' :: '/' :: rest.toList := String.toList_append
  have hrest : String.ofList ('/' :: rest.toList) = "/" ++ rest := by
    apply String.toList_inj.mp
    rw [String.toList_ofList, String.toList_append]
    rfl
  rw [expandTilde, hchars, String.append_assoc, ← hrest]
  rfl

/-- An input that does not start at home stays as it is. -/
theorem expandTilde_of_not_home {input : String} (h : ¬ StartsAtHome input) :
    expandTilde input = input := by
  rw [StartsAtHome, not_or] at h
  rw [expandTilde]
  split
  · rename_i hinput
    exact absurd (String.toList_inj.mp hinput) h.1
  · rename_i rest hinput
    refine absurd ?_ h.2
    rw [hasStart, hinput]
    rfl
  · rfl

/-- A tilde is followed by a slash or by nothing, so a slash further on does not make one. -/
theorem startsAtHome_of_slash {x y : String} (h : StartsAtHome (x ++ "/" ++ y)) :
    StartsAtHome x := by
  rw [StartsAtHome, hasStart, ← String.toList_inj, toList_slash] at h
  rw [StartsAtHome, hasStart, ← String.toList_inj]
  rcases hx : x.toList with _ | ⟨c, _ | ⟨d, cs⟩⟩ <;> rw [hx] at h
  · simp at h
  · obtain rfl : '~' = c := by simpa using h
    exact .inl rfl
  · right
    simpa using h

/-- What stands behind a slash has no part in that. -/
theorem expandTilde_slash (x y : String) :
    expandTilde (x ++ "/" ++ y) = expandTilde x ++ "/" ++ y := by
  by_cases hx : StartsAtHome x
  · rcases hx with rfl | hx
    · exact expandTilde_tilde_slash y
    · obtain ⟨rest, rfl⟩ := hasStart_iff.mp hx
      have hgroup : "~/" ++ rest ++ "/" ++ y = "~/" ++ (rest ++ "/" ++ y) := by
        rw [String.append_assoc, String.append_assoc, String.append_assoc]
      rw [hgroup, expandTilde_tilde_slash, expandTilde_tilde_slash, ← String.append_assoc,
        ← String.append_assoc]
  · rw [expandTilde_of_not_home hx, expandTilde_of_not_home (mt startsAtHome_of_slash hx)]

/-! ## Where an input starts -/

/-- An input that starts at the root or at the home directory, wherever it is typed. -/
def IsRooted (input : String) : Prop :=
  hasStart "/" input = true ∨ StartsAtHome input

instance (input : String) : Decidable (IsRooted input) :=
  inferInstanceAs (Decidable (_ ∨ _))

/-- The text of a path starts with a slash. -/
theorem hasStart_slash_text (p : Path) : hasStart "/" (text p) = true := by
  rw [text]
  split
  · rfl
  · exact hasStart_iff.mpr ⟨_, rfl⟩

/-- An input is rooted just where it starts with a slash in the end. -/
theorem hasStart_expandTilde_iff (input : String) :
    hasStart "/" (expandTilde input) = true ↔ IsRooted input := by
  by_cases h : StartsAtHome input
  · refine iff_of_true ?_ (.inr h)
    rcases h with rfl | h
    · exact hasStart_slash_text home
    · obtain ⟨rest, rfl⟩ := hasStart_iff.mp h
      rw [expandTilde_tilde_slash, String.append_assoc]
      exact hasStart_append (hasStart_slash_text home) _
  · rw [expandTilde_of_not_home h, IsRooted, or_iff_left h]

/-- A rooted input is followed from the root. -/
theorem resolve_of_isRooted {input : String} (h : IsRooted input) (cwd : Path) :
    resolve cwd input = follow [] (splitOn '/' (expandTilde input)) := by
  rw [resolve, if_pos ((hasStart_expandTilde_iff input).mpr h)]

/-- Any other one is followed from the working directory. -/
theorem resolve_of_not_isRooted {input : String} (h : ¬ IsRooted input) (cwd : Path) :
    resolve cwd input = follow cwd (splitOn '/' input) := by
  have hplain : expandTilde input = input := expandTilde_of_not_home fun hhome => h (.inr hhome)
  rw [resolve, if_neg (mt (hasStart_expandTilde_iff input).mp h), hplain]

/-- The fields behind a slash are followed from where those in front of it lead. -/
theorem resolve_slash (cwd : Path) (x y : String) :
    resolve cwd (x ++ "/" ++ y) = follow (resolve cwd (x ++ "/")) (splitOn '/' y) := by
  have hne : expandTilde x ++ "/" ≠ "" := by
    rw [Ne, String.append_eq_empty_iff]
    exact fun h => absurd h.2 (by decide)
  have hempty : x ++ "/" = x ++ "/" ++ "" := String.append_empty.symm
  rw [resolve, expandTilde_slash, hasStart_slash_append hne, splitOn_slash, follow_append, hempty,
    resolve, expandTilde_slash, hasStart_slash_append hne, splitOn_slash, follow_append]
  rfl

/-- A slash at the end of an input changes nothing, unless there is nothing in front of it. -/
theorem resolve_append_slash (cwd : Path) {x : String} (hx : x ≠ "") :
    resolve cwd (x ++ "/") = resolve cwd x := by
  have hne : expandTilde x ≠ "" := by
    by_cases hhome : StartsAtHome x
    · intro hempty
      have hroot := (hasStart_expandTilde_iff x).mpr (.inr hhome)
      rw [hempty] at hroot
      cases hroot
    · rwa [expandTilde_of_not_home hhome]
  have hempty : x ++ "/" = x ++ "/" ++ "" := String.append_empty.symm
  rw [hempty, resolve, expandTilde_slash, String.append_assoc, hasStart_slash_append hne,
    ← String.append_assoc, splitOn_slash, follow_append]
  rfl

/-! ## Written paths -/

/-- In the text of a path nothing stands for home. -/
theorem expandTilde_text (p : Path) : expandTilde (text p) = text p := by
  obtain ⟨rest, hrest⟩ := hasStart_iff.mp (hasStart_slash_text p)
  have hchars : (text p).toList = '/' :: rest.toList := by
    rw [hrest]
    exact String.toList_append
  refine expandTilde_of_not_home fun hhome => ?_
  rw [StartsAtHome, hasStart, ← String.toList_inj, hchars] at hhome
  simp at hhome

/-- A path written with a tilde is the same path. -/
theorem expandTilde_tildeText (p : Path) : expandTilde (tildeText p) = text p := by
  rw [tildeText]
  split
  · rename_i hhome
    obtain ⟨rest, rfl⟩ := List.isPrefixOf_iff_prefix.mp hhome
    rw [List.drop_left]
    cases rest with
    | nil => rfl
    | cons name rest =>
      rw [if_neg (by simp), expandTilde_tilde_slash, text, text, if_neg (by decide),
        if_neg (by simp [home]), joinWith, joinWith, joinWith,
        String.intercalate_append_of_ne_nil (by decide) (List.cons_ne_nil _ _)]
      simp only [String.append_assoc]
  · exact expandTilde_text p

/-- The text of a path resolves to the path, from everywhere. -/
theorem resolve_text (cwd : Path) {p : Path} (h : ∀ name ∈ p, IsName name) :
    resolve cwd (text p) = p := by
  rw [resolve_of_isRooted (.inl (hasStart_slash_text p)), expandTilde_text, text]
  split
  · rename_i hempty
    rw [List.isEmpty_iff.mp hempty]
    rfl
  · rename_i hne
    have hfields : splitOn '/' ("/" ++ joinWith "/" p) = "" :: p := by
      have hslash : ∀ name ∈ p, '/' ∉ name.toList := fun name hname => (h name hname).2.2.2
      have hjoined : splitOn '/' (joinWith "/" p) = p :=
        splitOn_joinWith_of_notMem (mt List.isEmpty_iff.mpr hne) hslash
      have hsplit := splitOn_slash "" (joinWith "/" p)
      rw [hjoined] at hsplit
      exact hsplit
    rw [hfields]
    exact follow_names [] h

/-- So does its text with a tilde for the home directory. -/
theorem resolve_tildeText (cwd : Path) {p : Path} (h : ∀ name ∈ p, IsName name) :
    resolve cwd (tildeText p) = p := by
  have hsame : resolve cwd (tildeText p) = resolve cwd (text p) := by
    rw [resolve, expandTilde_tildeText, resolve, expandTilde_text]
  rw [hsame, resolve_text cwd h]

/-- Every input resolves to a path of names, and a path of names is what its two written forms
resolve to. So writing out what an input has resolved to and resolving that again changes nothing,
and an input that names its own start resolves to the same path everywhere. -/
theorem resolves_written_paths (cwd : Path) :
    ((∀ name ∈ cwd, IsName name) → ∀ input,
      (∀ name ∈ resolve cwd input, IsName name) ∧
        resolve cwd (text (resolve cwd input)) = resolve cwd input) ∧
      (∀ p, (∀ name ∈ p, IsName name) →
        resolve cwd (text p) = p ∧ resolve cwd (tildeText p) = p) ∧
      ∀ input, IsRooted input → ∀ cwd', resolve cwd' input = resolve cwd input := by
  refine ⟨fun hcwd input => ?_, fun p hp => ⟨resolve_text cwd hp, resolve_tildeText cwd hp⟩, ?_⟩
  · have hnames := isName_of_mem_resolve hcwd input
    exact ⟨hnames, resolve_text cwd hnames⟩
  · intro input hrooted cwd'
    rw [resolve_of_isRooted hrooted, resolve_of_isRooted hrooted]

/-- Steps up from the root are lost, and a tilde below the first field is a name like any other. -/
theorem resolves_tilde_below_home :
    (∀ name ∈ (["tmp"] : Path), IsName name) ∧
      resolve ["tmp"] (text (resolve ["tmp"] "./..//../~/")) = ["~"] ∧
      (∀ name ∈ (["home", "user", "~"] : Path), IsName name) ∧
      tildeText ["home", "user", "~"] = "~/~" ∧
      resolve ["tmp"] (tildeText ["home", "user", "~"]) = ["home", "user", "~"] ∧
      IsRooted "~/.." ∧ resolve [] "~/.." = resolve ["tmp"] "~/.." := by
  have hcwd : ∀ name ∈ (["tmp"] : Path), IsName name := by decide
  have hpath : ∀ name ∈ (["home", "user", "~"] : Path), IsName name := by decide
  have hrooted : IsRooted "~/.." := by decide
  obtain ⟨hinput, hwritten, hstart⟩ := resolves_written_paths ["tmp"]
  refine ⟨hcwd, (hinput hcwd "./..//../~/").2.trans (by decide +kernel), hpath, by decide +kernel,
    (hwritten _ hpath).2, hrooted, hstart _ hrooted []⟩

/-! ## Steps in a row -/

/-- Resolving in two steps is resolving both inputs with a slash between them. -/
theorem resolve_resolve (cwd : Path) {a b : String} (ha : a ≠ "") (hb : ¬ IsRooted b) :
    resolve (resolve cwd a) b = resolve cwd (a ++ "/" ++ b) := by
  rw [resolve_of_not_isRooted hb, resolve_slash, resolve_append_slash cwd ha]

end Path

namespace Builtin

/-- Going to a target succeeds and leaves a session behind. -/
def Enters (now : Timestamp) (s : Session) (target : String) (s' : Session) : Prop :=
  (runCd [target]).run now s = { outcome := .ok .ok, session := s' }

/-- Going to a target succeeds just where it names a directory. Then that is the working directory,
and nothing else has changed. -/
theorem enters_iff {now : Timestamp} {s s' : Session} {target : String} :
    Enters now s target s' ↔
      ∃ node, s.fileSystem.node? (s.fileSystem.resolve target) = .ok (some node) ∧
        node.isDirectory = true ∧
        s' = { s with fileSystem := { s.fileSystem with cwd := s.fileSystem.resolve target } } := by
  have hlook : (Shell.node? (s.fileSystem.resolve target)).run now s
      = ⟨(s.fileSystem.node? (s.fileSystem.resolve target)).mapError .tree, s, []⟩ := rfl
  rw [Enters, runCd, Shell.run_session_bind]
  dsimp only
  cases hfound : s.fileSystem.node? (s.fileSystem.resolve target) with
  | error e =>
    refine iff_of_false (fun h => ?_) ?_
    · change Shell.bind _ _ now s = _ at h
      rw [Shell.run, hfound] at hlook
      rw [Shell.bind, hlook] at h
      cases congrArg Step.outcome h
    · rintro ⟨node, hnode, -⟩
      cases hnode
  | ok found =>
    rw [hfound] at hlook
    rw [Shell.run_bind_of_run hlook]
    cases found with
    | none =>
      refine iff_of_false (fun h => by cases congrArg Step.outcome h) ?_
      rintro ⟨node, hnode, -⟩
      cases hnode
    | some node =>
      dsimp only
      split
      · rename_i hdir
        constructor
        · intro h
          exact ⟨node, rfl, hdir, (congrArg Step.session h).symm⟩
        · rintro ⟨-, -, -, rfl⟩
          rfl
      · rename_i hfile
        refine iff_of_false (fun h => by cases congrArg Step.outcome h) ?_
        rintro ⟨other, hother, hdir, -⟩
        cases hother
        exact hfile hdir

/-- Two inputs in a row, of which the second does not name its own start, lead where the two lead in
one, with a slash between them. So whoever has gone along the first one gets along the second to
the place, and to no other, that both in one would have led to. -/
theorem resolves_in_two_steps {a b : String} (ha : a ≠ "") (hb : ¬ Path.IsRooted b) :
    (∀ cwd, Path.resolve (Path.resolve cwd a) b = Path.resolve cwd (a ++ "/" ++ b)) ∧
      ∀ now s s₁ s₂, Enters now s a s₁ →
        (Enters now s₁ b s₂ ↔ Enters now s (a ++ "/" ++ b) s₂) := by
  refine ⟨fun cwd => Path.resolve_resolve cwd ha hb, fun now s s₁ s₂ hfirst => ?_⟩
  obtain ⟨-, -, -, rfl⟩ := enters_iff.mp hfirst
  -- The tree is the same before and after the first step, so only the paths have to be compared.
  have hpath : Path.resolve (Path.resolve s.fileSystem.cwd a) b
      = Path.resolve s.fileSystem.cwd (a ++ "/" ++ b) := Path.resolve_resolve _ ha hb
  rw [enters_iff, enters_iff, FileSystem.resolve, FileSystem.resolve, FileSystem.resolve, hpath]
  rfl

/-- The step up from the root that the second input starts with is lost either way. -/
theorem enters_tmp_through_root :
    ".." ≠ "" ∧ ¬ Path.IsRooted "../tmp/" ∧
      Path.resolve (Path.resolve ["tmp"] "..") "../tmp/" = ["tmp"] ∧
      ∃ s₁, Enters .epoch noteSession ".." s₁ ∧ Enters .epoch s₁ "../tmp/" noteSession := by
  have ha : ".." ≠ "" := by decide
  have hb : ¬ Path.IsRooted "../tmp/" := by decide
  have hup : noteSession.fileSystem.resolve ".." = [] := by decide +kernel
  have hdown : noteSession.fileSystem.resolve "../../tmp/" = ["tmp"] := by decide +kernel
  have hfirst : Enters .epoch noteSession ".." _ :=
    enters_iff.mpr ⟨_, by rw [hup]; rfl, rfl, rfl⟩
  have hboth : Enters .epoch noteSession "../../tmp/" noteSession :=
    enters_iff.mpr ⟨_, by rw [hdown]; rfl, rfl, by rw [hdown]; rfl⟩
  obtain ⟨hpaths, hsteps⟩ := resolves_in_two_steps ha hb
  exact ⟨ha, hb, (hpaths ["tmp"]).trans hdown, _, hfirst, (hsteps _ _ _ _ hfirst).mpr hboth⟩

end Builtin

end VirtualShell
