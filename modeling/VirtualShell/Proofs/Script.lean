import VirtualShell.Proofs.Session.Lawful

/-!
# Applying a script

A line of a script that defines an alias has been validated when the script was parsed, and its
command has lost the blanks around it, so applying it sets a valid alias; applying an export sets a
variable. Line by line, a script takes steps of these two kinds (`reachedFrom_apply`). As both are
changes of the listed kinds, applying a script is lawful.
-/

namespace VirtualShell

/-! ## Commands that look dangerous -/

namespace Pattern

variable {text : Array Char} {code : Nat}

/-- The character that a pattern of one fixed text starts with, whatever place it stands at. -/
def firstCode? : Pattern → Option Nat
  | .char fold false code => if fold = {} then some code else none
  | .seq (.place _) b => firstCode? b
  | .seq a _ => firstCode? a
  | _ => none

/-- A pattern does not match in a text without its first character. -/
theorem run_eq_none_of_firstCode? (htext : ∀ c ∈ text, c.toNat ≠ code) {p : Pattern}
    (h : p.firstCode? = some code) (s : Spot) (k : Rest) : run text p s k = none := by
  fun_induction firstCode? p generalizing s k with
  | case1 first =>
    obtain rfl := Option.some.inj h
    have hchar : charAt text (fun c => Fold.same {} first c != false) s.pos = false := by
      rw [charAt, Option.any_eq_false]
      intro c hc
      have hne := htext c (Array.mem_of_getElem? hc)
      simpa [Fold.same] using hne.symm
    rw [run, hchar, if_neg Bool.false_ne_true]
  | case2 => cases h
  | case3 anchor b ih =>
    rw [run, run, ih h]
    exact ite_self none
  | case4 a b _ ih => rw [run, ih h]
  | case5 => cases h

/-- So it is not found there. -/
theorem search_of_firstCode? {cs : List Char} (hcs : ∀ c ∈ cs, c.toNat ≠ code) {p : Pattern}
    (h : p.firstCode? = some code) : p.search cs = false := by
  have hrun (pos : Nat) : run cs.toArray p { pos } some = none :=
    run_eq_none_of_firstCode? (by simpa using hcs) h _ _
  have hfrom (fuel pos : Nat) : searchFrom p cs.toArray fuel pos = false := by
    induction fuel generalizing pos with
    | zero => rw [searchFrom, hrun]; rfl
    | succ fuel ih => rw [searchFrom, hrun, ih]; rfl
  exact hfrom _ _

end Pattern

/-- No command is dangerous without one of the characters that the dangerous ones start with. -/
theorem Alias.isDangerous_of_notMem {command : String}
    (h : ∀ c ∈ command.toList, c ∉ "r>e$`md:".toList) : isDangerous command = false := by
  have hfirst : ∀ p ∈ dangerous, p.firstCode? ∈ "r>e$`md:".toList.map (some ·.toNat) := by
    decide
  rw [isDangerous, List.any_eq_false]
  intro p hp
  obtain ⟨first, hmem, hfirst⟩ := List.mem_map.mp (hfirst p hp)
  rw [Pattern.search_of_firstCode? (fun c hc heq => ?_) hfirst.symm]
  · exact Bool.false_ne_true
  · rw [Char.toNat_inj] at heq
    exact h c hc (heq ▸ hmem)

/-- An alias is valid if its name is one for an alias, and its command is neither blank nor looks
dangerous. -/
theorem Alias.validate_eq_none_iff {name command : String} :
    validate name command = none ↔ Text.isBlankText name = false ∧ isValidName name = true ∧
      Text.isBlankText command = false ∧ isDangerous command = false := by
  rw [validate]
  cases Text.isBlankText name <;> cases isValidName name <;> cases Text.isBlankText command <;>
    cases isDangerous command <;> simp

namespace Script

variable {now : Timestamp} {s : Session}

/-- A line defines an alias only if it is read as a definition, and that is valid. -/
theorem readAlias?_of_classify {content name command : String}
    (h : classify content = .defineAlias name command) :
    readAlias? content.toList = some (name, command) ∧ Alias.validate name command = none := by
  unfold classify at h
  dsimp only at h
  split at h
  · cases h
  split at h
  · cases h
  split at h
  · rename_i hread
    split at h
    · cases h
    · rename_i hvalid
      cases h
      exact ⟨hread, hvalid⟩
  · split at h
    · cases h
    · split at h <;> cases h

/-- The command of an alias definition is read without the blanks around it. -/
theorem strip_of_readAlias? {cs : List Char} {name command : String}
    (h : readAlias? cs = some (name, command)) : Text.strip command = command := by
  have htrim (inner : List Char) :
      Text.strip (String.ofList (Text.trim inner)) = String.ofList (Text.trim inner) := by
    rw [Text.strip, String.toList_ofList, Text.trim_trim]
  obtain ⟨⟨word, value⟩, -, hcommand⟩ := Option.bind_eq_some_iff.mp h
  dsimp only at hcommand
  split at hcommand
  · cases hcommand
    exact htrim _
  · split at hcommand
    · cases hcommand
    · cases hcommand
      exact htrim _

/-- A line that defines an alias only if this is valid and its command has no blanks around it. -/
def Line.Checked (l : Line) : Prop :=
  ∀ name command, l.kind = .defineAlias name command →
    Alias.validate name command = none ∧ Text.strip command = command

/-- Every line of a script has been checked. -/
theorem checked_of_mem_parse {text : String} {l : Line} (hl : l ∈ parse text) : l.Checked := by
  intro name command hkind
  unfold parse at hl
  split at hl
  · cases hl
  · obtain ⟨⟨raw, i⟩, -, rfl⟩ := List.mem_map.mp hl
    dsimp only at hkind
    obtain ⟨hread, hvalid⟩ := readAlias?_of_classify hkind
    exact ⟨hvalid, strip_of_readAlias? hread⟩

/-- Among the steps of a kind are those that a line of a script can take. -/
structure Covers (now : Timestamp) (R : Session → Session → Prop) : Prop where
  setAlias : ∀ {s : Session} {name command : String} {t : Aliases},
    Alias.validate name command = none → Text.strip command = command →
      s.aliases.set now name command = .ok t → R s { s with aliases := t }
  setVariable : ∀ {s : Session} {name value : String} {e : Environment},
    s.environment.set name value = .ok e → R s { s with environment := e }

/-- The aliases and variables that a script has come to are reached by steps of a kind. -/
def Progress.ReachedFrom (R : Session → Session → Prop) (s : Session) (p : Progress) : Prop :=
  ∃ e, p.environment = some e ∧
    Relation.ReflTransGen R s { s with aliases := p.aliases, environment := e }

variable {R : Session → Session → Prop}

/-- One line takes a step of the kinds that are covered. -/
theorem Progress.ReachedFrom.step {p : Progress} (h : p.ReachedFrom R s) (hR : Covers now R)
    {l : Line} (hl : l.Checked) : (p.step now l).ReachedFrom R s := by
  obtain ⟨e, he, hreached⟩ := h
  unfold Progress.step
  dsimp only
  split
  · rename_i name command hkind
    split
    · rename_i aliases hset
      -- What the step asks for was made sure of when the script was parsed.
      obtain ⟨hvalid, htrimmed⟩ := hl name command hkind
      have hstep : R { s with aliases := p.aliases, environment := e }
          { s with aliases := aliases, environment := e } := hR.setAlias hvalid htrimmed hset
      exact ⟨e, he, hreached.tail hstep⟩
    · exact ⟨e, he, hreached⟩
  · rw [he]
    dsimp only
    split
    · rename_i e' hset
      have hstep : R { s with aliases := p.aliases, environment := e }
          { s with aliases := p.aliases, environment := e' } := hR.setVariable hset
      exact ⟨e', rfl, hreached.tail hstep⟩
    · exact ⟨e, rfl, hreached⟩
  · exact ⟨e, he, hreached⟩
  · exact ⟨e, he, hreached⟩

/-- So do all lines, one after another. -/
theorem Progress.ReachedFrom.foldl {p : Progress} (h : p.ReachedFrom R s) (hR : Covers now R)
    (script : List Line) (hscript : ∀ l ∈ script, l.Checked) :
    (script.foldl (Progress.step now) p).ReachedFrom R s := by
  induction script generalizing p with
  | nil => exact h
  | cons l rest ih =>
    refine ih (h.step hR (hscript l List.mem_cons_self)) fun l' hl' => ?_
    exact hscript l' (List.mem_cons_of_mem _ hl')

/-- Applying a script takes only steps of these kinds. -/
theorem reachedFrom_apply (hR : Covers now R) (s : Session) (text : String) :
    (apply now s.aliases (some s.environment) (parse text)).ReachedFrom R s := by
  have hstart : Progress.ReachedFrom R s
      { aliases := s.aliases, environment := some s.environment
        execution := { errors := errors (parse text) } } :=
    ⟨s.environment, rfl, Relation.ReflTransGen.refl⟩
  have hfold := hstart.foldl hR (parse text) fun l hl => checked_of_mem_parse hl
  unfold apply
  dsimp only
  split
  · exact hfold
  · obtain ⟨e, he, hreached⟩ := hfold
    exact ⟨e, he, hreached⟩

end Script

namespace Session

open Shell

/-- Applying a script takes the session where the script has come to. -/
theorem reached_applyScript {now : Timestamp} {R : Session → Session → Prop}
    (hR : Script.Covers now R) (s : Session) (text : String) :
    Relation.ReflTransGen R s ((applyScript text).run now s).session := by
  obtain ⟨e, he, hreached⟩ := Script.reachedFrom_apply hR s text
  unfold Shell.run applyScript
  dsimp only
  rw [he]
  exact hreached

/-- So it is lawful. -/
theorem lawful_applyScript (text : String) : (applyScript text).Lawful := by
  intro now s _
  have hchanges : Script.Covers now (Session.Change now) :=
    ⟨fun hvalid _ hset => .setAlias hvalid hset, fun hset => .setVariable hset⟩
  exact ⟨reached_applyScript hchanges s text, Blameless.ok _⟩

/-- Reading the start file is lawful. -/
theorem lawful_loadStartFile : loadStartFile.Lawful := by
  intro now s hs
  refine LawfulAt.node?_bind hs ?_
  split
  · rename_i content _
    refine (lawful_applyScript content now s hs).bind hs fun execution now' s' _ => ?_
    exact LawfulAt.noteAll_bind (LawfulAt.note_bind (LawfulAt.pure _))
  · exact LawfulAt.pure _

end Session

end VirtualShell
