import Mathlib.Tactic.Linarith
import VirtualShell.Proofs.Text.Filled

/-!
# Signs that come about by filling in

A wildcard is a dollar sign with a star or an at sign behind it. Replacing a wildcard in a text
takes every place where the two characters stand next to each other by then, and not only the
wildcards that the text had from the start: an earlier replacement may have brought both characters
along, or one of them, or it may have been empty and made them meet.

To tell the two apart, a text is written in glyphs, where the wildcards that it had from the start
are no characters. Replacing in the written text is `rescan` on the glyphs (`replacePair_written`),
and what is meant is `fillSigns`. The two differ at the lookalikes, the pairs of characters that
read as a wildcard: without any they agree (`rescan_eq_fillSigns`), and with some the counts of all
characters change (`countP_rescan`) unless what is put in is made of the very same ones, in which
case the texts differ in their order (`lookalikes_eq_zero_of_eq`).
-/

namespace VirtualShell.Alias

open Text

/-! ## Glyphs -/

/-- A sign for all arguments, which stands behind a dollar sign. -/
inductive Wildcard where
  | star
  | atSign
  deriving DecidableEq, Repr

/-- The character of a sign for all arguments. -/
def Wildcard.char : Wildcard → Char
  | .star => '*'
  | .atSign => '@'

theorem Wildcard.char_ne_dollar (kind : Wildcard) : kind.char ≠ '$' := by
  cases kind <;> decide

/-- The two signs for all arguments have different characters. -/
theorem Wildcard.char_inj {kind other : Wildcard} : kind.char = other.char ↔ kind = other := by
  cases kind <;> cases other <;> decide

/-- A character of a text that is being filled in, or a wildcard that stood in it from the start. -/
inductive Glyph where
  | char (c : Char)
  | sign (kind : Wildcard)
  deriving DecidableEq, Repr

/-- The characters that write a glyph. -/
def Glyph.written : Glyph → List Char
  | .char c => [c]
  | .sign kind => ['$', kind.char]

/-- The glyph with a text in its place, if it is a wildcard of that kind. -/
def Glyph.fill (kind : Wildcard) (new : List Char) : Glyph → List Glyph
  | .char c => [.char c]
  | .sign other => if other = kind then new.map .char else [.sign other]

/-- Replaces the wildcards of a kind. -/
def fillSigns (kind : Wildcard) (new : List Char) (gs : List Glyph) : List Glyph :=
  gs.flatMap (Glyph.fill kind new)

/-- Replaces the wildcards of a kind, and the characters that look like one. -/
def rescan (kind : Wildcard) (new : List Char) : List Glyph → List Glyph
  | [] => []
  | .sign other :: rest => Glyph.fill kind new (.sign other) ++ rescan kind new rest
  | .char c :: .char d :: rest =>
    if c = '$' ∧ d = kind.char then new.map .char ++ rescan kind new rest
    else .char c :: rescan kind new (.char d :: rest)
  | .char c :: rest => .char c :: rescan kind new rest

/-- How many pairs of characters look like a wildcard of a kind. -/
def lookalikes (kind : Wildcard) : List Glyph → Nat
  | [] => 0
  | .sign _ :: rest => lookalikes kind rest
  | .char c :: .char d :: rest =>
    if c = '$' ∧ d = kind.char then lookalikes kind rest + 1
    else lookalikes kind (.char d :: rest)
  | .char _ :: rest => lookalikes kind rest

/-- Somewhere two characters look like a wildcard of a kind. -/
def Arises (kind : Wildcard) (gs : List Glyph) : Prop :=
  [.char '$', .char kind.char] <:+: gs

instance (kind : Wildcard) (gs : List Glyph) : Decidable (Arises kind gs) :=
  inferInstanceAs (Decidable ([.char '$', .char kind.char] <:+: gs))

variable {kind : Wildcard} {new : List Char} {gs : List Glyph}

/-- Signs are filled in one after another. -/
theorem fillSigns_cons (g : Glyph) (rest : List Glyph) :
    fillSigns kind new (g :: rest) = Glyph.fill kind new g ++ fillSigns kind new rest :=
  List.flatMap_cons

/-- Characters that are shown as themselves give the text again. -/
theorem flatMap_map_char {render : Glyph → List Char} (hrender : ∀ c, render (.char c) = [c])
    (cs : List Char) : (cs.map Glyph.char).flatMap render = cs := by
  rw [List.flatMap_map]
  simp only [hrender, List.flatMap_singleton']

/-- A character that no other one follows begins no lookalike. -/
theorem lookalikes_char_cons {c : Char} {rest : List Glyph}
    (h : ∀ d tail, rest = .char d :: tail → False) :
    lookalikes kind (.char c :: rest) = lookalikes kind rest := by
  rw [lookalikes]
  exact h

/-- There are no lookalikes just where none arises. -/
theorem lookalikes_eq_zero_iff : lookalikes kind gs = 0 ↔ ¬ Arises kind gs := by
  unfold Arises
  fun_induction lookalikes kind gs with
  | case1 => simp
  | case2 other rest ih =>
    rw [ih, List.infix_cons_iff]
    simp
  | case3 c d rest hpair ih =>
    obtain ⟨rfl, rfl⟩ := hpair
    refine iff_of_false (by omega) (not_not.mpr ?_)
    exact (List.prefix_append [Glyph.char '$', .char kind.char] rest).isInfix
  | case4 c d rest hpair ih =>
    have hstart : ¬ [Glyph.char '$', .char kind.char] <+: .char c :: .char d :: rest := by
      simp only [List.cons_prefix_cons, Glyph.char.injEq, List.nil_prefix, and_true]
      rintro ⟨rfl, rfl⟩
      exact hpair ⟨rfl, rfl⟩
    rw [List.infix_cons_iff, ih]
    simp only [hstart, false_or]
  | case5 c rest hshort ih =>
    have hstart : ¬ [Glyph.char '$', .char kind.char] <+: .char c :: rest := by
      rw [List.cons_prefix_cons]
      rintro ⟨-, tail, htail⟩
      exact hshort kind.char tail htail.symm
    rw [ih, List.infix_cons_iff]
    simp only [hstart, false_or]

/-! ## Replacing in the written text -/

/-- In the written text, lookalikes are replaced along with the wildcards. -/
theorem replacePair_written (kind : Wildcard) (new : List Char) (gs : List Glyph) :
    replacePair '$' kind.char new (gs.flatMap Glyph.written)
      = (rescan kind new gs).flatMap Glyph.written := by
  have hnew : (new.map Glyph.char).flatMap Glyph.written = new :=
    flatMap_map_char (fun _ => rfl) new
  fun_induction rescan kind new gs with
  | case1 => simp [replacePair]
  | case2 other rest ih =>
    have hdollar : '$' ∉ [other.char] := by simpa using other.char_ne_dollar.symm
    have hother : replacePair '$' kind.char new (other.char :: rest.flatMap Glyph.written)
        = other.char :: replacePair '$' kind.char new (rest.flatMap Glyph.written) :=
      replacePair_append_of_notMem hdollar _
    rw [List.flatMap_append, ← ih, List.flatMap_cons, Glyph.written, Glyph.fill, List.cons_append,
      List.cons_append, List.nil_append, replacePair]
    by_cases hkind : other = kind
    · subst hkind
      simp [hnew]
    · simp [hkind, Wildcard.char_inj, hother, Glyph.written]
  | case3 c d rest hpair ih =>
    rw [List.flatMap_append, hnew, ← ih]
    simp [Glyph.written, replacePair, hpair]
  | case4 c d rest hpair ih =>
    simp only [List.flatMap_cons, ← ih]
    simp [Glyph.written, replacePair, hpair]
  | case5 c rest hshort ih =>
    rw [List.flatMap_cons, List.flatMap_cons, ← ih]
    rcases rest with _ | ⟨_ | other, rest⟩
    · simp [replacePair, Glyph.written]
    · exact absurd rfl (hshort _ _)
    · simp [replacePair, Glyph.written, kind.char_ne_dollar.symm]

/-- Without lookalikes only the wildcards are replaced. Nor do lookalikes matter where a wildcard is
replaced by itself. -/
theorem rescan_eq_fillSigns (h : new = ['$', kind.char] ∨ ¬ Arises kind gs) :
    rescan kind new gs = fillSigns kind new gs := by
  rw [← lookalikes_eq_zero_iff] at h
  fun_induction rescan kind new gs with
  | case1 => rfl
  | case2 other rest ih =>
    rw [ih h]
    rfl
  | case3 c d rest hpair ih =>
    obtain ⟨rfl, rfl⟩ := hpair
    rw [lookalikes, if_pos ⟨rfl, rfl⟩] at h
    obtain rfl := h.resolve_right (by omega)
    rw [ih (.inl rfl)]
    rfl
  | case4 c d rest hpair ih =>
    rw [lookalikes, if_neg hpair] at h
    rw [ih h]
    rfl
  | case5 c rest hshort ih =>
    rw [lookalikes_char_cons hshort] at h
    rw [ih h]
    rfl

/-! ## What lookalikes change -/

section

variable {render : Glyph → List Char} (hrender : ∀ c, render (.char c) = [c])

include hrender

/-- Every lookalike is two characters less and the new ones more than there should be. -/
theorem countP_rescan (kind : Wildcard) (new : List Char) (p : Char → Bool) (gs : List Glyph) :
    ((rescan kind new gs).flatMap render).countP p + lookalikes kind gs * ['$', kind.char].countP p
      = ((fillSigns kind new gs).flatMap render).countP p + lookalikes kind gs * new.countP p := by
  fun_induction rescan kind new gs with
  | case1 => simp [lookalikes, fillSigns]
  | case2 other rest ih =>
    rw [fillSigns_cons, lookalikes, List.flatMap_append, List.flatMap_append, List.countP_append,
      List.countP_append]
    omega
  | case3 c d rest hpair ih =>
    obtain ⟨rfl, rfl⟩ := hpair
    rw [lookalikes, if_pos ⟨rfl, rfl⟩, fillSigns_cons, fillSigns_cons]
    simp only [Glyph.fill, List.flatMap_append, List.flatMap_cons, List.flatMap_nil, hrender,
      flatMap_map_char hrender, List.countP_append, List.countP_cons, List.countP_nil,
      Nat.add_mul] at ih ⊢
    omega
  | case4 c d rest hpair ih =>
    rw [lookalikes, if_neg hpair, fillSigns_cons, List.flatMap_cons, List.flatMap_append,
      List.countP_append, List.countP_append]
    simp only [Glyph.fill, List.flatMap_singleton] at ih ⊢
    omega
  | case5 c rest hshort ih =>
    rw [lookalikes_char_cons hshort, fillSigns_cons, List.flatMap_cons, List.flatMap_append,
      List.countP_append, List.countP_append]
    simp only [Glyph.fill, List.flatMap_singleton] at ih ⊢
    omega

/-- If a text of two characters that is no wildcard takes the place of wildcards, nothing moves, so
a lookalike that is replaced shows. -/
theorem lookalikes_eq_zero_of_eq (hlength : new.length = 2) (hnew : new ≠ ['$', kind.char])
    (h : (rescan kind new gs).flatMap render = (fillSigns kind new gs).flatMap render) :
    lookalikes kind gs = 0 := by
  fun_induction rescan kind new gs with
  | case1 => rfl
  | case2 other rest ih =>
    rw [fillSigns_cons, List.flatMap_append, List.flatMap_append] at h
    exact ih (List.append_cancel_left h)
  | case3 c d rest hpair ih =>
    obtain ⟨rfl, rfl⟩ := hpair
    rw [fillSigns_cons, fillSigns_cons, List.flatMap_append, flatMap_map_char hrender] at h
    simp only [Glyph.fill, List.flatMap_append, List.flatMap_singleton, hrender] at h
    rw [← List.append_assoc] at h
    exact absurd (List.append_inj_left h hlength) hnew
  | case4 c d rest hpair ih =>
    rw [fillSigns_cons, List.flatMap_cons, List.flatMap_append, Glyph.fill,
      List.flatMap_singleton] at h
    rw [lookalikes, if_neg hpair]
    exact ih (List.append_cancel_left h)
  | case5 c rest hshort ih =>
    rw [fillSigns_cons, List.flatMap_cons, List.flatMap_append, Glyph.fill,
      List.flatMap_singleton] at h
    rw [lookalikes_char_cons hshort]
    exact ih (List.append_cancel_left h)

end

/-! ## Two passes -/

/-- How a glyph is written once the second kind of wildcard is replaced. -/
def writtenFilled (new : List Char) (g : Glyph) : List Char :=
  (Glyph.fill .atSign new g).flatMap Glyph.written

/-- What is written with the sign filled in is the text of the filled signs. -/
theorem flatMap_writtenFilled (gs : List Glyph) :
    gs.flatMap (writtenFilled new) = (fillSigns .atSign new gs).flatMap Glyph.written :=
  List.flatMap_assoc.symm

/-- Where the lookalikes of both passes make no difference together, there are none in one of the
passes; and if there are some in the other, the new text has two characters. -/
theorem lookalikes_of_passes_eq
    (h : (rescan .atSign new (rescan .star new gs)).flatMap Glyph.written
      = (fillSigns .atSign new (fillSigns .star new gs)).flatMap Glyph.written) :
    let first := lookalikes .star gs
    let second := lookalikes .atSign (rescan .star new gs)
    (first = 0 ∨ second = 0) ∧ (0 < first + second → new.length = 2) := by
  intro first second
  have hcount (p : Char → Bool) : first * ['$', '*'].countP p + second * ['$', '@'].countP p
      = (first + second) * new.countP p := by
    have hwritten : ∀ c, Glyph.written (.char c) = [c] := fun _ => rfl
    have hfilled : ∀ c, writtenFilled new (.char c) = [c] := fun _ => rfl
    have hsecond := countP_rescan hwritten .atSign new p (rescan .star new gs)
    have hfirst := countP_rescan hfilled .star new p gs
    rw [flatMap_writtenFilled, flatMap_writtenFilled] at hfirst
    rw [h] at hsecond
    simp only [Wildcard.char] at hfirst hsecond
    linarith
  have hstar : first = (first + second) * new.countP (· == '*') := by simpa using hcount (· == '*')
  have hall : (first + second) * 2 = (first + second) * new.length := by
    simpa [Nat.add_mul] using hcount fun _ => true
  constructor
  · -- With a star in the new text, all lookalikes are those of the star.
    rcases Nat.eq_zero_or_pos (new.countP (· == '*')) with hzero | hpos
    · left
      rwa [hzero, Nat.mul_zero] at hstar
    · right
      have hle := Nat.le_mul_of_pos_right (first + second) hpos
      omega
  · intro hpos
    exact (Nat.eq_of_mul_eq_mul_left hpos hall).symm

/-- Replacing one kind of wildcard after the other in the written text does what is meant just where
no lookalike comes about before either pass, or where the pass replaces the wildcard by itself. -/
theorem passes_eq_iff (new : List Char) (gs : List Glyph) :
    (rescan .atSign new (rescan .star new gs)).flatMap Glyph.written
        = (fillSigns .atSign new (fillSigns .star new gs)).flatMap Glyph.written ↔
      (new = ['$', '*'] ∨ ¬ Arises .star gs) ∧
        (new = ['$', '@'] ∨ ¬ Arises .atSign (fillSigns .star new gs)) := by
  constructor
  · intro h
    obtain ⟨hone, htwo⟩ := lookalikes_of_passes_eq h
    have hagree (hfirst : new = ['$', '*'] ∨ ¬ Arises .star gs) :
        rescan .star new gs = fillSigns .star new gs := rescan_eq_fillSigns hfirst
    rcases hone with hfirst | hsecond
    · have hnone : ¬ Arises .star gs := lookalikes_eq_zero_iff.mp hfirst
      rw [hagree (.inr hnone)] at h htwo
      refine ⟨.inr hnone, ?_⟩
      by_cases hnew : new = ['$', '@']
      · exact .inl hnew
      · right
        rw [← lookalikes_eq_zero_iff]
        by_contra hne
        exact hne (lookalikes_eq_zero_of_eq (fun _ => rfl) (htwo (by omega)) hnew h)
    · have hnone : ¬ Arises .atSign (rescan .star new gs) := lookalikes_eq_zero_iff.mp hsecond
      have hfirst : new = ['$', '*'] ∨ ¬ Arises .star gs := by
        by_cases hnew : new = ['$', '*']
        · exact .inl hnew
        · right
          rw [rescan_eq_fillSigns (.inr hnone), ← flatMap_writtenFilled,
            ← flatMap_writtenFilled] at h
          rw [← lookalikes_eq_zero_iff]
          by_contra hne
          exact hne (lookalikes_eq_zero_of_eq (fun _ => rfl) (htwo (by omega)) hnew h)
      rw [hagree hfirst] at hnone
      exact ⟨hfirst, .inr hnone⟩
  · rintro ⟨hfirst, hsecond⟩
    have hstar : rescan .star new gs = fillSigns .star new gs := rescan_eq_fillSigns hfirst
    rw [hstar, rescan_eq_fillSigns hsecond]

end VirtualShell.Alias
