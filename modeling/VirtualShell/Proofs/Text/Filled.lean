import Mathlib.Data.List.Infix
import VirtualShell.Text.Split

/-!
# Texts in which something was filled in

A text is clean if it holds neither the null character nor two dots in a row. Filling something in
can make two dots meet, either because the text that is filled in brings one along, or because it is
empty and the dots stood on both sides of the place that it takes. Texts that do neither are
harmless, and filling in harmless texts keeps a text clean (`Filled.clean`), whichever places they
take.
-/

namespace VirtualShell.Text

variable {cs ds : List Char}

/-! ## Two characters in a row -/

/-- A pair occurs in front or further on. -/
theorem pair_infix_cons_iff {a b c : Char} :
    [a, b] <:+: c :: cs ↔ (c = a ∧ cs.head? = some b) ∨ [a, b] <:+: cs := by
  rw [List.infix_cons_iff, List.cons_prefix_cons]
  cases cs with
  | nil => simp
  | cons d rest => simp [eq_comm]

/-- The test for a pair finds it wherever it occurs. -/
theorem hasPair_iff {a b : Char} : hasPair a b cs = true ↔ [a, b] <:+: cs := by
  fun_induction hasPair a b cs with
  | case1 x y rest ih =>
    rw [pair_infix_cons_iff, Bool.or_eq_true, ih, Bool.and_eq_true, beq_iff_eq, beq_iff_eq,
      List.head?_cons, Option.some.injEq]
  | case2 rest hshort =>
    refine iff_of_false (by simp) fun h => ?_
    cases rest with
    | nil => simp at h
    | cons x rest =>
      cases rest with
      | nil => simp [pair_infix_cons_iff] at h
      | cons y rest => exact hshort x y rest rfl

/-- Without its first character a pair does not occur. -/
theorem hasPair_of_notMem {a b : Char} (h : a ∉ cs) : hasPair a b cs = false := by
  rw [← Bool.not_eq_true, hasPair_iff]
  exact fun hpair => h (hpair.subset List.mem_cons_self)

/-- Nothing is replaced before the first character of a pair. -/
theorem replacePair_append_of_notMem {a b : Char} {new : List Char} (h : a ∉ cs)
    (ds : List Char) : replacePair a b new (cs ++ ds) = cs ++ replacePair a b new ds := by
  have hcons {c : Char} (hc : a ≠ c) (es : List Char) :
      replacePair a b new (c :: es) = c :: replacePair a b new es := by
    cases es with
    | nil => simp [replacePair]
    | cons d es => rw [replacePair, if_neg fun hpair => hc hpair.1.symm]
  induction cs with
  | nil => rfl
  | cons c cs ih =>
    rw [List.mem_cons, not_or] at h
    rw [List.cons_append, hcons h.1, ih h.2, List.cons_append]

/-- So nothing is replaced there. -/
theorem replacePair_of_notMem {a b : Char} {new : List Char} (h : a ∉ cs) :
    replacePair a b new cs = cs := by
  have hnil : replacePair a b new [] = [] := by simp [replacePair]
  have happend : replacePair a b new (cs ++ []) = cs ++ replacePair a b new [] :=
    replacePair_append_of_notMem h []
  rwa [hnil, List.append_nil] at happend

/-- A character that does not occur is not replaced. -/
theorem replaceChar_of_notMem {c : Char} {s : String} (new : String) (h : c ∉ s.toList) :
    replaceChar c new s = s := by
  have hsame : ∀ cs : List Char, c ∉ cs →
      (cs.flatMap fun x => if x = c then new.toList else [x]) = cs := by
    intro cs hcs
    induction cs with
    | nil => rfl
    | cons x rest ih =>
      rw [List.mem_cons, not_or] at hcs
      rw [List.flatMap_cons, if_neg (Ne.symm hcs.1), ih hcs.2, List.singleton_append]
  rw [replaceChar, hsame _ h, String.ofList_toList]

/-- A pair in two texts in a row stands in one of them, or where they meet. -/
theorem pair_infix_append {a b : Char} (h : [a, b] <:+: cs ++ ds) :
    [a, b] <:+: cs ∨ [a, b] <:+: ds ∨ cs.getLast? = some a := by
  induction cs with
  | nil => exact .inr (.inl h)
  | cons c cs ih =>
    rw [List.cons_append, pair_infix_cons_iff] at h
    rw [pair_infix_cons_iff]
    rcases h with ⟨rfl, hhead⟩ | h
    · cases cs with
      | nil => exact .inr (.inr rfl)
      | cons d cs => exact .inl (.inl ⟨rfl, hhead⟩)
    · rcases ih h with h | h | h
      · exact .inl (.inr h)
      · exact .inr (.inl h)
      · cases cs with
        | nil => cases h
        | cons d cs =>
          rw [List.getLast?_cons_cons]
          exact .inr (.inr h)

/-! ## Clean and harmless texts -/

/-- A text without the null character and without two dots in a row. -/
structure Clean (cs : List Char) : Prop where
  null : '\x00' ∉ cs
  dots : ¬ ['.', '.'] <:+: cs

instance (cs : List Char) : Decidable (Clean cs) :=
  decidable_of_iff ('\x00' ∉ cs ∧ ¬ ['.', '.'] <:+: cs) ⟨fun h => ⟨h.1, h.2⟩, fun h => ⟨h.1, h.2⟩⟩

/-- A clean text that is not empty and has no dot at either end. -/
structure Harmless (cs : List Char) : Prop extends Clean cs where
  nonempty : cs ≠ []
  start : cs.head? ≠ some '.'
  finish : cs.getLast? ≠ some '.'

/-- A text that holds no dot at all is harmless. -/
theorem harmless_of_notMem (hne : cs ≠ []) (hnull : '\x00' ∉ cs) (hdot : '.' ∉ cs) :
    Harmless cs where
  null := hnull
  dots h := hdot (h.subset List.mem_cons_self)
  nonempty := hne
  start h := hdot (List.mem_of_head? h)
  finish h := hdot (List.mem_of_getLast? h)

/-! ## Filling in -/

/-- The second text is the first with some stretches of it replaced by texts with a property. -/
inductive Filled (P : List Char → Prop) : List Char → List Char → Prop
  | nil : Filled P [] []
  | keep (c : Char) {cs ds : List Char} (h : Filled P cs ds) : Filled P (c :: cs) (c :: ds)
  | replace (hole : List Char) {new cs ds : List Char} (hnew : P new) (h : Filled P cs ds) :
      Filled P (hole ++ cs) (new ++ ds)

namespace Filled

variable {P : List Char → Prop}

/-- A text may be kept as a whole. -/
theorem keepAll (kept : List Char) (h : Filled P cs ds) : Filled P (kept ++ cs) (kept ++ ds) := by
  induction kept with
  | nil => exact h
  | cons c kept ih => exact .keep c ih

/-- Filling in nothing is filling in. -/
theorem refl (cs : List Char) : Filled P cs cs := by
  have h := (nil (P := P)).keepAll cs
  rwa [List.append_nil] at h

/-- No dot comes to the front, and no two dots meet. -/
theorem dots (h : Filled Harmless cs ds) (hcs : ¬ ['.', '.'] <:+: cs) :
    (ds.head? = some '.' → cs.head? = some '.') ∧ ¬ ['.', '.'] <:+: ds := by
  induction h with
  | nil => exact ⟨id, hcs⟩
  | keep c _ ih =>
    rw [pair_infix_cons_iff, not_or] at hcs ⊢
    obtain ⟨hhead, hdots⟩ := ih hcs.2
    exact ⟨id, fun hmeet => hcs.1 ⟨hmeet.1, hhead hmeet.2⟩, hdots⟩
  | @replace hole new cs ds hnew _ ih =>
    have hrest : ¬ ['.', '.'] <:+: cs := fun hpair =>
      hcs (hpair.trans (List.suffix_append hole cs).isInfix)
    refine ⟨fun hhead => ?_, fun hpair => ?_⟩
    · rw [List.head?_append_of_ne_nil _ hnew.nonempty] at hhead
      exact absurd hhead hnew.start
    · rcases pair_infix_append hpair with hpair | hpair | hlast
      · exact hnew.dots hpair
      · exact (ih hrest).2 hpair
      · exact hnew.finish hlast

/-- Harmless values bring no NUL into a text. -/
theorem null (h : Filled Harmless cs ds) (hcs : '\x00' ∉ cs) : '\x00' ∉ ds := by
  induction h with
  | nil => exact hcs
  | keep c _ ih =>
    rw [List.mem_cons, not_or] at hcs ⊢
    exact ⟨hcs.1, ih hcs.2⟩
  | replace hole hnew _ ih =>
    rw [List.mem_append, not_or] at hcs ⊢
    exact ⟨hnew.null, ih hcs.2⟩

/-- Filling in harmless texts keeps a text clean. -/
theorem clean (h : Filled Harmless cs ds) (hcs : Clean cs) : Clean ds :=
  ⟨h.null hcs.null, (h.dots hcs.dots).2⟩

/-- Replacing a pair of characters fills in the same text everywhere. -/
theorem replacePair {a b : Char} {new : List Char} (hnew : P new) (cs : List Char) :
    Filled P cs (replacePair a b new cs) := by
  fun_induction Text.replacePair a b new cs with
  | case1 x y rest hpair ih => exact .replace [x, y] hnew ih
  | case2 x y rest hpair ih => exact .keep x ih
  | case3 rest => exact refl rest

end Filled

end VirtualShell.Text
