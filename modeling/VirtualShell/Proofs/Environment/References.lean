import Mathlib.Data.List.Basic
import Mathlib.Data.List.TakeWhile
import VirtualShell.Environment

/-!
# Filling in variables

A text is scanned for references once, from left to right (`Scan`): at each place either a reference
starts, which is taken as a whole, or the character there stands for itself. Every text has exactly
one scan, which is the list of its pieces (`scan_iff`). Neither the scan nor the names in it depend
on the values of variables, and values are only put into the places of the references. So a value is
never searched for references, and variables that a text does not refer to make no difference to it
(`fills_in_references`).
-/

namespace VirtualShell

/-! ## Leading runs -/

/-- The text behind a leading run of characters starts with one that does not belong to it. -/
theorem Text.eq_append_of_drop_takeWhile {p : Char → Bool} {cs tail : List Char} {c : Char}
    (h : cs.drop (cs.takeWhile p).length = c :: tail) :
    p c = false ∧ cs = cs.takeWhile p ++ c :: tail := by
  induction cs with
  | nil => simp at h
  | cons d cs ih =>
    cases hd : p d with
    | true =>
      rw [List.takeWhile_cons_of_pos hd, List.length_cons, List.drop_succ_cons] at h
      obtain ⟨hc, hcs⟩ := ih h
      rw [List.takeWhile_cons_of_pos hd, List.cons_append, ← hcs]
      exact ⟨hc, rfl⟩
    | false =>
      have hstop : (d :: cs).takeWhile p = [] :=
        List.takeWhile_cons_of_neg (Bool.eq_false_iff.mp hd)
      rw [hstop] at h ⊢
      cases h
      exact ⟨hd, rfl⟩

/-- A run of characters ends where one follows that does not belong to it. -/
theorem Text.takeWhile_append_of_stops {p : Char → Bool} {run rest : List Char}
    (hrun : ∀ c ∈ run, p c = true) (hrest : ∀ c ∈ rest.head?, p c = false) :
    (run ++ rest).takeWhile p = run := by
  have hstop : rest.takeWhile p = [] := by
    cases rest with
    | nil => rfl
    | cons c tail => exact List.takeWhile_cons_of_neg (Bool.eq_false_iff.mp (hrest c rfl))
  rw [List.takeWhile_append_of_pos hrun, hstop, List.append_nil]

namespace Variable

/-! ## References -/

/-- A text starts with a reference to a name, which is typed in a certain way and followed by the
rest of the text. -/
inductive ReferenceAt : List Char → List Char → List Char → List Char → Prop
  /-- A name in braces may hold anything but the closing brace. -/
  | braced {name rest : List Char} (nonempty : name ≠ []) (unclosed : '\x7d' ∉ name) :
      ReferenceAt ('$' :: '\x7b' :: name ++ '\x7d' :: rest) name
        ('$' :: '\x7b' :: name ++ ['\x7d']) rest
  /-- An identifier without braces goes on as far as characters of an identifier do. -/
  | plain {name rest : List Char} (identifier : Text.isIdentifier name = true)
      (longest : ∀ c ∈ rest.head?, Text.isNameChar c = false) :
      ReferenceAt ('$' :: name ++ rest) name ('$' :: name) rest

variable {cs name typed rest : List Char}

/-- A reference is written at the start of the text. -/
theorem ReferenceAt.eq_append (h : ReferenceAt cs name typed rest) : cs = typed ++ rest := by
  rcases h with _ | _
  · simp
  · rfl

/-- It takes at least one character. -/
theorem ReferenceAt.length_lt (h : ReferenceAt cs name typed rest) : rest.length < cs.length := by
  rcases h with _ | _
  · simp only [List.length_append, List.length_cons]
    omega
  · simp only [List.length_append, List.length_cons]
    omega

/-- A reference is read behind its dollar sign. -/
theorem ReferenceAt.exists_readReference? (h : ReferenceAt cs name typed rest) :
    ∃ tail, cs = '$' :: tail ∧ readReference? tail = some (.reference name typed, rest) := by
  rcases h with ⟨hne, hclose⟩ | ⟨hname, hrest⟩
  · refine ⟨'\x7b' :: (name ++ '\x7d' :: rest), rfl, ?_⟩
    have hrun : (name ++ '\x7d' :: rest).takeWhile (· != '\x7d') = name := by
      apply Text.takeWhile_append_of_stops
      · intro c hc
        rw [bne_iff_ne]
        rintro rfl
        exact hclose hc
      · simp
    simp [readReference?, hrun, hne]
  · cases name with
    | nil => cases hname
    | cons c name =>
      rw [Text.isIdentifier, Bool.and_eq_true, List.all_eq_true] at hname
      have hbrace : c ≠ '\x7b' := by
        rintro rfl
        exact absurd hname.1 (by decide)
      refine ⟨c :: (name ++ rest), rfl, ?_⟩
      rw [readReference?, if_pos hname.1, Text.takeWhile_append_of_stops hname.2 hrest]
      · simp
      · exact hbrace

/-- What is read as a reference is one. -/
theorem referenceAt_of_readReference? {piece : Piece} (h : readReference? cs = some (piece, rest)) :
    ∃ name typed, piece = .reference name typed ∧ ReferenceAt ('$' :: cs) name typed rest := by
  unfold readReference? at h
  split at h
  · rename_i tail
    dsimp only at h
    split at h
    · rename_i c rest' hdrop
      obtain ⟨hc, htail⟩ := Text.eq_append_of_drop_takeWhile hdrop
      obtain rfl : c = '\x7d' := by simpa using hc
      split at h
      · cases h
      · rename_i hne
        cases h
        refine ⟨_, _, rfl, ?_⟩
        have hclose : '\x7d' ∉ tail.takeWhile (· != '\x7d') := by
          intro hmem
          simpa using List.mem_takeWhile_imp hmem
        rw [Bool.not_eq_true, List.isEmpty_eq_false_iff] at hne
        have href := @ReferenceAt.braced _ rest hne hclose
        rwa [List.cons_append, List.cons_append, ← htail] at href
    · cases h
  · rename_i c tail _
    split at h
    · rename_i hstart
      cases h
      refine ⟨_, _, rfl, ?_⟩
      have hname : Text.isIdentifier (c :: tail.takeWhile Text.isNameChar) = true := by
        rw [Text.isIdentifier, hstart, Bool.true_and, List.all_eq_true]
        intro d hd
        exact List.mem_takeWhile_imp hd
      have hrest : ∀ d ∈ (tail.drop (tail.takeWhile Text.isNameChar).length).head?,
          Text.isNameChar d = false := by
        intro d hd
        obtain ⟨more, hmore⟩ := List.head?_eq_some_iff.mp hd
        exact (Text.eq_append_of_drop_takeWhile hmore).1
      have htail : tail.takeWhile Text.isNameChar
          ++ tail.drop (tail.takeWhile Text.isNameChar).length = tail :=
        List.prefix_iff_eq_append.mp (List.takeWhile_prefix _)
      have href := ReferenceAt.plain hname hrest
      rwa [List.cons_append, List.cons_append, htail] at href
    · cases h
  · cases h

/-! ## Scanning -/

/-- The pieces of a text, as a scan from left to right finds them: references where one starts, and
the characters at all other places. -/
inductive Scan : List Char → List Piece → Prop
  | nil : Scan [] []
  | reference {cs name typed rest : List Char} {pieces : List Piece}
      (starts : ReferenceAt cs name typed rest) (tail : Scan rest pieces) :
      Scan cs (.reference name typed :: pieces)
  | char {c : Char} {rest : List Char} {pieces : List Piece}
      (none_starts : ∀ name typed tail, ¬ ReferenceAt (c :: rest) name typed tail)
      (tail : Scan rest pieces) : Scan (c :: rest) (.char c :: pieces)

/-- As many steps as the text has characters are enough for a scan. -/
theorem scan_piecesWithin {fuel : Nat} (h : cs.length ≤ fuel) : Scan cs (piecesWithin fuel cs) := by
  fun_induction piecesWithin fuel cs with
  | case1 cs =>
    obtain rfl : cs = [] := List.length_eq_zero_iff.mp (Nat.le_zero.mp h)
    exact .nil
  | case2 => exact .nil
  | case3 fuel rest piece tail hread ih =>
    obtain ⟨name, typed, rfl, hstarts⟩ := referenceAt_of_readReference? hread
    have hshorter := hstarts.length_lt
    exact .reference hstarts (ih (by omega))
  | case4 fuel rest hread ih =>
    refine .char ?_ (ih (Nat.le_of_succ_le_succ h))
    intro name typed tail hstarts
    obtain ⟨rest', hrest, hread'⟩ := hstarts.exists_readReference?
    cases hrest
    rw [hread] at hread'
    cases hread'
  | case5 fuel c rest hc ih =>
    refine .char ?_ (ih (Nat.le_of_succ_le_succ h))
    intro name typed tail hstarts
    obtain ⟨rest', hrest, -⟩ := hstarts.exists_readReference?
    exact hc (List.cons.inj hrest).1

/-- At a place there is no choice between references. -/
theorem ReferenceAt.unique {name' typed' rest' : List Char} (h : ReferenceAt cs name typed rest)
    (h' : ReferenceAt cs name' typed' rest') : name = name' ∧ typed = typed' ∧ rest = rest' := by
  obtain ⟨tail, rfl, hread⟩ := h.exists_readReference?
  obtain ⟨tail', htail, hread'⟩ := h'.exists_readReference?
  cases htail
  rw [hread] at hread'
  cases hread'
  exact ⟨rfl, rfl, rfl⟩

variable {ps qs : List Piece}

/-- A text has at most one scan. -/
theorem Scan.unique (h : Scan cs ps) (h' : Scan cs qs) : ps = qs := by
  induction h generalizing qs with
  | nil =>
    rcases h' with _ | ⟨hstarts, _⟩ | _
    · rfl
    · exact absurd hstarts.length_lt (by simp)
  | reference hstarts _ ih =>
    rcases h' with _ | ⟨hstarts', htail⟩ | ⟨hnone, _⟩
    · exact absurd hstarts.length_lt (by simp)
    · obtain ⟨rfl, rfl, rfl⟩ := hstarts.unique hstarts'
      rw [ih htail]
    · exact absurd hstarts (hnone _ _ _)
  | char hnone _ ih =>
    rcases h' with _ | ⟨hstarts, _⟩ | ⟨_, htail⟩
    · exact absurd hstarts (hnone _ _ _)
    · rw [ih htail]

/-- A text has one scan, which gives its pieces. -/
theorem scan_iff : Scan cs ps ↔ ps = pieces cs := by
  have hpieces : Scan cs (pieces cs) := scan_piecesWithin (Nat.le_refl _)
  constructor
  · intro h
    exact h.unique hpieces
  · rintro rfl
    exact hpieces

/-! ## Filling in -/

variable {value value' : String → Option String}

/-- A name that a piece refers to is one of the references. -/
theorem mem_references {text : String} (h : .reference name typed ∈ pieces text.toList) :
    String.ofList name ∈ references text := by
  rw [references, List.mem_eraseDups, List.mem_filterMap]
  exact ⟨_, h, rfl⟩

/-- Only the values of the names that a text refers to are filled in. -/
theorem expand_congr {text : String} (h : ∀ name ∈ references text, value name = value' name) :
    expand value text = expand value' text := by
  have hpieces : (pieces text.toList).flatMap (·.expand value)
      = (pieces text.toList).flatMap (·.expand value') := by
    apply List.flatMap_congr
    rintro (c | ⟨name, typed⟩) hpiece
    · rfl
    · rw [Piece.expand, Piece.expand, h _ (mem_references hpiece)]
  rw [expand, expand, hpieces]

/-- Without any values, the pieces of a text make up the text. -/
theorem Scan.flatMap_expand_none (h : Scan cs ps) :
    ps.flatMap (·.expand fun _ => none) = cs := by
  induction h with
  | nil => rfl
  | reference hstarts _ ih =>
    rw [List.flatMap_cons, ih, hstarts.eq_append]
    rfl
  | char _ _ ih =>
    rw [List.flatMap_cons, ih]
    rfl

/-- Without values every reference stays as it is typed. -/
theorem expand_none (text : String) : expand (fun _ => none) text = text := by
  rw [expand, (scan_iff.mpr rfl).flatMap_expand_none, String.ofList_toList]

end Variable

/-- Filling in variables depends only on the references of a text: environments that agree on the
names in them give the same, and without values for these names the text stays as it is. The text is
scanned once, and its pieces are put together again with the value of each reference, if it has one,
in the place of the reference. -/
theorem Environment.fills_in_references (text : String) :
    (∀ e e' : Environment, (∀ name ∈ Variable.references text, e.get? name = e'.get? name) →
      e.expand text = e'.expand text) ∧
    (∀ e : Environment, (∀ name ∈ Variable.references text, e.get? name = none) →
      e.expand text = text) ∧
    (∃! ps, Variable.Scan text.toList ps) ∧
    ∀ ps, Variable.Scan text.toList ps →
      Variable.references text = (ps.filterMap Variable.Piece.name?).eraseDups ∧
      ∀ e : Environment, e.expand text = String.ofList (ps.flatMap (·.expand e.get?)) := by
  refine ⟨?_, ?_, ?_, ?_⟩
  · intro e e' h
    exact Variable.expand_congr h
  · intro e h
    rw [expand, Variable.expand_congr h, Variable.expand_none]
  · refine ⟨Variable.pieces text.toList, Variable.scan_iff.mpr rfl, ?_⟩
    intro ps hps
    exact Variable.scan_iff.mp hps
  · intro ps hps
    obtain rfl := Variable.scan_iff.mp hps
    exact ⟨rfl, fun e => rfl⟩

/-- Values that look like references, a name that looks like one, a dollar sign in front of another
and a brace that nothing closes. -/
theorem Environment.fills_in_lookalikes :
    let text := "$$A $\x7b$A\x7d $A$B $\x7bA"
    let e : Environment := { defaults := [], current := [("A", "$B"), ("B", "x")] }
    let e' := e.store "C" "y"
    (∀ name ∈ Variable.references text, e.get? name = e'.get? name) ∧
      e.expand text = e'.expand text ∧ e.expand text = "$$B $\x7b$A\x7d $Bx $\x7bA" := by
  intro text e e'
  have hsame : ∀ name ∈ Variable.references text, e.get? name = e'.get? name := by decide +kernel
  exact ⟨hsame, (fills_in_references text).1 e e' hsame, by decide +kernel⟩

end VirtualShell
