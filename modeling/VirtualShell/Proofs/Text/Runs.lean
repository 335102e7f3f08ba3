import Mathlib.Data.List.Basic
import VirtualShell.Text.Split

/-!
# Runs between separators

A list that is cut at its separators falls into runs. Together they are the list without the
separators (`flatten_splitOnP`), and elements stay together where no separator stands between them
(`exists_mem_splitOnP`).

The fields of a text are such runs, with one character for a separator. Fields without separators
are found again in the text that they are joined to (`splitOn_joinWith_of_notMem`).
-/

namespace VirtualShell.Text

variable {α β : Type} {p : α → Bool}

/-- Cutting what a map gives is cutting what it comes from. -/
theorem splitOnP_map (p : β → Bool) (f : α → β) (xs : List α) :
    (xs.map f).splitOnP p = (xs.splitOnP (p ∘ f)).map (List.map f) := by
  induction xs with
  | nil => rfl
  | cons x xs ih =>
    obtain ⟨run, runs, hruns⟩ := List.exists_cons_of_ne_nil (List.splitOnP_ne_nil (p ∘ f) xs)
    rw [List.map_cons, List.splitOnP_cons_eq_if_modifyHead, List.splitOnP_cons_eq_if_modifyHead, ih,
      hruns, Function.comp_apply]
    split <;> rfl

/-- The runs taken together are the list without its separators. -/
theorem flatten_splitOnP (p : α → Bool) (xs : List α) :
    (xs.splitOnP p).flatten = xs.filter fun x => !p x := by
  induction xs with
  | nil => rfl
  | cons x xs ih =>
    rw [List.splitOnP_cons_eq_if_modifyHead]
    by_cases hx : p x = true
    · rw [if_pos hx, List.flatten_cons, ih, List.filter_cons_of_neg (by simp [hx])]
      rfl
    · obtain ⟨run, runs, hruns⟩ := List.exists_cons_of_ne_nil (List.splitOnP_ne_nil p xs)
      rw [hruns, List.flatten_cons] at ih
      rw [if_neg hx, hruns, List.modifyHead_cons, List.flatten_cons, List.cons_append, ih,
        List.filter_cons_of_pos (by simp [hx])]

/-- What stands in a run is an element that is no separator. -/
theorem mem_filter_of_mem_splitOnP {xs run : List α} (hrun : run ∈ xs.splitOnP p) {x : α}
    (hx : x ∈ run) : x ∈ xs.filter fun x => !p x := by
  rw [← flatten_splitOnP]
  exact List.mem_flatten.mpr ⟨run, hrun, hx⟩

/-- So it is an element of the list. -/
theorem mem_of_mem_splitOnP {xs run : List α} (hrun : run ∈ xs.splitOnP p) {x : α} (hx : x ∈ run) :
    x ∈ xs :=
  List.mem_of_mem_filter (mem_filter_of_mem_splitOnP hrun hx)

/-- No run holds a separator. -/
theorem not_of_mem_splitOnP {xs run : List α} (hrun : run ∈ xs.splitOnP p) {x : α} (hx : x ∈ run) :
    p x = false := by
  simpa using List.of_mem_filter (mem_filter_of_mem_splitOnP hrun hx)

/-- What stands at the end without a separator belongs to the last run. -/
theorem exists_splitOnP_append (p : α → Bool) (xs : List α) :
    ∃ front last, ∀ ys, (∀ y ∈ ys, p y = false) →
      (xs ++ ys).splitOnP p = front ++ [last ++ ys] := by
  induction xs with
  | nil => exact ⟨[], [], fun ys hys => List.splitOnP_eq_singleton hys⟩
  | cons x xs ih =>
    obtain ⟨front, last, hsplit⟩ := ih
    by_cases hx : p x = true
    · refine ⟨[] :: front, last, fun ys hys => ?_⟩
      rw [List.cons_append, List.splitOnP_cons_eq_if_modifyHead, if_pos hx, hsplit ys hys]
      rfl
    · cases front with
      | nil =>
        refine ⟨[], x :: last, fun ys hys => ?_⟩
        rw [List.cons_append, List.splitOnP_cons_eq_if_modifyHead, if_neg hx, hsplit ys hys]
        rfl
      | cons first front =>
        refine ⟨(x :: first) :: front, last, fun ys hys => ?_⟩
        rw [List.cons_append, List.splitOnP_cons_eq_if_modifyHead, if_neg hx, hsplit ys hys]
        rfl

/-- What no separator parts belongs to one run. -/
theorem exists_mem_splitOnP (front : List α) {ys : List α} (hys : ∀ y ∈ ys, p y = false)
    (back : List α) : ∃ run ∈ (front ++ ys ++ back).splitOnP p, ys ⊆ run := by
  cases hfind : back.find? p with
  | none =>
    have hback : ∀ y ∈ ys ++ back, p y = false := by
      intro y hy
      refine (List.mem_append.mp hy).elim (hys y) fun hy => ?_
      exact Bool.eq_false_iff.mpr (List.find?_eq_none.mp hfind y hy)
    obtain ⟨runs, last, hsplit⟩ := exists_splitOnP_append p front
    rw [List.append_assoc, hsplit _ hback]
    refine ⟨last ++ (ys ++ back), List.mem_append_right _ List.mem_cons_self, ?_⟩
    exact List.subset_append_of_subset_right _ (List.subset_append_left ys back)
  | some sep =>
    obtain ⟨hsep, before, behind, rfl, hbefore⟩ := List.find?_eq_some_iff_append.mp hfind
    have hrun : ∀ y ∈ ys ++ before, p y = false := by
      intro y hy
      refine (List.mem_append.mp hy).elim (hys y) fun hy => ?_
      simpa using hbefore y hy
    obtain ⟨runs, last, hsplit⟩ := exists_splitOnP_append p front
    have hcut : (front ++ ys ++ (before ++ sep :: behind)).splitOnP p
        = (runs ++ [last ++ (ys ++ before)]) ++ behind.splitOnP p := by
      rw [← hsplit _ hrun, ← List.splitOnP_append_cons _ _ hsep]
      simp only [List.append_assoc]
    rw [hcut]
    refine ⟨last ++ (ys ++ before), by simp, ?_⟩
    exact List.subset_append_of_subset_right _ (List.subset_append_left ys before)

/-- The elements of a list with their positions, cut around those from `i` to `j`. -/
theorem exists_stretch (xs : List α) {i j : Nat} (hij : i < j) :
    ∃ front stretch back, xs.zipIdx = front ++ stretch ++ back ∧
      ∀ z k, (z, k) ∈ stretch ↔ (i ≤ k ∧ k ≤ j) ∧ xs[k]? = some z := by
  refine ⟨xs.zipIdx.take i, (xs.zipIdx.drop i).take (j + 1 - i), xs.zipIdx.drop (j + 1), ?_, ?_⟩
  · rw [← List.take_add, Nat.add_sub_cancel' (by omega), List.take_append_drop]
  · intro z k
    rw [List.mem_iff_getElem?]
    simp only [List.getElem?_take, List.getElem?_drop, List.getElem?_zipIdx, Nat.zero_add]
    constructor
    · rintro ⟨n, hn⟩
      split at hn
      · obtain ⟨z', hz, heq⟩ := Option.map_eq_some_iff.mp hn
        cases heq
        exact ⟨by omega, hz⟩
      · cases hn
    · rintro ⟨⟨hik, hkj⟩, hz⟩
      refine ⟨k - i, ?_⟩
      rw [if_pos (by omega), Nat.add_sub_cancel' hik, hz]
      rfl

/-- Two elements that are no separators stay together just where no separator stands between
them. -/
theorem together_iff {xs : List α} {i j : Nat} {x y : α} (hij : i < j) (hxs : xs[i]? = some x)
    (hys : xs[j]? = some y) (hx : p x = false) (hy : p y = false) :
    (∃ run ∈ xs.zipIdx.splitOnP (p ∘ Prod.fst), (x, i) ∈ run ∧ (y, j) ∈ run) ↔
      ∀ k z, i < k → k < j → xs[k]? = some z → p z = false := by
  constructor
  · rintro ⟨run, hrun, hi, hj⟩ k z hik hkj hz
    by_contra hsep
    -- A separator at `k` leaves the one in front of it and the other behind it.
    have hsep : (p ∘ Prod.fst) (z, k) = true := Bool.not_eq_false _ ▸ hsep
    obtain ⟨hk, hget⟩ := List.getElem?_eq_some_iff.mp hz
    have hsplit : xs.zipIdx = (xs.take k).zipIdx ++ (z, k) :: (xs.drop (k + 1)).zipIdx (k + 1) := by
      conv_lhs => rw [← List.take_append_drop k xs, List.drop_eq_getElem_cons hk, hget]
      rw [List.zipIdx_append, List.zipIdx_cons, List.length_take_of_le (Nat.le_of_lt hk),
        Nat.zero_add]
    rw [hsplit, List.splitOnP_append_cons _ _ hsep] at hrun
    rcases List.mem_append.mp hrun with hfront | hback
    · have hlt := List.snd_lt_of_mem_zipIdx (mem_of_mem_splitOnP hfront hj)
      rw [List.length_take_of_le (Nat.le_of_lt hk)] at hlt
      omega
    · have hle := List.le_snd_of_mem_zipIdx (mem_of_mem_splitOnP hback hi)
      omega
  · intro hbetween
    obtain ⟨front, stretch, back, hcut, hmem⟩ := exists_stretch xs hij
    have hrun : ∀ m ∈ stretch, (p ∘ Prod.fst) m = false := by
      rintro ⟨z, k⟩ hm
      obtain ⟨⟨hik, hkj⟩, hz⟩ := (hmem z k).mp hm
      rcases Nat.eq_or_lt_of_le hik with rfl | hik
      · rwa [Option.some.inj (hxs.symm.trans hz)] at hx
      rcases Nat.eq_or_lt_of_le hkj with rfl | hkj
      · rwa [Option.some.inj (hys.symm.trans hz)] at hy
      exact hbetween k z hik hkj hz
    obtain ⟨run, hrun, hsub⟩ := exists_mem_splitOnP front hrun back
    rw [← hcut] at hrun
    exact ⟨run, hrun, hsub ((hmem x i).mpr ⟨⟨Nat.le_refl i, Nat.le_of_lt hij⟩, hxs⟩),
      hsub ((hmem y j).mpr ⟨⟨Nat.le_of_lt hij, Nat.le_refl j⟩, hys⟩)⟩

/-! ## Fields -/

section Fields

variable {sep : Char}

/-- A separator between two texts divides the fields of the one from those of the other. -/
theorem splitOn_append_cons (sep : Char) (front back : List Char) :
    (front ++ sep :: back).splitOn sep = front.splitOn sep ++ back.splitOn sep :=
  List.splitOnP_append_cons front back (beq_self_eq_true sep)

/-- A text without separators is a single field. -/
theorem splitOn_of_notMem {text : String} (h : sep ∉ text.toList) : splitOn sep text = [text] := by
  rw [splitOn, List.splitOn_eq_singleton h, List.map_singleton, String.ofList_toList]

/-- The fields between separators hold no separator. -/
theorem not_mem_of_mem_splitOn {text field : String} (h : field ∈ splitOn sep text) :
    sep ∉ field.toList := by
  obtain ⟨run, hrun, rfl⟩ := List.mem_map.mp h
  rw [String.toList_ofList]
  intro hmem
  have hsep : (sep == sep) = false := not_of_mem_splitOnP hrun hmem
  exact absurd (beq_self_eq_true sep) (Bool.eq_false_iff.mp hsep)

/-- Fields without the separator are what stands between the separators that join them. -/
theorem splitOn_joinWith_of_notMem {fields : List String} (hne : fields ≠ [])
    (h : ∀ field ∈ fields, sep ∉ field.toList) :
    splitOn sep (joinWith (String.singleton sep) fields) = fields := by
  have hsplit : ([sep].intercalate (fields.map String.toList)).splitOn sep
      = fields.map String.toList := by
    refine List.splitOn_intercalate sep ?_ ?_
    · rintro cs hcs hmem
      obtain ⟨field, hfield, rfl⟩ := List.mem_map.mp hcs
      exact h field hfield hmem
    · rwa [Ne, List.map_eq_nil_iff]
  rw [splitOn, joinWith, String.toList_intercalate, String.toList_singleton, hsplit, List.map_map]
  simp [Function.comp_def]

end Fields

end VirtualShell.Text
