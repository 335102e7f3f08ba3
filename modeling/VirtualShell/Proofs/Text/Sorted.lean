import Mathlib.Data.List.Nodup
import VirtualShell.Text.Split

/-!
# Sorted texts

Texts are sorted by their code points. Sorting keeps all of them, and those that differ from each
other strictly increase; no text comes before the empty one.
-/

namespace VirtualShell.Text

/-- Sorting only changes the order of the texts. -/
theorem sortTexts_perm (texts : List String) : (sortTexts texts).Perm texts :=
  List.mergeSort_perm texts _

/-- The sorted texts increase. -/
theorem sorted_sortTexts (texts : List String) : (sortTexts texts).Pairwise (· ≤ ·) := by
  have hsorted : (sortTexts texts).Pairwise (fun a b => decide (a ≤ b) = true) := by
    refine List.pairwise_mergeSort ?_ ?_ texts
    · intro a b c hab hbc
      exact decide_eq_true (String.le_trans (of_decide_eq_true hab) (of_decide_eq_true hbc))
    · intro a b
      rw [Bool.or_eq_true, decide_eq_true_iff, decide_eq_true_iff]
      exact String.le_total a b
  exact hsorted.imp of_decide_eq_true

/-- Texts of which no two are equal strictly increase when they are sorted. -/
theorem pairwise_sortTexts {texts : List String} (h : texts.Nodup) :
    (sortTexts texts).Pairwise (· < ·) := by
  have hdiffer : (sortTexts texts).Pairwise (· ≠ ·) := (sortTexts_perm texts).nodup_iff.mpr h
  refine ((sorted_sortTexts texts).and hdiffer).imp fun hab => ?_
  exact Std.lt_of_le_of_ne hab.1 hab.2

/-- Only the empty text comes before the empty text. -/
theorem le_empty_iff {text : String} : text ≤ "" ↔ text = "" := by
  have hempty : "" ≤ text := List.not_lt_nil text.toList
  refine ⟨fun hle => String.le_antisymm hle hempty, ?_⟩
  rintro rfl
  exact String.le_refl ""

/-- Without repetitions, no text occurs twice. -/
theorem nodup_eraseDups (texts : List String) : texts.eraseDups.Nodup := by
  cases texts with
  | nil => exact List.nodup_nil
  | cons text rest =>
    rw [List.eraseDups_cons, List.nodup_cons]
    refine ⟨fun hmem => ?_, nodup_eraseDups _⟩
    have hdiffers := (List.mem_filter.mp (List.mem_eraseDups.mp hmem)).2
    simp at hdiffers
termination_by texts.length
decreasing_by
  have hshorter := List.length_filter_le (fun other => !other == text) rest
  rw [List.length_cons]
  omega

end VirtualShell.Text
