import Mathlib.Data.List.DropRight
import VirtualShell.Text.Blank

/-!
# Blanks at the ends of a text

A text without the blanks at its ends has no blanks at its ends, so taking them away a second time
changes nothing.
-/

namespace VirtualShell.Text

/-- The beginning of a text that starts with no blank starts with none either. -/
theorem trimStart_of_begins {cs ds : List Char} (h : ds <+: cs) (hcs : trimStart cs = cs) :
    trimStart ds = ds := by
  obtain ⟨rest, rfl⟩ := h
  cases ds with
  | nil => rfl
  | cons c ds =>
    rw [trimStart, List.dropWhile_eq_self_iff] at hcs ⊢
    intro hlength
    exact hcs (by simp)

/-- A text keeps its start just where no blank stands first. -/
theorem trimStart_eq_self_iff {cs : List Char} :
    trimStart cs = cs ↔ ∀ c ∈ cs.head?, isBlank c = false := by
  cases cs with
  | nil => simp [trimStart]
  | cons c cs =>
    rw [trimStart, List.dropWhile_eq_self_iff]
    simp

/-- It keeps its end just where no blank stands last. -/
theorem trimEnd_eq_self_iff {cs : List Char} :
    trimEnd cs = cs ↔ ∀ c ∈ cs.getLast?, isBlank c = false := by
  have hiff : trimEnd cs = cs ↔ ∀ hne : cs ≠ [], ¬ isBlank (cs.getLast hne) = true :=
    List.rdropWhile_eq_self_iff
  rw [hiff]
  rcases List.eq_nil_or_concat cs with rfl | ⟨front, last, rfl⟩ <;> simp

/-- A text stays as it is if it has no blank at either end. -/
theorem trim_eq_self_iff {cs : List Char} : trim cs = cs ↔
    (∀ c ∈ cs.head?, isBlank c = false) ∧ ∀ c ∈ cs.getLast?, isBlank c = false := by
  rw [← trimStart_eq_self_iff, ← trimEnd_eq_self_iff]
  constructor
  · intro h
    have hstart : trimStart cs = cs := by
      have hlength : (trim cs).length ≤ (trimStart cs).length :=
        (List.rdropWhile_prefix _ _).length_le
      rw [h] at hlength
      exact (List.dropWhile_suffix _).eq_of_length_le hlength
    refine ⟨hstart, ?_⟩
    rw [trim, hstart] at h
    exact h
  · rintro ⟨hstart, hend⟩
    rw [trim, hstart, hend]

/-- Trimming twice is trimming once. -/
theorem trim_trim (cs : List Char) : trim (trim cs) = trim cs := by
  have hstart : trimStart (trimStart cs) = trimStart cs := List.dropWhile_idempotent _ _
  have hbegins : trimEnd (trimStart cs) <+: trimStart cs := List.rdropWhile_prefix _ _
  calc trim (trim cs) = trimEnd (trimStart (trimEnd (trimStart cs))) := rfl
    _ = trimEnd (trimEnd (trimStart cs)) := by rw [trimStart_of_begins hbegins hstart]
    _ = trimEnd (trimStart cs) := List.rdropWhile_idempotent _ _

/-- So it is for strings. -/
theorem strip_strip (s : String) : strip (strip s) = strip s := by
  rw [strip, strip, String.toList_ofList, trim_trim]

/-- A blank at the end is trimmed away. -/
theorem trim_append_blank {c : Char} (hc : isBlank c = true) (cs : List Char) :
    trim (cs ++ [c]) = trim cs := by
  rw [trim, trim, trimStart, trimStart, List.dropWhile_append]
  split
  · rename_i hblank
    rw [List.isEmpty_iff.mp hblank, List.dropWhile_cons_of_pos hc, List.dropWhile_nil]
  · rw [trimEnd, trimEnd, List.reverse_concat, List.dropWhile_cons_of_pos hc]

end VirtualShell.Text
