import VirtualShell.Proofs.Path

/-!
# Lines joined and taken apart

Lines are joined with line feeds between them, without one at the end. When a text is taken apart
into its lines, a line feed at the end closes the last of them. The two are inverse to each other
but for a last line that is empty: nothing of it is left in the text, or only the line feed in front
of it, which then seems to close the line before (`lines_joinWith`).
-/

namespace VirtualShell.Text

/-! ## The line feed at the end -/

/-- A text that ends otherwise keeps its end. -/
theorem dropFinalNewline_of_ne {cs : List Char} (h : cs.getLast? ≠ some '\n') :
    dropFinalNewline cs = cs := by
  unfold dropFinalNewline
  split
  · rename_i hlast
    exact absurd hlast h
  · rfl

/-- So does a text without line feeds. -/
theorem dropFinalNewline_of_notMem {cs : List Char} (h : '\n' ∉ cs) : dropFinalNewline cs = cs :=
  dropFinalNewline_of_ne fun hlast => h (List.mem_of_getLast? hlast)

/-- No line of a text holds a line feed. -/
theorem newline_notMem_of_mem_lines {text row : String} (h : row ∈ lines text) :
    '\n' ∉ row.toList := by
  rw [lines] at h
  split at h
  · cases h
  · have hfield : row ∈ splitOn '\n' (String.ofList (dropFinalNewline text.toList)) := by
      rwa [splitOn, String.toList_ofList]
    exact not_mem_of_mem_splitOn hfield

/-! ## Lines that were joined -/

/-- The lines without the last one, if that is empty. -/
def dropFinalEmpty (rows : List String) : List String :=
  if rows.getLast? = some "" then rows.dropLast else rows

/-- An empty line at the end is dropped. -/
theorem dropFinalEmpty_concat_empty (rows : List String) :
    dropFinalEmpty (rows ++ [""]) = rows := by
  rw [dropFinalEmpty, List.getLast?_concat, if_pos rfl, List.dropLast_concat]

/-- Any other line at the end stays. -/
theorem dropFinalEmpty_of_ne {rows : List String} (h : rows.getLast? ≠ some "") :
    dropFinalEmpty rows = rows :=
  if_neg h

/-- Nothing is dropped just where the last line is not empty. -/
theorem dropFinalEmpty_eq_self_iff {rows : List String} :
    dropFinalEmpty rows = rows ↔ rows.getLast? ≠ some "" := by
  refine ⟨fun h hlast => ?_, dropFinalEmpty_of_ne⟩
  have hne : rows ≠ [] := by
    rintro rfl
    cases hlast
  have hlength := congrArg List.length h
  rw [dropFinalEmpty, if_pos hlast, List.length_dropLast] at hlength
  have := List.length_pos_iff.mpr hne
  omega

/-- One line less is left where the last one is empty. -/
theorem length_dropFinalEmpty (rows : List String) :
    (dropFinalEmpty rows).length
      = if rows.getLast? = some "" then rows.length - 1 else rows.length := by
  rw [dropFinalEmpty]
  split
  · rw [List.length_dropLast]
  · rfl

/-- Lines without a line feed are what stands between the line feeds that join them. -/
theorem splitOn_toList_joinWith {rows : List String} (hne : rows ≠ [])
    (h : ∀ row ∈ rows, '\n' ∉ row.toList) :
    ((joinWith "\n" rows).toList.splitOn '\n').map String.ofList = rows :=
  splitOn_joinWith_of_notMem hne h

/-- Joined lines end in the last one. -/
theorem exists_joinWith_concat (front : List String) (last : String) :
    ∃ start, joinWith "\n" (front ++ [last]) = start ++ last := by
  cases front with
  | nil => exact ⟨"", by simp [joinWith]⟩
  | cons first front =>
    refine ⟨joinWith "\n" (first :: front) ++ "\n", ?_⟩
    rw [joinWith, String.intercalate_append_of_ne_nil (List.cons_ne_nil _ _)
      (List.cons_ne_nil _ _), String.intercalate_singleton, joinWith]

/-- The line feed in front of an empty last line is taken to close the line before. -/
theorem lines_joinWith_concat_empty {front : List String}
    (h : ∀ row ∈ front, '\n' ∉ row.toList) : lines (joinWith "\n" (front ++ [""])) = front := by
  by_cases hfront : front = []
  · subst hfront
    rfl
  have htext : (joinWith "\n" (front ++ [""])).toList
      = (joinWith "\n" front).toList ++ ['\n'] := by
    rw [joinWith, String.intercalate_append_of_ne_nil hfront (List.cons_ne_nil _ _)]
    simp [joinWith]
  have hne : joinWith "\n" (front ++ [""]) ≠ "" := by
    rw [Ne, ← String.toList_eq_nil_iff, htext]
    exact List.append_ne_nil_of_right_ne_nil _ (List.cons_ne_nil _ _)
  have hdrop : dropFinalNewline (joinWith "\n" (front ++ [""])).toList
      = (joinWith "\n" front).toList := by
    rw [htext, dropFinalNewline, List.getLast?_concat]
    exact List.dropLast_concat
  rw [lines, if_neg hne, hdrop]
  exact splitOn_toList_joinWith hfront h

/-- Behind a last line that is not empty there is no line feed to drop. -/
theorem lines_joinWith_concat_of_ne {front : List String} {last : String}
    (h : ∀ row ∈ front ++ [last], '\n' ∉ row.toList) (hlast : last ≠ "") :
    lines (joinWith "\n" (front ++ [last])) = front ++ [last] := by
  obtain ⟨start, hstart⟩ := exists_joinWith_concat front last
  obtain ⟨c, hc⟩ : ∃ c, last.toList.getLast? = some c :=
    ⟨_, List.getLast?_eq_some_getLast (mt String.toList_eq_nil_iff.mp hlast)⟩
  have htext : (joinWith "\n" (front ++ [last])).toList.getLast? = some c := by
    rw [hstart, String.toList_append, List.getLast?_append, hc]
    rfl
  have hne : joinWith "\n" (front ++ [last]) ≠ "" := by
    intro hempty
    rw [hempty] at htext
    cases htext
  have hdrop : dropFinalNewline (joinWith "\n" (front ++ [last])).toList
      = (joinWith "\n" (front ++ [last])).toList := by
    refine dropFinalNewline_of_ne fun hnewline => ?_
    rw [htext] at hnewline
    cases hnewline
    exact h last (List.mem_append_right _ (List.mem_singleton_self _)) (List.mem_of_getLast? hc)
  rw [lines, if_neg hne, hdrop]
  exact splitOn_toList_joinWith (List.append_ne_nil_of_right_ne_nil _ (List.cons_ne_nil _ _)) h

/-- Lines that were joined are read again, all but a last one that is empty. -/
theorem lines_joinWith {rows : List String} (h : ∀ row ∈ rows, '\n' ∉ row.toList) :
    lines (joinWith "\n" rows) = dropFinalEmpty rows := by
  rcases List.eq_nil_or_concat rows with rfl | ⟨front, last, rfl⟩
  · rfl
  rw [List.concat_eq_append] at h ⊢
  by_cases hlast : last = ""
  · subst hlast
    rw [dropFinalEmpty_concat_empty]
    exact lines_joinWith_concat_empty fun row hrow => h row (List.mem_append_left _ hrow)
  · have hrows : (front ++ [last]).getLast? ≠ some "" := by
      rw [List.getLast?_concat]
      exact fun hsome => hlast (Option.some.inj hsome)
    rw [dropFinalEmpty_of_ne hrows]
    exact lines_joinWith_concat_of_ne h hlast

end VirtualShell.Text
