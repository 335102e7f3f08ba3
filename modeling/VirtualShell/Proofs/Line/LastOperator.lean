import VirtualShell.Proofs.Line.Redirection

/-!
# The last operator of a line

The search for operators goes through a line from its start, and an operator is told by its first
two characters. So the search comes to an operator in the same way whatever stands behind it, as
long as that starts alike (`exists_operatorsFrom_append`). A text without operators adds none behind
an operator, not even one that is made of the sign and the first character of the text: the operator
stays the last one of the line (`getLast?_findOperators_append`).
-/

namespace VirtualShell.Line

open Text

/-! ## The search up to an operator -/

/-- An operator is told by its first two characters. -/
theorem operatorAt?_cons_cons (m n : Char × Mark) (ms ns : List (Char × Mark)) :
    operatorAt? (m :: n :: ms) = operatorAt? (m :: n :: ns) := by
  generalize hms : m :: n :: ms = text
  fun_cases operatorAt? text with
  | case1 rest | case2 rest | case3 rest =>
    cases hms
    rfl
  | case4 rest hsingle =>
    cases hms
    have hpipe : operatorAt? (('|', .plain) :: n :: ns) = some .pipe := by
      rw [operatorAt?]
      rintro rest ⟨rfl, -⟩
      exact hsingle ms rfl
    exact hpipe.symm
  | case5 text hand hor hsequence hpipe =>
    subst hms
    have hnone : operatorAt? (m :: n :: ns) = none := by
      rw [operatorAt?]
      · rintro rest ⟨rfl, rfl, -⟩
        exact hand ms rfl
      · rintro rest ⟨rfl, rfl, -⟩
        exact hor ms rfl
      · rintro rest ⟨rfl, -⟩
        exact hsequence _ rfl
      · rintro rest ⟨rfl, -⟩
        exact hpipe _ rfl
    exact hnone.symm

/-- Of what follows a character, only the next character counts for an operator. -/
theorem operatorAt?_cons_congr (m : Char × Mark) {ms ns : List (Char × Mark)}
    (h : ms.head? = ns.head?) : operatorAt? (m :: ms) = operatorAt? (m :: ns) := by
  cases ms with
  | nil =>
    obtain rfl : ns = [] := List.head?_eq_none_iff.mp h.symm
    rfl
  | cons n ms =>
    obtain ⟨ns, rfl⟩ := List.head?_eq_some_iff.mp h.symm
    exact operatorAt?_cons_cons m n ms ns

/-- The search finds nothing before the place where it starts. -/
theorem le_of_mem_operatorsFrom {i : Nat} {ms : List (Char × Mark)} {found : Nat × Operator}
    (h : found ∈ operatorsFrom i ms) : i ≤ found.1 := by
  fun_induction operatorsFrom i ms with
  | case1 i rest ih | case2 i rest ih | case3 i rest ih | case4 i rest hdoubled ih =>
    rcases List.mem_cons.mp h with rfl | hlater
    · exact Nat.le_refl _
    · exact Nat.le_of_succ_le (by have := ih hlater; omega)
  | case5 i m rest _ _ _ _ ih => exact Nat.le_of_succ_le (ih h)
  | case6 => cases h

theorem operator_length_pos (op : Operator) : 0 < op.length := by
  cases op <;> decide

/-- An operator that is found where the search starts stands there. -/
theorem operatorAt?_of_mem_operatorsFrom {op : Operator} {ms : List (Char × Mark)} {i : Nat}
    (h : (i, op) ∈ operatorsFrom i ms) : operatorAt? ms = some op := by
  rw [operatorsFrom_eq] at h
  cases hop : operatorAt? ms with
  | none =>
    rw [hop] at h
    exact absurd (le_of_mem_operatorsFrom h) (by simp)
  | some first =>
    rw [hop] at h
    rcases List.mem_cons.mp h with heq | hlater
    · cases heq
      rfl
    · have hlate : i + first.length ≤ i := le_of_mem_operatorsFrom hlater
      have hpos := operator_length_pos first
      omega

/-- The search comes to an operator that it finds, and what it has found until then does not depend
on what follows, as long as that starts alike. -/
theorem exists_operatorsFrom_append {op : Operator} :
    ∀ (ms ns : List (Char × Mark)) (i : Nat), (i + ms.length, op) ∈ operatorsFrom i (ms ++ ns) →
      operatorAt? ns = some op ∧ ∃ found, ∀ ns', ns'.head? = ns.head? →
        operatorsFrom i (ms ++ ns') = found ++ operatorsFrom (i + ms.length) ns'
  | [], ns, i, h => ⟨operatorAt?_of_mem_operatorsFrom h, [], fun ns' _ => rfl⟩
  | m :: rest, ns, i, h => by
    have hsame : ∀ ns', ns'.head? = ns.head? →
        operatorAt? (m :: rest ++ ns') = operatorAt? (m :: rest ++ ns) := by
      intro ns' hhead
      have htail : (rest ++ ns').head? = (rest ++ ns).head? := by
        rw [List.head?_append, List.head?_append, hhead]
      exact operatorAt?_cons_congr m htail
    rw [operatorsFrom_eq] at h
    cases hop : operatorAt? (m :: rest ++ ns) with
    | none =>
      rw [hop] at h
      have hplace : i + (m :: rest).length = i + 1 + rest.length := by
        rw [List.length_cons]
        omega
      rw [hplace] at h ⊢
      obtain ⟨hnext, found, hfound⟩ := exists_operatorsFrom_append rest ns (i + 1) h
      refine ⟨hnext, found, fun ns' hhead => ?_⟩
      rw [operatorsFrom_eq, hsame ns' hhead, hop]
      exact hfound ns' hhead
    | some first =>
      rw [hop] at h
      have hpos := operator_length_pos first
      have hlater : (i + (m :: rest).length, op)
          ∈ operatorsFrom (i + first.length) ((m :: rest ++ ns).drop first.length) := by
        refine (List.mem_cons.mp h).resolve_left fun heq => ?_
        have hplace := congrArg Prod.fst heq
        simp at hplace
      -- An operator that reaches into what follows leaves no place for the one that is found there.
      have hfits : first.length ≤ (m :: rest).length := by
        have hlate := le_of_mem_operatorsFrom hlater
        dsimp only at hlate
        omega
      have hplace : i + (m :: rest).length
          = i + first.length + ((m :: rest).drop first.length).length := by
        rw [List.length_drop]
        omega
      have hshorter : ((m :: rest).drop first.length).length < (m :: rest).length := by
        rw [List.length_drop, List.length_cons]
        omega
      rw [List.drop_append_of_le_length hfits, hplace] at hlater
      obtain ⟨hnext, found, hfound⟩ :=
        exists_operatorsFrom_append ((m :: rest).drop first.length) ns _ hlater
      refine ⟨hnext, (i, first) :: found, fun ns' hhead => ?_⟩
      rw [operatorsFrom_eq, hsame ns' hhead, hop, hplace]
      dsimp only
      rw [List.drop_append_of_le_length hfits, hfound ns' hhead, List.cons_append]
termination_by ms => ms.length

/-! ## Texts without operators -/

/-- The search finds nothing in such a text, wherever it starts to count. -/
theorem operatorsFrom_of_findOperators {cs : List Char} (h : findOperators cs = []) (i : Nat) :
    operatorsFrom i (marks cs) = [] := by
  rcases operatorsFrom_cases none cs with hnone | ⟨piece, op, rest, -, -, -, hsome⟩
  · exact hnone i
  · rw [findOperators_eq_marks, marks, hsome] at h
    cases h

/-- Nor does an operator begin such a text. -/
theorem operatorAt?_of_findOperators {cs : List Char} (h : findOperators cs = []) :
    operatorAt? (marks cs) = none := by
  rw [findOperators_eq_marks, operatorsFrom_eq] at h
  cases hop : operatorAt? (marks cs) with
  | none => rfl
  | some op =>
    rw [hop] at h
    cases h

/-- Blanks in front of a text make no operator. -/
theorem findOperators_blanks_append {bs : List Char} (hbs : ∀ c ∈ bs, isBlank c = true)
    {cs : List Char} (h : findOperators cs = []) : findOperators (bs ++ cs) = [] := by
  have hall : ∀ i, operatorsFrom i (marks (bs ++ cs)) = [] := by
    induction bs with
    | nil => exact operatorsFrom_of_findOperators h
    | cons c bs ih =>
      intro i
      obtain ⟨hc, hbs⟩ := List.forall_mem_cons.mp hbs
      have hsign : c ≠ '&' ∧ c ≠ '|' ∧ c ≠ ';' := by
        refine ⟨?_, ?_, ?_⟩ <;> rintro rfl <;> exact absurd hc (by decide)
      rw [List.cons_append, marks_cons_blank hc, operatorsFrom]
      · exact ih hbs (i + 1)
      all_goals grind
  exact (findOperators_eq_marks _).trans (hall 0)

/-- Characters that belong to no operator make none behind a text, nor with its last character. -/
theorem operatorsFrom_append {ns : List (Char × Mark)} (h : ∀ n ∈ ns, n.1 ∉ ['&', '|', ';'])
    (i : Nat) (ms : List (Char × Mark)) : operatorsFrom i (ms ++ ns) = operatorsFrom i ms := by
  have hstart : ∀ c ∈ ['&', '|', ';'], ∀ rest : List (Char × Mark),
      (∀ ms, rest ≠ (c, .plain) :: ms) → ∀ ms, rest ++ ns ≠ (c, .plain) :: ms := by
    intro c hc rest hrest ms hms
    cases rest with
    | nil =>
      subst hms
      exact h _ List.mem_cons_self hc
    | cons m rest =>
      cases hms
      exact hrest rest rfl
  fun_induction operatorsFrom i ms with
  | case1 i rest ih | case2 i rest ih | case3 i rest ih =>
    simp only [List.cons_append, operatorsFrom, ih]
  | case4 i rest hdoubled ih =>
    rw [List.cons_append, operatorsFrom, ih]
    exact hstart '|' (by decide) rest hdoubled
  | case5 i m rest hand hor hsequence hpipe ih =>
    have hsingle : m = ('&', .plain) → ∀ ms, rest ++ ns ≠ ('&', .plain) :: ms :=
      fun hm => hstart '&' (by decide) rest fun ms => hand ms hm
    rw [List.cons_append, operatorsFrom, ih]
    · exact fun ms hm => hsingle hm ms
    · exact fun ms hm => absurd hm hpipe
    · exact hsequence
    · exact hpipe
  | case6 i => exact operatorsFrom_eq_nil (fun n hn _ => h n hn) i

/-- A word that holds none of these characters changes nothing about the operators before it. -/
theorem findOperators_append {word : List Char} (h : ∀ c ∈ word, c ∉ ['&', '|', ';'])
    (cs : List Char) : findOperators (cs ++ word) = findOperators cs := by
  rw [findOperators_eq_marks, findOperators_eq_marks, marks, marksFrom_append]
  exact operatorsFrom_append (fun n hn => h n.1 (fst_mem_of_mem_marksFrom hn)) 0 _

/-- Wherever the search starts to count, an operator that it finds is written in the text, behind a
text that closes its quotes. -/
theorem exists_of_mem_operatorsFrom {i : Nat} {cs : List Char} {found : Nat × Operator}
    (h : found ∈ operatorsFrom i (marks cs)) :
    ∃ front rest, cs = front ++ (found.2.sign.toList ++ rest) ∧ found.1 = i + front.length ∧
      Balanced front := by
  rcases operatorsFrom_cases none cs with hnone | ⟨piece, op, rest, rfl, hopen, -, hrest⟩
  · rw [marks, hnone] at h
    cases h
  · rw [marks, hrest] at h
    rcases List.mem_cons.mp h with rfl | hlater
    · exact ⟨piece, rest, rfl, rfl, hopen⟩
    · have hshorter : rest.length < (piece ++ (op.sign.toList ++ rest)).length := by
        have hpos := operator_length_pos op
        rw [List.length_append, List.length_append, length_sign]
        omega
      obtain ⟨front, after, rfl, hplace, hfront⟩ := exists_of_mem_operatorsFrom hlater
      refine ⟨piece ++ (op.sign.toList ++ front), after, ?_, ?_, ?_⟩
      · simp only [List.append_assoc]
      · rw [hplace, List.length_append, List.length_append, length_sign]
        omega
      · have hsign : Balanced op.sign.toList := by cases op <;> rfl
        exact Balanced.append hopen (hsign.append hfront)
termination_by cs.length

/-- Every operator that is found is written in the text, and the text before it closes its
quotes. -/
theorem exists_of_mem_findOperators {cs : List Char} {i : Nat} {op : Operator}
    (h : (i, op) ∈ findOperators cs) :
    ∃ front rest, cs = front ++ (op.sign.toList ++ rest) ∧ i = front.length ∧ Balanced front := by
  rw [findOperators_eq_marks] at h
  simpa only [Nat.zero_add] using exists_of_mem_operatorsFrom h

/-! ## Texts that end in an operator -/

/-- A text ends in an operator outside the quotes, with nothing but blanks behind it. -/
def EndsInOperator (cs : List Char) : Prop :=
  ∃ front op blanks, cs = front ++ (op.sign.toList ++ blanks) ∧
    (front.length, op) ∈ findOperators cs ∧ ∀ c ∈ blanks, isBlank c = true

/-- A text that ends in an operator is not empty. -/
theorem EndsInOperator.ne_nil {cs : List Char} (h : EndsInOperator cs) : cs ≠ [] := by
  obtain ⟨front, op, blanks, rfl, -, -⟩ := h
  cases op <;> simp [Operator.sign]

/-- The characters of a sign in front of a text are plain ones. -/
theorem marks_sign_append (op : Operator) (cs : List Char) :
    marks (op.sign.toList ++ cs) = op.sign.toList.map (fun c => (c, Mark.plain)) ++ marks cs := by
  cases op <;> rfl

/-- A sign is an operator of its own in front of a text without operators. -/
theorem operatorAt?_sign_append (op : Operator) {cs : List Char} (h : findOperators cs = []) :
    operatorAt? (marks (op.sign.toList ++ cs)) = some op := by
  rw [marks_sign_append]
  cases op with
  | and | or | sequence => rfl
  | pipe =>
    change operatorAt? (('|', .plain) :: marks cs) = some .pipe
    rw [operatorAt?]
    intro rest hcs
    -- A second pipe sign would be an operator in the text.
    have hnone := operatorAt?_of_findOperators h
    have hpipe : operatorAt? [('|', .plain)] ≠ none := Option.some_ne_none Operator.pipe
    rw [hcs, ← List.singleton_append] at hnone
    exact operatorAt?_append_ne_none hpipe rest hnone

/-- Behind an operator, and blanks, a text without operators adds none. -/
theorem getLast?_findOperators_append {front blanks cs : List Char} {op : Operator}
    (hmem : (front.length, op) ∈ findOperators (front ++ (op.sign.toList ++ blanks)))
    (hblanks : ∀ c ∈ blanks, isBlank c = true) (h : findOperators cs = []) :
    (findOperators (front ++ (op.sign.toList ++ (blanks ++ cs)))).getLast?
      = some (front.length, op) := by
  have hrest : findOperators (blanks ++ cs) = [] := findOperators_blanks_append hblanks h
  rw [findOperators_eq_marks, marks, marksFrom_append] at hmem
  have hplace : front.length = 0 + (marksFrom none front).length := by
    rw [length_marksFrom, Nat.zero_add]
  rw [hplace] at hmem
  obtain ⟨hop, found, hfound⟩ := exists_operatorsFrom_append _ _ _ hmem
  obtain ⟨hopen, -⟩ := exists_of_operatorAt?_marksFrom hop
  rw [hopen] at hfound
  have hhead : (marks (op.sign.toList ++ (blanks ++ cs))).head?
      = (marksFrom none (op.sign.toList ++ blanks)).head? := by
    cases op <;> rfl
  have hdrop : (marks (op.sign.toList ++ (blanks ++ cs))).drop op.length
      = marks (blanks ++ cs) := by
    rw [marks_sign_append, ← length_sign op]
    exact List.drop_left' (List.length_map _)
  rw [findOperators_eq_marks, marks_append hopen, marks, hfound _ hhead, operatorsFrom_eq,
    operatorAt?_sign_append op hrest, hplace]
  dsimp only
  rw [hdrop, operatorsFrom_of_findOperators hrest, List.getLast?_concat]

end VirtualShell.Line
