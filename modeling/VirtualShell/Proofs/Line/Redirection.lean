import VirtualShell.Proofs.Line.Chain
import VirtualShell.Proofs.Text.Filled

/-!
# The grammar of redirections

A redirection is found from its first sign: what stands behind that is cut off, trimmed, and
searched for further signs as if it stood alone. The grammar says it of the whole line at once: the
signs of that direction outside the quotes are one, or two next to each other, and neither side of
them is blank (`Redirects`). The two agree because no quote is open at the first sign, so the text
before it is balanced and the rest is marked as if it stood alone, and because the blanks that are
trimmed neither open a quote nor hold a sign (`splitRedirection?_eq_some_iff`).

A line with a redirection of its output is read as such, and otherwise one with a redirection of its
input; the name behind the sign is what remains without the quotes at its ends
(`reads_redirections`).
-/

namespace VirtualShell.Line

open Text

variable {sign : Char} {text left right : List Char} {doubled : Bool}

/-! ## Positions outside the quotes -/

/-- Each character has one mark. -/
theorem length_marksFrom (quote : Option Char) (cs : List Char) :
    (marksFrom quote cs).length = cs.length := by
  rw [← List.length_map Prod.fst, map_fst_marksFrom]

/-- Behind a balanced text, the positions are those of a text that stands alone, moved on. -/
theorem plainPositions_append {xs : List Char} (h : Balanced xs) (c : Char) (ys : List Char) :
    plainPositions c (xs ++ ys)
      = plainPositions c xs ++ (plainPositions c ys).map (xs.length + ·) := by
  have hlength : (marks xs).length = xs.length := length_marksFrom none xs
  have hmoved : (marks ys).zipIdx xs.length
      = (marks ys).zipIdx.map fun m => (m.1, xs.length + m.2) := List.zipIdx_eq_map_add
  rw [plainPositions_eq_marks, marks_append h, List.zipIdx_append, hlength, Nat.zero_add, hmoved,
    List.filter_append, List.map_append, List.filter_map, List.map_map]
  simp only [plainPositions_eq_marks, List.map_map, Function.comp_def]

/-! ## The first sign -/

/-- What may stand before the first sign outside the quotes: a text that closes its quotes and holds
no such sign itself. -/
structure LeadsTo (sign : Char) (left : List Char) : Prop where
  balanced : Balanced left
  no_sign : plainPositions sign left = []

/-- A text with a sign outside the quotes is cut at the first one, whatever quote is open before
it. -/
theorem exists_cut_of_mem_marksFrom {quote : Option Char}
    (h : (sign, .plain) ∈ marksFrom quote text) :
    ∃ left rest, text = left ++ sign :: rest ∧ openAfter quote left = none ∧
      (sign, .plain) ∉ marksFrom quote left := by
  induction text generalizing quote with
  | nil =>
    rw [marksFrom] at h
    exact absurd h List.not_mem_nil
  | cons c rest ih =>
    have hm := marksFrom_cons quote c
    by_cases hfirst : (c, markBehind quote c) = (sign, .plain)
    · rw [hfirst] at hm
      obtain ⟨rfl, rest, hcons, -⟩ := marksFrom_eq_cons_plain (hm rest)
      refine ⟨[], rest, hcons, balanced_nil, ?_⟩
      rw [marksFrom]
      exact List.not_mem_nil
    · have htail : (sign, .plain) ∈ marksFrom (openAfter quote [c]) rest := by
        rw [hm] at h
        exact List.mem_of_ne_of_mem (Ne.symm hfirst) h
      obtain ⟨left, rest, rfl, hopen, hleft⟩ := ih htail
      refine ⟨c :: left, rest, rfl, ?_, ?_⟩
      · rw [← List.singleton_append, openAfter_append, hopen]
      · rw [hm]
        exact List.not_mem_cons_of_ne_of_not_mem (Ne.symm hfirst) hleft

/-- A text with a sign outside the quotes is cut at the first one. -/
theorem exists_leadsTo (h : plainPositions sign text ≠ []) :
    ∃ left rest, text = left ++ sign :: rest ∧ LeadsTo sign left := by
  rw [Ne, plainPositions_eq_nil_iff, not_not] at h
  obtain ⟨left, rest, htext, hopen, hleft⟩ := exists_cut_of_mem_marksFrom h
  exact ⟨left, rest, htext, hopen, plainPositions_eq_nil_iff.mpr hleft⟩

/-- A sign that is no quote is found where it stands first, and moves the others on by one. -/
theorem plainPositions_cons (hquote : isQuote sign = false) (rest : List Char) :
    plainPositions sign (sign :: rest) = 0 :: (plainPositions sign rest).map (1 + ·) := by
  have hbalanced : Balanced [sign] := by
    rw [Balanced, openAfter, if_neg (Bool.eq_false_iff.mp hquote), openAfter]
  have hone : plainPositions sign [sign] = [0] := by
    rw [plainPositions, plainPositionsFrom, if_neg (Bool.eq_false_iff.mp hquote), if_pos rfl,
      plainPositionsFrom]
  rw [← List.singleton_append, plainPositions_append hbalanced, hone]
  rfl

/-- Behind what leads to it, the first sign is the first one found. -/
theorem LeadsTo.plainPositions_eq (h : LeadsTo sign left) (hquote : isQuote sign = false)
    (rest : List Char) :
    plainPositions sign (left ++ sign :: rest)
      = left.length :: (plainPositions sign rest).map (left.length + 1 + ·) := by
  rw [plainPositions_append h.balanced, h.no_sign, List.nil_append, plainPositions_cons hquote,
    List.map_cons, List.map_map, Nat.add_zero]
  simp only [Function.comp_def, Nat.add_assoc]

/-- Trimming neither hides a sign nor brings one to light. -/
theorem plainPositions_trim_eq_nil_iff (hblank : isBlank sign = false) (cs : List Char) :
    plainPositions sign (trim cs) = [] ↔ plainPositions sign cs = [] := by
  obtain ⟨before, after, hcs, hbefore, hafter⟩ := exists_eq_append_trim cs
  have hopen : openAfter none before = none := openAfter_blanks isQuote_of_mem_none hbefore
  have hnot {quote : Option Char} {bs : List Char} (h : ∀ c ∈ bs, isBlank c = true) :
      (sign, Mark.plain) ∉ marksFrom quote bs := by
    intro hmem
    have hsign := h sign (fst_mem_of_mem_marksFrom hmem)
    rw [hblank] at hsign
    cases hsign
  have hmarks : marks cs
      = marks before ++ (marks (trim cs) ++ marksFrom (openAfter none (trim cs)) after) := by
    conv_lhs => rw [hcs]
    rw [marks_append hopen]
    congr 1
    exact marksFrom_append none _ _
  have hstart : (sign, Mark.plain) ∉ marks before := hnot hbefore
  have hend : (sign, Mark.plain) ∉ marksFrom (openAfter none (trim cs)) after := hnot hafter
  rw [plainPositions_eq_nil_iff, plainPositions_eq_nil_iff, hmarks, List.mem_append,
    List.mem_append]
  simp only [hstart, hend, false_or, or_false]

/-! ## Redirections -/

/-- A text is divided into two sides by a redirection: the signs of that direction outside the
quotes are a single one, or two next to each other, and neither side is blank. -/
structure Redirects (sign : Char) (text left : List Char) (doubled : Bool) (right : List Char) :
    Prop where
  text_eq : text = left ++ (if doubled then [sign, sign] else [sign]) ++ right
  positions : plainPositions sign text
    = if doubled then [left.length, left.length + 1] else [left.length]
  left_not_blank : trim left ≠ []
  right_not_blank : trim right ≠ []

/-- The text is divided by a redirection somewhere. -/
def HasRedirection (sign : Char) (text : List Char) : Prop :=
  ∃ left doubled right, Redirects sign text left doubled right

/-- The sign of a redirection is the first one outside the quotes, and none follows. -/
theorem Redirects.leadsTo (h : Redirects sign text left doubled right)
    (hquote : isQuote sign = false) :
    LeadsTo sign left ∧ plainPositions sign right = [] := by
  obtain ⟨rfl, hpositions, -, -⟩ := h
  have hne : plainPositions sign (left ++ (if doubled then [sign, sign] else [sign]) ++ right)
      ≠ [] := by
    rw [hpositions]
    cases doubled <;> simp
  obtain ⟨left', rest, htext, hleads⟩ := exists_leadsTo hne
  rw [htext, hleads.plainPositions_eq hquote] at hpositions
  cases doubled with
  | false =>
    simp only [Bool.false_eq_true, if_false, List.cons.injEq, List.map_eq_nil_iff] at hpositions
    simp only [Bool.false_eq_true, if_false, List.append_assoc, List.singleton_append] at htext
    obtain ⟨rfl, hrest⟩ := List.append_inj htext hpositions.1.symm
    exact ⟨hleads, (List.cons.inj hrest).2 ▸ hpositions.2⟩
  | true =>
    simp only [if_true, List.cons.injEq] at hpositions
    simp only [if_true, List.append_assoc, List.cons_append, List.nil_append] at htext
    obtain ⟨rfl, hrest⟩ := List.append_inj htext hpositions.1.symm
    obtain rfl := (List.cons.inj hrest).2
    refine ⟨hleads, ?_⟩
    have hsecond := hpositions.2
    rw [plainPositions_cons hquote, List.map_cons, List.map_map, List.cons.injEq,
      List.map_eq_nil_iff] at hsecond
    exact hsecond.2

/-- The search at the first sign. A sign right behind it makes it a doubled one. -/
theorem LeadsTo.splitRedirection?_eq (h : LeadsTo sign left) (hquote : isQuote sign = false)
    (hblank : isBlank sign = false) (doubled : Bool) (right : List Char) {rest : List Char}
    (hdoubled : rest.head? = some sign ↔ doubled)
    (hright : right = if doubled then rest.tail else rest) :
    splitRedirection? sign (left ++ sign :: rest)
      = if trim left ≠ [] ∧ trim right ≠ [] ∧ plainPositions sign right = [] then
          some { left := trim left, doubled, right := trim right }
        else none := by
  have hnext : ((left ++ sign :: rest)[left.length + 1]? == some sign) = doubled := by
    rw [List.getElem?_append_right (by omega), Bool.eq_iff_iff, beq_iff_eq, ← hdoubled]
    simp [List.head?_eq_getElem?]
  have htake : (left ++ sign :: rest).take left.length = left := List.take_left
  have hdrop : (left ++ sign :: rest).drop (if doubled then left.length + 2 else left.length + 1)
      = right := by
    rw [hright]
    cases doubled <;> simp [List.drop_append]
  rw [splitRedirection?, h.plainPositions_eq hquote]
  simp only [hnext, htake, hdrop]
  have hnone : ((trim left).isEmpty || (trim right).isEmpty ||
      !(plainPositions sign (trim right)).isEmpty) = true ↔
        ¬ (trim left ≠ [] ∧ trim right ≠ [] ∧ plainPositions sign right = []) := by
    rw [← plainPositions_trim_eq_nil_iff hblank]
    simp only [Bool.or_eq_true, Bool.not_eq_true', List.isEmpty_iff, List.isEmpty_eq_false_iff]
    tauto
  rw [if_congr hnone rfl rfl, ite_not]

/-- A redirection is found just where there is one, and its sides are found without the blanks
around them. -/
theorem splitRedirection?_eq_some_iff (hquote : isQuote sign = false)
    (hblank : isBlank sign = false) {split : Split} :
    splitRedirection? sign text = some split ↔ ∃ left right,
      Redirects sign text left split.doubled right ∧ split.left = trim left ∧
        split.right = trim right := by
  constructor
  · intro h
    have hne : plainPositions sign text ≠ [] := by
      intro hnil
      rw [splitRedirection?, hnil] at h
      cases h
    obtain ⟨left, rest, rfl, hleads⟩ := exists_leadsTo hne
    have hpositions := hleads.plainPositions_eq hquote rest
    by_cases hdoubled : rest.head? = some sign
    · obtain ⟨right, rfl⟩ := List.head?_eq_some_iff.mp hdoubled
      rw [hleads.splitRedirection?_eq hquote hblank true right (by simp) rfl] at h
      obtain ⟨⟨hleft, hright, hrest⟩, hsplit⟩ := Option.ite_none_right_eq_some.mp h
      obtain rfl := Option.some.inj hsplit
      refine ⟨left, right, ⟨by simp, ?_, hleft, hright⟩, rfl, rfl⟩
      rw [hpositions, plainPositions_cons hquote, hrest]
      rfl
    · rw [hleads.splitRedirection?_eq hquote hblank false rest (by simpa using hdoubled) rfl] at h
      obtain ⟨⟨hleft, hright, hrest⟩, hsplit⟩ := Option.ite_none_right_eq_some.mp h
      obtain rfl := Option.some.inj hsplit
      refine ⟨left, rest, ⟨by simp, ?_, hleft, hright⟩, rfl, rfl⟩
      rw [hpositions, hrest]
      rfl
  · rintro ⟨left, right, h, hleft, hright⟩
    obtain ⟨hleads, hnone⟩ := h.leadsTo hquote
    obtain ⟨splitLeft, doubled, splitRight⟩ := split
    dsimp only at h hleft hright
    subst hleft hright
    have hcond : trim left ≠ [] ∧ trim right ≠ [] ∧ plainPositions sign right = [] :=
      ⟨h.left_not_blank, h.right_not_blank, hnone⟩
    cases doubled with
    | true =>
      have htext : text = left ++ sign :: (sign :: right) := by simpa using h.text_eq
      rw [htext, hleads.splitRedirection?_eq hquote hblank true right (by simp) rfl,
        if_pos hcond]
    | false =>
      have htext : text = left ++ sign :: right := by simpa using h.text_eq
      -- A sign right behind the first one would be a second one.
      have hsingle : right.head? ≠ some sign := by
        intro hhead
        obtain ⟨rest, rfl⟩ := List.head?_eq_some_iff.mp hhead
        rw [plainPositions_cons hquote] at hnone
        cases hnone
      rw [htext, hleads.splitRedirection?_eq hquote hblank false right (by simpa using hsingle) rfl,
        if_pos hcond]

/-- A text is not split just where it has no redirection of the direction. -/
theorem splitRedirection?_eq_none_iff (hquote : isQuote sign = false)
    (hblank : isBlank sign = false) :
    splitRedirection? sign text = none ↔ ¬ HasRedirection sign text := by
  rw [← not_iff_not, not_not, ← Ne, Option.ne_none_iff_exists']
  constructor
  · rintro ⟨split, hsplit⟩
    obtain ⟨left, right, h, -⟩ := (splitRedirection?_eq_some_iff hquote hblank).mp hsplit
    exact ⟨left, split.doubled, right, h⟩
  · rintro ⟨left, doubled, right, h⟩
    exact ⟨{ left := trim left, doubled, right := trim right },
      (splitRedirection?_eq_some_iff hquote hblank).mpr ⟨left, right, h, rfl, rfl⟩⟩

/-! ## Reading the sides -/

/-- A name that a redirection may have. -/
structure IsTarget (name : List Char) : Prop where
  short : name.length ≤ maxTargetLength
  clean : Clean name

/-- A name that may be a target is read as one. -/
theorem readTarget_of_isTarget {cs : List Char} (h : IsTarget (unquoteEnds (trim cs))) :
    readTarget cs = .ok (String.ofList (unquoteEnds (trim cs))) := by
  have hclean : ((unquoteEnds (trim cs)).contains '\x00' ||
      hasPair '.' '.' (unquoteEnds (trim cs))) = false := by
    rw [← Bool.not_eq_true, Bool.or_eq_true, List.contains_iff_mem, hasPair_iff, not_or]
    exact ⟨h.clean.null, h.clean.dots⟩
  rw [readTarget]
  simp only [if_neg (Nat.not_lt.mpr h.short), hclean, Bool.false_eq_true, if_false]

/-- A target that has been read may be one. -/
theorem isTarget_of_readTarget {cs : List Char} {target : String}
    (h : readTarget cs = .ok target) : IsTarget (unquoteEnds (trim cs)) := by
  unfold readTarget at h
  dsimp only at h
  split_ifs at h with hlong hforbidden
  rw [Bool.or_eq_true, List.contains_iff_mem, hasPair_iff, not_or] at hforbidden
  exact ⟨Nat.not_lt.mp hlong, hforbidden.1, hforbidden.2⟩

/-- The first token is the word, and the further ones are the arguments. -/
theorem readWords_eq (cs : List Char) :
    readWords cs = { word := ((tokens cs).map String.ofList).headD "",
                     args := ((tokens cs).map String.ofList).tail } := by
  rw [readWords]
  cases tokens cs with
  | nil => rfl
  | cons first rest => rfl

/-- Trimming what stands before the sign leaves its words as they are. -/
theorem Redirects.readWords_trim (h : Redirects sign text left doubled right)
    (hquote : isQuote sign = false) : readWords (trim left) = readWords left := by
  rw [readWords, readWords, (h.leadsTo hquote).1.balanced.trim.1]

/-- The blanks around a target make no difference. -/
theorem readTarget_trim (cs : List Char) : readTarget (trim cs) = readTarget cs := by
  rw [readTarget, readTarget, trim_trim]

section

variable {cs : List Char} (hlength : (trim cs).length ≤ maxLength)

include hlength

/-- A line that redirects its output is read from both sides of the sign. -/
theorem readCommand_of_output (h : Redirects '>' (trim cs) left doubled right) :
    readCommand cs = (readTarget right).map fun target =>
      { readWords left with output := some { append := doubled, target } } := by
  have hline : trimLine cs = .ok (trim cs) := if_neg (Nat.not_lt.mpr hlength)
  have hsplit : splitRedirection? '>' (trim cs)
      = some { left := trim left, doubled, right := trim right } :=
    (splitRedirection?_eq_some_iff rfl (by decide)).mpr ⟨left, right, h, rfl, rfl⟩
  rw [readCommand, hline]
  simp only [bind, Except.bind, hsplit, readTarget_trim, h.readWords_trim rfl]
  cases readTarget right <;> rfl

/-- A line that only redirects its input is read from both sides of that sign. -/
theorem readCommand_of_input (hout : ¬ HasRedirection '>' (trim cs))
    (h : Redirects '<' (trim cs) left doubled right) :
    readCommand cs = (readTarget right).map fun source =>
      { readWords left with input := some { inline := doubled, source } } := by
  have hline : trimLine cs = .ok (trim cs) := if_neg (Nat.not_lt.mpr hlength)
  have hnone := (splitRedirection?_eq_none_iff rfl (by decide)).mpr hout
  have hsplit : splitRedirection? '<' (trim cs)
      = some { left := trim left, doubled, right := trim right } :=
    (splitRedirection?_eq_some_iff rfl (by decide)).mpr ⟨left, right, h, rfl, rfl⟩
  rw [readCommand, hline]
  simp only [bind, Except.bind, hnone, hsplit, readTarget_trim, h.readWords_trim rfl]
  cases readTarget right <;> rfl

/-- A line without redirections is read as its words. -/
theorem readCommand_of_none (hout : ¬ HasRedirection '>' (trim cs))
    (hin : ¬ HasRedirection '<' (trim cs)) : readCommand cs = .ok (readWords (trim cs)) := by
  have hline : trimLine cs = .ok (trim cs) := if_neg (Nat.not_lt.mpr hlength)
  have hnoOutput := (splitRedirection?_eq_none_iff rfl (by decide)).mpr hout
  have hnoInput := (splitRedirection?_eq_none_iff rfl (by decide)).mpr hin
  rw [readCommand, hline]
  simp only [bind, Except.bind, hnoOutput, hnoInput]
  rfl

end

/-- A result comes from a name behind a redirection: it is an error where the name, trimmed and
without a quote at either end, may be no target, and otherwise the command for that target. -/
def GoesTo (result : Except ParseError Command) (right : List Char) (command : String → Command) :
    Prop :=
  let target := unquoteEnds (trim right)
  ((∃ e, result = .error e) ↔ ¬ IsTarget target) ∧
    (IsTarget target → result = .ok (command (String.ofList target)))

/-- A command whose target is read goes to that target. -/
theorem goesTo_map_readTarget (right : List Char) (command : String → Command) :
    GoesTo ((readTarget right).map command) right command := by
  by_cases htarget : IsTarget (unquoteEnds (trim right))
  · rw [readTarget_of_isTarget htarget]
    exact ⟨iff_of_false (fun ⟨_, he⟩ => nomatch he) (not_not.mpr htarget), fun _ => rfl⟩
  · cases hread : readTarget right with
    | ok target => exact absurd (isTarget_of_readTarget hread) htarget
    | error e => exact ⟨iff_of_true ⟨e, rfl⟩ htarget, fun h => absurd h htarget⟩

theorem exists_of_map_eq_ok {α β ε : Type} {x : Except ε α} {f : α → β} {b : β}
    (h : x.map f = .ok b) : ∃ a, f a = b := by
  cases x with
  | error e => cases h
  | ok a => exact ⟨a, Except.ok.inj h⟩

/-- A line whose signs `>` divide it is read with a redirection of its output; a line where only the
signs `<` do so, with one of its input; and any other line is read as its tokens. The sign is
doubled where there are two of them. No command has both redirections. -/
theorem reads_redirections {line : String} (hlength : (trim line.toList).length ≤ maxLength) :
    let text := trim line.toList
    let word := fun side : List Char => ((tokens side).map String.ofList).headD ""
    let args := fun side : List Char => ((tokens side).map String.ofList).tail
    (∀ left doubled right, Redirects '>' text left doubled right →
      GoesTo (Command.parse line) right fun target =>
        { word := word left, args := args left, output := some { append := doubled, target },
          input := none }) ∧
    (¬ HasRedirection '>' text → ∀ left doubled right, Redirects '<' text left doubled right →
      GoesTo (Command.parse line) right fun source =>
        { word := word left, args := args left, output := none,
          input := some { inline := doubled, source } }) ∧
    (¬ HasRedirection '>' text → ¬ HasRedirection '<' text →
      Command.parse line
        = .ok { word := word text, args := args text, output := none, input := none }) ∧
    ∀ c, Command.parse line = .ok c →
      (c.output ≠ none ↔ HasRedirection '>' text) ∧
      (c.input ≠ none ↔ ¬ HasRedirection '>' text ∧ HasRedirection '<' text) ∧
      (c.output = none ∨ c.input = none) := by
  intro text word args
  refine ⟨fun left doubled right h => ?_, fun hout left doubled right h => ?_, fun hout hin => ?_,
    fun c hc => ?_⟩
  · rw [Command.parse, readCommand_of_output hlength h, readWords_eq]
    exact goesTo_map_readTarget right _
  · rw [Command.parse, readCommand_of_input hlength hout h, readWords_eq]
    exact goesTo_map_readTarget right _
  · rw [Command.parse, readCommand_of_none hlength hout hin, readWords_eq]
  · rw [Command.parse] at hc
    by_cases hout : HasRedirection '>' text
    · obtain ⟨left, doubled, right, h⟩ := id hout
      rw [readCommand_of_output hlength h, readWords_eq] at hc
      obtain ⟨target, rfl⟩ := exists_of_map_eq_ok hc
      simp [hout]
    · by_cases hin : HasRedirection '<' text
      · obtain ⟨left, doubled, right, h⟩ := id hin
        rw [readCommand_of_input hlength hout h, readWords_eq] at hc
        obtain ⟨source, rfl⟩ := exists_of_map_eq_ok hc
        simp [hout, hin]
      · rw [readCommand_of_none hlength hout hin, readWords_eq] at hc
        obtain rfl := Except.ok.inj hc
        simp [hout, hin]

/-- A quoted sign divides nothing, the quotes around the target go, and the sign of the other
direction is an argument. -/
theorem reads_quoted_target :
    let line := " cat '>' x <f >>\"my  out\" "
    let left := "cat '>' x <f ".toList
    let right := "\"my  out\"".toList
    ((trim line.toList).length ≤ maxLength ∧ Redirects '>' (trim line.toList) left true right ∧
        IsTarget (unquoteEnds (trim right))) ∧
      Command.parse line = .ok
        { word := "cat", args := [">", "x", "<f"],
          output := some { append := true, target := "my  out" }, input := none } := by
  intro line left right
  have hlength : (trim line.toList).length ≤ maxLength := by decide +kernel
  have hredirects : Redirects '>' (trim line.toList) left true right :=
    ⟨by decide +kernel, by decide +kernel, by decide +kernel, by decide +kernel⟩
  have htarget : IsTarget (unquoteEnds (trim right)) :=
    ⟨by decide +kernel, by decide +kernel, by decide +kernel⟩
  have hwords : (tokens left).map String.ofList = ["cat", ">", "x", "<f"] := by decide +kernel
  have hname : String.ofList (unquoteEnds (trim right)) = "my  out" := by decide +kernel
  have hparse := ((reads_redirections hlength).1 left true right hredirects).2 htarget
  simp only [hwords, hname] at hparse
  exact ⟨⟨hlength, hredirects, htarget⟩, hparse⟩

end VirtualShell.Line
