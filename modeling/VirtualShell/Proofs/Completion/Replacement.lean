import VirtualShell.Proofs.Completion.Context
import VirtualShell.Proofs.Line.Spacing

/-!
# Replacing the word that is completed

A completion takes the place of the last word of a line. The text behind the last operator is
written anew for that: at the first sign of a redirection in it, quoted or not, it is cut, and
otherwise its words, which are cut at quoted blanks as well, are joined again with one space between
them. The tokens before the word stay as they are just where neither does any harm
(`replaces_word_iff`), and `KeepsLine` says on the line before the word where that is.

Without a redirection this is `tokens_join_words_iff`, behind an operator. With one, the sign and
the completion stand between spaces in the new line, so they are tokens of their own unless a quote
is open there (`tokens_append_two_iff`).
-/

namespace VirtualShell

namespace Completion

open Text Line

variable {before text word : List Char}

/-! ## The text that is written again -/

/-- A line is cut behind its last operator, with no quote open there, and a word without operators
that follows belongs to the text behind. -/
theorem exists_splitContext (cs : List Char) : ∃ before text, cs = before ++ text ∧
    splitContext cs = (before, text) ∧ Balanced before ∧ (before = [] ∨ trimStart text = text) ∧
    ∀ word, BareWord word → (∀ c ∈ word, c ∉ ['&', '|', ';']) →
      splitContext (cs ++ word) = (before, text ++ word) := by
  cases hlast : (findOperators cs).getLast? with
  | none =>
    refine ⟨[], cs, rfl, ?_, balanced_nil, .inl rfl, fun word _ hop => ?_⟩
    · rw [splitContext, hlast]
    · rw [splitContext, findOperators_append hop, hlast]
  | some found =>
    obtain ⟨i, op⟩ := found
    obtain ⟨front, rest, rfl, rfl, hfront⟩ :=
      exists_of_mem_findOperators (List.mem_of_getLast? hlast)
    have hblanks : ∀ c ∈ rest.takeWhile isBlank, isBlank c = true := fun c => List.mem_takeWhile_imp
    have hstart : trimStart (trimStart rest) = trimStart rest := List.dropWhile_idempotent _ _
    have hrest : rest = rest.takeWhile isBlank ++ trimStart rest :=
      List.takeWhile_append_dropWhile.symm
    generalize rest.takeWhile isBlank = blanks, trimStart rest = text at *
    subst hrest
    have hbefore : Balanced (front ++ (op.sign.toList ++ blanks)) := by
      have hsign : Balanced op.sign.toList := by cases op <;> rfl
      have hopen : Balanced blanks := openAfter_blanks isQuote_of_mem_none hblanks
      exact hfront.append (hsign.append hopen)
    refine ⟨front ++ (op.sign.toList ++ blanks), text, ?_, ?_, hbefore, .inr hstart, ?_⟩
    · simp only [List.append_assoc]
    · exact splitContext_of_last hlast hblanks hstart
    · intro word hword hop
      have hword' := hword.trimStart_append hstart
      rw [← findOperators_append hop] at hlast
      simp only [List.append_assoc] at hlast ⊢
      exact splitContext_of_last hlast hblanks hword'

/-- A redirection that is found has one of the four signs. -/
theorem sign_mem_of_redirectionAt? {done cs : List Char} {r : Redirection}
    (h : redirectionAt? done cs = some r) : r.sign ∈ [">>", ">", "<<", "<"] := by
  rw [redirectionAt?] at h
  obtain ⟨sign, hsign, h⟩ := Option.bind_eq_some_iff.mp h
  obtain ⟨-, h⟩ := Option.ite_none_right_eq_some.mp h
  cases h
  exact List.mem_of_find?_eq_some hsign

/-- So has one that is found further on. -/
theorem sign_mem_of_redirectionFrom? {done cs : List Char} {r : Redirection}
    (h : redirectionFrom? done cs = some r) : r.sign ∈ [">>", ">", "<<", "<"] := by
  induction cs generalizing done with
  | nil => cases h
  | cons c rest ih =>
    rw [redirectionFrom?] at h
    cases hat : redirectionAt? done (c :: rest) with
    | some first =>
      rw [hat] at h
      cases h
      exact sign_mem_of_redirectionAt? hat
    | none =>
      rw [hat] at h
      exact ih (Option.ite_none_left_eq_some.mp h).2

/-- The sign of a redirection is a bare word. -/
theorem bareWord_sign {cs : List Char} {r : Redirection} (h : redirection? cs = some r) :
    BareWord r.sign.toList := by
  have hsigns : ∀ sign ∈ [">>", ">", "<<", "<"], BareWord sign.toList := by decide
  exact hsigns r.sign (sign_mem_of_redirectionFrom? h)

/-! ## The line with the completion -/

/-- A line keeps its tokens when the word behind it is replaced. Where the text behind the last
operator holds no redirection, every run of blanks in quotes there is a single space. Where it holds
one, no quote is open at the sign, and the line ends in that sign as a token of its own. -/
def KeepsLine (line word : List Char) : Prop :=
  match redirection? ((splitContext line).2 ++ word) with
  | none => SingleSpaces (marks (splitContext line).2)
  | some r =>
    Balanced ((splitContext line).1 ++ r.before) ∧
      tokens ((splitContext line).1 ++ r.before) ++ [r.sign.toList] = tokens line

instance (line word : List Char) : Decidable (KeepsLine line word) :=
  match hr : redirection? ((splitContext line).2 ++ word) with
  | none => decidable_of_iff (SingleSpaces (marks (splitContext line).2)) (by rw [KeepsLine, hr])
  | some r =>
    decidable_of_iff (Balanced ((splitContext line).1 ++ r.before) ∧
      tokens ((splitContext line).1 ++ r.before) ++ [r.sign.toList] = tokens line)
      (by rw [KeepsLine, hr])

variable {commands : List String} {s : Session} {line completion : String}

/-- Behind a redirection, the completion is put in place of its target. -/
theorem toList_apply_of_some {r : Redirection} (hsplit : splitContext line.toList = (before, text))
    (hr : redirection? text = some r) :
    (apply commands s line completion).toList
      = before ++ r.before ++ ' ' :: (r.sign.toList ++ ' ' :: completion.toList) := by
  rw [apply, hsplit]
  simp only [hr, String.toList_append, String.toList_ofList, List.append_assoc]
  rfl

/-- A text that ends in a bare word does not end in a space. -/
theorem endsInSpace_append (hword : BareWord word) (text : List Char) :
    endsInSpace (text ++ word) = false := by
  rw [endsInSpace, beq_eq_false_iff_ne, List.getLast?_append_of_ne_nil _ hword.nonempty]
  intro hlast
  have hblank := hword.not_blank ' ' (List.mem_of_getLast? hlast)
  rw [isBlank_space] at hblank
  cases hblank

/-- A line has one token more than another just where its characters have. -/
theorem tokenize_eq_concat_iff {line front word : String} :
    tokenize line = tokenize front ++ [word]
      ↔ tokens line.toList = tokens front.toList ++ [word.toList] := by
  have hword : [word] = [word.toList].map String.ofList := by
    rw [List.map_singleton, String.ofList_toList]
  rw [tokenize, tokenize, hword, ← List.map_append]
  exact List.map_inj_right fun _ _ heq => String.ofList_injective heq

/-- The characters of words that are joined with a completion behind them. -/
theorem toList_joinWith_concat (ws : List (List Char)) (completion : String) :
    (joinWith " " (ws.map String.ofList ++ [completion])).toList
      = [' '].intercalate (ws ++ [completion.toList]) := by
  rw [joinWith, String.toList_intercalate, List.map_append, List.map_map]
  simp [Function.comp_def]

/-- Where there is no redirection, the words of the text are joined again, the last of them
replaced. A blank at the end of the line makes no token. -/
theorem tokens_apply_of_none (hsplit : splitContext line.toList = (before, text ++ word))
    (hr : redirection? (text ++ word) = none) (hword : BareWord word) (hend : EndsApart text)
    (hbefore : Balanced before) (hcompletion : BareWord completion.toList) :
    tokens (apply commands s line completion).toList
      = tokens (before ++ [' '].intercalate (words (text ++ completion.toList))) := by
  have hlast (ws : List (List Char)) :
      ((ws ++ [word]).map String.ofList).dropLast = ws.map String.ofList := by
    rw [List.map_append, List.map_singleton, List.dropLast_concat]
  rw [apply, hsplit]
  simp only [hr, endsInSpace_append hword, hword.words_append hend, hcompletion.words_append hend]
  generalize words text = ws
  have hlength : ((ws ++ [word]).map String.ofList).length = ws.length + 1 := by simp
  have hnonempty : ((ws ++ [word]).map String.ofList).isEmpty = false := by simp
  rw [hlast, hlength, hnonempty]
  cases ws with
  | nil =>
    have hfirst : Balanced (before ++ completion.toList) := hbefore.append hcompletion.balanced
    simp only [List.length_nil, Nat.zero_add, decide_true, Bool.not_false, Bool.and_true,
      Bool.or_true, if_true, String.toList_append, String.toList_ofList, List.nil_append,
      List.intercalate_singleton]
    split
    · exact tokens_append_blanks hfirst (List.forall_mem_singleton.mpr isBlank_space)
    · rw [String.toList_empty, List.append_nil]
  | cons first rest =>
    have hmore : ¬ (first :: rest).length + 1 = 1 := by simp
    simp only [hmore, decide_false, Bool.false_and, Bool.or_false, Bool.false_eq_true, if_false,
      String.toList_append, String.toList_ofList, toList_joinWith_concat]

/-- A word is replaced by its completion, and all tokens before it stay as they are, just where the
line is kept. -/
theorem replaces_word_iff (commands : List String) (s : Session) {line word completion : String}
    (hline : Balanced line.toList) (hend : EndsApart line.toList) (hword : BareWord word.toList)
    (hop : ∀ c ∈ word.toList, c ∉ ['&', '|', ';']) (hcompletion : BareWord completion.toList) :
    tokenize (apply commands s (line ++ word) completion) = tokenize line ++ [completion] ↔
      KeepsLine line.toList word.toList := by
  obtain ⟨before, text, hcut, hsplit, hbefore, hstart, hword'⟩ := exists_splitContext line.toList
  have hsplit' : splitContext (line ++ word).toList = (before, text ++ word.toList) := by
    rw [String.toList_append]
    exact hword' word.toList hword hop
  have htext : EndsApart text := hend.of_suffix ⟨before, hcut.symm⟩
  rw [tokenize_eq_concat_iff, KeepsLine, hsplit]
  dsimp only
  cases hr : redirection? (text ++ word.toList) with
  | none =>
    have hbalanced : Balanced (before ++ (text ++ completion.toList)) := by
      rw [← List.append_assoc, ← hcut]
      exact hline.append hcompletion.balanced
    have hstart' : before = [] ∨
        trimStart (text ++ completion.toList) = text ++ completion.toList :=
      hstart.imp_right hcompletion.trimStart_append
    rw [tokens_apply_of_none hsplit' hr hword htext hbefore hcompletion,
      ← hcompletion.tokens_append hline hend, hcut, List.append_assoc,
      tokens_join_words_iff hstart' hbalanced, hbefore, hcompletion.singleSpaces_append_iff, marks]
  | some r =>
    rw [toList_apply_of_some hsplit' hr, tokens_append_two_iff (bareWord_sign hr) hcompletion]

/-- Quoted blanks and an operator before a redirection, whose target is completed. -/
theorem replaces_target_behind_quotes :
    (Balanced "ls && cat 'a b' > ".toList ∧ EndsApart "ls && cat 'a b' > ".toList ∧
      BareWord "no".toList ∧ (∀ c ∈ "no".toList, c ∉ ['&', '|', ';']) ∧
      BareWord "notes".toList) ∧
    KeepsLine "ls && cat 'a b' > ".toList "no".toList ∧
    tokenize (apply Builtin.names noteSession ("ls && cat 'a b' > " ++ "no") "notes")
      = tokenize "ls && cat 'a b' > " ++ ["notes"] := by
  have hline : Balanced "ls && cat 'a b' > ".toList := by decide +kernel
  have hend : EndsApart "ls && cat 'a b' > ".toList := by decide +kernel
  have hword : BareWord "no".toList := by decide
  have hop : ∀ c ∈ "no".toList, c ∉ ['&', '|', ';'] := by simp
  have hcompletion : BareWord "notes".toList := by decide
  have hkeeps : KeepsLine "ls && cat 'a b' > ".toList "no".toList := by decide +kernel
  exact ⟨⟨hline, hend, hword, hop, hcompletion⟩, hkeeps,
    (replaces_word_iff _ _ hline hend hword hop hcompletion).mpr hkeeps⟩

/-- Two blanks in quotes become one when a later word is completed. -/
theorem quoted_blanks_lost_by_completion :
    (Balanced "echo 'a  b' ".toList ∧ EndsApart "echo 'a  b' ".toList ∧ BareWord "x".toList ∧
      (∀ c ∈ "x".toList, c ∉ ['&', '|', ';', '<', '>']) ∧ BareWord "y".toList) ∧
    tokenize "echo 'a  b' " ++ ["y"] = ["echo", "a  b", "y"] ∧
    tokenize (apply Builtin.names noteSession ("echo 'a  b' " ++ "x") "y")
      = ["echo", "a b", "y"] := by
  have hop : ∀ c ∈ "x".toList, c ∉ ['&', '|', ';', '<', '>'] := by simp
  refine ⟨⟨?_, ?_, ?_, hop, ?_⟩, ?_, ?_⟩ <;> decide +kernel

end Completion

end VirtualShell
