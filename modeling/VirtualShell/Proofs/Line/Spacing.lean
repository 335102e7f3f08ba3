import VirtualShell.Proofs.Line.Chain
import VirtualShell.Proofs.Text.Runs

/-!
# Blanks between words and blanks in quotes

Blanks between words may be written in any way, but blanks in quotes belong to a token. Here the
words of a text, cut at blanks of either kind, are joined again with one space between them
(`squeeze`). The tokens stay the same just where every run of blanks in quotes is a single space
(`tokens_squeeze_iff`): of any other run some blank is lost or replaced, and the characters that the
tokens show taken together (`visible`) are no longer the same.
-/

namespace VirtualShell.Line

open Text

variable {quote : Option Char} {c q : Char} {cs front rest word : List Char}

/-- What is open behind a text is a quote. -/
theorem isQuote_of_open (h : openAfter none front = some q) : isQuote q = true :=
  isQuote_of_openAfter isQuote_of_mem_none front q h

/-! ## Bare words -/

/-- A text that is one word wherever blanks stand around it. -/
structure BareWord (word : List Char) : Prop where
  nonempty : word ≠ []
  not_blank : ∀ c ∈ word, isBlank c = false
  not_quote : ∀ c ∈ word, isQuote c = false

instance (word : List Char) : Decidable (BareWord word) :=
  decidable_of_iff (word ≠ [] ∧ word.all (!isBlank ·) ∧ word.all (!isQuote ·)) <| by
    simp only [List.all_eq_true, Bool.not_eq_true']
    exact ⟨fun ⟨hne, hblank, hquote⟩ => ⟨hne, hblank, hquote⟩,
      fun ⟨hne, hblank, hquote⟩ => ⟨hne, hblank, hquote⟩⟩

/-- A bare word is balanced. -/
theorem BareWord.balanced (h : BareWord word) : Balanced word :=
  (scan_of_not_quote isQuote_of_mem_none h.not_quote).1

/-- A bare word is a single token. -/
theorem BareWord.tokens_eq (h : BareWord word) : tokens word = [word] := by
  have hmarks : marks word = word.map fun c => (c, markIn none) :=
    (scan_of_not_quote isQuote_of_mem_none h.not_quote).2
  have hgap : ∀ m ∈ marks word, isGap m = false := by
    rw [hmarks]
    intro m hm
    obtain ⟨c, hc, rfl⟩ := List.mem_map.mp hm
    rw [isGap, h.not_blank c hc, Bool.false_and]
  rw [tokens_of_not_gap hgap, hmarks, kept_map_markIn]
  simpa using h.nonempty

/-- A text is empty, or a space at its end parts it from what follows. -/
def EndsApart (cs : List Char) : Prop :=
  cs = [] ∨ cs.getLast? = some ' '

instance : DecidablePred EndsApart := fun cs =>
  inferInstanceAs (Decidable (cs = [] ∨ cs.getLast? = some ' '))

/-- The end of a text that ends apart does so as well. -/
theorem EndsApart.of_suffix (h : EndsApart cs) (hrest : rest <:+ cs) : EndsApart rest := by
  obtain ⟨front, rfl⟩ := hrest
  cases rest with
  | nil => exact .inl rfl
  | cons c rest =>
    rcases h with hnil | hlast
    · simp at hnil
    · refine .inr ?_
      rwa [List.getLast?_append_of_ne_nil _ (List.cons_ne_nil c rest)] at hlast

/-- A blank behind a text changes nothing about the quote that is open. -/
theorem openAfter_append_blank (hc : isBlank c = true) (front : List Char) :
    openAfter none (front ++ [c]) = openAfter none front := by
  rw [openAfter_append, openAfter_blanks (isQuote_of_openAfter isQuote_of_mem_none front)
    (List.forall_mem_singleton.mpr hc)]

/-- Behind a blank, a bare word is a token of its own. -/
theorem BareWord.tokens_append (h : BareWord word) (hbalanced : Balanced cs) (hend : EndsApart cs) :
    tokens (cs ++ word) = tokens cs ++ [word] := by
  rcases hend with rfl | hlast
  · rw [List.nil_append, h.tokens_eq, tokens_nil, List.nil_append]
  · obtain ⟨front, rfl⟩ := List.getLast?_eq_some_iff.mp hlast
    have hfront : Balanced front := by
      rwa [Balanced, openAfter_append_blank isBlank_space] at hbalanced
    rw [List.append_assoc, List.singleton_append, tokens_append_blank hfront isBlank_space,
      h.tokens_eq, tokens_append_blanks hfront (List.forall_mem_singleton.mpr isBlank_space)]

/-! ## What the tokens show -/

/-- The characters of a text that its tokens show, where `quote` is open before it: all but the
quotes that delimit and the blanks that end a token. -/
def visible (quote : Option Char) (cs : List Char) : List Char :=
  kept ((marksFrom quote cs).filter fun m => !isGap m)

/-- What is visible of two texts is visible of one after the other. -/
theorem visible_append (quote : Option Char) (xs ys : List Char) :
    visible quote (xs ++ ys) = visible quote xs ++ visible (openAfter quote xs) ys := by
  rw [visible, marksFrom_append, List.filter_append, kept_append]
  rfl

/-- A blank outside the quotes is not visible. -/
theorem visible_cons_blank_none (hc : isBlank c = true) (cs : List Char) :
    visible none (c :: cs) = visible none cs := by
  have hgap : isGap (c, .plain) = true := by
    rw [isGap, hc]
    rfl
  have hmarks := marks_cons_blank hc cs
  rw [marks] at hmarks
  rw [visible, hmarks, List.filter_cons_of_neg (by simp [hgap])]
  rfl

/-- A blank inside the quotes is. -/
theorem visible_cons_blank_some (hq : isQuote q = true) (hc : isBlank c = true) (cs : List Char) :
    visible (some q) (c :: cs) = c :: visible (some q) cs := by
  rw [visible, (scan_cons_of_not_quote (isQuote_of_mem_some hq) (isQuote_of_isBlank hc) cs).2,
    markIn, List.filter_cons_of_pos (by simp [isGap])]
  rfl

/-- The tokens taken together are what is visible of the text. -/
theorem flatten_tokens (cs : List Char) : (tokens cs).flatten = visible none cs := by
  have hflat := flatten_splitOnP isGap (marks cs)
  rw [tokens_eq_marks, List.flatten_filter_not_isEmpty, visible, ← marks, ← hflat, kept,
    List.filter_flatten, List.map_flatten, List.map_map]
  rfl

/-! ## Behind an open quote -/

/-- Behind a quote that is open, everything up to the next quote belongs to the last token. -/
theorem exists_tokens_append_of_open (hopen : openAfter none front = some q) (hne : cs ≠ [])
    (hcs : ∀ c ∈ cs, isQuote c = false) :
    ∃ ts last, tokens (front ++ cs) = ts ++ [last ++ cs] := by
  have hmarks : marksFrom (some q) cs = cs.map fun c => (c, markIn (some q)) :=
    (scan_of_not_quote (isQuote_of_mem_some (isQuote_of_open hopen)) hcs).2
  have hgap : ∀ m ∈ cs.map fun c => (c, markIn (some q)), isGap m = false := by
    intro m hm
    obtain ⟨c, -, rfl⟩ := List.mem_map.mp hm
    exact Bool.and_false _
  obtain ⟨runs, last, hsplit⟩ := exists_splitOnP_append isGap (marks front)
  have hsplit := hsplit _ hgap
  have hlast : [kept last ++ cs].filter (fun token => !token.isEmpty) = [kept last ++ cs] := by
    simp [hne]
  refine ⟨(runs.map kept).filter fun token => !token.isEmpty, kept last, ?_⟩
  rw [tokens_eq_marks, marks, marksFrom_append, hopen, hmarks, ← marks, hsplit]
  rw [List.map_append, List.map_singleton, kept_append, kept_map_markIn, List.filter_append, hlast]

/-- Behind a text and a bare word between blanks, another bare word is a token of its own just where
no quote is open. -/
theorem tokens_append_two_iff {sign : List Char} (hsign : BareWord sign) (hword : BareWord word)
    (ts : List (List Char)) :
    tokens (front ++ ' ' :: (sign ++ ' ' :: word)) = ts ++ [word] ↔
      Balanced front ∧ tokens front ++ [sign] = ts := by
  cases hopen : openAfter none front with
  | none =>
    rw [tokens_append_blank hopen isBlank_space, tokens_append_blank hsign.balanced isBlank_space,
      hsign.tokens_eq, hword.tokens_eq, ← List.append_assoc, List.append_cancel_right_eq]
    exact (and_iff_right hopen).symm
  | some q =>
    refine iff_of_false (fun htokens => ?_) fun hbalanced => ?_
    · have hquote : ∀ c ∈ ' ' :: (sign ++ ' ' :: word), isQuote c = false := by
        have hspace : isQuote ' ' = false := isQuote_of_isBlank isBlank_space
        simp only [List.forall_mem_cons, List.forall_mem_append]
        exact ⟨hspace, hsign.not_quote, hspace, hword.not_quote⟩
      obtain ⟨front', last, hlast⟩ :=
        exists_tokens_append_of_open hopen (List.cons_ne_nil _ _) hquote
      rw [htokens, List.append_singleton_inj] at hlast
      have hlength := congrArg List.length hlast.2
      simp only [List.length_append, List.length_cons] at hlength
      omega
    · rw [Balanced, hopen] at hbalanced
      cases hbalanced.1

/-! ## Single spaces -/

/-- Whether a text starts with a character that is no blank. -/
def startsWord : List Char → Bool
  | [] => false
  | c :: _ => !isBlank c

/-- The text with a single space for every run of blanks that a word follows, and without the blanks
at its end. -/
def squeeze : List Char → List Char
  | [] => []
  | c :: rest =>
    if isBlank c then
      if startsWord rest then ' ' :: squeeze rest else squeeze rest
    else c :: squeeze rest

/-- A blank in quotes, which belongs to a token. -/
abbrev QuotedBlank (m : Char × Mark) : Prop :=
  isBlank m.1 = true ∧ m.2 = .quoted

/-- Each run of blanks in quotes is a single space. -/
def SingleSpaces : List (Char × Mark) → Prop
  | [] => True
  | m :: ms =>
    (QuotedBlank m → m.1 = ' ' ∧ ∀ n ∈ ms.head?, ¬ QuotedBlank n) ∧ SingleSpaces ms

instance SingleSpaces.decidable : DecidablePred SingleSpaces
  | [] => .isTrue trivial
  | _ :: ms =>
    have : Decidable (SingleSpaces ms) := SingleSpaces.decidable ms
    inferInstanceAs (Decidable (_ ∧ _))

/-- A character that is no quoted blank says nothing about single spaces. -/
theorem singleSpaces_cons_of_not {m : Char × Mark} (h : ¬ QuotedBlank m)
    (ms : List (Char × Mark)) : SingleSpaces (m :: ms) ↔ SingleSpaces ms := by
  rw [SingleSpaces, and_iff_right]
  exact fun hm => absurd hm h

/-- Without a blank in quotes, what follows makes no difference. -/
theorem singleSpaces_append_iff {ns : List (Char × Mark)}
    (hns : ∀ n ∈ ns, ¬ QuotedBlank n) (ms : List (Char × Mark)) :
    SingleSpaces (ms ++ ns) ↔ SingleSpaces ms := by
  induction ms with
  | nil =>
    refine iff_of_true ?_ trivial
    induction ns with
    | nil => exact trivial
    | cons n ns ih =>
      obtain ⟨hn, hns⟩ := List.forall_mem_cons.mp hns
      exact (singleSpaces_cons_of_not hn ns).mpr (ih hns)
  | cons m ms ih =>
    rw [List.cons_append, SingleSpaces, SingleSpaces, ih]
    cases ms with
    | nil =>
      have hhead : ∀ n ∈ ns.head?, ¬ QuotedBlank n :=
        fun n hn => hns n (List.mem_of_mem_head? hn)
      refine and_congr_left fun _ => forall_congr' fun _ => and_congr_right fun _ => ?_
      exact iff_of_true hhead nofun
    | cons n ms => rfl

/-- A bare word behind a text holds no quoted blank. -/
theorem BareWord.singleSpaces_append_iff (h : BareWord word) (quote : Option Char)
    (cs : List Char) :
    SingleSpaces (marksFrom quote (cs ++ word)) ↔ SingleSpaces (marksFrom quote cs) := by
  rw [marksFrom_append]
  refine Line.singleSpaces_append_iff (fun n hn hblank => ?_) _
  have hword := h.not_blank n.1 (fst_mem_of_mem_marksFrom hn)
  rw [hblank.1] at hword
  cases hword

/-- A blank outside the quotes says nothing about single spaces. -/
theorem singleSpaces_marks_cons_blank (hc : isBlank c = true) (cs : List Char) :
    SingleSpaces (marks (c :: cs)) ↔ SingleSpaces (marks cs) := by
  rw [marks_cons_blank hc, singleSpaces_cons_of_not (by simp)]

/-- A blank in quotes is a single space if it is one and a word goes on behind it. -/
theorem singleSpaces_cons_blank_iff (hq : isQuote q = true) (hc : isBlank c = true)
    (hclosed : openAfter (some q) rest = none) :
    SingleSpaces (marksFrom (some q) (c :: rest)) ↔
      (startsWord rest = true ∧ c = ' ') ∧ SingleSpaces (marksFrom (some q) rest) := by
  have hquote := isQuote_of_mem_some hq
  rw [(scan_cons_of_not_quote hquote (isQuote_of_isBlank hc) rest).2, SingleSpaces]
  refine and_congr_left fun _ => ?_
  cases rest with
  | nil => cases hclosed
  | cons d rest =>
    have hmark := marksFrom_cons (some q) d
    have hquoted : isBlank d = true → markBehind (some q) d = .quoted := by
      intro hd
      have hscan := (scan_cons_of_not_quote hquote (isQuote_of_isBlank hd) rest).2
      rw [hmark] at hscan
      exact congrArg Prod.snd (List.head_eq_of_cons_eq hscan)
    rw [hmark]
    simp only [QuotedBlank, hc, markIn, startsWord, List.head?_cons, Option.mem_def,
      Option.some.injEq, forall_eq', Bool.not_eq_true', true_and, true_imp_iff, not_and]
    rw [and_comm]
    refine and_congr_left fun _ => ⟨fun hnot => ?_, fun hd hblank => ?_⟩
    · exact Bool.eq_false_iff.mpr fun hd => hnot hd (hquoted hd)
    · rw [hd] at hblank
      cases hblank

/-- Squeezing blanks makes no more of a text visible. -/
theorem length_visible_squeeze_le (hquote : ∀ q ∈ quote, isQuote q = true) (cs : List Char) :
    (visible quote (squeeze cs)).length ≤ (visible quote cs).length := by
  induction cs generalizing quote with
  | nil => exact Nat.le_refl _
  | cons c rest ih =>
    rw [squeeze]
    split
    · rename_i hc
      have hrest := ih hquote
      cases quote with
      | none =>
        rw [visible_cons_blank_none hc]
        split
        · rw [visible_cons_blank_none isBlank_space]
          exact hrest
        · exact hrest
      | some q =>
        have hq := hquote q rfl
        rw [visible_cons_blank_some hq hc, List.length_cons]
        split
        · rw [visible_cons_blank_some hq isBlank_space, List.length_cons]
          omega
        · omega
    · rw [← List.singleton_append, visible_append, ← List.singleton_append (l := rest),
        visible_append, List.length_append, List.length_append]
      exact Nat.add_le_add_left (ih (isQuote_of_openAfter hquote [c])) _

/-- A text that starts with no word adds its tokens behind a balanced one. -/
theorem tokens_append_of_not_word (hfront : Balanced front)
    (hrest : startsWord rest = false) :
    tokens (front ++ rest) = tokens front ++ tokens rest := by
  cases rest with
  | nil => rw [List.append_nil, tokens_nil, List.append_nil]
  | cons c rest =>
    have hc : isBlank c = true := by simpa [startsWord] using hrest
    rw [tokens_append_blank hfront hc, tokens_cons_blank hc]

/-- Blanks in quotes behind the first one do not come back, nor does another blank than a space. -/
theorem tokens_squeeze_ne_of_open (hopen : openAfter none front = some q) (hc : isBlank c = true)
    (h : startsWord rest = true → c ≠ ' ') :
    tokens (front ++ squeeze (c :: rest)) ≠ tokens (front ++ c :: rest) := by
  intro htokens
  have hq := isQuote_of_open hopen
  have hvisible : visible (some q) (squeeze (c :: rest)) = c :: visible (some q) rest := by
    have hall := congrArg List.flatten htokens
    rw [flatten_tokens, flatten_tokens, visible_append, visible_append, hopen] at hall
    rw [List.append_cancel_left hall, visible_cons_blank_some hq hc]
  rw [squeeze, if_pos hc] at hvisible
  split at hvisible
  · rename_i hword
    rw [visible_cons_blank_some hq isBlank_space] at hvisible
    exact h hword (List.head_eq_of_cons_eq hvisible).symm
  · have hle := length_visible_squeeze_le (isQuote_of_mem_some hq) rest
    rw [hvisible, List.length_cons] at hle
    omega

/-- With single spaces between its words, a text keeps its tokens just where every run of blanks in
quotes is a single space. -/
theorem tokens_squeeze_iff (h : Balanced (front ++ cs)) :
    tokens (front ++ squeeze cs) = tokens (front ++ cs) ↔
      SingleSpaces (marksFrom (openAfter none front) cs) := by
  induction cs generalizing front with
  | nil => exact iff_of_true rfl trivial
  | cons c rest ih =>
    have hmark := marksFrom_cons (openAfter none front) c
    have hbalanced : Balanced ((front ++ [c]) ++ rest) := by rwa [List.append_assoc]
    have hnext := ih hbalanced
    rw [List.append_assoc, List.append_assoc, List.singleton_append, List.singleton_append,
      openAfter_append] at hnext
    by_cases hc : isBlank c = true
    · have hsame : openAfter (openAfter none front) [c] = openAfter none front := by
        rw [← openAfter_append, openAfter_append_blank hc]
      have hfront : Balanced (front ++ rest) := by
        rwa [Balanced, openAfter_append, openAfter_append_blank hc, ← openAfter_append] at hbalanced
      cases hopen : openAfter none front with
      -- Outside the quotes a blank ends a token, so that one of a run is enough.
      | none =>
        have hrest : Balanced ([] ++ rest) := by
          rwa [Balanced, openAfter_append, hopen] at hfront
        rw [← marks, singleSpaces_marks_cons_blank hc, squeeze, if_pos hc,
          tokens_append_blank hopen hc]
        split
        · rw [tokens_append_blank hopen isBlank_space, List.append_cancel_left_eq]
          exact ih hrest
        · rename_i hword
          have hiff := ih hfront
          rwa [tokens_append_of_not_word hopen (Bool.eq_false_iff.mpr hword), hopen] at hiff
      -- In quotes a blank comes back as a space if a word follows, and is lost otherwise.
      | some q =>
        have hclosed : openAfter (some q) rest = none := by
          rwa [Balanced, openAfter_append, hopen] at hfront
        rw [singleSpaces_cons_blank_iff (isQuote_of_open hopen) hc hclosed]
        by_cases hone : startsWord rest = true ∧ c = ' '
        · rw [and_iff_right hone]
          obtain ⟨hword, rfl⟩ := hone
          rw [hsame, hopen] at hnext
          rwa [squeeze, if_pos hc, if_pos hword]
        · refine iff_of_false ?_ fun hsingle => hone hsingle.1
          exact tokens_squeeze_ne_of_open hopen hc fun hword hspace => hone ⟨hword, hspace⟩
    · have hplain : ¬ QuotedBlank (c, markBehind (openAfter none front) c) := fun hm => hc hm.1
      rw [hmark, squeeze, if_neg hc, singleSpaces_cons_of_not hplain]
      exact hnext

/-! ## Words joined again -/

/-- A blank cuts the words in two. -/
theorem words_append_blank (hc : isBlank c = true) (xs ys : List Char) :
    words (xs ++ c :: ys) = words xs ++ words ys := by
  rw [words, List.splitOnP_append_cons _ _ hc, List.filter_append]
  rfl

/-- A blank in front of a text makes no difference to its words. -/
theorem words_cons_blank (hc : isBlank c = true) (cs : List Char) : words (c :: cs) = words cs :=
  words_append_blank hc [] cs

/-- A bare word is a single word. -/
theorem BareWord.words_eq (h : BareWord word) : words word = [word] := by
  rw [words, List.splitOnP_eq_singleton h.not_blank]
  simpa using h.nonempty

/-- Behind a blank, a bare word is a word of its own. -/
theorem BareWord.words_append (h : BareWord word) (hend : EndsApart cs) :
    words (cs ++ word) = words cs ++ [word] := by
  rcases hend with rfl | hlast
  · rw [List.nil_append, h.words_eq]
    rfl
  · obtain ⟨front, rfl⟩ := List.getLast?_eq_some_iff.mp hlast
    rw [List.append_assoc, List.singleton_append, words_append_blank isBlank_space, h.words_eq,
      words_append_blank isBlank_space]
    simp [words]

/-- A bare word behind a trimmed text leaves its start as it is. -/
theorem BareWord.trimStart_append (h : BareWord word) (hcs : trimStart cs = cs) :
    trimStart (cs ++ word) = cs ++ word := by
  rw [trimStart_eq_self_iff] at hcs ⊢
  cases cs with
  | nil => exact fun c hc => h.not_blank c (List.mem_of_mem_head? hc)
  | cons c rest => exact hcs

/-- A character in front of no word is a word of its own. -/
theorem words_cons_of_not_word (hc : isBlank c = false) (h : startsWord rest = false) :
    words (c :: rest) = [c] :: words rest := by
  have hone : words [c] = [[c]] := by
    rw [words, List.splitOnP_eq_singleton (List.forall_mem_singleton.mpr hc)]
    rfl
  cases rest with
  | nil => exact hone
  | cons b rest =>
    have hb : isBlank b = true := by simpa [startsWord] using h
    rw [← List.singleton_append, words_append_blank hb, hone, words_cons_blank hb]
    rfl

/-- A character in front of a word belongs to that word. -/
theorem exists_words_of_word (h : startsWord rest = true) :
    ∃ first ws, words rest = first :: ws ∧
      ∀ c, isBlank c = false → words (c :: rest) = (c :: first) :: ws := by
  cases rest with
  | nil => cases h
  | cons d rest =>
    have hd : ¬ isBlank d = true := by simpa [startsWord] using h
    obtain ⟨run, runs, hruns⟩ := List.exists_cons_of_ne_nil (List.splitOnP_ne_nil isBlank rest)
    have hcons : (d :: rest).splitOnP isBlank = (d :: run) :: runs := by
      rw [List.splitOnP_cons_eq_if_modifyHead, if_neg hd, hruns]
      rfl
    refine ⟨d :: run, runs.filter fun w => !w.isEmpty, ?_, fun c hc => ?_⟩
    · rw [words, hcons]
      rfl
    · rw [words, List.splitOnP_cons_eq_if_modifyHead, if_neg (Bool.eq_false_iff.mp hc), hcons]
      rfl

/-- A text with single spaces is its words with a space between them, and with one before the first
if there are blanks before it. -/
theorem squeeze_eq (cs : List Char) :
    squeeze cs = if startsWord cs || (words cs).isEmpty then [' '].intercalate (words cs)
      else ' ' :: [' '].intercalate (words cs) := by
  induction cs with
  | nil => rfl
  | cons c rest ih =>
    rw [squeeze, startsWord, ih]
    by_cases hc : isBlank c = true <;> by_cases hword : startsWord rest = true
    · obtain ⟨first, ws, hrest, -⟩ := exists_words_of_word hword
      simp [words_cons_blank hc, hc, hword, hrest]
    · simp [words_cons_blank hc, hc, hword]
    · rw [Bool.not_eq_true] at hc
      obtain ⟨first, ws, hrest, hcons⟩ := exists_words_of_word hword
      rw [hcons c hc, hrest]
      cases ws <;> simp [hc, hword]
    · rw [Bool.not_eq_true] at hc hword
      rw [words_cons_of_not_word hc hword]
      cases words rest <;> simp [hc, hword]

/-- The words of a text with a space between them make the same tokens just where every run of
blanks in quotes is a single space. -/
theorem tokens_join_words_iff (hstart : front = [] ∨ trimStart cs = cs)
    (h : Balanced (front ++ cs)) :
    tokens (front ++ [' '].intercalate (words cs)) = tokens (front ++ cs) ↔
      SingleSpaces (marksFrom (openAfter none front) cs) := by
  have hsame : tokens (front ++ squeeze cs) = tokens (front ++ [' '].intercalate (words cs)) := by
    rw [squeeze_eq]
    split
    · rfl
    · rename_i hblank
      rcases hstart with rfl | htrim
      · exact tokens_cons_blank isBlank_space _
      · cases cs with
        | nil => exact absurd rfl hblank
        | cons c rest =>
          have hc : isBlank c = false := trimStart_eq_self_iff.mp htrim c rfl
          simp [startsWord, hc] at hblank
  rw [← hsame, tokens_squeeze_iff h]

end VirtualShell.Line
