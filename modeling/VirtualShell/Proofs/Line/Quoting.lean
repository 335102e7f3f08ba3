import VirtualShell.Alias.Definition
import VirtualShell.Proofs.Line.Marks
import VirtualShell.Proofs.Text.Blank
import Mathlib.Data.List.Forall2

/-!
# What quotes keep together

A text is balanced where every quote in it is closed. What stands behind a balanced text is marked
as if it stood alone (`marks_append`), so a blank behind a balanced text cuts the tokens in two
(`tokens_append_blank`), and nothing else about the recursion of the marks is needed to put lines
together.

A word spells a text if it is balanced, shows no character with a meaning outside its quotes, and is
that text without its quotes (`Spells`). Every argument is spelled by its quoted form
(`spells_quoteArgument`). A line of words that spell texts is read as a single command, whose tokens
are the texts, all but the empty ones (`parse_spelledLine`). So behind a word that needs no quotes,
arguments that are not empty are read as they were before they were quoted
(`reads_quoted_arguments`).
-/

namespace VirtualShell

/-- A text without characters that have a meaning is its own quoted form. -/
theorem Alias.quoteArgument_of_plain {text : String}
    (h : ∀ c ∈ text.toList, needsQuotes c = false) : quoteArgument text = text := by
  rw [quoteArgument, if_neg]
  rw [Bool.not_eq_true, List.any_eq_false]
  exact fun c hc => Bool.eq_false_iff.mp (h c hc)

namespace Line

open Text

/-! ## Balanced texts -/

/-- The quote that is open behind a text, where `quote` is the one that is open before it. -/
def openAfter : Option Char → List Char → Option Char
  | quote, [] => quote
  | some q, c :: rest => if c = q then openAfter none rest else openAfter (some q) rest
  | none, c :: rest => if isQuote c then openAfter (some c) rest else openAfter none rest

/-- Every quote of the text is closed. -/
def Balanced (cs : List Char) : Prop :=
  openAfter none cs = none

instance : DecidablePred Balanced := fun cs =>
  inferInstanceAs (Decidable (openAfter none cs = none))

theorem balanced_nil : Balanced [] := by
  rw [Balanced, openAfter]

/-- The quote that is open behind two texts is found in one after the other. -/
theorem openAfter_append (quote : Option Char) (xs ys : List Char) :
    openAfter quote (xs ++ ys) = openAfter (openAfter quote xs) ys := by
  fun_induction openAfter quote xs with
  | case1 quote => rfl
  | case2 q rest ih => rw [List.cons_append, openAfter, if_pos rfl, ih]
  | case3 q c rest hc ih => rw [List.cons_append, openAfter, if_neg hc, ih]
  | case4 c rest hc ih => rw [List.cons_append, openAfter, if_pos hc, ih]
  | case5 c rest hc ih => rw [List.cons_append, openAfter, if_neg hc, ih]

/-- Without its marks, a marked text is the text. -/
theorem map_fst_marksFrom (quote : Option Char) (cs : List Char) :
    (marksFrom quote cs).map Prod.fst = cs := by
  fun_induction marksFrom quote cs with
  | case1 => rfl
  | case2 _ _ ih | case3 _ _ _ _ ih | case4 _ _ _ ih | case5 _ _ _ ih => rw [List.map_cons, ih]

/-- A marked character is one of the text. -/
theorem fst_mem_of_mem_marksFrom {quote : Option Char} {cs : List Char} {m : Char × Mark}
    (h : m ∈ marksFrom quote cs) : m.1 ∈ cs := by
  have hfst : m.1 ∈ (marksFrom quote cs).map Prod.fst := List.mem_map_of_mem h
  rwa [map_fst_marksFrom] at hfst

/-- The marks of a text depend on what stands before it only through the quote that is open. -/
theorem marksFrom_append (quote : Option Char) (xs ys : List Char) :
    marksFrom quote (xs ++ ys) = marksFrom quote xs ++ marksFrom (openAfter quote xs) ys := by
  fun_induction openAfter quote xs with
  | case1 quote => cases quote <;> rfl
  | case2 q rest ih => simp only [List.cons_append, marksFrom, if_true, ih]
  | case3 q c rest hc ih => simp only [List.cons_append, marksFrom, if_neg hc, ih]
  | case4 c rest hc ih => simp only [List.cons_append, marksFrom, if_pos hc, ih]
  | case5 c rest hc ih => simp only [List.cons_append, marksFrom, if_neg hc, ih]

/-- How a character is marked where `quote` is the quote that is open before it. -/
def markBehind : Option Char → Char → Mark
  | some q, c => if c = q then .delimiter else .quoted
  | none, c => if isQuote c then .delimiter else .plain

/-- The marks of a text, one character at a time. -/
theorem marksFrom_cons (quote : Option Char) (c : Char) (cs : List Char) :
    marksFrom quote (c :: cs) = (c, markBehind quote c) :: marksFrom (openAfter quote [c]) cs := by
  have hone : marksFrom quote [c] = [(c, markBehind quote c)] := by
    cases quote with
    | none | some q =>
      rw [marksFrom, markBehind]
      split <;> rfl
  rw [← List.singleton_append, marksFrom_append, hone, List.singleton_append]

/-- Behind a balanced text, a text is marked as if it stood alone. -/
theorem marks_append {xs : List Char} (h : Balanced xs) (ys : List Char) :
    marks (xs ++ ys) = marks xs ++ marks ys := by
  rw [marks, marksFrom_append, h]
  rfl

/-- Balanced texts side by side are balanced. -/
theorem Balanced.append {xs ys : List Char} (hx : Balanced xs) (hy : Balanced ys) :
    Balanced (xs ++ ys) := by
  rw [Balanced, openAfter_append, hx]
  exact hy

theorem isQuote_of_mem_none : ∀ q ∈ (none : Option Char), isQuote q = true :=
  nofun

theorem isQuote_of_mem_some {c : Char} (h : isQuote c = true) :
    ∀ q ∈ some c, isQuote q = true := by
  rintro q ⟨⟩
  exact h

/-- Only a quote can be open. -/
theorem isQuote_of_openAfter {quote : Option Char} (hquote : ∀ q ∈ quote, isQuote q = true)
    (cs : List Char) : ∀ q ∈ openAfter quote cs, isQuote q = true := by
  fun_induction openAfter quote cs with
  | case1 quote => exact hquote
  | case2 q rest ih => exact ih isQuote_of_mem_none
  | case3 q c rest hc ih => exact ih hquote
  | case4 c rest hc ih => exact ih (isQuote_of_mem_some hc)
  | case5 c rest hc ih => exact ih isQuote_of_mem_none

/-! ## Texts without quotes -/

/-- How a character that is no quote is marked. -/
def markIn : Option Char → Mark
  | none => .plain
  | some _ => .quoted

/-- A character that is no quote neither opens nor closes one. -/
theorem scan_cons_of_not_quote {quote : Option Char} (hquote : ∀ q ∈ quote, isQuote q = true)
    {c : Char} (hc : isQuote c = false) (cs : List Char) :
    openAfter quote (c :: cs) = openAfter quote cs ∧
      marksFrom quote (c :: cs) = (c, markIn quote) :: marksFrom quote cs := by
  cases quote with
  | none =>
    have hnot := Bool.eq_false_iff.mp hc
    rw [openAfter, if_neg hnot, marksFrom, if_neg hnot]
    exact ⟨rfl, rfl⟩
  | some q =>
    have hne : c ≠ q := by
      rintro rfl
      rw [hquote c rfl] at hc
      cases hc
    rw [openAfter, if_neg hne, marksFrom, if_neg hne]
    exact ⟨rfl, rfl⟩

/-- All characters of a text without quotes are marked alike. -/
theorem scan_of_not_quote {quote : Option Char} (hquote : ∀ q ∈ quote, isQuote q = true)
    {cs : List Char} (h : ∀ c ∈ cs, isQuote c = false) :
    openAfter quote cs = quote ∧ marksFrom quote cs = cs.map fun c => (c, markIn quote) := by
  induction cs with
  | nil =>
    rw [openAfter, marksFrom]
    exact ⟨rfl, rfl⟩
  | cons c cs ih =>
    obtain ⟨hc, hcs⟩ := List.forall_mem_cons.mp h
    obtain ⟨hopen, hmarks⟩ := scan_cons_of_not_quote hquote hc cs
    obtain ⟨ihopen, ihmarks⟩ := ih hcs
    rw [hopen, hmarks, ihopen, ihmarks, List.map_cons]
    exact ⟨rfl, rfl⟩

/-! ## Blanks -/

theorem isBlank_space : isBlank ' ' = true := by
  decide

/-- A blank is no quote. -/
theorem isQuote_of_isBlank {c : Char} (h : isBlank c = true) : isQuote c = false := by
  rw [isQuote, Bool.or_eq_false_iff, beq_eq_false_iff_ne, beq_eq_false_iff_ne]
  constructor <;> rintro rfl <;> exact absurd h (by decide)

/-- A blank in front of a text stands outside the quotes and changes no mark behind it. -/
theorem marks_cons_blank {c : Char} (h : isBlank c = true) (cs : List Char) :
    marks (c :: cs) = (c, .plain) :: marks cs :=
  (scan_cons_of_not_quote isQuote_of_mem_none (isQuote_of_isBlank h) cs).2

/-- Blanks neither open nor close a quote. -/
theorem openAfter_blanks {quote : Option Char} (hquote : ∀ q ∈ quote, isQuote q = true)
    {bs : List Char} (h : ∀ c ∈ bs, isBlank c = true) : openAfter quote bs = quote :=
  (scan_of_not_quote hquote fun c hc => isQuote_of_isBlank (h c hc)).1

/-- A blank is a balanced text. -/
theorem balanced_singleton_blank {c : Char} (h : isBlank c = true) : Balanced [c] :=
  openAfter_blanks isQuote_of_mem_none (List.forall_mem_singleton.mpr h)

/-! ## Tokens -/

/-- What is kept of marked characters side by side. -/
theorem kept_append (ms ns : List (Char × Mark)) : kept (ms ++ ns) = kept ms ++ kept ns := by
  rw [kept, List.filter_append, List.map_append]
  rfl

/-- Characters that are marked alike, and do not delimit, are all kept. -/
theorem kept_map_markIn (quote : Option Char) (cs : List Char) :
    kept (cs.map fun c => (c, markIn quote)) = cs := by
  have hmark : markIn quote ≠ .delimiter := by cases quote <;> exact nofun
  simp [kept, List.filter_map, Function.comp_def, hmark]

theorem tokens_nil : tokens [] = [] := rfl

/-- A text without gaps is one token, unless nothing is left of it. -/
theorem tokens_of_not_gap {cs : List Char} (h : ∀ m ∈ marks cs, isGap m = false) :
    tokens cs = [kept (marks cs)].filter fun token => !token.isEmpty := by
  rw [tokens_eq_marks, List.splitOnP_eq_singleton h]
  rfl

/-- A blank behind a balanced text ends the tokens of that text. -/
theorem tokens_append_blank {xs : List Char} (hx : Balanced xs) {c : Char}
    (hc : isBlank c = true) (ys : List Char) :
    tokens (xs ++ c :: ys) = tokens xs ++ tokens ys := by
  have hgap : isGap (c, .plain) = true := by
    rw [isGap, hc]
    rfl
  rw [tokens_eq_marks, marks_append hx, marks_cons_blank hc, List.splitOnP_append_cons _ _ hgap,
    List.map_append, List.filter_append, ← tokens_eq_marks, ← tokens_eq_marks]

/-- A blank in front of a text makes no difference to its tokens. -/
theorem tokens_cons_blank {c : Char} (hc : isBlank c = true) (cs : List Char) :
    tokens (c :: cs) = tokens cs :=
  tokens_append_blank balanced_nil hc cs

/-- Nor do any number of them. -/
theorem tokens_blanks_append {bs : List Char} (h : ∀ c ∈ bs, isBlank c = true) (cs : List Char) :
    tokens (bs ++ cs) = tokens cs := by
  induction bs with
  | nil => rfl
  | cons c bs ih =>
    obtain ⟨hc, hbs⟩ := List.forall_mem_cons.mp h
    rw [List.cons_append, tokens_cons_blank hc, ih hbs]

/-- Behind a balanced text, blanks add no token. -/
theorem tokens_append_blanks {xs bs : List Char} (hx : Balanced xs)
    (h : ∀ c ∈ bs, isBlank c = true) : tokens (xs ++ bs) = tokens xs := by
  cases bs with
  | nil => rw [List.append_nil]
  | cons c bs =>
    obtain ⟨hc, hbs⟩ := List.forall_mem_cons.mp h
    have hblank := tokens_blanks_append hbs []
    rw [List.append_nil] at hblank
    rw [tokens_append_blank hx hc, hblank, tokens_nil, List.append_nil]

/-! ## Trimming -/

/-- A text is its trimmed form between blanks. -/
theorem exists_eq_append_trim (cs : List Char) : ∃ before after,
    cs = before ++ (trim cs ++ after) ∧ (∀ c ∈ before, isBlank c = true) ∧
      ∀ c ∈ after, isBlank c = true := by
  refine ⟨cs.takeWhile isBlank, (trimStart cs).rtakeWhile isBlank, ?_, ?_, ?_⟩
  · have hend : trim cs ++ (trimStart cs).rtakeWhile isBlank = trimStart cs :=
      List.rdropWhile_append_rtakeWhile
    rw [hend]
    exact List.takeWhile_append_dropWhile.symm
  · exact fun c => List.mem_takeWhile_imp
  · exact fun c => List.mem_rtakeWhile_imp

/-- A balanced text stays balanced without the blanks at its ends, and keeps its tokens. No
character gets a new mark by that. -/
theorem Balanced.trim {cs : List Char} (h : Balanced cs) :
    tokens (Text.trim cs) = tokens cs ∧ ∀ m ∈ marks (Text.trim cs), m ∈ marks cs := by
  obtain ⟨before, after, hcs, hbefore, hafter⟩ := exists_eq_append_trim cs
  have hopen : openAfter none before = none := openAfter_blanks isQuote_of_mem_none hbefore
  have hquote : ∀ q ∈ openAfter none (Text.trim cs), isQuote q = true :=
    isQuote_of_openAfter isQuote_of_mem_none _
  -- A quote that the trimmed text leaves open would stay open to the end.
  have htrim : Balanced (Text.trim cs) := by
    rw [Balanced, hcs, openAfter_append, hopen, openAfter_append,
      openAfter_blanks hquote hafter] at h
    exact h
  constructor
  · conv_rhs => rw [hcs]
    rw [tokens_blanks_append hbefore, tokens_append_blanks htrim hafter]
  · intro m hm
    rw [hcs, marks_append hopen, marks_append htrim]
    exact List.mem_append_right _ (List.mem_append_left _ hm)

/-! ## Words -/

/-- A word spells a text: it is balanced, no character with a meaning stands outside its quotes, and
without its quotes it is the text. -/
structure Spells (word text : List Char) : Prop where
  balanced : Balanced word
  plain : ∀ m ∈ marks word, m.2 = .plain → Alias.needsQuotes m.1 = false
  kept_eq : kept (marks word) = text

/-- What words spell side by side is the text of one after that of the other. -/
theorem Spells.append {word word' text text' : List Char} (h : Spells word text)
    (h' : Spells word' text') : Spells (word ++ word') (text ++ text') where
  balanced := h.balanced.append h'.balanced
  plain := by
    rw [marks_append h.balanced]
    intro m hm hmark
    rcases List.mem_append.mp hm with hm | hm
    · exact h.plain m hm hmark
    · exact h'.plain m hm hmark
  kept_eq := by rw [marks_append h.balanced, kept_append, h.kept_eq, h'.kept_eq]

/-- The tokens of a word are the text that it spells, unless that is empty. -/
theorem Spells.tokens_eq {word text : List Char} (h : Spells word text) :
    tokens word = [text].filter fun token => !token.isEmpty := by
  have hgap : ∀ m ∈ marks word, isGap m = false := by
    intro m hm
    cases hmark : m.2 with
    | delimiter | quoted =>
      rw [isGap, hmark]
      exact Bool.and_false _
    | plain =>
      have hblank := h.plain m hm hmark
      rw [Alias.needsQuotes, Bool.or_eq_false_iff] at hblank
      rw [isGap, hblank.1, Bool.false_and]
  rw [tokens_of_not_gap hgap, h.kept_eq]

/-- A quote has a meaning. -/
theorem needsQuotes_of_isQuote {c : Char} (h : isQuote c = true) : Alias.needsQuotes c = true := by
  rw [isQuote, Bool.or_eq_true, beq_iff_eq, beq_iff_eq] at h
  rcases h with rfl | rfl <;> decide

/-- A text in which no character has a meaning spells itself. -/
theorem spells_self {cs : List Char} (h : ∀ c ∈ cs, Alias.needsQuotes c = false) :
    Spells cs cs := by
  have hmarks : openAfter none cs = none ∧ marks cs = cs.map fun c => (c, Mark.plain) := by
    refine scan_of_not_quote isQuote_of_mem_none fun c hc => ?_
    rw [← Bool.not_eq_true]
    intro hquote
    have hplain := h c hc
    rw [needsQuotes_of_isQuote hquote] at hplain
    cases hplain
  refine ⟨hmarks.1, ?_, ?_⟩
  · rw [hmarks.2]
    intro m hm _
    obtain ⟨c, hc, rfl⟩ := List.mem_map.mp hm
    exact h c hc
  · rw [hmarks.2]
    exact kept_map_markIn none cs

/-- How a character is written between single quotes: a single quote stands in double quotes. -/
def quotedChar (c : Char) : List Char :=
  if c = '\'' then "'\"'\"'".toList else [c]

/-- The marks of a character that is written between single quotes. -/
def quotedMarks (c : Char) : List (Char × Mark) :=
  if c = '\'' then
    [('\'', .delimiter), ('"', .delimiter), ('\'', .quoted), ('"', .delimiter), ('\'', .delimiter)]
  else [(c, .quoted)]

/-- Between single quotes, the characters that are written so leave the single quote open. -/
theorem openAfter_quotedChars (cs : List Char) :
    openAfter (some '\'') (cs.flatMap quotedChar) = some '\'' := by
  induction cs with
  | nil => rw [List.flatMap_nil, openAfter]
  | cons c rest ih =>
    rw [List.flatMap_cons, openAfter_append]
    by_cases hc : c = '\''
    · subst hc
      exact ih
    · rw [quotedChar, if_neg hc, openAfter, if_neg hc, openAfter, ih]

/-- They are marked character by character. -/
theorem marksFrom_quotedChars (cs : List Char) :
    marksFrom (some '\'') (cs.flatMap quotedChar) = cs.flatMap quotedMarks := by
  induction cs with
  | nil => rfl
  | cons c rest ih =>
    rw [List.flatMap_cons, List.flatMap_cons, marksFrom_append]
    by_cases hc : c = '\''
    · subst hc
      exact congrArg _ ih
    · rw [quotedChar, if_neg hc, openAfter, if_neg hc, openAfter, ih, quotedMarks, if_neg hc,
        marksFrom, if_neg hc]
      rfl

/-- Without the quotes that delimit they are the characters. -/
theorem kept_quotedMarks (cs : List Char) : kept (cs.flatMap quotedMarks) = cs := by
  induction cs with
  | nil => rfl
  | cons c rest ih =>
    rw [List.flatMap_cons, kept_append, ih, quotedMarks]
    split
    · rename_i hc
      rw [hc]
      rfl
    · rfl

/-- None of them stands outside the quotes. -/
theorem not_plain_of_mem_quotedMarks {cs : List Char} :
    ∀ m ∈ cs.flatMap quotedMarks, m.2 ≠ .plain := by
  intro m hm
  obtain ⟨c, -, hc⟩ := List.mem_flatMap.mp hm
  rw [quotedMarks] at hc
  split at hc
  · have hall : ∀ m ∈ [('\'', Mark.delimiter), ('"', .delimiter), ('\'', .quoted),
        ('"', .delimiter), ('\'', .delimiter)], m.2 ≠ .plain := by decide
    exact hall m hc
  · obtain rfl := List.mem_singleton.mp hc
    nofun

/-- Any text is spelled by its characters between single quotes. -/
theorem spells_quotedChars (cs : List Char) :
    Spells ('\'' :: cs.flatMap quotedChar ++ ['\'']) cs := by
  have hquote : isQuote '\'' = true := rfl
  have hmarks : marks ('\'' :: cs.flatMap quotedChar ++ ['\''])
      = ('\'', .delimiter) :: cs.flatMap quotedMarks ++ [('\'', .delimiter)] := by
    rw [marks, List.cons_append, marksFrom, if_pos hquote, marksFrom_append, openAfter_quotedChars,
      marksFrom_quotedChars]
    rfl
  refine ⟨?_, ?_, ?_⟩
  · rw [Balanced, List.cons_append, openAfter, if_pos hquote, openAfter_append,
      openAfter_quotedChars]
    rfl
  · rw [hmarks]
    intro m hm hplain
    rw [List.cons_append, List.mem_cons, List.mem_append, List.mem_singleton] at hm
    rcases hm with rfl | hm | rfl
    · cases hplain
    · exact absurd hplain (not_plain_of_mem_quotedMarks m hm)
    · cases hplain
  · rw [hmarks, kept_append]
    change kept (cs.flatMap quotedMarks) ++ [] = cs
    rw [kept_quotedMarks, List.append_nil]

/-- An argument is spelled by its quoted form. -/
theorem spells_quoteArgument (argument : String) :
    Spells (Alias.quoteArgument argument).toList argument.toList := by
  rw [Alias.quoteArgument]
  split
  · simp only [String.toList_append, replaceChar, String.toList_ofList]
    exact spells_quotedChars argument.toList
  · rename_i hnone
    refine spells_self fun c hc => ?_
    rw [Bool.not_eq_true, List.any_eq_false] at hnone
    exact Bool.eq_false_iff.mpr (hnone c hc)

/-! ## Lines of words -/

/-- The line of quoted arguments. -/
def quotedLine (args : List String) : String :=
  joinWith " " (args.map Alias.quoteArgument)

/-- The characters of a line of words, one word at a time. -/
theorem toList_joinWith_cons (first second : String) (rest : List String) :
    (joinWith " " (first :: second :: rest)).toList
      = first.toList ++ ' ' :: (joinWith " " (second :: rest)).toList := by
  rw [joinWith, joinWith, String.intercalate_cons_cons, String.toList_append, String.toList_append,
    List.append_assoc]
  rfl

/-- A line of words that spell texts is balanced, nothing but the blanks between them has a meaning,
and its tokens are the texts that are not empty. -/
theorem spelledLine_spec {words texts : List String}
    (h : List.Forall₂ (fun word text => Spells word.toList text.toList) words texts) :
    Balanced (joinWith " " words).toList ∧
      (∀ m ∈ marks (joinWith " " words).toList, m.2 = .plain →
        m.1 = ' ' ∨ Alias.needsQuotes m.1 = false) ∧
      tokens (joinWith " " words).toList
        = (texts.map String.toList).filter fun token => !token.isEmpty := by
  induction h with
  | nil => exact ⟨balanced_nil, nofun, rfl⟩
  | @cons first text rest texts hword hrest ih =>
    cases hrest with
    | nil =>
      rw [joinWith, String.intercalate_singleton]
      exact ⟨hword.balanced, fun m hm hplain => .inr (hword.plain m hm hplain), hword.tokens_eq⟩
    | @cons second text' rest texts hsecond hrest =>
      obtain ⟨hbalanced, hplain, htokens⟩ := ih
      rw [toList_joinWith_cons]
      refine ⟨?_, ?_, ?_⟩
      · exact hword.balanced.append ((balanced_singleton_blank isBlank_space).append hbalanced)
      · rw [marks_append hword.balanced, marks_cons_blank isBlank_space]
        intro m hm hmark
        rw [List.mem_append, List.mem_cons] at hm
        rcases hm with hm | rfl | hm
        · exact .inr (hword.plain m hm hmark)
        · exact .inl rfl
        · exact hplain m hm hmark
      · rw [tokens_append_blank hword.balanced isBlank_space, hword.tokens_eq, htokens,
          ← List.filter_append, List.singleton_append]
        rfl

/-! ## Reading them -/

/-- A text has no operators if no character of theirs stands outside the quotes. -/
theorem operatorsFrom_eq_nil {ms : List (Char × Mark)}
    (h : ∀ m ∈ ms, m.2 = .plain → m.1 ∉ ['&', '|', ';']) (i : Nat) : operatorsFrom i ms = [] := by
  fun_induction operatorsFrom i ms with
  | case1 | case2 | case3 | case4 => simp at h
  | case5 i m rest _ _ _ _ ih => exact ih fun m hm => h m (List.mem_cons_of_mem _ hm)
  | case6 => rfl

/-- A text has no redirection if its sign does not stand outside the quotes. -/
theorem splitRedirection?_eq_none {sign : Char} {cs : List Char}
    (h : ∀ m ∈ marks cs, m.2 = .plain → m.1 ≠ sign) : splitRedirection? sign cs = none := by
  have hnone : plainPositions sign cs = [] :=
    plainPositions_eq_nil_iff.mpr fun hmem => h _ hmem rfl rfl
  rw [splitRedirection?, hnone]

/-- A balanced line without operators and redirections is a single command of its tokens. -/
theorem readProgram_of_plain {cs : List Char} (hbalanced : Balanced cs)
    (hplain : ∀ m ∈ marks cs, m.2 = .plain → m.1 ∉ ['&', '|', ';', '>', '<'])
    (hlength : (trim cs).length ≤ maxLength) :
    readProgram cs = .ok (.command (readWords cs)) := by
  obtain ⟨htokens, hmarks⟩ := hbalanced.trim
  have hline : trimLine cs = .ok (trim cs) := if_neg (Nat.not_lt.mpr hlength)
  have hagain : trimLine (trim cs) = .ok (trim cs) := by
    rw [trimLine, trim_trim]
    exact hline
  have hoperators : findOperators (trim cs) = [] := by
    rw [findOperators_eq_marks]
    refine operatorsFrom_eq_nil (fun m hm hmark hmem => ?_) 0
    exact hplain m (hmarks m hm) hmark (List.mem_append_left ['>', '<'] hmem)
  have hredirection : ∀ sign ∈ ['>', '<'], splitRedirection? sign (trim cs) = none := by
    intro sign hsign
    refine splitRedirection?_eq_none fun m hm hmark heq => ?_
    exact hplain m (hmarks m hm) hmark
      (heq ▸ List.mem_append_right ['&', '|', ';'] hsign)
  have hwords : readWords (trim cs) = readWords cs := by
    rw [readWords, readWords, htokens]
  have hcommand : readCommand (trim cs) = .ok (readWords cs) := by
    rw [readCommand, hagain, ← hwords]
    simp only [bind, Except.bind, hredirection '>' (by decide), hredirection '<' (by decide)]
    rfl
  rw [readProgram, hline]
  simp only [bind, Except.bind, hoperators, hcommand]
  rfl

/-- A line of words that spell texts is read as a command of the first text with the further ones
that are not empty. -/
theorem parse_spelledLine {words : List String} {word : String} {args : List String}
    (hwords : List.Forall₂ (fun word text => Spells word.toList text.toList) words (word :: args))
    (hword : word ≠ "") (hlength : (strip (joinWith " " words)).length ≤ maxLength) :
    Program.parse (joinWith " " words)
      = .ok (.command { word, args := args.filter (· ≠ "") }) := by
  obtain ⟨hbalanced, hplain, htokens⟩ := spelledLine_spec hwords
  rw [strip, String.length_ofList] at hlength
  have hmarks : ∀ m ∈ marks (joinWith " " words).toList, m.2 = .plain →
      m.1 ∉ ['&', '|', ';', '>', '<'] := by
    intro m hm hmark hmem
    have hspecial : ['&', '|', ';', '>', '<'].all
        (fun c => c != ' ' && Alias.needsQuotes c) = true := by decide
    have hchar := List.all_eq_true.mp hspecial m.1 hmem
    rw [Bool.and_eq_true, bne_iff_ne] at hchar
    rcases hplain m hm hmark with heq | hfalse
    · exact hchar.1 heq
    · rw [hchar.2] at hfalse
      cases hfalse
  have hread : readWords (joinWith " " words).toList
      = { word, args := args.filter (· ≠ "") } := by
    have hempty : ∀ s : String, (!s.toList.isEmpty) = decide (s ≠ "") := by
      intro s
      rw [Bool.eq_iff_iff]
      simp
    have hfirst : (!word.toList.isEmpty) = true := by simpa using hword
    have hrest : ((args.map String.toList).filter fun token => !token.isEmpty).map String.ofList
        = args.filter (· ≠ "") := by
      simp only [List.filter_map, List.map_map, Function.comp_def, hempty, String.ofList_toList,
        List.map_id']
    rw [readWords, htokens, List.map_cons, List.filter_cons, if_pos hfirst]
    simp only [hrest, String.ofList_toList]
  rw [Program.parse, readProgram_of_plain hbalanced hmarks hlength, hread]

/-- The line of a word and further arguments, all of them quoted, is read as a command with that
word and with the arguments that are not empty. -/
theorem parse_quotedLine {word : String} (hword : word ≠ "") {args : List String}
    (hlength : (strip (quotedLine (word :: args))).length ≤ maxLength) :
    Program.parse (quotedLine (word :: args))
      = .ok (.command { word, args := args.filter (· ≠ "") }) := by
  refine parse_spelledLine ?_ hword hlength
  rw [List.forall₂_map_left_iff, List.forall₂_same]
  exact fun argument _ => spells_quoteArgument argument

/-- The blanks around a line make no difference. -/
theorem readProgram_congr {cs ds : List Char} (h : trim cs = trim ds) :
    readProgram cs = readProgram ds := by
  rw [readProgram, readProgram, trimLine, trimLine, h]

/-- A word that needs no quotes may stand for its quoted form; without arguments, only a blank
follows it. -/
theorem trim_word_quoted {word : String} (hplain : ∀ c ∈ word.toList, Alias.needsQuotes c = false)
    (args : List String) :
    trim (word ++ " " ++ joinWith " " (args.map Alias.quoteArgument)).toList
      = trim (quotedLine (word :: args)).toList := by
  have hword := Alias.quoteArgument_of_plain hplain
  cases args with
  | nil =>
    have hblank := trim_append_blank (c := ' ') (by decide) word.toList
    simpa [quotedLine, hword, joinWith] using hblank
  | cons first rest =>
    simp only [quotedLine, List.map_cons, hword, joinWith, String.intercalate_cons_cons]

/-- A word that needs no quotes, followed by quoted arguments of which none is empty, is read as the
command of just this word and these arguments: no operator and no redirection is found, and no
argument is split, joined or changed, whatever characters it holds. -/
theorem reads_quoted_arguments {word : String} (hword : word ≠ "")
    (hplain : ∀ c ∈ word.toList, Alias.needsQuotes c = false) {args : List String}
    (hargs : ∀ a ∈ args, a ≠ "")
    (hlength : (strip (word ++ " " ++ joinWith " " (args.map Alias.quoteArgument))).length
      ≤ maxLength) :
    Program.parse (word ++ " " ++ joinWith " " (args.map Alias.quoteArgument))
      = .ok (.command { word, args, output := none, input := none }) := by
  have htrim := trim_word_quoted hplain args
  rw [strip, htrim, ← strip] at hlength
  have hfilter : args.filter (· ≠ "") = args :=
    List.filter_eq_self.mpr fun a ha => decide_eq_true (hargs a ha)
  have hparse := parse_quotedLine hword hlength
  rw [hfilter] at hparse
  rw [Program.parse, readProgram_congr htrim]
  exact hparse

/-- Quotes of both kinds, signs of all kinds, and blanks that are no spaces. -/
theorem reads_mixed_quotes :
    let args := ["it's \"so\"", "a | b > c", "\n\u2003"]
    ("echo" ≠ "" ∧ (∀ c ∈ "echo".toList, Alias.needsQuotes c = false) ∧ (∀ a ∈ args, a ≠ "") ∧
        (strip ("echo" ++ " " ++ joinWith " " (args.map Alias.quoteArgument))).length
          ≤ maxLength) ∧
      Program.parse ("echo" ++ " " ++ joinWith " " (args.map Alias.quoteArgument))
        = .ok (.command { word := "echo", args, output := none, input := none }) := by
  have hword : "echo" ≠ "" := by decide
  have hnone : "echo".toList.any Alias.needsQuotes = false := by decide
  have hplain : ∀ c ∈ "echo".toList, Alias.needsQuotes c = false := fun c hc =>
    Bool.eq_false_iff.mpr (List.any_eq_false.mp hnone c hc)
  have hargs : ∀ a ∈ ["it's \"so\"", "a | b > c", "\n\u2003"], a ≠ "" := by decide
  have hlength : (strip ("echo" ++ " " ++ joinWith " "
      (["it's \"so\"", "a | b > c", "\n\u2003"].map Alias.quoteArgument))).length
        ≤ maxLength := by
    decide +kernel
  exact ⟨⟨hword, hplain, hargs, hlength⟩, reads_quoted_arguments hword hplain hargs hlength⟩

end Line

end VirtualShell
