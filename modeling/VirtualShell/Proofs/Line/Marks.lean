import Mathlib.Data.List.Basic
import VirtualShell.Line.Chain

/-!
# One notion of quoting

A single scan from left to right gives every character of a line its mark: it delimits a quoted run,
stands in one, or stands outside all of them (`marks`). The tokens, the positions of a sign and the
operators are found in three passes that do not use this scan and keep the open quote by themselves;
one of them goes on by two characters at a time. Each is proved equal to what can be read off the
marks: the tokens are what stands between the gaps (`tokens_eq_marks`), the positions are those of
the marked sign (`plainPositions_eq_marks`), and the operators are those that are written in marked
characters (`findOperators_eq_marks`).

In each proof the induction is on the pass, for any quote that is open. The marks of a quote
character agree with what the pass does with it, and so does the quote that is open behind it.
-/

namespace VirtualShell.Line

/-! ## Marks -/

/-- Where a character of a line stands. -/
inductive Mark where
  /-- A quote character that opens or closes a quoted run. -/
  | delimiter
  /-- Inside a quoted run. -/
  | quoted
  /-- Outside all quoted runs. -/
  | plain
  deriving DecidableEq, Repr

/-- The characters of a line with their marks, where `quote` is the quote that is open before
them. -/
def marksFrom : Option Char → List Char → List (Char × Mark)
  | _, [] => []
  | some q, c :: rest =>
    if c = q then (c, .delimiter) :: marksFrom none rest
    else (c, .quoted) :: marksFrom (some q) rest
  | none, c :: rest =>
    if isQuote c then (c, .delimiter) :: marksFrom (some c) rest
    else (c, .plain) :: marksFrom none rest

/-- The characters of a line with their marks. -/
def marks (cs : List Char) : List (Char × Mark) :=
  marksFrom none cs

/-- Whether a marked character is a given one outside the quotes. -/
def isPlain (c : Char) (m : Char × Mark) : Bool :=
  m.1 == c && m.2 == .plain

/-- Whether a marked character is a blank outside the quotes, which ends a token. -/
def isGap (m : Char × Mark) : Bool :=
  Text.isBlank m.1 && m.2 == .plain

/-- What is left of marked characters without the quotes that delimit. -/
def kept (ms : List (Char × Mark)) : List Char :=
  (ms.filter fun m => m.2 != .delimiter).map Prod.fst

theorem delimiter_ne_plain : Mark.delimiter ≠ .plain :=
  nofun

theorem quoted_ne_plain : Mark.quoted ≠ .plain :=
  nofun

/-- The test for a sign outside the quotes is one for a marked character. -/
theorem isPlain_iff {c : Char} {m : Char × Mark} : isPlain c m = true ↔ m = (c, .plain) := by
  rw [isPlain, Bool.and_eq_true, beq_iff_eq, beq_iff_eq, Prod.ext_iff]

/-- A character that delimits or is quoted is no sign. -/
theorem isPlain_of_ne_plain {mark : Mark} (h : mark ≠ .plain) (c d : Char) :
    ¬ isPlain c (d, mark) = true := fun hplain =>
  h (Prod.mk.inj (isPlain_iff.mp hplain)).2

/-- Nor does it part tokens. -/
theorem isGap_of_ne_plain {mark : Mark} (h : mark ≠ .plain) (c : Char) :
    ¬ isGap (c, mark) = true := fun hgap =>
  h (beq_iff_eq.mp (Bool.and_eq_true_iff.mp hgap).2)

/-- Outside the quotes, the gaps are the blanks. -/
theorem isGap_plain (c : Char) : isGap (c, .plain) = Text.isBlank c :=
  Bool.and_true _

/-- Where the first character stands outside the quotes, no quote is open before it or behind
it. -/
theorem marksFrom_eq_cons_plain {quote : Option Char} {cs : List Char} {c : Char}
    {ms : List (Char × Mark)} (h : marksFrom quote cs = (c, .plain) :: ms) :
    quote = none ∧ ∃ rest, cs = c :: rest ∧ ms = marks rest := by
  revert h
  fun_cases marksFrom quote cs with
  | case1 | case2 | case3 | case4 => nofun
  | case5 d rest =>
    intro h
    obtain ⟨hhead, rfl⟩ := List.cons.inj h
    obtain ⟨rfl, -⟩ := Prod.mk.inj hhead
    exact ⟨rfl, rest, rfl, rfl⟩

/-! ## Tokens -/

/-- The tokens that runs of marked characters make, where a token has begun before the first run. -/
def runTokens (begun : List Char) (runs : List (List (Char × Mark))) : List (List Char) :=
  ((runs.map kept).modifyHead (begun.reverse ++ ·)).filter fun token => !token.isEmpty

/-- A character that is kept belongs to the token that has begun. -/
theorem runTokens_cons_kept {c : Char} {mark : Mark} (hmark : mark ≠ .delimiter)
    (begun : List Char) {runs : List (List (Char × Mark))} (hruns : runs ≠ []) :
    runTokens begun (runs.modifyHead ((c, mark) :: ·)) = runTokens (c :: begun) runs := by
  obtain ⟨run, runs, rfl⟩ := List.exists_cons_of_ne_nil hruns
  have hkept : kept ((c, mark) :: run) = c :: kept run := by
    rw [kept, List.filter_cons, if_pos (bne_iff_ne.mpr hmark)]
    rfl
  simp only [runTokens, List.modifyHead_cons, List.map_cons, hkept, List.reverse_cons,
    List.append_assoc, List.singleton_append]

/-- A quote that delimits belongs to no token. -/
theorem runTokens_cons_delimiter (c : Char) (begun : List Char)
    {runs : List (List (Char × Mark))} (hruns : runs ≠ []) :
    runTokens begun (runs.modifyHead ((c, .delimiter) :: ·)) = runTokens begun runs := by
  obtain ⟨run, runs, rfl⟩ := List.exists_cons_of_ne_nil hruns
  rfl

/-- A gap ends the token that has begun, which is dropped if it is empty. -/
theorem runTokens_gap (begun : List Char) (runs : List (List (Char × Mark))) :
    runTokens begun ([] :: runs)
      = (if begun.isEmpty then [] else [begun.reverse]) ++ runTokens [] runs := by
  have hfirst : begun.reverse ++ kept [] = begun.reverse := List.append_nil _
  have hnothing : (runs.map kept).modifyHead (([] : List Char).reverse ++ ·) = runs.map kept := by
    cases runs <;> rfl
  rw [runTokens, runTokens, hnothing, List.map_cons, List.modifyHead_cons, List.filter_cons, hfirst,
    List.isEmpty_reverse]
  cases begun.isEmpty <;> rfl

/-- The pass for the tokens, at any place of a line. -/
theorem tokensFrom_eq (quote : Option Char) (begun cs : List Char) :
    tokensFrom quote begun cs = runTokens begun ((marksFrom quote cs).splitOnP isGap) := by
  have hne (ms : List (Char × Mark)) : ms.splitOnP isGap ≠ [] := List.splitOnP_ne_nil isGap ms
  have hdelimiter := isGap_of_ne_plain delimiter_ne_plain
  have hquoted := isGap_of_ne_plain quoted_ne_plain
  fun_induction tokensFrom quote begun cs with
  | case1 quote begun hbegun =>
    obtain rfl := List.isEmpty_iff.mp hbegun
    cases quote <;> rfl
  | case2 quote begun hbegun =>
    have hsplit : (marksFrom quote []).splitOnP isGap = [[]] := by cases quote <;> rfl
    rw [hsplit, runTokens_gap, if_neg hbegun]
    rfl
  | case3 begun c rest ih =>
    rw [marksFrom, if_pos rfl, List.splitOnP_cons_eq_if_modifyHead, if_neg (hdelimiter c),
      runTokens_cons_delimiter c begun (hne _), ih]
  | case4 q begun c rest hc ih =>
    have hkept : Mark.quoted ≠ .delimiter := nofun
    rw [marksFrom, if_neg hc, List.splitOnP_cons_eq_if_modifyHead, if_neg (hquoted c),
      runTokens_cons_kept hkept begun (hne _), ih]
  | case5 begun c rest hc ih =>
    rw [marksFrom, if_pos hc, List.splitOnP_cons_eq_if_modifyHead, if_neg (hdelimiter c),
      runTokens_cons_delimiter c begun (hne _), ih]
  | case6 begun c rest hc hblank hbegun ih =>
    rw [marksFrom, if_neg hc, List.splitOnP_cons_eq_if_modifyHead, isGap_plain, if_pos hblank,
      runTokens_gap, if_pos hbegun, ih, List.nil_append]
  | case7 begun c rest hc hblank hbegun ih =>
    rw [marksFrom, if_neg hc, List.splitOnP_cons_eq_if_modifyHead, isGap_plain, if_pos hblank,
      runTokens_gap, if_neg hbegun, ih, List.singleton_append]
  | case8 begun c rest hc hblank ih =>
    have hkept : Mark.plain ≠ .delimiter := nofun
    rw [marksFrom, if_neg hc, List.splitOnP_cons_eq_if_modifyHead, isGap_plain, if_neg hblank,
      runTokens_cons_kept hkept begun (hne _), ih]

/-- The tokens of a line are what stands between the gaps, without the quotes that delimit. -/
theorem tokens_eq_marks (cs : List Char) :
    tokens cs = (((marks cs).splitOnP isGap).map kept).filter fun token => !token.isEmpty := by
  obtain ⟨run, runs, hruns⟩ := List.exists_cons_of_ne_nil (List.splitOnP_ne_nil isGap (marks cs))
  rw [tokens, tokensFrom_eq, ← marks, hruns]
  rfl

/-! ## Positions of a sign -/

/-- The pass for the positions of a sign, at any place of a line. -/
theorem plainPositionsFrom_eq (c : Char) (quote : Option Char) (i : Nat) (cs : List Char) :
    plainPositionsFrom c quote i cs
      = (((marksFrom quote cs).zipIdx i).filter fun m => isPlain c m.1).map Prod.snd := by
  have hdelimiter := isPlain_of_ne_plain delimiter_ne_plain c
  have hquoted := isPlain_of_ne_plain quoted_ne_plain c
  fun_induction plainPositionsFrom c quote i cs with
  | case1 quote => cases quote <;> rfl
  | case2 q i d rest ih =>
    rw [ih, marksFrom]
    split
    · rw [List.zipIdx_cons, List.filter_cons, if_neg (hdelimiter d)]
    · rw [List.zipIdx_cons, List.filter_cons, if_neg (hquoted d)]
  | case3 i d rest hd ih =>
    rw [ih, marksFrom, if_pos hd, List.zipIdx_cons, List.filter_cons, if_neg (hdelimiter d)]
  | case4 i rest hd ih =>
    have hsign : isPlain c (c, .plain) = true := isPlain_iff.mpr rfl
    rw [ih, marksFrom, if_neg hd, List.zipIdx_cons, List.filter_cons, if_pos hsign, List.map_cons]
  | case5 i d rest hd hne ih =>
    have hother : ¬ isPlain c (d, .plain) = true := fun h =>
      hne (Prod.mk.inj (isPlain_iff.mp h)).1
    rw [ih, marksFrom, if_neg hd, List.zipIdx_cons, List.filter_cons, if_neg hother]

/-- The positions at which a sign stands outside the quotes are those at which it is marked so. -/
theorem plainPositions_eq_marks (c : Char) (cs : List Char) :
    plainPositions c cs = ((marks cs).zipIdx.filter fun m => isPlain c m.1).map Prod.snd :=
  plainPositionsFrom_eq c none 0 cs

/-- There are none where the sign is not marked so. -/
theorem plainPositions_eq_nil_iff {c : Char} {cs : List Char} :
    plainPositions c cs = [] ↔ (c, .plain) ∉ marks cs := by
  rw [plainPositions_eq_marks, List.map_eq_nil_iff, List.filter_eq_nil_iff]
  constructor
  · intro h hmem
    obtain ⟨i, hi, hget⟩ := List.mem_iff_getElem.mp hmem
    have hindexed : ((c, Mark.plain), i) ∈ (marks cs).zipIdx := by
      rw [List.mk_mem_zipIdx_iff_getElem?, List.getElem?_eq_getElem hi, hget]
    exact h _ hindexed (isPlain_iff.mpr rfl)
  · intro h m hm hplain
    rw [isPlain_iff] at hplain
    exact h (hplain ▸ List.fst_mem_of_mem_zipIdx hm)

/-! ## Operators -/

/-- The operators that are written in marked characters, all of them outside the quotes. The first
character has the position `i`. -/
def operatorsFrom : Nat → List (Char × Mark) → List (Nat × Operator)
  | i, ('&', .plain) :: ('&', .plain) :: rest => (i, .and) :: operatorsFrom (i + 2) rest
  | i, ('|', .plain) :: ('|', .plain) :: rest => (i, .or) :: operatorsFrom (i + 2) rest
  | i, (';', .plain) :: rest => (i, .sequence) :: operatorsFrom (i + 1) rest
  | i, ('|', .plain) :: rest => (i, .pipe) :: operatorsFrom (i + 1) rest
  | i, _ :: rest => operatorsFrom (i + 1) rest
  | _, [] => []

/-- A character that is quoted, or delimits, belongs to no operator. -/
theorem operatorsFrom_cons_of_ne_plain (c : Char) {mark : Mark} (h : mark ≠ .plain) (i : Nat)
    (ms : List (Char × Mark)) : operatorsFrom i ((c, mark) :: ms) = operatorsFrom (i + 1) ms := by
  cases mark with
  | delimiter | quoted =>
    rw [operatorsFrom] <;> nofun
  | plain => exact absurd rfl h

/-- The pass for the operators, at any place of a line. -/
theorem operatorsIn_eq (quote : Option Char) (i : Nat) (cs : List Char) :
    operatorsIn quote i cs = operatorsFrom i (marksFrom quote cs) := by
  fun_induction operatorsIn quote i cs with
  | case1 quote => cases quote <;> rfl
  | case2 q i c rest ih =>
    rw [ih, marksFrom]
    split
    · rw [operatorsFrom_cons_of_ne_plain c delimiter_ne_plain]
    · rw [operatorsFrom_cons_of_ne_plain c quoted_ne_plain]
  | case3 i rest ih | case4 i rest ih | case5 i rest ih =>
    rw [ih]
    rfl
  | case6 i rest hdoubled ih =>
    have hmarks : marksFrom none ('|' :: rest) = ('|', .plain) :: marksFrom none rest := rfl
    rw [ih, hmarks, operatorsFrom]
    intro ms hms
    obtain ⟨-, after, rfl, -⟩ := marksFrom_eq_cons_plain hms
    exact hdoubled after rfl
  | case7 i c rest hand hor hsequence hpipe ih =>
    rw [ih, marksFrom]
    split
    · rw [operatorsFrom_cons_of_ne_plain c delimiter_ne_plain]
    · rw [operatorsFrom]
      · intro ms hc hms
        obtain ⟨-, after, rfl, -⟩ := marksFrom_eq_cons_plain hms
        exact hand after (Prod.mk.inj hc).1 rfl
      · intro ms hc
        exact absurd (Prod.mk.inj hc).1 hpipe
      · exact fun hc => hsequence (Prod.mk.inj hc).1
      · exact fun hc => hpipe (Prod.mk.inj hc).1

/-- The operators of a line are those that are written outside the quotes. -/
theorem findOperators_eq_marks (cs : List Char) :
    findOperators cs = operatorsFrom 0 (marks cs) :=
  operatorsIn_eq none 0 cs

end VirtualShell.Line
