import Mathlib.Data.List.Pairwise
import VirtualShell.Proofs.Line.LastOperator
import VirtualShell.Proofs.Text.Runs

/-!
# What stands at each position

A scan from left to right keeps the quote that is open, and so gives every position of a text its
mark (`marked?`): a quote character outside all runs opens one, the next equal character closes it,
and without one the run goes on to the end of the text. Tokens, the positions of a sign and the
chain operators are found by three recursions, each with a quote state of its own. That these agree
with the scan at every position is `tokens_eq_marks`, `plainPositions_eq_marks` and
`findOperators_eq_marks`. Here the result of each is described by the marks of the positions alone
(`Tokenizes`, `positions`, `FindsOperators`).

A token is followed to its places in the text: the runs between the gaps are cut from the characters
together with their positions, and two of these stay together where no gap stands between them
(`Text.together_iff`). The search for operators goes two positions on behind a doubled sign. It
passes over no sign in doing so, because a position at which an operator begins is either come to or
lies in one that was found before (`searched_operatorsFrom`).
-/

namespace VirtualShell.Line

open Text

variable {cs : List Char} {i j k : Nat}

/-! ## Marks of positions -/

/-- The character at a position and its mark, as the scan of the text before it leaves a quote open
or not. -/
def marked? (cs : List Char) (i : Nat) : Option (Char × Mark) :=
  cs[i]?.map fun c => (c, markBehind (openAfter none (cs.take i)) c)

/-- The positions of a text whose marked characters pass a test, in order. -/
def positions (p : Char × Mark → Bool) (cs : List Char) : List Nat :=
  (List.range cs.length).filter fun i => (marked? cs i).any p

/-- Whether a marked character belongs to a token: it neither delimits nor is a gap. -/
def isKept (m : Char × Mark) : Bool :=
  m.2 != .delimiter && !isGap m

/-- The characters at some positions of a text. -/
def charsAt (cs : List Char) (places : List Nat) : List Char :=
  places.filterMap (cs[·]?)

/-- The mark at a position depends only on the quote that is open behind the text before it. -/
theorem getElem?_marksFrom (quote : Option Char) (cs : List Char) (i : Nat) :
    (marksFrom quote cs)[i]?
      = cs[i]?.map fun c => (c, markBehind (openAfter quote (cs.take i)) c) := by
  induction cs generalizing quote i with
  | nil => rfl
  | cons c cs ih =>
    rw [marksFrom_cons]
    cases i with
    | zero => rfl
    | succ i =>
      rw [List.getElem?_cons_succ, List.getElem?_cons_succ, ih, List.take_succ_cons,
        ← List.singleton_append (l := cs.take i), openAfter_append]

/-- The scan gives each position its mark. -/
theorem getElem?_marks (cs : List Char) (i : Nat) : (marks cs)[i]? = marked? cs i :=
  getElem?_marksFrom none cs i

/-- The marked character is the character of the text. -/
theorem getElem?_of_marked? {m : Char × Mark} (h : marked? cs i = some m) : cs[i]? = some m.1 := by
  obtain ⟨c, hc, rfl⟩ := Option.map_eq_some_iff.mp h
  exact hc

/-- The marked characters with their positions are those that are marked there. -/
theorem mem_zipIdx_iff {m : Char × Mark} : (m, i) ∈ (marks cs).zipIdx ↔ marked? cs i = some m := by
  rw [List.mk_mem_zipIdx_iff_getElem?, getElem?_marks]

/-- A position passes a test if its marked character does. -/
theorem mem_positions {p : Char × Mark → Bool} :
    i ∈ positions p cs ↔ ∃ m, marked? cs i = some m ∧ p m = true := by
  rw [positions, List.mem_filter, List.mem_range, Option.any_eq_true, and_iff_right_iff_imp]
  rintro ⟨m, hm, -⟩
  exact (List.getElem?_eq_some_iff.mp (getElem?_of_marked? hm)).1

/-- Filtering the marked characters gives their positions in order. -/
theorem map_snd_filter_zipIdx (p : Char × Mark → Bool) (cs : List Char) :
    ((marks cs).zipIdx.filter fun m => p m.1).map Prod.snd = positions p cs := by
  have hrange : List.range cs.length = (marks cs).zipIdx.map Prod.snd := by
    rw [List.zipIdx_map_snd, marks, length_marksFrom, List.range_eq_range']
  rw [positions, hrange, List.filter_map]
  refine congrArg _ (List.filter_congr fun m hm => ?_)
  rw [Function.comp_apply, mem_zipIdx_iff.mp hm, Option.any_some]

/-- A sign is looked for at its positions outside the quotes. -/
theorem plainPositions_eq (c : Char) (cs : List Char) :
    plainPositions c cs = positions (isPlain c) cs :=
  (plainPositions_eq_marks c cs).trans (map_snd_filter_zipIdx (isPlain c) cs)

/-! ## Places of the tokens -/

/-- The marked characters of each token, with their positions. -/
def tokenRuns (cs : List Char) : List (List ((Char × Mark) × Nat)) :=
  let kept := ((marks cs).zipIdx.splitOnP (isGap ∘ Prod.fst)).map fun run =>
    run.filter fun m => m.1.2 != .delimiter
  kept.filter fun run => !run.isEmpty

/-- The positions of the characters of each token. -/
def tokenPlaces (cs : List Char) : List (List Nat) :=
  (tokenRuns cs).map fun run => run.map Prod.snd

/-- The tokens are the characters of their runs. -/
theorem tokens_eq (cs : List Char) :
    tokens cs = (tokenRuns cs).map fun run => run.map fun m => m.1.1 := by
  have hfst : marks cs = (marks cs).zipIdx.map Prod.fst := (List.zipIdx_map_fst 0 _).symm
  rw [tokens_eq_marks, hfst, splitOnP_map, tokenRuns]
  simp only [kept, List.map_map, List.filter_map, Function.comp_def, List.isEmpty_map]

/-- A run of a token consists of marked characters of the text, each at its position. -/
theorem mem_zipIdx_of_mem_tokenRuns {run : List ((Char × Mark) × Nat)} (hrun : run ∈ tokenRuns cs)
    {m : (Char × Mark) × Nat} (hm : m ∈ run) : m ∈ (marks cs).zipIdx := by
  obtain ⟨run, hsplit, rfl⟩ := List.mem_map.mp (List.mem_of_mem_filter hrun)
  exact mem_of_mem_splitOnP hsplit (List.mem_of_mem_filter hm)

/-- The characters at the positions of a run are those of the run. -/
theorem charsAt_map_snd {run : List ((Char × Mark) × Nat)}
    (hrun : ∀ m ∈ run, m ∈ (marks cs).zipIdx) :
    charsAt cs (run.map Prod.snd) = run.map fun m => m.1.1 := by
  rw [charsAt, List.filterMap_map, ← List.filterMap_eq_map]
  exact List.filterMap_congr fun m hm =>
    getElem?_of_marked? (mem_zipIdx_iff.mp (hrun m hm))

/-- A token is made of the characters at its positions. -/
theorem tokens_eq_map_charsAt (cs : List Char) : tokens cs = (tokenPlaces cs).map (charsAt cs) := by
  rw [tokens_eq, tokenPlaces, List.map_map]
  exact List.map_congr_left fun run hrun =>
    (charsAt_map_snd fun m hm => mem_zipIdx_of_mem_tokenRuns hrun hm).symm

/-- The tokens taken together stand at all the positions that are kept. -/
theorem flatten_tokenPlaces (cs : List Char) :
    (tokenPlaces cs).flatten = positions isKept cs := by
  rw [tokenPlaces, ← List.map_flatten, tokenRuns, List.flatten_filter_not_isEmpty,
    ← List.filter_flatten, flatten_splitOnP, List.filter_filter, ← map_snd_filter_zipIdx]
  rfl

/-- The tokens taken together are all the characters that are kept. -/
theorem flatten_tokens_eq (cs : List Char) :
    (tokens cs).flatten = charsAt cs (positions isKept cs) := by
  rw [tokens_eq_map_charsAt, ← flatten_tokenPlaces, charsAt, List.filterMap_flatten]
  rfl

/-- No token is empty. -/
theorem nil_notMem_tokens (cs : List Char) : [] ∉ tokens cs := by
  intro hnil
  rw [tokens_eq_marks] at hnil
  have hne := (List.mem_filter.mp hnil).2
  cases hne

/-- A character is kept unless it delimits or is a gap. -/
theorem isKept_iff {m : Char × Mark} :
    isKept m = true ↔ m.2 ≠ .delimiter ∧ isGap m = false := by
  rw [isKept, Bool.and_eq_true, bne_iff_ne, Bool.not_eq_true']

/-- The positions of a run are those of its characters, but for the quotes that delimit. -/
theorem mem_places_iff {run : List ((Char × Mark) × Nat)}
    (hrun : run ∈ (marks cs).zipIdx.splitOnP (isGap ∘ Prod.fst)) {m : Char × Mark}
    (hi : marked? cs i = some m) (hm : m.2 ≠ .delimiter) :
    i ∈ (run.filter fun m => m.1.2 != .delimiter).map Prod.snd ↔ (m, i) ∈ run := by
  rw [List.mem_map]
  constructor
  · rintro ⟨⟨m', i'⟩, hmem, rfl⟩
    have hmem := List.mem_of_mem_filter hmem
    have hm' : marked? cs i' = some m' := mem_zipIdx_iff.mp (mem_of_mem_splitOnP hrun hmem)
    rwa [Option.some.inj (hi.symm.trans hm')]
  · intro hmem
    exact ⟨(m, i), List.mem_filter.mpr ⟨hmem, bne_iff_ne.mpr hm⟩, rfl⟩

/-- Two characters that do not delimit lie in one token just where they lie in one run between the
gaps. -/
theorem exists_mem_tokenPlaces_iff {m n : Char × Mark} (hi : marked? cs i = some m)
    (hj : marked? cs j = some n) (hm : m.2 ≠ .delimiter) (hn : n.2 ≠ .delimiter) :
    (∃ place ∈ tokenPlaces cs, i ∈ place ∧ j ∈ place) ↔
      ∃ run ∈ (marks cs).zipIdx.splitOnP (isGap ∘ Prod.fst), (m, i) ∈ run ∧ (n, j) ∈ run := by
  constructor
  · rintro ⟨place, hplace, hiplace, hjplace⟩
    obtain ⟨kept, hkept, rfl⟩ := List.mem_map.mp hplace
    obtain ⟨run, hrun, rfl⟩ := List.mem_map.mp (List.mem_of_mem_filter hkept)
    exact ⟨run, hrun, (mem_places_iff hrun hi hm).mp hiplace,
      (mem_places_iff hrun hj hn).mp hjplace⟩
  · rintro ⟨run, hrun, hirun, hjrun⟩
    have hiplace := (mem_places_iff hrun hi hm).mpr hirun
    have hjplace := (mem_places_iff hrun hj hn).mpr hjrun
    have hne : (run.filter fun m => m.1.2 != .delimiter) ≠ [] := by
      intro hnil
      rw [hnil] at hiplace
      cases hiplace
    have hkept : (run.filter fun m => m.1.2 != .delimiter) ∈ tokenRuns cs := by
      refine List.mem_filter.mpr ⟨List.mem_map_of_mem hrun, ?_⟩
      rw [List.isEmpty_eq_false_iff.mpr hne]
      rfl
    exact ⟨_, List.mem_map_of_mem hkept, hiplace, hjplace⟩

/-- Two positions that are kept lie in one token just where no gap lies between them. -/
theorem together_tokenPlaces_iff (hi : i ∈ positions isKept cs) (hj : j ∈ positions isKept cs)
    (hij : i < j) :
    (∃ place ∈ tokenPlaces cs, i ∈ place ∧ j ∈ place) ↔
      ∀ k ∈ positions isGap cs, ¬ (i < k ∧ k < j) := by
  obtain ⟨m, hi, hm⟩ := mem_positions.mp hi
  obtain ⟨n, hj, hn⟩ := mem_positions.mp hj
  obtain ⟨hm, hmgap⟩ := isKept_iff.mp hm
  obtain ⟨hn, hngap⟩ := isKept_iff.mp hn
  rw [exists_mem_tokenPlaces_iff hi hj hm hn, together_iff hij ((getElem?_marks cs i).trans hi)
    ((getElem?_marks cs j).trans hj) hmgap hngap]
  constructor
  · rintro hbetween k hk ⟨hik, hkj⟩
    obtain ⟨z, hz, hgap⟩ := mem_positions.mp hk
    rw [hbetween k z hik hkj ((getElem?_marks cs k).trans hz)] at hgap
    cases hgap
  · intro hnone k z hik hkj hz
    rw [getElem?_marks] at hz
    by_contra hgap
    exact hnone k (mem_positions.mpr ⟨z, hz, Bool.not_eq_false _ ▸ hgap⟩) ⟨hik, hkj⟩

example : tokenPlaces "a 'b c'd".toList = [[0], [3, 4, 5, 7]] := by decide

/-! ## The search for operators -/

/-- A position lies in the sign of an operator that was found. -/
abbrev Covers (found : Nat × Operator) (k : Nat) : Prop :=
  found.1 ≤ k ∧ k < found.1 + found.2.length

/-- What the search finds among marked characters from the position `i` on. -/
structure Searched (ms : List (Char × Mark)) (i : Nat) (found : List (Nat × Operator)) : Prop where
  /-- The signs follow each other and do not overlap. -/
  apart : found.Pairwise fun f g => f.1 + f.2.length ≤ g.1
  /-- Each operator is the one that begins at its position. -/
  begins : ∀ f ∈ found, operatorAt? (ms.drop f.1) = some f.2
  /-- No position at which an operator begins is passed over. -/
  covered : ∀ k, i ≤ k → operatorAt? (ms.drop k) ≠ none → ∃ f ∈ found, Covers f k

/-- The search from any position on is complete: it passes over no operator. -/
theorem searched_operatorsFrom (ms : List (Char × Mark)) (i : Nat) :
    Searched ms i (operatorsFrom i (ms.drop i)) := by
  by_cases hend : ms.length ≤ i
  · rw [List.drop_eq_nil_of_le hend]
    refine ⟨.nil, nofun, fun k hik hsome => absurd ?_ hsome⟩
    rw [List.drop_eq_nil_of_le (hend.trans hik)]
    rfl
  rw [operatorsFrom_eq]
  cases hop : operatorAt? (ms.drop i) with
  | none =>
    have ih := searched_operatorsFrom ms (i + 1)
    dsimp only
    rw [List.drop_drop]
    refine ⟨ih.apart, ih.begins, fun k hik hsome => ih.covered k ?_ hsome⟩
    refine Nat.lt_of_le_of_ne hik ?_
    rintro rfl
    exact hsome hop
  | some op =>
    have hpos := operator_length_pos op
    have ih := searched_operatorsFrom ms (i + op.length)
    dsimp only
    rw [List.drop_drop]
    refine ⟨List.pairwise_cons.mpr ⟨fun f hf => le_of_mem_operatorsFrom hf, ih.apart⟩,
      List.forall_mem_cons.mpr ⟨hop, ih.begins⟩, fun k hik hsome => ?_⟩
    by_cases hk : k < i + op.length
    · exact ⟨(i, op), List.mem_cons_self, hik, hk⟩
    · obtain ⟨f, hf, hcovers⟩ := ih.covered k (Nat.not_lt.mp hk) hsome
      exact ⟨f, List.mem_cons_of_mem _ hf, hcovers⟩
termination_by ms.length - i

/-- Operators that do not overlap share no position. -/
theorem Searched.eq_of_covers {ms : List (Char × Mark)} {found : List (Nat × Operator)}
    (h : Searched ms i found) {f g : Nat × Operator} (hf : f ∈ found) (hg : g ∈ found)
    (hfk : Covers f k) (hgk : Covers g k) : f = g := by
  let Shares (f g : Nat × Operator) : Prop := Covers f k → Covers g k → f = g
  have hsymm : Std.Symm Shares := ⟨fun f g hfg hg hf => (hfg hf hg).symm⟩
  have hshares : found.Pairwise Shares := h.apart.imp fun {f g} hle hf hg => by omega
  exact hshares.forall_of_forall (fun _ _ _ _ => rfl) hf hg hfk hgk

/-- Behind a position, the marks go on from its marked character. -/
theorem drop_marks {m : Char × Mark} (h : marked? cs k = some m) :
    (marks cs).drop k = m :: (marks cs).drop (k + 1) := by
  obtain ⟨hk, hget⟩ := List.getElem?_eq_some_iff.mp ((getElem?_marks cs k).trans h)
  rw [List.drop_eq_getElem_cons hk, hget]

/-- A semicolon and a bar outside the quotes begin an operator, if only a single one. -/
theorem operatorAt?_drop_of_separator {c : Char} (hc : c ∈ [';', '|'])
    (h : marked? cs k = some (c, .plain)) : operatorAt? ((marks cs).drop k) ≠ none := by
  have hone : operatorAt? [(c, .plain)] ≠ none := by
    fin_cases hc <;> exact Option.some_ne_none _
  rw [drop_marks h]
  exact operatorAt?_append_ne_none hone _

/-- So do two ampersands. -/
theorem operatorAt?_drop_of_pair (h : marked? cs k = some ('&', .plain))
    (hnext : marked? cs (k + 1) = some ('&', .plain)) :
    operatorAt? ((marks cs).drop k) ≠ none := by
  rw [drop_marks h, drop_marks hnext, operatorAt?]
  exact Option.some_ne_none _

/-- The characters of a sign stand outside the quotes. -/
theorem marked?_of_operatorAt? {op : Operator} (h : operatorAt? ((marks cs).drop i) = some op)
    {n : Nat} {c : Char} (hc : op.sign.toList[n]? = some c) :
    marked? cs (i + n) = some (c, .plain) := by
  have hn : n < op.sign.toList.length := (List.getElem?_eq_some_iff.mp hc).1
  rw [← getElem?_marks, ← List.getElem?_drop, eq_append_of_operatorAt? h,
    List.getElem?_append_left (by rwa [List.length_map]), List.getElem?_map, hc]
  rfl

/-- The operators of a text, described by the marks of its positions. -/
structure FindsOperators (cs : List Char) (found : List (Nat × Operator)) : Prop where
  /-- They are found in the order of the text. -/
  increasing : found.Pairwise fun f g => f.1 < g.1
  /-- No sign reaches into the next one. -/
  apart : found.Pairwise fun f g => f.1 + f.2.length ≤ g.1
  /-- The characters of a sign stand outside the quotes. -/
  signs : ∀ f ∈ found, ∀ n c, f.2.sign.toList[n]? = some c →
    marked? cs (f.1 + n) = some (c, .plain)
  /-- A doubled bar is not taken for two. -/
  single : ∀ i, (i, .pipe) ∈ found → marked? cs (i + 1) ≠ some ('|', .plain)
  /-- Each semicolon and each bar outside the quotes belongs to exactly one sign. -/
  separators : ∀ c ∈ [';', '|'], ∀ k ∈ positions (isPlain c) cs,
    ∃! f, f ∈ found ∧ Covers f k
  /-- Two ampersands outside the quotes are not passed over. -/
  pairs : ∀ k ∈ positions (isPlain '&') cs, k + 1 ∈ positions (isPlain '&') cs →
    ∃ f ∈ found, Covers f k

/-- The positions of a sign outside the quotes are those that are marked so. -/
theorem mem_positions_isPlain {c : Char} :
    k ∈ positions (isPlain c) cs ↔ marked? cs k = some (c, .plain) := by
  simp only [mem_positions, isPlain_iff, exists_eq_right]

/-- The operators that are found are those that the marks tell. -/
theorem findsOperators (cs : List Char) : FindsOperators cs (findOperators cs) := by
  have h : Searched (marks cs) 0 (findOperators cs) :=
    findOperators_eq_marks cs ▸ searched_operatorsFrom (marks cs) 0
  refine ⟨?_, h.apart, ?_, ?_, ?_, ?_⟩
  · refine h.apart.imp fun {f g} hle => ?_
    have := operator_length_pos f.2
    omega
  · exact fun f hf n c hc => marked?_of_operatorAt? (h.begins f hf) hc
  · intro i hi hnext
    have hbegins := h.begins _ hi
    have hsign : Operator.pipe.sign.toList[0]? = some '|' := rfl
    have hbar : marked? cs i = some ('|', .plain) := marked?_of_operatorAt? hbegins hsign
    rw [drop_marks hbar, drop_marks hnext, operatorAt?] at hbegins
    cases hbegins
  · intro c hc k hk
    rw [mem_positions_isPlain] at hk
    obtain ⟨f, hf, hcovers⟩ := h.covered k k.zero_le (operatorAt?_drop_of_separator hc hk)
    exact ⟨f, ⟨hf, hcovers⟩, fun g hg => h.eq_of_covers hg.1 hf hg.2 hcovers⟩
  · intro k hk hnext
    rw [mem_positions_isPlain] at hk hnext
    exact h.covered k k.zero_le (operatorAt?_drop_of_pair hk hnext)

example : findOperators "a&&&b;c|||d".toList = [(1, .and), (5, .sequence), (7, .or), (9, .pipe)] :=
  by decide

/-! ## The whole scan -/

/-- The tokens of a text, described by the marks of its positions. -/
structure Tokenizes (text : String) (tokens : List String) : Prop where
  nonempty : "" ∉ tokens
  /-- Together they are the text without the quotes that delimit and the gaps. -/
  join_eq : String.join tokens = String.ofList (charsAt text.toList (positions isKept text.toList))
  /-- Each kept position belongs to one token, and two of them to the same one just where no gap
  lies between them. -/
  together : ∃ places : List (List Nat), places.flatten = positions isKept text.toList ∧
    tokens = places.map (fun place => String.ofList (charsAt text.toList place)) ∧
    ∀ i ∈ positions isKept text.toList, ∀ j ∈ positions isKept text.toList, i < j →
      ((∃ place ∈ places, i ∈ place ∧ j ∈ place) ↔
        ∀ k ∈ positions isGap text.toList, ¬ (i < k ∧ k < j))

/-- The tokens that are found are those that the marks tell. -/
theorem tokenizes (text : String) : Tokenizes text (tokenize text) := by
  refine ⟨?_, ?_, tokenPlaces text.toList, flatten_tokenPlaces _, ?_, ?_⟩
  · rw [tokenize, List.mem_map]
    rintro ⟨token, htoken, hempty⟩
    rw [String.ofList_eq_empty_iff] at hempty
    subst hempty
    exact nil_notMem_tokens _ htoken
  · rw [← String.toList_inj, String.toList_join, String.toList_ofList, tokenize, List.flatMap_map,
      ← flatten_tokens_eq]
    simp only [String.toList_ofList, List.flatMap_id']
  · rw [tokenize, tokens_eq_map_charsAt, List.map_map]
    rfl
  · exact fun i hi j hj hij => together_tokenPlaces_iff hi hj hij

/-- The tokens of a text, the positions of a sign and the chain operators are those that the marks
of its positions tell: though each of the three searches keeps the open quote by itself, they take
the same characters for quoted, whatever quotes are open or nested and whatever counts as a
blank. -/
theorem scanners_agree (text : String) :
    Tokenizes text (tokenize text) ∧
      (∀ c, plainPositions c text.toList = positions (isPlain c) text.toList) ∧
      FindsOperators text.toList (findOperators text.toList) :=
  ⟨tokenizes text, fun c => plainPositions_eq c text.toList, findsOperators text.toList⟩

end VirtualShell.Line
