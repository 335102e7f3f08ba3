import VirtualShell.Completion
import VirtualShell.Proofs.Line.LastOperator
import VirtualShell.Proofs.Session.WholeTree

/-!
# Completing behind an operator

When a line is completed, only the text behind its last operator counts: the line is cut where that
text starts (`splitContext_append`).

Behind an operator a text without a space is taken for the start of a name. Alone it may be more
than that: a redirection such as `cat<a`, or words with other blanks between them. `OneWord` holds
of the texts that are the start of a name in either place. `completes_behind_operator` says which
texts are completed behind an operator as they are alone, and what becomes of the others.
-/

namespace VirtualShell

namespace Completion

open Text

/-! ## The text that counts -/

/-- A text without operators is all context. -/
theorem splitContext_of_findOperators {text : List Char} (h : Line.findOperators text = []) :
    splitContext text = ([], text) := by
  rw [splitContext, h, List.getLast?_nil]

/-- Behind the last operator and its blanks the context begins. -/
theorem splitContext_of_last {front blanks text : List Char} {op : Operator}
    (hlast : (Line.findOperators (front ++ (op.sign.toList ++ (blanks ++ text)))).getLast?
      = some (front.length, op))
    (hblanks : ∀ c ∈ blanks, isBlank c = true) (hstart : trimStart text = text) :
    splitContext (front ++ (op.sign.toList ++ (blanks ++ text)))
      = (front ++ (op.sign.toList ++ blanks), text) := by
  have hdrop : (front ++ (op.sign.toList ++ (blanks ++ text))).drop (front.length + op.length)
      = blanks ++ text := by
    rw [← List.drop_drop, List.drop_left, ← Line.length_sign op, List.drop_left]
  have htrim : trimStart (blanks ++ text) = text := by
    rw [trimStart, List.dropWhile_append_of_pos hblanks]
    exact hstart
  rw [splitContext, hlast]
  dsimp only
  rw [hdrop, htrim, ← List.append_assoc, ← List.append_assoc, List.length_append,
    Nat.add_sub_cancel, List.take_left, List.append_assoc]

/-- Only the text behind the last operator counts. -/
theorem splitContext_append {before text : List Char} (hbefore : Line.EndsInOperator before)
    (htext : Line.findOperators text = []) (hstart : trimStart text = text) :
    splitContext (before ++ text) = (before, text) := by
  obtain ⟨front, op, blanks, rfl, hmem, hblanks⟩ := hbefore
  rw [List.append_assoc, List.append_assoc]
  exact splitContext_of_last (Line.getLast?_findOperators_append hmem hblanks htext) hblanks hstart

/-! ## Words -/

/-- A text is one word: there is no blank in it, and nothing behind its first character starts a
redirection. -/
structure OneWord (text : List Char) : Prop where
  not_blank : ∀ c ∈ text, isBlank c = false
  not_sign : ∀ c ∈ text.tail, c ≠ '<' ∧ c ≠ '>'

instance (text : List Char) : Decidable (OneWord text) :=
  decidable_of_iff (text.all (!isBlank ·) ∧ text.tail.all fun c => c != '<' && c != '>') <| by
    simp only [List.all_eq_true, Bool.not_eq_true', Bool.and_eq_true, bne_iff_ne]
    exact ⟨fun ⟨hblank, hsign⟩ => ⟨hblank, hsign⟩, fun ⟨hblank, hsign⟩ => ⟨hblank, hsign⟩⟩

/-- A start of a word is a word. -/
theorem OneWord.of_isPrefix {start text : List Char} (h : OneWord text) (hstart : start <+: text) :
    OneWord start := by
  have htail : start.tail <+: text.tail := by
    rw [← List.drop_one, ← List.drop_one]
    exact hstart.drop 1
  exact ⟨fun c hc => h.not_blank c (hstart.subset hc), fun c hc => h.not_sign c (htail.subset hc)⟩

/-- One word holds no space. -/
theorem OneWord.space_notMem {text : List Char} (h : OneWord text) : ' ' ∉ text :=
  fun hmem => absurd (h.not_blank ' ' hmem) (by decide)

/-- One word has nothing to trim. -/
theorem OneWord.trim_eq {text : List Char} (h : OneWord text) : trim text = text :=
  trim_eq_self_iff.mpr ⟨fun c hc => h.not_blank c (List.mem_of_mem_head? hc),
    fun c hc => h.not_blank c (List.mem_of_mem_getLast? hc)⟩

/-- A character that is no sign begins none. -/
theorem signAt?_cons {c : Char} (h : c ≠ '<' ∧ c ≠ '>') (cs : List Char) :
    signAt? (c :: cs) = none := by
  obtain ⟨hless, hgreater⟩ := h
  simp [signAt?, hless, hgreater, Ne.symm]

/-- At the start of a text there is no redirection. -/
theorem redirectionAt?_nil_left (cs : List Char) : redirectionAt? [] cs = none := by
  rw [redirectionAt?]
  cases signAt? _ <;> rfl

/-- Nor is there one at a character that is neither a blank nor a sign. -/
theorem redirectionAt?_cons {c : Char} (hblank : isBlank c = false) (hsign : c ≠ '<' ∧ c ≠ '>')
    (done cs : List Char) : redirectionAt? done (c :: cs) = none := by
  have hblanks : (c :: cs).takeWhile isBlank = [] := by
    rw [List.takeWhile_cons, hblank]
    rfl
  rw [redirectionAt?, hblanks]
  dsimp only [List.length_nil]
  rw [List.drop_zero, signAt?_cons hsign]
  rfl

/-- Where no redirection starts, the search goes on behind a character that is no blank. -/
theorem redirectionFrom?_cons {c : Char} (hc : isBlank c = false) {done rest : List Char}
    (h : redirectionAt? done (c :: rest) = none) :
    redirectionFrom? done (c :: rest) = redirectionFrom? (c :: done) rest := by
  have hfeed : c ≠ '\n' := by
    rintro rfl
    exact absurd hc (by decide)
  rw [redirectionFrom?, h, if_neg hfeed]
  rfl

/-- A text without blanks and signs holds no redirection. -/
theorem redirectionFrom?_eq_none {text : List Char} (hblank : ∀ c ∈ text, isBlank c = false)
    (hsign : ∀ c ∈ text, c ≠ '<' ∧ c ≠ '>') (done : List Char) :
    redirectionFrom? done text = none := by
  induction text generalizing done with
  | nil => rfl
  | cons c rest ih =>
    obtain ⟨hc, hblank⟩ := List.forall_mem_cons.mp hblank
    obtain ⟨hc', hsign⟩ := List.forall_mem_cons.mp hsign
    rw [redirectionFrom?_cons hc (redirectionAt?_cons hc hc' done rest)]
    exact ih hblank hsign (c :: done)

/-- A word is no redirection. A sign that it starts with has nothing in front of it. -/
theorem OneWord.redirection?_eq_none {text : List Char} (h : OneWord text) :
    redirection? text = none := by
  rw [redirection?, h.trim_eq]
  obtain ⟨hblank, hsign⟩ := h
  cases text with
  | nil => rfl
  | cons c rest =>
    obtain ⟨hc, hblank⟩ := List.forall_mem_cons.mp hblank
    rw [redirectionFrom?_cons hc (redirectionAt?_nil_left _)]
    exact redirectionFrom?_eq_none hblank hsign [c]

/-- One word is its own only word, unless it is empty. -/
theorem OneWord.words_eq {text : List Char} (h : OneWord text) :
    words text = if text.isEmpty then [] else [text] := by
  rw [words, List.splitOnP_eq_singleton h.not_blank]
  cases text <;> rfl

/-! ## Completions -/

/-- What a line can be completed to, and the longest text that all of it starts with. -/
def complete (commands : List String) (s : Session) (line : String) :
    Except TreeFault (List String × String) :=
  (candidates commands s line).map fun found => (found, commonStart found)

variable {commands : List String} {s : Session} {before text : String}

/-- A word alone is completed to names. -/
theorem candidates_of_oneWord (htext : Line.findOperators text.toList = [])
    (h : OneWord text.toList) :
    candidates commands s text = .ok (nameCandidates commands s text.toList) := by
  have hspace : endsInSpace text.toList = false := by
    rw [endsInSpace, beq_eq_false_iff_ne]
    exact fun hlast => h.space_notMem (List.mem_of_getLast? hlast)
  rw [candidates, splitContext_of_findOperators htext]
  simp only [h.redirection?_eq_none, h.words_eq, hspace]
  cases text.toList <;> rfl

/-- Behind an operator, a text without a space is completed to names, whatever else is in it. -/
theorem candidates_append_of_notMem (hbefore : Line.EndsInOperator before.toList)
    (htext : Line.findOperators text.toList = []) (hstart : trimStart text.toList = text.toList)
    (h : ' ' ∉ text.toList) :
    candidates commands s (before ++ text) = .ok (nameCandidates commands s text.toList) := by
  have hshort : (!before.toList.isEmpty && !text.toList.contains ' ') = true := by
    simp [hbefore.ne_nil, h]
  rw [candidates, String.toList_append, splitContext_append hbefore htext hstart]
  exact if_pos hshort

/-- Behind an operator, a text with a space is completed as it is alone. -/
theorem candidates_append_of_mem (hbefore : Line.EndsInOperator before.toList)
    (htext : Line.findOperators text.toList = []) (hstart : trimStart text.toList = text.toList)
    (h : ' ' ∈ text.toList) :
    candidates commands s (before ++ text) = candidates commands s text := by
  have hcontains : text.toList.contains ' ' = true := List.contains_iff_mem.mpr h
  rw [candidates, candidates, String.toList_append, splitContext_append hbefore htext hstart,
    splitContext_of_findOperators htext]
  simp only [hcontains, Bool.not_true, Bool.and_false]

/-- Where all names are words, no name starts with a text that is none. -/
theorem nameCandidates_eq_nil (hnames : ∀ n ∈ knownNames commands s, OneWord n.toList)
    {start : List Char} (h : ¬ OneWord start) : nameCandidates commands s start = [] := by
  have hnone : (knownNames commands s).filter (fun n => start.isPrefixOf n.toList) = [] := by
    rw [List.filter_eq_nil_iff]
    intro n hn hstart
    exact h ((hnames n hn).of_isPrefix (List.isPrefixOf_iff_prefix.mp hstart))
  rw [nameCandidates, hnone, sortTexts, List.mergeSort_nil, List.eraseDups_nil]

/-- Behind an operator a text is completed as it is alone if there is a space in it or it is one
word. Any other text is taken for the start of a name there, and if all names are words, it has no
completions. -/
theorem completes_behind_operator (commands : List String) (s : Session)
    (hbefore : Line.EndsInOperator before.toList) (htext : Line.findOperators text.toList = [])
    (hstart : stripStart text = text) :
    (' ' ∈ text.toList ∨ OneWord text.toList →
      complete commands s (before ++ text) = complete commands s text) ∧
    ((∀ n ∈ knownNames commands s, OneWord n.toList) →
      (complete commands s (before ++ text) = complete commands s text ↔
        ' ' ∈ text.toList ∨ OneWord text.toList ∨ complete commands s text = .ok ([], ""))) := by
  have htrim : trimStart text.toList = text.toList := by
    have hchars := congrArg String.toList hstart
    rwa [stripStart, String.toList_ofList] at hchars
  have hsame : ' ' ∈ text.toList ∨ OneWord text.toList →
      complete commands s (before ++ text) = complete commands s text := by
    rintro (hspace | hword)
    · rw [complete, complete, candidates_append_of_mem hbefore htext htrim hspace]
    · rw [complete, complete, candidates_append_of_notMem hbefore htext htrim hword.space_notMem,
        candidates_of_oneWord htext hword]
  refine ⟨hsame, fun hnames => ?_⟩
  rw [← or_assoc]
  by_cases h : ' ' ∈ text.toList ∨ OneWord text.toList
  · exact iff_of_true (hsame h) (.inl h)
  · obtain ⟨hspace, hword⟩ := not_or.mp h
    have hnone : complete commands s (before ++ text) = .ok ([], "") := by
      rw [complete, candidates_append_of_notMem hbefore htext htrim hspace,
        nameCandidates_eq_nil hnames hword]
      rfl
    rw [hnone, or_iff_right h]
    exact eq_comm

/-- The note in the directory is offered to a command behind an operator as it is to the command
alone. -/
theorem completes_note_behind_operator :
    (Line.EndsInOperator "ls ';' && ".toList ∧ Line.findOperators "cat ./".toList = [] ∧
      stripStart "cat ./" = "cat ./" ∧
      ∀ n ∈ knownNames Builtin.names noteSession, OneWord n.toList) ∧
    complete Builtin.names noteSession "cat ./" = .ok (["./a"], "./a") ∧
    complete Builtin.names noteSession ("ls ';' && " ++ "cat ./") = .ok (["./a"], "./a") := by
  have hbefore : Line.EndsInOperator "ls ';' && ".toList :=
    ⟨"ls ';' ".toList, .and, [' '], by decide, by decide +kernel,
      List.forall_mem_singleton.mpr (by decide)⟩
  have htext : Line.findOperators "cat ./".toList = [] := by decide
  have hstart : stripStart "cat ./" = "cat ./" := by decide
  have hnames : ∀ n ∈ knownNames Builtin.names noteSession, OneWord n.toList := by decide +kernel
  have halone : complete Builtin.names noteSession "cat ./" = .ok (["./a"], "./a") := by
    decide +kernel
  refine ⟨⟨hbefore, htext, hstart, hnames⟩, halone, ?_⟩
  rw [← halone]
  exact ((completes_behind_operator _ _ hbefore htext hstart).2 hnames).mpr (.inl (by decide))

/-- A redirection without a space in it is not seen behind an operator. -/
theorem redirection_missed_behind_operator :
    (Line.EndsInOperator "ls && ".toList ∧ Line.findOperators "cat<a".toList = [] ∧
      stripStart "cat<a" = "cat<a") ∧
    complete Builtin.names noteSession "cat<a" = .ok (["a"], "a") ∧
    complete Builtin.names noteSession ("ls && " ++ "cat<a") = .ok ([], "") := by
  have hbefore : Line.EndsInOperator "ls && ".toList :=
    ⟨"ls ".toList, .and, [' '], by decide, by decide +kernel,
      List.forall_mem_singleton.mpr (by decide)⟩
  exact ⟨⟨hbefore, by decide, by decide⟩, by decide +kernel, by decide +kernel⟩

end Completion

end VirtualShell
