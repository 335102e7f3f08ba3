import VirtualShell.Proofs.Alias.Resolution
import VirtualShell.Proofs.Execution.PrintedAliases

/-!
# Aliases that rename another alias

An alias may stand for nothing but the name of another alias. Its arguments are put behind that
name, and the words of the line are the call of the other alias. The words are what stands between
single blanks, whether or not these stand in quotes, so an argument that holds blanks arrives as
several. No argument is lost by it: joined with blanks, they are the same text as before
(`joinWith_flatMap_splitOn`). What changes are the positions behind such an argument.

So renaming makes no difference to a template that uses all arguments at once, or none of them, and
to any template if no argument holds a blank (`forwards_arguments`).
-/

namespace VirtualShell

/-! ## Words of joined texts -/

namespace Text

/-- Fields that are joined by spaces are split at these and at their own spaces. -/
theorem splitOn_joinWith {fields : List String} (h : fields ≠ []) :
    splitOn ' ' (joinWith " " fields) = fields.flatMap (splitOn ' ') := by
  induction fields with
  | nil => exact absurd rfl h
  | cons first rest ih =>
    rcases rest with _ | ⟨second, rest⟩
    · rw [joinWith, String.intercalate_singleton, List.flatMap_singleton]
    · rw [List.flatMap_cons, ← ih (List.cons_ne_nil _ _), splitOn, Line.toList_joinWith_cons,
        splitOn_append_cons, List.map_append]
      rfl

/-- A text that is split at its spaces is joined again by them. -/
theorem joinWith_splitOn (text : String) : joinWith " " (splitOn ' ' text) = text := by
  have hsplit : [' '].intercalate (text.toList.splitOn ' ') = text.toList :=
    List.intercalate_splitOn ' '
  have hfields : (splitOn ' ' text).map String.toList = text.toList.splitOn ' ' := by
    simp [splitOn, Function.comp_def]
  apply String.toList_inj.mp
  rw [joinWith, String.toList_intercalate, hfields]
  exact hsplit

/-- Dividing the fields further changes nothing in the joined text. -/
theorem joinWith_flatMap_splitOn (fields : List String) :
    joinWith " " (fields.flatMap (splitOn ' ')) = joinWith " " fields := by
  rcases fields with _ | ⟨first, rest⟩
  · rfl
  · rw [← splitOn_joinWith (List.cons_ne_nil _ _), joinWith_splitOn]

/-- A text has at least one field. -/
theorem splitOn_ne_nil (text : String) : splitOn ' ' text ≠ [] := by
  simp [splitOn]

/-- Splitting every field leaves none only where there were none. -/
theorem isEmpty_flatMap_splitOn (fields : List String) :
    (fields.flatMap (splitOn ' ')).isEmpty = fields.isEmpty := by
  rcases fields with _ | ⟨first, rest⟩
  · rfl
  · simp [splitOn_ne_nil]

/-- Fields without spaces are not split. -/
theorem flatMap_splitOn_of_notMem {fields : List String}
    (h : ∀ field ∈ fields, ' ' ∉ field.toList) : fields.flatMap (splitOn ' ') = fields := by
  rw [List.flatMap_congr fun field hfield => splitOn_of_notMem (h field hfield),
    List.flatMap_singleton']

end Text

/-! ## Templates that start with a literal word -/

namespace Alias

open Text

variable {template : String} {args args' : List String}

/-- A front without a dollar sign adds no pair. -/
theorem hasPair_append_of_notMem {b : Char} {front : List Char} (h : '$' ∉ front)
    (cs : List Char) : hasPair '$' b (front ++ cs) = hasPair '$' b cs := by
  rw [Bool.eq_iff_iff, hasPair_iff, hasPair_iff]
  constructor
  · exact pair_infix_of_append front h
  · intro hpair
    exact hpair.trans (List.suffix_append front cs).isInfix

/-- Filling in all arguments leaves a front without a dollar sign as it is. -/
theorem fillAll_prepend {front : List Char} (h : '$' ∉ front) (sign : Char) (joined : List Char)
    (f : Filled) :
    fillAll sign joined (f.prepend front false) = (fillAll sign joined f).prepend front false := by
  rw [fillAll_eq, fillAll_eq]
  simp [Filled.prepend, replacePair_append_of_notMem h, hasPair_append_of_notMem h]

/-- What stands in front of the first dollar sign of a template stays. -/
theorem substitute_append_of_notMem {front : String} (h : '$' ∉ front.toList) (tail : String)
    (args : List String) :
    substitute (front ++ tail) args = (substitute tail args).map (front ++ ·) := by
  rw [substitute, substitute, String.toList_append, fillPositions_append_of_notMem h]
  rcases fillPositions args tail.toList with e | f
  · rfl
  · simp only [Except.map, bind, Except.bind, pure, Except.pure, fillAll_prepend h]
    simp only [Filled.prepend, Bool.false_or, String.ofList_append, String.ofList_toList]
    split <;> simp [String.append_assoc]

/-- The arguments matter as a joined text and by the positions that the template refers to. -/
theorem substitute_congr (hjoined : joinWith " " args = joinWith " " args')
    (hempty : args.isEmpty = args'.isEmpty)
    (h : ∀ digits, .position digits ∈ pieces template.toList →
      argument? args digits = argument? args' digits) :
    substitute template args = substitute template args' := by
  have hpart : ∀ part ∈ pieces template.toList,
      part.place args = part.place args' ∧ part.uses args = part.uses args' := by
    intro part hpart
    rcases part with c | digits | kind
    · exact ⟨rfl, rfl⟩
    · simp only [Piece.place, Piece.fill, Piece.uses, h digits hpart, and_self]
    · exact ⟨rfl, rfl⟩
  have hplaced : placed args template.toList = placed args' template.toList :=
    List.flatMap_congr fun part hmem => (hpart part hmem).1
  have huses : (pieces template.toList).any (Piece.uses args)
      = (pieces template.toList).any (Piece.uses args') := by
    rw [Bool.eq_iff_iff, List.any_eq_true, List.any_eq_true]
    refine exists_congr fun part => and_congr_right fun hmem => ?_
    rw [(hpart part hmem).2]
  rw [substitute_eq, substitute_eq, hjoined, hplaced]
  simp only [withUnused, hempty, huses, hjoined]

/-- Quoting brings no space into an argument. -/
theorem blank_notMem_quoteArgument {argument : String} (h : ' ' ∉ argument.toList) :
    ' ' ∉ (quoteArgument argument).toList := by
  have hreplaced : ' ' ∉ (replaceChar '\'' "'\"'\"'" argument).toList := by
    rw [replaceChar, String.toList_ofList, List.mem_flatMap]
    rintro ⟨c, hc, hmem⟩
    split at hmem
    · revert hmem
      decide
    · rw [List.mem_singleton] at hmem
      exact h (hmem ▸ hc)
  rw [quoteArgument]
  split
  · simpa using hreplaced
  · exact h

/-- A name of an alias holds nothing that has a meaning, except perhaps a line feed at its end. -/
theorem notMem_of_isValidName {name : String} (h : isValidName name = true) {c : Char}
    (hc : needsQuotes c = true) (hnewline : c ≠ '\n') : c ∉ name.toList := by
  intro hmem
  have hword {cs : List Char} (hcs : isWord cs = true) : c ∉ cs := by
    intro hmem
    rw [(plain_of_isWord hcs hmem).1] at hc
    cases hc
  rw [isValidName, Bool.and_eq_true, Bool.or_eq_true] at h
  rcases h.2 with hname | hname
  · exact hword hname hmem
  · refine hword hname ?_
    by_cases hlast : name.toList.getLast? = some '\n'
    · obtain ⟨front, hfront⟩ := List.getLast?_eq_some_iff.mp hlast
      rw [hfront, List.mem_append, List.mem_singleton] at hmem
      rw [dropFinalNewline, hlast, hfront, List.dropLast_concat]
      exact hmem.resolve_right hnewline
    · rwa [dropFinalNewline_of_ne hlast]

end Alias

namespace Aliases

variable {t : Aliases}

/-- The words of a line whose first word has no space are that word and the fields of the
arguments. -/
theorem wordsOf_eq {word : String} (h : ' ' ∉ word.toList) (args : List String) :
    wordsOf (Text.joinWith " " (word :: args)) = (word, args.flatMap (Text.splitOn ' ')) := by
  rw [wordsOf, Text.splitOn_joinWith (List.cons_ne_nil _ _), List.flatMap_cons,
    Text.splitOn_of_notMem h]
  rfl

/-- A first word without a dollar sign stays the first word. -/
theorem wordsOf_substitute {template line : String} {args : List String}
    (h : '$' ∉ (wordsOf template).1.toList) (hline : Alias.substitute template args = .ok line) :
    (wordsOf line).1 = (wordsOf template).1 := by
  obtain ⟨word, rest, hsplit⟩ : ∃ word rest, Text.splitOn ' ' template = word :: rest :=
    List.exists_cons_of_ne_nil (Text.splitOn_ne_nil template)
  have hblank : ' ' ∉ word.toList := Text.not_mem_of_mem_splitOn (hsplit ▸ List.mem_cons_self)
  have hfirst : (wordsOf template).1 = word := by rw [wordsOf, hsplit]
  have htemplate : Text.joinWith " " (word :: rest) = template := by
    rw [← hsplit, Text.joinWith_splitOn]
  rw [hfirst] at h ⊢
  rcases rest with _ | ⟨second, rest⟩
  · obtain rfl : word = template := by simpa [Text.joinWith] using htemplate
    rw [Alias.substitute_of_notMem h] at hline
    cases hline
    exact wordsOf_joinWith hblank args
  · have hfront : '$' ∉ (word ++ " ").toList := by simpa using h
    have hcut : template = word ++ " " ++ Text.joinWith " " (second :: rest) := by
      rw [← htemplate, Text.joinWith, String.intercalate_cons_cons]
      rfl
    rw [hcut, Alias.substitute_append_of_notMem hfront] at hline
    rcases hrest : Alias.substitute (Text.joinWith " " (second :: rest)) args with e | tail
    · rw [hrest] at hline
      cases hline
    · rw [hrest] at hline
      cases hline
      exact wordsOf_joinWith hblank [tail]

/-- A call of an alias whose template starts with a literal word ends the resolution. -/
theorem ends_of_literal {name template : String} (htemplate : t.command? name = some template)
    (hliteral : '$' ∉ (wordsOf template).1.toList)
    (hword : t.contains (wordsOf template).1 = false) (args : List String) :
    t.Ends (name, args) (Alias.substitute template args) := by
  refine ⟨⟨template, htemplate, rfl⟩, fun line hline => ?_⟩
  rw [wordsOf_substitute hliteral hline]
  exact hword

/-- An alias that stands for the name of another leads to it, with the arguments divided at their
blanks. -/
theorem leads_of_name {name other : String} (hrename : t.command? name = some other)
    (hother : Alias.isValidName other = true) (args : List String) :
    t.Leads (name, args) (other, args.flatMap (Text.splitOn ' ')) := by
  have hdollar : '$' ∉ other.toList := Alias.notMem_of_isValidName hother (by decide) (by decide)
  have hblank : ' ' ∉ other.toList := Alias.notMem_of_isValidName hother (by decide) (by decide)
  exact ⟨_, ⟨other, hrename, Alias.substitute_of_notMem hdollar args⟩, wordsOf_eq hblank args⟩

/-- An alias that stands for the name of another, whose template starts with a literal word,
resolves to what the other does on the arguments divided at their blanks. That is what the other
resolves to on the arguments themselves just where the template comes to the same: in particular
where the arguments that it refers to by position stay in their places, and where no argument holds
a blank. -/
theorem forwards_arguments {name other template : String}
    (hrename : t.command? name = some other) (hne : name ≠ other)
    (hother : Alias.isValidName other = true) (htemplate : t.command? other = some template)
    (hliteral : '$' ∉ (wordsOf template).1.toList)
    (hword : t.contains (wordsOf template).1 = false) (given : List String) :
    let args := given.map Alias.quoteArgument
    let divided := args.flatMap (Text.splitOn ' ')
    t.resolve name args = t.resolve other divided ∧
      (t.resolve name args = t.resolve other args ↔
        Alias.substitute template divided = Alias.substitute template args) ∧
      ((∀ digits, .position digits ∈ Alias.pieces template.toList →
          Alias.argument? divided digits = Alias.argument? args digits) →
        t.resolve name args = t.resolve other args) ∧
      ((∀ x ∈ given, ' ' ∉ x.toList) → t.resolve name args = t.resolve other args) := by
  intro args divided
  have hends (args : List String) := ends_of_literal htemplate hliteral hword args
  have hdirect (args : List String) :
      t.resolve other args = (Alias.substitute template args).map .line :=
    (hends args).resolveWithin_eq List.not_mem_nil
  have hrenamed : t.resolve name args = (Alias.substitute template divided).map .line := by
    have hvisited : other ∉ [name] := by simpa using hne.symm
    have hdefined : t.contains other = true := (hends args).1.contains
    have hleads := leads_of_name hrename hother args
    rw [resolve, maxDepth, hleads.resolveWithin_eq hdefined List.not_mem_nil,
      (hends divided).resolveWithin_eq hvisited]
  have hiff : t.resolve name args = t.resolve other args ↔
      Alias.substitute template divided = Alias.substitute template args := by
    rw [hrenamed, hdirect args, map_line_eq_iff]
  refine ⟨by rw [hrenamed, hdirect divided], hiff, fun hpositions => ?_, fun hblank => ?_⟩
  · exact hiff.mpr (Alias.substitute_congr (Text.joinWith_flatMap_splitOn args)
      (Text.isEmpty_flatMap_splitOn args) hpositions)
  · have hdivided : divided = args := by
      refine Text.flatMap_splitOn_of_notMem fun arg harg => ?_
      obtain ⟨x, hx, rfl⟩ := List.mem_map.mp harg
      exact Alias.blank_notMem_quoteArgument (hblank x hx)
    rw [hiff, hdivided]

/-- Aliases of which `hi` renames `greet`. -/
def greetings : Aliases :=
  [("greet", { name := "greet", command := "echo hello $1", createdAt := .epoch }),
    ("hi", { name := "hi", command := "greet", createdAt := .epoch })]

/-- An argument in quotes arrives as it is if there is no blank in it. -/
theorem forwards_single_word :
    greetings.resolve "hi" ["'$'", "Bob"] = greetings.resolve "greet" ["'$'", "Bob"] ∧
      greetings.resolve "greet" ["'$'", "Bob"] = .ok (.line "echo hello '$'") := by
  have hrename : greetings.command? "hi" = some "greet" := rfl
  have htemplate : greetings.command? "greet" = some "echo hello $1" := rfl
  have hfirst : (wordsOf "echo hello $1").1 = "echo" := by decide +kernel
  have hliteral : '$' ∉ (wordsOf "echo hello $1").1.toList := by
    rw [hfirst]
    decide
  have hword : greetings.contains (wordsOf "echo hello $1").1 = false := by
    rw [hfirst]
    decide
  have hforwards := forwards_arguments hrename (by decide) (by decide) htemplate hliteral hword
    ["$", "Bob"]
  exact ⟨hforwards.2.2.2 (by decide), by decide +kernel⟩

/-- An argument with a blank arrives as two. -/
theorem divides_quoted_argument :
    Alias.quoteArgument "Bob Ross" = "'Bob Ross'" ∧
      greetings.resolve "greet" ["'Bob Ross'"] = .ok (.line "echo hello 'Bob Ross'") ∧
      greetings.resolve "hi" ["'Bob Ross'"] = .ok (.line "echo hello 'Bob") := by
  refine ⟨?_, ?_, ?_⟩
  · decide +kernel
  · decide +kernel
  · decide +kernel

end Aliases

end VirtualShell
