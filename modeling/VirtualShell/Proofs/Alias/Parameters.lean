import Mathlib.Data.List.TakeWhile
import VirtualShell.Alias.Definition
import VirtualShell.Proofs.Alias.Rescan

/-!
# Filling in the arguments of an alias

A template is made of pieces: characters that stand for themselves, references to an argument by its
position, and wildcards. Filling in replaces the kinds of references one after the other, each time
in the text that the kind before has left, while the pieces could as well be filled in all at once
(`fillAtOnce`).

The passes are followed piece by piece: the references by position give a text in glyphs
(`fillPositions_eq`), in which the wildcards of the template are told from characters that read as
one, and the wildcards are then replaced in what is written (`substitute_eq`). So filling in is
filling in at once if no wildcard comes about on the way and no number is too long to be read, and
only then (`fills_at_once_iff`).
-/

namespace VirtualShell.Alias

open Text

/-! ## The pieces of a template -/

/-- A piece of a template. -/
inductive Piece where
  /-- A character that stands for itself. -/
  | char (c : Char)
  /-- A dollar sign and the digits behind it, which refer to an argument by its position. -/
  | position (digits : List Char)
  /-- A sign for all arguments. -/
  | all (kind : Wildcard)
  deriving DecidableEq, Repr

/-- The pieces of a template, from left to right. A number has all the digits that follow. -/
def pieces (template : List Char) : List Piece :=
  match template with
  | [] => []
  | '$' :: '*' :: rest => .all .star :: pieces rest
  | '$' :: '@' :: rest => .all .atSign :: pieces rest
  | '$' :: d :: rest =>
    if isDecimal d then
      .position (d :: rest.takeWhile isDecimal) :: pieces (rest.dropWhile isDecimal)
    else .char '$' :: pieces (d :: rest)
  | c :: rest => .char c :: pieces rest
termination_by template.length
decreasing_by
  all_goals simp only [List.length_cons]
  all_goals try omega
  have := (List.dropWhile_sublist isDecimal (l := rest)).length_le
  omega

/-- The argument that a number refers to. -/
def argument? (args : List String) (digits : List Char) : Option String :=
  let n := natOfDigits digits
  if n = 0 then none else args[n - 1]?

/-- What takes the place of a piece: the argument with that position, if there is one, or all
arguments. -/
def Piece.fill (args : List String) : Piece → List Char
  | .char c => [c]
  | .position digits =>
    match argument? args digits with
    | some arg => arg.toList
    | none => '$' :: digits
  | .all _ => (joinWith " " args).toList

/-- Whether the piece is replaced by arguments. -/
def Piece.uses (args : List String) : Piece → Bool
  | .char _ => false
  | .position digits => (argument? args digits).isSome
  | .all _ => true

/-- A filled template, with the arguments behind it if there are some and no piece is replaced by
arguments. -/
def withUnused (args : List String) (parts : List Piece) (text : List Char) : String :=
  if !args.isEmpty && !parts.any (Piece.uses args) then
    String.ofList text ++ " " ++ joinWith " " args
  else String.ofList text

/-- The template with every piece replaced at once. -/
def fillAtOnce (template : String) (args : List String) : String :=
  let parts := pieces template.toList
  withUnused args parts (parts.flatMap (Piece.fill args))

/-! ## References by position -/

/-- The number of digits, if there are more of them than a number may be read from. -/
def Piece.overlong? : Piece → Option Nat
  | .position digits => if maxDigits < digits.length then some digits.length else none
  | _ => none

/-- The number of digits of the first reference that has too many. -/
def overlong? (template : List Char) : Option Nat :=
  (pieces template).findSome? Piece.overlong?

/-- A piece once the references by position are replaced. -/
def Piece.place (args : List String) : Piece → List Glyph
  | .char c => [.char c]
  | .position digits => (Piece.fill args (.position digits)).map .char
  | .all kind => [.sign kind]

/-- A template once the references by position are replaced. -/
def placed (args : List String) (template : List Char) : List Glyph :=
  (pieces template).flatMap (Piece.place args)

/-- Whether the piece is replaced by an argument as a reference by position. -/
def Piece.usesPosition (args : List String) : Piece → Bool
  | .position digits => (argument? args digits).isSome
  | _ => false

/-- A filled text with more in front of it. -/
def Filled.prepend (front : List Char) (used : Bool) (f : Filled) : Filled :=
  { text := front ++ f.text, used := used || f.used }

variable {args : List String}

/-- A template is filled piece by piece between its dollar signs. -/
theorem fillPositions_of_split {template first : List Char} {rest : List (List Char)}
    (h : template.splitOn '$' = first :: rest) :
    fillPositions args template = (rest.mapM (fillPosition args)).map fun filled =>
      { text := first ++ filled.flatMap Filled.text, used := filled.any Filled.used } := by
  rw [fillPositions, h]
  simp only [bind, Except.bind, pure, Except.pure]
  cases rest.mapM (fillPosition args) <;> rfl

/-- A text has a first field. -/
theorem exists_splitOn_eq (cs : List Char) : ∃ first rest, cs.splitOn '$' = first :: rest :=
  List.exists_cons_of_ne_nil (List.splitOn_ne_nil '$' cs)

/-- A front without a dollar sign belongs to the first field. -/
theorem splitOn_append_of_notMem {ds : List Char} (h : '$' ∉ ds) {cs first : List Char}
    {rest : List (List Char)} (hsplit : cs.splitOn '$' = first :: rest) :
    (ds ++ cs).splitOn '$' = (ds ++ first) :: rest := by
  induction ds with
  | nil => exact hsplit
  | cons d ds ih =>
    rw [List.mem_cons, not_or] at h
    rw [List.cons_append, List.splitOn_cons_eq_if_modifyHead, if_neg (by simpa using Ne.symm h.1),
      ih h.2]
    rfl

/-- What stands in front of the first dollar sign stays. -/
theorem fillPositions_append_of_notMem {front : List Char} (h : '$' ∉ front) (cs : List Char) :
    fillPositions args (front ++ cs)
      = (fillPositions args cs).map (Filled.prepend front false) := by
  obtain ⟨first, rest, hsplit⟩ := exists_splitOn_eq cs
  rw [fillPositions_of_split hsplit, fillPositions_of_split (splitOn_append_of_notMem h hsplit)]
  cases rest.mapM (fillPosition args) <;> simp [Except.map, Filled.prepend]

/-- A character other than a dollar sign is taken over as it is. -/
theorem fillPositions_cons_of_ne {c : Char} (hc : c ≠ '$') (cs : List Char) :
    fillPositions args (c :: cs) = (fillPositions args cs).map (Filled.prepend [c] false) := by
  have hfront : '$' ∉ [c] := by simpa using hc.symm
  exact fillPositions_append_of_notMem hfront cs

/-- The text up to the next dollar sign begins with no digit if the whole does not. -/
theorem takeWhile_of_splitOn {cs first : List Char} {rest : List (List Char)}
    (hsplit : cs.splitOn '$' = first :: rest) (h : cs.takeWhile isDecimal = []) :
    first.takeWhile isDecimal = [] := by
  have hbegins : first <+: cs := by
    have hcs : ['$'].intercalate (cs.splitOn '$') = cs := List.intercalate_splitOn '$'
    rw [hsplit] at hcs
    rw [← hcs]
    rcases rest with _ | ⟨second, rest⟩
    · simp
    · rw [List.intercalate_cons_cons, List.append_assoc]
      exact List.prefix_append _ _
  obtain ⟨tail, rfl⟩ := hbegins
  rcases first with _ | ⟨c, first⟩
  · rfl
  · simpa [List.takeWhile_cons] using h

/-- A dollar sign with a number behind it, or with none, is filled on its own. -/
theorem fillPositions_dollar {ds cs : List Char} {r : Except NumberError Filled} (hds : '$' ∉ ds)
    (hcs : cs.takeWhile isDecimal = [])
    (h : ∀ tail : List Char, tail.takeWhile isDecimal = [] →
      fillPosition args (ds ++ tail) = r.map fun f => { text := f.text ++ tail, used := f.used }) :
    fillPositions args ('$' :: (ds ++ cs))
      = r.bind fun f => (fillPositions args cs).map (Filled.prepend f.text f.used) := by
  obtain ⟨first, rest, hsplit⟩ := exists_splitOn_eq cs
  have hdollar : ('$' :: (ds ++ cs)).splitOn '$' = [] :: (ds ++ first) :: rest := by
    rw [List.splitOn_cons_eq_if_modifyHead, if_pos (by simp), splitOn_append_of_notMem hds hsplit]
  rw [fillPositions_of_split hdollar, fillPositions_of_split hsplit, List.mapM_cons,
    h first (takeWhile_of_splitOn hsplit hcs)]
  rcases r with e | f
  · rfl
  · simp only [Except.map, Except.bind, bind, pure, Except.pure]
    cases rest.mapM (fillPosition args) with
    | error e => rfl
    | ok filled => simp [Filled.prepend]

/-- Behind a dollar sign without a digit nothing is filled in. -/
theorem fillPosition_of_no_digit {tail : List Char} (h : tail.takeWhile isDecimal = []) :
    fillPosition args tail = .ok { text := '$' :: tail, used := false } := by
  rw [fillPosition, h]
  rfl

/-- A number is replaced by the argument with that position, unless it has too many digits. -/
theorem fillPosition_digits (args : List String) {digits tail : List Char} (hne : digits ≠ [])
    (hall : ∀ d ∈ digits, isDecimal d = true) (htail : tail.takeWhile isDecimal = []) :
    fillPosition args (digits ++ tail)
      = if maxDigits < digits.length then .error (.tooLong digits.length)
        else .ok { text := Piece.fill args (.position digits) ++ tail,
                   used := Piece.usesPosition args (.position digits) } := by
  have htake : (digits ++ tail).takeWhile isDecimal = digits := by
    rw [List.takeWhile_append_of_pos hall, htail, List.append_nil]
  have hself : digits.takeWhile isDecimal = digits := List.takeWhile_eq_self_iff.mpr hall
  have hempty : digits.isEmpty = false := List.isEmpty_eq_false_iff.mpr hne
  have hread : readNat digits = if maxDigits < digits.length then .error (.tooLong digits.length)
      else .ok (natOfDigits digits) := by
    simp [readNat, hself, hempty]
  rw [fillPosition]
  simp only [htake, hempty, Bool.false_eq_true, if_false, hread]
  by_cases hlong : maxDigits < digits.length
  · simp only [if_pos hlong]
  · simp only [if_neg hlong, Piece.fill, Piece.usesPosition, argument?]
    cases (if natOfDigits digits = 0 then none else args[natOfDigits digits - 1]?) <;> simp

/-! ## The first pass -/

/-- What replacing the references by position comes to, piece by piece. -/
def firstPass (args : List String) (parts : List Piece) : Except NumberError Filled :=
  match parts.findSome? Piece.overlong? with
  | some n => .error (.tooLong n)
  | none =>
    .ok { text := (parts.flatMap (Piece.place args)).flatMap Glyph.written,
          used := parts.any (Piece.usesPosition args) }

/-- The first pass takes one piece of a template at a time. -/
theorem firstPass_cons {part : Piece} (h : part.overlong? = none) (parts : List Piece) :
    firstPass args (part :: parts) = (firstPass args parts).map
      (Filled.prepend ((part.place args).flatMap Glyph.written) (part.usesPosition args)) := by
  rw [firstPass, firstPass, List.findSome?_cons, h]
  cases parts.findSome? Piece.overlong? <;> simp [Except.map, Filled.prepend]

/-- Digits hold no dollar sign. -/
theorem notMem_of_isDecimal {digits : List Char} (h : ∀ d ∈ digits, isDecimal d = true) :
    '$' ∉ digits := by
  intro hmem
  exact absurd (h '$' hmem) (by decide)

/-- A digit and the digits behind it are digits. -/
theorem forall_isDecimal_cons {d : Char} (hd : isDecimal d = true) (rest : List Char) :
    ∀ x ∈ d :: rest.takeWhile isDecimal, isDecimal x = true :=
  List.forall_mem_cons.mpr ⟨hd, fun _ => List.mem_takeWhile_imp⟩

theorem takeWhile_dropWhile_eq_nil (p : Char → Bool) (cs : List Char) :
    (cs.dropWhile p).takeWhile p = [] := by
  induction cs with
  | nil => rfl
  | cons c cs ih => by_cases hc : p c <;> simp [hc, ih]

/-- A dollar sign without a digit behind it stays. -/
theorem fillPositions_dollar_of_no_digit {cs : List Char} (hcs : cs.takeWhile isDecimal = []) :
    fillPositions args ('$' :: cs) = (fillPositions args cs).map (Filled.prepend ['$'] false) :=
  fillPositions_dollar (r := .ok { text := ['$'], used := false }) List.not_mem_nil hcs
    fun _ htail => fillPosition_of_no_digit htail

/-- The pieces are filled one by one, and the first number with too many digits ends it. -/
theorem fillPositions_eq (args : List String) (template : List Char) :
    fillPositions args template = firstPass args (pieces template) := by
  fun_induction pieces template with
  | case1 => rfl
  | case2 rest ih =>
    rw [fillPositions_dollar_of_no_digit (by rfl), fillPositions_cons_of_ne (by decide), ih,
      firstPass_cons rfl]
    cases firstPass args (pieces rest) <;> rfl
  | case3 rest ih =>
    rw [fillPositions_dollar_of_no_digit (by rfl), fillPositions_cons_of_ne (by decide), ih,
      firstPass_cons rfl]
    cases firstPass args (pieces rest) <;> rfl
  | case4 d rest hstar hat hdecimal ih =>
    have hall := forall_isDecimal_cons hdecimal rest
    have hdigits {tail : List Char} (htail : tail.takeWhile isDecimal = []) :=
      fillPosition_digits args (List.cons_ne_nil _ _) hall htail
    have hrest := takeWhile_dropWhile_eq_nil isDecimal rest
    have hcut : d :: rest = d :: rest.takeWhile isDecimal ++ rest.dropWhile isDecimal := by simp
    rw [hcut]
    by_cases hlong : maxDigits < (d :: rest.takeWhile isDecimal).length
    · rw [fillPositions_dollar (r := .error _) (notMem_of_isDecimal hall) hrest
        fun tail htail => (hdigits htail).trans (if_pos hlong), firstPass, List.findSome?_cons,
        Piece.overlong?, if_pos hlong]
      rfl
    · have hshort : Piece.overlong? (.position (d :: rest.takeWhile isDecimal)) = none :=
        if_neg hlong
      rw [fillPositions_dollar (r := .ok ⟨_, _⟩) (notMem_of_isDecimal hall) hrest
        fun tail htail => (hdigits htail).trans (if_neg hlong), ih, firstPass_cons hshort,
        Piece.place, flatMap_map_char fun _ => rfl]
      rfl
  | case5 d rest hstar hat hdecimal ih =>
    rw [fillPositions_dollar_of_no_digit (by simp [hdecimal]), ih, firstPass_cons rfl]
    rfl
  | case6 c rest hstar hat hlast ih =>
    rw [firstPass_cons rfl, ← ih]
    by_cases hc : c = '$'
    · subst hc
      rcases rest with _ | ⟨d, rest⟩
      · rfl
      · exact absurd rfl (hlast d rest rfl)
    · exact fillPositions_cons_of_ne hc rest

/-! ## Whether arguments are used -/

/-- The characters of a piece in the template. -/
def Piece.source : Piece → List Char
  | .char c => [c]
  | .position digits => '$' :: digits
  | .all kind => ['$', kind.char]

/-- The pieces of a template are its whole text. -/
theorem flatMap_source_pieces (template : List Char) :
    (pieces template).flatMap Piece.source = template := by
  fun_induction pieces template with
  | case1 => rfl
  | case2 rest ih | case3 rest ih => rw [List.flatMap_cons, ih]; rfl
  | case4 d rest hstar hat hdecimal ih =>
    rw [List.flatMap_cons, ih, Piece.source, List.cons_append, List.cons_append,
      List.takeWhile_append_dropWhile]
  | case5 d rest hstar hat hdecimal ih => rw [List.flatMap_cons, ih]; rfl
  | case6 c rest hstar hat hlast ih => rw [List.flatMap_cons, ih]; rfl

/-- A pair that starts with a dollar sign lies behind a front without one. -/
theorem pair_infix_of_append {b : Char} (xs : List Char) {ys : List Char} (hxs : '$' ∉ xs)
    (h : ['$', b] <:+: xs ++ ys) : ['$', b] <:+: ys := by
  rcases pair_infix_append h with hwithin | hwithin | hlast
  · exact absurd (hwithin.subset List.mem_cons_self) hxs
  · exact hwithin
  · exact absurd (List.mem_of_getLast? hlast) hxs

/-- Every wildcard that is written in a template is one of its pieces. -/
theorem all_mem_pieces {kind : Wildcard} {template : List Char}
    (h : ['$', kind.char] <:+: template) : .all kind ∈ pieces template := by
  fun_induction pieces template with
  | case1 => simp at h
  | case2 rest ih =>
    rw [pair_infix_cons_iff] at h
    rcases h with ⟨-, hkind⟩ | h
    · cases kind with
      | star => exact List.mem_cons_self
      | atSign => simp [Wildcard.char] at hkind
    · exact List.mem_cons_of_mem _ (ih (pair_infix_of_append ['*'] (by decide) h))
  | case3 rest ih =>
    rw [pair_infix_cons_iff] at h
    rcases h with ⟨-, hkind⟩ | h
    · cases kind with
      | star => simp [Wildcard.char] at hkind
      | atSign => exact List.mem_cons_self
    · exact List.mem_cons_of_mem _ (ih (pair_infix_of_append ['@'] (by decide) h))
  | case4 d rest hstar hat hdecimal ih =>
    have hall := forall_isDecimal_cons hdecimal rest
    have hcut : d :: rest = d :: rest.takeWhile isDecimal ++ rest.dropWhile isDecimal := by simp
    rw [pair_infix_cons_iff] at h
    rcases h with ⟨-, hkind⟩ | h
    · obtain rfl : d = kind.char := by simpa using hkind
      cases kind <;> simp [Wildcard.char] at hstar hat
    · rw [hcut] at h
      exact List.mem_cons_of_mem _ (ih (pair_infix_of_append _ (notMem_of_isDecimal hall) h))
  | case5 d rest hstar hat hdecimal ih =>
    rw [pair_infix_cons_iff] at h
    rcases h with ⟨-, hkind⟩ | h
    · obtain rfl : d = kind.char := by simpa using hkind
      cases kind <;> simp [Wildcard.char] at hstar hat
    · exact List.mem_cons_of_mem _ (ih h)
  | case6 c rest hstar hat hlast ih =>
    rw [pair_infix_cons_iff] at h
    rcases h with ⟨rfl, hkind⟩ | h
    · obtain ⟨tail, rfl⟩ := List.head?_eq_some_iff.mp hkind
      exact absurd rfl (hlast _ tail rfl)
    · exact List.mem_cons_of_mem _ (ih h)

/-- A piece that uses no argument stays as it is written. -/
theorem flatMap_place_of_unused {part : Piece} (h : part.uses args = false) :
    (part.place args).flatMap Glyph.written = part.source := by
  cases part with
  | char c => rfl
  | position digits =>
    have hnone : argument? args digits = none := by simpa [Piece.uses] using h
    rw [Piece.place, flatMap_map_char fun _ => rfl, Piece.fill, hnone]
    rfl
  | all kind => cases h

/-- Nothing is replaced where the pair does not occur. -/
theorem replacePair_of_not_hasPair {a b : Char} {new cs : List Char} (h : hasPair a b cs = false) :
    replacePair a b new cs = cs := by
  fun_induction replacePair a b new cs with
  | case1 x y rest hpair ih => simp [hasPair, hpair] at h
  | case2 x y rest hpair ih =>
    rw [hasPair, Bool.or_eq_false_iff] at h
    rw [ih h.2]
  | case3 => rfl

/-- Scanning for one sign leaves the other one where it was. -/
theorem sign_mem_rescan {kind other : Wildcard} (hother : other ≠ kind) {new : List Char}
    {gs : List Glyph} (h : .sign other ∈ gs) : .sign other ∈ rescan kind new gs := by
  fun_induction rescan kind new gs with
  | case1 => exact h
  | case2 next rest ih =>
    rcases List.mem_cons.mp h with heq | h
    · cases heq
      simp [Glyph.fill, hother]
    · exact List.mem_append_right _ (ih h)
  | case3 c d rest hpair ih => exact List.mem_append_right _ (ih (by simpa using h))
  | case4 c d rest hpair ih => exact List.mem_cons_of_mem _ (ih (by simpa using h))
  | case5 c rest hshort ih => exact List.mem_cons_of_mem _ (ih (by simpa using h))

/-- A sign is written as the pair that is searched for. -/
theorem hasPair_of_sign_mem {kind : Wildcard} {gs : List Glyph} (h : .sign kind ∈ gs) :
    hasPair '$' kind.char (gs.flatMap Glyph.written) = true := by
  rw [hasPair_iff, List.flatMap]
  exact List.infix_of_mem_flatten (List.mem_map.mpr ⟨_, h, rfl⟩)

/-- If nothing is used, there is no wildcard, and what is written is the template. -/
theorem written_placed_of_unused {template : List Char}
    (h : ∀ part ∈ pieces template, part.uses args = false) :
    (placed args template).flatMap Glyph.written = template := by
  rw [placed, List.flatMap_assoc]
  conv_rhs => rw [← flatMap_source_pieces template]
  exact List.flatMap_congr fun part hpart => flatMap_place_of_unused (h part hpart)

/-- The passes use arguments just where some piece of the template does: a wildcard that comes about
by filling in is never the first to be replaced. -/
theorem used_eq (args : List String) (template new : List Char) :
    let text := (placed args template).flatMap Glyph.written
    ((pieces template).any (Piece.usesPosition args) || hasPair '$' '*' text ||
        hasPair '$' '@' (replacePair '$' '*' new text))
      = (pieces template).any (Piece.uses args) := by
  intro text
  by_cases hused : (pieces template).any (Piece.uses args) = true
  · obtain ⟨part, hpart, huses⟩ := List.any_eq_true.mp hused
    have hsign {kind : Wildcard} (hmem : .all kind ∈ pieces template) :
        .sign kind ∈ placed args template :=
      List.mem_flatMap.mpr ⟨_, hmem, List.mem_singleton_self _⟩
    rw [hused]
    cases part with
    | char c => cases huses
    | position digits =>
      have hposition : (pieces template).any (Piece.usesPosition args) = true :=
        List.any_eq_true.mpr ⟨_, hpart, huses⟩
      rw [hposition, Bool.true_or, Bool.true_or]
    | all kind =>
      cases kind with
      | star =>
        have hstar : hasPair '$' '*' text = true := hasPair_of_sign_mem (hsign hpart)
        rw [hstar, Bool.or_true, Bool.true_or]
      | atSign =>
        have hat : hasPair '$' '@' (replacePair '$' '*' new text) = true := by
          have hrescan := replacePair_written .star new (placed args template)
          rw [show replacePair '$' '*' new text = _ from hrescan]
          exact hasPair_of_sign_mem (sign_mem_rescan (by decide) (hsign hpart))
        rw [hat, Bool.or_true]
  · have hnone : ∀ part ∈ pieces template, part.uses args = false := by
      simpa using hused
    have hposition : (pieces template).any (Piece.usesPosition args) = false := by
      rw [List.any_eq_false]
      intro part hpart huses
      have hunused := hnone part hpart
      cases part <;> simp_all [Piece.usesPosition, Piece.uses]
    have hpair (kind : Wildcard) : hasPair '$' kind.char template = false := by
      rw [← Bool.not_eq_true, hasPair_iff]
      intro hwithin
      cases hnone _ (all_mem_pieces hwithin)
    have hstar : hasPair '$' '*' text = false := by
      rw [show text = template from written_placed_of_unused hnone]
      exact hpair .star
    have hat : hasPair '$' '@' (replacePair '$' '*' new text) = false := by
      rw [replacePair_of_not_hasPair hstar,
        show text = template from written_placed_of_unused hnone]
      exact hpair .atSign
    rw [hposition, hstar, hat, Bool.eq_false_iff.mpr hused]
    rfl

/-! ## All passes -/

/-- Filling in all arguments replaces the pair wherever it occurs, and notes whether it did. -/
theorem fillAll_eq (sign : Char) (joined : List Char) (f : Filled) :
    fillAll sign joined f = { text := replacePair '$' sign joined f.text,
                              used := f.used || hasPair '$' sign f.text } := by
  rw [fillAll]
  by_cases hpair : hasPair '$' sign f.text = true
  · rw [if_pos hpair, hpair, Bool.or_true]
  · rw [if_neg hpair, replacePair_of_not_hasPair (Bool.eq_false_iff.mpr hpair),
      Bool.eq_false_iff.mpr hpair, Bool.or_false]

/-- What filling in comes to: an error for the first number with too many digits, or else the text
in which the wildcards are replaced one kind after the other, lookalikes included. -/
theorem substitute_eq (template : String) (args : List String) :
    substitute template args = match overlong? template.toList with
      | some n => .error (.tooLong n)
      | none =>
        let joined := (joinWith " " args).toList
        let gs := placed args template.toList
        .ok (withUnused args (pieces template.toList)
          ((rescan .atSign joined (rescan .star joined gs)).flatMap Glyph.written)) := by
  rw [substitute, fillPositions_eq, firstPass, overlong?]
  cases (pieces template.toList).findSome? Piece.overlong? with
  | some n => rfl
  | none =>
    have hused := used_eq args template.toList (joinWith " " args).toList
    have htext : replacePair '$' '@' (joinWith " " args).toList
        (replacePair '$' '*' (joinWith " " args).toList
          ((placed args template.toList).flatMap Glyph.written))
        = (rescan .atSign (joinWith " " args).toList (rescan .star (joinWith " " args).toList
            (placed args template.toList))).flatMap Glyph.written := by
      rw [← replacePair_written, ← replacePair_written]
      rfl
    rw [placed] at hused htext
    simp only [bind, Except.bind, pure, Except.pure, fillAll_eq, hused, htext]
    rfl

/-- What is put behind a text does not hide a difference in it. -/
theorem withUnused_inj {parts : List Piece} {text text' : List Char} :
    withUnused args parts text = withUnused args parts text' ↔ text = text' := by
  rw [withUnused, withUnused]
  split
  · rw [String.append_left_inj, String.append_left_inj, String.ofList_inj]
  · rw [String.ofList_inj]

/-- Characters are no signs, so nothing is filled in for them. -/
theorem fillSigns_map_char (kind : Wildcard) (new cs : List Char) :
    fillSigns kind new (cs.map .char) = cs.map .char := by
  rw [fillSigns, List.flatMap_map]
  simp only [Glyph.fill, List.map_eq_flatMap]

/-- Signs are filled in piece by piece. -/
theorem fillSigns_flatMap (kind : Wildcard) (new : List Char) (f : Piece → List Glyph)
    (parts : List Piece) :
    fillSigns kind new (parts.flatMap f) = parts.flatMap fun part => fillSigns kind new (f part) :=
  List.flatMap_assoc

/-- Replacing only what the template has, one kind after the other, is filling in at once. -/
theorem written_fillSigns_placed (args : List String) (template : List Char) :
    let joined := (joinWith " " args).toList
    (fillSigns .atSign joined (fillSigns .star joined (placed args template))).flatMap Glyph.written
      = (pieces template).flatMap (Piece.fill args) := by
  intro joined
  have hpart (part : Piece) :
      (fillSigns .atSign joined (fillSigns .star joined (part.place args))).flatMap Glyph.written
        = part.fill args := by
    rcases part with c | digits | kind
    · rfl
    · rw [Piece.place, fillSigns_map_char, fillSigns_map_char, flatMap_map_char fun _ => rfl]
    · have hjoined : (joined.map Glyph.char).flatMap Glyph.written = joined :=
        flatMap_map_char (fun _ => rfl) joined
      cases kind with
      | star =>
        have hfill : fillSigns .star joined [.sign .star] = joined.map .char := List.append_nil _
        rw [Piece.place, hfill, fillSigns_map_char, hjoined]
        rfl
      | atSign =>
        have hfill : fillSigns .atSign joined [.sign .atSign] = joined.map .char :=
          List.append_nil _
        have hkeep : fillSigns .star joined [.sign .atSign] = [.sign .atSign] := rfl
        rw [Piece.place, hkeep, hfill, hjoined]
        rfl
  rw [placed, fillSigns_flatMap, fillSigns_flatMap, List.flatMap_assoc]
  exact List.flatMap_congr fun part _ => hpart part

/-- A number with too many digits is an error. Otherwise filling in one kind of reference after the
other is the same as filling in all of them at once just where no wildcard comes about by it:
neither where the references by position are replaced by arguments, nor where stars are replaced by
all of them. -/
theorem fills_at_once_iff (template : String) (args : List String) :
    (∀ n, overlong? template.toList = some n → substitute template args = .error (.tooLong n)) ∧
      (substitute template args = .ok (fillAtOnce template args) ↔
        let joined := joinWith " " args
        let gs := placed args template.toList
        overlong? template.toList = none ∧
          (joined = "$*" ∨ ¬ Arises .star gs) ∧
          (joined = "$@" ∨ ¬ Arises .atSign (fillSigns .star joined.toList gs))) := by
  extract_lets joined gs
  have hjoined (text : String) : joined = text ↔ joined.toList = text.toList :=
    String.toList_inj.symm
  rw [substitute_eq, hjoined, hjoined]
  cases overlong? template.toList with
  | some n => simp
  | none =>
    refine ⟨nofun, ?_⟩
    have hpasses := passes_eq_iff joined.toList gs
    rw [written_fillSigns_placed args template.toList] at hpasses
    rw [Except.ok.injEq, fillAtOnce, withUnused_inj, hpasses]
    simp only [true_and]
    rfl

/-- An argument that looks like a wildcard is taken for one. -/
theorem fills_lookalike_argument :
    substitute "echo $*" ["$@", "x"] = .ok "echo $@ x x" ∧
      fillAtOnce "echo $*" ["$@", "x"] = "echo $@ x" ∧
      substitute "echo $*" ["$@", "x"] ≠ .ok (fillAtOnce "echo $*" ["$@", "x"]) := by
  have hcode : substitute "echo $*" ["$@", "x"] = .ok "echo $@ x x" := by decide +kernel
  have hmeant : fillAtOnce "echo $*" ["$@", "x"] = "echo $@ x" := by decide +kernel
  refine ⟨hcode, hmeant, ?_⟩
  rw [hcode, hmeant]
  decide

/-! ## Numbers with too many digits -/

/-- A number of too many digits behind a dollar sign is overlong. -/
theorem overlong?_digits {digits : List Char} (hall : ∀ d ∈ digits, isDecimal d = true)
    (hlong : maxDigits < digits.length) : overlong? ('$' :: digits) = some digits.length := by
  obtain ⟨d, rest, rfl⟩ := List.exists_cons_of_length_pos (Nat.zero_lt_of_lt hlong)
  obtain ⟨hd, hrest⟩ := List.forall_mem_cons.mp hall
  have hpieces : pieces ('$' :: d :: rest) = [.position (d :: rest)] := by
    have htake : rest.takeWhile isDecimal = rest := List.takeWhile_eq_self_iff.mpr hrest
    have hdrop : rest.dropWhile isDecimal = [] := List.dropWhile_eq_nil_iff.mpr hrest
    rw [pieces, if_pos hd, htake, hdrop, pieces]
    · rintro rfl
      exact absurd hd (by decide)
    · rintro rfl
      exact absurd hd (by decide)
  rw [overlong?, hpieces, List.findSome?_singleton, Piece.overlong?, if_pos hlong]

/-- An error comes from a number of the template that has too many digits. -/
theorem substitute_eq_error_iff {template : String} {args : List String} {e : NumberError} :
    substitute template args = .error e ↔
      ∃ n, overlong? template.toList = some n ∧ e = .tooLong n := by
  rw [substitute_eq]
  cases overlong? template.toList <;> simp [eq_comm]

end VirtualShell.Alias
