import Mathlib.Data.Set.List
import Mathlib.Tactic.FinCases
import VirtualShell.Proofs.Line.Quoting

/-!
# The grammar of chains

The operators are found in one pass over the whole text, and the pieces between them are read later,
each on its own. The two agree because an operator stands outside the quotes: the piece before it is
balanced, so the rest is marked as if it stood alone. A cut that is described in this way (`Cut`)
puts the text together again, and leaves no operator inside a piece.

A line is then a chain just where no piece is blank, every piece is a command, and pipes stand only
among pipes (`parse_of_operators`).
-/

namespace VirtualShell

namespace Line

open Text

/-! ## The operator at one place -/

/-- The operator that marked characters begin with. A doubled sign goes before a single one. -/
def operatorAt? : List (Char × Mark) → Option Operator
  | ('&', .plain) :: ('&', .plain) :: _ => some .and
  | ('|', .plain) :: ('|', .plain) :: _ => some .or
  | (';', .plain) :: _ => some .sequence
  | ('|', .plain) :: _ => some .pipe
  | _ => none

/-- The search, one operator or one character at a time. -/
theorem operatorsFrom_eq (i : Nat) (ms : List (Char × Mark)) :
    operatorsFrom i ms = match operatorAt? ms with
      | some op => (i, op) :: operatorsFrom (i + op.length) (ms.drop op.length)
      | none => operatorsFrom (i + 1) (ms.drop 1) := by
  fun_cases operatorsFrom i ms with
  | case1 | case2 | case3 | case6 => rfl
  | case4 i rest hdoubled =>
    have hpipe : operatorAt? (('|', .plain) :: rest) = some .pipe := by
      rw [operatorAt?]
      exact hdoubled
    rw [hpipe]
    rfl
  | case5 i m rest hand hor hsequence hpipe =>
    have hnone : operatorAt? (m :: rest) = none := by
      rw [operatorAt?]
      · exact fun tail h => hand tail (List.cons.inj h).1 (List.cons.inj h).2
      · exact fun tail h => hor tail (List.cons.inj h).1 (List.cons.inj h).2
      · exact fun tail h => hsequence (List.cons.inj h).1
      · exact fun tail h => hpipe (List.cons.inj h).1
    rw [hnone]
    rfl

/-- What follows may make an operator another one, but it does not take it away. -/
theorem operatorAt?_append_ne_none {ms : List (Char × Mark)} (h : operatorAt? ms ≠ none)
    (ns : List (Char × Mark)) : operatorAt? (ms ++ ns) ≠ none := by
  revert h
  fun_cases operatorAt? ms with
  | case1 | case2 | case3 => exact fun _ => nofun
  | case4 rest hdoubled =>
    intro _
    rw [List.cons_append]
    unfold operatorAt?
    split <;> simp_all
  | case5 => exact fun h => absurd rfl h

/-- The sign of an operator stands outside the quotes. -/
theorem eq_append_of_operatorAt? {ms : List (Char × Mark)} {op : Operator}
    (h : operatorAt? ms = some op) :
    ms = op.sign.toList.map (fun c => (c, Mark.plain)) ++ ms.drop op.length := by
  revert h
  fun_cases operatorAt? ms with
  | case1 | case2 | case3 | case4 =>
    intro h
    obtain rfl := Option.some.inj h
    rfl
  | case5 => nofun

/-- A text whose first characters are marked as plain ones begins with them, and the rest is marked
as if it stood alone. -/
theorem marks_eq_append_plain {ds : List Char} {cs : List Char} {ms : List (Char × Mark)}
    (h : marks cs = ds.map (fun c => (c, Mark.plain)) ++ ms) :
    ∃ rest, cs = ds ++ rest ∧ ms = marks rest := by
  induction ds generalizing cs with
  | nil => exact ⟨cs, rfl, h.symm⟩
  | cons d ds ih =>
    obtain ⟨-, rest, rfl, hrest⟩ := marksFrom_eq_cons_plain h
    obtain ⟨rest, rfl, hms⟩ := ih hrest.symm
    exact ⟨rest, rfl, hms⟩

/-- An operator at the head of a text is its sign with no quote open, and what follows is marked as
if it stood alone. -/
theorem exists_of_operatorAt?_marksFrom {quote : Option Char} {cs : List Char} {op : Operator}
    (h : operatorAt? (marksFrom quote cs) = some op) :
    quote = none ∧ ∃ rest, cs = op.sign.toList ++ rest ∧
      (marksFrom quote cs).drop op.length = marks rest := by
  have hmarks := eq_append_of_operatorAt? h
  have hnone : quote = none := by
    cases op <;> exact (marksFrom_eq_cons_plain hmarks).1
  subst hnone
  exact ⟨rfl, marks_eq_append_plain hmarks⟩

/-! ## The first operator of a text -/

/-- Either there is no operator, or the text before the first one closes its quotes and holds no
operator of its own, and the search goes on behind it as in a text that stands alone. -/
theorem operatorsFrom_cases (quote : Option Char) (cs : List Char) :
    (∀ i, operatorsFrom i (marksFrom quote cs) = []) ∨
      ∃ piece op rest, cs = piece ++ (op.sign.toList ++ rest) ∧ openAfter quote piece = none ∧
        (∀ i, operatorsFrom i (marksFrom quote piece) = []) ∧
        ∀ i, operatorsFrom i (marksFrom quote cs) = (i + piece.length, op) ::
          operatorsFrom (i + piece.length + op.length) (marks rest) := by
  induction cs generalizing quote with
  | nil =>
    left
    intro i
    rw [marksFrom, operatorsFrom]
  | cons c cs ih =>
    cases hop : operatorAt? (marksFrom quote (c :: cs)) with
    | some op =>
      obtain ⟨rfl, rest, hcs, hdrop⟩ := exists_of_operatorAt?_marksFrom hop
      refine .inr ⟨[], op, rest, hcs, balanced_nil, fun i => rfl, fun i => ?_⟩
      rw [← hdrop, operatorsFrom_eq, hop]
      rfl
    -- No operator starts here, so this character belongs to the piece, or there is none.
    | none =>
      have hm := marksFrom_cons quote c
      have hskip : ∀ i, operatorsFrom i (marksFrom quote (c :: cs))
          = operatorsFrom (i + 1) (marksFrom (openAfter quote [c]) cs) := by
        intro i
        rw [operatorsFrom_eq, hop, hm]
        rfl
      rcases ih (openAfter quote [c]) with hnone | ⟨piece, op, rest, rfl, hopen, hpiece, hrest⟩
      · exact .inl fun i => (hskip i).trans (hnone _)
      · refine .inr ⟨c :: piece, op, rest, rfl, ?_, fun i => ?_, fun i => ?_⟩
        · rw [← List.singleton_append, openAfter_append, hopen]
        · -- The piece sees less behind this character than the whole text does.
          have hstart : operatorAt? (marksFrom quote (c :: piece)) = none := by
            by_contra hsome
            have hlonger := operatorAt?_append_ne_none hsome
              (marksFrom (openAfter quote (c :: piece)) (op.sign.toList ++ rest))
            rw [← marksFrom_append] at hlonger
            exact hlonger hop
          rw [operatorsFrom_eq, hstart, hm]
          exact hpiece (i + 1)
        · rw [hskip, hrest, List.length_cons, Nat.add_right_comm, ← Nat.add_assoc]

/-! ## Cuts -/

/-- A text is cut at operators into pieces that hold none themselves. All but the last piece close
their quotes. -/
inductive Cut : List Char → List Operator → List (List Char) → Prop where
  | last {text : List Char} : findOperators text = [] → Cut text [] [text]
  | next {piece rest : List Char} {op : Operator} {ops : List Operator} {texts : List (List Char)} :
    Balanced piece → findOperators piece = [] → Cut rest ops texts →
      Cut (piece ++ (op.sign.toList ++ rest)) (op :: ops) (piece :: texts)

theorem length_sign (op : Operator) : op.sign.toList.length = op.length := by
  cases op <;> rfl

/-- The search cuts what is left of a text, counting from where that begins. -/
theorem cut_operatorsFrom (before text : List Char) :
    Cut text ((operatorsFrom before.length (marks text)).map Prod.snd)
      (pieces (before ++ text) before.length (operatorsFrom before.length (marks text))) := by
  rcases operatorsFrom_cases none text with hnone | ⟨piece, op, rest, rfl, hopen, hpiece, hrest⟩
  · rw [marks, hnone, pieces, List.drop_left]
    exact .last ((findOperators_eq_marks text).trans (hnone 0))
  · have hlength : (before ++ (piece ++ op.sign.toList)).length
        = before.length + piece.length + op.length := by
      rw [List.length_append, List.length_append, length_sign, Nat.add_assoc]
    have hshorter : rest.length < (piece ++ (op.sign.toList ++ rest)).length := by
      rw [List.length_append, List.length_append, length_sign]
      have hop : 0 < op.length := by cases op <;> decide
      omega
    have hcut := cut_operatorsFrom (before ++ (piece ++ op.sign.toList)) rest
    rw [hlength, List.append_assoc, List.append_assoc] at hcut
    rw [marks, hrest, pieces, List.drop_left, Nat.add_sub_cancel_left, List.take_left]
    exact .next hopen ((findOperators_eq_marks piece).trans (hpiece 0)) hcut
termination_by text.length

/-- The operators that are found cut a text into the pieces between them. -/
theorem cut_findOperators (text : List Char) :
    Cut text ((findOperators text).map Prod.snd) (pieces text 0 (findOperators text)) := by
  rw [findOperators_eq_marks]
  exact cut_operatorsFrom [] text

namespace Cut

variable {text : List Char} {ops : List Operator} {texts : List (List Char)}

/-- There is one piece more than there are operators. -/
theorem length_pieces (h : Cut text ops texts) : texts.length = ops.length + 1 := by
  induction h with
  | last => rfl
  | next _ _ _ ih => rw [List.length_cons, List.length_cons, ih]

/-- The pieces and the signs between them make up the text. -/
theorem flatten_pieces (h : Cut text ops texts) :
    (List.zipWith (· ++ ·) texts (ops.map (·.sign.toList) ++ [[]])).flatten = text := by
  induction h with
  | last => exact (List.append_nil _).trans (List.append_nil _)
  | next _ _ _ ih =>
    rw [List.map_cons, List.cons_append, List.zipWith_cons_cons, List.flatten_cons, ih,
      List.append_assoc]

/-- No piece of a cut holds an operator of its own. -/
theorem findOperators_of_mem (h : Cut text ops texts) :
    ∀ piece ∈ texts, findOperators piece = [] := by
  induction h with
  | last hnone => exact List.forall_mem_singleton.mpr hnone
  | next _ hnone _ ih => exact List.forall_mem_cons.mpr ⟨hnone, ih⟩

end Cut

/-! ## Reading the pieces -/

/-- The blanks around a command make no difference. -/
theorem readCommand_trim (cs : List Char) : readCommand (trim cs) = readCommand cs := by
  rw [readCommand, readCommand, trimLine, trimLine, trim_trim]

/-- A pass over a list succeeds just where it succeeds on every element. -/
theorem mapM_eq_ok_iff {α β ε : Type} {f : α → Except ε β} {xs : List α} {ys : List β} :
    xs.mapM f = .ok ys ↔ xs.map f = ys.map .ok := by
  induction xs generalizing ys with
  | nil => cases ys <;> simp [pure, Except.pure]
  | cons x xs ih =>
    rw [List.mapM_cons, List.map_cons]
    cases hx : f x with
    | error e => cases ys <;> simp [bind, Except.bind]
    | ok y =>
      cases hxs : xs.mapM f with
      | error e =>
        cases ys with
        | nil => simp [bind, Except.bind]
        | cons z zs => simp [bind, Except.bind, ← ih, hxs]
      | ok rest =>
        cases ys with
        | nil => simp [bind, Except.bind, pure, Except.pure]
        | cons z zs => simp [bind, Except.bind, pure, Except.pure, ← ih, hxs]

/-- The pieces are read just where each one that is not blank is a command. -/
theorem readPieces_eq_ok_iff {texts : List (List Char)} {commands : List Command} :
    readPieces texts = .ok commands ↔
      (texts.filter fun piece => !(trim piece).isEmpty).map readCommand
        = commands.map .ok := by
  rw [readPieces, mapM_eq_ok_iff, List.filter_map, List.map_map]
  have hread : readCommand ∘ trim = readCommand := funext readCommand_trim
  rw [hread]
  rfl

/-- To miss no command means that no piece is blank. -/
theorem readPieces_eq_ok_iff_of_length {texts : List (List Char)} {commands : List Command}
    (hlength : commands.length = texts.length) :
    readPieces texts = .ok commands ↔
      (∀ piece ∈ texts, trim piece ≠ []) ∧ texts.map readCommand = commands.map .ok := by
  have hfilter : texts.filter (fun piece => !(trim piece).isEmpty) = texts ↔
      ∀ piece ∈ texts, trim piece ≠ [] := by
    simp [List.filter_eq_self]
  rw [readPieces_eq_ok_iff, ← hfilter]
  constructor
  · intro h
    have hcount := congrArg List.length h
    rw [List.length_map, List.length_map, hlength] at hcount
    have hall : texts.filter (fun piece => !(trim piece).isEmpty) = texts :=
      List.filter_sublist.eq_of_length hcount
    exact ⟨hall, hall ▸ h⟩
  · rintro ⟨hall, h⟩
    rw [hall, h]

/-- Pipes are not mixed where all operators are pipes, or none is. -/
theorem mixesPipes_eq_false_iff {ops : List Operator} :
    mixesPipes ops = false ↔ (∀ op ∈ ops, op = .pipe) ∨ .pipe ∉ ops := by
  rw [mixesPipes, Bool.and_eq_false_iff, List.any_eq_false, or_comm]
  simp

end Line

/-- A chain is made of commands and operators just where these are its own. -/
theorem Chain.ofLists_eq_ok_iff {commands : List Command} {operators : List Operator}
    {chain : Chain} : ofLists commands operators = .ok chain ↔
      chain.commands = commands ∧ chain.operators = operators := by
  obtain ⟨first, rest⟩ := chain
  constructor
  · intro h
    cases commands with
    | nil => cases h
    | cons command commands =>
      rw [ofLists] at h
      split at h
      · rename_i hlength
        cases h
        refine ⟨?_, List.map_fst_zip hlength.le⟩
        rw [Chain.commands, List.map_snd_zip hlength.ge]
      · cases h
  · rintro ⟨rfl, rfl⟩
    rw [Chain.commands, ofLists, if_pos (by simp [Chain.operators])]
    simp only [Chain.operators, List.zip_map', List.map_id']

/-- A chain has one command more than it has operators. -/
theorem Chain.length_commands (chain : Chain) :
    chain.commands.length = chain.operators.length + 1 := by
  rw [commands, operators, List.length_cons, List.length_map, List.length_map]

/-- Any commands and operators whose numbers fit make a chain. -/
theorem Chain.exists_of_length {commands : List Command} {operators : List Operator}
    (h : commands.length = operators.length + 1) :
    ∃ chain : Chain, chain.commands = commands ∧ chain.operators = operators := by
  cases commands with
  | nil => cases h
  | cons first rest =>
    have hrest : operators.length = rest.length := (Nat.succ.inj h).symm
    exact ⟨{ first, rest := operators.zip rest }, ofLists_eq_ok_iff.mp (if_pos hrest)⟩

namespace Line

open Text

/-- Where there are operators, a line that is read is a chain of the pieces between them. -/
theorem readProgram_eq_ok_iff {cs : List Char} (hlength : (trim cs).length ≤ maxLength)
    (hfound : findOperators (trim cs) ≠ []) {program : Program} :
    readProgram cs = .ok program ↔ ∃ chain, program = .chain chain ∧
      readPieces (pieces (trim cs) 0 (findOperators (trim cs))) = .ok chain.commands ∧
      chain.operators = (findOperators (trim cs)).map Prod.snd ∧
      mixesPipes chain.operators = false := by
  have hline : trimLine cs = .ok (trim cs) := if_neg (Nat.not_lt.mpr hlength)
  rw [readProgram, hline]
  simp only [bind, Except.bind]
  constructor
  · intro h
    split at h
    · cases h
    · rename_i commands hcommands
      split at h
      · cases h
      · rename_i chain hchain
        obtain ⟨rfl, hoperators⟩ := Chain.ofLists_eq_ok_iff.mp hchain
        split at h
        · cases h
        · rename_i hmix
          cases h
          exact ⟨chain, rfl, hcommands, hoperators, hoperators ▸ Bool.eq_false_iff.mpr hmix⟩
  · rintro ⟨chain, rfl, hcommands, hoperators, hmix⟩
    have hchain : Chain.ofLists chain.commands ((findOperators (trim cs)).map Prod.snd)
        = .ok chain := Chain.ofLists_eq_ok_iff.mpr ⟨rfl, hoperators⟩
    rw [hoperators] at hmix
    simp only [hcommands, hchain, hmix]
    rfl

/-- The same for the pieces one by one: a chain has one command more than operators, and there are
just so many pieces, so none of them may be blank. -/
theorem parse_eq_ok_iff {line : String} (hlength : (trim line.toList).length ≤ maxLength)
    (hfound : findOperators (trim line.toList) ≠ []) {program : Program} :
    let operators := (findOperators (trim line.toList)).map Prod.snd
    let texts := pieces (trim line.toList) 0 (findOperators (trim line.toList))
    Program.parse line = .ok program ↔ ∃ chain, program = .chain chain ∧
      ((∀ piece ∈ texts, trim piece ≠ []) ∧ texts.map readCommand = chain.commands.map .ok) ∧
      chain.operators = operators ∧ ((∀ op ∈ operators, op = .pipe) ∨ .pipe ∉ operators) := by
  intro operators texts
  have hcut : Cut (trim line.toList) operators texts := cut_findOperators _
  have hcount : ∀ chain : Chain, chain.operators = operators →
      chain.commands.length = texts.length := by
    intro chain hoperators
    rw [chain.length_commands, hoperators, hcut.length_pieces]
  rw [Program.parse, readProgram_eq_ok_iff hlength hfound]
  refine exists_congr fun chain => and_congr_right fun _ => ?_
  constructor
  · rintro ⟨hcommands, hoperators, hmix⟩
    rw [hoperators] at hmix
    exact ⟨(readPieces_eq_ok_iff_of_length (hcount chain hoperators)).mp hcommands, hoperators,
      mixesPipes_eq_false_iff.mp hmix⟩
  · rintro ⟨hcommands, hoperators, hpipes⟩
    have hmix : mixesPipes chain.operators = false := by
      rw [hoperators]
      exact mixesPipes_eq_false_iff.mpr hpipes
    exact ⟨(readPieces_eq_ok_iff_of_length (hcount chain hoperators)).mpr hcommands, hoperators,
      hmix⟩

/-- Where a line holds operators, they cut it into pieces that make it up again and hold no
operators themselves. The line is a chain just where no piece is blank, every piece is a command and
pipes stand only among pipes; the chain is then made of the commands and the operators in their
order. -/
theorem parse_of_operators {line : String} (hlength : (trim line.toList).length ≤ maxLength)
    (hfound : findOperators (trim line.toList) ≠ []) :
    let text := trim line.toList
    let operators := (findOperators text).map Prod.snd
    let texts := pieces text 0 (findOperators text)
    let makesChain := (∀ piece ∈ texts, trim piece ≠ [] ∧ ∃ c, readCommand piece = .ok c) ∧
      ((∀ op ∈ operators, op = .pipe) ∨ .pipe ∉ operators)
    texts.length = operators.length + 1 ∧
      (List.zipWith (· ++ ·) texts (operators.map (·.sign.toList) ++ [[]])).flatten = text ∧
      (∀ piece ∈ texts, findOperators piece = []) ∧
      (makesChain → ∃ chain, Program.parse line = .ok (.chain chain) ∧
        texts.map readCommand = chain.commands.map .ok ∧ chain.operators = operators) ∧
      (¬ makesChain → ∃ e, Program.parse line = .error e) := by
  intro text operators texts makesChain
  have hcut : Cut text operators texts := cut_findOperators text
  refine ⟨hcut.length_pieces, hcut.flatten_pieces, hcut.findOperators_of_mem, ?_, ?_⟩
  · rintro ⟨hpieces, hpipes⟩
    have hread : texts.map readCommand
        ∈ Set.range (List.map (Except.ok : Command → Except ParseError Command)) := by
      rw [Set.range_list_map]
      intro r hr
      obtain ⟨piece, hpiece, rfl⟩ := List.mem_map.mp hr
      obtain ⟨c, hc⟩ := (hpieces piece hpiece).2
      exact ⟨c, hc.symm⟩
    obtain ⟨commands, hcommands⟩ := hread
    have hcount := congrArg List.length hcommands
    rw [List.length_map, List.length_map, hcut.length_pieces] at hcount
    obtain ⟨chain, rfl, hoperators⟩ := Chain.exists_of_length hcount
    have hblank : ∀ piece ∈ texts, trim piece ≠ [] := fun piece hpiece => (hpieces piece hpiece).1
    refine ⟨chain, (parse_eq_ok_iff hlength hfound).mpr ?_, hcommands.symm, hoperators⟩
    exact ⟨chain, rfl, ⟨hblank, hcommands.symm⟩, hoperators, hpipes⟩
  · intro hnot
    cases hresult : Program.parse line with
    | error e => exact ⟨e, rfl⟩
    | ok program =>
      obtain ⟨chain, -, ⟨hblank, hcommands⟩, -, hpipes⟩ :=
        (parse_eq_ok_iff hlength hfound).mp hresult
      refine absurd ⟨fun piece hpiece => ⟨hblank piece hpiece, ?_⟩, hpipes⟩ hnot
      have hmem : readCommand piece ∈ chain.commands.map .ok :=
        hcommands ▸ List.mem_map_of_mem hpiece
      obtain ⟨c, -, hc⟩ := List.mem_map.mp hmem
      exact ⟨c, hc.symm⟩

/-- A quoted semicolon and a single ampersand cut nothing, and a doubled bar is one operator. -/
theorem parse_quoted_semicolon :
    let line := " echo 'x;y' & ||cat < f&&pwd"
    ((trim line.toList).length ≤ maxLength ∧ findOperators (trim line.toList) ≠ []) ∧
      ∃ chain, Program.parse line = .ok (.chain chain) ∧ chain.operators = [.or, .and] ∧
        chain.commands.map Except.ok
          = ["echo 'x;y' & ", "cat < f", "pwd"].map Command.parse := by
  intro line
  have hlength : (trim line.toList).length ≤ maxLength := by decide +kernel
  have hfound : findOperators (trim line.toList) = [(13, .or), (22, .and)] := by decide +kernel
  have htexts : pieces (trim line.toList) 0 (findOperators (trim line.toList))
      = ["echo 'x;y' & ".toList, "cat < f".toList, "pwd".toList] := by decide +kernel
  have hsome : findOperators (trim line.toList) ≠ [] := by
    rw [hfound]
    nofun
  have hpieces : ∀ piece ∈ ["echo 'x;y' & ".toList, "cat < f".toList, "pwd".toList],
      trim piece ≠ [] ∧ ∃ c, readCommand piece = .ok c := by
    intro piece hpiece
    fin_cases hpiece
    · exact ⟨by decide +kernel, { word := "echo", args := ["x;y", "&"] }, by decide +kernel⟩
    · exact ⟨by decide +kernel, { word := "cat", input := some ⟨false, "f"⟩ }, by decide +kernel⟩
    · exact ⟨by decide +kernel, { word := "pwd" }, by decide +kernel⟩
  obtain ⟨-, -, -, hchain, -⟩ := parse_of_operators hlength hsome
  rw [htexts, hfound] at hchain
  obtain ⟨chain, hparse, hcommands, hoperators⟩ := hchain ⟨hpieces, .inr (by decide)⟩
  exact ⟨⟨hlength, hsome⟩, chain, hparse, hoperators, hcommands.symm⟩

end Line

end VirtualShell
