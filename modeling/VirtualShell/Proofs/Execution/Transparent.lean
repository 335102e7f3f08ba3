import VirtualShell.Proofs.Execution.Runs
import VirtualShell.Proofs.Line.Quoting
import VirtualShell.Proofs.Session.Laws
import VirtualShell.Proofs.Table
import VirtualShell.Proofs.Text.Filled

/-!
# Aliases that only rename a command

An alias may stand for nothing but the name of a command. Its arguments are quoted and put behind
that name, and the line of it is read and run like any other. The quotes keep what is special in an
argument from being read again (`parse_quotedLine`), but the line goes through two more hands: its
empty tokens are dropped, and its variables are filled in once the quotes are gone. So the command
gets the arguments `reread`, not the ones that were given.

Otherwise the alias makes no difference: up to the notes, it comes to what the command comes to on
these arguments (`runs_renamed_command`). Two steps that differ in their notes only are said to
agree (`Step.Agrees`); the way from the alias to the command is a chain of such agreements.
-/

namespace VirtualShell

/-! ## Steps up to their notes -/

/-- Two steps come to the same outcome and leave the same session, whatever they note. -/
structure Step.Agrees {α : Type} (a b : Step α) : Prop where
  outcome_eq : a.outcome = b.outcome
  session_eq : a.session = b.session

/-- Agreement carries over. -/
theorem Step.Agrees.trans {α : Type} {a b c : Step α} (hab : a.Agrees b) (hbc : b.Agrees c) :
    a.Agrees c :=
  ⟨hab.outcome_eq.trans hbc.outcome_eq, hab.session_eq.trans hbc.session_eq⟩

/-! ## In front of the first dollar sign -/

/-- The characters in front of the first dollar sign are pieces of their own. -/
theorem Variable.pieces_append_of_notMem {cs : List Char} (h : '$' ∉ cs) (ds : List Char) :
    pieces (cs ++ ds) = cs.map .char ++ pieces ds := by
  induction cs with
  | nil => rfl
  | cons c cs ih =>
    rw [List.mem_cons, not_or] at h
    rw [List.cons_append, pieces, List.length_cons, piecesWithin, if_neg (Ne.symm h.1), ← pieces,
      ih h.2, List.map_cons, List.cons_append]

/-- References are filled in behind the first dollar sign only. -/
theorem Environment.expand_append_of_notMem (e : Environment) {front : String}
    (h : '$' ∉ front.toList) (text : String) :
    e.expand (front ++ text) = front ++ e.expand text := by
  have hchars :
      (front.toList.map Variable.Piece.char).flatMap (·.expand e.get?) = front.toList := by
    rw [List.flatMap_map]
    simp only [Variable.Piece.expand, List.flatMap_singleton']
  rw [expand, expand, Variable.expand, Variable.expand, String.toList_append,
    Variable.pieces_append_of_notMem h, List.flatMap_append, hchars, String.ofList_append,
    String.ofList_toList]

/-- A text without a dollar sign stays as it is. -/
theorem Environment.expand_of_notMem (e : Environment) {text : String} (h : '$' ∉ text.toList) :
    e.expand text = text := by
  have hempty : e.expand "" = "" := rfl
  have happend := e.expand_append_of_notMem h ""
  rwa [hempty, String.append_empty] at happend

namespace Execution

/-- What stands in front of the first dollar sign stays. -/
theorem expandText_append_of_notMem (s : Session) {front : String} (h : '$' ∉ front.toList)
    (text : String) : expandText s (front ++ text) = front ++ expandText s text := by
  rw [expandText, expandText, String.toList_append, Text.replacePair_append_of_notMem h,
    String.ofList_append, String.ofList_toList, Environment.expand_append_of_notMem _ h]

/-- Without a dollar sign there is nothing to fill in. -/
theorem expandText_of_notMem (s : Session) {text : String} (h : '$' ∉ text.toList) :
    expandText s text = text := by
  rw [expandText, Text.replacePair_of_notMem h, String.ofList_toList,
    Environment.expand_of_notMem _ h]

end Execution

/-! ## Templates that are a single word -/

/-- A template without a dollar sign uses no argument, so all of them are put behind it. -/
theorem Alias.substitute_of_notMem {template : String} (h : '$' ∉ template.toList)
    (args : List String) :
    substitute template args = .ok (Text.joinWith " " (template :: args)) := by
  have hpositions : fillPositions args template.toList
      = .ok { text := template.toList, used := false } := by
    rw [fillPositions, List.splitOn_eq_singleton h]
    simp [pure, Except.pure, bind, Except.bind]
  have hall (sign : Char) (joined : List Char) :
      fillAll sign joined { text := template.toList, used := false }
        = { text := template.toList, used := false } := by
    rw [fillAll, Text.hasPair_of_notMem h]
    rfl
  rw [substitute, hpositions]
  simp only [bind, Except.bind, pure, Except.pure, hall, String.ofList_toList]
  cases args with
  | nil => simp [Text.joinWith]
  | cons first rest => simp [Text.joinWith, String.append_assoc]

/-- The first word of a line is what stands before its first blank. -/
theorem Aliases.wordsOf_joinWith {word : String} (h : ' ' ∉ word.toList) (args : List String) :
    (wordsOf (Text.joinWith " " (word :: args))).1 = word := by
  cases args with
  | nil =>
    rw [Text.joinWith, String.intercalate_singleton, wordsOf, Text.splitOn_of_notMem h]
  | cons first rest =>
    rw [wordsOf, Text.splitOn, Line.toList_joinWith_cons, Text.splitOn_append_cons,
      List.splitOn_eq_singleton h, List.singleton_append, List.map_cons, String.ofList_toList]

/-- An alias for a word that is no alias resolves to that word with the arguments behind it. -/
theorem Aliases.resolve_of_word {t : Aliases} {name word : String}
    (halias : t.command? name = some word) (hword : t.contains word = false)
    (hplain : ∀ c ∈ word.toList, Alias.needsQuotes c = false) (args : List String) :
    t.resolve name args = .ok (.line (Text.joinWith " " (word :: args))) := by
  obtain ⟨a, hfind, rfl⟩ := Option.map_eq_some_iff.mp halias
  have hnot {c : Char} (hc : Alias.needsQuotes c = true) : c ∉ a.command.toList := by
    intro hmem
    rw [hplain c hmem] at hc
    cases hc
  have hfirst := wordsOf_joinWith (hnot (c := ' ') (by decide)) args
  rw [resolve, maxDepth, resolveWithin, hfind]
  simp only [List.contains_nil, Bool.false_eq_true, if_false,
    Alias.substitute_of_notMem (hnot (c := '$') (by decide)), hfirst, hword]

/-- No character in the name of a command has a meaning. -/
theorem Builtin.plain_name (b : Builtin) :
    b.name ≠ "" ∧ ∀ c ∈ b.name.toList, Alias.needsQuotes c = false := by
  have hall : b.name ≠ "" ∧ b.name.toList.all (!Alias.needsQuotes ·) = true := by
    cases b <;> decide
  refine ⟨hall.1, fun c hc => ?_⟩
  simpa using List.all_eq_true.mp hall.2 c hc

/-- The name of a command is not empty and needs no quotes. -/
theorem Builtin.plain_of_ofName? {word : String} {b : Builtin} (h : ofName? word = some b) :
    word ≠ "" ∧ ∀ c ∈ word.toList, Alias.needsQuotes c = false := by
  have hname : b.name = word := by
    rw [ofName?] at h
    simpa using List.find?_some h
  exact hname ▸ b.plain_name

namespace Execution

/-! ## From the alias to the command -/

variable {s : Session} {word : String}

/-- An alias that resolves to a line runs that line. -/
theorem agrees_dispatch_of_line {c : Command} {line : String}
    (halias : s.aliases.contains c.word = true)
    (hline : s.aliases.resolve c.word (c.args.map Alias.quoteArgument) = .ok (.line line))
    (run : String → Option String → Shell Result) (stdin : Option String) (now : Timestamp) :
    ((dispatch (some run) c stdin).run now s).Agrees ((run line stdin).run now s) := by
  rw [dispatch, Shell.run_session_bind]
  simp only [halias, if_true, hline]
  exact ⟨rfl, rfl⟩

/-- A command without redirections is dispatched with its variables filled in, and its exit code is
noted. -/
theorem agrees_runCommand (d : Runner) {c : Command} (houtput : c.output = none)
    (hinput : c.input = none) (hword : expandText s c.word ≠ "") (stdin : Option String)
    (now : Timestamp) :
    ((runCommand d c stdin).run now s).Agrees
      ((d (expandCommand s c) stdin >>= finish).run now s) := by
  have hempty : (expandCommand s c).isEmpty = false := beq_eq_false_iff_ne.mpr hword
  have hin : (expandCommand s c).input = none := by rw [expandCommand, hinput]; rfl
  have hout : (expandCommand s c).output = none := by rw [expandCommand, houtput]; rfl
  rw [runCommand, Shell.run_session_bind]
  simp only [hempty, Bool.false_eq_true, if_false, inputOf, hin, hout, pure_bind]
  exact ⟨rfl, rfl⟩

/-- A line that is a single command runs it. -/
theorem run_runLineWith_of_command {line : String} {c : Command}
    (hline : Program.parse line = .ok (.command c)) (nested : LineRunner) (stdin : Option String)
    (now : Timestamp) (s : Session) :
    (runLineWith nested line stdin).run now s
      = (runCommand (dispatch nested) c stdin).run now s := by
  have hread : readLine line = pure (.command c) := by
    rw [readLine, hline]
    rfl
  rw [runLineWith, hread, pure_bind, runProgram]

/-- A line is run by the runner of its depth. -/
theorem exists_runLine_eq (depth : Nat) : ∃ nested, runLine depth = runLineWith nested := by
  cases depth with
  | zero => exact ⟨none, by rw [runLine]⟩
  | succ depth => exact ⟨some (runLine depth), by rw [runLine]⟩

/-- A command whose word is no alias is dispatched alike at every level of nesting. -/
theorem run_dispatch_of_not_alias {c : Command} (hword : s.aliases.contains c.word = false)
    {b : Builtin} (hbuiltin : Builtin.ofName? c.word = some b) (nested : LineRunner)
    (stdin : Option String) (now : Timestamp) :
    (dispatch nested c stdin).run now s = (b.run c.args stdin).run now s := by
  rw [dispatch, Shell.run_session_bind]
  simp only [hword, Bool.false_eq_true, if_false, pure_bind, runResolved, hbuiltin]

/-- A command without redirections whose word is no alias is run with its arguments filled in, and
its exit code is noted. -/
theorem agrees_runCommand_of_builtin {c : Command} (houtput : c.output = none)
    (hinput : c.input = none) (hword : s.aliases.contains (expandText s c.word) = false)
    {b : Builtin} (hbuiltin : Builtin.ofName? (expandText s c.word) = some b)
    (nested : LineRunner) (stdin : Option String) (now : Timestamp) :
    ((runCommand (dispatch nested) c stdin).run now s).Agrees
      ((b.run (c.args.map (expandText s)) stdin >>= finish).run now s) := by
  have hne := (Builtin.plain_of_ofName? hbuiltin).1
  have hdispatch : (dispatch nested (expandCommand s c) stdin).run now s
      = (b.run (c.args.map (expandText s)) stdin).run now s :=
    run_dispatch_of_not_alias (c := expandCommand s c) hword hbuiltin nested stdin now
  refine (agrees_runCommand _ houtput hinput hne stdin now).trans ?_
  rw [Shell.run_bind_congr hdispatch]
  exact ⟨rfl, rfl⟩

/-- There is nothing to fill in in the name of a command. -/
theorem agrees_runCommand_name {b : Builtin} (hword : s.aliases.contains b.name = false)
    (args : List String) (nested : LineRunner) (stdin : Option String) (now : Timestamp) :
    ((runCommand (dispatch nested) { word := b.name, args } stdin).run now s).Agrees
      ((b.run (args.map (expandText s)) stdin >>= finish).run now s) := by
  have hname : expandText s b.name = b.name := expandText_of_notMem s fun hmem => by
    have hdollar := b.plain_name.2 '$' hmem
    exact absurd hdollar (by decide)
  have hbuiltin : Builtin.ofName? b.name = some b := by cases b <;> rfl
  exact agrees_runCommand_of_builtin rfl rfl (hname.symm ▸ hword) (hname.symm ▸ hbuiltin) nested
    stdin now

/-! ## What the command gets -/

/-- The arguments that reach a command through the line of an alias: not the empty ones, and with
the variables filled in that they still seem to hold. -/
def reread (s : Session) (args : List String) : List String :=
  (args.filter (· ≠ "")).map (expandText s)

/-- Arguments that are not empty, and in which nothing is filled in, are read again as they are. -/
theorem reread_eq_self {s : Session} {args : List String}
    (h : ∀ a ∈ args, a ≠ "" ∧ expandText s a = a) : reread s args = args := by
  have hfilter : args.filter (· ≠ "") = args :=
    List.filter_eq_self.mpr fun a ha => decide_eq_true (h a ha).1
  rw [reread, hfilter, List.map_congr_left fun a ha => (h a ha).2, List.map_id']

/-- The line of a command with quoted arguments runs the command on what is left of them. -/
theorem agrees_runLine_quotedLine {b : Builtin} (hbuiltin : Builtin.ofName? word = some b)
    (hword : s.aliases.contains word = false) {args : List String}
    (hlength : (Text.strip (Line.quotedLine (word :: args))).length ≤ Line.maxLength)
    (depth : Nat) (nested : LineRunner) (stdin : Option String) (now : Timestamp) :
    ((runLine depth (Line.quotedLine (word :: args)) stdin).run now s).Agrees
      ((dispatch nested { word, args := reread s args } stdin >>= finish).run now s) := by
  obtain ⟨hne, hplain⟩ := Builtin.plain_of_ofName? hbuiltin
  have hexpand : expandText s word = word := expandText_of_notMem s fun hmem => by
    have hdollar := hplain '$' hmem
    exact absurd hdollar (by decide)
  have hparse := Line.parse_quotedLine hne hlength
  -- The levels differ in how they dispatch an alias, and this word is none.
  obtain ⟨inner, hinner⟩ := exists_runLine_eq depth
  rw [hinner, run_runLineWith_of_command hparse]
  refine (agrees_runCommand_of_builtin rfl rfl (hexpand.symm ▸ hword) (hexpand.symm ▸ hbuiltin)
    inner stdin now).trans ?_
  rw [Shell.run_bind_congr (run_dispatch_of_not_alias hword hbuiltin nested stdin now)]
  exact ⟨rfl, rfl⟩

/-- An alias that stands for the name of a command comes to what the command comes to on the
arguments `reread`, with its exit code noted. Where no argument is empty and none holds anything to
fill in, these are the arguments that were given. -/
theorem runs_renamed_command {name : String} {b : Builtin} {args : List String}
    (halias : s.aliases.command? name = some word) (hbuiltin : Builtin.ofName? word = some b)
    (hword : s.aliases.contains word = false)
    (hlength : (Text.strip (Line.quotedLine (word :: args))).length ≤ Line.maxLength)
    (depth : Nat) (stdin : Option String) (now : Timestamp) :
    let nested := some (runLine depth)
    let aliased := (dispatch nested { word := name, args } stdin).run now s
    let direct := fun args => (dispatch nested { word, args } stdin >>= finish).run now s
    aliased.Agrees (direct (reread s args)) ∧
      ((∀ a ∈ args, a ≠ "" ∧ expandText s a = a) → aliased.Agrees (direct args)) := by
  intro nested aliased direct
  have hplain := (Builtin.plain_of_ofName? hbuiltin).2
  have hcontains : s.aliases.contains name = true := by
    obtain ⟨a, ha, -⟩ := Option.map_eq_some_iff.mp halias
    rw [Table.contains, ha]
    rfl
  have hline : s.aliases.resolve name (args.map Alias.quoteArgument)
      = .ok (.line (Line.quotedLine (word :: args))) := by
    rw [Aliases.resolve_of_word halias hword hplain, Line.quotedLine, List.map_cons,
      Alias.quoteArgument_of_plain hplain]
  have hgeneral : aliased.Agrees (direct (reread s args)) :=
    (agrees_dispatch_of_line hcontains hline _ stdin now).trans
      (agrees_runLine_quotedLine hbuiltin hword hlength depth nested stdin now)
  refine ⟨hgeneral, fun hargs => ?_⟩
  rw [reread_eq_self hargs] at hgeneral
  exact hgeneral

/-- A new session in which `say` is an alias for `echo`. -/
def sayingSession : Session :=
  (Session.new (DefaultTree.fileSystem .epoch)).afterLines [(.epoch, "alias say=echo")]

/-- Blanks, quotes and signs in the arguments come out as they are. -/
theorem says_quoted_arguments :
    let args := ["a   b", "it's", "x > y && z"]
    let nested := some (runLine (Aliases.maxDepth - 1))
    let direct :=
      (dispatch nested { word := "echo", args } none >>= finish).run .epoch sayingSession
    (sayingSession.aliases.command? "say" = some "echo" ∧
        Builtin.ofName? "echo" = some .echo ∧ sayingSession.aliases.contains "echo" = false ∧
        (Text.strip (Line.quotedLine ("echo" :: args))).length ≤ Line.maxLength ∧
        ∀ a ∈ args, a ≠ "" ∧ expandText sayingSession a = a) ∧
      ((dispatch nested { word := "say", args } none).run .epoch sayingSession).Agrees direct ∧
      direct.outcome.toOption.map Result.text = some "a   b it's x > y && z\n" := by
  have halias : sayingSession.aliases.command? "say" = some "echo" := by decide +kernel
  have hword : sayingSession.aliases.contains "echo" = false := by decide +kernel
  have hlength : (Text.strip (Line.quotedLine ["echo", "a   b", "it's", "x > y && z"])).length
      ≤ Line.maxLength := by decide +kernel
  have hargs : ∀ a ∈ ["a   b", "it's", "x > y && z"],
      a ≠ "" ∧ expandText sayingSession a = a := by decide +kernel
  have htext : ((dispatch (some (runLine (Aliases.maxDepth - 1)))
      { word := "echo", args := ["a   b", "it's", "x > y && z"] } none >>= finish).run .epoch
        sayingSession).outcome.toOption.map Result.text = some "a   b it's x > y && z\n" := by
    decide +kernel
  intro args nested direct
  refine ⟨⟨halias, rfl, hword, hlength, hargs⟩, ?_, htext⟩
  exact (runs_renamed_command halias rfl hword hlength (Aliases.maxDepth - 1) none .epoch).2 hargs

/-- A text that happens to look like a reference is taken for one behind the alias. -/
theorem says_home_for_its_name :
    let args := ["$HOME"]
    let nested := some (runLine (Aliases.maxDepth - 1))
    let aliased := (dispatch nested { word := "say", args } none).run .epoch sayingSession
    let direct :=
      (dispatch nested { word := "echo", args } none >>= finish).run .epoch sayingSession
    sayingSession.aliases.command? "say" = some "echo" ∧ Builtin.ofName? "echo" = some .echo ∧
      sayingSession.aliases.contains "echo" = false ∧
      (Text.strip (Line.quotedLine ("echo" :: args))).length ≤ Line.maxLength ∧
      aliased.outcome.toOption.map Result.text = some "/home/user\n" ∧
      direct.outcome.toOption.map Result.text = some "$HOME\n" ∧ ¬ aliased.Agrees direct := by
  have haliased : ((dispatch (some (runLine (Aliases.maxDepth - 1)))
      { word := "say", args := ["$HOME"] } none).run .epoch sayingSession).outcome.toOption.map
        Result.text = some "/home/user\n" := by decide +kernel
  have hdirect : ((dispatch (some (runLine (Aliases.maxDepth - 1)))
      { word := "echo", args := ["$HOME"] } none >>= finish).run .epoch
        sayingSession).outcome.toOption.map Result.text = some "$HOME\n" := by decide +kernel
  refine ⟨by decide +kernel, rfl, by decide +kernel, by decide +kernel, haliased, hdirect, ?_⟩
  rintro ⟨houtcome, -⟩
  rw [houtcome, hdirect] at haliased
  exact absurd haliased (by decide)

end Execution

end VirtualShell
