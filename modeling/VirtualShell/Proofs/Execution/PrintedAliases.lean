import VirtualShell.Proofs.Execution.Transparent
import VirtualShell.Proofs.Text.Lines

/-!
# Aliases that are printed and read again

An alias is printed as the command that defines it, with quotes around its command line where there
is something to quote. Such a line has two readers. Executing it reads it as a command, fills in
variables and hands the definition to `alias`; a script that holds the line reads it by itself.

The words of the line spell the definition (`spells_definition`), so the shell finds its two tokens
again, unless the line is too long to be read at all (`parse_format`); what `alias` then stores is
the command as it is filled in (`execute_format`). A script takes the line apart at its signs, fills
in nothing and knows only names that are identifiers (`classify_format`). When both come to the
alias that was printed is said in `reads_printed_alias`.
-/

namespace VirtualShell

namespace Text

/-- No character of a name is a blank. -/
theorem isBlank_of_isNameChar {c : Char} (h : isNameChar c = true) : isBlank c = false := by
  have hrange : 0x30 ≤ c.toNat ∧ c.toNat ≤ 0x7A := by
    change (c.isUpper || c.isLower || c.isDigit || c == '_') = true at h
    simp only [Bool.or_eq_true, beq_iff_eq] at h
    rcases h with ((h | h) | h) | rfl
    · obtain ⟨hlow, hhigh⟩ : 65 ≤ c.toNat ∧ c.toNat ≤ 90 := of_decide_eq_true h
      omega
    · obtain ⟨hlow, hhigh⟩ : 97 ≤ c.toNat ∧ c.toNat ≤ 122 :=
        (Bool.and_eq_true_iff.mp h).imp of_decide_eq_true of_decide_eq_true
      omega
    · obtain ⟨hlow, hhigh⟩ : 48 ≤ c.toNat ∧ c.toNat ≤ 57 :=
        (Bool.and_eq_true_iff.mp h).imp of_decide_eq_true of_decide_eq_true
      omega
    · decide
  rw [← Bool.not_eq_true]
  intro hblank
  simp only [isBlank, Bool.or_eq_true, Bool.and_eq_true, decide_eq_true_eq, beq_iff_eq] at hblank
  omega

/-- An identifier consists of characters for names. -/
theorem isNameChar_of_mem_identifier {cs : List Char} (h : isIdentifier cs = true) {c : Char}
    (hc : c ∈ cs) : isNameChar c = true := by
  cases cs with
  | nil => cases hc
  | cons first rest =>
    rw [isIdentifier, Bool.and_eq_true, List.all_eq_true] at h
    rcases List.mem_cons.mp hc with rfl | hrest
    · have hstart := h.1
      rw [isNameStart, Bool.or_eq_true] at hstart
      rw [isNameChar, Bool.or_eq_true, Char.isAlphanum, Bool.or_eq_true]
      exact hstart.imp .inl id
    · exact h.2 c hrest

end Text

namespace Alias

variable {name command : String}

/-! ## The printed line -/

/-- A valid alias that fits on one line and between single quotes. -/
@[mk_iff]
structure Printable (name command : String) : Prop where
  valid : validate name command = none
  trimmed : Text.strip command = command
  oneLineName : '\n' ∉ name.toList
  oneLine : '\n' ∉ command.toList
  unquoted : '\'' ∉ command.toList

instance (name command : String) : Decidable (Printable name command) :=
  decidable_of_iff' _ (printable_iff name command)

/-- The command of a valid alias is not empty. -/
theorem ne_empty_of_validate (h : validate name command = none) : command ≠ "" := by
  rintro rfl
  obtain ⟨-, -, hblank, -⟩ := validate_eq_none_iff.mp h
  cases hblank

/-- A valid alias is set as it is, if no blanks stand around its command. -/
theorem set_of_validate (hvalid : validate name command = none)
    (htrimmed : Text.strip command = command) (t : Aliases) (now : Timestamp) :
    t.set now name command = .ok (t.put name { name, command, createdAt := now }) := by
  obtain ⟨-, hname, -, -⟩ := validate_eq_none_iff.mp hvalid
  rw [Aliases.set_eq_ok_iff, htrimmed]
  exact ⟨hname, ne_empty_of_validate hvalid, rfl⟩

/-- A character for names needs no quotes. -/
theorem needsQuotes_of_isNameChar {c : Char} (h : Text.isNameChar c = true) :
    needsQuotes c = false := by
  have hspecial : "'\"\\|&;<>()\x7b\x7d[]$`".toList.any Text.isNameChar = false := by decide
  rw [needsQuotes, Text.isBlank_of_isNameChar h, Bool.false_or, ← Bool.not_eq_true,
    List.contains_iff_mem]
  exact fun hmem => List.any_eq_false.mp hspecial c hmem h

/-- The name of an alias holds nothing that has a meaning, and no equals sign. -/
theorem plain_of_isWord {cs : List Char} (h : isWord cs = true) {c : Char} (hc : c ∈ cs) :
    needsQuotes c = false ∧ c ≠ '=' := by
  rw [isWord, Bool.or_eq_true] at h
  rcases h with hidentifier | hdots
  · have hname := Text.isNameChar_of_mem_identifier hidentifier hc
    refine ⟨needsQuotes_of_isNameChar hname, ?_⟩
    rintro rfl
    exact absurd hname (by decide)
  · rw [Bool.and_eq_true, List.all_eq_true] at hdots
    obtain rfl : c = '.' := beq_iff_eq.mp (hdots.2 c hc)
    decide

namespace Printable

/-- The name is an identifier or a row of dots. -/
theorem isWord_name (h : Printable name command) : isWord name.toList = true := by
  obtain ⟨-, hname, -, -⟩ := validate_eq_none_iff.mp h.valid
  rw [isValidName, Text.dropFinalNewline_of_notMem h.oneLineName, Bool.or_self,
    Bool.and_eq_true] at hname
  exact hname.2

/-- The command is not empty. -/
theorem command_ne_empty (h : Printable name command) : command ≠ "" :=
  ne_empty_of_validate h.valid

/-- No blank stands at either end of the command. -/
theorem not_blank_at_ends (h : Printable name command) :
    (∀ c ∈ command.toList.head?, Text.isBlank c = false) ∧
      ∀ c ∈ command.toList.getLast?, Text.isBlank c = false := by
  refine Text.trim_eq_self_iff.mp ?_
  have htrimmed := congrArg String.toList h.trimmed
  rwa [Text.strip, String.toList_ofList] at htrimmed

/-- Without single quotes inside, the command is printed as an argument is quoted. -/
theorem format_eq (h : Printable name command) :
    format name command = Text.joinWith " " ["alias", name ++ "=" ++ quoteArgument command] := by
  rw [format, quoteArgument, Text.replaceChar_of_notMem _ h.unquoted,
    Text.replaceChar_of_notMem _ h.unquoted, ← String.toList_inj]
  split <;> simp [Text.joinWith]

/-- The second word of the line spells the definition. -/
theorem spells_definition (h : Printable name command) :
    Line.Spells (name ++ "=" ++ quoteArgument command).toList
      (name ++ "=" ++ command).toList := by
  have hfront : Line.Spells (name ++ "=").toList (name ++ "=").toList := by
    refine Line.spells_self fun c hc => ?_
    rw [String.toList_append, List.mem_append] at hc
    rcases hc with hc | hc
    · exact (plain_of_isWord h.isWord_name hc).1
    · obtain rfl := List.mem_singleton.mp hc
      decide
  rw [String.toList_append, String.toList_append (s := name ++ "=")]
  exact hfront.append (Line.spells_quoteArgument command)

/-- The characters of the line. -/
theorem toList_format (h : Printable name command) : (format name command).toList
    = "alias".toList ++ ' ' :: (name.toList ++ '=' :: (quoteArgument command).toList) := by
  rw [h.format_eq]
  simp [Text.joinWith]

/-- The line holds no line feed. -/
theorem newline_notMem_format (h : Printable name command) :
    '\n' ∉ (format name command).toList := by
  have hquoted : '\n' ∉ (quoteArgument command).toList := by
    rw [quoteArgument, Text.replaceChar_of_notMem _ h.unquoted]
    split <;> simp [h.oneLine]
  rw [h.toList_format]
  simp [h.oneLineName, hquoted]

/-- The printed command starts and ends with characters that are not blank. -/
theorem not_blank_at_ends_quoted (h : Printable name command) :
    (∀ c ∈ (quoteArgument command).toList.head?, Text.isBlank c = false) ∧
      ∀ c ∈ (quoteArgument command).toList.getLast?, Text.isBlank c = false := by
  rw [quoteArgument]
  split
  · have hquote : Text.isBlank '\'' = false := by decide
    have hlast (cs : List Char) : ('\'' :: (cs ++ ['\''])).getLast? = some '\'' := by
      rw [← List.cons_append, List.getLast?_concat]
    simp [hlast, hquote]
  · exact h.not_blank_at_ends

/-- No blanks stand around the line. -/
theorem strip_format (h : Printable name command) :
    Text.strip (format name command) = format name command := by
  have hne : (quoteArgument command).toList ≠ [] := by
    intro hempty
    have hkept := (Line.spells_quoteArgument command).kept_eq
    rw [hempty] at hkept
    exact h.command_ne_empty (String.toList_eq_nil_iff.mp hkept.symm)
  have htrim : Text.trim (format name command).toList = (format name command).toList := by
    rw [h.toList_format, Text.trim_eq_self_iff]
    refine ⟨by simp; decide, ?_⟩
    rw [List.getLast?_append_of_ne_nil _ (List.cons_ne_nil _ _), ← List.cons_append,
      List.getLast?_append_of_ne_nil _ (List.cons_ne_nil _ _), List.getLast?_cons_of_ne_nil hne]
    exact h.not_blank_at_ends_quoted.2
  rw [Text.strip, htrim, String.ofList_toList]

/-- The shell reads the printed line as the command `alias` with the definition, unless the line is
too long. -/
theorem parse_format (h : Printable name command)
    (hlength : (format name command).length ≤ Line.maxLength) :
    Program.parse (format name command)
      = .ok (.command { word := "alias", args := [name ++ "=" ++ command] }) := by
  have hwords : List.Forall₂ (fun word text => Line.Spells word.toList text.toList)
      ["alias", name ++ "=" ++ quoteArgument command] ["alias", name ++ "=" ++ command] :=
    .cons (Line.spells_self Builtin.defineAlias.plain_name.2) (.cons h.spells_definition .nil)
  rw [← h.strip_format, h.format_eq] at hlength
  rw [h.format_eq, Line.parse_spelledLine hwords (by decide) hlength]
  simp

/-- A line that is too long is not read. -/
theorem parse_format_of_long (h : Printable name command)
    (hlength : Line.maxLength < (format name command).length) :
    Program.parse (format name command) = .error .lineTooLong := by
  have htrim := congrArg String.toList h.strip_format
  rw [Text.strip, String.toList_ofList] at htrim
  rw [← String.length_toList] at hlength
  rw [Program.parse, Line.readProgram, Line.trimLine, htrim, if_pos hlength]
  rfl

/-! ## Executing the line -/

/-- The definition is taken apart at its first equals sign. -/
theorem aliasAssignment?_eq (h : Printable name command) (value : String) :
    Builtin.aliasAssignment? (name ++ "=" ++ value) = some (name, value) := by
  have hchars : (name ++ "=" ++ value).toList = name.toList ++ '=' :: value.toList := by
    simp
  have hname : (name.toList ++ '=' :: value.toList).takeWhile (· != '=') = name.toList := by
    rw [List.takeWhile_append_of_pos, List.takeWhile_cons_of_neg (by decide), List.append_nil]
    exact fun c hc => bne_iff_ne.mpr (plain_of_isWord h.isWord_name hc).2
  rw [Builtin.aliasAssignment?, hchars]
  simp only [hname, List.drop_left, h.isWord_name, if_true, String.ofList_toList]

/-- Of a definition with this name, `alias` stores the command without the blanks around it, or
nothing if the alias is not valid. -/
theorem run_defineAlias (h : Printable name command) (value : String) (stdin : Option String)
    (now : Timestamp) (s : Session) :
    (Builtin.defineAlias.run [name ++ "=" ++ value] stdin).run now s
      = match validate name (Text.strip value) with
        | some fault => { outcome := .ok (.fail ("alias: " ++ fault.message)), session := s }
        | none =>
          let stored : Alias := { name, command := Text.strip value, createdAt := now }
          { outcome := .ok (.say "")
            session := { s with aliases := s.aliases.put name stored } } := by
  change (Builtin.aliasArguments [] [name ++ "=" ++ value]).run now s = _
  rw [Builtin.aliasArguments]
  simp only [h.aliasAssignment?_eq]
  unfold Builtin.defineOne
  cases hvalid : validate name (Text.strip value) with
  | some fault => rfl
  | none =>
    dsimp only
    rw [Shell.bind_bind_eq, Shell.run_now_bind, Shell.bind_bind_eq, Shell.run_session_bind,
      set_of_validate hvalid (Text.strip_strip value)]
    rfl

/-! ## Reading the line in a script -/

/-- A script takes the printed line apart at its blank and its equals sign, if the name is an
identifier. -/
theorem readDefinition?_format (h : Printable name command)
    (hname : Text.isIdentifier name.toList = true) :
    Script.readDefinition? "alias" (format name command).toList
      = some (name.toList, (quoteArgument command).toList) := by
  have hstarts : "alias".toList.isPrefixOf (format name command).toList = true := by
    rw [h.toList_format, List.isPrefixOf_iff_prefix]
    exact List.prefix_append _ _
  have hrest : (format name command).toList.drop "alias".length
      = ' ' :: (name.toList ++ '=' :: (quoteArgument command).toList) := by
    rw [h.toList_format]
    exact List.drop_left
  have hbody : Text.trimStart (' ' :: (name.toList ++ '=' :: (quoteArgument command).toList))
      = name.toList ++ '=' :: (quoteArgument command).toList := by
    rw [Text.trimStart, List.dropWhile_cons_of_pos (by decide)]
    refine Text.trimStart_eq_self_iff.mpr fun c hc => ?_
    cases hchars : name.toList with
    | nil =>
      rw [hchars] at hname
      cases hname
    | cons first rest =>
      rw [hchars] at hc hname
      obtain rfl : first = c := Option.some.inj hc
      exact Text.isBlank_of_isNameChar
        (Text.isNameChar_of_mem_identifier hname List.mem_cons_self)
  have hword : (name.toList ++ '=' :: (quoteArgument command).toList).takeWhile Text.isNameChar
      = name.toList := by
    rw [List.takeWhile_append_of_pos, List.takeWhile_cons_of_neg (by decide), List.append_nil]
    exact fun c hc => Text.isNameChar_of_mem_identifier hname hc
  have hequals : Text.trimStart ('=' :: (quoteArgument command).toList)
      = '=' :: (quoteArgument command).toList :=
    Text.trimStart_eq_self_iff.mpr (by simp; decide)
  have hvalue : Text.trimStart (quoteArgument command).toList = (quoteArgument command).toList :=
    Text.trimStart_eq_self_iff.mpr h.not_blank_at_ends_quoted.1
  rw [Script.readDefinition?, if_pos hstarts]
  simp only [hrest, hbody, hword, List.drop_left, hequals, hname, hvalue]
  simp

/-- A script reads the alias from the line. -/
theorem readAlias?_format (h : Printable name command)
    (hname : Text.isIdentifier name.toList = true) :
    Script.readAlias? (format name command).toList = some (name, command) := by
  have htrim : String.ofList (Text.trim command.toList) = command := h.trimmed
  rw [Script.readAlias?, h.readDefinition?_format hname]
  dsimp only [bind, Option.bind]
  by_cases hquotes : command.toList.any needsQuotes = true
  · have hquoted : (quoteArgument command).toList = '\'' :: (command.toList ++ ['\'']) := by
      rw [quoteArgument, if_pos hquotes, Text.replaceChar_of_notMem _ h.unquoted]
      simp
    have hinner : Script.unquote? ('\'' :: (command.toList ++ ['\''])) = some command.toList := by
      simp [Script.unquote?, Script.isQuote]
    simp only [hquoted, hinner, htrim, String.ofList_toList]
  · have hplain : quoteArgument command = command := if_neg hquotes
    have hinner : Script.unquote? command.toList = none := by
      cases hchars : command.toList with
      | nil => rfl
      | cons first rest =>
        have hfirst : ¬ Script.isQuote first = true := by
          intro hquote
          refine hquotes (List.any_eq_true.mpr ⟨first, ?_, Line.needsQuotes_of_isQuote hquote⟩)
          rw [hchars]
          exact List.mem_cons_self
        simp [Script.unquote?, hfirst]
    have hne : command.toList.isEmpty = false := by
      rw [List.isEmpty_eq_false_iff, Ne, String.toList_eq_nil_iff]
      exact h.command_ne_empty
    simp only [hplain, hinner, hne, htrim, String.ofList_toList]
    rfl

/-- So the line defines the alias there. -/
theorem classify_format (h : Printable name command)
    (hname : Text.isIdentifier name.toList = true) :
    Script.classify (format name command) = .defineAlias name command := by
  have hstart : (format name command).toList.head? = some 'a' := by
    rw [h.toList_format]
    rfl
  have hne : (format name command).toList.isEmpty = false := by
    rw [List.isEmpty_eq_false_iff]
    intro hempty
    rw [hempty] at hstart
    cases hstart
  rw [Script.classify]
  simp only [hne, hstart, h.readAlias?_format hname, h.valid]
  rfl

end Printable

end Alias

namespace Script

/-- A text that holds one line, with or without a line feed behind it. -/
def Holds (text line : String) : Prop :=
  text = line ∨ text = line ++ "\n"

variable {line name command : String}

/-- A script that holds one line has this line and, behind its line feed, an empty one. -/
theorem parse_of_holds {text : String} (h : Holds text line) (hne : line ≠ "")
    (hline : '\n' ∉ line.toList) (hstrip : Text.strip line = line) :
    ∃ blank, parse text = { number := 1, content := line, kind := classify line } :: blank ∧
      ∀ l ∈ blank, l.kind = .empty := by
  rcases h with rfl | rfl
  · refine ⟨[], ?_, nofun⟩
    simp [parse, hne, Text.splitOn_of_notMem hline, hstrip]
  · have hlines : Text.splitOn '\n' (line ++ "\n") = [line, ""] := by
      have hfields := Text.splitOn_append_cons '\n' line.toList []
      rw [List.splitOn_eq_singleton hline] at hfields
      simp [Text.splitOn, hfields]
    have hempty : line ++ "\n" ≠ "" := by simp
    refine ⟨[{ number := 2, content := "", kind := .empty }], ?_, by simp⟩
    rw [parse, if_neg hempty, hlines]
    simp only [List.zipIdx_cons, List.zipIdx_nil, List.map_cons, List.map_nil, hstrip]
    rfl

/-- A script whose only line that is not empty defines an alias does just that. -/
theorem apply_of_definition {l : Line} (hl : l.kind = .defineAlias name command)
    {blank : List Line} (hblank : ∀ l ∈ blank, l.kind = .empty) {t t' : Aliases} {now : Timestamp}
    (hset : t.set now name command = .ok t') (e : Option Environment) :
    apply now t e (l :: blank)
      = { aliases := t', environment := e, execution := { aliases := [name] } } := by
  have hskip (p : Progress) : blank.foldl (Progress.step now) p = p := by
    induction blank with
    | nil => rfl
    | cons first blank ih =>
      have hfirst : p.step now first = p := by
        rw [Progress.step, hblank first List.mem_cons_self]
      rw [List.foldl_cons, hfirst]
      exact ih fun l hl => hblank l (List.mem_cons_of_mem first hl)
  have herrors : errors (l :: blank) = [] := by
    rw [errors, List.filterMap_eq_nil_iff]
    intro l' hl'
    rcases List.mem_cons.mp hl' with rfl | hmem
    · rw [Line.error?, hl]
    · rw [Line.error?, hblank l' hmem]
  rw [apply, herrors, List.foldl_cons, hskip, Progress.step, hl]
  simp only [hset]
  rfl

end Script

namespace Execution

open Alias

variable {name command : String} {s : Session}

/-- The printed line is executed as `alias` is run on the definition, its command filled in. -/
theorem agrees_runLine_format (h : Printable name command)
    (halias : s.aliases.contains "alias" = false)
    (hlength : (format name command).length ≤ Line.maxLength) (now : Timestamp) :
    ((runLine Aliases.maxDepth (format name command) none).run now s).Agrees
      ((Builtin.defineAlias.run [name ++ "=" ++ expandText s command] none >>= finish).run
        now s) := by
  have hfront : '$' ∉ (name ++ "=").toList := by
    rw [String.toList_append, List.mem_append, not_or]
    refine ⟨fun hmem => ?_, by decide⟩
    have hdollar := (plain_of_isWord h.isWord_name hmem).1
    exact absurd hdollar (by decide)
  obtain ⟨nested, hnested⟩ := exists_runLine_eq Aliases.maxDepth
  rw [hnested, run_runLineWith_of_command (h.parse_format hlength)]
  have hrun := agrees_runCommand_name (b := .defineAlias) halias [name ++ "=" ++ command] nested
    none now
  rw [List.map_singleton, expandText_append_of_notMem s hfront] at hrun
  exact hrun

/-- The command of the printed line is stored with the variables filled in, unless the line is too
long or the alias is then not valid. -/
theorem execute_format (h : Printable name command) (halias : s.aliases.contains "alias" = false)
    (hlength : (format name command).length ≤ Line.maxLength) (now : Timestamp) :
    let value := Text.strip (expandText s command)
    let executed := (execute (format name command)).run now s
    match validate name value with
    | some fault =>
      executed.outcome = .ok (.fail ("alias: " ++ fault.message)) ∧
        executed.session.aliases = s.aliases
    | none =>
      executed.outcome = .ok (.say "") ∧
        executed.session.aliases
          = s.aliases.put name { name, command := value, createdAt := now } := by
  have hagrees := agrees_runLine_format h halias hlength now
  have hrun := h.run_defineAlias (expandText s command) none now s
  obtain ⟨houtcome, hsession⟩ := run_execute (format name command) now s
  dsimp only
  cases hvalid : validate name (Text.strip (expandText s command)) with
  | some _ | none =>
    rw [hvalid] at hrun
    rw [Shell.run_bind_of_run hrun] at hagrees
    rw [houtcome, hsession, hagrees.outcome_eq, hagrees.session_eq]
    exact ⟨rfl, rfl⟩

/-- A line that is too long is refused and defines nothing. -/
theorem execute_format_of_long (h : Printable name command)
    (hlength : Line.maxLength < (format name command).length) (now : Timestamp) (s : Session) :
    ((execute (format name command)).run now s).outcome
        = .ok (.fail "Command too long (max 1000 characters)") ∧
      ((execute (format name command)).run now s).session.aliases = s.aliases := by
  have hrun : (runLine Aliases.maxDepth (format name command) none).run now s
      = { outcome := .error (.line .lineTooLong), session := s } := by
    obtain ⟨nested, hnested⟩ := exists_runLine_eq Aliases.maxDepth
    rw [hnested, runLineWith, readLine, h.parse_format_of_long hlength]
    rfl
  obtain ⟨houtcome, hsession⟩ := run_execute (format name command) now s
  rw [houtcome, hsession, hrun]
  exact ⟨rfl, rfl⟩

/-- The alias is defined again if filling in variables leaves its command as it is, up to the blanks
around it. -/
theorem execute_format_of_kept (h : Printable name command)
    (halias : s.aliases.contains "alias" = false)
    (hlength : (format name command).length ≤ Line.maxLength)
    (hkept : Text.strip (expandText s command) = command) (now : Timestamp) :
    ((execute (format name command)).run now s).outcome = .ok (.say "") ∧
      ((execute (format name command)).run now s).session.aliases
        = s.aliases.put name { name, command, createdAt := now } := by
  have hexecuted := execute_format h halias hlength now
  dsimp only at hexecuted
  rw [hkept, h.valid] at hexecuted
  exact hexecuted

/-- In no other way does executing the line define the alias, if there is none before. -/
theorem kept_of_execute_format (h : Printable name command) (haliases : s.aliases = [])
    {now : Timestamp}
    (hdefined : ((execute (format name command)).run now s).session.aliases
      = [(name, { name, command, createdAt := now })]) :
    (format name command).length ≤ Line.maxLength ∧
      Text.strip (expandText s command) = command := by
  have halias : s.aliases.contains "alias" = false := by
    rw [haliases]
    rfl
  have hlength : (format name command).length ≤ Line.maxLength := by
    by_contra hlong
    have hexecuted := (execute_format_of_long h (Nat.lt_of_not_le hlong) now s).2
    rw [hdefined, haliases] at hexecuted
    cases hexecuted
  have hexecuted := execute_format h halias hlength now
  dsimp only at hexecuted
  rw [hdefined, haliases] at hexecuted
  split at hexecuted
  · exact absurd hexecuted.2 (List.cons_ne_nil _ _)
  · have hstored : (name, ({ name, command, createdAt := now } : Alias))
        = (name, { name, command := Text.strip (expandText s command), createdAt := now }) :=
      List.head_eq_of_cons_eq hexecuted.2
    have hcommand := congrArg (fun entry => entry.2.command) hstored
    exact ⟨hlength, hcommand.symm⟩

/-- A printed alias defines itself again when a file is sourced that holds the line. -/
theorem source_format (h : Printable name command) (hname : Text.isIdentifier name.toList = true)
    {file content : String} {info : NodeInfo}
    (hfile : s.fileSystem.named? file = .ok (some (.file info content)))
    (hcontent : Script.Holds content (format name command)) (stdin : Option String)
    (now : Timestamp) :
    ((Builtin.source.run [file] stdin).run now s).outcome
        = .ok (.say ("Applied 1 aliases and 0 exports from " ++ file)) ∧
      ((Builtin.source.run [file] stdin).run now s).session.aliases
        = s.aliases.put name { name, command, createdAt := now } := by
  have hread : (Shell.query fun s => Builtin.readFile s "source" file).run now s
      = { outcome := .ok (.ok content), session := s } := by
    unfold Shell.query Shell.run Builtin.readFile
    simp only [hfile]
    rfl
  have hclassify := h.classify_format hname
  have hne : format name command ≠ "" := by
    intro hempty
    rw [hempty] at hclassify
    cases hclassify
  obtain ⟨blank, hparse, hblank⟩ :=
    Script.parse_of_holds hcontent hne h.newline_notMem_format h.strip_format
  rw [hclassify] at hparse
  have happly := Script.apply_of_definition
    (l := { number := 1, content := format name command, kind := .defineAlias name command })
    rfl hblank (set_of_validate h.valid h.trimmed s.aliases now) (some s.environment)
  have hscript : (Session.applyScript content).run now s
      = { outcome := .ok { aliases := [name] }
          session :=
            { s with aliases := s.aliases.put name { name, command, createdAt := now } } } := by
    unfold Session.applyScript Shell.run
    simp only [hparse, happly]
    rfl
  have hsummary : "Applied " ++ Text.natText 1 ++ " aliases and " ++ Text.natText 0
      ++ " exports from " = "Applied 1 aliases and 0 exports from " := by decide
  have hrun : (Builtin.source.run [file] stdin).run now s
      = { outcome := .ok (.say ("Applied 1 aliases and 0 exports from " ++ file))
          session :=
            { s with aliases := s.aliases.put name { name, command, createdAt := now } } } := by
    rw [Builtin.run, Builtin.runSource, Shell.run_bind_of_run hread]
    dsimp only
    rw [Shell.run_bind_of_run hscript, ← hsummary]
    rfl
  rw [hrun]
  exact ⟨rfl, rfl⟩

/-- In a session without aliases, a printed alias defines just itself again: when the line is
executed, if and only if it is not too long to be read and filling in variables leaves its command
as it is, and when a file is sourced that holds the line, if the name is an identifier. A line that
is too long is refused and defines nothing. -/
theorem reads_printed_alias (h : Printable name command) (haliases : s.aliases = [])
    (now : Timestamp) :
    let line := format name command
    let defined : Aliases := [(name, { name, command, createdAt := now })]
    let executed := (execute line).run now s
    (executed.session.aliases = defined ↔
      line.length ≤ Line.maxLength ∧ Text.strip (expandText s command) = command) ∧
    (executed.session.aliases = defined → executed.outcome = .ok (.say "")) ∧
    (Line.maxLength < line.length →
      executed.outcome = .ok (.fail "Command too long (max 1000 characters)") ∧
        executed.session.aliases = []) ∧
    (∀ file info content stdin, Text.isIdentifier name.toList = true →
      s.fileSystem.named? file = .ok (some (.file info content)) → Script.Holds content line →
      let sourced := (Builtin.source.run [file] stdin).run now s
      sourced.outcome = .ok (.say ("Applied 1 aliases and 0 exports from " ++ file)) ∧
        sourced.session.aliases = defined) ∧
    defined.command? name = some command := by
  have halias : s.aliases.contains "alias" = false := by
    rw [haliases]
    rfl
  have hput : s.aliases.put name { name, command, createdAt := now }
      = [(name, { name, command, createdAt := now })] := by
    rw [haliases]
    rfl
  dsimp only
  refine ⟨⟨kept_of_execute_format h haliases, ?_⟩, ?_, ?_, ?_, ?_⟩
  · rintro ⟨hlength, hkept⟩
    rw [← hput]
    exact (execute_format_of_kept h halias hlength hkept now).2
  · intro hdefined
    obtain ⟨hlength, hkept⟩ := kept_of_execute_format h haliases hdefined
    exact (execute_format_of_kept h halias hlength hkept now).1
  · intro hlong
    have hexecuted := execute_format_of_long h hlong now s
    rw [haliases] at hexecuted
    exact hexecuted
  · intro file info content stdin hname hfile hcontent
    have hsourced := source_format h hname hfile hcontent stdin now
    rw [hput] at hsourced
    exact hsourced
  · simp [Aliases.command?, Table.find?]

/-- A new session in a directory with one file. -/
def sessionHolding (file content : String) : Session :=
  let root := DefaultTree.dir .epoch "/" [Node.newFile .epoch file content]
  Session.new { root, cwd := [] }

/-- A command with a pipe, double quotes and a parameter of the alias is read again, executed and
sourced. -/
theorem reads_printed_pipe :
    let command := "grep -n \"$1\" | sort -u"
    let line := "alias find='grep -n \"$1\" | sort -u'"
    let s := sessionHolding "rc" line
    let defined : Aliases := [("find", { name := "find", command, createdAt := .epoch })]
    Printable "find" command ∧ s.aliases = [] ∧ format "find" command = line ∧
      ((execute line).run .epoch s).session.aliases = defined ∧
      ((Builtin.source.run ["rc"] none).run .epoch s).session.aliases = defined := by
  intro command line s defined
  have hline : format "find" command = line := by decide +kernel
  have hprintable : Printable "find" command := by decide +kernel
  have hcontent : (s.fileSystem.named? "rc").toOption.join.bind Node.content? = some line := by
    decide +kernel
  obtain ⟨info, hfile⟩ := Node.exists_eq_file hcontent
  obtain ⟨hexecuted, -, -, hsourced, -⟩ := reads_printed_alias (s := s) hprintable rfl .epoch
  refine ⟨hprintable, rfl, hline, ?_, ?_⟩
  · rw [← hline]
    exact hexecuted.mpr ⟨by decide +kernel, by decide +kernel⟩
  · exact (hsourced "rc" info line none (by decide) hfile (.inl hline.symm)).2

/-- A word of one letter, however often it is repeated, may be the command of an alias. -/
theorem printable_replicate {n : Nat} (hn : n ≠ 0) :
    Printable "long" (String.ofList (List.replicate n 'a')) := by
  have hmem : ∀ c ∈ List.replicate n 'a', c = 'a' := fun c => List.eq_of_mem_replicate
  have hchars : (String.ofList (List.replicate n 'a')).toList = List.replicate n 'a' :=
    String.toList_ofList
  have htrim : Text.trim (List.replicate n 'a') = List.replicate n 'a' := by
    refine Text.trim_eq_self_iff.mpr ⟨fun c hc => ?_, fun c hc => ?_⟩
    · obtain rfl := hmem c (List.mem_of_head? hc)
      decide
    · obtain rfl := hmem c (List.mem_of_getLast? hc)
      decide
  have hblank : Text.isBlankText (String.ofList (List.replicate n 'a')) = false := by
    rw [Text.isBlankText, hchars, List.all_replicate, if_neg hn]
    decide
  have hsafe : isDangerous (String.ofList (List.replicate n 'a')) = false := by
    refine isDangerous_of_notMem fun c hc => ?_
    rw [hchars] at hc
    obtain rfl := hmem c hc
    decide
  refine ⟨validate_eq_none_iff.mpr ⟨by decide, by decide, hblank, hsafe⟩, ?_, by decide, ?_, ?_⟩
  · rw [Text.strip, hchars, htrim]
  · rw [hchars]
    exact fun h => absurd (hmem _ h) (by decide)
  · rw [hchars]
    exact fun h => absurd (hmem _ h) (by decide)

/-- The printed line is longer than such a command by its name and the signs around it. -/
theorem length_format_replicate {n : Nat} (hn : n ≠ 0) :
    (format "long" (String.ofList (List.replicate n 'a'))).length = n + 11 := by
  have hplain : quoteArgument (String.ofList (List.replicate n 'a'))
      = String.ofList (List.replicate n 'a') := by
    refine quoteArgument_of_plain fun c hc => ?_
    rw [String.toList_ofList] at hc
    obtain rfl := List.eq_of_mem_replicate hc
    decide
  rw [← String.length_toList, (printable_replicate hn).toList_format, hplain]
  simp

/-- Not every printed alias is read again when it is executed: quotes do not keep a variable from
being filled in, and a line of more than 1000 characters is refused. -/
theorem misreads_printed_aliases :
    let long := String.ofList (List.replicate 1000 'a')
    let s := sessionHolding "notes" ""
    let executed name command := (execute (format name command)).run .epoch s
    (∀ a ∈ [("home", "echo $HOME"), ("long", long)],
      validate a.1 a.2 = none ∧ Text.strip a.2 = a.2 ∧ '\n' ∉ a.2.toList) ∧
    s.aliases = [] ∧
    (executed "home" "echo $HOME").session.aliases.command? "home" = some "echo /home/user" ∧
    (executed "long" long).outcome = .ok (.fail "Command too long (max 1000 characters)") ∧
    (executed "long" long).session.aliases = [] := by
  intro long s executed
  have hhome : Printable "home" "echo $HOME" := by decide +kernel
  have hlong : Printable "long" long := printable_replicate (by decide)
  have hlength : Line.maxLength < (format "long" long).length := by
    rw [length_format_replicate (by decide)]
    decide
  have hfilled : (executed "home" "echo $HOME").session.aliases.command? "home"
      = some "echo /home/user" := by decide +kernel
  obtain ⟨hrefused, hnothing⟩ := execute_format_of_long hlong hlength .epoch s
  refine ⟨?_, rfl, hfilled, hrefused, hnothing⟩
  simp only [List.forall_mem_cons]
  exact ⟨⟨hhome.valid, hhome.trimmed, hhome.oneLine⟩, ⟨hlong.valid, hlong.trimmed, hlong.oneLine⟩,
    nofun⟩

end Execution

end VirtualShell
