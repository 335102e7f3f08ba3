import VirtualShell.Builtin.Input
import VirtualShell.Options
import VirtualShell.Pattern.Match

/-!
# Text commands

The commands that print, count, search, sort and cut text: `echo`, `cat`, `wc`, `grep`, `sort`,
`uniq`, `head` and `tail`. Their lines are those of `Text.lines`, and a filter joins the lines that
it keeps without a line feed at the end.
-/

namespace VirtualShell.Builtin

/-- Lines as output, with line feeds between them. -/
def joinLines (ls : List String) : String :=
  Text.joinWith "\n" ls

/-- Prints the arguments, with a line feed behind them unless `-n` comes first. -/
def runEcho (args : List String) : Result :=
  match args with
  | "-n" :: rest => .say (Text.joinWith " " rest)
  | _ => .say (Text.joinWith " " args ++ "\n")

/-- Prints files, or the input. -/
def runCat (args : List String) (stdin : Option String) : Shell Result :=
  filterText "cat" args stdin .text

/-! ## Counting -/

/-- What `wc` counts. -/
structure Counts where
  lines : Nat := 0
  words : Nat := 0
  chars : Nat := 0
  deriving DecidableEq, Repr

/-- The counts of a text. -/
def Counts.of (text : String) : Counts where
  lines := (Text.lines text).length
  words := (Text.splitWords text).length
  chars := text.length

/-- The counts of two texts together. -/
def Counts.add (a b : Counts) : Counts where
  lines := a.lines + b.lines
  words := a.words + b.words
  chars := a.chars + b.chars

/-- The counts that flags select, in a fixed order; without flags all of them. -/
def Counts.selected (flags : List String) (c : Counts) : List Nat :=
  let all := [("l", c.lines), ("w", c.words), ("c", c.chars)]
  let chosen := all.filter fun (flag, _) => flags.contains flag
  (if chosen.isEmpty then all else chosen).map Prod.snd

/-- A row of counts with its label. -/
def Counts.row (flags : List String) (c : Counts) (label : String) : String :=
  let numbers := (c.selected flags).map fun n => Text.padStart 8 (Text.natText n)
  Text.joinWith " " (numbers ++ if label = "" then [] else [label])

/-- Counts the lines, words and characters of files or of the input. -/
def runWc (args : List String) (stdin : Option String) : Shell Result :=
  Shell.query fun s => do
    let options := Options.parse args
    let row := Counts.row options.flags
    if options.operands.isEmpty then
      match stdin with
      | none => return .fail "wc: missing operand"
      | some text => return .say (row (.of text) "")
    else
      match ← readFiles s "wc" options.operands with
      | .error message => return .fail message
      | .ok contents =>
        let counted := contents.map fun (name, text) => (name, Counts.of text)
        let rows := counted.map fun (name, c) => row c name
        let total := counted.foldl (fun sum (_, c) => sum.add c) {}
        let last := if 1 < contents.length then [row total "total"] else []
        return .say (joinLines (rows ++ last))

/-! ## Searching -/

/-- How `grep` shows what it finds. -/
structure GrepStyle where
  invert : Bool
  numbers : Bool
  /-- Put the name of its file before each line. -/
  names : Bool
  deriving DecidableEq, Repr

/-- The lines of one text that are found, as they are shown. -/
def grepText (p : Pattern) (style : GrepStyle) (name text : String) : List String :=
  (Text.lines text).zipIdx.filterMap fun (line, i) =>
    if p.search line.toList == style.invert then none
    else
      some ((if style.names && name != "" then name ++ ":" else "")
        ++ (if style.numbers then Text.natText (i + 1) ++ ":" else "") ++ line)

/-- Prints the lines of files or of the input that match a pattern. -/
def runGrep (args : List String) (stdin : Option String) : Shell Result :=
  Shell.query fun s => do
    let options := Options.parse args
    match options.operands with
    | [] => return .fail "grep: missing pattern" 2
    | written :: files =>
      match Pattern.read written (options.has ["i"]) with
      | .error (.malformed what position) =>
        let e := Pattern.ReadError.malformed what position
        return .fail ("grep: invalid regular expression: " ++ e.message written) 2
      | .error e => throw (.pattern e)
      | .ok pattern =>
        let sources : Checked (List (String × String)) ←
          if files.isEmpty then
            match stdin with
            | some text => pure (.ok [("", text)])
            | none => pure (.error "grep: no input files")
          else readFiles s "grep" files
        match sources with
        | .error message => return .fail message 2
        | .ok sources =>
          let style : GrepStyle :=
            { invert := options.has ["v"], numbers := options.has ["n"],
              names := 1 < sources.length }
          let found := sources.flatMap fun (name, text) => grepText pattern style name text
          let output :=
            if options.has ["c"] then Text.natText found.length else joinLines found
          return { output := .text output, exitCode := if found.isEmpty then 1 else 0 }

/-! ## Sorting -/

/-- The number that a line starts with, after blanks; a line without one counts as zero. -/
def leadingNumber (line : String) : Binary64 :=
  let cs := Text.trimStart line.toList
  let (negative, cs) := match cs with
    | '-' :: rest => (true, rest)
    | _ => (false, cs)
  let whole := cs.takeWhile Text.isDecimal
  let fraction := match cs.drop whole.length with
    | '.' :: rest => rest.takeWhile Text.isDecimal
    | _ => []
  if whole.isEmpty then .ofDecimal false 0 0
  else .ofDecimal negative (Text.natOfDigits (whole ++ fraction)) (-(fraction.length : Int))

/-- The order by leading numbers, and by code points where those are equal. -/
def numberedBefore (a b : Binary64 × String) : Bool :=
  match a.1.cmp b.1 with
  | .lt => true
  | .gt => false
  | .eq => decide (a.2 ≤ b.2)

/-- The lines by increasing leading number. -/
def sortByNumber (ls : List String) : List String :=
  ((ls.map fun l => (leadingNumber l, l)).mergeSort numberedBefore).map Prod.snd

/-- The sorted lines of a text. -/
def sortLines (options : Options) (text : String) : List String :=
  let ls := Text.lines text
  let ls := if options.has ["u"] then ls.eraseDups else ls
  let sorted := if options.has ["n"] then sortByNumber ls else Text.sortTexts ls
  if options.has ["r"] then sorted.reverse else sorted

/-- Sorts the lines of files or of the input. -/
def runSort (args : List String) (stdin : Option String) : Shell Result :=
  let options := Options.parse args
  filterText "sort" options.operands stdin fun text => .text (joinLines (sortLines options text))

/-! ## Repeated lines -/

/-- Adds a line in front of groups of equal lines with their sizes. -/
def addToGroups (line : String) : List (String × Nat) → List (String × Nat)
  | (l, n) :: rest => if l = line then (l, n + 1) :: rest else (line, 1) :: (l, n) :: rest
  | [] => [(line, 1)]

/-- Equal lines that stand next to each other, with their numbers. -/
def groupLines (ls : List String) : List (String × Nat) :=
  ls.foldr addToGroups []

/-- Prints every group of equal lines once, with its size where that is asked for. -/
def runUniq (args : List String) (stdin : Option String) : Shell Result :=
  let options := Options.parse args
  let shown := fun (line, n) =>
    if options.has ["c"] then Text.padStart 7 (Text.natText n) ++ " " ++ line else line
  filterText "uniq" options.operands stdin fun text =>
    .text (joinLines ((groupLines (Text.lines text)).map shown))

/-! ## First and last lines -/

/-- How many lines to keep, and of which files. -/
structure Cut where
  count : Nat := 10
  files : List String := []
  deriving DecidableEq, Repr

/-- The number of lines that an argument asks for. -/
def readCount (command value : String) : Except Fault (Checked Nat) :=
  let cs := value.toList
  if cs.isEmpty || !cs.all Text.isDigitForm then
    .ok (.error (command ++ ": invalid number of lines: '" ++ value ++ "'"))
  else (Text.readNat cs).mapError Fault.number |>.map .ok

/-- Whether an argument is a dash with decimal digits, behind which one line feed may stand. -/
def isDashCount (arg : String) : Bool :=
  match arg.toList with
  | '-' :: rest =>
    let digits := Text.dropFinalNewline rest
    !digits.isEmpty && digits.all Text.isDecimal
  | _ => false

/-- The number of lines that the first of some arguments gives, with the arguments after it; `none`
where it gives none. -/
def countArgument? (arg : String) (rest : List String) : Option (String × List String) :=
  match arg, rest with
  | "-n", value :: rest' => some (value, rest')
  | _, _ =>
    if Text.hasStart "-n" arg && 2 < arg.length then some (Text.dropChars 2 arg, rest)
    else if isDashCount arg then some (Text.dropChars 1 arg, rest)
    else none

/-- Reads the arguments of `head` and `tail`, in at most so many steps. -/
def readCut (command : String) : Nat → Cut → List String → Except Fault (Checked Cut)
  | 0, cut, _ => .ok (.ok cut)
  | _ + 1, cut, [] => .ok (.ok cut)
  | fuel + 1, cut, arg :: rest =>
    match countArgument? arg rest with
    | none => readCut command fuel { cut with files := cut.files ++ [arg] } rest
    | some (value, rest') =>
      match readCount command value with
      | .error e => .error e
      | .ok (.error message) => .ok (.error message)
      | .ok (.ok count) => readCut command fuel { cut with count } rest'

/-- A command that keeps some lines of files or of the input, by their number. -/
def runCut (command : String) (keep : Nat → List String → List String) (args : List String)
    (stdin : Option String) : Shell Result :=
  Shell.query fun s => do
    match ← readCut command args.length {} args with
    | .error message => return .fail message
    | .ok cut =>
      match ← gatherInput s command cut.files stdin with
      | .error message => return .fail message
      | .ok text => return .say (joinLines (keep cut.count (Text.lines text)))

/-- Prints the first lines of files or of the input. -/
def runHead (args : List String) (stdin : Option String) : Shell Result :=
  runCut "head" (fun n ls => ls.take n) args stdin

/-- Prints the last lines of files or of the input. -/
def runTail (args : List String) (stdin : Option String) : Shell Result :=
  runCut "tail" (fun n ls => ls.drop (ls.length - n)) args stdin

end VirtualShell.Builtin
