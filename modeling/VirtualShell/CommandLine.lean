import VirtualShell.Text.Character
import VirtualShell.Text.Quoted
import VirtualShell.Text.Split

/-!
# The command line

The program takes options only. A long option may be cut short as long as no other one starts alike;
its value follows behind an equals sign or as the next argument. The value of a short option may
also be glued to it, and short options without a value may be written in one argument.

All arguments are looked at before any of them takes effect, so an ambiguous option is reported even
behind a request for help. After that they take effect from left to right, and arguments that belong
to no option are reported in the end.
-/

namespace VirtualShell.CommandLine

/-! ## Options -/

/-- The options of the program. -/
inductive Flag where
  | help
  | command
  | user
  | directory
  | noColor
  | noCompletion
  | noStartFile
  | load
  | save
  | verbose
  deriving DecidableEq, Repr

namespace Flag

/-- All options in the order in which help lists them. -/
def all : List Flag :=
  [help, command, user, directory, noColor, noCompletion, noStartFile, load, save, verbose]

/-- The letter of an option that has a short form. -/
def letter? : Flag → Option Char
  | help => some 'h'
  | command => some 'c'
  | user => some 'u'
  | directory => some 'd'
  | _ => none

/-- The long form of an option. -/
def long : Flag → String
  | help => "--help"
  | command => "--command"
  | user => "--user"
  | directory => "--directory"
  | noColor => "--no-color"
  | noCompletion => "--no-completion"
  | noStartFile => "--no-rc"
  | load => "--load"
  | save => "--save"
  | verbose => "--verbose"

/-- Whether an option has a value. -/
def takesValue : Flag → Bool
  | command | user | directory | load | save => true
  | _ => false

/-- The forms of an option as messages name it. -/
def shown (f : Flag) : String :=
  match f.letter? with
  | some c => "-" ++ c.toString ++ "/" ++ f.long
  | none => f.long

/-- The option with a letter. -/
def ofLetter? (c : Char) : Option Flag :=
  all.find? (·.letter? == some c)

/-- The option with exactly this form. -/
def ofForm? (form : List Char) : Option Flag :=
  match form with
  | ['-', c] => ofLetter? c
  | _ => all.find? (·.long.toList == form)

end Flag

/-! ## Stopping early -/

/-- Why the program does not run. -/
inductive Stop where
  /-- Help was asked for. -/
  | help
  /-- A long option was cut too short. -/
  | ambiguous (argument : String) (flags : List Flag)
  /-- An option lacks its value. -/
  | missingValue (flag : Flag)
  /-- An option has a value that it does not take. -/
  | unusedValue (flag : Flag) (value : String)
  /-- Arguments belong to no option. -/
  | unrecognized (arguments : List String)
  deriving DecidableEq, Repr

/-- What the program says about arguments that it does not accept. -/
def Stop.message? : Stop → Option String
  | .help => none
  | .ambiguous argument flags =>
    some ("ambiguous option: " ++ argument ++ " could match "
      ++ Text.joinWith ", " (flags.map Flag.long))
  | .missingValue flag => some ("argument " ++ flag.shown ++ ": expected one argument")
  | .unusedValue flag value =>
    some ("argument " ++ flag.shown ++ ": ignored explicit argument " ++ Text.quoted value)
  | .unrecognized arguments =>
    some ("unrecognized arguments: " ++ Text.joinWith " " arguments)

/-! ## Kinds of arguments -/

/-- What an argument looks like. -/
inductive Word where
  /-- It is no option, so it may be the value of one. -/
  | plain
  /-- It ends the options. -/
  | divider
  /-- It looks like an option, but there is none like it. -/
  | unknown
  /-- It is an option by itself. -/
  | option (flag : Flag)
  /-- It is an option with a value behind an equals sign. -/
  | assigned (flag : Flag) (value : List Char)
  /-- It is a short option with a text glued to it. -/
  | glued (flag : Flag) (text : List Char)
  deriving DecidableEq, Repr

/-- A negative number, which is no option: digits, perhaps with a point and more digits behind it.
One line feed may stand at the end. -/
def isNegativeNumber (cs : List Char) : Bool :=
  match cs with
  | '-' :: rest =>
    let rest := Text.dropFinalNewline rest
    let whole := rest.takeWhile Text.isDecimal
    match rest.drop whole.length with
    | [] => !whole.isEmpty
    | '.' :: fraction => !fraction.isEmpty && fraction.all Text.isDecimal
    | _ => false
  | _ => false

/-- The options whose long form starts with a text. -/
def startingWith (start : List Char) : List Flag :=
  Flag.all.filter fun f => start.isPrefixOf f.long.toList

/-- What stands before and behind the first equals sign. -/
def splitAssignment (cs : List Char) : List Char × Option (List Char) :=
  let name := cs.takeWhile (· != '=')
  match cs.drop name.length with
  | [] => (name, none)
  | _ :: value => (name, some value)

/-- An option with its value, if it has one. -/
def Word.ofFlag (flag : Flag) : Option (List Char) → Word
  | none => .option flag
  | some value => .assigned flag value

/-- What an argument that is no known form looks like: numbers and texts with a blank in them are no
options. -/
def Word.ofOther (cs : List Char) : Word :=
  if isNegativeNumber cs || cs.contains ' ' then .plain else .unknown

/-- What an argument before the divider looks like. -/
def classify (argument : String) : Except Stop Word :=
  let cs := argument.toList
  let (name, value) := splitAssignment cs
  match Flag.ofForm? cs, Flag.ofForm? name with
  | some flag, _ => .ok (.option flag)
  | none, some flag => .ok (.ofFlag flag value)
  | none, none =>
    match cs with
    | '-' :: '-' :: _ =>
      match startingWith name with
      | [] => .ok (.ofOther cs)
      | [flag] => .ok (.ofFlag flag value)
      | flags => .error (.ambiguous argument flags)
    | '-' :: c :: text =>
      match Flag.ofLetter? c with
      | some flag => .ok (.glued flag text)
      | none => .ok (.ofOther cs)
    | _ => .ok .plain

/-- The arguments with what they look like. Behind the divider none is an option. -/
def classifyAll : List String → Except Stop (List (String × Word))
  | [] => .ok []
  | "--" :: rest => .ok (("--", .divider) :: rest.map fun a => (a, .plain))
  | argument :: rest => do
    let word ← classify argument
    return (argument, word) :: (← classifyAll rest)

/-! ## Settings -/

/-- What the command line asks for. -/
structure Request where
  command : Option String := none
  user : String := "user"
  directory : Option String := none
  noColor : Bool := false
  noCompletion : Bool := false
  noStartFile : Bool := false
  load : Option String := none
  save : Option String := none
  verbose : Bool := false
  deriving DecidableEq, Repr

/-- The request with an option taken into account. -/
def Request.apply (r : Request) (flag : Flag) (value : String) : Except Stop Request :=
  match flag with
  | .help => .error .help
  | .command => .ok { r with command := some value }
  | .user => .ok { r with user := value }
  | .directory => .ok { r with directory := some value }
  | .noColor => .ok { r with noColor := true }
  | .noCompletion => .ok { r with noCompletion := true }
  | .noStartFile => .ok { r with noStartFile := true }
  | .load => .ok { r with load := some value }
  | .save => .ok { r with save := some value }
  | .verbose => .ok { r with verbose := true }

/-- An option with its value, which is empty for an option that has none. -/
abbrev Setting := Flag × String

/-- What one argument comes to: its options, an argument that belongs to none, and the arguments
behind it. -/
structure Reading where
  settings : List Setting
  stray : Option String := none
  rest : List (String × Word)

/-- Reads an option whose value, if it has one, is the next argument. -/
def readOption (flag : Flag) (rest : List (String × Word)) : Except Stop Reading :=
  if flag.takesValue then
    match rest with
    | (value, .plain) :: rest => .ok { settings := [(flag, value)], rest }
    | _ => .error (.missingValue flag)
  else .ok { settings := [(flag, "")], rest }

/-- Reads an option with a value behind an equals sign. -/
def readAssigned (flag : Flag) (value : List Char) (rest : List (String × Word)) :
    Except Stop Reading :=
  if flag.takesValue then .ok { settings := [(flag, String.ofList value)], rest }
  else .error (.unusedValue flag (String.ofList value))

/-- Reads a short option with a text glued to it: the value, or else further short options. -/
def readGlued (flag : Flag) (text : List Char) (rest : List (String × Word)) :
    Except Stop Reading :=
  match text with
  | [] => readOption flag rest
  | c :: more =>
    if flag.takesValue then .ok { settings := [(flag, String.ofList text)], rest }
    else if c = '-' then .error (.unusedValue flag (String.ofList text))
    else
      match Flag.ofLetter? c, more with
      | none, _ =>
        .ok { settings := [(flag, "")], stray := some (String.ofList ('-' :: text)), rest }
      | some next, '=' :: value => do
        let r ← readAssigned next value rest
        return { r with settings := (flag, "") :: r.settings }
      | some next, more => do
        let r ← readGlued next more rest
        return { r with settings := (flag, "") :: r.settings }

/-- Reads one argument. -/
def readWord (argument : String) (word : Word) (rest : List (String × Word)) :
    Except Stop Reading :=
  match word with
  | .option flag => readOption flag rest
  | .assigned flag value => readAssigned flag value rest
  | .glued flag text => readGlued flag text rest
  | _ => .ok { settings := [], stray := some argument, rest }

/-- Lets the arguments take effect, in at most so many steps; their number is enough. -/
def readAll : Nat → Request → List String → List (String × Word) → Except Stop Request
  | _, r, strays, [] => if strays.isEmpty then .ok r else .error (.unrecognized strays)
  | 0, r, _, _ => .ok r
  | fuel + 1, r, strays, (argument, word) :: rest => do
    let reading ← readWord argument word rest
    let r ← reading.settings.foldlM (fun r (flag, value) => r.apply flag value) r
    readAll fuel r (strays ++ reading.stray.toList) reading.rest

/-- What the arguments ask for. -/
def read (arguments : List String) : Except Stop Request := do
  let words ← classifyAll arguments
  readAll words.length {} [] words

/-! ## Texts -/

/-- How the program is used. -/
def usage : String :=
  "usage: memshell [-h] [-c COMMAND] [-u USER] [-d DIRECTORY] [--no-color]\n" ++
  "                [--no-completion] [--no-rc] [--load FILE] [--save FILE]\n" ++
  "                [--verbose]\n"

/-- The help. -/
def help : String :=
  usage ++ "\nmemshell - an in-memory shell\n\noptions:\n" ++
  "  -h, --help            show this help message and exit\n" ++
  "  -c COMMAND, --command COMMAND\n" ++
  "                        Execute command and exit\n" ++
  "  -u USER, --user USER  Set username\n" ++
  "  -d DIRECTORY, --directory DIRECTORY\n" ++
  "                        Set initial directory\n" ++
  "  --no-color            Disable colored output\n" ++
  "  --no-completion       Disable tab completion\n" ++
  "  --no-rc               Do not source ~/.bashrc\n" ++
  "  --load FILE           Restore state from a JSON file\n" ++
  "  --save FILE           Save state to a JSON file on exit\n" ++
  "  --verbose             Enable debug logging\n"

end VirtualShell.CommandLine
