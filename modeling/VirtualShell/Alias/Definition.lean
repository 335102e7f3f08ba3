import VirtualShell.Text.Blank
import VirtualShell.Text.Character
import VirtualShell.Text.Number
import VirtualShell.Text.Split
import VirtualShell.Time.Timestamp

/-!
# Alias definitions

An alias is a name for a command line. The command line is a template: it may refer to the arguments
of the alias by position or to all of them at once.
-/

namespace VirtualShell

/-- A name for a command line. -/
structure Alias where
  name : String
  command : String
  createdAt : Timestamp
  deriving DecidableEq, Repr

namespace Alias

/-! ## Names -/

/-- The longest name of an alias. -/
def maxNameLength : Nat := 100

/-- An identifier, or a row of dots. -/
def isWord (cs : List Char) : Bool :=
  Text.isIdentifier cs || (!cs.isEmpty && cs.all (· == '.'))

/-- Whether a text may name an alias. One line feed may stand behind the name. -/
def isValidName (name : String) : Bool :=
  name.length ≤ maxNameLength &&
    (isWord name.toList || isWord (Text.dropFinalNewline name.toList))

/-! ## Quoting -/

/-- The characters that have a meaning in a command line and must be quoted. -/
def needsQuotes (c : Char) : Bool :=
  Text.isBlank c || "'\"\\|&;<>()\x7b\x7d[]$`".toList.contains c

/-- The definition as a command that makes it again. -/
def format (name command : String) : String :=
  if command.toList.any needsQuotes then
    "alias " ++ name ++ "='" ++ Text.replaceChar '\'' "'\\''" command ++ "'"
  else "alias " ++ name ++ "=" ++ command

/-- The argument in quotes where it needs them, so that the tokens of the result are the argument
alone. A single quote inside is put into double quotes. -/
def quoteArgument (argument : String) : String :=
  if argument.toList.any needsQuotes then
    "'" ++ Text.replaceChar '\'' "'\"'\"'" argument ++ "'"
  else argument

/-! ## Arguments -/

/-- A text, and whether an argument has been put into it. -/
structure Filled where
  text : List Char
  used : Bool
  deriving DecidableEq, Repr

/-- What stands behind one dollar sign, with its leading number replaced by the argument of that
position. A number without an argument stays as it is. -/
def fillPosition (args : List String) (piece : List Char) : Except Text.NumberError Filled :=
  let digits := piece.takeWhile Text.isDecimal
  if digits.isEmpty then .ok { text := '$' :: piece, used := false }
  else
    match Text.readNat digits with
    | .error e => .error e
    | .ok n =>
      match (if n = 0 then none else args[n - 1]?) with
      | some arg => .ok { text := arg.toList ++ piece.drop digits.length, used := true }
      | none => .ok { text := '$' :: piece, used := false }

/-- Replaces every reference to an argument by position. -/
def fillPositions (args : List String) (template : List Char) : Except Text.NumberError Filled := do
  match template.splitOn '$' with
  | [] => return { text := [], used := false }
  | first :: pieces =>
    let filled ← pieces.mapM (fillPosition args)
    return { text := first ++ filled.flatMap Filled.text, used := filled.any Filled.used }

/-- Replaces one of the signs for all arguments, wherever it stands by now. -/
def fillAll (sign : Char) (joined : List Char) (f : Filled) : Filled :=
  if Text.hasPair '$' sign f.text then
    { text := Text.replacePair '$' sign joined f.text, used := true }
  else f

/-- Fills the arguments into a template: `$1` and so on by position, then `$*` and `$@` by all of
them. Arguments that the template does not use are put behind it. -/
def substitute (template : String) (args : List String) : Except Text.NumberError String := do
  let joined := Text.joinWith " " args
  let filled ← fillPositions args template.toList
  let filled := fillAll '@' joined.toList (fillAll '*' joined.toList filled)
  let text := String.ofList filled.text
  return if !args.isEmpty && !filled.used then text ++ " " ++ joined else text

end Alias

end VirtualShell
