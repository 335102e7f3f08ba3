import VirtualShell.Line.Command

/-!
# Chains of commands

Commands joined by `&&`, `||` and `;`, or by `|` alone. The operators are the unquoted ones, and a
doubled sign is one operator rather than two.
-/

namespace VirtualShell

/-- What joins two commands. -/
inductive Operator where
  | and
  | or
  | sequence
  | pipe
  deriving DecidableEq, Repr

namespace Operator

/-- The sign of an operator. -/
def sign : Operator → String
  | .and => "&&"
  | .or => "||"
  | .sequence => ";"
  | .pipe => "|"

/-- The number of characters of the sign. -/
def length : Operator → Nat
  | .and => 2
  | .or => 2
  | .sequence => 1
  | .pipe => 1

/-- The operator with a sign. -/
def ofSign? (s : String) : Option Operator :=
  [Operator.and, .or, .sequence, .pipe].find? (·.sign == s)

end Operator

/-- A command, and the further ones with the operator before each. -/
structure Chain where
  first : Command
  rest : List (Operator × Command) := []
  deriving DecidableEq, Repr

namespace Chain

/-- The operators, in order. -/
def operators (c : Chain) : List Operator :=
  c.rest.map Prod.fst

/-- The commands, in order. -/
def commands (c : Chain) : List Command :=
  c.first :: c.rest.map Prod.snd

/-- Whether the commands feed each other: there are operators, and all of them are pipes. -/
def isPipeline (c : Chain) : Bool :=
  !c.rest.isEmpty && c.operators.all (· == .pipe)

/-- The chain in one line. -/
def text (c : Chain) : String :=
  Text.joinWith " " (c.first.text :: c.rest.flatMap fun (op, command) => [op.sign, command.text])

/-- The chain of commands with operators between them; their numbers must fit. -/
def ofLists (commands : List Command) (operators : List Operator) :
    Except Line.ParseError Chain :=
  match commands with
  | [] => .error .brokenChain
  | first :: rest =>
    if operators.length = rest.length then .ok { first, rest := operators.zip rest }
    else .error .brokenChain

end Chain

/-- What a line holds. -/
inductive Program where
  | command (c : Command)
  | chain (c : Chain)
  deriving DecidableEq, Repr

namespace Line

/-- The unquoted chain operators in the rest of a line with their positions, where `quote` is the
quote that is open and the rest starts at the position `i`. A doubled sign goes before a single one,
and the pass goes on behind both of its characters. -/
def operatorsIn : Option Char → Nat → List Char → List (Nat × Operator)
  | _, _, [] => []
  | some q, i, c :: rest => operatorsIn (if c = q then none else some q) (i + 1) rest
  | none, i, '&' :: '&' :: rest => (i, .and) :: operatorsIn none (i + 2) rest
  | none, i, '|' :: '|' :: rest => (i, .or) :: operatorsIn none (i + 2) rest
  | none, i, ';' :: rest => (i, .sequence) :: operatorsIn none (i + 1) rest
  | none, i, '|' :: rest => (i, .pipe) :: operatorsIn none (i + 1) rest
  | none, i, c :: rest => operatorsIn (if isQuote c then some c else none) (i + 1) rest

/-- The unquoted chain operators of a text with their positions. -/
def findOperators (cs : List Char) : List (Nat × Operator) :=
  operatorsIn none 0 cs

/-- What stands before, between and after the operators, from the position `start` on. -/
def pieces (cs : List Char) (start : Nat) : List (Nat × Operator) → List (List Char)
  | [] => [cs.drop start]
  | (i, op) :: rest => (cs.drop start).take (i - start) :: pieces cs (i + op.length) rest

/-- Reads the pieces that are not blank, in order. -/
def readPieces (texts : List (List Char)) : Except ParseError (List Command) :=
  ((texts.map Text.trim).filter fun text => !text.isEmpty).mapM readCommand

/-- Whether pipes stand next to other operators. -/
def mixesPipes (operators : List Operator) : Bool :=
  operators.contains .pipe && operators.any (· != .pipe)

/-- Reads a line, which may be a chain. -/
def readProgram (cs : List Char) : Except ParseError Program := do
  let text ← trimLine cs
  match findOperators text with
  | [] => return .command (← readCommand text)
  | found =>
    let commands ← readPieces (pieces text 0 found)
    let operators := found.map Prod.snd
    let chain ← Chain.ofLists commands operators
    if mixesPipes operators then throw .mixedPipes
    return .chain chain

end Line

/-- Reads a line from a string. -/
def Program.parse (line : String) : Except Line.ParseError Program :=
  Line.readProgram line.toList

end VirtualShell
