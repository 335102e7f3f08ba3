import VirtualShell.Text.Split

/-!
# Options

Arguments of a command split into flags and operands. `-la` gives the flags `l` and `a`, `--all` the
flag `all`; everything after `--` is an operand, and so is a dash alone.
-/

namespace VirtualShell

/-- The flags and the operands among the arguments of a command. -/
structure Options where
  flags : List String := []
  operands : List String := []
  deriving DecidableEq, Repr

namespace Options

/-- Whether any of the flags was given. -/
def has (o : Options) (names : List String) : Bool :=
  names.any o.flags.contains

/-- Adds flags in front; one that is given again counts once. -/
def addFlags (new : List String) (o : Options) : Options :=
  { o with flags := new.foldr List.insert o.flags }

/-- Adds an operand in front. -/
def addOperand (new : String) (o : Options) : Options :=
  { o with operands := new :: o.operands }

/-- Splits arguments into flags and operands. -/
def parse : List String → Options
  | [] => {}
  | arg :: rest =>
    match arg.toList with
    | ['-', '-'] => { operands := rest }
    | '-' :: '-' :: name => (parse rest).addFlags [String.ofList name]
    | '-' :: c :: cs => (parse rest).addFlags ((c :: cs).map String.singleton)
    | _ => (parse rest).addOperand arg

end Options

end VirtualShell
