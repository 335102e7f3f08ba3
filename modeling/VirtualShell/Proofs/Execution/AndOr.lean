import VirtualShell.Execution
import VirtualShell.Proofs.Result
import VirtualShell.Proofs.Session.Laws

/-!
# Chains as lists of and-or lists

A chain is meant as a list of two levels. Its parts between the semicolons are and-or lists, which
run one after another. In an and-or list `&&` and `||` weigh the same and group to the left: the
command on the right of an operator runs if the exit code of all that stands on its left lets it,
and where it does not run, that exit code stays.

Running a chain link by link comes to the same as evaluating this list (`runs_as_command_list`). A
loop over outcomes (`runLinks`) stands between the two: it goes from link to link as the chain does,
and it may be broken at a semicolon because outcomes in a row can be grouped in any way
(`runLinks_followedBy`).
-/

namespace VirtualShell

/-- Commands joined by `&&` and `||`, grouped to the left. -/
inductive AndOr where
  | command (c : Command)
  | and (left : AndOr) (right : Command)
  | or (left : AndOr) (right : Command)
  deriving DecidableEq, Repr

/-- And-or lists joined by `;`. -/
inductive CommandList where
  | single (list : AndOr)
  | sequence (list : AndOr) (rest : CommandList)
  deriving DecidableEq, Repr

open Execution

/-! ## What a list means -/

namespace AndOr

/-- The commands and operators of an and-or list from left to right. -/
def chain : AndOr → Chain
  | .command c => { first := c }
  | .and left right => { left.chain with rest := left.chain.rest ++ [(.and, right)] }
  | .or left right => { left.chain with rest := left.chain.rest ++ [(.or, right)] }

/-- Evaluates an and-or list. The leftmost command always runs, and it alone gets the input. -/
def eval (run : Runner) (stdin : Option String) : AndOr → Shell Outcome
  | .command c => do
    let r ← run c stdin
    return .ofCommand r
  | .and left right => do
    let o ← left.eval run stdin
    if o.exitCode = 0 then
      let r ← run right none
      return o.followedBy (.ofCommand r)
    else return o
  | .or left right => do
    let o ← left.eval run stdin
    if o.exitCode ≠ 0 then
      let r ← run right none
      return o.followedBy (.ofCommand r)
    else return o

end AndOr

namespace CommandList

/-- The commands and operators of a list from left to right. -/
def chain : CommandList → Chain
  | .single list => list.chain
  | .sequence list rest =>
    { list.chain with
      rest := list.chain.rest ++ (Operator.sequence, rest.chain.first) :: rest.chain.rest }

/-- Evaluates and-or lists one after another; the first one gets the input. -/
def eval (run : Runner) (stdin : Option String) : CommandList → Shell Outcome
  | .single list => list.eval run stdin
  | .sequence list rest => do
    let o ← list.eval run stdin
    let p ← rest.eval run none
    return o.followedBy p

/-- The list that starts with what has been read of an and-or list and goes on with further links,
which a semicolon divides. -/
def split (read : AndOr) : List (Operator × Command) → CommandList
  | [] => .single read
  | (.and, c) :: links => split (.and read c) links
  | (.or, c) :: links => split (.or read c) links
  | (_, c) :: links => .sequence read (split (.command c) links)

/-- A chain as a list of and-or lists. -/
def ofChain (chain : Chain) : CommandList :=
  split (.command chain.first) chain.rest

/-- Splitting off links without pipes loses none of them. -/
theorem chain_split (read : AndOr) (links : List (Operator × Command))
    (hpipe : Operator.pipe ∉ links.map Prod.fst) :
    (split read links).chain = { read.chain with rest := read.chain.rest ++ links } := by
  induction links generalizing read with
  | nil => simp [split, chain]
  | cons link links ih =>
    obtain ⟨op, c⟩ := link
    rw [List.map_cons, List.mem_cons, not_or] at hpipe
    cases op with
    | and | or => simp [split, ih _ hpipe.2, AndOr.chain]
    | sequence => simp [split, chain, ih _ hpipe.2, AndOr.chain]
    | pipe => exact absurd rfl hpipe.1

/-- Nothing of a chain is lost or moved when it is read as a list. -/
theorem chain_ofChain (chain : Chain) (hpipe : Operator.pipe ∉ chain.operators) :
    (ofChain chain).chain = chain :=
  chain_split _ _ hpipe

end CommandList

namespace Execution

/-! ## From link to link -/

/-- Goes from link to link after commands with an outcome, and runs those commands that the exit
code lets run. -/
def runLinks (run : Runner) (o : Outcome) : List (Operator × Command) → Shell Outcome
  | [] => return o
  | (op, c) :: links =>
    if proceeds op o.exitCode then do
      let r ← run c none
      runLinks run (o.followedBy (.ofCommand r)) links
    else runLinks run o links

/-- What came earlier can be put before the outcome at the end, as only the latest exit code decides
how the loop goes on. -/
theorem runLinks_followedBy (run : Runner) (o p : Outcome) (links : List (Operator × Command)) :
    runLinks run (o.followedBy p) links = o.followedBy <$> runLinks run p links := by
  induction links generalizing p with
  | nil => simp only [runLinks, map_pure]
  | cons link links ih =>
    obtain ⟨op, c⟩ := link
    rw [runLinks, runLinks, Outcome.exitCode_followedBy]
    split
    · simp only [Outcome.followedBy_assoc, ih, map_bind]
    · exact ih p

/-- A list is evaluated by evaluating the and-or list at its head and going on from link to link. -/
theorem eval_split (run : Runner) (stdin : Option String) (read : AndOr)
    (links : List (Operator × Command)) :
    (CommandList.split read links).eval run stdin
      = read.eval run stdin >>= fun o => runLinks run o links := by
  induction links generalizing read stdin with
  | nil => simp only [CommandList.split, CommandList.eval, runLinks, bind_pure]
  | cons link links ih =>
    obtain ⟨op, c⟩ := link
    cases op with
    | and =>
      rw [CommandList.split, ih, AndOr.eval, bind_assoc]
      refine congrArg _ (funext fun o => ?_)
      by_cases hcode : o.exitCode = 0 <;> simp [runLinks, proceeds, hcode]
    | or =>
      rw [CommandList.split, ih, AndOr.eval, bind_assoc]
      refine congrArg _ (funext fun o => ?_)
      by_cases hcode : o.exitCode = 0 <;> simp [runLinks, proceeds, hcode]
    -- Behind a semicolon a new and-or list starts, whose outcome follows on the present one.
    | sequence | pipe =>
      change CommandList.eval run stdin (.sequence read (.split (.command c) links)) = _
      rw [CommandList.eval]
      refine congrArg _ (funext fun o => ?_)
      rw [ih, AndOr.eval, bind_assoc, bind_assoc, runLinks]
      simp only [proceeds, if_true]
      refine congrArg _ (funext fun r => ?_)
      rw [pure_bind, runLinks_followedBy, map_eq_pure_bind]

/-! ## Chains -/

/-- The results of the further commands of a chain come to the outcome of the loop. -/
theorem foldl_runRest (run : Runner) {o : Outcome} {last : Result}
    (hcode : o.exitCode = last.exitCode) (links : List (Operator × Command)) :
    (List.foldl (fun o r => o.followedBy (.ofCommand r)) o) <$> runRest run last links
      = runLinks run o links := by
  induction links generalizing o last with
  | nil => simp only [runRest, runLinks, map_pure, List.foldl_nil]
  | cons link links ih =>
    obtain ⟨op, c⟩ := link
    rw [runRest, runLinks, hcode]
    split
    · rw [map_bind]
      refine congrArg _ (funext fun r => ?_)
      rw [map_bind, ← ih (Outcome.exitCode_followedBy o (.ofCommand r)), map_eq_pure_bind]
      simp only [map_pure, List.foldl_cons]
    · exact ih hcode

/-- A chain without pipes is run as the list of and-or lists that it is read as: for every way to
run a single command, in every session and at every time, both leave the same session and the same
notes, and come to the same outcome or break off with the same fault. As the way to run a command is
arbitrary, it may tell every call from every other, so the commands that run, their order and their
input are the same. -/
theorem runs_as_command_list (run : Runner) (chain : Chain)
    (hpipe : Operator.pipe ∉ chain.operators) (stdin : Option String) :
    (CommandList.ofChain chain).chain = chain ∧
      Result.outcome <$> runChain run chain stdin
        = (CommandList.ofChain chain).eval run stdin := by
  refine ⟨CommandList.chain_ofChain chain hpipe, ?_⟩
  rw [CommandList.ofChain, eval_split, AndOr.eval, runChain, map_bind, bind_assoc]
  refine congrArg _ (funext fun first => ?_)
  rw [pure_bind, map_bind, ← foldl_runRest run (Outcome.exitCode_ofCommand first),
    map_eq_pure_bind]
  simp only [map_pure, Result.outcome_combine]

/-- A chain in which a command is passed over, and one behind a semicolon runs after that. -/
theorem runs_false_and_pwd_then_echo :
    let run := runCommand (dispatch (some (runLine 9)))
    let chain : Chain :=
      { first := { word := "false" }
        rest := [(.and, { word := "pwd" }), (.or, { word := "true" }),
          (.sequence, { word := "echo", args := ["a"] })] }
    Operator.pipe ∉ chain.operators ∧
      Result.outcome <$> runChain run chain none
        = (CommandList.sequence
            (.or (.and (.command { word := "false" }) { word := "pwd" }) { word := "true" })
            (.single (.command { word := "echo", args := ["a"] }))).eval run none := by
  intro run chain
  have hpipe : Operator.pipe ∉ chain.operators := by decide
  exact ⟨hpipe, (runs_as_command_list run chain hpipe none).2⟩

end Execution

end VirtualShell
