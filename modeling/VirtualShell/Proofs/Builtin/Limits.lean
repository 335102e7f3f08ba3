import VirtualShell.Builtin.Limits
import VirtualShell.Proofs.Tree.Position

/-!
# What the limits check

In a whole tree the check always comes to an answer (`check_eq`), and a write that passes keeps all
four ceilings (`check_eq_ok_none_iff`): the path is not too deep, the file is not too long, a new
entry finds room in its directory, and the tree with the old content taken out and the new one put
in is not too big.
-/

namespace VirtualShell.Limits

variable {fs : FileSystem} {path : Path} {length : Nat} {existing : Option Node}

/-- Whether a write needs room for a new entry and its directory has none. -/
def lacksRoom (fs : FileSystem) (path : Path) (existing : Option Node) : Bool :=
  existing.isNone &&
    (fs.root.at? path.dropLast).any fun parent => maxEntries ≤ parent.entries.length

/-- The ceiling that a write would break, where the tree is read as a map. -/
def excess? (fs : FileSystem) (path : Path) (length : Nat) (existing : Option Node) :
    Option Excess :=
  if maxDepth < path.length then some .depth
  else if maxFileSize < length then some (.fileSize (path.getLast?.getD "/"))
  else if lacksRoom fs path existing then some .entries
  else if (maxTreeSize : Int) < (fs.root.totalSize : Int) - (existing.map Node.size).getD 0 + length
    then some .treeSize
  else none

/-- In a whole tree, asking whether a directory is full gets an answer. -/
theorem parentIsFull_eq (h : fs.root.Whole) (path : Path) :
    parentIsFull fs path = .ok (lacksRoom fs path none) := by
  rw [parentIsFull, FileSystem.node?_eq h, lacksRoom]
  cases fs.root.at? path.dropLast <;> rfl

/-- In a whole tree the check meets no fault. -/
theorem check_eq (h : fs.root.Whole) (path : Path) (length : Nat) (existing : Option Node) :
    check fs path length existing = .ok (excess? fs path length existing) := by
  unfold check excess?
  split
  · rfl
  split
  · rfl
  -- Only a new entry asks for its directory, which a whole tree reads without a fault.
  cases existing with
  | none =>
    simp only [Option.isNone_none, if_true, parentIsFull_eq h, bind, Except.bind]
    split
    · rfl
    · split <;> rfl
  | some node =>
    simp only [lacksRoom, Option.isNone_some, Bool.false_and, if_neg Bool.false_ne_true]
    simp only [bind, Except.bind, pure, Except.pure, if_neg Bool.false_ne_true]
    split <;> rfl

/-- There is room unless a node is to be added to a directory with the greatest number of
entries. -/
theorem lacksRoom_eq_false_iff :
    lacksRoom fs path existing = false ↔ (existing = none → ∀ parent,
      fs.root.at? path.dropLast = some parent → parent.entries.length < maxEntries) := by
  cases existing with
  | some node => simp [lacksRoom]
  | none =>
    cases hparent : fs.root.at? path.dropLast <;> simp [lacksRoom, hparent]

/-- A write passes if it keeps all four ceilings. -/
theorem check_eq_ok_none_iff (h : fs.root.Whole) :
    check fs path length existing = .ok none ↔
      path.length ≤ maxDepth ∧ length ≤ maxFileSize ∧
      (existing = none → ∀ parent,
        fs.root.at? path.dropLast = some parent → parent.entries.length < maxEntries) ∧
      (fs.root.totalSize : Int) - (existing.map Node.size).getD 0 + length ≤ maxTreeSize := by
  rw [check_eq h, Except.ok.injEq, ← lacksRoom_eq_false_iff, excess?]
  split
  · rename_i hdepth
    simp [Nat.not_le.mpr hdepth]
  split
  · rename_i hsize
    simp [Nat.not_le.mpr hsize]
  split
  · rename_i hroom
    simp [hroom]
  split
  · rename_i htree
    simp [Int.not_le.mpr htree]
  · rename_i hdepth hsize hroom htree
    simp only [true_iff]
    exact ⟨Nat.not_lt.mp hdepth, Nat.not_lt.mp hsize, Bool.eq_false_iff.mpr hroom,
      Int.not_lt.mp htree⟩

end VirtualShell.Limits
