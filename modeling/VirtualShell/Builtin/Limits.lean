import VirtualShell.Text.Number
import VirtualShell.Tree.FileSystem

/-!
# Limits

The ceilings that every command keeps to when it writes: on the depth of a path, on the size of a
file and of the whole tree, and on the number of entries of a directory.
-/

namespace VirtualShell.Limits

/-- One mebibyte. -/
def mebibyte : Nat := 1024 * 1024

/-- The greatest number of characters in a file. -/
def maxFileSize : Nat := 5 * mebibyte

/-- The greatest number of characters in the whole tree. -/
def maxTreeSize : Nat := 50 * mebibyte

/-- The greatest number of entries of a directory. -/
def maxEntries : Nat := 1000

/-- The greatest number of names in a path. -/
def maxDepth : Nat := 20

/-- The ceiling that a write would break. -/
inductive Excess where
  | depth
  | fileSize (name : String)
  | entries
  | treeSize
  deriving DecidableEq, Repr

/-- The message for a path that is too deep. -/
def tooDeep : String :=
  "path too deep (max " ++ Text.natText maxDepth ++ " levels)"

/-- The message for a ceiling that a write would break. -/
def Excess.message : Excess → String
  | .depth => tooDeep
  | .fileSize name =>
    "File '" ++ name ++ "' exceeds maximum size limit (" ++ Text.natText (maxFileSize / mebibyte)
      ++ "MB)"
  | .entries => "too many files in directory (max " ++ Text.natText maxEntries ++ ")"
  | .treeSize =>
    "Filesystem exceeds maximum size limit (" ++ Text.natText (maxTreeSize / mebibyte) ++ "MB)"

/-- Whether the directory that a path lies in is full. -/
def parentIsFull (fs : FileSystem) (path : Path) : Except TreeFault Bool := do
  match ← fs.node? path.dropLast with
  | some parent => return maxEntries ≤ parent.entries.length
  | none => return false

/-- The ceiling that writing so many characters to a path would break, if any. The node that is
there already, if any, makes room for its size. -/
def check (fs : FileSystem) (path : Path) (length : Nat) (existing : Option Node := none) :
    Except TreeFault (Option Excess) := do
  if maxDepth < path.length then return some .depth
  if maxFileSize < length then return some (.fileSize (path.getLast?.getD "/"))
  let full ← if existing.isNone then parentIsFull fs path else pure false
  if full then return some .entries
  let freed := (existing.map Node.size).getD 0
  if (maxTreeSize : Int) < (fs.root.totalSize : Int) - freed + length then return some .treeSize
  return none

end VirtualShell.Limits
