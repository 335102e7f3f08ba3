import VirtualShell.Proofs.Session.Laws
import VirtualShell.Proofs.Tree.Default
import VirtualShell.Proofs.Tree.Map

/-!
# Actions on a whole tree

In a tree that has lost no entries, the actions that look at the tree and change it meet no fault:
looking gives the node at the path, and a change either goes through, and is an update of the map
that the tree is seen as, or is refused and leaves the session as it was.
-/

namespace VirtualShell

namespace Shell

variable {now : Timestamp} {s : Session} {e : FileSystem.Edit}

/-- Looking up a node in a whole tree gives what stands at the path. -/
theorem run_node? (h : s.fileSystem.root.Whole) (path : Path) :
    (node? path).run now s = { outcome := .ok (s.fileSystem.root.at? path), session := s } := by
  change Step.mk ((s.fileSystem.node? path).mapError Fault.tree) s [] = _
  rw [FileSystem.node?_eq h]
  rfl

/-- A refused edit changes nothing. -/
theorem run_changeTree_of_refused (h : s.fileSystem.root.Whole)
    (hrefused : e.Refused s.fileSystem.root.sightAt) :
    (changeTree e.apply).run now s = { outcome := .ok false, session := s } := by
  change changeTree e.apply now s = _
  rw [changeTree, FileSystem.apply_of_refused h hrefused]

/-- Any other edit is made, and the tree stays whole. -/
theorem run_changeTree_of_not_refused (h : s.fileSystem.root.Whole)
    (hrefused : ¬ e.Refused s.fileSystem.root.sightAt) :
    ∃ root : Node,
      (changeTree e.apply).run now s
          = { outcome := .ok true,
              session := { s with fileSystem := { s.fileSystem with root } } } ∧
        root.Whole ∧ root.sightAt = e.update now s.fileSystem.root.sightAt := by
  have hyields : s.fileSystem.Yields (e.apply now s.fileSystem)
      (e.update now s.fileSystem.root.sightAt) := FileSystem.yields_apply h hrefused
  obtain ⟨root, happly, hwhole, hsights⟩ := hyields
  refine ⟨root, ?_, hwhole, hsights⟩
  change changeTree e.apply now s = _
  rw [changeTree, happly]

end Shell

/-- A session in the directory `tmp`, where there is one file, the note `a`. -/
def noteSession : Session :=
  Session.new
    { root := .newDirectory .epoch "/"
        [("tmp", .newDirectory .epoch "tmp" [("a", .newFile .epoch "a" "hello")])]
      cwd := ["tmp"] }

theorem sound_noteSession : noteSession.fileSystem.Sound :=
  ⟨rfl, Node.everywhere_of_decide (by decide), ⟨_, rfl, rfl⟩⟩

end VirtualShell
