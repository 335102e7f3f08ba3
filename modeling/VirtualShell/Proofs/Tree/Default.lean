import VirtualShell.Tree.Default
import VirtualShell.Proofs.Tree.Sound

/-!
# Checking a tree

Soundness speaks about all paths of a tree, and can be checked by going through the tree once. The
default tree passes the check.
-/

namespace VirtualShell

namespace Node

mutual

/-- Checks a node that lies at a path, and everything below it. -/
def passes (check : Path → Face → Bool) (path : Path) : Node → Bool
  | .file info content => check path (face (.file info content))
  | .directory info entries =>
    check path (face (.directory info entries)) && entriesPass check path entries
  | .hollow info => check path (face (.hollow info))

/-- Checks the entries of a directory that lies at a path. -/
def entriesPass (check : Path → Face → Bool) (path : Path) : List (String × Node) → Bool
  | [] => true
  | (name, n) :: rest => n.passes check (path ++ [name]) && entriesPass check path rest

end

mutual

/-- What has been checked holds everywhere. -/
theorem everywhere_of_passes {check : Path → Face → Bool} (path : Path) :
    ∀ n : Node, n.passes check path = true →
      n.Everywhere fun q face => check (path ++ q) face = true
  | .file info content, h => by
    rw [passes] at h
    exact everywhere_of_entries (by rwa [List.append_nil]) nofun
  | .directory info entries, h => by
    rw [passes, Bool.and_eq_true] at h
    refine everywhere_of_entries (by rw [List.append_nil]; exact h.1) fun name child hchild => ?_
    intro q m hm
    have hbelow : check (path ++ [name] ++ q) m.face = true :=
      everywhere_of_entriesPass path entries h.2 _ (Table.mem_of_find? hchild) q m hm
    rwa [List.append_assoc, List.singleton_append] at hbelow
  | .hollow info, h => by
    rw [passes] at h
    exact everywhere_of_entries (by rwa [List.append_nil]) nofun

/-- Entries that pass a check pass it everywhere below them. -/
theorem everywhere_of_entriesPass {check : Path → Face → Bool} (path : Path) :
    ∀ entries : List (String × Node), entriesPass check path entries = true →
      ∀ entry ∈ entries, entry.2.Everywhere fun q face =>
        check (path ++ [entry.1] ++ q) face = true
  | [], _ => by simp
  | (name, n) :: rest, h => by
    rw [entriesPass, Bool.and_eq_true] at h
    rw [List.forall_mem_cons]
    exact ⟨everywhere_of_passes (path ++ [name]) n h.1, everywhere_of_entriesPass path rest h.2⟩

end

/-- A property that can be decided at each node holds everywhere if it passes at each. -/
theorem everywhere_of_decide {P : Path → Face → Prop} [∀ path face, Decidable (P path face)]
    {n : Node} (h : n.passes (fun path face => decide (P path face)) [] = true) :
    n.Everywhere P := by
  intro path m hm
  exact of_decide_eq_true (everywhere_of_passes [] n h path m hm)

instance (path : Path) (face : Face) : Decidable (Face.Sound path face) :=
  decidable_of_iff
    ((face.content.isSome || face.names.isSome) = true ∧ (face.names.getD []).Nodup ∧
      ∀ name ∈ path.getLast?, face.info.name = name ∧ Path.IsName name) <| by
    constructor
    · intro ⟨hwhole, hdistinct, hnamed⟩
      refine ⟨fun hcontent hnames => ?_, fun names hnames => ?_, fun name hlast => ?_⟩
      · rw [hcontent, hnames] at hwhole
        cases hwhole
      · rwa [hnames] at hdistinct
      · exact hnamed name hlast
    · intro ⟨hwhole, hdistinct, hnamed⟩
      refine ⟨?_, ?_, fun name hlast => hnamed name hlast⟩
      · cases hcontent : face.content with
        | some content => rfl
        | none => simpa [Option.isSome_iff_ne_none] using hwhole hcontent
      · cases hnames : face.names with
        | some names => exact hdistinct names hnames
        | none => exact List.nodup_nil

/-- A node with content is a file. -/
theorem exists_eq_file {found : Except TreeFault (Option Node)} {content : String}
    (h : found.toOption.join.bind content? = some content) :
    ∃ info, found = .ok (some (.file info content)) := by
  obtain ⟨node, hnode, hcontent⟩ := Option.bind_eq_some_iff.mp h
  cases found with
  | error e => cases hnode
  | ok found =>
    obtain rfl : found = some node := hnode
    cases node with
    | file info content =>
      cases hcontent
      exact ⟨info, rfl⟩
    | directory | hollow => cases hcontent

end Node

namespace DefaultTree

/-- The default tree is sound. -/
theorem sound_root (now : Timestamp) : (root now).Sound := by
  refine Node.everywhere_of_decide ?_
  simp only [root, dir, Node.newDirectory, Node.newFile, manualPages, List.map, Node.name,
    Node.info]
  rfl

/-- The default tree is sound, and its working directory is there. -/
theorem sound_fileSystem (now : Timestamp) : (fileSystem now).Sound where
  root := rfl
  tree := sound_root now
  cwd := ⟨_, rfl, rfl⟩

end DefaultTree

end VirtualShell
