import VirtualShell.Proofs.Path.Resolution
import VirtualShell.Proofs.Session.Change

/-!
# The names in a listing

A listing is a row of segments. The names in it are the segments with a style of their own, in the
short form and in the long one, so the two forms list the same names. Without the option to show
everything, these are the names of all entries of the directory that do not start with a dot
(`exists_run_runLs`).
-/

namespace VirtualShell

open Text

/-- The entries of a directory in a sound tree bear the names under which they are kept, and these
can be written in a path. -/
theorem Node.Sound.named_entry {n node : Node} {path : Path} {info : NodeInfo}
    {entries : Table Node} {name : String} (h : n.Sound)
    (hat : n.at? path = some (.directory info entries)) (hfind : entries.find? name = some node) :
    node.name = name ∧ Path.IsName name := by
  have hentry : n.at? (path ++ [name]) = some node := (Node.at?_entry name hat).trans hfind
  have hnamed := (h _ node hentry).named name List.getLast?_concat
  cases node <;> exact hnamed

namespace Builtin

/-- The path that a listing shows: where its first operand leads, or the working directory where
there is no operand or an empty one. -/
def listedPath (fs : FileSystem) (args : List String) : Path :=
  (((Options.parse args).operands.head?.filter (· != "")).map fs.resolve).getD fs.cwd

/-- The names in a listing. All else in it is of the plain style. -/
def listedNames (parts : List Segment) : List String :=
  (parts.filter (·.style != "normal")).map Segment.text

/-- The names listed in a text are those of its parts in order. -/
theorem listedNames_append (parts others : List Segment) :
    listedNames (parts ++ others) = listedNames parts ++ listedNames others := by
  rw [listedNames, List.filter_append, List.map_append]
  rfl

/-- What stands between the nodes leaves no name in a listing. -/
theorem listedNames_separate {form : Node → List Segment} (separator : String) (nodes : List Node)
    (hform : ∀ node, listedNames (form node) = [node.name]) :
    listedNames (separate separator (nodes.map form)) = nodes.map Node.name := by
  cases nodes with
  | nil => rfl
  | cons first rest =>
    rw [List.map_cons, separate, listedNames_append, hform, List.map_cons, List.singleton_append,
      List.cons_inj_right]
    induction rest with
    | nil => rfl
    | cons node rest ih =>
      have hnode : listedNames ({ text := separator } :: form node) = [node.name] := hform node
      rw [List.map_cons, List.flatMap_cons, listedNames_append, ih, hnode, List.map_cons,
        List.singleton_append]

/-- The short form of a node lists its name. -/
theorem listedNames_shortForm (node : Node) : listedNames (shortForm node) = [node.name] := by
  cases node <;> rfl

/-- So does the long form. -/
theorem listedNames_longForm (node : Node) : listedNames (longForm node) = [node.name] := by
  cases node <;> rfl

/-- A listing that does not show everything leaves out the hidden entries, whose names start with a
dot, and no others. -/
theorem mem_map_name_listed {n : Node} {path : Path} {info : NodeInfo} {entries : Table Node}
    (h : n.Sound) (hat : n.at? path = some (.directory info entries)) {name : String} :
    name ∈ (listed false (.directory info entries)).map Node.name ↔
      (∃ node, entries.find? name = some node) ∧ name.toList.head? ≠ some '.' := by
  have hhidden : ∀ s : String, hasStart "." s = (s.toList.head? == some '.') :=
    hasStart_singleton '.'
  have hmem : ∀ node, node ∈ listed false (.directory info entries) ↔
      (∃ name, entries.find? name = some node) ∧ node.name.toList.head? ≠ some '.' := by
    intro node
    rw [listed, (List.mergeSort_perm _ _).mem_iff, List.mem_filter, hhidden]
    refine and_congr ?_ (by simp)
    rw [Table.values, List.mem_map]
    constructor
    · rintro ⟨⟨name, node⟩, hentry, rfl⟩
      exact ⟨name, Table.find?_of_mem (h.distinct hat) hentry⟩
    · rintro ⟨name, hfind⟩
      exact ⟨(name, node), Table.mem_of_find? hfind, rfl⟩
  rw [List.mem_map]
  constructor
  · rintro ⟨node, hnode, rfl⟩
    obtain ⟨⟨name, hfind⟩, hvisible⟩ := (hmem node).mp hnode
    obtain ⟨rfl, -⟩ := h.named_entry hat hfind
    exact ⟨⟨node, hfind⟩, hvisible⟩
  · rintro ⟨⟨node, hfind⟩, hvisible⟩
    obtain ⟨rfl, -⟩ := h.named_entry hat hfind
    exact ⟨node, (hmem node).mpr ⟨⟨_, hfind⟩, hvisible⟩, rfl⟩

/-- A listing of a directory names the entries that are not hidden, unless it is told to show all of
them. -/
theorem exists_run_runLs {now : Timestamp} {s : Session} {args : List String} {info : NodeInfo}
    {entries : Table Node} (hs : s.fileSystem.Sound)
    (hat : s.fileSystem.root.at? (listedPath s.fileSystem args) = some (.directory info entries))
    (hall : (Options.parse args).has ["a", "all"] = false) :
    ∃ parts, (runLs args).run now s = { outcome := .ok (.ok (.segments parts)), session := s } ∧
      ∀ name, name ∈ listedNames parts ↔
        (∃ node, entries.find? name = some node) ∧ name.toList.head? ≠ some '.' := by
  let nodes := listed false (.directory info entries)
  let parts := if (Options.parse args).has ["l"] then separate "\n" (nodes.map longForm)
    else separate "  " (nodes.map shortForm)
  have hparts : listedNames parts = nodes.map Node.name := by
    unfold parts
    split
    · exact listedNames_separate _ _ listedNames_longForm
    · exact listedNames_separate _ _ listedNames_shortForm
  refine ⟨parts, ?_, fun name => ?_⟩
  · have hnode := hs.node?_eq (listedPath s.fileSystem args)
    rw [hat, listedPath] at hnode
    change Step.mk _ s [] = _
    simp only [hnode, hall]
    rfl
  · rw [hparts]
    exact mem_map_name_listed hs.tree hat

end Builtin

end VirtualShell
