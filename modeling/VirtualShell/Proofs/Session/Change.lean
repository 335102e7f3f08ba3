import VirtualShell.Builtin.Limits
import VirtualShell.Session
import VirtualShell.Proofs.Alias.Book
import VirtualShell.Proofs.Environment
import VirtualShell.Proofs.Tree.Sound
import Mathlib.Logic.Relation

/-!
# What can happen to a session

`Session.Change` lists every single change that running a line can make to a session, each with what
the shell has made sure of before: that a new entry has a name of its own and breaks no limit, that
a removed one does not lead to the working directory, that an alias is valid. A run is a sequence of
such changes (`Session.Changes`), so whatever each change keeps is kept by every run.

The first such thing is soundness (`Changes.sound`): the file system stays sound, the aliases and
variables stay maps, and the reserved variables stay set.
-/

namespace VirtualShell

/-- A change of the file system at a moment. -/
inductive FileSystem.Change (now : Timestamp) (fs : FileSystem) : FileSystem → Prop
  /-- A directory becomes the working directory. -/
  | enter {path : Path} (hdir : fs.root.HasDirectory path) : Change now fs { fs with cwd := path }
  /-- A node is noted as changed. -/
  | touch (path : Path) : Change now fs (fs.modifyAt path (Node.touch now))
  /-- A directory gets a new entry that breaks no limit. -/
  | add {path : Path} {info : NodeInfo} {entries : Table Node} {name : String} {node : Node}
      (hat : fs.root.at? path = some (.directory info entries)) (hname : Path.IsName name)
      (hnew : entries.find? name = none) (hnode : node.IsNew now name)
      (hlimits : Limits.check fs (path ++ [name]) node.totalSize = .ok none) :
      Change now fs (fs.modifyAt path fun d => (d.mapEntries (·.put name node)).touch now)
  /-- A file gets a content that breaks no limit. -/
  | write {path : Path} {info : NodeInfo} {old content : String}
      (hat : fs.root.at? path = some (.file info old))
      (hlimits : Limits.check fs path content.length (some (.file info old)) = .ok none) :
      Change now fs (fs.modifyAt path fun n => (n.withContent content).touch now)
  /-- A directory loses an entry that does not lead to the working directory. -/
  | remove {path : Path} {info : NodeInfo} {entries : Table Node} {name : String}
      (hat : fs.root.at? path = some (.directory info entries))
      (hmem : entries.contains name = true) (hcwd : ¬ path ++ [name] <+: fs.cwd) :
      Change now fs (fs.modifyAt path fun d => (d.mapEntries (·.erase name)).touch now)

/-- A change of a session at a moment. -/
inductive Session.Change (now : Timestamp) (s : Session) : Session → Prop
  | fileSystem {fs : FileSystem} (h : s.fileSystem.Change now fs) :
      Change now s { s with fileSystem := fs }
  | exitCode (code : Int) : Change now s { s with lastExitCode := code }
  /-- A valid alias is set. -/
  | setAlias {name command : String} {t : Aliases} (hvalid : Alias.validate name command = none)
      (hset : s.aliases.set now name command = .ok t) : Change now s { s with aliases := t }
  | removeAlias (name : String) : Change now s { s with aliases := s.aliases.erase name }
  | clearAliases : Change now s { s with aliases := [] }
  | setVariable {name value : String} {e : Environment}
      (hset : s.environment.set name value = .ok e) : Change now s { s with environment := e }
  | unsetVariable {name : String} {e : Environment}
      (hunset : s.environment.unset? name = some e) : Change now s { s with environment := e }

/-- A sequence of changes at a moment. -/
def Session.Changes (now : Timestamp) : Session → Session → Prop :=
  Relation.ReflTransGen (Session.Change now)

/-! ## The working directory -/

namespace Node

/-- A new entry hides no directory. -/
theorem HasDirectory.putAt {n node : Node} {path cwd : Path} {info : NodeInfo}
    {entries : Table Node} {name : String} {now : Timestamp} (h : n.HasDirectory cwd)
    (hat : n.at? path = some (.directory info entries))
    (hnew : Table.find? entries name = none) :
    (n.modifyAt (fun d => (d.mapEntries (·.put name node)).touch now) path).HasDirectory cwd := by
  refine h.modifyAt fun m q hm _ hq => ?_
  rw [hat] at hm
  cases hm
  refine hq.of_entries (fun _ => rfl) fun other rest child _ hchild => ?_
  -- The way to the directory goes through another name: under this one there was nothing.
  have hother : other ≠ name := by
    rintro rfl
    rw [Node.entries, hnew] at hchild
    cases hchild
  rw [entries_touch]
  change Table.find? (Table.put entries name node) other = some child
  rw [Table.find?_put_of_ne _ _ hother]
  exact hchild

/-- Erasing an entry leaves every directory that does not lie at or below it. -/
theorem HasDirectory.eraseAt {n : Node} {path cwd : Path} {info : NodeInfo}
    {entries : Table Node} {name : String} {now : Timestamp} (h : n.HasDirectory cwd)
    (hat : n.at? path = some (.directory info entries)) (hcwd : ¬ path ++ [name] <+: cwd) :
    (n.modifyAt (fun d => (d.mapEntries (·.erase name)).touch now) path).HasDirectory cwd := by
  refine h.modifyAt fun m q hm hpath hq => ?_
  rw [hat] at hm
  cases hm
  refine hq.of_entries (fun _ => rfl) fun other rest child hrest hchild => ?_
  -- A way through the erased name would lie at or below the erased entry.
  have hother : other ≠ name := by
    rintro rfl
    exact hcwd ⟨rest, by rw [hpath, hrest, List.append_assoc, List.singleton_append]⟩
  rw [entries_touch]
  change Table.find? (Table.erase entries name) other = some child
  rw [Table.find?_erase_of_ne _ hother]
  exact hchild

/-- No directory lies at or below a file. -/
theorem HasDirectory.writeAt {n : Node} {path cwd : Path} {info : NodeInfo} {old : String}
    {now : Timestamp} (h : n.HasDirectory cwd) (hat : n.at? path = some (.file info old))
    (content : String) :
    (n.modifyAt (fun d => (d.withContent content).touch now) path).HasDirectory cwd := by
  refine h.modifyAt fun m q hm _ hq => ?_
  rw [hat] at hm
  cases hm
  obtain ⟨d, hd, hdir⟩ := hq
  cases q with
  -- At the file itself there is no directory, and below it there is no node.
  | nil =>
    cases hd
    cases hdir
  | cons name rest => cases hd

end Node

/-! ## Soundness -/

namespace FileSystem

/-- Every change keeps the directories on the way to the working directory. -/
theorem Change.hasDirectory {now : Timestamp} {fs fs' : FileSystem} {path : Path}
    (h : fs.Change now fs') (hpath : fs.root.HasDirectory path)
    (hcwd : path <+: fs.cwd) : fs'.root.HasDirectory path := by
  cases h with
  | enter _ => exact hpath
  | touch place =>
    refine hpath.modifyAt fun m q _ _ hq => ?_
    refine hq.of_entries (fun hd => by rw [Node.isDirectory_touch, hd]) ?_
    intro name rest child _ hchild
    rw [Node.entries_touch]
    exact hchild
  | add hat _ hnew _ _ => exact hpath.putAt hat hnew
  | write hat _ => exact hpath.writeAt hat _
  | remove hat _ hnot => exact hpath.eraseAt hat fun hpre => hnot (hpre.trans hcwd)

/-- A change of the file system keeps the tree sound. -/
theorem Change.tree {now : Timestamp} {fs fs' : FileSystem} (h : fs.Change now fs')
    (htree : fs.root.Sound) : fs'.root.Sound := by
  cases h with
  | enter _ => exact htree
  | touch path => exact htree.touchAt now path
  | add hat hname _ hnode _ => exact htree.putAt hat hnode hname
  | write hat _ => exact htree.writeAt hat _
  | remove hat _ _ => exact htree.eraseAt hat _

/-- So it keeps a file system sound. -/
theorem Change.sound {now : Timestamp} {fs fs' : FileSystem} (h : fs.Change now fs')
    (hs : fs.Sound) : fs'.Sound := by
  -- The root is a directory because it is on the way to the working directory.
  have hroot : fs'.root.HasDirectory [] := h.hasDirectory ⟨_, rfl, hs.root⟩ List.nil_prefix
  refine ⟨?_, h.tree hs.tree, ?_⟩
  · obtain ⟨n, hn, hdir⟩ := hroot
    cases hn
    exact hdir
  · have hcwd := h.hasDirectory hs.cwd List.prefix_rfl
    cases h with
    | enter hdir => exact hdir
    | touch | add | write | remove => exact hcwd

end FileSystem

namespace Session

/-- A session on which every command can rely. -/
structure Sound (s : Session) : Prop where
  fileSystem : s.fileSystem.Sound
  aliases : s.aliases.Distinct
  environment : s.environment.Sound

/-- A change keeps a session sound. -/
theorem Change.sound {now : Timestamp} {s s' : Session} (h : s.Change now s') (hs : s.Sound) :
    s'.Sound := by
  cases h with
  | fileSystem h => exact ⟨h.sound hs.fileSystem, hs.aliases, hs.environment⟩
  | exitCode code => exact ⟨hs.fileSystem, hs.aliases, hs.environment⟩
  | setAlias _ hset =>
    obtain ⟨-, -, rfl⟩ := Aliases.set_eq_ok_iff.mp hset
    exact ⟨hs.fileSystem, hs.aliases.put _ _, hs.environment⟩
  | removeAlias name => exact ⟨hs.fileSystem, hs.aliases.erase name, hs.environment⟩
  | clearAliases => exact ⟨hs.fileSystem, Table.distinct_nil, hs.environment⟩
  | setVariable hset => exact ⟨hs.fileSystem, hs.aliases, hs.environment.set hset⟩
  | unsetVariable hunset => exact ⟨hs.fileSystem, hs.aliases, hs.environment.unset? hunset⟩

/-- A session changes to itself. -/
theorem Changes.refl {now : Timestamp} (s : Session) : Changes now s s :=
  Relation.ReflTransGen.refl

/-- One change is a row of changes. -/
theorem Change.changes {now : Timestamp} {s s' : Session} (h : s.Change now s') :
    s.Changes now s' :=
  Relation.ReflTransGen.single h

/-- Changes follow changes. -/
theorem Changes.trans {now : Timestamp} {s s' s'' : Session} (h : s.Changes now s')
    (h' : s'.Changes now s'') : s.Changes now s'' :=
  Relation.ReflTransGen.trans h h'

/-- What every change of a sound session keeps, a sequence of changes keeps. -/
theorem Changes.keeps {now : Timestamp} {s s' : Session} {P : Session → Prop}
    (hP : ∀ {s s'}, s.Sound → s.Change now s' → P s → P s') (h : s.Changes now s') (hs : s.Sound)
    (hp : P s) : s'.Sound ∧ P s' := by
  induction h with
  | refl => exact ⟨hs, hp⟩
  | tail _ hchange ih => exact ⟨hchange.sound ih.1, hP ih.1 hchange ih.2⟩

/-- Any number of changes keep a session sound. -/
theorem Changes.sound {now : Timestamp} {s s' : Session} (h : s.Changes now s') (hs : s.Sound) :
    s'.Sound :=
  (h.keeps (P := fun _ => True) (fun _ _ _ => trivial) hs trivial).1

end Session

end VirtualShell
