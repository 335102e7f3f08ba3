import VirtualShell.Builtin.Run
import VirtualShell.Proofs.Builtin.Files
import VirtualShell.Proofs.Tree.Map

/-!
# What a command may change

Each command has a frame: what is seen at a path may become something else only as the command
allows (`Becomes`), and the working directory, the aliases and the variables change only under the
commands that are there for it. Frames can be put in a row (`Frame.trans`), because no command both
adds and removes nodes. So a command that goes through its operands stays within its frame if it
does so for each of them, whatever the earlier ones have done to the tree and wherever it stops.

The operands are resolved from the working directory, which no command that removes nodes changes:
the paths that they name are the same for every operand.
-/

namespace VirtualShell

/-! ## Sights of nodes that were changed -/

namespace Sight

/-- A node stays one when it is touched. -/
@[simp]
theorem isNode_touch (x : Sight) (t : Timestamp) : (x.touch t).isNode = x.isNode := by
  cases x <;> rfl

/-- A directory stays one when it is touched. -/
@[simp]
theorem isDirectory_touch (x : Sight) (t : Timestamp) :
    (x.touch t).isDirectory = x.isDirectory := by
  cases x <;> rfl

/-- Only the last touch is seen. -/
@[simp]
theorem touch_touch (x : Sight) (t u : Timestamp) : (x.touch t).touch u = x.touch u := by
  cases x <;> rfl

/-- A node is as it was when it was last changed. -/
theorem exists_touch_eq_self (x : Sight) : ∃ t, x.touch t = x := by
  cases x with
  | file info content => exact ⟨info.modifiedAt, rfl⟩
  | directory info => exact ⟨info.modifiedAt, rfl⟩
  | missing | notADirectory => exact ⟨.epoch, rfl⟩

end Sight

namespace Node

/-- A touched node is seen as its sight, touched. -/
theorem sight_touch (n : Node) (now : Timestamp) : (n.touch now).sight = n.sight.touch now := by
  cases n <;> rfl

/-- Under a name that a directory does not list there is no node. -/
theorem at?_entry_eq_none {n : Node} {path : Path} {info : NodeInfo} {entries : Table Node}
    {name : String} (hat : n.at? path = some (.directory info entries))
    (hnew : ¬ Table.contains entries name = true) : n.at? (path ++ [name]) = none := by
  rw [at?_entry name hat]
  rwa [Bool.not_eq_true, Table.contains_eq_false_iff] at hnew

/-- A whole tree stays whole when a node in it is touched. -/
theorem Whole.touchAt {n : Node} (h : n.Whole) (now : Timestamp) (path : Path) :
    (n.modifyAt (Node.touch now) path).Whole := by
  rw [whole_iff] at h ⊢
  refine h.touchAt fun m hm => ?_
  rw [face_touch]
  exact h path m hm

/-- A node that is noted as changed is seen as changed, and every other sight stays. -/
theorem exists_sightAt_touchAt (n : Node) (now : Timestamp) (path q : Path) :
    ∃ t, (n.modifyAt (Node.touch now) path).sightAt q = (n.sightAt q).touch t := by
  obtain ⟨own, hown⟩ := (n.sightAt q).exists_touch_eq_self
  cases hat : n.at? path with
  | none => exact ⟨own, by rw [modifyAt_of_at?_eq_none _ hat, hown]⟩
  | some m =>
    by_cases hpath : path <+: q
    · obtain ⟨r, rfl⟩ := hpath
      rw [sightAt_append hat] at hown ⊢
      rw [sightAt_modifyAt_append _ hat]
      cases r with
      | nil => exact ⟨now, sight_touch m now⟩
      | cons name rest =>
        refine ⟨own, ?_⟩
        rw [hown]
        cases m <;> rfl
    · exact ⟨own, by rw [sightAt_modifyAt_of_not_isPrefix _ n hpath, hown]⟩

end Node

namespace Builtin

variable {α β : Type} {b : Builtin} {args : List String} {now : Timestamp} {s s' s'' : Session}

/-! ## Frames -/

/-- The nodes that a command may make: only `touch` makes files, which are empty, and only `mkdir`
makes directories. -/
def MayAdd (b : Builtin) (new : Sight) : Prop :=
  b = .touch ∧ (∃ info, new = .file info "") ∨ b = .mkdir ∧ new.isDirectory = true

/-- The nodes that a command may remove: `rm` those at or below an operand, and `rmdir` directories
that are operands themselves. -/
def MayRemove (b : Builtin) (args : List String) (cwd q : Path) (old : Sight) : Prop :=
  b = .rm ∧ (∃ operand ∈ (Options.parse args).operands, Path.resolve cwd operand <+: q) ∨
    b = .rmdir ∧ old.isDirectory = true ∧ ∃ operand ∈ args, Path.resolve cwd operand = q

/-- What may become of the sight at a path under a command. -/
inductive Becomes (b : Builtin) (args : List String) (cwd q : Path) : Sight → Sight → Prop
  /-- All but the time of the last change stays. -/
  | kept (x : Sight) (t : Timestamp) : Becomes b args cwd q x (x.touch t)
  /-- There is no node, although a walk may now end in another way. -/
  | absent {x y : Sight} : x.isNode = false → y.isNode = false → Becomes b args cwd q x y
  | added {x y : Sight} : x.isNode = false → b.MayAdd y → Becomes b args cwd q x y
  | removed {x y : Sight} : b.MayRemove args cwd q x → y.isNode = false → Becomes b args cwd q x y

/-- What a command may add, it may add with any time. -/
theorem MayAdd.touch {x : Sight} (h : b.MayAdd x) (t : Timestamp) : b.MayAdd (x.touch t) := by
  rcases h with ⟨hb, info, rfl⟩ | ⟨hb, hdir⟩
  · exact .inl ⟨hb, _, rfl⟩
  · exact .inr ⟨hb, (x.isDirectory_touch t).trans hdir⟩

/-- Whether a command may remove a node does not depend on its time. -/
theorem MayRemove.of_touch {cwd q : Path} {x : Sight} {t : Timestamp}
    (h : b.MayRemove args cwd q (x.touch t)) : b.MayRemove args cwd q x := by
  rwa [MayRemove, Sight.isDirectory_touch] at h

/-- No command both makes and removes nodes. -/
theorem MayRemove.not_mayAdd {cwd q : Path} {x y : Sight} (h : b.MayRemove args cwd q x) :
    ¬ b.MayAdd y := by
  rcases h with ⟨rfl, -⟩ | ⟨rfl, -⟩ <;> rintro (⟨hb, -⟩ | ⟨hb, -⟩) <;> cases hb

/-- Nothing may happen to a path. -/
theorem Becomes.refl {cwd q : Path} (x : Sight) : Becomes b args cwd q x x := by
  obtain ⟨t, ht⟩ := x.exists_touch_eq_self
  have hkept : Becomes b args cwd q x (x.touch t) := .kept x t
  rwa [ht] at hkept

/-- What may happen to a path may happen in two steps. -/
theorem Becomes.trans {cwd q : Path} {x y z : Sight} (hxy : Becomes b args cwd q x y)
    (hyz : Becomes b args cwd q y z) : Becomes b args cwd q x z := by
  cases hxy with
  | kept t =>
    cases hyz with
    | kept u =>
      rw [Sight.touch_touch]
      exact .kept x u
    | absent hx hz => exact .absent (x.isNode_touch t ▸ hx) hz
    | added hx hz => exact .added (x.isNode_touch t ▸ hx) hz
    | removed hx hz => exact .removed hx.of_touch hz
  | absent hx hy =>
    cases hyz with
    | kept u => exact .absent hx ((y.isNode_touch u).trans hy)
    | absent _ hz => exact .absent hx hz
    | added _ hz => exact .added hx hz
    | removed _ hz => exact .absent hx hz
  | added hx hy =>
    cases hyz with
    | kept u => exact .added hx (hy.touch u)
    | absent _ hz => exact .absent hx hz
    | added _ hz => exact .added hx hz
    | removed _ hz => exact .absent hx hz
  | removed hx hy =>
    cases hyz with
    | kept u => exact .removed hx ((y.isNode_touch u).trans hy)
    | absent _ hz => exact .removed hx hz
    | added _ hz => exact absurd hz hx.not_mayAdd
    | removed _ hz => exact .removed hx hz

/-- The working directory matters only where nodes are removed, and `cd` removes none. -/
theorem Becomes.of_cwd {cwd cwd' q : Path} {x y : Sight} (h : Becomes b args cwd q x y)
    (hcwd : b ≠ .cd → cwd = cwd') : Becomes b args cwd' q x y := by
  by_cases hb : b = .cd
  · subst hb
    cases h with
    | kept t => exact .kept x t
    | absent hx hy => exact .absent hx hy
    | added hx hy => exact .added hx hy
    | removed hx hy => rcases hx with ⟨hb, -⟩ | ⟨hb, -⟩ <;> cases hb
  · rwa [hcwd hb] at h

section Kinds

variable {cwd q : Path} {x y : Sight}

/-- A node that is there before and after was touched at most. -/
theorem Becomes.eq_touch (h : Becomes b args cwd q x y) (hx : x.isNode = true)
    (hy : y.isNode = true) : ∃ t, y = x.touch t := by
  cases h with
  | kept t => exact ⟨t, rfl⟩
  | absent hx' _ => exact absurd hx (Bool.eq_false_iff.mp hx')
  | added hx' _ => exact absurd hx (Bool.eq_false_iff.mp hx')
  | removed _ hy' => exact absurd hy (Bool.eq_false_iff.mp hy')

/-- A node that is new is one that the command may add. -/
theorem Becomes.mayAdd (h : Becomes b args cwd q x y) (hx : x.isNode = false)
    (hy : y.isNode = true) : b.MayAdd y := by
  cases h with
  | kept t =>
    rw [Sight.isNode_touch, hx] at hy
    cases hy
  | absent _ hy' => exact absurd hy (Bool.eq_false_iff.mp hy')
  | added _ hadd => exact hadd
  | removed _ hy' => exact absurd hy (Bool.eq_false_iff.mp hy')

/-- A node that is gone is one that the command may remove. -/
theorem Becomes.mayRemove (h : Becomes b args cwd q x y) (hx : x.isNode = true)
    (hy : y.isNode = false) : b.MayRemove args cwd q x := by
  cases h with
  | kept t =>
    rw [Sight.isNode_touch, hx] at hy
    cases hy
  | absent hx' _ => exact absurd hx (Bool.eq_false_iff.mp hx')
  | added hx' _ => exact absurd hx (Bool.eq_false_iff.mp hx')
  | removed hremove _ => exact hremove

end Kinds

/-- A command leads from one session to another within its frame. -/
structure Frame (b : Builtin) (args : List String) (s s' : Session) : Prop where
  /-- The tree stays whole, so that the next step can rely on it. -/
  whole : s.fileSystem.root.Whole → s'.fileSystem.root.Whole
  tree : ∀ q, Becomes b args s.fileSystem.cwd q (s.fileSystem.root.sightAt q)
    (s'.fileSystem.root.sightAt q)
  cwd : b ≠ .cd → s'.fileSystem.cwd = s.fileSystem.cwd
  aliases : b ∉ [.defineAlias, .removeAliases, .source] → s'.aliases = s.aliases
  environment : b ∉ [.exportVariables, .unsetVariables, .source] → s'.environment = s.environment

namespace Frame

/-- A session is within the frame of itself. -/
theorem refl (s : Session) : Frame b args s s :=
  ⟨id, fun _ => .refl _, fun _ => rfl, fun _ => rfl, fun _ => rfl⟩

/-- Two steps within a frame are one step within it. -/
theorem trans (h : Frame b args s s') (h' : Frame b args s' s'') : Frame b args s s'' := by
  refine ⟨h'.whole ∘ h.whole, fun q => ?_, fun hb => (h'.cwd hb).trans (h.cwd hb),
    fun hb => (h'.aliases hb).trans (h.aliases hb),
    fun hb => (h'.environment hb).trans (h.environment hb)⟩
  exact (h.tree q).trans ((h'.tree q).of_cwd h.cwd)

/-- A change outside the file system. -/
theorem of_settings (hfiles : s'.fileSystem = s.fileSystem)
    (haliases : b ∉ [.defineAlias, .removeAliases, .source] → s'.aliases = s.aliases)
    (henvironment : b ∉ [.exportVariables, .unsetVariables, .source] →
      s'.environment = s.environment) : Frame b args s s' := by
  refine ⟨?_, fun q => ?_, fun _ => ?_, haliases, henvironment⟩ <;> rw [hfiles]
  · exact id
  · exact .refl _

/-- A change of the tree alone. -/
theorem of_root {root : Node} (hwhole : s.fileSystem.root.Whole → root.Whole)
    (htree : ∀ q, Becomes b args s.fileSystem.cwd q (s.fileSystem.root.sightAt q)
      (root.sightAt q)) :
    Frame b args s { s with fileSystem := { s.fileSystem with root } } :=
  ⟨hwhole, htree, fun _ => rfl, fun _ => rfl, fun _ => rfl⟩

end Frame

/-! ## Actions within a frame -/

/-- The action, run in a session, stays within the frame of the command. -/
def Within (b : Builtin) (args : List String) (now : Timestamp) (s : Session) (action : Shell α) :
    Prop :=
  Frame b args s (action.run now s).session

namespace Within

/-- An action that only answers stays within every frame. -/
theorem pure (a : α) : Within b args now s (Pure.pure a : Shell α) :=
  Frame.refl s

/-- So does one that looks at the session. -/
theorem query (f : Session → Except Fault α) : Within b args now s (Shell.query f) :=
  Frame.refl s

/-- So does one that only breaks off. -/
theorem ofExcept (x : Except Fault α) : Within b args now s (Shell.ofExcept x) :=
  Frame.refl s

/-- A fault ends a sequence where it is; a value hands the session on to the rest. -/
theorem bind {first : Shell α} {next : α → Shell β} (hfirst : Within b args now s first)
    (hnext : ∀ a, (first.run now s).outcome = .ok a →
      Within b args now (first.run now s).session (next a)) :
    Within b args now s (first >>= next) := by
  have hrun : (first >>= next).run now s = Shell.bind first next now s := rfl
  rw [Shell.bind] at hrun
  rw [Within, hrun]
  cases ho : (first now s).outcome with
  | error e => exact hfirst
  | ok a => exact hfirst.trans (hnext a ho)

/-- An action may go on with the session. -/
theorem session_bind {next : Session → Shell β} (h : Within b args now s (next s)) :
    Within b args now s (Shell.session >>= next) :=
  h

/-- It may go on with the time. -/
theorem now_bind {next : Timestamp → Shell β} (h : Within b args now s (next now)) :
    Within b args now s (Shell.now >>= next) :=
  h

/-- It may go on with what it has found in the session. -/
theorem query_bind {f : Session → Except Fault α} {next : α → Shell β}
    (h : ∀ a, f s = .ok a → Within b args now s (next a)) :
    Within b args now s (Shell.query f >>= next) :=
  (query f).bind h

/-- It may change the session within the frame and go on from there. -/
theorem modify_bind {f : Session → Session} {next : Unit → Shell β} (hf : Frame b args s (f s))
    (h : Within b args now (f s) (next ())) : Within b args now s (Shell.modify f >>= next) :=
  bind hf fun _ _ => h

/-- In a whole tree the node at a path is read without a fault. -/
theorem node?_bind {path : Path} {next : Option Node → Shell β} (hs : s.fileSystem.root.Whole)
    (h : Within b args now s (next (s.fileSystem.root.at? path))) :
    Within b args now s (Shell.node? path >>= next) := by
  refine query_bind fun node hnode => ?_
  rw [FileSystem.node?_eq hs] at hnode
  cases hnode
  exact h

/-- What stays within the frame for each operand does so for all of them in a row. -/
theorem forEach {operands : List String} {step : String → Shell (Option String)}
    (hs : s.fileSystem.root.Whole)
    (hstep : ∀ operand ∈ operands, ∀ s : Session, s.fileSystem.root.Whole →
      Within b args now s (step operand)) :
    Within b args now s (Builtin.forEach operands step) := by
  induction operands generalizing s with
  | nil => exact pure _
  | cons operand rest ih =>
    obtain ⟨hfirst, hrest⟩ := List.forall_mem_cons.mp hstep
    have hframe := hfirst s hs
    refine hframe.bind fun message _ => ?_
    cases message with
    | some message => exact pure _
    | none => exact ih (hframe.whole hs) hrest

/-- A change of the tree that is refused leaves it; one that goes through must keep to the frame. -/
theorem changeTree {e : FileSystem.Edit} (hs : s.fileSystem.root.Whole)
    (h : ¬ e.Refused s.fileSystem.root.sightAt → ∀ q, Becomes b args s.fileSystem.cwd q
      (s.fileSystem.root.sightAt q) (e.update now s.fileSystem.root.sightAt q)) :
    Within b args now s (Shell.changeTree e.apply) := by
  change Frame b args s (Shell.changeTree e.apply now s).session
  by_cases hrefused : e.Refused s.fileSystem.root.sightAt
  · rw [Shell.changeTree, FileSystem.apply_of_refused hs hrefused]
    exact Frame.refl s
  · have hyields : s.fileSystem.Yields (e.apply now s.fileSystem)
        (e.update now s.fileSystem.root.sightAt) := FileSystem.yields_apply hs hrefused
    obtain ⟨root, happly, hwhole, hsights⟩ := hyields
    rw [Shell.changeTree, happly]
    refine Frame.of_root (fun _ => hwhole) fun q => ?_
    rw [hsights]
    exact h hrefused q

end Within

/-! ## Making and removing nodes -/

/-- An edit of one entry stays within a frame if what becomes of the entry and of all below it
does: of its directory only the time of the last change is another one. -/
theorem becomes_replace {cwd path target : Path} {m : Sights} {here below : Sight}
    (hhere : Becomes b args cwd target (m target) here)
    (hbelow : ∀ q, target <+: q → q ≠ target → Becomes b args cwd q (m q) below) (q : Path) :
    Becomes b args cwd q (m q) ((m.stamp now path).replace target here below q) := by
  rw [Sights.replace]
  split
  · rename_i hq
    subst hq
    exact hhere
  · rename_i hq
    split
    · rename_i hpre
      exact hbelow q hpre hq
    · rw [Sights.stamp]
      by_cases hpath : q = path
      · subst hpath
        rw [Function.update_self]
        exact .kept _ now
      · rw [Function.update_of_ne hpath]
        exact .refl _

/-- A node that is made where there was none. -/
theorem becomes_added {n : Node} {cwd path target : Path} {here below : Sight}
    (habsent : n.at? target = none) (hhere : b.MayAdd here) (hbelow : below.isNode = false)
    (q : Path) : Becomes b args cwd q (n.sightAt q)
      ((Sights.stamp n.sightAt now path).replace target here below q) :=
  becomes_replace (.added (Node.isNode_sightAt_of_isPrefix habsent List.prefix_rfl) hhere)
    (fun _ hpre _ => .absent (Node.isNode_sightAt_of_isPrefix habsent hpre) hbelow) q

/-- Touching a file stays within the frame of `touch`. -/
theorem within_touchOne (filename : String) (hs : s.fileSystem.root.Whole) :
    Within .touch args now s (touchOne filename) := by
  refine Within.session_bind ?_
  dsimp only
  generalize s.fileSystem.resolve filename = path
  split
  · exact Within.pure _
  split
  · exact Within.pure _
  split
  · exact Within.pure _
  refine Within.node?_bind hs ?_
  split
  · rename_i info entries hat
    split
    · refine Within.now_bind (Within.modify_bind ?_ (Within.pure _))
      refine Frame.of_root (fun hwhole => hwhole.touchAt now path) fun q => ?_
      obtain ⟨t, ht⟩ := s.fileSystem.root.exists_sightAt_touchAt now path q
      rw [ht]
      exact .kept _ t
    · rename_i hnew
      refine Within.query_bind fun excess _ => ?_
      split
      · exact Within.pure _
      · have hedit : Within .touch args now s (Shell.changeTree
            (FileSystem.Edit.createFile path.dropLast (lastName path) "").apply) :=
          Within.changeTree hs fun _ => becomes_added (Node.at?_entry_eq_none hat hnew)
            (.inl ⟨rfl, _, rfl⟩) rfl
        exact hedit.bind fun _ _ => Within.pure _
  · exact Within.ofExcept _
  · exact Within.pure _

/-- Making a directory where there is nothing. -/
theorem within_createDirectory {path : Path} {name : String} (hs : s.fileSystem.root.Whole)
    (habsent : s.fileSystem.root.at? (path ++ [name]) = none) :
    Within .mkdir args now s
      (Shell.changeTree fun now fs => fs.createDirectory now path name) :=
  Within.changeTree (e := .createDirectory path name) hs fun _ =>
    becomes_added habsent (.inr ⟨rfl, rfl⟩) rfl

/-- Making a directory stays within the frame of `mkdir`. -/
theorem within_makeDirectory (operand : String) (path : Path) (hs : s.fileSystem.root.Whole) :
    Within .mkdir args now s (makeDirectory operand path) := by
  refine Within.node?_bind hs ?_
  split
  · rename_i info entries hat
    split
    · exact Within.pure _
    · rename_i hnew
      refine Within.query_bind fun excess _ => ?_
      split
      · exact Within.pure _
      · have hmade : Within .mkdir args now s _ :=
          within_createDirectory hs (Node.at?_entry_eq_none hat hnew)
        exact hmade.bind fun _ _ => Within.pure _
  · exact Within.ofExcept _
  · exact Within.pure _

/-- So does making the directories above it, one after another. -/
theorem within_makeParents (operand : String) (made : Path) (names : List String)
    (hs : s.fileSystem.root.Whole) : Within .mkdir args now s (makeParents operand made names) := by
  induction names generalizing made s with
  | nil => exact Within.pure _
  | cons name rest ih =>
    refine Within.node?_bind hs ?_
    split
    · rename_i habsent
      refine Within.query_bind fun excess _ => ?_
      split
      · exact Within.pure _
      · have hmade : Within .mkdir args now s _ := within_createDirectory hs habsent
        exact hmade.bind fun _ _ => ih (made ++ [name]) (hmade.whole hs)
    · split
      · exact ih (made ++ [name]) hs
      · exact Within.pure _

/-- So does `mkdir` with one operand. -/
theorem within_mkdirOne (parents : Bool) (operand : String) (hs : s.fileSystem.root.Whole) :
    Within .mkdir args now s (mkdirOne parents operand) := by
  refine Within.session_bind ?_
  dsimp only
  generalize s.fileSystem.resolve operand = path
  split
  · exact Within.pure _
  split
  · exact Within.pure _
  split
  · exact within_makeParents operand [] path hs
  · exact within_makeDirectory operand path hs

/-- A removal stays within a frame that lets all nodes at and below the removed one go. The working
directory lies in the root, so a path that is not busy is not empty. -/
theorem within_removeAt {path : Path} (hs : s.fileSystem.root.Whole)
    (hbusy : ¬ isBusy s path = true)
    (hremove : ∀ q, path <+: q → (s.fileSystem.root.sightAt q).isNode = true →
      b.MayRemove args s.fileSystem.cwd q (s.fileSystem.root.sightAt q)) :
    Within b args now s (removeAt path) := by
  have hpath : path ≠ [] := by
    rintro rfl
    exact hbusy rfl
  have hgone : ∀ q, path <+: q →
      Becomes b args s.fileSystem.cwd q (s.fileSystem.root.sightAt q) .missing := by
    intro q hq
    cases hnode : (s.fileSystem.root.sightAt q).isNode with
    | true => exact .removed (hremove q hq hnode) rfl
    | false => exact .absent hnode rfl
  refine Within.changeTree (e := .deleteEntry path.dropLast (lastName path)) hs fun _ => ?_
  rw [← dropLast_append_lastName hpath] at hgone
  exact becomes_replace (hgone _ List.prefix_rfl) fun q hq _ => hgone q hq

/-- Removing an operand stays within the frame of `rm`. -/
theorem within_rmOne (recursive force : Bool) {operand : String}
    (hoperand : operand ∈ (Options.parse args).operands) (hs : s.fileSystem.root.Whole) :
    Within .rm args now s (rmOne recursive force operand) := by
  refine Within.session_bind (Within.node?_bind hs ?_)
  split
  · exact Within.pure _
  split
  · exact Within.pure _
  refine Within.session_bind ?_
  split
  · exact Within.pure _
  · rename_i hbusy
    refine (within_removeAt hs hbusy fun q hq _ => ?_).bind fun _ _ => Within.pure _
    exact .inl ⟨rfl, operand, hoperand, hq⟩

/-- Below an empty directory there is no node, so it goes alone. -/
theorem within_rmdirOne {operand : String} (hoperand : operand ∈ args)
    (hs : s.fileSystem.root.Whole) : Within .rmdir args now s (rmdirOne operand) := by
  refine Within.session_bind (Within.node?_bind hs ?_)
  split
  · exact Within.pure _
  rename_i node hat
  split
  · exact Within.pure _
  rename_i hdir
  split
  · exact Within.pure _
  rename_i hempty
  refine Within.session_bind ?_
  split
  · exact Within.pure _
  rename_i hbusy
  refine (within_removeAt hs hbusy fun q hq hnode => ?_).bind fun _ _ => Within.pure _
  obtain ⟨r, rfl⟩ := hq
  cases r with
  | nil =>
    rw [List.append_nil, Node.sightAt_of_at? hat]
    cases node with
    | file info content => exact absurd rfl hdir
    | directory info entries => exact .inr ⟨rfl, rfl, operand, hoperand, rfl⟩
    | hollow info => exact .inr ⟨rfl, rfl, operand, hoperand, rfl⟩
  | cons name rest =>
    have hentries : node.entries = [] := by simpa using hempty
    rw [Node.isNode_sightAt, Node.at?_append, hat, Option.bind_some, Node.at?_cons, hentries]
      at hnode
    cases hnode

/-! ## Moving around -/

/-- Another working directory changes nothing else. -/
theorem frame_enter (path : Path) :
    Frame .cd args s { s with fileSystem := { s.fileSystem with cwd := path } } :=
  ⟨id, fun _ => .refl _, fun hb => absurd rfl hb, fun _ => rfl, fun _ => rfl⟩

/-- A change of directory stays within the frame of `cd`. -/
theorem within_runCd (args : List String) (hs : s.fileSystem.root.Whole) :
    Within .cd args now s (runCd args) := by
  cases args with
  | nil =>
    refine Within.node?_bind hs ?_
    split
    · split
      · exact Within.modify_bind (frame_enter _) (Within.pure _)
      · exact Within.pure _
    · exact Within.pure _
  | cons target rest =>
    refine Within.session_bind (Within.node?_bind hs ?_)
    split
    · exact Within.pure _
    · split
      · exact Within.modify_bind (frame_enter _) (Within.pure _)
      · exact Within.pure _

/-! ## Aliases and variables -/

/-- The commands that handle aliases may replace them all. -/
theorem frame_aliases (hb : b ∈ [.defineAlias, .removeAliases, .source]) (aliases : Aliases) :
    Frame b args s { s with aliases } :=
  Frame.of_settings rfl (absurd hb) fun _ => rfl

/-- The commands that handle variables may replace them all. -/
theorem frame_environment (hb : b ∈ [.exportVariables, .unsetVariables, .source])
    (environment : Environment) : Frame b args s { s with environment } :=
  Frame.of_settings rfl (fun _ => rfl) (absurd hb)

/-- One definition stays within the frame of `alias`. -/
theorem within_defineOne (name command : String) :
    Within .defineAlias args now s (defineOne name command) := by
  unfold defineOne
  split
  · exact Within.pure _
  refine Within.now_bind (Within.session_bind ?_)
  split
  · exact Within.modify_bind (frame_aliases (by decide) _) (Within.pure _)
  · exact Frame.refl s

/-- So does a list of arguments. -/
theorem within_aliasArguments (shown rest : List String) :
    Within .defineAlias args now s (aliasArguments shown rest) := by
  induction rest generalizing shown s with
  | nil => exact Within.pure _
  | cons arg rest ih =>
    unfold aliasArguments
    split
    · refine (within_defineOne _ _).bind fun message _ => ?_
      cases message with
      | some message => exact Within.pure _
      | none => exact ih shown
    · refine Within.session_bind ?_
      split
      · exact Within.pure _
      · exact ih _

/-- The whole command stays within its frame: `alias` changes aliases only. -/
theorem within_runAlias (args : List String) : Within .defineAlias args now s (runAlias args) := by
  unfold runAlias
  split
  · exact Within.query _
  · exact within_aliasArguments [] args

/-- The command `unalias` changes aliases only. -/
theorem within_runUnalias (args : List String) (hs : s.fileSystem.root.Whole) :
    Within .removeAliases args now s (runUnalias args) := by
  unfold runUnalias
  split
  · exact Within.pure _
  · exact Within.modify_bind (frame_aliases (by decide) _) (Within.pure _)
  · refine Within.forEach hs fun name _ s _ => Within.session_bind ?_
    split
    · exact Within.modify_bind (frame_aliases (by decide) _) (Within.pure _)
    · exact Within.pure _

/-- The command `export` changes variables only. -/
theorem within_runExport (args : List String) (hs : s.fileSystem.root.Whole) :
    Within .exportVariables args now s (runExport args) := by
  unfold runExport
  split
  · exact Within.query _
  · refine Within.forEach hs fun arg _ s _ => Within.session_bind ?_
    dsimp only
    split
    · exact Within.pure _
    · exact Within.modify_bind (frame_environment (by decide) _) (Within.pure _)

/-- The command `unset` changes variables only. -/
theorem within_runUnset (args : List String) (hs : s.fileSystem.root.Whole) :
    Within .unsetVariables args now s (runUnset args) := by
  unfold runUnset
  split
  · exact Within.pure _
  · refine Within.forEach hs fun name _ s _ => ?_
    unfold unsetOne
    split
    · exact Within.pure _
    · exact Within.modify_bind (frame_environment (by decide) _) (Within.pure _)

/-- The command `source` changes aliases and variables only. -/
theorem within_runSource (args : List String) : Within .source args now s (runSource args) := by
  cases args with
  | nil => exact Within.pure _
  | cons filename rest =>
    refine Within.query_bind fun content _ => ?_
    split
    · exact Within.pure _
    have hscript (text : String) : Within .source (filename :: rest) now s
        (Session.applyScript text) :=
      Frame.of_settings rfl (absurd (by decide)) (absurd (by decide))
    refine (hscript _).bind fun execution _ => ?_
    dsimp only
    split <;> exact Within.pure _

/-! ## All commands -/

/-- Every command stays within its frame. -/
theorem within_run (b : Builtin) (args : List String) (stdin : Option String)
    (hs : s.fileSystem.root.Whole) : Within b args now s (b.run args stdin) := by
  cases b with
  | defineAlias => exact within_runAlias args
  | cd => exact within_runCd args hs
  | exportVariables => exact within_runExport args hs
  | mkdir =>
    change Within .mkdir args now s (runMkdir args)
    unfold runMkdir
    dsimp only
    split
    · exact Within.pure _
    · exact Within.forEach hs fun operand _ _ hs => within_mkdirOne _ operand hs
  | rm =>
    change Within .rm args now s (runRm args)
    unfold runRm
    dsimp only
    split
    · exact Within.pure _
    · exact Within.forEach hs fun _ hoperand _ hs => within_rmOne _ _ hoperand hs
  | rmdir =>
    change Within .rmdir args now s (runRmdir args)
    unfold runRmdir
    split
    · exact Within.pure _
    · exact Within.forEach hs fun _ hoperand _ hs => within_rmdirOne hoperand hs
  | source => exact within_runSource args
  | touch =>
    change Within .touch args now s (runTouch args)
    unfold runTouch
    split
    · exact Within.pure _
    · exact Within.forEach hs fun filename _ _ hs => within_touchOne filename hs
  | removeAliases => exact within_runUnalias args hs
  | unsetVariables => exact within_runUnset args hs
  -- All others only look at the session.
  | _ => exact Frame.refl s

/-- A command keeps to its frame, whether it succeeds, fails or breaks off. A node that is there
before and after differs at most in the time of its last change; only `touch` and `mkdir` make
nodes, empty files the one and directories the other; only `rm` and `rmdir` remove nodes, the one at
and below its operands, and the other directories that are operands themselves. The working
directory, the aliases and the variables change only under the commands for them. -/
theorem run_stays_in_frame {s : Session} (hs : s.Sound) (b : Builtin) (args : List String)
    (stdin : Option String) (now : Timestamp) :
    let s' := ((b.run args stdin).run now s).session
    ∃ m m', s.fileSystem.Shows m ∧ s'.fileSystem.Shows m' ∧
      (∀ q, (m q).isNode = true → (m' q).isNode = true → ∃ t, m' q = (m q).touch t) ∧
      (∀ q, (m q).isNode = false → (m' q).isNode = true → b.MayAdd (m' q)) ∧
      (∀ q, (m q).isNode = true → (m' q).isNode = false →
        b.MayRemove args s.fileSystem.cwd q (m q)) ∧
      (b ≠ .cd → s'.fileSystem.cwd = s.fileSystem.cwd) ∧
      (b ∉ [.defineAlias, .removeAliases, .source] → s'.aliases = s.aliases) ∧
      (b ∉ [.exportVariables, .unsetVariables, .source] → s'.environment = s.environment) := by
  intro s'
  have hframe : Frame b args s s' := within_run b args stdin hs.fileSystem.whole
  refine ⟨_, _, FileSystem.shows_of_whole hs.fileSystem.whole,
    FileSystem.shows_of_whole (hframe.whole hs.fileSystem.whole), ?_, ?_, ?_, hframe.cwd,
    hframe.aliases, hframe.environment⟩
  · exact fun q => (hframe.tree q).eq_touch
  · exact fun q => (hframe.tree q).mayAdd
  · exact fun q => (hframe.tree q).mayRemove

/-- Removing the documents, up to an operand that is missing, spares the neighbour's home. -/
theorem rm_spares_neighbour :
    let s := Session.new (DefaultTree.fileSystem .epoch)
    let s' := ((run .rm ["-r", "documents", "../user/nowhere"] none).run .epoch s).session
    s.Sound ∧ ∃ m m', s.fileSystem.Shows m ∧ s'.fileSystem.Shows m' ∧
      ∃ t, m' ["home", "guest"] = (m ["home", "guest"]).touch t := by
  intro s s'
  have hs : s.Sound :=
    ⟨DefaultTree.sound_fileSystem .epoch, Table.distinct_nil, Environment.sound_new _ _⟩
  obtain ⟨m, m', hm, hm', hkept, -, hremoved, -⟩ :=
    run_stays_in_frame hs .rm ["-r", "documents", "../user/nowhere"] none .epoch
  have hbefore : (m ["home", "guest"]).isNode = true := by
    rw [← Except.ok.inj (hm ["home", "guest"])]
    rfl
  have hafter : (m' ["home", "guest"]).isNode = true := by
    rw [← Bool.not_eq_false]
    intro hgone
    rcases hremoved _ hbefore hgone with ⟨-, hoperand⟩ | ⟨hb, -⟩
    · revert hoperand
      decide +kernel
    · cases hb
  exact ⟨hs, m, m', hm, hm', hkept _ hbefore hafter⟩

end Builtin

end VirtualShell
