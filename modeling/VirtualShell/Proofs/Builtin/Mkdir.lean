import VirtualShell.Proofs.Builtin.Frame
import VirtualShell.Proofs.Execution.Ceilings
import VirtualShell.Proofs.Session.WholeTree

/-!
# Directories are made as a whole or not at all

`mkdir` with parents goes down a path and makes what is missing, name by name, and asks the limits
before each name. Still nothing is left half made: a mistake can only be found before the first
directory is made (`run_makeParents`). Behind that one the way leads through directories that have
just been made and are empty, so nothing stands in the way, there is room for an entry, and the tree
has not grown (`run_makeParents_of_empty`).

What is seen afterwards is the map with the missing directories added (`Sights.makeBelow`): they are
seen along the path, the directory that the first of them stands in is noted as changed, and all
else is seen as before.
-/

namespace VirtualShell

/-! ## The map with directories made -/

namespace Sights

variable {m : Sights} {now : Timestamp} {place : Path} {names : List String}

/-- The map in which directories with these names have been made, one in the other, below the
directory at a path. -/
def makeBelow (m : Sights) (now : Timestamp) (place : Path) (names : List String) : Sights :=
  fun q =>
    if place <+: q ∧ q ≠ place ∧ q <+: place ++ names then .newDirectory now (Builtin.lastName q)
    else if q = place ∧ names ≠ [] then (m q).touch now
    else m q

/-- Outside the place, nothing changes. -/
theorem makeBelow_of_not_isPrefix {q : Path} (h : ¬ place <+: q) :
    m.makeBelow now place names q = m q := by
  have hplace : q ≠ place := fun heq => h (heq ▸ List.prefix_rfl)
  rw [makeBelow, if_neg fun hc => h hc.1, if_neg fun hc => hplace hc.1]

/-- The place itself is touched where something is made below it. -/
theorem makeBelow_self :
    m.makeBelow now place names place = if names = [] then m place else (m place).touch now := by
  rw [makeBelow, if_neg fun hc => hc.2.1 rfl]
  by_cases hnames : names = [] <;> simp [hnames]

/-- Along the names below the place there are new directories, and beside them nothing changes. -/
theorem makeBelow_cons (name : String) (rest : Path) :
    m.makeBelow now place names (place ++ name :: rest)
      = if name :: rest <+: names then
          .newDirectory now (Builtin.lastName (place ++ name :: rest))
        else m (place ++ name :: rest) := by
  have hne : place ++ name :: rest ≠ place := by simp
  simp only [makeBelow, List.prefix_append, List.prefix_append_right_inj, hne, true_and, ne_eq,
    not_false_eq_true, false_and, if_false]

/-- Without names nothing is made. -/
theorem makeBelow_nil : m.makeBelow now place [] = m := by
  funext q
  cases place.seenFrom q with
  | elsewhere hq => exact makeBelow_of_not_isPrefix hq
  | there => rw [makeBelow_self, if_pos rfl]
  | below name rest => rw [makeBelow_cons, if_neg (by simp)]

/-- Directories can be made one after another. -/
theorem makeBelow_makeBelow (name : String) (rest : List String) :
    (m.makeBelow now place [name]).makeBelow now (place ++ [name]) rest
      = m.makeBelow now place (name :: rest) := by
  funext q
  cases place.seenFrom q with
  | elsewhere hq =>
    have hbelow : ¬ place ++ [name] <+: q := fun h => hq ((List.prefix_append _ _).trans h)
    rw [makeBelow_of_not_isPrefix hbelow, makeBelow_of_not_isPrefix hq,
      makeBelow_of_not_isPrefix hq]
  | there =>
    rw [makeBelow_of_not_isPrefix (place.not_entry_isPrefix name), makeBelow_self, makeBelow_self,
      if_neg (List.cons_ne_nil _ _), if_neg (List.cons_ne_nil _ _)]
  | below other below =>
    rw [makeBelow_cons other below]
    by_cases hother : other = name
    · subst hother
      cases below with
      | nil =>
        have hfirst : [other] <+: other :: rest := ⟨rest, rfl⟩
        rw [makeBelow_self, makeBelow_cons, if_pos List.prefix_rfl, if_pos hfirst]
        -- A directory that has just been made is not changed by making another one in it.
        exact ite_self _
      | cons next below =>
        rw [List.append_cons place other (next :: below), makeBelow_cons,
          ← List.append_cons place other (next :: below), makeBelow_cons]
        simp only [List.cons_prefix_cons, List.prefix_nil, true_and, reduceCtorEq, if_false]
    · rw [makeBelow_of_not_isPrefix (mt Path.entry_isPrefix_iff.mp hother), makeBelow_cons]
      simp only [List.cons_prefix_cons, hother, false_and, if_false]

end Sights

namespace Node

variable {n : Node} {place : Path} {info : NodeInfo} {entries : Table Node} {name : String}

/-- Along a name that a directory has no entry of, nothing is found. -/
theorem sightAt_of_new (hat : n.at? place = some (.directory info entries))
    (hnew : Table.find? entries name = none) (rest : Path) :
    n.sightAt (place ++ name :: rest) = .missing := by
  rw [sightAt_append hat, sightAt_directory_cons, hnew]

/-- Making one directory is an update of the map. -/
theorem update_createDirectory (now : Timestamp)
    (hat : n.at? place = some (.directory info entries))
    (hnew : Table.find? entries name = none) :
    FileSystem.Edit.update now n.sightAt (.createDirectory place name)
      = Sights.makeBelow n.sightAt now place [name] := by
  have hsame (rest : Path) : place ++ name :: rest = place ++ [name] ↔ rest = [] := by simp
  funext q
  rw [FileSystem.Edit.update, Sights.replace, Sights.stamp]
  cases place.seenFrom q with
  | elsewhere hq =>
    have hbelow : ¬ place ++ [name] <+: q := fun h => hq ((List.prefix_append _ _).trans h)
    have hapart : q ≠ place ++ [name] := fun h => hbelow (h ▸ List.prefix_rfl)
    have hne : q ≠ place := fun h => hq (h ▸ List.prefix_rfl)
    rw [if_neg hapart, if_neg hbelow, Function.update_of_ne hne,
      Sights.makeBelow_of_not_isPrefix hq]
  | there =>
    have hlonger : place ≠ place ++ [name] := by simp
    rw [if_neg hlonger, if_neg (place.not_entry_isPrefix name), Function.update_self,
      Sights.makeBelow_self, if_neg (List.cons_ne_nil _ _)]
  | below other below =>
    have hne : place ++ other :: below ≠ place := by simp
    rw [Sights.makeBelow_cons, Function.update_of_ne hne]
    by_cases hother : other = name
    · subst hother
      rw [if_pos (Path.entry_isPrefix_iff.mpr rfl), sightAt_of_new hat hnew]
      cases below with
      | nil =>
        rw [if_pos rfl, if_pos List.prefix_rfl, Builtin.lastName, List.getLast?_concat]
        rfl
      | cons next below => simp [hsame]
    · have hbeside : ¬ place ++ [name] <+: place ++ other :: below :=
        mt Path.entry_isPrefix_iff.mp hother
      have hapart : place ++ other :: below ≠ place ++ [name] :=
        fun h => hbeside (h ▸ List.prefix_rfl)
      rw [if_neg hapart, if_neg hbeside]
      simp only [List.cons_prefix_cons, hother, false_and, if_false]

/-- On the way to a directory there are only directories. -/
theorem HasDirectory.of_isPrefix {p q : Path} (h : n.HasDirectory p) (hqp : q <+: p) :
    n.HasDirectory q := by
  obtain ⟨rest, rfl⟩ := hqp
  obtain ⟨d, hd, hdir⟩ := h
  rw [at?_append] at hd
  obtain ⟨k, hk, hrest⟩ := Option.bind_eq_some_iff.mp hd
  refine ⟨k, hk, ?_⟩
  cases rest with
  | nil =>
    cases hrest
    exact hdir
  | cons name rest =>
    rw [at?_cons] at hrest
    obtain ⟨child, hchild, -⟩ := Option.bind_eq_some_iff.mp hrest
    obtain ⟨info, entries, rfl, -⟩ := eq_directory_of_find? hchild
    rfl

end Node

namespace Builtin

open Shell

variable {now : Timestamp} {s : Session} {path place : Path} {info : NodeInfo}
  {entries : Table Node} {name : String}

/-! ## Making one directory -/

/-- Whether a path would exceed a limit is found out without a change. -/
theorem run_excessAt (h : s.fileSystem.root.Whole) (path : Path) :
    (excessAt path).run now s
      = { outcome := .ok ((Limits.excess? s.fileSystem path 0 none).map Limits.Excess.message)
          session := s } := by
  change Step.mk (((Limits.check s.fileSystem path 0).map _).mapError Fault.tree) s [] = _
  rw [Limits.check_eq h]
  rfl

/-- A new directory is empty and takes no room in the tree. -/
theorem run_createDirectory (now : Timestamp) (h : s.fileSystem.root.Whole)
    (hat : s.fileSystem.root.at? place = some (.directory info entries))
    (hnew : Table.find? entries name = none) :
    ∃ root : Node,
      (changeTree fun now fs => fs.createDirectory now place name).run now s
          = { outcome := .ok true,
              session := { s with fileSystem := { s.fileSystem with root } } } ∧
        root.Whole ∧ root.at? (place ++ [name]) = some (.newDirectory now name) ∧
        root.totalSize = s.fileSystem.root.totalSize ∧
        root.sightAt = Sights.makeBelow s.fileSystem.root.sightAt now place [name] := by
  have hdir : (s.fileSystem.root.sightAt place).isDirectory = true := by
    rw [Node.sightAt_of_at? hat]
    rfl
  have hyields : s.fileSystem.Yields (s.fileSystem.createDirectory now place name)
      (FileSystem.Edit.update now s.fileSystem.root.sightAt (.createDirectory place name)) :=
    FileSystem.yields_createDirectory h hdir
  obtain ⟨root, hcreate, hwhole, hsights⟩ := hyields
  have hadd : s.fileSystem.createDirectory now place name = _ :=
    FileSystem.addEntry_of_directory h hat (Node.newDirectory now name)
  obtain rfl : s.fileSystem.root.modifyAt _ place = root := by
    have hsame := hadd.symm.trans hcreate
    exact congrArg FileSystem.root (Option.some.inj (Except.ok.inj hsame))
  refine ⟨_, ?_, hwhole, ?_, Node.totalSize_putAt hat hnew,
    hsights.trans (Node.update_createDirectory now hat hnew)⟩
  · change changeTree _ now s = _
    rw [changeTree, hcreate]
  · rw [Node.at?_modifyAt_append, hat, Option.bind_some, Node.at?_singleton, Node.entries_touch]
    exact Table.find?_put_self _ _ _

/-! ## Making directories along a path -/

/-- The directories along a path have been made as far as they were missing: all of them below one
that was there, and nothing else has changed. -/
def Makes (now : Timestamp) (s : Session) (path : Path) (step : Step (Option String)) : Prop :=
  ∃ (place : Path) (names : List String) (root : Node),
    path = place ++ names ∧ s.fileSystem.root.HasDirectory place ∧
      (∀ name ∈ names.head?, s.fileSystem.root.at? (place ++ [name]) = none) ∧
      step = { outcome := .ok none,
               session := { s with fileSystem := { s.fileSystem with root } } } ∧
      root.Whole ∧ root.sightAt = Sights.makeBelow s.fileSystem.root.sightAt now place names

/-- There is a message, and nothing has changed. -/
def Refuses (s : Session) (step : Step (Option String)) : Prop :=
  ∃ message, step = { outcome := .ok (some message), session := s }

/-- In an empty directory nothing stands in the way of further ones. -/
theorem check_of_empty (h : s.fileSystem.root.Whole)
    (hat : s.fileSystem.root.at? place = some (.directory info []))
    (hdepth : (place ++ [name]).length ≤ Limits.maxDepth)
    (hsize : s.fileSystem.root.totalSize ≤ Limits.maxTreeSize) :
    Limits.excess? s.fileSystem (place ++ [name]) 0 none = none := by
  have hcheck : Limits.check s.fileSystem (place ++ [name]) 0 = .ok none := by
    rw [Limits.check_eq_ok_none_iff h]
    refine ⟨hdepth, Nat.zero_le _, fun _ parent hparent => ?_, ?_⟩
    · rw [List.dropLast_concat, hat] at hparent
      cases hparent
      show 0 < Limits.maxEntries
      decide
    · rw [Option.map_none, Option.getD_none]
      omega
  rw [Limits.check_eq h] at hcheck
  exact Except.ok.inj hcheck

/-- Below an empty directory all directories are made. -/
theorem run_makeParents_of_empty (now : Timestamp) (operand : String) {names : List String}
    (h : s.fileSystem.root.Whole)
    (hat : s.fileSystem.root.at? place = some (.directory info []))
    (hdepth : (place ++ names).length ≤ Limits.maxDepth)
    (hsize : s.fileSystem.root.totalSize ≤ Limits.maxTreeSize) :
    ∃ root : Node,
      (makeParents operand place names).run now s
          = { outcome := .ok none,
              session := { s with fileSystem := { s.fileSystem with root } } } ∧
        root.Whole ∧ root.sightAt = Sights.makeBelow s.fileSystem.root.sightAt now place names := by
  -- Induction on the names; the directory that is made for the first one is the empty directory for
  -- the others.
  induction names generalizing s place info with
  | nil => exact ⟨s.fileSystem.root, rfl, h, Sights.makeBelow_nil.symm⟩
  | cons name rest ih =>
    have hmissing : s.fileSystem.root.at? (place ++ [name]) = none := Node.at?_entry name hat
    rw [List.append_cons] at hdepth
    have hfirst : (place ++ [name]).length ≤ Limits.maxDepth := by
      rw [List.length_append] at hdepth
      omega
    have hfree := check_of_empty h hat hfirst hsize
    obtain ⟨made, hmade, hwhole, hempty, htotal, hsights⟩ :=
      run_createDirectory now h hat rfl
    have hrest := ih (s := { s with fileSystem := { s.fileSystem with root := made } }) hwhole
      hempty hdepth (htotal ▸ hsize)
    obtain ⟨root, hrun, hroot, hbelow⟩ := hrest
    refine ⟨root, ?_, hroot, ?_⟩
    · rw [makeParents, run_bind_of_run (run_node? h _), hmissing]
      dsimp only
      rw [run_bind_of_run (run_excessAt h _), hfree]
      dsimp only [Option.map_none]
      rw [run_bind_of_run hmade, hrun]
    · rw [hbelow, hsights, Sights.makeBelow_makeBelow]

/-- The directories along a path can be made: the path is not too deep, there are only directories
on it as far as it leads, and the first one that is missing breaks no limit. -/
structure CanMakeAlong (fs : FileSystem) (m : Sights) (path : Path) : Prop where
  depth : path.length ≤ Limits.maxDepth
  way : ∀ q, q <+: path → (m q).isNode = true → (m q).isDirectory = true
  room : ∀ q name, q ++ [name] <+: path → (m q).isDirectory = true →
    (m (q ++ [name])).isNode = false → Limits.check fs (q ++ [name]) 0 = .ok none

/-- A single directory can be made at a path: there is a directory for it, no entry is in its place,
and it breaks no limit. -/
structure CanMakeAt (fs : FileSystem) (m : Sights) (path : Path) : Prop where
  notRoot : path ≠ []
  parent : (m path.dropLast).isDirectory = true
  free : (m path).isNode = false
  room : Limits.check fs path 0 = .ok none

/-- A directory is a node. -/
theorem isNode_of_isDirectory {x : Sight} (h : x.isDirectory = true) : x.isNode = true := by
  cases x with
  | directory info => rfl
  | file info content => rfl
  | missing => cases h
  | notADirectory => cases h

/-- The whole way is there. -/
theorem canMakeAlong_of_hasDirectory (hdir : s.fileSystem.root.HasDirectory path)
    (hdepth : path.length ≤ Limits.maxDepth) :
    CanMakeAlong s.fileSystem s.fileSystem.root.sightAt path := by
  refine ⟨hdepth, fun q hq _ => (hdir.of_isPrefix hq).sightAt, fun q name hq _ hmissing => ?_⟩
  have hnode := isNode_of_isDirectory (hdir.of_isPrefix hq).sightAt
  rw [hmissing] at hnode
  cases hnode

/-- The way is there up to a directory in which there is room for the next one. -/
theorem canMakeAlong_of_missing {rest : List String} (hdir : s.fileSystem.root.HasDirectory place)
    (hmissing : s.fileSystem.root.at? (place ++ [name]) = none)
    (hdepth : (place ++ name :: rest).length ≤ Limits.maxDepth)
    (hcheck : Limits.check s.fileSystem (place ++ [name]) 0 = .ok none) :
    CanMakeAlong s.fileSystem s.fileSystem.root.sightAt (place ++ name :: rest) := by
  -- A prefix of the path leads to a directory that was there, or through the missing entry.
  have hsplit (q : Path) (hq : q <+: place ++ name :: rest) :
      q <+: place ∨ (s.fileSystem.root.sightAt q).isNode = false := by
    rw [List.append_cons] at hq
    rcases List.prefix_or_prefix_of_prefix hq (List.prefix_append _ _) with hshort | hlong
    · rcases List.prefix_concat_iff.mp hshort with rfl | hshorter
      · exact .inr (Node.isNode_sightAt_of_isPrefix hmissing List.prefix_rfl)
      · exact .inl hshorter
    · exact .inr (Node.isNode_sightAt_of_isPrefix hmissing hlong)
  refine ⟨hdepth, fun q hq hnode => ?_, fun q other hq hq' hother => ?_⟩
  · rcases hsplit q hq with hthere | hgone
    · exact (hdir.of_isPrefix hthere).sightAt
    · rw [hgone] at hnode
      cases hnode
  · rcases hsplit q ((List.prefix_append _ _).trans hq) with hthere | hgone
    · obtain ⟨later, rfl⟩ := hthere
      cases later with
      | nil =>
        rw [List.append_nil] at hq hcheck
        rw [List.prefix_append_right_inj, List.cons_prefix_cons] at hq
        rwa [hq.1]
      | cons next later =>
        rw [List.append_assoc, List.prefix_append_right_inj, List.cons_append,
          List.cons_prefix_cons] at hq
        have hway : q ++ [other] <+: q ++ next :: later := ⟨later, by simp [hq.1]⟩
        have hnode := isNode_of_isDirectory (hdir.of_isPrefix hway).sightAt
        rw [hother] at hnode
        cases hnode
    · rw [isNode_of_isDirectory hq'] at hgone
      cases hgone

/-- Where the next directory is missing, the limits are asked for it, and if they allow it then all
the others are made as well. -/
theorem run_makeParents_of_missing (now : Timestamp) (operand : String) {rest : List String}
    (h : s.fileSystem.root.Whole) (hdir : s.fileSystem.root.HasDirectory place)
    (hmissing : s.fileSystem.root.at? (place ++ [name]) = none)
    (hdepth : (place ++ name :: rest).length ≤ Limits.maxDepth) :
    let step := (makeParents operand place (name :: rest)).run now s
    Limits.check s.fileSystem (place ++ [name]) 0 = .ok none ∧
        Makes now s (place ++ name :: rest) step ∨
      Limits.check s.fileSystem (place ++ [name]) 0 ≠ .ok none ∧ Refuses s step := by
  intro step
  have hfirst : step = _ := run_bind_of_run ((run_node? h _).trans (by rw [hmissing])) _
  have hcheck := Limits.check_eq h (place ++ [name]) 0 none
  cases hexcess : Limits.excess? s.fileSystem (place ++ [name]) 0 none with
  | some excess =>
    rw [hexcess] at hcheck
    refine .inr ⟨fun hnone => ?_, _, hfirst.trans
      (run_bind_of_run ((run_excessAt h _).trans (by rw [hexcess])) _)⟩
    rw [hcheck] at hnone
    cases hnone
  | none =>
    rw [hexcess] at hcheck
    obtain ⟨info, entries, hplace⟩ := hdir.eq_directory h
    have hnew : Table.find? entries name = none := by
      rw [← Node.at?_entry name hplace, hmissing]
    obtain ⟨made, hmade, hwhole, hempty, htotal, hsights⟩ :=
      run_createDirectory now h hplace hnew
    -- The limit on the size of the tree has been asked for the first directory only.
    have hsize : made.totalSize ≤ Limits.maxTreeSize := by
      obtain ⟨-, -, -, hsum⟩ := (Limits.check_eq_ok_none_iff h).mp hcheck
      rw [Option.map_none, Option.getD_none] at hsum
      omega
    rw [List.append_cons] at hdepth
    have hothers := run_makeParents_of_empty now operand
      (s := { s with fileSystem := { s.fileSystem with root := made } }) hwhole hempty hdepth hsize
    obtain ⟨root, hrun, hroot, hbelow⟩ := hothers
    refine .inl ⟨hcheck, place, name :: rest, root, rfl, hdir, ?_, ?_, hroot, ?_⟩
    · rintro other ⟨⟩
      exact hmissing
    · refine hfirst.trans ?_
      rw [run_bind_of_run ((run_excessAt h _).trans (by rw [hexcess])) _]
      exact (run_bind_of_run hmade _).trans hrun
    · rw [hbelow, hsights, Sights.makeBelow_makeBelow]

/-- Going down a path, a mistake is found before the first directory is made, or none at all. -/
theorem run_makeParents (operand : String) {names : List String} (h : s.fileSystem.root.Whole)
    (hdir : s.fileSystem.root.HasDirectory place)
    (hdepth : (place ++ names).length ≤ Limits.maxDepth) :
    let step := (makeParents operand place names).run now s
    CanMakeAlong s.fileSystem s.fileSystem.root.sightAt (place ++ names) ∧
        Makes now s (place ++ names) step ∨
      ¬ CanMakeAlong s.fileSystem s.fileSystem.root.sightAt (place ++ names) ∧ Refuses s step := by
  intro step
  induction names generalizing place with
  | nil =>
    rw [List.append_nil] at hdepth ⊢
    exact .inl ⟨canMakeAlong_of_hasDirectory hdir hdepth, place, [], s.fileSystem.root,
      (List.append_nil _).symm, hdir, nofun, rfl, h, Sights.makeBelow_nil.symm⟩
  | cons name rest ih =>
    have hway : place ++ [name] <+: place ++ name :: rest := ⟨rest, by simp⟩
    cases hat : s.fileSystem.root.at? (place ++ [name]) with
    | none =>
      have hmissing := run_makeParents_of_missing now operand h hdir hat hdepth
      refine hmissing.imp (fun hmakes => ?_) fun hrefuses => ⟨fun hcan => hrefuses.1 ?_, hrefuses.2⟩
      · exact ⟨canMakeAlong_of_missing hdir hat hdepth hmakes.1, hmakes.2⟩
      · exact hcan.room place name hway hdir.sightAt
          (Node.isNode_sightAt_of_isPrefix hat List.prefix_rfl)
    | some node =>
      have hfirst : step = _ := run_bind_of_run ((run_node? h _).trans (by rw [hat])) _
      dsimp only at hfirst
      cases hnode : node.isDirectory with
      | true =>
        rw [hnode, if_pos rfl] at hfirst
        rw [List.append_cons] at hdepth ⊢
        rw [hfirst]
        exact ih ⟨node, hat, hnode⟩ hdepth
      | false =>
        rw [hnode, if_neg Bool.false_ne_true] at hfirst
        refine .inr ⟨fun hcan => ?_, _, hfirst⟩
        have hdirectory := hcan.way (place ++ [name]) hway (by rw [Node.isNode_sightAt, hat]; rfl)
        rw [Node.sightAt_of_at? hat] at hdirectory
        cases node with
        | file info content => cases hdirectory
        | directory info entries => cases hnode
        | hollow info => cases hnode

/-! ## Making a directory where there is one for it -/

/-- Making one directory adds it, or is refused and changes nothing. -/
theorem run_makeDirectory (operand : String) (h : s.fileSystem.root.Whole) (hpath : path ≠ []) :
    let step := (makeDirectory operand path).run now s
    CanMakeAt s.fileSystem s.fileSystem.root.sightAt path ∧ Makes now s path step ∨
      ¬ CanMakeAt s.fileSystem s.fileSystem.root.sightAt path ∧ Refuses s step := by
  intro step
  have hsplit := dropLast_append_lastName hpath
  have hlook : step = _ := run_bind_of_run (run_node? h path.dropLast) _
  by_cases hparent : ∃ info entries,
      s.fileSystem.root.at? path.dropLast = some (.directory info entries)
  · obtain ⟨info, entries, hat⟩ := hparent
    have hentry : s.fileSystem.root.at? path = Table.find? entries (lastName path) := by
      rw [← Node.at?_entry _ hat, hsplit]
    rw [hat] at hlook
    dsimp only at hlook
    cases hmem : Table.contains entries (lastName path) with
    | true =>
      rw [hmem, if_pos rfl] at hlook
      refine .inr ⟨fun hcan => ?_, cannotCreate operand "File exists", hlook⟩
      have hfree := hcan.free
      rw [Node.isNode_sightAt, hentry] at hfree
      rw [Table.contains, hfree] at hmem
      cases hmem
    | false =>
      have hnew : Table.find? entries (lastName path) = none :=
        Table.contains_eq_false_iff.mp hmem
      rw [hmem, if_neg Bool.false_ne_true] at hlook
      have hcheck := Limits.check_eq h path 0 none
      cases hexcess : Limits.excess? s.fileSystem path 0 none with
      | some excess =>
        refine .inr ⟨fun hcan => ?_, _, hlook.trans
          (run_bind_of_run ((run_excessAt h _).trans (by rw [hexcess])) _)⟩
        rw [hcan.room, hexcess] at hcheck
        cases hcheck
      | none =>
        rw [hexcess] at hcheck
        obtain ⟨root, hmade, hwhole, -, -, hsights⟩ :=
          run_createDirectory now h hat hnew
        have hfree : s.fileSystem.root.at? path = none := hentry.trans hnew
        have hdir : s.fileSystem.root.HasDirectory path.dropLast := ⟨_, hat, rfl⟩
        refine .inl ⟨⟨hpath, hdir.sightAt, ?_, hcheck⟩, path.dropLast, [lastName path], root,
          hsplit.symm, hdir, ?_, ?_, hwhole, hsights⟩
        · exact Node.isNode_sightAt_of_isPrefix hfree List.prefix_rfl
        · rintro other ⟨⟩
          rwa [hsplit]
        · refine hlook.trans ?_
          rw [run_bind_of_run ((run_excessAt h _).trans (by rw [hexcess])) _]
          exact run_bind_of_run hmade _
  · refine .inr ⟨fun hcan => hparent ((Node.isDirectory_sightAt_iff h _).mp hcan.parent), ?_⟩
    cases hat : s.fileSystem.root.at? path.dropLast with
    | none => exact ⟨_, hlook.trans (by rw [hat]; rfl)⟩
    | some node =>
      cases node with
      | file info content => exact ⟨_, hlook.trans (by rw [hat]; rfl)⟩
      | directory info entries => exact absurd ⟨info, entries, hat⟩ hparent
      | hollow info => exact absurd hat (h _ _)

/-! ## What is seen afterwards -/

/-- What is seen where the directories along a path have been made as far as they were missing. -/
structure AddsDirectories (now : Timestamp) (m m' : Sights) (path : Path) : Prop where
  /-- The path leads to a directory, and so does the way to it. -/
  there : ∀ q, q <+: path → (m' q).isDirectory = true
  /-- What was missing on the way is new. -/
  made : ∀ q, q <+: path → (m q).isNode = false → m' q = .newDirectory now (lastName q)
  /-- Every node is still there; the one in which the first new directory stands was changed now. -/
  kept : ∀ q, (m q).isNode = true → m' q = m q ∨
    m' q = (m q).touch now ∧ ∃ name, q ++ [name] <+: path ∧ (m (q ++ [name])).isNode = false
  /-- Nothing else is new. -/
  elsewhere : ∀ q, ¬ q <+: path → (m q).isNode = false → m' q = m q

/-- Making all directories below a place adds just these. -/
theorem addsDirectories_makeBelow {n : Node} {names : List String} (hdir : n.HasDirectory place)
    (hmissing : ∀ name ∈ names.head?, n.at? (place ++ [name]) = none) :
    AddsDirectories now n.sightAt (Sights.makeBelow n.sightAt now place names)
      (place ++ names) := by
  have hthere (q : Path) (hq : q <+: place) : (n.sightAt q).isDirectory = true :=
    (hdir.of_isPrefix hq).sightAt
  have habove (q : Path) (hq : q <+: place ++ names) (hplace : ¬ place <+: q) :
      (n.sightAt q).isDirectory = true :=
    hthere q ((List.prefix_or_prefix_of_prefix hq (List.prefix_append _ _)).resolve_right hplace)
  -- Below the names that are made there was no node.
  have hgone (name : String) (rest : Path) (hnames : name :: rest <+: names) :
      (n.sightAt (place ++ name :: rest)).isNode = false := by
    obtain ⟨later, rfl⟩ := hnames
    exact Node.isNode_sightAt_of_isPrefix (hmissing name rfl) ⟨rest, by simp⟩
  constructor
  case there =>
    intro q hq
    cases place.seenFrom q with
    | elsewhere hplace =>
      rw [Sights.makeBelow_of_not_isPrefix hplace]
      exact habove q hq hplace
    | there =>
      rw [Sights.makeBelow_self]
      split
      · exact hthere place List.prefix_rfl
      · rw [Sight.isDirectory_touch]
        exact hthere place List.prefix_rfl
    | below name rest =>
      rw [Sights.makeBelow_cons, if_pos ((List.prefix_append_right_inj _).mp hq)]
      rfl
  case made =>
    intro q hq hnode
    cases place.seenFrom q with
    | elsewhere hplace =>
      rw [isNode_of_isDirectory (habove q hq hplace)] at hnode
      cases hnode
    | there =>
      rw [isNode_of_isDirectory (hthere place List.prefix_rfl)] at hnode
      cases hnode
    | below name rest =>
      rw [Sights.makeBelow_cons, if_pos ((List.prefix_append_right_inj _).mp hq)]
  case kept =>
    intro q hnode
    cases place.seenFrom q with
    | elsewhere hplace => exact .inl (Sights.makeBelow_of_not_isPrefix hplace)
    | there =>
      rw [Sights.makeBelow_self]
      cases names with
      | nil => exact .inl rfl
      | cons name names =>
        have hfirst : [name] <+: name :: names := ⟨names, rfl⟩
        exact .inr ⟨rfl, name, (List.prefix_append_right_inj _).mpr hfirst, hgone name [] hfirst⟩
    | below name rest =>
      by_cases hnames : name :: rest <+: names
      · rw [hgone name rest hnames] at hnode
        cases hnode
      · exact .inl (by rw [Sights.makeBelow_cons, if_neg hnames])
  case elsewhere =>
    intro q hq _
    cases place.seenFrom q with
    | elsewhere hplace => exact Sights.makeBelow_of_not_isPrefix hplace
    | there => exact absurd (List.prefix_append place names) hq
    | below name rest =>
      rw [Sights.makeBelow_cons, if_neg (mt (List.prefix_append_right_inj _).mpr hq)]

/-- A path is dealt with as a whole or not at all. -/
theorem run_mkdirOne (now : Timestamp) (parents : Bool) (operand : String)
    (hs : s.fileSystem.Sound) :
    let path := s.fileSystem.resolve operand
    let step := (mkdirOne parents operand).run now s
    let can := if parents then CanMakeAlong s.fileSystem s.fileSystem.root.sightAt path
      else CanMakeAt s.fileSystem s.fileSystem.root.sightAt path
    can ∧ Makes now s path step ∨ ¬ can ∧ Refuses s step := by
  intro path step can
  have hroot : s.fileSystem.root.HasDirectory [] := ⟨_, rfl, hs.root⟩
  have hresolve : s.fileSystem.resolve operand = path := rfl
  have hlook : step = (mkdirOne parents operand).run now s := rfl
  rw [mkdirOne, run_session_bind] at hlook
  dsimp only at hlook
  rw [hresolve] at hlook
  clear_value step path
  by_cases hpath : path = []
  · subst hpath
    cases parents with
    | true =>
      exact .inl ⟨canMakeAlong_of_hasDirectory hroot (Nat.zero_le _), [], [], s.fileSystem.root,
        rfl, hroot, nofun, hlook, hs.whole, Sights.makeBelow_nil.symm⟩
    | false => exact .inr ⟨fun hcan => hcan.notRoot rfl, _, hlook⟩
  rw [if_neg (by simpa using hpath)] at hlook
  by_cases hdepth : Limits.maxDepth < path.length
  · rw [if_pos hdepth] at hlook
    refine .inr ⟨fun hcan => ?_, "mkdir: " ++ Limits.tooDeep, hlook⟩
    have hlow : path.length ≤ Limits.maxDepth := by
      cases parents with
      | true => exact hcan.depth
      | false => exact ((Limits.check_eq_ok_none_iff hs.whole).mp hcan.room).1
    omega
  rw [if_neg hdepth] at hlook
  cases parents with
  | true =>
    rw [hlook]
    exact run_makeParents operand hs.whole hroot (Nat.not_lt.mp hdepth)
  | false =>
    rw [hlook]
    exact run_makeDirectory operand hs.whole hpath

/-- Making a directory, with or without those above it, succeeds just where it can be made; then the
path leads to a directory, the directories on the way that were missing have been made, every node
that was there is kept, and nothing else has changed. Everywhere else there is a message, and the
session is as it was. -/
theorem mkdir_all_or_nothing {s : Session} (hs : s.fileSystem.Sound) (parents : Bool)
    (operand : String) (now : Timestamp) :
    let path := s.fileSystem.resolve operand
    let step := (mkdirOne parents operand).run now s
    ∃ m message, s.fileSystem.Shows m ∧ step.outcome = .ok message ∧
      (message = none ↔ if parents then CanMakeAlong s.fileSystem m path
        else CanMakeAt s.fileSystem m path) ∧
      (message ≠ none → step.session = s) ∧
      (message = none → ∃ m' root,
        step.session = { s with fileSystem := { s.fileSystem with root } } ∧
          step.session.fileSystem.Shows m' ∧ AddsDirectories now m m' path) := by
  intro path step
  rcases run_mkdirOne now parents operand hs with ⟨hcan, hmakes⟩ | ⟨hcannot, hrefuses⟩
  · obtain ⟨place, names, root, hpath, hdir, hmissing, hstep, hwhole, hsights⟩ := hmakes
    have hsession : step.session = { s with fileSystem := { s.fileSystem with root } } :=
      congrArg Step.session hstep
    refine ⟨s.fileSystem.root.sightAt, none, FileSystem.shows_of_whole hs.whole,
      congrArg Step.outcome hstep, iff_of_true rfl hcan, fun hne => absurd rfl hne, fun _ => ?_⟩
    refine ⟨root.sightAt, root, hsession, ?_, ?_⟩
    · rw [hsession]
      exact FileSystem.shows_of_whole hwhole
    · rw [hsights, show path = place ++ names from hpath]
      exact addsDirectories_makeBelow hdir hmissing
  · obtain ⟨message, hstep⟩ := hrefuses
    exact ⟨s.fileSystem.root.sightAt, some message, FileSystem.shows_of_whole hs.whole,
      congrArg Step.outcome hstep, iff_of_false nofun hcannot,
      fun _ => congrArg Step.session hstep, nofun⟩

/-- Two directories are made beside a note, which stays as it was. -/
theorem mkdir_makes_two_directories :
    noteSession.fileSystem.Sound ∧
      ((mkdirOne true "b/c").run .epoch noteSession).outcome = .ok none ∧
      ∃ m m', noteSession.fileSystem.Shows m ∧
        ((mkdirOne true "b/c").run .epoch noteSession).session.fileSystem.Shows m' ∧
        (m ["tmp", "b"]).isNode = false ∧ m' ["tmp", "b"] = .newDirectory .epoch "b" ∧
        m' ["tmp", "b", "c"] = .newDirectory .epoch "c" ∧ m' ["tmp", "a"] = m ["tmp", "a"] := by
  have hresolve : noteSession.fileSystem.resolve "b/c" = ["tmp", "b", "c"] := by decide +kernel
  have hok : ((mkdirOne true "b/c").run .epoch noteSession).outcome.toOption = some none := by
    decide +kernel
  obtain ⟨m, message, hm, hmessage, -, -, hmade⟩ :=
    mkdir_all_or_nothing sound_noteSession true "b/c" .epoch
  have hnone : message = none := by
    rw [hmessage] at hok
    exact Option.some.inj hok
  obtain ⟨m', root, -, hm', hadds⟩ := hmade hnone
  rw [hresolve] at hadds
  have hmissing (q : Path)
      (hq : (noteSession.fileSystem.lookup q).map Lookup.sight = .ok .missing) :
      (m q).isNode = false := by
    rw [Except.ok.inj ((hm q).symm.trans hq)]
    rfl
  have hfile : (m ["tmp", "a"]).isNode = true := by
    rw [← Except.ok.inj (hm ["tmp", "a"])]
    rfl
  have hkept : m' ["tmp", "a"] = m ["tmp", "a"] := by
    rcases hadds.kept _ hfile with hsame | ⟨-, name, hname, -⟩
    · exact hsame
    · simp at hname
  exact ⟨sound_noteSession, hmessage.trans (by rw [hnone]), m, m', hm, hm', hmissing _ rfl,
    hadds.made _ (by decide) (hmissing _ rfl), hadds.made _ (by decide) (hmissing _ rfl), hkept⟩

end Builtin

end VirtualShell
