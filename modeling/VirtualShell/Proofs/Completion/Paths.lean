import Mathlib.Data.List.DropRight
import Mathlib.Data.List.Nodup
import VirtualShell.Completion
import VirtualShell.Proofs.Builtin.Listing
import VirtualShell.Proofs.Text.Sorted

/-!
# Completing paths

A partial path is cut behind its last slash. What stands in front of the cut, the base, names the
directory whose entries can be offered, and what stands behind it is the start that their names must
have. An offered entry is shown behind the base, a directory with a slash at its end, and the texts
are sorted only then. The name of an entry can be told from what is shown of it, because names hold
no slash (`offeredName_shown`): so no text is offered twice, what is offered leads to the entry
itself, and the names can be compared with those of a listing (`completes_entries`).
-/

namespace VirtualShell

open Text

/-! ## Texts -/

/-- A name loses the slash behind it, and nothing else. -/
theorem Text.dropTrailing_slash {s : String} (h : '/' ∉ s.toList) :
    dropTrailing '/' s = s ∧ dropTrailing '/' (s ++ "/") = s := by
  have hkeep : s.toList.rdropWhile (· == '/') = s.toList := by
    rw [List.rdropWhile_eq_self_iff]
    intro hne hlast
    rw [beq_iff_eq] at hlast
    exact h (hlast ▸ List.getLast_mem hne)
  have hdrop : (s ++ "/").toList.rdropWhile (· == '/') = s.toList := by
    have hchars : (s ++ "/").toList = s.toList ++ ['/'] := String.toList_append
    rw [hchars, List.rdropWhile_concat_pos _ _ _ rfl, hkeep]
  constructor
  · change String.ofList (s.toList.rdropWhile (· == '/')) = s
    rw [hkeep, String.ofList_toList]
  · change String.ofList ((s ++ "/").toList.rdropWhile (· == '/')) = s
    rw [hdrop, String.ofList_toList]

namespace Completion

/-! ## The cut -/

/-- A partial path is cut behind its last slash. -/
structure CutAtSlash (partialPath base start : List Char) : Prop where
  append_eq : base ++ start = partialPath
  base : base = [] ∨ base.getLast? = some '/'
  start : '/' ∉ start

/-- Every text is cut at its last slash. -/
theorem exists_cutAtSlash (cs : List Char) : ∃ base start, CutAtSlash cs base start := by
  refine ⟨cs.rdropWhile (· != '/'), cs.rtakeWhile (· != '/'), List.rdropWhile_append_rtakeWhile, ?_,
    fun hmem => absurd (List.mem_rtakeWhile_imp hmem) (by simp)⟩
  rw [or_iff_not_imp_left]
  intro hne
  have hlast := List.rdropWhile_last_not (· != '/') cs hne
  rw [List.getLast?_eq_some_getLast hne]
  simpa using hlast

/-- There is only one such cut. -/
theorem CutAtSlash.splitLastSlash_eq {partialPath base start : List Char}
    (h : CutAtSlash partialPath base start) : splitLastSlash partialPath = (base, start) := by
  obtain ⟨rfl, hbase, hstart⟩ := h
  have hall : ∀ c ∈ start.reverse, (c != '/') = true := by
    intro c hc
    rw [bne_iff_ne]
    rintro rfl
    exact hstart (List.mem_reverse.mp hc)
  have hstop : base.reverse.takeWhile (· != '/') = [] := by
    rcases hbase with rfl | hlast
    · rfl
    · obtain ⟨front, rfl⟩ := List.getLast?_eq_some_iff.mp hlast
      rw [List.reverse_append]
      rfl
  have htail : ((base ++ start).reverse.takeWhile (· != '/')).reverse = start := by
    rw [List.reverse_append, List.takeWhile_append_of_pos hall, hstop, List.append_nil,
      List.reverse_reverse]
  rw [splitLastSlash, htail, List.length_append, Nat.add_sub_cancel, List.take_left]

/-! ## What is offered -/

/-- The directory of which the entries are offered: the one that the base names, or the working
directory. -/
def searched (fs : FileSystem) (base : List Char) : Path :=
  if base.isEmpty then fs.cwd else fs.resolve (String.ofList base)

/-- An entry fits what is wanted and the start of its name. It is not hidden, or a hidden one is
asked for. -/
structure Fits (wanted : Wanted) (start : List Char) (name : String) (node : Node) : Prop where
  starts : start <+: name.toList
  visible : name.toList.head? = some '.' → start.head? = some '.'
  admitted : wanted.admits node = true

/-- What is shown of an entry. -/
def shown (base : List Char) (name : String) (node : Node) : String :=
  String.ofList base ++ name ++ (if node.isDirectory then "/" else "")

/-- The name in what is shown of an entry. -/
def offeredName (base : List Char) (text : String) : String :=
  dropTrailing '/' (dropChars base.length text)

/-- The characters of what is shown. -/
theorem toList_shown (base : List Char) (name : String) (node : Node) :
    (shown base name node).toList
      = base ++ (name ++ (if node.isDirectory then "/" else "")).toList := by
  rw [shown, String.append_assoc, String.toList_append, String.toList_ofList]

/-- From what is shown of an entry its name is read again. -/
theorem offeredName_shown {name : String} (h : Path.IsName name) (base : List Char) (node : Node) :
    offeredName base (shown base name node) = name := by
  obtain ⟨hbare, hslash⟩ := dropTrailing_slash h.2.2.2
  rw [offeredName, dropChars, toList_shown, List.drop_left, String.ofList_toList]
  split
  · exact hslash
  · rwa [String.append_empty]

/-- What is shown behind a base that is not empty leads to the entry itself. -/
theorem resolve_shown {partialPath base start : List Char}
    (hcut : CutAtSlash partialPath base start) (hslash : '/' ∈ partialPath) (fs : FileSystem)
    {name : String} (hname : Path.IsName name) (node : Node) :
    fs.resolve (shown base name node) = searched fs base ++ [name] := by
  have hbase : base ≠ [] := by
    rintro rfl
    rw [← hcut.append_eq] at hslash
    exact hcut.start hslash
  obtain ⟨front, rfl⟩ := List.getLast?_eq_some_iff.mp (hcut.base.resolve_left hbase)
  have hfront : String.ofList (front ++ ['/']) = String.ofList front ++ "/" := String.ofList_append
  rw [searched, if_neg (mt List.isEmpty_iff.mp hbase), shown, hfront, String.append_assoc,
    FileSystem.resolve, FileSystem.resolve, Path.resolve_slash]
  generalize Path.resolve fs.cwd (String.ofList front ++ "/") = directory
  have hfields : splitOn '/' name = [name] := splitOn_of_notMem hname.2.2.2
  have hfollow : Path.follow directory [name] = directory ++ [name] :=
    Path.follow_names directory (List.forall_mem_singleton.mpr hname)
  split
  · have hsplit := splitOn_slash name ""
    rw [String.append_empty] at hsplit
    rw [hsplit, hfields, Path.follow_append, hfollow]
    rfl
  · rw [String.append_empty, hfields, hfollow]

/-! ## The candidates -/

/-- The test that an entry has to pass. -/
def fits (wanted : Wanted) (start : List Char) (entry : String × Node) : Bool :=
  start.isPrefixOf entry.1.toList &&
    (entry.1.toList.head? != some '.' || start.head? == some '.') && wanted.admits entry.2

/-- The test for entries is the description of those that fit. -/
theorem fits_iff {wanted : Wanted} {start : List Char} {entry : String × Node} :
    fits wanted start entry = true ↔ Fits wanted start entry.1 entry.2 := by
  rw [fits, Bool.and_eq_true, Bool.and_eq_true, Bool.or_eq_true, List.isPrefixOf_iff_prefix,
    bne_iff_ne, beq_iff_eq, ← imp_iff_not_or]
  exact ⟨fun ⟨⟨hstart, hvisible⟩, hadmitted⟩ => ⟨hstart, hvisible, hadmitted⟩,
    fun ⟨hstart, hvisible, hadmitted⟩ => ⟨⟨hstart, hvisible⟩, hadmitted⟩⟩

/-- The texts that are offered, before they are sorted. -/
def offered (wanted : Wanted) (base start : List Char) (entries : Table Node) : List String :=
  (List.filter (fits wanted start) entries).map fun entry => shown base entry.1 entry.2

/-- Among no entries there is nothing to offer. -/
theorem sortTexts_offered_nil (wanted : Wanted) (base start : List Char) :
    sortTexts (offered wanted base start []) = [] := by
  rw [offered, List.filter_nil, List.map_nil, sortTexts, List.mergeSort_nil]

/-- What is offered is what is shown of the entries that fit. -/
theorem mem_offered_iff {wanted : Wanted} {base start : List Char} {entries : Table Node}
    (hd : entries.Distinct) {text : String} :
    text ∈ offered wanted base start entries ↔
      ∃ name node, entries.find? name = some node ∧ Fits wanted start name node ∧
        text = shown base name node := by
  rw [offered, List.mem_map]
  constructor
  · rintro ⟨⟨name, node⟩, hentry, rfl⟩
    rw [List.mem_filter, fits_iff] at hentry
    exact ⟨name, node, Table.find?_of_mem hd hentry.1, hentry.2, rfl⟩
  · rintro ⟨name, node, hfind, hfits, rfl⟩
    exact ⟨(name, node), List.mem_filter.mpr ⟨Table.mem_of_find? hfind, fits_iff.mpr hfits⟩, rfl⟩

/-- The names in the texts that are offered differ, and so do the texts. -/
theorem nodup_offered (wanted : Wanted) (base start : List Char) {entries : Table Node}
    (hd : entries.Distinct) (hnames : ∀ entry ∈ entries, Path.IsName entry.1) :
    (offered wanted base start entries).Nodup := by
  have hback : (offered wanted base start entries).map (offeredName base)
      = Table.names (List.filter (fits wanted start) entries) := by
    rw [offered, List.map_map]
    refine List.map_congr_left fun entry hentry => ?_
    exact offeredName_shown (hnames entry (List.mem_of_mem_filter hentry)) base entry.2
  refine List.Nodup.of_map (offeredName base) ?_
  rw [hback]
  exact hd.filter (fits wanted start)

/-- What is offered goes on with what was typed. -/
theorem isPrefix_of_mem_offered {wanted : Wanted} {base start : List Char} {entries : Table Node}
    {text : String} (h : text ∈ offered wanted base start entries) :
    base ++ start <+: text.toList := by
  rw [offered, List.mem_map] at h
  obtain ⟨⟨name, node⟩, hentry, rfl⟩ := h
  have hfits : Fits wanted start name node := fits_iff.mp (List.mem_filter.mp hentry).2
  rw [toList_shown, String.toList_append, List.prefix_append_right_inj]
  exact hfits.starts.trans (List.prefix_append _ _)

/-- The candidates are what is offered of the directory that is searched, in order. Where there is
no directory, there are no entries; a fault can only be met on the way there. -/
theorem CutAtSlash.pathCandidates_eq_map {partialPath base start : List Char}
    (h : CutAtSlash partialPath base start) (fs : FileSystem) (wanted : Wanted) :
    pathCandidates fs wanted partialPath = (fs.node? (searched fs base)).map fun node =>
      sortTexts (offered wanted base start ((node.map Node.entries).getD [])) := by
  rw [pathCandidates, h.splitLastSlash_eq, searched]
  dsimp only
  cases fs.node? _ with
  | error fault => rfl
  | ok found =>
    cases found with
    | none =>
      rw [Except.map, Option.map_none, Option.getD_none, sortTexts_offered_nil]
      rfl
    | some node => rfl

/-- Every candidate goes on with what was typed, in any tree. -/
theorem isPrefix_of_mem_pathCandidates {fs : FileSystem} {wanted : Wanted} {partialPath : List Char}
    {found : List String} (h : pathCandidates fs wanted partialPath = .ok found) {text : String}
    (htext : text ∈ found) : partialPath <+: text.toList := by
  obtain ⟨base, start, hcut⟩ := exists_cutAtSlash partialPath
  rw [hcut.pathCandidates_eq_map] at h
  cases hnode : fs.node? (searched fs base) with
  | error fault =>
    rw [hnode] at h
    cases h
  | ok node =>
    rw [hnode] at h
    cases h
    rw [← hcut.append_eq]
    exact isPrefix_of_mem_offered ((sortTexts_perm _).mem_iff.mp htext)

/-- In a whole tree the candidates are found without a fault. -/
theorem CutAtSlash.pathCandidates_eq {partialPath base start : List Char}
    (h : CutAtSlash partialPath base start) {fs : FileSystem} (hwhole : fs.root.Whole)
    (wanted : Wanted) :
    pathCandidates fs wanted partialPath = .ok (sortTexts (offered wanted base start
      (((fs.root.at? (searched fs base)).map Node.entries).getD []))) := by
  rw [h.pathCandidates_eq_map, FileSystem.node?_eq hwhole]
  rfl

/-- With no name begun and anything wanted, the names that are offered are those of the entries that
are not hidden. -/
theorem mem_map_offeredName_iff {found : List String} {base : List Char} {entries : Table Node}
    (hfound : ∀ text, text ∈ found ↔ ∃ name node, entries.find? name = some node ∧
      Fits .anything [] name node ∧ text = shown base name node)
    (hnames : ∀ name node, entries.find? name = some node → Path.IsName name) {name : String} :
    name ∈ found.map (offeredName base) ↔
      (∃ node, entries.find? name = some node) ∧ name.toList.head? ≠ some '.' := by
  rw [List.mem_map]
  constructor
  · rintro ⟨text, htext, rfl⟩
    obtain ⟨name, node, hfind, hfits, rfl⟩ := (hfound text).mp htext
    rw [offeredName_shown (hnames name node hfind)]
    exact ⟨⟨node, hfind⟩, fun hdot => nomatch hfits.visible hdot⟩
  · rintro ⟨⟨node, hfind⟩, hvisible⟩
    have hfits : Fits .anything [] name node :=
      ⟨List.nil_prefix, fun hdot => absurd hdot hvisible, rfl⟩
    exact ⟨shown base name node, (hfound _).mpr ⟨name, node, hfind, hfits, rfl⟩,
      offeredName_shown (hnames name node hfind) base node⟩

/-- The texts that are found for a partial path, which is cut into a base and the start of a name,
among the entries of the directory that is searched. -/
structure Completes (s : Session) (wanted : Wanted) (partialPath base start : List Char)
    (entries : Table Node) (found : List String) : Prop where
  /-- They are in the order of their code points, each once. -/
  increasing : found.Pairwise (· < ·)
  /-- They are what is shown of the entries that fit. -/
  mem_iff : ∀ text, text ∈ found ↔ ∃ name node, entries.find? name = some node ∧
    Fits wanted start name node ∧ text = shown base name node
  /-- They go on with what was typed. -/
  starts : ∀ text ∈ found, partialPath <+: text.toList
  /-- Behind a slash, what is shown of an entry leads to it. -/
  leads : '/' ∈ partialPath → ∀ name node, entries.find? name = some node →
    s.fileSystem.resolve (shown base name node) = searched s.fileSystem base ++ [name]
  /-- Where no name is begun and anything is wanted, the names are those of a listing that does not
  show everything. -/
  listed : start = [] → wanted = .anything → ∀ now args,
    (Options.parse args).has ["a", "all"] = false →
    Builtin.listedPath s.fileSystem args = searched s.fileSystem base →
    ∃ parts, (Builtin.runLs args).run now s
        = { outcome := .ok (.ok (.segments parts)), session := s } ∧
      ∀ name, name ∈ Builtin.listedNames parts ↔ name ∈ found.map (offeredName base)

/-- The offers in order are the completions of the path. -/
theorem completes_sortTexts {s : Session} (hs : s.fileSystem.Sound) (wanted : Wanted)
    {partialPath base start : List Char} (hcut : CutAtSlash partialPath base start)
    {info : NodeInfo} {entries : Table Node}
    (hat : s.fileSystem.root.at? (searched s.fileSystem base) = some (.directory info entries)) :
    Completes s wanted partialPath base start entries
      (sortTexts (offered wanted base start entries)) := by
  have hdistinct : entries.Distinct := hs.tree.distinct hat
  have hnames : ∀ name node, entries.find? name = some node → Path.IsName name :=
    fun name node hfind => (hs.tree.named_entry hat hfind).2
  have hmem : ∀ text, text ∈ sortTexts (offered wanted base start entries) ↔
      ∃ name node, entries.find? name = some node ∧ Fits wanted start name node ∧
        text = shown base name node := by
    intro text
    rw [(sortTexts_perm _).mem_iff, mem_offered_iff hdistinct]
  refine ⟨?increasing, hmem, ?starts, ?leads, ?listed⟩
  case increasing =>
    refine pairwise_sortTexts (nodup_offered wanted base start hdistinct fun entry hentry => ?_)
    exact hnames entry.1 entry.2 (Table.find?_of_mem hdistinct hentry)
  case starts =>
    intro text htext
    rw [← hcut.append_eq]
    exact isPrefix_of_mem_offered ((sortTexts_perm _).mem_iff.mp htext)
  case leads =>
    intro hslash name node hfind
    exact resolve_shown hcut hslash s.fileSystem (hnames name node hfind) node
  case listed =>
    rintro rfl rfl now args hall hpath
    rw [← hpath] at hat
    obtain ⟨parts, hrun, hlisted⟩ := Builtin.exists_run_runLs hs hat hall
    refine ⟨parts, hrun, fun name => ?_⟩
    rw [hlisted, mem_map_offeredName_iff hmem hnames]

/-- A partial path is cut behind its last slash. If there is a directory to be searched, the
candidates are the entries of it that fit, in order and each once. If there is none, there are no
candidates. -/
theorem completes_entries {s : Session} (hs : s.Sound) (wanted : Wanted) (partialPath : List Char) :
    (∃ base start, CutAtSlash partialPath base start) ∧
      ∀ base start, CutAtSlash partialPath base start →
        ∃ found, pathCandidates s.fileSystem wanted partialPath = .ok found ∧
          (¬ s.fileSystem.root.HasDirectory (searched s.fileSystem base) → found = []) ∧
          ∀ info (entries : Table Node),
            s.fileSystem.root.at? (searched s.fileSystem base) = some (.directory info entries) →
            Completes s wanted partialPath base start entries found := by
  refine ⟨exists_cutAtSlash partialPath, fun base start hcut => ?_⟩
  refine ⟨_, hcut.pathCandidates_eq hs.fileSystem.whole wanted, fun hnone => ?_, ?_⟩
  · have hempty : ((s.fileSystem.root.at? (searched s.fileSystem base)).map Node.entries).getD []
        = [] := by
      cases hat : s.fileSystem.root.at? (searched s.fileSystem base) with
      | none => rfl
      | some node =>
        cases node with
        | file => rfl
        | directory | hollow => exact absurd ⟨_, hat, rfl⟩ hnone
    rw [hempty, sortTexts_offered_nil]
  · intro info entries hat
    rw [hat, Option.map_some, Option.getD_some, Node.entries]
    exact completes_sortTexts hs.fileSystem wanted hcut hat

/-- The note in the directory is offered, and it is what a listing shows. -/
theorem completes_note :
    noteSession.Sound ∧ CutAtSlash "../tmp//".toList "../tmp//".toList [] ∧
      ∃ found, pathCandidates noteSession.fileSystem .anything "../tmp//".toList = .ok found ∧
        found.Pairwise (· < ·) ∧ "../tmp//a" ∈ found ∧
        noteSession.fileSystem.resolve "../tmp//a" = ["tmp", "a"] ∧
        ∃ parts, (Builtin.runLs ["-l"]).run .epoch noteSession
            = { outcome := .ok (.ok (.segments parts)), session := noteSession } ∧
          ∀ name, name ∈ Builtin.listedNames parts ↔
            name ∈ found.map (offeredName "../tmp//".toList) := by
  have hs : noteSession.Sound :=
    ⟨sound_noteSession, Table.distinct_nil, Environment.sound_new _ _⟩
  have hcut : CutAtSlash "../tmp//".toList "../tmp//".toList [] :=
    ⟨List.append_nil _, .inr (by decide), List.not_mem_nil⟩
  have hsearched : searched noteSession.fileSystem "../tmp//".toList = ["tmp"] := by
    decide +kernel
  have hshown : shown "../tmp//".toList "a" (.newFile .epoch "a" "hello") = "../tmp//a" := by
    decide +kernel
  obtain ⟨found, hfound, -, hdirectory⟩ := (completes_entries hs .anything _).2 _ _ hcut
  have hcompletes := hdirectory _ _ (by rw [hsearched]; rfl)
  have hmem := (hcompletes.mem_iff _).mpr
    ⟨"a", _, rfl, ⟨List.nil_prefix, fun hdot => absurd hdot (by decide), rfl⟩, rfl⟩
  have hleads := hcompletes.leads (by decide) "a" _ rfl
  rw [hshown] at hmem
  rw [hshown, hsearched] at hleads
  exact ⟨hs, hcut, found, hfound, hcompletes.increasing, hmem, hleads,
    hcompletes.listed rfl rfl .epoch ["-l"] (by decide +kernel) (by rw [hsearched]; decide +kernel)⟩

end Completion

end VirtualShell
