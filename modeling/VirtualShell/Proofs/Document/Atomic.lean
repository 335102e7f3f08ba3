import VirtualShell.Proofs.Alias.Written
import VirtualShell.Proofs.Document.RoundTrip
import VirtualShell.Proofs.Environment

/-!
# How far a document is applied

A document is applied in a fixed order: the tree, the mode, the variables, and at last the aliases.
Only an entry in the list of aliases can break the application off, and what was replaced before
stays replaced (`session_apply`). So a document is applied as a whole or not at all just where no
entry breaks it off, or where it would have changed nothing (`atomic_iff`).
-/

namespace VirtualShell.Document

variable {d : Document} {now : Timestamp} {s : Session}

/-- The session in which a document has been applied as a whole: the tree, the mode and every
variable and alias that is valid are taken over, and what is not valid is passed over. A document
without a list of aliases leaves them alone. -/
def completed (d : Document) (now : Timestamp) (s : Session) : Session :=
  { s with
    fileSystem := { root := d.root, cwd := d.workingDirectory }
    mode := d.mode
    environment := (s.environment.takeOver d.environment).withCwd d.workingDirectory
    aliases := d.aliases.elim s.aliases fun items =>
      Aliases.putAll [] (Aliases.writtenIn now items) }

/-- No entry in the list of aliases breaks the application off. -/
def WellFormed (d : Document) : Prop :=
  ∀ items ∈ d.aliases, ∀ v ∈ items, Aliases.isMalformed v = false

/-- The document with the aliases up to the first entry that breaks the application off. -/
def upToMalformed (d : Document) : Document :=
  { d with aliases := d.aliases.map (List.takeWhile (!Aliases.isMalformed ·)) }

/-- The document is applied as a whole or not at all. -/
def Atomic (d : Document) (now : Timestamp) (s : Session) : Prop :=
  let applied := d.apply now s
  applied.error = none ∧ applied.session = d.completed now s ∨
    applied.error ≠ none ∧ applied.session = s

/-- An application goes through if no entry breaks it off. -/
theorem error_apply_eq_none_iff (d : Document) (now : Timestamp) (s : Session) :
    (d.apply now s).error = none ↔ d.WellFormed := by
  rw [apply, WellFormed]
  cases d.aliases with
  | none => simp
  | some items =>
    have hread := Aliases.error_ofJson_eq_none_iff now items
    simpa using hread

/-- What an application leaves behind is the document applied up to the entry that breaks it off. -/
theorem session_apply (d : Document) (now : Timestamp) (s : Session) :
    (d.apply now s).session = d.upToMalformed.completed now s := by
  have henvironment := Environment.environment_importFrom s.environment d.environment
  -- All but the aliases is replaced in the same way whether or not there is a list of them.
  cases haliases : d.aliases with
  | none =>
    simp only [apply, haliases, henvironment]
    rw [completed, upToMalformed, haliases]
    rfl
  | some items =>
    simp only [apply, haliases, henvironment, Aliases.aliases_ofJson]
    rw [completed, upToMalformed, haliases]
    rfl

/-- A well-formed document is not cut. -/
theorem upToMalformed_of_wellFormed (h : d.WellFormed) : d.upToMalformed = d := by
  have hkeep : d.aliases.map (List.takeWhile (!Aliases.isMalformed ·)) = d.aliases := by
    cases haliases : d.aliases with
    | none => rfl
    | some items =>
      rw [Option.map_some, Aliases.takeWhile_of_not_malformed (h items haliases)]
  rw [upToMalformed, hkeep]

/-- A document is applied as a whole or not at all just where no entry breaks its application off,
or where applying it up to that entry changes nothing. -/
theorem atomic_iff (d : Document) (now : Timestamp) (s : Session) :
    d.Atomic now s ↔ d.WellFormed ∨ d.upToMalformed.completed now s = s := by
  rw [Atomic, session_apply, Ne, error_apply_eq_none_iff]
  by_cases h : d.WellFormed
  · simp [h, upToMalformed_of_wellFormed h]
  · simp [h]

/-! ## A document that is applied in part -/

/-- A document with an empty tree, and with a number for the command of an alias. -/
def numberAsCommand : Json :=
  .obj [
    ("filesystem", .obj [("name", .str "/"), ("type", .str "directory"), ("children", .obj [])]),
    ("mode", .str "restored"),
    ("version", .str currentVersion),
    ("savedAt", .str ""),
    ("currentPath", .arr []),
    ("environment", .obj []),
    ("aliases", .arr [.obj [("name", .str "a"), ("command", .int 5)]])]

/-- A document with a number for a command is read as it is written. -/
theorem exact_numberAsCommand : numberAsCommand.Exact := by
  simp only [numberAsCommand, Json.Exact, Json.FieldsExact, Json.ItemsExact, Json.IsShort]
  simp [Table.names]
  decide

/-- It is loaded, since only the outline is checked. -/
theorem load_numberAsCommand :
    load .epoch numberAsCommand.write = .ok {
      root := .newDirectory .epoch "/", mode := "restored", version := currentVersion
      savedAt := "", cwd := [], environment := []
      aliases := some [.obj [("name", .str "a"), ("command", .int 5)]] } := by
  have hroot : Node.ofJson .epoch
      (.obj [("name", .str "/"), ("type", .str "directory"), ("children", .obj [])])
        = .ok (.newDirectory .epoch "/") :=
    Node.ofJson_directory rfl rfl rfl (by rw [Node.entriesOfJson])
  rw [load, readOutline, Json.read_write exact_numberAsCommand]
  show Outline.document .epoch _ = _
  rw [Outline.document, hroot]
  rfl

/-- The document is accepted and its application breaks off, but the session is in another mode by
then, and has another tree and other aliases. -/
theorem numberAsCommand_not_atomic :
    let s := Session.new (DefaultTree.fileSystem .epoch)
    ∃ d, load .epoch numberAsCommand.write = .ok d ∧ ¬ d.Atomic .epoch s := by
  intro s
  refine ⟨_, load_numberAsCommand, ?_⟩
  rintro (⟨hnone, -⟩ | ⟨-, hsame⟩)
  · exact absurd hnone (by decide)
  · exact absurd (congrArg Session.mode hsame) (by decide)

end VirtualShell.Document
