import VirtualShell.Builtin.Settings

/-!
# The history of a terminal

The lines that were entered, the oldest first, and a place among them from which the user looks back
and forward. A history holds as many lines as its limit says. The history of a session is kept in a
file of the session, which is where the shell itself looks it up.

The place is a number between zero and the number of lines; in the latter case it is behind all of
them, where a new line is typed.
-/

namespace VirtualShell

/-- The lines that were entered, and the place that is looked at. -/
structure History where
  limit : Int := 1000
  entries : List String := []
  position : Nat := 0
  deriving DecidableEq, Repr

namespace History

/-- Goes behind the last line. -/
def toEnd (h : History) : History :=
  { h with position := h.entries.length }

/-- The lines with a new one at the end. Where they are more than the limit now, the oldest one is
dropped. -/
def push (h : History) (line : String) : History :=
  let entries := h.entries ++ [line]
  { h with entries := if h.limit < entries.length then entries.tail else entries }

/-- Takes up a line, unless it is blank, and goes behind the last line. -/
def add (h : History) (line : String) : History :=
  if Text.isBlankText line then h.toEnd else (h.push line).toEnd

/-- Goes one line back and gives that line, if there is one. -/
def previous (h : History) : Option String × History :=
  match h.position with
  | 0 => (none, h)
  | n + 1 => (h.entries[n]?, { h with position := n })

/-- Goes one line forward and gives that line; behind the last one there is an empty line. -/
def next (h : History) : String × History :=
  match h.entries[h.position + 1]? with
  | some line => (line, { h with position := h.position + 1 })
  | none => ("", h.toEnd)

/-! ## The file -/

/-- The content of the file that keeps the lines. -/
def fileText (h : History) : String :=
  if h.entries.isEmpty then "" else Text.joinWith "\n" h.entries ++ "\n"

/-- The last lines, as many as a limit says. A limit of zero is no limit, and a negative one drops
as many lines from the front. -/
def keepLast (limit : Int) (lines : List String) : List String :=
  if 0 < limit then lines.drop (lines.length - limit.toNat) else lines.drop (-limit).toNat

/-- Takes the lines of a file in the place of the own ones; blank lines do not count. An empty file
changes nothing. -/
def withFileText (h : History) (text : String) : History :=
  if text = "" then h else { h with entries := keepLast h.limit (Builtin.entryLines text) }

/-- Takes the lines from the file of the session, if it has one, and goes behind the last line. -/
def load (h : History) : Shell History := do
  match ← Shell.node? Builtin.historyFile with
  | some (.file _ content) => return (h.withFileText content).toEnd
  | _ => return h.toEnd

/-- Writes the lines to the file of the session. -/
def save (h : History) : Shell Unit := do
  let written ← Shell.changeTree fun now fs => fs.writeFile now Builtin.historyFile h.fileText
  if !written then Shell.note (.warning .terminal "could not write history file")

/-- Takes up a line and writes the file, unless the line is blank. Where the file cannot even be
looked for, the line is kept all the same, the place stays, and the fault is handed over. -/
def record (h : History) (line : String) : Shell (History × Option Fault) := do
  if Text.isBlankText line then return (h.toEnd, none)
  let pushed := h.push line
  match ← Shell.attempt pushed.save with
  | .ok () => return (pushed.toEnd, none)
  | .error fault => return (pushed, some fault)

end History

end VirtualShell
