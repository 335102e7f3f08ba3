import VirtualShell.Builtin.Settings

/-!
# Completion

What a partially typed line can be completed to: names of commands and aliases, paths, or manual
pages, depending on where in the line the last word stands. Only the text behind the last chain
operator counts. Completing never changes the session.
-/

namespace VirtualShell

namespace Completion

/-- The longest text that all of the given ones start with. -/
def commonStart₂ : List Char → List Char → List Char
  | a :: as, b :: bs => if a = b then a :: commonStart₂ as bs else []
  | _, _ => []

/-- The longest text that all of some texts start with; for none, the empty one. -/
def commonStart (texts : List String) : String :=
  match texts with
  | [] => ""
  | first :: rest =>
    String.ofList (rest.foldl (fun common t => commonStart₂ common t.toList) first.toList)

/-- Commands whose arguments are directories. -/
def directoryCommands : List String := ["cd", "mkdir", "rmdir"]

/-- Commands whose arguments are files. -/
def fileCommands : List String :=
  ["ls", "cat", "rm", "touch", "wc", "vi", "cp", "mv", "source", "grep", "head", "tail", "sort",
    "uniq"]

/-- Commands whose arguments are aliases. -/
def aliasCommands : List String := ["alias", "unalias"]

/-! ## The line -/

/-- The text up to and with the last chain operator and the blanks behind it, and the text after
that. -/
def splitContext (cs : List Char) : List Char × List Char :=
  match (Line.findOperators cs).getLast? with
  | none => ([], cs)
  | some (i, op) =>
    let text := Text.trimStart (cs.drop (i + op.length))
    (cs.take (cs.length - text.length), text)

/-- A redirection at the end of a line: what stands before its sign, the sign, and the beginning of
the target. -/
structure Redirection where
  before : List Char
  sign : String
  target : List Char
  deriving DecidableEq, Repr

/-- The sign that a text starts with, the longer ones first. -/
def signAt? (cs : List Char) : Option String :=
  [">>", ">", "<<", "<"].find? fun sign => sign.toList.isPrefixOf cs

/-- The redirection whose sign a text starts with, after blanks. `done` holds the characters before,
in reverse; there must be at least one, and no line feed in the target. -/
def redirectionAt? (done cs : List Char) : Option Redirection := do
  let blanks := cs.takeWhile Text.isBlank
  let sign ← signAt? (cs.drop blanks.length)
  let target := Text.trimStart (cs.drop (blanks.length + sign.length))
  if !done.isEmpty && !target.contains '\n' then
    some { before := done.reverse, sign, target }
  else none

/-- The redirection with the first sign of a text behind at least one character, quoted or not. A
text with a line feed in it that is not the last character holds no redirection behind that. -/
def redirectionFrom? (done : List Char) : List Char → Option Redirection
  | [] => none
  | c :: rest =>
    redirectionAt? done (c :: rest) <|>
      if c = '\n' then none else redirectionFrom? (c :: done) rest

/-- The redirection of a text without the blanks around it. -/
def redirection? (cs : List Char) : Option Redirection :=
  redirectionFrom? [] (Text.trim cs)

/-! ## Candidates -/

/-- What a path can be completed to. -/
inductive Wanted where
  | anything
  | directories
  | files
  deriving DecidableEq, Repr

/-- Whether a node is of a wanted kind. -/
def Wanted.admits (w : Wanted) (n : Node) : Bool :=
  match w with
  | .anything => true
  | .directories => n.isDirectory
  | .files => n.isFile

/-- The text up to and with its last slash, and the text behind that. -/
def splitLastSlash (cs : List Char) : List Char × List Char :=
  let tail := (cs.reverse.takeWhile (· != '/')).reverse
  (cs.take (cs.length - tail.length), tail)

/-- The paths that a partial path can be completed to, in increasing order. Entries whose names
start with a dot are offered only if the partial name starts with one. -/
def pathCandidates (fs : FileSystem) (wanted : Wanted) (partialPath : List Char) :
    Except TreeFault (List String) := do
  let (base, start) := splitLastSlash partialPath
  let directory := if base.isEmpty then fs.cwd else fs.resolve (String.ofList base)
  match ← fs.node? directory with
  | none => return []
  | some node =>
    let fits := fun (entry : String × Node) =>
      let name := entry.1.toList
      start.isPrefixOf name && (name.head? != some '.' || start.head? == some '.') &&
        wanted.admits entry.2
    let shown := fun (entry : String × Node) =>
      String.ofList base ++ entry.1 ++ (if entry.2.isDirectory then "/" else "")
    return Text.sortTexts ((node.entries.filter fits).map shown)

/-- The names of commands and aliases. -/
def knownNames (commands : List String) (s : Session) : List String :=
  commands ++ s.aliases.names

/-- The names of commands and aliases with a start, in increasing order, each once. -/
def nameCandidates (commands : List String) (s : Session) (start : List Char) : List String :=
  (Text.sortTexts ((knownNames commands s).filter fun n => start.isPrefixOf n.toList)).eraseDups

/-- The manual pages with a start, in increasing order. -/
def pageCandidates (s : Session) (start : List Char) : Except TreeFault (List String) := do
  match ← s.fileSystem.node? Builtin.manDirectory with
  | none => return []
  | some node =>
    let pages := (node.entries.filter fun e => e.2.isFile && Text.hasEnd ".1" e.1).map fun e =>
      Text.takeChars (e.1.length - 2) e.1
    return Text.sortTexts (pages.filter fun p => start.isPrefixOf p.toList)

/-- What the argument of a command can be completed to. -/
def argumentCandidates (s : Session) (command : String) (start : List Char) :
    Except TreeFault (List String) :=
  if directoryCommands.contains command then pathCandidates s.fileSystem .directories start
  else if fileCommands.contains command then pathCandidates s.fileSystem .anything start
  else if aliasCommands.contains command then
    .ok (s.aliases.sortedNames.filter fun n => start.isPrefixOf n.toList)
  else if command = "man" then pageCandidates s start
  else .ok []

/-- Whether a text ends in a plain blank, behind which a new word starts. -/
def endsInSpace (cs : List Char) : Bool :=
  cs.getLast? == some ' '

/-- What a line can be completed to, given the names of commands. -/
def candidates (commands : List String) (s : Session) (line : String) :
    Except TreeFault (List String) :=
  let (before, text) := splitContext line.toList
  if !before.isEmpty && !text.contains ' ' then .ok (nameCandidates commands s text)
  else
    match redirection? text with
    | some r =>
      if r.sign = "<<" then .ok []
      else
        pathCandidates s.fileSystem (if r.sign = "<" then .files else .anything) r.target
    | none =>
      match Text.words text with
      | [] => .ok (nameCandidates commands s [])
      | command :: rest =>
        if rest.isEmpty && !endsInSpace text then .ok (nameCandidates commands s command)
        else
          let argument := if endsInSpace text then [] else rest.getLast?.getD command
          if 1 < argument.length && argument.head? == some '-' then .ok []
          else argumentCandidates s (String.ofList command) argument

/-- The line with the word that is being completed replaced. A name of a command or an alias gets a
blank behind it; a path does not, since a directory may be completed further. -/
def apply (commands : List String) (s : Session) (line completion : String) : String :=
  let (before, text) := splitContext line.toList
  let before := String.ofList before
  match redirection? text with
  | some r => before ++ String.ofList r.before ++ " " ++ r.sign ++ " " ++ completion
  | none =>
    let words := (Text.words text).map String.ofList
    if words.isEmpty || (words.length = 1 && !endsInSpace text) then
      before ++ completion ++ (if (knownNames commands s).contains completion then " " else "")
    else if endsInSpace text then
      before ++ String.ofList (Text.trim text) ++ " " ++ completion
    else before ++ Text.joinWith " " (words.dropLast ++ [completion])

end Completion

namespace Session

/-- The names that completion offers for commands, unless it is given others. -/
def commandNames (others : List String) : List String :=
  if others.isEmpty then Builtin.names else others

end Session

end VirtualShell
