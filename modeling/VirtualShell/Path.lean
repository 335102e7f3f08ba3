import VirtualShell.Text.Split

/-!
# Paths

A path is the list of the names that lead from the root of the tree to a node. What a user types is
resolved to such a list first: absolute, relative to the working directory, or relative to the home
directory by a leading tilde. A step up from the root stays at the root.
-/

namespace VirtualShell

/-- The names from the root to a node. -/
abbrev Path := List String

namespace Path

/-- The home directory. -/
def home : Path := ["home", "user"]

/-- The written form of a path: a slash before every name, and a single slash for the root. -/
def text (p : Path) : String :=
  if p.isEmpty then "/" else "/" ++ Text.joinWith "/" p

/-- The written form in which the home directory is a tilde. -/
def tildeText (p : Path) (home : Path := Path.home) : String :=
  if home.isPrefixOf p then
    let rest := p.drop home.length
    if rest.isEmpty then "~" else "~/" ++ Text.joinWith "/" rest
  else text p

/-- Replaces a tilde that stands alone or before a slash by the home directory. -/
def expandTilde (input : String) (home : Path := Path.home) : String :=
  match input.toList with
  | ['~'] => text home
  | '~' :: '/' :: rest => text home ++ String.ofList ('/' :: rest)
  | _ => input

/-- One step along a path: nothing for an empty name or a dot, up for two dots, else down. -/
def step (base : Path) (part : String) : Path :=
  if part = "" ∨ part = "." then base
  else if part = ".." then base.dropLast
  else base ++ [part]

/-- Steps along a path, one after another. -/
def follow (base : Path) (parts : List String) : Path :=
  parts.foldl step base

/-- The path that an input names from a working directory. -/
def resolve (cwd : Path) (input : String) : Path :=
  let expanded := expandTilde input
  follow (if Text.hasStart "/" expanded then [] else cwd) (Text.splitOn '/' expanded)

end Path

end VirtualShell
