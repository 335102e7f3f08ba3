/-!
# Tables in insertion order

A table maps names to values and remembers the order in which the names were first put. Replacing a
value keeps the place of its name; erasing a name and putting it again moves it to the end. The
entries of a directory, the aliases, the variables and the fields of a document are tables.
-/

namespace VirtualShell

/-- Names with their values, in the order in which the names came in. -/
abbrev Table (α : Type) := List (String × α)

namespace Table

variable {α β : Type}

/-- The value stored under a name. -/
def find? (t : Table α) (name : String) : Option α :=
  match t with
  | [] => none
  | (n, v) :: rest => if n = name then some v else find? rest name

/-- Whether a value is stored under a name. -/
def contains (t : Table α) (name : String) : Bool :=
  (find? t name).isSome

/-- Stores a value: in the place of the name if it is known, else at the end. -/
def put (t : Table α) (name : String) (value : α) : Table α :=
  match t with
  | [] => [(name, value)]
  | (n, v) :: rest => if n = name then (name, value) :: rest else (n, v) :: put rest name value

/-- Removes a name and its value. -/
def erase (t : Table α) (name : String) : Table α :=
  List.filter (fun entry => entry.1 ≠ name) t

/-- Replaces the value of a name, if the name is known. -/
def adjust (t : Table α) (name : String) (f : α → α) : Table α :=
  List.map (fun entry => if entry.1 = name then (entry.1, f entry.2) else entry) t

/-- The names, in order. -/
def names (t : Table α) : List String :=
  List.map Prod.fst t

/-- The values, in the order of their names. -/
def values (t : Table α) : List α :=
  List.map Prod.snd t

/-- The table that stores the given entries one after another. -/
def ofEntries (entries : List (String × α)) : Table α :=
  entries.foldl (fun t (name, value) => put t name value) []

/-- The entries by increasing name. -/
def sorted (t : Table α) : Table α :=
  List.mergeSort t fun a b => decide (a.1 ≤ b.1)

end Table

end VirtualShell
