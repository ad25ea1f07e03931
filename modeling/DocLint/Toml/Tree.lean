import DocLint.Value

/-!
# Open Tables

While a document is read, its tables stay open: later lines may add to them. What may be added is told by
how a table came about, which is its mark. Values written after an equals sign are closed for good. Main
definitions: `addPair` for a line `a.b = value`, `declareTable` for a header `[a.b]` and `appendTable` for
a header `[[a.b]]`; each fails where the document would define something twice.
-/

namespace DocLint.Toml

/-- A dotted key: the names on the way and the last one. -/
structure Key where
  parents : List String
  last : String
  deriving DecidableEq, Repr, Inhabited

def Key.names (key : Key) : List String := key.parents ++ [key.last]

/-- How a table came about: as the parent of a header's table, by dotted keys of one section, or by
a header of its own. Sections are told apart by their numbers, for a table that dotted keys made is
open to the lines of its own section and closed to all others. -/
inductive Mark where
  -- Only an implied table may still get a header of its own.
  | implied
  /-- Open to dotted keys of the same section only. -/
  | dotted (region : Nat)
  /-- It has had its header, and may not get another. -/
  | declared
  deriving DecidableEq, Repr, Inhabited

/-- What stands behind a name in an open document: a closed value, an open table, or an array of
tables, of which the last one is open. -/
inductive Tree where
  /-- No key leads into a leaf, even if its value is a table. -/
  | leaf (value : Value)
  | table (mark : Mark) (entries : List (String × Tree))
  /-- Keys lead into the last table; those before it are finished. -/
  | tables (closed : List Value) (current : List (String × Tree))
  deriving Inhabited

namespace Tree

mutual

/-- The value that a tree stands for once the document has ended. -/
def toValue : Tree → Value
  | .leaf value => value
  | .table _ entries => .table (valueEntries entries)
  | .tables closed current => .list (closed ++ [.table (valueEntries current)])

/-- The entries of a table as values, in their order. -/
def valueEntries : List (String × Tree) → List (String × Value)
  | [] => []
  | (name, tree) :: rest => (name, tree.toValue) :: valueEntries rest

end

/-- How the names of a path are followed: as those of a header, or as dotted keys of a section. -/
inductive Way where
  /-- Tables on the way that are not there are implied. -/
  | header
  /-- Such tables become those of the section. -/
  | dotted (region : Nat)
  deriving DecidableEq, Repr

/-- Goes into what stands behind a name on the way, and tells how to put the changed entries back. A
header passes through every table and into the last table of an array, and makes missing tables.
Dotted keys pass only through tables that no header declared and no other section's dotted keys
made. -/
def enter : Way → Option Tree → Option (Dict Tree × (Dict Tree → Tree))
  -- A missing table is made on the way, and is empty until the rest of the path is done.
  | .header, none => some ([], .table .implied)
  | .header, some (.table mark entries) => some (entries, .table mark)
  | .header, some (.tables closed current) => some (current, .tables closed)
  | .dotted region, none => some ([], .table (.dotted region))
  -- An implied table becomes one of the section that goes through it.
  | .dotted region, some (.table .implied entries) => some (entries, .table (.dotted region))
  | .dotted region, some (.table (.dotted other) entries) =>
    if other = region then some (entries, .table (.dotted region)) else none
  | _, _ => none

/-- Changes the entries of the table that a path leads to. It fails where the path cannot be
followed, and where the change fails at its end. -/
def alter (way : Way) (change : Dict Tree → Option (Dict Tree)) :
    List String → Dict Tree → Option (Dict Tree)
  | [], entries => change entries
  | name :: path, entries => do
    let (inner, close) ← enter way (Dict.get? entries name)
    -- The tables on the way are put back from the inside out.
    let changed ← alter way change path inner
    return Dict.set entries name (close changed)

/-- Puts a value under a name that is still free. What a name once stands for is never given up. -/
def addLeaf (name : String) (value : Value) (entries : Dict Tree) : Option (Dict Tree) :=
  if Dict.contains entries name then none else some (Dict.set entries name (.leaf value))

/-- Adds the value of a line `key = value` in a section under a header. The path of the header is
followed first, and from there the dotted key. -/
def addPair (header : List String) (region : Nat) (key : Key) (value : Value) :
    Dict Tree → Option (Dict Tree) :=
  alter .header (alter (.dotted region) (addLeaf key.last value) key.parents) header

/-- Opens the table of a header `[key]`: a new one, or one that so far was only implied. -/
def declareTable (key : Key) : Dict Tree → Option (Dict Tree) :=
  alter .header
    (fun entries =>
      match Dict.get? entries key.last with
      | none => some (Dict.set entries key.last (.table .declared []))
      -- The tables inside of an implied one stay as they are.
      | some (.table .implied inner) => some (Dict.set entries key.last (.table .declared inner))
      | some _ => none)
    key.parents

/-- Opens the next table of the array of a header `[[key]]`; the one before it is closed. -/
def appendTable (key : Key) : Dict Tree → Option (Dict Tree) :=
  alter .header
    (fun entries =>
      match Dict.get? entries key.last with
      | none => some (Dict.set entries key.last (.tables [] []))
      -- The table that was open so far is closed with what it holds.
      | some (.tables closed current) =>
        some (Dict.set entries key.last (.tables (closed ++ [.table (valueEntries current)]) []))
      | some _ => none)
    key.parents

end Tree

end DocLint.Toml
