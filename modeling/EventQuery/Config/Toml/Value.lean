import EventQuery.Fields

namespace EventQuery

/-!
# Values of TOML documents

A document is a table of values.  A table can be written in several ways, and the way in which it was
written decides whether it may be added to: a table is defined once, a table that was only passed
through can still be defined, and a dotted key adds only to tables that dotted keys have made.
-/

/-- How a table came to be. -/
inductive TableOrigin where
  /-- Written in braces, and complete. -/
  | inline
  /-- Named by a header. -/
  | header
  /-- Passed through by a longer header. -/
  | implied
  /-- Made by a dotted key. -/
  | dotted
  deriving DecidableEq, Repr

/-- A value in a document. -/
inductive TomlValue where
  | bool (truth : Bool)
  | integer (number : Int)
  | float
  | date
  | text (content : String)
  | array (items : List TomlValue)
  | table (origin : TableOrigin) (entries : List (String × TomlValue))
  /-- The tables of one repeated header. -/
  | tables (elements : List (List (String × TomlValue)))
  deriving Repr

/-- A table that can be added to. -/
structure TomlTable where
  origin : TableOrigin
  entries : Fields TomlValue

namespace TomlTable

/-- The table as a value. -/
def value (table : TomlTable) : TomlValue := .table table.origin table.entries

/-- The table with a value under a key. -/
def put (table : TomlTable) (key : String) (value : TomlValue) : TomlTable :=
  { table with entries := table.entries.put key value }

/--
Change the table at a path.  Tables that are missing on the way are made, by a dotted key or else as
implied ones.  The way leads through the last table of a repeated header, and never through a value
that is complete; a dotted key does not enter a table named by a header.
-/
def change (isDotted : Bool) (edit : TomlTable → Option TomlTable) :
    List String → TomlTable → Option TomlTable
  | [], table => edit table
  | key :: rest, table =>
      match table.entries.find? key with
      | none => do
          let made ← change isDotted edit rest ⟨if isDotted then .dotted else .implied, []⟩
          return table.put key made.value
      | some (.table .inline _) => none
      | some (.table origin entries) => do
          if isDotted && origin == .header then none
          let changed ← change isDotted edit rest ⟨origin, entries⟩
          return table.put key changed.value
      | some (.tables elements) => do
          let last ← elements.getLast?
          let changed ← change isDotted edit rest ⟨.header, last⟩
          return table.put key (.tables (elements.dropLast ++ [changed.entries]))
      | some _ => none

/-- Add a new entry under a dotted key.  What the key leads to must be made by dotted keys alone. -/
def addPair (path : List String) (key : String) (value : TomlValue) : TomlTable → Option TomlTable :=
  change true
    (fun target =>
      if (target.origin == .dotted) == path.isEmpty then none
      else if (target.entries.find? key).isSome then none
      else some (target.put key value))
    path

/-- Define the table of a header.  It may have been passed through before, but not defined. -/
def define (path : List String) (key : String) : TomlTable → Option TomlTable :=
  change false
    (fun parent =>
      match parent.entries.find? key with
      | none => some (parent.put key (.table .header []))
      | some (.table .implied entries) => some (parent.put key (.table .header entries))
      | some _ => none)
    path

/-- Define one more table of a repeated header. -/
def defineAnother (path : List String) (key : String) : TomlTable → Option TomlTable :=
  change false
    (fun parent =>
      match parent.entries.find? key with
      | none => some (parent.put key (.tables [[]]))
      | some (.tables elements) => some (parent.put key (.tables (elements ++ [[]])))
      | some _ => none)
    path

end TomlTable

end EventQuery
