/-
TOML values, and the tables of a document while it is read.

Tables come about in three ways, and the way decides who may add to them: by
a header of their own, as the place of a table with a header, or through a
dotted key.
-/
namespace GrammarExplorer.Toml

inductive Value
  | string (text : String)
  | integer (value : Int)
  | float (value : Float)
  | boolean (value : Bool)
  /-- A date, a time, or both, in its one written form. -/
  | dateTime (text : String)
  | array (items : List Value)
  | table (entries : List (String × Value))

/-- How a table came about. -/
inductive Origin
  | header
  | implied
  | dotted
  deriving Repr, DecidableEq

/-- What stands under a key while a document is read. -/
inductive Item
  | value (value : Value)
  | table (origin : Origin) (entries : List (String × Item))
  /-- The tables of one list, the last one open to additions. -/
  | tables (all : List (List (String × Item)))

abbrev Entries := List (String × Item)

namespace Item

mutual

def toValue : Item → Value
  | value v => v
  | table _ entries => .table (toValues entries)
  | tables all => .array (toTables all)

def toValues : List (String × Item) → List (String × Value)
  | [] => []
  | (k, item) :: rest => (k, toValue item) :: toValues rest

def toTables : List (List (String × Item)) → List Value
  | [] => []
  | entries :: rest => .table (toValues entries) :: toTables rest

end

end Item

namespace Entries

/-- What stands under a key. -/
def get? (entries : Entries) (key : String) : Option Item :=
  (entries.find? (·.1 == key)).map (·.2)

/-- Puts an item under a key, in the place of what is there. -/
def put (entries : Entries) (key : String) (item : Item) : Entries :=
  if entries.any (·.1 == key) then
    entries.map fun e => if e.1 == key then (key, item) else e
  else entries ++ [(key, item)]

/-- Assigns a value to a dotted key, given the part before its last dot.
The tables on the way have to come from dotted keys themselves, or be new. -/
def assign (path : List String) (key : String) (v : Value) (entries : Entries) :
    Option Entries :=
  match path with
  | [] => if (entries.get? key).isSome then none else some (entries ++ [(key, .value v)])
  | step :: rest =>
    match entries.get? step with
    | none => (assign rest key v []).map fun below => entries ++ [(step, .table .dotted below)]
    | some (.table origin below) =>
      if origin == .header || (rest.isEmpty && origin == .implied) then none
      else (assign rest key v below).map fun below => entries.put step (.table origin below)
    | some (.tables all) =>
      match all.getLast?, rest with
      | some last, _ :: _ =>
        (assign rest key v last).map fun last => entries.put step (.tables (all.dropLast ++ [last]))
      | _, _ => none
    | some (.value _) => none

/-- Changes the table that a header leads to. Tables on the way that are
not there yet are made, and of a list of tables the last is meant. -/
def within (path : List String) (change : Entries → Option Entries) (entries : Entries) :
    Option Entries :=
  match path with
  | [] => change entries
  | step :: rest =>
    match entries.get? step with
    | none => (within rest change []).map fun below => entries ++ [(step, .table .implied below)]
    | some (.table origin below) =>
      (within rest change below).map fun below => entries.put step (.table origin below)
    | some (.tables all) =>
      match all.getLast? with
      | some last =>
        (within rest change last).map fun last => entries.put step (.tables (all.dropLast ++ [last]))
      | none => none
    | some (.value _) => none

end Entries

/-- An assignment: the key up to its last dot, the rest of it, the value. -/
structure Assignment where
  path : List String
  key : String
  value : Value

/-- Makes assignments one after the other. -/
def assignAll (assignments : List Assignment) (entries : Entries) : Option Entries :=
  assignments.foldlM (fun entries a => entries.assign a.path a.key a.value) entries

/-- What stands between two headers: the header, if any, and assignments.
The header of a table in a list is marked. -/
structure Section where
  path : List String
  key : String
  inList : Bool
  assignments : List Assignment

/-- Adds the table of a section. A table may be given a header once, a list
of tables as often as one likes. -/
def Section.addTo (s : Section) (entries : Entries) : Option Entries :=
  entries.within s.path fun entries =>
    if s.inList then
      match entries.get? s.key with
      | none => (assignAll s.assignments []).map fun t => entries.put s.key (.tables [t])
      | some (.tables all) =>
        (assignAll s.assignments []).map fun t => entries.put s.key (.tables (all ++ [t]))
      | some _ => none
    else
      match entries.get? s.key with
      | none => (assignAll s.assignments []).map fun t => entries.put s.key (.table .header t)
      | some (.table .implied below) =>
        (assignAll s.assignments below).map fun t => entries.put s.key (.table .header t)
      | some _ => none

/-- The table that the assignments above all headers and the sections
below make. -/
def tableOf (assignments : List Assignment) (sections : List Section) :
    Option (List (String × Value)) := do
  let entries ← assignAll assignments []
  let entries ← sections.foldlM (fun entries s => s.addTo entries) entries
  return Item.toValues entries

end GrammarExplorer.Toml
