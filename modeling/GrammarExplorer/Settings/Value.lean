/-
Raw settings: what the layers say, before anything is known about what a
setting should be. A value remembers the file it is from.

A table that is laid over another one replaces it key by key, at any depth.
Keys differ in more than capitals: each is kept in small letters.
-/
import GrammarExplorer.Text.Lowercase
import GrammarExplorer.Toml.Value

namespace GrammarExplorer.Settings

inductive Scalar
  | nil
  | boolean (value : Bool)
  | integer (value : Int)
  | float (value : Float)
  | text (value : String)

inductive Value
  | scalar (origin : Option String) (value : Scalar)
  | list (origin : Option String) (items : List Value)
  | table (origin : Option String) (entries : List (String × Value))

namespace Value

def nil : Value := .scalar none .nil

/-- The entries of a table. What is no table has none. -/
def entries : Value → List (String × Value)
  | table _ entries => entries
  | _ => []

/-- The items of a list. What is no list has none. -/
def items : Value → List Value
  | list _ items => items
  | _ => []

/-- The file the value is from. -/
def origin : Value → Option String
  | scalar origin _ => origin
  | list origin _ => origin
  | table origin _ => origin

/-- The origin of a value that is kept as a table: one that is made a table
is from no file. -/
def tableOrigin : Value → Option String
  | table origin _ => origin
  | _ => none

def listOrigin : Value → Option String
  | list origin _ => origin
  | _ => none

/-- What stands under a key. -/
def get? (v : Value) (key : String) : Option Value :=
  (v.entries.find? (·.1 == Text.lowercase key)).map (·.2)

/-- Puts a value under a key, in the place of what is there. -/
def put (v : Value) (key : String) (new : Value) : Value :=
  let key := Text.lowercase key
  .table v.tableOrigin <|
    if v.entries.any (·.1 == key) then
      v.entries.map fun e => if e.1 == key then (key, new) else e
    else v.entries ++ [(key, new)]

/-- Where a position is in a list of a given length. A negative position
counts from the end. -/
def indexOf (count : Nat) (position : Int) : Nat :=
  if position < 0 then count - position.natAbs else position.natAbs

/-- The items of a list that has grown until it has a position. -/
def grown (items : List Value) (position : Int) : List Value :=
  if position < 0 then List.replicate (position.natAbs - items.length) nil ++ items
  else items ++ List.replicate (position.natAbs + 1 - items.length) nil

/-- What stands at a position. -/
def getAt? (v : Value) (position : Int) : Option Value :=
  let items := grown v.items position
  items[indexOf items.length position]?

/-- Puts a value at a position of a list, which grows as far as it has
to. -/
def putAt (v : Value) (position : Int) (new : Value) : Value :=
  let items := grown v.items position
  .list v.listOrigin (items.set (indexOf items.length position) new)

mutual

/-- Lays a value over what stands under a key: a table is merged into it,
anything else replaces it. -/
def layAt (v : Value) (key : String) (new : Value) : Value :=
  match new with
  | .table _ entries => v.put key (layAll ((v.get? key).getD (.table none [])) entries)
  | new => v.put key new

/-- Lays entries over a value, one after the other. -/
def layAll (v : Value) (entries : List (String × Value)) : Value :=
  match entries with
  | [] => v
  | (key, new) :: rest => layAll (v.layAt key new) rest

end

mutual

/-- A value of a file. Dates and times are texts here. -/
def ofToml (origin : Option String) : Toml.Value → Value
  | .string text => .scalar origin (.text text)
  | .integer value => .scalar origin (.integer value)
  | .float value => .scalar origin (.float value)
  | .boolean value => .scalar origin (.boolean value)
  | .dateTime text => .scalar origin (.text text)
  | .array items => .list origin (ofItems origin items)
  | .table entries => .table origin (ofEntries origin entries)

def ofItems (origin : Option String) : List Toml.Value → List Value
  | [] => []
  | v :: rest => ofToml origin v :: ofItems origin rest

def ofEntries (origin : Option String) : List (String × Toml.Value) → List (String × Value)
  | [] => []
  | (key, v) :: rest => (key, ofToml origin v) :: ofEntries origin rest

end

end Value

end GrammarExplorer.Settings
