/-
Formats by name. A registry lists its formats in the order of their names,
and a format registered later replaces one of the same name.
-/
import GrammarExplorer.Format.Error
import GrammarExplorer.Snapshot

namespace GrammarExplorer

/-- A way to write a snapshot. -/
structure Formatter where
  name : String
  /-- One line for the list of formats. -/
  description : String
  serialize : Snapshot → Except FormatError String

structure FormatRegistry where
  formatters : List Formatter

namespace FormatRegistry

def empty : FormatRegistry := ⟨[]⟩

/-- Puts a formatter in the place its name has among the others. -/
def insert (f : Formatter) : List Formatter → List Formatter
  | [] => [f]
  | g :: rest =>
    if f.name < g.name then f :: g :: rest
    else if f.name = g.name then f :: rest
    else g :: insert f rest

def register (r : FormatRegistry) (f : Formatter) : FormatRegistry := ⟨insert f r.formatters⟩

variable (r : FormatRegistry)

def find? (name : String) : Option Formatter := r.formatters.find? (·.name == name)

def has (name : String) : Bool := (r.find? name).isSome

/-- Writes a snapshot in the format of a name. -/
def serialize (s : Snapshot) (name : String) : Except FormatError String :=
  match r.find? name with
  | some f => f.serialize s
  | none => .error (.formatNotFound name)

/-- The names of the formats. -/
def names : List String := r.formatters.map (·.name)

end FormatRegistry

end GrammarExplorer
