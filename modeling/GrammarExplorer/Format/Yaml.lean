/-
Snapshots as YAML: a mapping for each node, in block style. Children are set
in by two blanks, behind the dash that begins each of them.
-/
import GrammarExplorer.Format.Registry
import GrammarExplorer.Yaml.Scalar

namespace GrammarExplorer.YamlFormat

/-- The start of a line below the first of a mapping. -/
def margin (indent : Nat) : String := String.ofList (List.replicate indent ' ')

def boolText (b : Bool) : String := if b then "true" else "false"

/-- The fields of a node above its children; the first stands where the
mapping begins. -/
def fields (indent : Nat) (e : SnapshotEntry) : String :=
  "id: " ++ toString e.id ++ "\n"
    ++ margin indent ++ "display_name: " ++ Yaml.scalar (indent + 2) e.label
    ++ margin indent ++ "name: " ++ Yaml.scalar (indent + 2) e.name
    ++ margin indent ++ "kind: " ++ e.kind.name ++ "\n"
    ++ margin indent ++ "edited: " ++ boolText e.edited ++ "\n"
    ++ margin indent ++ "has_children: " ++ boolText e.hasChildren ++ "\n"

mutual

/-- A mapping that is set in by `indent`, without the margin of its first
line. -/
def mapping (indent : Nat) : Snapshot → String
  | .node e children =>
    fields indent e ++ margin indent ++
      match children with
      | [] => "children: []\n"
      | _ => "children:\n" ++ items indent children

/-- A sequence of mappings, not set in further than the key above it. -/
def items (indent : Nat) : List Snapshot → String
  | [] => ""
  | s :: rest => margin indent ++ "- " ++ mapping (indent + 2) s ++ items indent rest

end

def write (s : Snapshot) : String := mapping 0 s

def formatter : Formatter where
  name := "yaml"
  description := "Snapshot as YAML"
  serialize s := .ok (write s)

end GrammarExplorer.YamlFormat
