/-
Snapshots as JSON: an object for each node, with its children in a list.
-/
import GrammarExplorer.Format.Registry
import GrammarExplorer.Json.Printer

namespace GrammarExplorer.JsonFormat

mutual

def toJson : Snapshot → Json
  | .node e children => .object [
      ("id", .number (.integer e.id)),
      ("display_name", .string e.label),
      ("name", .string e.name),
      ("kind", .string e.kind.name),
      ("edited", .bool e.edited),
      ("has_children", .bool e.hasChildren),
      ("children", .array (toJsonAll children))]

def toJsonAll : List Snapshot → List Json
  | [] => []
  | s :: rest => toJson s :: toJsonAll rest

end

/-- The snapshot as a text over several lines, with an end to the last. -/
def write (s : Snapshot) : String := (toJson s).laidOut 0 ++ "\n"

def formatter : Formatter where
  name := "json"
  description := "Snapshot as pretty-printed JSON"
  serialize s := .ok (write s)

end GrammarExplorer.JsonFormat
