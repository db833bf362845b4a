/-
The formats that are there from the start.
-/
import GrammarExplorer.Format.Drawing
import GrammarExplorer.Format.Json
import GrammarExplorer.Format.Yaml

namespace GrammarExplorer.FormatRegistry

/-- A registry of all formats of this library. -/
def builtin : FormatRegistry :=
  ((empty.register Drawing.formatter).register JsonFormat.formatter).register YamlFormat.formatter

end GrammarExplorer.FormatRegistry
