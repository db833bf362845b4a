import GrammarExplorer.CommandLine.Arguments
import GrammarExplorer.CommandLine.Run
import GrammarExplorer.Decimal.Notation
import GrammarExplorer.Decimal.Reading
import GrammarExplorer.Decimal.Shortest
import GrammarExplorer.Derivation.Builder
import GrammarExplorer.Derivation.Expansion
import GrammarExplorer.Derivation.Node
import GrammarExplorer.Derivation.Tree
import GrammarExplorer.Diagnostic
import GrammarExplorer.Explorer
import GrammarExplorer.Files
import GrammarExplorer.Format.Builtin
import GrammarExplorer.Format.Drawing
import GrammarExplorer.Format.Error
import GrammarExplorer.Format.Json
import GrammarExplorer.Format.Registry
import GrammarExplorer.Format.Yaml
import GrammarExplorer.Grammar.Abstract
import GrammarExplorer.Grammar.Basic
import GrammarExplorer.Grammar.Concrete
import GrammarExplorer.Grammar.Document
import GrammarExplorer.Grammar.Error
import GrammarExplorer.Grammar.Indexed
import GrammarExplorer.Grammar.Load
import GrammarExplorer.Grammar.NameIndex
import GrammarExplorer.Grammar.Removal
import GrammarExplorer.Grammar.Source
import GrammarExplorer.Json.Basic
import GrammarExplorer.Json.Decode
import GrammarExplorer.Json.Printer
import GrammarExplorer.Json.Reader
import GrammarExplorer.Linearization
import GrammarExplorer.Log
import GrammarExplorer.Main
import GrammarExplorer.Proofs.CommandLine.Alternatives
import GrammarExplorer.Proofs.Derivation.Ancestors
import GrammarExplorer.Proofs.Derivation.Edits
import GrammarExplorer.Proofs.Derivation.Layout
import GrammarExplorer.Proofs.Derivation.Reachability
import GrammarExplorer.Proofs.Derivation.Sharing
import GrammarExplorer.Proofs.Derivation.Simulation
import GrammarExplorer.Proofs.Diagnostic
import GrammarExplorer.Proofs.Except
import GrammarExplorer.Proofs.Explorer.Loads
import GrammarExplorer.Proofs.Format.Drawing
import GrammarExplorer.Proofs.Format.Json
import GrammarExplorer.Proofs.Format.Lines
import GrammarExplorer.Proofs.Format.Yaml
import GrammarExplorer.Proofs.Grammar.Acceptance
import GrammarExplorer.Proofs.Grammar.Conversion
import GrammarExplorer.Proofs.Grammar.Declaration
import GrammarExplorer.Proofs.Grammar.Fidelity
import GrammarExplorer.Proofs.Grammar.Load
import GrammarExplorer.Proofs.Grammar.NameIndex
import GrammarExplorer.Proofs.Grammar.Rearrangement
import GrammarExplorer.Proofs.Grammar.Shape
import GrammarExplorer.Proofs.Json.Alike
import GrammarExplorer.Proofs.Json.Keyed
import GrammarExplorer.Proofs.Json.RoundTrip
import GrammarExplorer.Proofs.Json.Scalar
import GrammarExplorer.Proofs.Json.Shape
import GrammarExplorer.Proofs.Linearization.Wording
import GrammarExplorer.Proofs.Rose
import GrammarExplorer.Proofs.Session.Alternatives
import GrammarExplorer.Proofs.Session.Diagnostics
import GrammarExplorer.Proofs.Session.Independence
import GrammarExplorer.Proofs.Session.Integrity
import GrammarExplorer.Proofs.Session.Language
import GrammarExplorer.Proofs.Session.OffersBelow
import GrammarExplorer.Proofs.Session.Refusals
import GrammarExplorer.Proofs.Session.Undo
import GrammarExplorer.Proofs.Snapshot
import GrammarExplorer.Proofs.Viewer.Cursor
import GrammarExplorer.Proofs.Viewer.Edits
import GrammarExplorer.Proofs.Viewer.Folding
import GrammarExplorer.Proofs.Viewer.Menu
import GrammarExplorer.Proofs.Viewer.Outline
import GrammarExplorer.Proofs.Viewer.Press
import GrammarExplorer.Rose
import GrammarExplorer.Session.Basic
import GrammarExplorer.Session.InPlace
import GrammarExplorer.Session.Indexed
import GrammarExplorer.Session.Operation
import GrammarExplorer.Settings.Basic
import GrammarExplorer.Settings.Decode
import GrammarExplorer.Settings.Error
import GrammarExplorer.Settings.Layer
import GrammarExplorer.Settings.Path
import GrammarExplorer.Settings.Value
import GrammarExplorer.Snapshot
import GrammarExplorer.Text.Cased
import GrammarExplorer.Text.Lowercase
import GrammarExplorer.Text.Printable
import GrammarExplorer.Text.Quoted
import GrammarExplorer.Text.Ranges
import GrammarExplorer.Text.Width
import GrammarExplorer.Toml.DateTime
import GrammarExplorer.Toml.Reader
import GrammarExplorer.Toml.Value
import GrammarExplorer.Viewer.Basic
import GrammarExplorer.Viewer.Canvas
import GrammarExplorer.Viewer.Key
import GrammarExplorer.Viewer.Outline
import GrammarExplorer.Viewer.Screen
import GrammarExplorer.Yaml.Scalar
import GrammarExplorer.Proofs.Derivation.Depth
import GrammarExplorer.Proofs.CommandLine.Precedence
import GrammarExplorer.Proofs.CommandLine.Tree
import GrammarExplorer.Proofs.Derivation.Arena
import GrammarExplorer.Proofs.Viewer.Languages
import GrammarExplorer.Proofs.Viewer.Panes
import GrammarExplorer.Proofs.Viewer.Traversal
