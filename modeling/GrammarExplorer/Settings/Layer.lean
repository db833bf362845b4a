/-
Settings in layers. The defaults are at the bottom, the files above them in
their order, and single settings on top, wherever they were given.
-/
import GrammarExplorer.Settings.Decode
import GrammarExplorer.Toml.Reader

namespace GrammarExplorer.Settings

inductive Layer
  /-- A file that has to be there. -/
  | file (name : String)
  /-- A file that may be missing. -/
  | optionalFile (name : String)
  /-- A value for a key. -/
  | set (key : String) (value : Scalar)

/-- A path as errors show it, without steps that stay in place. -/
def originOf (path : String) : String :=
  if path.startsWith "/" then path else "/".intercalate (Files.steps path)

/-- The paths that a name may stand for: that of a file with this name, or
else of one with this name and the ending of TOML files. -/
def candidates (name : String) : List String :=
  if (Files.steps name).isEmpty then [] else [name, originOf name ++ ".toml"]

/-- The path of the file that a name stands for. -/
def locate? (files : Files) (name : String) : Option String :=
  (candidates name).find? fun path => (files.bytes? path).isSome

/-- The entries of a file, as far as it can be found and read. -/
def fileEntries (files : Files) (name : String) :
    Except SettingsError (List (String × Value)) :=
  match locate? files name with
  | none => .error (.fileNotFound name)
  | some path =>
    match files.readText path with
    | .error fault => .error (.unreadable fault)
    | .ok text =>
      match Toml.read? text with
      | none => .error (.badFile (originOf path))
      | some entries => .ok (Value.ofEntries (some (originOf path)) entries)

/-- Whether an error comes from a file that is not there or is no text. -/
def isAbsence : SettingsError → Bool
  | .fileNotFound _ => true
  | .unreadable _ => true
  | _ => false

/-- The entries of a layer of files. One that may be missing has none if it
cannot be read. -/
def layerEntries (files : Files) : Layer → Except SettingsError (List (String × Value))
  | .file name => fileEntries files name
  | .optionalFile name =>
    match fileEntries files name with
    | .error e => if isAbsence e then .ok [] else .error e
    | .ok entries => .ok entries
  | .set _ _ => .ok []

/-- Lays an entry of a file over raw settings. Its key may be a whole path
itself. -/
def layEntry (v : Value) (entry : String × Value) : Value :=
  match Path.read entry.1 with
  | .ok path => v.lay path entry.2
  | .error _ => v.layAt entry.1 entry.2

/-- Lays the file of a layer over raw settings. -/
def layFile (files : Files) (v : Value) (layer : Layer) : Except SettingsError Value := do
  return (← layerEntries files layer).foldl layEntry v

/-- The single settings among some layers, with their paths. -/
def overrides : List Layer → Except SettingsError (List (Path × Scalar))
  | [] => .ok []
  | .set key value :: rest =>
    match Path.read key with
    | .error fault => .error (.badPath fault)
    | .ok path => (overrides rest).map ((path, value) :: ·)
  | _ :: rest => overrides rest

/-- The settings that some layers make, laid over the defaults. -/
def load (files : Files) (layers : List Layer) : Except SettingsError Settings := do
  let single ← overrides layers
  let below ← layers.foldlM (layFile files) (encode .default)
  decode (single.foldl (fun v (path, value) => v.lay path (.scalar none value)) below)

end GrammarExplorer.Settings
