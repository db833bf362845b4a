/-
From raw settings to settings.

A value that is not of the wanted type but says the same as one that is does
as well: a number for a text, a word such as `yes` for a truth value. A
section is a table, or a list of its settings in order.
-/
import GrammarExplorer.Decimal.Notation
import GrammarExplorer.Settings.Basic
import GrammarExplorer.Settings.Error
import GrammarExplorer.Text.Quoted

namespace GrammarExplorer.Settings

namespace Value

/-- A value as the errors about a single setting show it. -/
def described : Value → String
  | .scalar _ .nil => "unit value"
  | .scalar _ (.boolean b) => "boolean `" ++ toString b ++ "`"
  | .scalar _ (.integer i) => "64-bit integer `" ++ toString i ++ "`"
  | .scalar _ (.float x) => "floating point `" ++ Decimal.plainText x ++ "`"
  | .scalar _ (.text s) => "string " ++ Text.quoted s
  | .list _ _ => "sequence"
  | .table _ _ => "map"

/-- A value as the errors about a section show it. -/
def describedForSection : Value → String
  | .scalar _ (.integer i) => "integer `" ++ toString i ++ "`"
  | .scalar _ (.float x) => "floating point `" ++ Decimal.pointedText x ++ "`"
  | v => v.described

end Value

/-- A decoder of one setting. It is given the name to complain under. -/
abbrev Decoder (α : Type) := String → Value → Except SettingsError α

def mismatch {α : Type} (found wanted : String) (key : String) (v : Value) :
    Except SettingsError α :=
  .error (.wrongType found wanted key v.origin)

def decodeText : Decoder String := fun key v =>
  match v with
  | .scalar _ (.text s) => .ok s
  | .scalar _ (.boolean b) => .ok (toString b)
  | .scalar _ (.integer i) => .ok (toString i)
  | .scalar _ (.float x) => .ok (Decimal.plainText x)
  | v => mismatch v.described "a string" key v

/-- The words for a truth value, in small letters. -/
def truthOfWord? (word : String) : Option Bool :=
  if ["true", "on", "yes"].contains word then some true
  else if ["false", "off", "no"].contains word then some false
  else none

def decodeBoolean : Decoder Bool := fun key v =>
  match v with
  | .scalar _ (.boolean b) => .ok b
  | .scalar _ (.integer i) => .ok (i != 0)
  | .scalar _ (.float x) => .ok (x != 0.0)
  | .scalar origin (.text s) =>
    let word := Text.lowercase s
    match truthOfWord? word with
    | some b => .ok b
    | none =>
      if word == "1" then .ok true
      else if word == "0" then .ok false
      else mismatch (Value.scalar origin (.text word)).described "a boolean" key v
  | v => mismatch v.described "a boolean" key v

/-- The natural number of at most 64 bits that a text writes, perhaps after
a plus sign. -/
def natOfText? (s : String) : Option Nat :=
  let digits := match s.toList with
    | '+' :: rest => rest
    | digits => digits
  if digits.isEmpty || !digits.all Char.isDigit then none
  else
    let n := digits.foldl (fun n c => n * 10 + (c.toNat - '0'.toNat)) 0
    if n < 0x10000000000000000 then some n else none

/-- The nearest natural number of at most 64 bits; a half is rounded up. -/
def natOfFloat (x : Float) : Nat := x.round.toUInt64.toNat

def decodeNat : Decoder Nat := fun key v =>
  match v with
  | .scalar _ (.boolean b) => .ok b.toNat
  | .scalar _ (.integer i) =>
    if 0 ≤ i then .ok i.toNat
    else mismatch v.described "an unsigned 64 bit or less integer" key v
  | .scalar _ (.float x) => .ok (natOfFloat x)
  | .scalar _ (.text s) =>
    match truthOfWord? (Text.lowercase s) with
    | some b => .ok b.toNat
    | none =>
      match natOfText? s with
      | some n => .ok n
      | none => mismatch v.described "an integer" key v
  | v => mismatch v.described "an integer" key v

/-- A natural number of at most 16 bits. -/
def decodeSmallNat : Decoder Nat := fun key v => do
  let n ← decodeNat key v
  if n < 0x10000 then .ok n
  else
    .error (.wrongType ("64-bit unsigned integer `" ++ toString n ++ "`")
      "an unsigned 16 bit integer" key none)

/-- What a section of the settings is called, and its settings in order. -/
structure SectionShape where
  key : String
  title : String
  fields : List String

namespace SectionShape

variable (s : SectionShape)

/-- The value of a setting in a section and the name it goes by. -/
def field (v : Value) (name : String) : Except SettingsError (String × Value) :=
  match v with
  | .table _ _ =>
    match v.get? name with
    | some found => .ok (s.key ++ "." ++ name, found)
    | none => .error (.missingField name)
  | .list _ items =>
    let i := s.fields.idxOf name
    match items[i]? with
    | some found => .ok (s.key ++ "[" ++ toString i ++ "]", found)
    | none =>
      let count := toString s.fields.length ++ (if s.fields.length == 1 then " element" else " elements")
      .error (.wrongLength i ("struct " ++ s.title ++ " with " ++ count))
  | .scalar _ _ => .error (.wrongSection v.describedForSection ("struct " ++ s.title))

/-- One setting of a section. -/
def decode {α : Type} (v : Value) (name : String) (decode : Decoder α) : Except SettingsError α := do
  let (key, found) ← s.field v name
  decode key found

end SectionShape

def displayShape : SectionShape :=
  ⟨"display", "DisplayConfig", ["language", "linearization_separator", "start_category"]⟩

def viewerShape : SectionShape := ⟨"viewer", "ViewerConfig", ["tree_width", "show_icons"]⟩

def outputShape : SectionShape := ⟨"output", "OutputConfig", ["format"]⟩

def decodeDisplay (v : Value) : Except SettingsError DisplaySettings := do
  return {
    language := ← displayShape.decode v "language" decodeText
    linearizationSeparator := ← displayShape.decode v "linearization_separator" decodeText
    startCategory := ← displayShape.decode v "start_category" decodeText }

def decodeViewer (v : Value) : Except SettingsError ViewerSettings := do
  return {
    treeWidth := ← viewerShape.decode v "tree_width" decodeSmallNat
    showIcons := ← viewerShape.decode v "show_icons" decodeBoolean }

def decodeOutput (v : Value) : Except SettingsError OutputSettings := do
  return { format := ← outputShape.decode v "format" decodeText }

/-- A section of the raw settings. -/
def sectionOf (v : Value) (key : String) : Except SettingsError Value :=
  match v.get? key with
  | some found => .ok found
  | none => .error (.missingField key)

/-- The settings that raw settings say. -/
def decode (v : Value) : Except SettingsError Settings := do
  return {
    display := ← decodeDisplay (← sectionOf v "display")
    viewer := ← decodeViewer (← sectionOf v "viewer")
    output := ← decodeOutput (← sectionOf v "output") }

/-- Settings as raw settings from no file. -/
def encode (s : Settings) : Value :=
  let text (s : String) : Value := .scalar none (.text s)
  .table none [
    ("display", .table none [
      ("language", text s.display.language),
      ("linearization_separator", text s.display.linearizationSeparator),
      ("start_category", text s.display.startCategory)]),
    ("viewer", .table none [
      ("tree_width", .scalar none (.integer s.viewer.treeWidth)),
      ("show_icons", .scalar none (.boolean s.viewer.showIcons))]),
    ("output", .table none [("format", text s.output.format)])]

end GrammarExplorer.Settings
