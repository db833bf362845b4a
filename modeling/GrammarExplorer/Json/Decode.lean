/-
Taking typed values out of JSON, with an error that says what was found and
what was wanted.

A record is read from an object, whose unknown keys are ignored, or from a
list of its fields in order.
-/
import GrammarExplorer.Json.Printer
import GrammarExplorer.Text.Quoted

namespace GrammarExplorer.Json

/-- The value as an error shows it. -/
def description : Json → String
  | null => "null"
  | bool b => "boolean `" ++ toString b ++ "`"
  | number (.integer i) => "integer `" ++ toString i ++ "`"
  | number (.float x) => "floating point `" ++ floatText x ++ "`"
  | string s => "string " ++ Text.quoted s
  | array _ => "sequence"
  | object _ => "map"

/-- Why a value could not be decoded. -/
inductive DecodeError
  | wrongType (found wanted : String)
  | wrongValue (found wanted : String)
  | wrongLength (length : Nat) (wanted : String)
  | missingField (name : String)
  deriving Repr, DecidableEq

def DecodeError.message : DecodeError → String
  | wrongType found wanted => "invalid type: " ++ found ++ ", expected " ++ wanted
  | wrongValue found wanted => "invalid value: " ++ found ++ ", expected " ++ wanted
  | wrongLength length wanted => "invalid length " ++ toString length ++ ", expected " ++ wanted
  | missingField name => "missing field `" ++ name ++ "`"

/-- A decoder takes a value or says why it cannot. -/
abbrev Decoder (α : Type) := Json → Except DecodeError α

/-- The value is not of the wanted type. -/
def mismatch {α : Type} (wanted : String) (v : Json) : Except DecodeError α :=
  .error (.wrongType v.description wanted)

/-- The value is of the wanted type but out of its range. -/
def outOfRange {α : Type} (wanted : String) (v : Json) : Except DecodeError α :=
  .error (.wrongValue v.description wanted)

def decodeString : Decoder String
  | string s => .ok s
  | v => mismatch "a string" v

/-- A natural number, as large as the reader makes integers. -/
def decodeIndex : Decoder Nat
  | number (.integer i) =>
    if 0 ≤ i then .ok i.toNat else outOfRange "usize" (number (.integer i))
  | v => mismatch "usize" v

/-- An integer of 64 bits with sign. -/
def decodeInteger : Decoder Int
  | number (.integer i) =>
    if i < 0x8000000000000000 then .ok i else outOfRange "i64" (number (.integer i))
  | v => mismatch "i64" v

/-- Anything at all. -/
def decodeAny : Decoder Json := .ok

/-- A value that may be null instead. -/
def decodeOptional {α : Type} (decode : Decoder α) : Decoder (Option α)
  | null => .ok none
  | v => (decode v).map some

def decodeList {α : Type} (decode : Decoder α) : Decoder (List α)
  | array items => items.mapM decode
  | v => mismatch "a sequence" v

/-- An object whose values are all of one kind, in its own order. -/
def decodeDictionary {α : Type} (decode : Decoder α) : Decoder (List (String × α))
  | object members => members.mapM fun (k, v) => (decode v).map (k, ·)
  | v => mismatch "a map" v

/-- A field of a record, and whether a list of its fields may stop before
it. -/
structure Field where
  name : String
  omissible : Bool

/-- How the fields of a record are taken up one by one. `blank` is a record
none of whose fields is known yet; `put` takes up the field of that name;
`finish` fills in what may be left out and complains about the rest. -/
structure RecordDecoder (δ α : Type) where
  title : String
  fields : List Field
  blank : δ
  put : δ → String → Json → Except DecodeError δ
  finish : δ → Except DecodeError α

namespace RecordDecoder

variable {δ α : Type} (r : RecordDecoder δ α)

/-- The wanted shape in the words of a length error. -/
def shape : String :=
  "struct " ++ r.title ++ " with " ++ toString r.fields.length
    ++ (if r.fields.length == 1 then " element" else " elements")

/-- Takes up the members of an object in their order; unknown ones are
passed over. -/
def putMembers (draft : δ) (members : List (String × Json)) : Except DecodeError δ :=
  members.foldlM
    (fun d (k, v) => if r.fields.any (·.name == k) then r.put d k v else .ok d) draft

/-- Takes up the items of a list as the fields in their order. -/
def putItems (draft : δ) (items : List Json) : Except DecodeError δ :=
  (r.fields.zip items).foldlM (fun d (field, v) => r.put d field.name v) draft

/-- The position of the first field that a list of `count` items would have
to hold but does not. -/
def missingAfter (count : Nat) : Option Nat :=
  ((r.fields.drop count).findIdx? (!·.omissible)).map (count + ·)

def decode : Decoder α
  | object members => do r.finish (← r.putMembers r.blank members)
  | array items => do
    let draft ← r.putItems r.blank items
    match r.missingAfter items.length with
    | some position => .error (.wrongLength position r.shape)
    | none =>
      let value ← r.finish draft
      if r.fields.length < items.length then
        .error (.wrongLength items.length "fewer elements in array")
      else .ok value
  | v => mismatch ("struct " ++ r.title) v

end RecordDecoder

end GrammarExplorer.Json
