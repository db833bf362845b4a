/-
JSON as text, compact and laid out on lines.

Inside a string only quotes, backslashes and controls are escaped. A
floating point number has the fewest digits that read back; it is written
with a point between 1e-5 and 1e16, else with an exponent.
-/
import GrammarExplorer.Json.Basic
import GrammarExplorer.Decimal.Notation

namespace GrammarExplorer

/-- Two lower-case hexadecimal digits. -/
def hexPair (n : Nat) : List Char :=
  [Nat.digitChar (n / 16), Nat.digitChar (n % 16)]

namespace Json

/-- One character of a string. -/
def escapeChar (c : Char) : List Char :=
  if c == '"' then ['\\', '"']
  else if c == '\\' then ['\\', '\\']
  else if c == '\n' then ['\\', 'n']
  else if c == '\r' then ['\\', 'r']
  else if c == '\t' then ['\\', 't']
  else if c == '\x08' then ['\\', 'b']
  else if c == '\x0c' then ['\\', 'f']
  else if c.toNat < 0x20 then ['\\', 'u', '0', '0'] ++ hexPair c.toNat
  else [c]

/-- A string with its quotes. -/
def stringText (s : String) : String :=
  String.ofList ('"' :: s.toList.flatMap escapeChar ++ ['"'])

/-- A finite floating point number. -/
def floatText (x : Float) : String :=
  let d := Decimal.shortest x
  String.ofList <|
    if d.coefficient == 0 || (-5 < d.pointAt && d.pointAt ≤ 16) then d.pointed else d.scientific

/-- A number; what is not finite has no text of its own in JSON. -/
def numberText : JsonNumber → String
  | .integer i => toString i
  | .float x => if x.isFinite then floatText x else "null"

mutual

/-- The value on one line, without blanks. -/
def compact : Json → String
  | null => "null"
  | bool true => "true"
  | bool false => "false"
  | number n => numberText n
  | string s => stringText s
  | array items => "[" ++ ",".intercalate (compactItems items) ++ "]"
  | object members => "\x7b" ++ ",".intercalate (compactMembers members) ++ "\x7d"

def compactItems : List Json → List String
  | [] => []
  | v :: rest => compact v :: compactItems rest

def compactMembers : List (String × Json) → List String
  | [] => []
  | (k, v) :: rest => (stringText k ++ ":" ++ compact v) :: compactMembers rest

end

/-- The start of a line that lies `depth` levels deep. -/
def lineStart (depth : Nat) : String :=
  "\n" ++ String.ofList (List.replicate (2 * depth) ' ')

/-- Items on lines of their own between two brackets; nothing between them
if there are none. -/
def bracketed (opening closing : String) (depth : Nat) (items : List String) : String :=
  match items with
  | [] => opening ++ closing
  | _ =>
    opening ++ lineStart (depth + 1) ++ ("," ++ lineStart (depth + 1)).intercalate items
      ++ lineStart depth ++ closing

mutual

/-- The value over several lines, two blanks for each level. -/
def laidOut (depth : Nat) : Json → String
  | null => "null"
  | bool true => "true"
  | bool false => "false"
  | number n => numberText n
  | string s => stringText s
  | array items => bracketed "[" "]" depth (laidOutItems (depth + 1) items)
  | object members => bracketed "\x7b" "\x7d" depth (laidOutMembers (depth + 1) members)

def laidOutItems (depth : Nat) : List Json → List String
  | [] => []
  | v :: rest => laidOut depth v :: laidOutItems depth rest

def laidOutMembers (depth : Nat) : List (String × Json) → List String
  | [] => []
  | (k, v) :: rest => (stringText k ++ ": " ++ laidOut depth v) :: laidOutMembers depth rest

end

end Json

end GrammarExplorer
