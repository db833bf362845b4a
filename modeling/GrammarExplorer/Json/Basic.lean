/-
JSON values. The members of an object keep their order and have different
keys: setting a key again keeps its place and takes the new value. Integers
are kept apart from floating point numbers, as `1` and `1.0` are written
differently.
-/
namespace GrammarExplorer

/-- A JSON number. The reader makes integers of whatever fits 64 bits
(unsigned, or signed when negative), and floating point numbers of all
else. -/
inductive JsonNumber
  | integer (value : Int)
  | float (value : Float)

inductive Json
  | null
  | bool (value : Bool)
  | number (value : JsonNumber)
  | string (value : String)
  | array (items : List Json)
  | object (members : List (String × Json))

namespace Json

/-- Sets a member: in its old place if the key is there, else at the end. -/
def setMember (members : List (String × Json)) (key : String) (value : Json) :
    List (String × Json) :=
  if members.any (·.1 == key) then
    members.map fun m => if m.1 == key then (key, value) else m
  else members ++ [(key, value)]

/-- The value under a key. -/
def member? (members : List (String × Json)) (key : String) : Option Json :=
  (members.find? (·.1 == key)).map (·.2)

/-- The field of an object; nothing for a value of another kind. -/
def field? (key : String) : Json → Option Json
  | object members => member? members key
  | _ => none

/-- The value as a natural number, if it is one. -/
def asNat? : Json → Option Nat
  | number (.integer i) => if 0 ≤ i then some i.toNat else none
  | _ => none

end Json

end GrammarExplorer
