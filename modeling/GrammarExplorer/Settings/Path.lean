/-
Where a setting is: keys with dots between them, and positions in square
brackets.
-/
import GrammarExplorer.Settings.Value

namespace GrammarExplorer.Settings

inductive Step
  | key (name : String)
  | position (index : Int)
  deriving Repr, DecidableEq

/-- A path begins with a key. -/
structure Path where
  first : String
  rest : List Step
  deriving Repr, DecidableEq

/-- Why a text is no path. -/
inductive PathFault
  /-- It does not begin with a key. -/
  | noKey
  /-- What follows is neither a dot with a key nor a bracket, or the bracket
  is not closed. -/
  | strayCharacter
  /-- A bracket without a number. -/
  | noDigit
  /-- A number of more than 64 bits. -/
  | numberTooLarge
  deriving Repr, DecidableEq

def PathFault.message : PathFault → String
  | noKey => "IsA"
  | strayCharacter => "Char"
  | noDigit => "Digit"
  | numberTooLarge => "Map on Result"

namespace Path

def isKeyChar (c : Char) : Bool := c.isAlphanum || c == '_' || c == '-' || c == ' '

def isBlank (c : Char) : Bool := c == ' ' || c == '\t'

/-- The key in front of a text, if there is one. -/
def leadingKey? (s : List Char) : Option String :=
  let key := s.takeWhile isKeyChar
  if key.isEmpty then none else some (String.ofList key)

/-- The number in front of a text. It has to fit 64 bits with its sign. -/
def leadingNumber (s : List Char) : Except PathFault (Int × List Char) :=
  let (negative, digits) := match s with
    | '-' :: rest => (true, rest)
    | s => (false, s)
  let number := digits.takeWhile Char.isDigit
  let n := number.foldl (fun n c => n * 10 + (c.toNat - '0'.toNat)) 0
  if number.isEmpty then .error .noDigit
  else if negative then
    if n ≤ 0x8000000000000000 then .ok (-(n : Int), digits.dropWhile Char.isDigit)
    else .error .numberTooLarge
  else if n < 0x8000000000000000 then .ok (n, digits.dropWhile Char.isDigit)
  else .error .numberTooLarge

/-- The number and the bracket behind an opening bracket. -/
def bracket (s : List Char) : Except PathFault (Int × List Char) := do
  let (n, rest) ← leadingNumber (s.dropWhile isBlank)
  match rest.dropWhile isBlank with
  | ']' :: rest => .ok (n, rest)
  | _ => .error .strayCharacter

/-- The steps behind the first key; those so far come last one first. -/
def steps (soFar : List Step) (s : List Char) : Except PathFault (List Step) :=
  match s with
  | [] => .ok soFar.reverse
  | '.' :: rest =>
    match leadingKey? rest with
    | some name => steps (.key name :: soFar) (rest.dropWhile isKeyChar)
    | none => .error .strayCharacter
  | '[' :: rest =>
    match bracket rest with
    | .ok (n, behind) =>
      if behind.length < rest.length then steps (.position n :: soFar) behind
      else .error .strayCharacter
    | .error fault => .error fault
  | _ => .error .strayCharacter
termination_by s.length
decreasing_by
  · have := (List.dropWhile_sublist (l := rest) isKeyChar).length_le
    simp; omega
  · simp; omega

/-- The path a text writes. -/
def read (text : String) : Except PathFault Path :=
  match leadingKey? text.toList with
  | none => .error .noKey
  | some first => (steps [] (text.toList.dropWhile isKeyChar)).map (⟨first, ·⟩)

end Path

namespace Value

/-- Lays a value over what the steps lead to. Whatever on the way is no
table, or no list, is replaced by one. -/
def laySteps (new : Value) : List Step → Value → Value
  | [], _ => new
  | [.key name], v => v.layAt name new
  | .key name :: rest, v => v.put name (laySteps new rest ((v.get? name).getD .nil))
  | .position i :: rest, v => v.putAt i (laySteps new rest ((v.getAt? i).getD .nil))

/-- Lays a value over what a path leads to. -/
def lay (v : Value) (path : Path) (new : Value) : Value :=
  laySteps new (.key path.first :: path.rest) v

end Value

end GrammarExplorer.Settings
