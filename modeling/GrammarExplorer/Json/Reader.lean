/-
Reading JSON text.

Each reading function takes the characters still to come and answers with
what it read and the characters after it, or with a `Stop`: the fault and
where it was noticed. The place of a fault is given by the unread text, so
no function has to count; `Json.read` turns it into a line and a column once.
-/
import GrammarExplorer.Json.Basic

namespace GrammarExplorer.Json

/-- What can be wrong with a text. -/
inductive Fault
  | endInValue
  | endInString
  | endInList
  | endInObject
  | expectedValue
  | expectedIdent
  | expectedColon
  | expectedListCommaOrEnd
  | expectedObjectCommaOrEnd
  | trailingComma
  | trailingCharacters
  | keyNotString
  | invalidNumber
  | numberOutOfRange
  | invalidEscape
  | loneSurrogate
  | endOfHexEscape
  | controlCharacter
  | tooDeep
  deriving Repr, DecidableEq

/-- The wording of a fault. -/
def Fault.message : Fault → String
  | endInValue => "EOF while parsing a value"
  | endInString => "EOF while parsing a string"
  | endInList => "EOF while parsing a list"
  | endInObject => "EOF while parsing an object"
  | expectedValue => "expected value"
  | expectedIdent => "expected ident"
  | expectedColon => "expected `:`"
  | expectedListCommaOrEnd => "expected `,` or `]`"
  | expectedObjectCommaOrEnd => "expected `,` or `\x7d`"
  | trailingComma => "trailing comma"
  | trailingCharacters => "trailing characters"
  | keyNotString => "key must be a string"
  | invalidNumber => "invalid number"
  | numberOutOfRange => "number out of range"
  | invalidEscape => "invalid escape"
  | loneSurrogate => "lone leading surrogate in hex escape"
  | endOfHexEscape => "unexpected end of hex escape"
  | controlCharacter => "control character (\\u0000-\\u001F) found while parsing a string"
  | tooDeep => "recursion limit exceeded"

/-- Where reading stopped: the unread text, and how many bytes of it count
as read all the same. -/
structure Stop where
  fault : Fault
  rest : List Char
  ahead : Nat

/-- What a reading function answers: a value and the text after it. -/
abbrev Reading (α : Type) := Except Stop (α × List Char)

/-- Stops in front of the unread text. -/
def stopAt {α : Type} (fault : Fault) (rest : List Char) : Except Stop α :=
  .error ⟨fault, rest, 0⟩

/-- Stops having looked at the next byte. -/
def stopPast {α : Type} (fault : Fault) (rest : List Char) : Except Stop α :=
  .error ⟨fault, rest, 1⟩

def isBlank (c : Char) : Bool := c == ' ' || c == '\n' || c == '\t' || c == '\r'

def skipBlanks (s : List Char) : List Char := s.dropWhile isBlank

/-! ## Words -/

/-- Reads the rest of a word such as `null`. -/
def word : List Char → List Char → Except Stop (List Char)
  | [], s => .ok s
  | _ :: _, [] => stopAt .endInValue []
  | e :: expected, c :: rest =>
    if e == c then word expected rest else stopPast .expectedIdent (c :: rest)

/-! ## Numbers -/

/-- The first number that no longer fits 64 bits. -/
def wordLimit : Nat := 0x10000000000000000

/-- The largest exponent that is told from a larger one. -/
def exponentLimit : Nat := 0x80000000

def digitValue (c : Char) : Nat := c.toNat - '0'.toNat

/-- Takes digits into `significand` as long as it fits 64 bits, and counts
them. -/
def absorbDigits (significand count : Nat) : List Char → Nat × Nat × List Char
  | [] => (significand, count, [])
  | c :: rest =>
    let next := significand * 10 + digitValue c
    if c.isDigit && next < wordLimit then absorbDigits next (count + 1) rest
    else (significand, count, c :: rest)

def startsWithDigit : List Char → Bool
  | [] => false
  | c :: _ => c.isDigit

/-- The power of ten, for exponents up to 308. -/
def powerOfTen (exponent : Nat) : Float := Float.ofScientific 1 false exponent

/-- `x * 10 ^ exponent`, scaled in steps of 308 powers when the exponent is
beyond that; nothing if the result is too large. -/
def scaled? (x : Float) (exponent : Int) : Option Float :=
  if exponent.natAbs ≤ 308 then
    if 0 ≤ exponent then
      let y := x * powerOfTen exponent.toNat
      if y.isInf then none else some y
    else some (x / powerOfTen exponent.natAbs)
  else if x == 0.0 then some x
  else if 0 ≤ exponent then none
  else scaled? (x / powerOfTen 308) (exponent + 308)
termination_by exponent.natAbs
decreasing_by omega

/-- The floating point number with this significand and exponent. -/
def floatOf (positive : Bool) (significand : Nat) (exponent : Int) (rest : List Char) :
    Reading JsonNumber :=
  match scaled? (UInt64.ofNat significand).toFloat exponent with
  | none => stopAt .numberOutOfRange rest
  | some x => .ok (.float (if positive then x else -x), rest)

/-- Takes digits of an exponent up to the limit: its value and the text
after the last digit taken, and whether it went over. -/
def absorbExponent (value : Nat) : List Char → Nat × Bool × List Char
  | [] => (value, false, [])
  | c :: rest =>
    if c.isDigit then
      let next := value * 10 + digitValue c
      if next < exponentLimit then absorbExponent next rest else (value, true, rest)
    else (value, false, c :: rest)

/-- Reads what follows the letter of an exponent. -/
def exponentPart (positive : Bool) (significand : Nat) (exponent : Int) (s : List Char) :
    Reading JsonNumber :=
  let (upward, s) := match s with
    | '+' :: rest => (true, rest)
    | '-' :: rest => (false, rest)
    | _ => (true, s)
  match s with
  | [] => stopAt .endInValue []
  | c :: rest =>
    if c.isDigit then
      let (value, isTooLarge, rest) := absorbExponent (digitValue c) rest
      if isTooLarge then
        if significand != 0 && upward then stopAt .numberOutOfRange rest
        else .ok (.float (if positive then 0.0 else -0.0), rest.dropWhile Char.isDigit)
      else floatOf positive significand (if upward then exponent + value else exponent - value) rest
    else stopPast .invalidNumber (c :: rest)

/-- Ends a number with a fraction: an exponent may follow. -/
def fractionEnd (positive : Bool) (significand : Nat) (exponent : Int) (s : List Char) :
    Reading JsonNumber :=
  match s with
  | 'e' :: rest => exponentPart positive significand exponent rest
  | 'E' :: rest => exponentPart positive significand exponent rest
  | _ => floatOf positive significand exponent s

/-- Reads what follows the point. Digits that no longer fit are dropped. -/
def fractionPart (positive : Bool) (significand : Nat) (exponent : Int) (s : List Char) :
    Reading JsonNumber :=
  let (significand, count, rest) := absorbDigits significand 0 s
  if startsWithDigit rest then
    fractionEnd positive significand (exponent - count) (rest.dropWhile Char.isDigit)
  else if count == 0 then
    match rest with
    | [] => stopAt .endInValue []
    | _ => stopPast .invalidNumber rest
  else fractionEnd positive significand (exponent - count) rest

/-- A number of integer digits alone. Zero with a sign is no integer. -/
def integerOf (positive : Bool) (significand : Nat) : JsonNumber :=
  if positive then .integer significand
  else if significand == 0 || 0x8000000000000000 < significand then
    .float (-(UInt64.ofNat significand).toFloat)
  else .integer (-(significand : Int))

/-- Reads a number from its first digit on. -/
def numberPart (positive : Bool) : List Char → Reading JsonNumber
  | [] => stopAt .endInValue []
  | c :: rest =>
    if c == '0' && startsWithDigit rest then stopPast .invalidNumber rest
    else if c.isDigit then
      let (significand, _, rest) :=
        if c == '0' then (0, 0, rest) else absorbDigits (digitValue c) 0 rest
      let beyond := rest.takeWhile Char.isDigit
      let rest := rest.dropWhile Char.isDigit
      match rest with
      | '.' :: rest => fractionPart positive significand beyond.length rest
      | 'e' :: rest => exponentPart positive significand beyond.length rest
      | 'E' :: rest => exponentPart positive significand beyond.length rest
      | _ =>
        if beyond.isEmpty then .ok (integerOf positive significand, rest)
        else floatOf positive significand beyond.length rest
    else stopPast .invalidNumber (c :: rest)

/-! ## Strings -/

def hexValue? (c : Char) : Option Nat :=
  if c.isDigit then some (digitValue c)
  else if 'a' ≤ c && c ≤ 'f' then some (c.toNat - 'a'.toNat + 10)
  else if 'A' ≤ c && c ≤ 'F' then some (c.toNat - 'A'.toNat + 10)
  else none

def byteCount (s : List Char) : Nat := s.foldl (fun n c => n + c.utf8Size) 0

/-- The number written by the next four hexadecimal digits. -/
def hexFour (s : List Char) : Except Stop Nat :=
  if byteCount (s.take 4) < 4 then stopAt .endInString []
  else match (s.take 4).map hexValue? with
    | [some a, some b, some c, some d] => .ok (((a * 16 + b) * 16 + c) * 16 + d)
    | _ => .error ⟨.invalidEscape, s, 4⟩

/-- The character of an escape that names its code unit, given the text
after the letter `u`, and the number of characters it takes. Two surrogates
make one character. -/
def unicodeEscape (s : List Char) : Except Stop (Char × Nat) := do
  let high ← hexFour s
  let rest := s.drop 4
  if 0xDC00 ≤ high && high ≤ 0xDFFF then stopAt .loneSurrogate rest
  else if high < 0xD800 || 0xDBFF < high then .ok (Char.ofNat high, 4)
  else match rest with
    | [] => stopAt .endInString []
    | '\\' :: [] => stopAt .endInString []
    | '\\' :: 'u' :: rest =>
      let low ← hexFour rest
      if low < 0xDC00 || 0xDFFF < low then stopAt .loneSurrogate (rest.drop 4)
      else .ok (Char.ofNat (0x10000 + (high - 0xD800) * 0x400 + (low - 0xDC00)), 10)
    | '\\' :: rest => stopPast .endOfHexEscape rest
    | _ => stopPast .endOfHexEscape rest

/-- The character an escape stands for, given the text after the backslash,
and the number of characters it takes. -/
def escape (s : List Char) : Except Stop (Char × Nat) :=
  match s with
  | [] => stopAt .endInString []
  | '"' :: _ => .ok ('"', 1)
  | '\\' :: _ => .ok ('\\', 1)
  | '/' :: _ => .ok ('/', 1)
  | 'b' :: _ => .ok ('\x08', 1)
  | 'f' :: _ => .ok ('\x0c', 1)
  | 'n' :: _ => .ok ('\n', 1)
  | 'r' :: _ => .ok ('\r', 1)
  | 't' :: _ => .ok ('\t', 1)
  | 'u' :: rest => (unicodeEscape rest).map fun (c, n) => (c, n + 1)
  | _ => stopPast .invalidEscape s

/-- Reads a string from behind its opening quote; the characters so far come
last one first. -/
def stringPart (soFar : List Char) (s : List Char) : Reading String :=
  match s with
  | [] => stopAt .endInString []
  | '"' :: rest => .ok (String.ofList soFar.reverse, rest)
  | '\\' :: rest =>
    match escape rest with
    | .error stop => .error stop
    | .ok (c, taken) => stringPart (c :: soFar) (rest.drop taken)
  | c :: rest =>
    if c.toNat < 0x20 then stopAt .controlCharacter rest else stringPart (c :: soFar) rest
termination_by s.length
decreasing_by all_goals simp; try omega

/-! ## Values -/

/-- Reads the items of a list from behind its bracket, or from behind an
item when `first` is false; the items so far come last one first. -/
def itemsPart (item : List Char → Reading Json) (first : Bool) (soFar : List Json)
    (s : List Char) : Reading (List Json) :=
  let next (start : List Char) : Reading (List Json) :=
    match item start with
    | .error stop => .error stop
    | .ok (value, rest) =>
      if rest.length < s.length then itemsPart item false (value :: soFar) rest
      else stopPast .expectedValue start
  match skipBlanks s with
  | [] => stopAt .endInList []
  | ']' :: rest => .ok (soFar.reverse, rest)
  | c :: rest =>
    if first then next (c :: rest)
    else if c == ',' then
      match skipBlanks rest with
      | [] => stopAt .endInValue []
      | ']' :: rest => stopPast .trailingComma (']' :: rest)
      | start => next start
    else stopPast .expectedListCommaOrEnd (c :: rest)
termination_by s.length

/-- Reads the members of an object from behind its brace, or from behind a
member when `first` is false. -/
def membersPart (item : List Char → Reading Json) (first : Bool) (soFar : List (String × Json))
    (s : List Char) : Reading (List (String × Json)) :=
  let next (start : List Char) : Reading (List (String × Json)) :=
    match stringPart [] start with
    | .error stop => .error stop
    | .ok (key, rest) =>
      match skipBlanks rest with
      | [] => stopAt .endInObject []
      | ':' :: rest =>
        match item rest with
        | .error stop => .error stop
        | .ok (value, rest) =>
          if rest.length < s.length then membersPart item false (setMember soFar key value) rest
          else stopPast .expectedValue start
      | other => stopPast .expectedColon other
  match skipBlanks s with
  | [] => stopAt .endInObject []
  | '\x7d' :: rest => .ok (soFar, rest)
  | c :: rest =>
    if first then
      if c == '"' then next rest else stopPast .keyNotString (c :: rest)
    else if c == ',' then
      match skipBlanks rest with
      | [] => stopAt .endInValue []
      | '"' :: rest => next rest
      | '\x7d' :: rest => stopPast .trailingComma ('\x7d' :: rest)
      | other => stopPast .keyNotString other
    else stopPast .expectedObjectCommaOrEnd (c :: rest)
termination_by s.length

/-- Reads a value that may nest `depth` lists and objects. -/
def valuePart (depth : Nat) (s : List Char) : Reading Json :=
  match skipBlanks s with
  | [] => stopAt .endInValue []
  | 'n' :: rest => (word ['u', 'l', 'l'] rest).map fun rest => (.null, rest)
  | 't' :: rest => (word ['r', 'u', 'e'] rest).map fun rest => (.bool true, rest)
  | 'f' :: rest => (word ['a', 'l', 's', 'e'] rest).map fun rest => (.bool false, rest)
  | '-' :: rest => (numberPart false rest).map fun (n, rest) => (.number n, rest)
  | '"' :: rest => (stringPart [] rest).map fun (text, rest) => (.string text, rest)
  | '[' :: rest =>
    match depth with
    | 0 => stopPast .tooDeep ('[' :: rest)
    | depth + 1 =>
      (itemsPart (valuePart depth) true [] rest).map fun (items, rest) => (.array items, rest)
  | '\x7b' :: rest =>
    match depth with
    | 0 => stopPast .tooDeep ('\x7b' :: rest)
    | depth + 1 =>
      (membersPart (valuePart depth) true [] rest).map fun (members, rest) =>
        (.object members, rest)
  | c :: rest =>
    if c.isDigit then (numberPart true (c :: rest)).map fun (n, rest) => (.number n, rest)
    else stopPast .expectedValue (c :: rest)

/-- The number of lists and objects that may lie in one another. -/
def depthLimit : Nat := 127

/-- A fault and its place: the line, counted from one, and the number of
bytes of the line that were read. -/
structure SyntaxError where
  fault : Fault
  line : Nat
  column : Nat
  deriving Repr, DecidableEq

def SyntaxError.message (e : SyntaxError) : String :=
  e.fault.message ++ " at line " ++ toString e.line ++ " column " ++ toString e.column

/-- The line and column after `offset` bytes of the text, starting from a
given line and column. -/
def locate (line column : Nat) (s : List Char) (offset : Nat) : Nat × Nat :=
  match s with
  | [] => (line, column)
  | c :: rest =>
    if offset < c.utf8Size then (line, column + offset)
    else if c == '\n' then locate (line + 1) 0 rest (offset - 1)
    else locate line (column + c.utf8Size) rest (offset - c.utf8Size)

/-- The place of a stop in the text it stopped in. -/
def Stop.inText (stop : Stop) (text : List Char) : SyntaxError :=
  let offset := byteCount text - byteCount stop.rest + min stop.ahead (byteCount stop.rest)
  let (line, column) := locate 1 0 text offset
  ⟨stop.fault, line, column⟩

/-- Reads a text that holds one value and nothing else. -/
def readChars (text : List Char) : Except Stop Json :=
  match valuePart depthLimit text with
  | .error stop => .error stop
  | .ok (value, rest) =>
    match skipBlanks rest with
    | [] => .ok value
    | other => stopPast .trailingCharacters other

/-- Reads a JSON text. -/
def read (text : String) : Except SyntaxError Json :=
  (readChars text.toList).mapError (·.inText text.toList)

end GrammarExplorer.Json
