/-
Reading TOML text. A reading function takes the characters still to come and
answers with what it read and the characters after it, or with nothing: of a
text that is not TOML nothing more is told.
-/
import GrammarExplorer.Decimal.Reading
import GrammarExplorer.Toml.DateTime
import GrammarExplorer.Toml.Value

namespace GrammarExplorer.Toml

/-! ## Blanks, comments, line ends -/

def isBlank (c : Char) : Bool := c == ' ' || c == '\t'

def skipBlanks (s : List Char) : List Char := s.dropWhile isBlank

/-- A character that may stand in a line: no control but the tab. -/
def isLineChar (c : Char) : Bool := c == '\t' || (0x20 ≤ c.toNat && c.toNat != 0x7F)

/-- The text behind a line end. -/
def newline? : List Char → Option (List Char)
  | '\n' :: rest => some rest
  | '\r' :: '\n' :: rest => some rest
  | _ => none

/-- The text behind a comment, if there is one. -/
def skipComment : List Char → List Char
  | '#' :: rest => rest.dropWhile isLineChar
  | s => s

/-- The text behind the rest of a line on which nothing more may stand. -/
def lineEnd? (s : List Char) : Option (List Char) :=
  match skipComment (skipBlanks s) with
  | [] => some []
  | rest => newline? rest

/-- Skips blanks, line ends, and comments with their line ends. -/
def skipFiller (s : List Char) : Option (List Char) :=
  match skipBlanks s with
  | '#' :: rest =>
    match newline? (skipComment ('#' :: rest)) with
    | some rest => if rest.length < s.length then skipFiller rest else none
    | none => none
  | '\n' :: rest => if rest.length < s.length then skipFiller rest else none
  | '\r' :: rest =>
    match newline? ('\r' :: rest) with
    | some rest => if rest.length < s.length then skipFiller rest else none
    | none => none
  | rest => some rest
termination_by s.length

/-! ## Strings -/

def hexValue? (c : Char) : Option Nat :=
  if c.isDigit then some (c.toNat - '0'.toNat)
  else if 'a' ≤ c && c ≤ 'f' then some (c.toNat - 'a'.toNat + 10)
  else if 'A' ≤ c && c ≤ 'F' then some (c.toNat - 'A'.toNat + 10)
  else none

/-- The character whose code point so many hexadecimal digits write. -/
def codePoint? (count : Nat) (s : List Char) : Option Char := do
  let digits := s.take count
  if digits.length != count then none
  else
    let n ← digits.foldlM (fun n c => (hexValue? c).map (n * 16 + ·)) 0
    if n.isValidChar then some (Char.ofNat n) else none

/-- The character an escape stands for, given the text behind the
backslash, and the number of characters it takes. -/
def escape? : List Char → Option (Char × Nat)
  | 'b' :: _ => some ('\x08', 1)
  | 't' :: _ => some ('\t', 1)
  | 'n' :: _ => some ('\n', 1)
  | 'f' :: _ => some ('\x0c', 1)
  | 'r' :: _ => some ('\r', 1)
  | '"' :: _ => some ('"', 1)
  | '\\' :: _ => some ('\\', 1)
  | 'u' :: rest => (codePoint? 4 rest).map (·, 5)
  | 'U' :: rest => (codePoint? 8 rest).map (·, 9)
  | _ => none

/-- A string on one line, from behind its quote; the characters so far come
last one first. -/
def basicString (soFar : List Char) (s : List Char) : Option (String × List Char) :=
  match s with
  | [] => none
  | '"' :: rest => some (String.ofList soFar.reverse, rest)
  | '\\' :: rest =>
    match escape? rest with
    | some (c, taken) => basicString (c :: soFar) (rest.drop taken)
    | none => none
  | c :: rest => if isLineChar c then basicString (c :: soFar) rest else none
termination_by s.length
decreasing_by all_goals simp; try omega

/-- A string on one line without escapes, from behind its quote. -/
def literalString (s : List Char) : Option (String × List Char) :=
  let text := s.takeWhile fun c => isLineChar c && c != '\''
  match s.dropWhile fun c => isLineChar c && c != '\'' with
  | '\'' :: rest => some (String.ofList text, rest)
  | _ => none

/-- The text behind a backslash at the end of a line: all blanks and line
ends are skipped. -/
def joinedLine? (s : List Char) : Option (List Char) :=
  (newline? (skipBlanks s)).map fun rest => skipGap rest
where
  skipGap : List Char → List Char
    | ' ' :: rest => skipGap rest
    | '\t' :: rest => skipGap rest
    | '\n' :: rest => skipGap rest
    | '\r' :: '\n' :: rest => skipGap rest
    | rest => rest

/-- A string over several lines, from behind its three quotes. Up to two
quotes may stand right before the three that end it. -/
def longString (quote : Char) (escapes : Bool) (soFar : List Char) (s : List Char) :
    Option (String × List Char) :=
  match s with
  | [] => none
  | c :: rest =>
    if c == quote then
      let run := (s.takeWhile (· == quote)).length
      if 3 ≤ run then
        let kept := min (run - 3) 2
        some (String.ofList (soFar.reverse ++ List.replicate kept quote), s.drop (kept + 3))
      else longString quote escapes (quote :: soFar) rest
    else if c == '\\' && escapes then
      match escape? rest with
      | some (c, taken) => longString quote escapes (c :: soFar) (rest.drop taken)
      | none =>
        match joinedLine? rest with
        | some behind =>
          if behind.length < rest.length + 1 then longString quote escapes soFar behind else none
        | none => none
    else if c == '\r' then
      match rest with
      | '\n' :: rest => longString quote escapes ('\n' :: soFar) rest
      | _ => none
    else if c == '\n' || isLineChar c then longString quote escapes (c :: soFar) rest
    else none
termination_by s.length
decreasing_by all_goals simp_all; try omega

/-- A line end right behind the opening quotes does not count. -/
def skipFirstNewline (s : List Char) : List Char := (newline? s).getD s

def stringPart : List Char → Option (String × List Char)
  | '"' :: '"' :: '"' :: rest => longString '"' true [] (skipFirstNewline rest)
  | '\'' :: '\'' :: '\'' :: rest => longString '\'' false [] (skipFirstNewline rest)
  | '"' :: rest => basicString [] rest
  | '\'' :: rest => literalString rest
  | _ => none

/-! ## Numbers -/

/-- The digits of a number, without the underscores between them; nothing
if there is no digit or an underscore is not between two. -/
def digitsOf? (isDigit : Char → Bool) : List Char → Option (List Char)
  | [] => none
  | [c] => if isDigit c then some [c] else none
  | c :: '_' :: rest => if isDigit c then (digitsOf? isDigit rest).map (c :: ·) else none
  | c :: rest => if isDigit c then (digitsOf? isDigit rest).map (c :: ·) else none

def numberIn (base : Nat) (digits : List Char) : Nat :=
  digits.foldl (fun n c => n * base + (hexValue? c).getD 0) 0

/-- The sign in front of a number, and the number. -/
def signOf : List Char → Bool × List Char
  | '-' :: rest => (true, rest)
  | '+' :: rest => (false, rest)
  | s => (false, s)

/-- Decimal digits that do not begin with a zero, unless that is all. -/
def decimalDigits? (s : List Char) : Option (List Char) :=
  match digitsOf? Char.isDigit s with
  | some ['0'] => some ['0']
  | some ('0' :: _) => none
  | other => other

def isIntegerRange (n : Int) : Bool := -0x8000000000000000 ≤ n && n < 0x8000000000000000

def integer? (s : List Char) : Option Int := do
  let based (base : Nat) (rest : List Char) : Option Int := do
    let isDigit (c : Char) := match hexValue? c with
      | some v => v < base
      | none => false
    some (numberIn base (← digitsOf? isDigit rest))
  let n ← match s with
    | '0' :: 'x' :: rest => based 16 rest
    | '0' :: 'o' :: rest => based 8 rest
    | '0' :: 'b' :: rest => based 2 rest
    | _ =>
      let (negative, rest) := signOf s
      let digits ← decimalDigits? rest
      some (if negative then -(numberIn 10 digits : Int) else numberIn 10 digits)
  if isIntegerRange n then some n else none

/-- The exponent of a number, from its letter on. -/
def exponent? : List Char → Option Int
  | [] => some 0
  | c :: rest => do
    if c == 'e' || c == 'E' then
      let (negative, rest) := signOf rest
      let digits ← digitsOf? Char.isDigit rest
      some (if negative then -(numberIn 10 digits : Int) else numberIn 10 digits)
    else none

/-- A floating point number. One that is too large is no number, but one
that is too small is the negative infinity. -/
def float? (s : List Char) : Option Float := do
  let (negative, rest) := signOf s
  let signed (x : Float) : Float := if negative then -x else x
  if rest == ['i', 'n', 'f'] then some (signed (1.0 / 0.0))
  else if rest == ['n', 'a', 'n'] then some (signed (0.0 / 0.0))
  else
    let isWhole (c : Char) := c.isDigit || c == '_'
    let whole ← decimalDigits? (rest.takeWhile isWhole)
    let (fraction, rest) ← match rest.dropWhile isWhole with
      | '.' :: rest => do
        some (← digitsOf? Char.isDigit (rest.takeWhile isWhole), rest.dropWhile isWhole)
      | rest => if rest.isEmpty then none else some ([], rest)
    let exponent ← exponent? rest
    let x := signed (Decimal.toFloat (numberIn 10 (whole ++ fraction)) (exponent - fraction.length))
    if x.isInf && !negative then none else some x

/-- The characters of numbers, dates and bare words. -/
def isWordChar (c : Char) : Bool := c.isAlphanum || "_+-.:".toList.contains c

/-- Whether a time follows a blank, as it may behind a date. -/
def timeFollows : List Char → Bool
  | ' ' :: a :: b :: ':' :: _ => a.isDigit && b.isDigit
  | _ => false

def wordValue? (word : List Char) : Option Value :=
  if word == ['t', 'r', 'u', 'e'] then some (.boolean true)
  else if word == ['f', 'a', 'l', 's', 'e'] then some (.boolean false)
  else match DateTime.read? word with
    | some text => some (.dateTime text)
    | none =>
      match integer? word with
      | some n => some (.integer n)
      | none => (float? word).map .float

/-- A value that is one word, or a date and a time with a blank between
them. -/
def wordPart (s : List Char) : Option (Value × List Char) :=
  let word := s.takeWhile isWordChar
  let rest := s.dropWhile isWordChar
  if (DateTime.date? word).any (·.2.isEmpty) && timeFollows rest then
    let time := (rest.drop 1).takeWhile isWordChar
    (wordValue? (word ++ [' '] ++ time)).map (·, (rest.drop 1).dropWhile isWordChar)
  else (wordValue? word).map (·, rest)

/-! ## Keys -/

def isBareKeyChar (c : Char) : Bool := c.isAlphanum || c == '_' || c == '-'

/-- One part of a key. -/
def simpleKey (s : List Char) : Option (String × List Char) :=
  match s with
  | '"' :: rest => basicString [] rest
  | '\'' :: rest => literalString rest
  | _ =>
    let key := s.takeWhile isBareKeyChar
    if key.isEmpty then none else some (String.ofList key, s.dropWhile isBareKeyChar)

/-- Parts of a key with dots between them. -/
def keyParts (s : List Char) : Option (List String × List Char) :=
  match simpleKey (skipBlanks s) with
  | none => none
  | some (part, rest) =>
    match skipBlanks rest with
    | '.' :: rest =>
      if rest.length < s.length then (keyParts rest).map fun (parts, rest) => (part :: parts, rest)
      else none
    | rest => some ([part], rest)
termination_by s.length

/-- Lists, tables and keys may be this deep. -/
def depthLimit : Nat := 79

/-- A key: the parts up to the last dot, and the last part. -/
def keyPart (s : List Char) : Option ((List String × String) × List Char) := do
  let (parts, rest) ← keyParts s
  if depthLimit < parts.length then none
  else some ((parts.dropLast, ← parts.getLast?), rest)

/-! ## Values -/

/-- The items of a list from behind its bracket or a comma; those so far
come last one first. -/
def arrayPart (item : List Char → Option (Value × List Char)) (soFar : List Value) (s : List Char) :
    Option (List Value × List Char) :=
  match skipFiller s with
  | none => none
  | some (']' :: rest) => some (soFar.reverse, rest)
  | some start =>
    match item start with
    | none => none
    | some (value, rest) =>
      match skipFiller rest with
      | some (']' :: rest) => some ((value :: soFar).reverse, rest)
      | some (',' :: rest) =>
        if rest.length < s.length then arrayPart item (value :: soFar) rest else none
      | _ => none
termination_by s.length

/-- A key, a sign, and a value. -/
def assignmentPart (item : List Char → Option (Value × List Char)) (s : List Char) : Option (Assignment × List Char) := do
  let ((path, key), rest) ← keyPart s
  match rest with
  | '=' :: rest =>
    let (value, rest) ← item (skipBlanks rest)
    some (⟨path, key, value⟩, rest)
  | _ => none

/-- The assignments of a table in braces, from behind the brace or a comma;
those so far come last one first. -/
def inlinePart (item : List Char → Option (Value × List Char)) (soFar : List Assignment) (s : List Char) :
    Option (List Assignment × List Char) :=
  match assignmentPart item s with
  | none => none
  | some (assignment, rest) =>
    match skipBlanks rest with
    | '\x7d' :: rest => some ((assignment :: soFar).reverse, rest)
    | ',' :: rest =>
      if rest.length < s.length then inlinePart item (assignment :: soFar) rest else none
    | _ => none
termination_by s.length

/-- A value that may nest `depth` lists and tables. -/
def valuePart (depth : Nat) (s : List Char) : Option (Value × List Char) :=
  match s with
  | '"' :: _ => (stringPart s).map fun (text, rest) => (.string text, rest)
  | '\'' :: _ => (stringPart s).map fun (text, rest) => (.string text, rest)
  | '[' :: rest =>
    match depth with
    | 0 => none
    | depth + 1 => (arrayPart (valuePart depth) [] rest).map fun (items, rest) => (.array items, rest)
  | '\x7b' :: rest =>
    match depth with
    | 0 => none
    | depth + 1 =>
      match skipBlanks rest with
      | '\x7d' :: rest => some (.table [], rest)
      | rest => do
        let (assignments, rest) ← inlinePart (valuePart depth) [] rest
        some (.table (Item.toValues (← assignAll assignments [])), rest)
  | _ => wordPart s

/-! ## Documents -/

/-- A line of a document: nothing, an assignment, or the header of a table,
marked if the table is one of a list. -/
inductive Line
  | blank
  | assignment (a : Assignment)
  | header (path : List String) (key : String) (inList : Bool)

def linePart (s : List Char) : Option (Line × List Char) := do
  match skipBlanks s with
  | [] => some (.blank, [])
  | '#' :: rest => some (.blank, ← lineEnd? ('#' :: rest))
  | '\n' :: rest => some (.blank, rest)
  | '\r' :: rest => some (.blank, ← newline? ('\r' :: rest))
  | '[' :: '[' :: rest =>
    let ((path, key), rest) ← keyPart rest
    match rest with
    | ']' :: ']' :: rest => some (.header path key true, ← lineEnd? rest)
    | _ => none
  | '[' :: rest =>
    let ((path, key), rest) ← keyPart rest
    match rest with
    | ']' :: rest => some (.header path key false, ← lineEnd? rest)
    | _ => none
  | rest =>
    let (assignment, rest) ← assignmentPart (valuePart depthLimit) rest
    some (.assignment assignment, ← lineEnd? rest)

/-- All lines of a text; those so far come last one first. -/
def linesPart (soFar : List Line) (s : List Char) : Option (List Line) :=
  match s with
  | [] => some soFar.reverse
  | c :: rest =>
    match linePart (c :: rest) with
    | none => none
    | some (line, rest') =>
      if rest'.length < rest.length + 1 then linesPart (line :: soFar) rest' else none
termination_by s.length

/-- The assignments above all headers, and the sections; what follows is
gathered from the last line backwards. -/
def gather : List Line → List Assignment × List Section
  | [] => ([], [])
  | .blank :: rest => gather rest
  | .assignment a :: rest => let (above, sections) := gather rest; (a :: above, sections)
  | .header path key inList :: rest =>
    let (below, sections) := gather rest
    ([], ⟨path, key, inList, below⟩ :: sections)

/-- The table a text holds. A byte order mark in front is passed over. -/
def read? (text : String) : Option (List (String × Value)) := do
  let chars := match text.toList with
    | '\uFEFF' :: rest => rest
    | chars => chars
  let (assignments, sections) := gather (← linesPart [] chars)
  tableOf assignments sections

end GrammarExplorer.Toml
