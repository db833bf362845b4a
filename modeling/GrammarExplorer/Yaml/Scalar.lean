/-
Texts as YAML scalars. A text is written plain if it can be; it is quoted if
it would be read back as something else than a text, or would break the
shape of what is around it.
-/
import GrammarExplorer.Json.Printer

namespace GrammarExplorer.Yaml

/-! ## What a plain text would be read as -/

/-- The text after a beginning, if it begins so. -/
def after? (beginning s : List Char) : Option (List Char) :=
  if beginning.isPrefixOf s then some (s.drop beginning.length) else none

def readsAsNull (s : String) : Bool := ["null", "Null", "NULL", "~", ""].contains s

def readsAsBool (s : String) : Bool :=
  ["true", "True", "TRUE", "false", "False", "FALSE"].contains s

/-- More than one digit, of which the first is zero. -/
def isPaddedDigits (s : List Char) : Bool :=
  let digits := match s with
    | '-' :: rest => rest
    | '+' :: rest => rest
    | _ => s
  1 < digits.length && digits.head? == some '0' && digits.all Char.isDigit

/-- The value of a digit in a base up to sixteen. -/
def digitIn? (base : Nat) (c : Char) : Option Nat :=
  let value :=
    if c.isDigit then c.toNat - '0'.toNat
    else if 'a' ≤ c && c ≤ 'f' then c.toNat - 'a'.toNat + 10
    else if 'A' ≤ c && c ≤ 'F' then c.toNat - 'A'.toNat + 10
    else base
  if value < base then some value else none

/-- The number that digits of a base write; nothing for no digits. -/
def digitsIn? (base : Nat) (s : List Char) : Option Nat :=
  if s.isEmpty then none
  else s.foldlM (fun n c => (digitIn? base c).map (n * base + ·)) 0

/-- Whether digits write a number below the limit. -/
def fits (base limit : Nat) (s : List Char) : Bool :=
  match digitsIn? base s with
  | some n => n < limit
  | none => false

def startsSigned (s : List Char) : Bool := s.head? == some '+' || s.head? == some '-'

/-- The text without a plus sign in front. -/
def withoutPlus (s : List Char) : List Char := (after? ['+'] s).getD s

/-- An integer without a minus sign that fits 128 bits: hexadecimal, octal,
binary or decimal. -/
def readsAsPositive (s : List Char) : Bool :=
  let body := withoutPlus s
  let based (mark : Char) (base : Nat) : Bool :=
    match after? ['0', mark] body with
    | some digits => fits base (Nat.pow 2 128) digits
    | none => false
  based 'x' 16 || based 'o' 8 || based 'b' 2 || (!isPaddedDigits s && fits 10 (Nat.pow 2 128) body)

/-- An integer with a minus sign that fits 128 bits. -/
def readsAsNegative (s : List Char) : Bool :=
  let based (mark : Char) (base : Nat) : Bool :=
    match after? ['-', '0', mark] s with
    | some digits => fits base (Nat.pow 2 127 + 1) digits
    | none => false
  let decimal : Bool := match s with
    | '-' :: digits => fits 10 (Nat.pow 2 127 + 1) digits
    | _ => false
  based 'x' 16 || based 'o' 8 || based 'b' 2 || (!isPaddedDigits s && decimal)

/-- Whether `digits * 10 ^ exponent` rounds to a finite number of 64
bits. -/
def isFiniteDecimal (digits : Nat) (exponent : Int) : Bool :=
  let limit := Nat.pow 2 1024 - Nat.pow 2 970
  if digits == 0 then true
  else if 400 < exponent then false
  else if exponent < 0 then
    -- with fewer digits than places behind the point the number is below one
    (Nat.toDigits 10 digits).length ≤ exponent.natAbs || digits < limit * Nat.pow 10 exponent.natAbs
  else digits * Nat.pow 10 exponent.toNat < limit

/-- The exponent part of a number: none, or a letter and a signed number. -/
def exponent? : List Char → Option Int
  | [] => some 0
  | c :: rest =>
    if c == 'e' || c == 'E' then
      match rest with
      | '-' :: digits => (digitsIn? 10 digits).map fun n => -(n : Int)
      | '+' :: digits => (digitsIn? 10 digits).map fun n => (n : Int)
      | digits => (digitsIn? 10 digits).map fun n => (n : Int)
    else none

/-- A decimal number with at least one digit, before or behind its point,
that is not beyond the numbers of 64 bits. -/
def isFiniteNumber (s : List Char) : Bool :=
  let whole := s.takeWhile Char.isDigit
  let rest := s.dropWhile Char.isDigit
  let (fraction, rest) := match rest with
    | '.' :: rest => (rest.takeWhile Char.isDigit, rest.dropWhile Char.isDigit)
    | _ => ([], rest)
  match digitsIn? 10 (whole ++ fraction), exponent? rest with
  | some digits, some exponent => isFiniteDecimal digits (exponent - fraction.length)
  | _, _ => false

/-- A floating point number. -/
def readsAsFloat (s : List Char) : Bool :=
  if s.head? == some '+' && startsSigned (s.drop 1) then false
  else
    let body := withoutPlus s
    [".inf", ".Inf", ".INF"].contains (String.ofList body)
      || ["-.inf", "-.Inf", "-.INF", ".nan", ".NaN", ".NAN"].contains (String.ofList s)
      || isFiniteNumber ((after? ['-'] body).getD body)

/-- Whether a text without line ends would be read as something else, or is
digits that look like a number and are none. -/
def readsAsOther (s : String) : Bool :=
  readsAsNull s || readsAsBool s || readsAsPositive s.toList || readsAsNegative s.toList
    || isPaddedDigits s.toList || readsAsFloat s.toList

/-! ## What a text would do to the text around it -/

/-- The characters a line may end with. -/
def isBreak (c : Char) : Bool :=
  c == '\n' || c == '\r' || c.toNat == 0x85 || c.toNat == 0x2028 || c.toNat == 0x2029

/-- A blank, a tab, a line end, or nothing at all. -/
def isGap : Option Char → Bool
  | none => true
  | some c => c == ' ' || c == '\t' || c == '\x00' || isBreak c

/-- A character that may stand as itself outside double quotes. -/
def isPlainChar (c : Char) : Bool :=
  let n := c.toNat
  c == '\n' || (0x20 ≤ n && n ≤ 0x7E) || (0xA0 ≤ n && n != 0xFEFF && n != 0xFFFE && n != 0xFFFF)

/-- The characters that mean something at the start of a scalar. -/
def isIndicator (c : Char) : Bool := "#,[]\x7b\x7d&*!|>'\"%@`".toList.contains c

/-- Whether a character begins something at the start of the text. -/
def indicatesFirst (c : Char) (next : Option Char) : Bool :=
  isIndicator c || ((c == '?' || c == ':' || c == '-') && isGap next)

/-- Whether some later character begins something, given the one before. -/
def indicatesLater (previous : Char) : List Char → Bool
  | [] => false
  | c :: rest =>
    (c == ':' && isGap rest.head?) || (c == '#' && isGap (some previous)) || indicatesLater c rest

/-- Whether the text, written plain, would be taken for something else. -/
def indicates (s : List Char) : Bool :=
  (after? ['-', '-', '-'] s).isSome || (after? ['.', '.', '.'] s).isSome ||
    match s with
    | [] => false
    | c :: rest => indicatesFirst c rest.head? || indicatesLater c rest

/-- Whether a character of the first kind is followed by one of the
second. -/
def hasPair (first second : Char → Bool) : List Char → Bool
  | a :: b :: rest => (first a && second b) || hasPair first second (b :: rest)
  | _ => false

def isSpace (c : Char) : Bool := c == ' '

/-- A character that can only be written with an escape, or a blank before
a line end: nothing but double quotes will do. -/
def needsEscapes (s : List Char) : Bool := !s.all isPlainChar || hasPair isSpace isBreak s

def startsWith (p : Char → Bool) (s : List Char) : Bool := (s.head?.map p).getD false

def endsWith (p : Char → Bool) (s : List Char) : Bool := (s.getLast?.map p).getD false

/-- Whether the text may stand without quotes. -/
def plainAllowed (s : List Char) : Bool :=
  !startsWith isSpace s && !endsWith isSpace s && !s.any isBreak && !needsEscapes s && !indicates s

/-- Whether the text may stand between single quotes. -/
def singleAllowed (s : List Char) : Bool := !hasPair isBreak isSpace s && !needsEscapes s

/-- Whether the text may stand on lines of its own. -/
def literalAllowed (s : List Char) : Bool := !s.isEmpty && !endsWith isSpace s && !needsEscapes s

/-! ## Styles -/

inductive Style
  | plain
  | single
  | double
  | literal
  deriving Repr, DecidableEq

/-- The style of a text: what it asks for, as far as it may have it. -/
def styleOf (s : String) : Style :=
  let cs := s.toList
  if cs.contains '\n' then (if literalAllowed cs then .literal else .double)
  else if !readsAsOther s && plainAllowed cs then .plain
  else if singleAllowed cs then .single
  else .double

/-- Upper-case hexadecimal digits, as many as told. -/
def hexDigits (count n : Nat) : List Char :=
  ((List.range count).map fun i => (Nat.digitChar (n / Nat.pow 16 i % 16)).toUpper).reverse

/-- A character between double quotes. -/
def escapeChar (c : Char) : List Char :=
  let n := c.toNat
  if isPlainChar c && !isBreak c && c != '"' && c != '\\' then [c]
  else '\\' ::
    if n == 0x00 then ['0']
    else if n == 0x07 then ['a']
    else if n == 0x08 then ['b']
    else if n == 0x09 then ['t']
    else if n == 0x0A then ['n']
    else if n == 0x0B then ['v']
    else if n == 0x0C then ['f']
    else if n == 0x0D then ['r']
    else if n == 0x1B then ['e']
    else if c == '"' then ['"']
    else if c == '\\' then ['\\']
    else if n == 0x85 then ['N']
    else if n == 0x2028 then ['L']
    else if n == 0x2029 then ['P']
    else if n ≤ 0xFF then 'x' :: hexDigits 2 n
    else if n ≤ 0xFFFF then 'u' :: hexDigits 4 n
    else 'U' :: hexDigits 8 n

/-- Sets in what follows a line end, save another line end. -/
def setIn (indent : Nat) (afterBreak : Bool) (write : Char → List Char) : List Char → List Char
  | [] => []
  | c :: rest =>
    if isBreak c then c :: setIn indent true write rest
    else (if afterBreak then List.replicate indent ' ' else []) ++ write c
      ++ setIn indent false write rest

/-- What stands between single quotes; a quote is written twice. -/
def singleBody (indent : Nat) (s : List Char) : List Char :=
  setIn indent false (fun c => if c == '\'' then ['\'', '\''] else [c]) s
    ++ if endsWith isBreak s then List.replicate indent ' ' else []

/-- What tells a reader how lines are set in and how they end. -/
def literalHead (s : List Char) : List Char :=
  let setInMark := if startsWith (fun c => isSpace c || isBreak c) s then ['2'] else []
  let endMark := match s.reverse with
    | [] => ['-']
    | [c] => if isBreak c then ['+'] else ['-']
    | c :: before :: _ => if !isBreak c then ['-'] else if isBreak before then ['+'] else []
  ['|'] ++ setInMark ++ endMark ++ ['\n']

/-- A text as a scalar that ends its line, where lines below it are set in
by `indent`. -/
def scalar (indent : Nat) (s : String) : String :=
  let cs := s.toList
  String.ofList <|
    match styleOf s with
    | .plain => cs ++ ['\n']
    | .single => ['\''] ++ singleBody indent cs ++ ['\'', '\n']
    | .double => ['"'] ++ cs.flatMap escapeChar ++ ['"', '\n']
    | .literal =>
      literalHead cs ++ setIn indent true (fun c => [c]) cs
        ++ if endsWith isBreak cs then [] else ['\n']

end GrammarExplorer.Yaml
