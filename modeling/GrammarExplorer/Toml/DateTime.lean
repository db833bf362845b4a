/-
Dates and times of TOML, checked and brought to one written form: a capital
`T` between date and time, no zeros at the end of a fraction, a capital `Z`.
-/
namespace GrammarExplorer.Toml.DateTime

/-- The text without a given number of digits at its beginning, and the
number they write. -/
def digits? (count : Nat) (s : List Char) : Option (Nat × List Char) :=
  let taken := s.take count
  if taken.length == count && taken.all Char.isDigit then
    some (taken.foldl (fun n c => n * 10 + (c.toNat - '0'.toNat)) 0, s.drop count)
  else none

/-- A number of so many digits that lies between two bounds. -/
def field? (count low high : Nat) (s : List Char) : Option (Nat × List Char) := do
  let (n, rest) ← digits? count s
  if low ≤ n && n ≤ high then some (n, rest) else none

/-- The text behind one given character. -/
def after? (c : Char) : List Char → Option (List Char)
  | [] => none
  | d :: rest => if c == d then some rest else none

def padded (count n : Nat) : List Char :=
  let digits := Nat.toDigits 10 n
  List.replicate (count - digits.length) '0' ++ digits

def isLeapYear (year : Nat) : Bool := year % 4 == 0 && (year % 100 != 0 || year % 400 == 0)

def daysIn (year month : Nat) : Nat :=
  if month == 2 then (if isLeapYear year then 29 else 28)
  else if [4, 6, 9, 11].contains month then 30
  else 31

/-- A date and the text after it. -/
def date? (s : List Char) : Option (List Char × List Char) := do
  let (year, rest) ← digits? 4 s
  let rest ← after? '-' rest
  let (month, rest) ← field? 2 1 12 rest
  let rest ← after? '-' rest
  let (day, rest) ← field? 2 1 (daysIn year month) rest
  some (padded 4 year ++ ['-'] ++ padded 2 month ++ ['-'] ++ padded 2 day, rest)

/-- The digits of a fraction of a second; more than nine do not count, nor
do zeros at the end. -/
def fractionText (digits : List Char) : List Char :=
  let kept := ((digits.take 9).reverse.dropWhile (· == '0')).reverse
  if kept.isEmpty then [] else '.' :: kept

/-- A time of day and the text after it. -/
def time? (s : List Char) : Option (List Char × List Char) := do
  let (hour, rest) ← field? 2 0 23 s
  let rest ← after? ':' rest
  let (minute, rest) ← field? 2 0 59 rest
  let rest ← after? ':' rest
  let (second, rest) ← field? 2 0 60 rest
  let text := padded 2 hour ++ [':'] ++ padded 2 minute ++ [':'] ++ padded 2 second
  match rest with
  | '.' :: fraction =>
    let digits := fraction.takeWhile Char.isDigit
    if digits.isEmpty then none
    else some (text ++ fractionText digits, fraction.dropWhile Char.isDigit)
  | _ => some (text, rest)

/-- What a time is ahead of universal time by, and the text after it. -/
def offset? : List Char → Option (List Char × List Char)
  | 'Z' :: rest => some (['Z'], rest)
  | 'z' :: rest => some (['Z'], rest)
  | '+' :: rest => signed '+' rest
  | '-' :: rest => signed '-' rest
  | rest => some ([], rest)
where
  signed (sign : Char) (s : List Char) : Option (List Char × List Char) := do
    let (hour, rest) ← field? 2 0 23 s
    let rest ← after? ':' rest
    let (minute, rest) ← field? 2 0 59 rest
    let sign := if hour == 0 && minute == 0 then '+' else sign
    some (sign :: padded 2 hour ++ [':'] ++ padded 2 minute, rest)

/-- The written form of a date, a time, or a date and a time, if the text
is one. -/
def read? (s : List Char) : Option String :=
  let text? := match date? s with
    | some (date, []) => some date
    | some (date, delimiter :: rest) =>
      if delimiter == 'T' || delimiter == 't' || delimiter == ' ' then
        match time? rest with
        | some (time, rest) =>
          match offset? rest with
          | some (offset, []) => some (date ++ ['T'] ++ time ++ offset)
          | _ => none
        | none => none
      else none
    | none =>
      match time? s with
      | some (time, []) => some time
      | _ => none
  text?.map String.ofList

end GrammarExplorer.Toml.DateTime
