import FilterSql.Json.Basic

/-!
# The bare scalars of TOML

Truth values, integers, floating-point numbers, dates and times are written without quotes and end
at the first character that can stand in none of them. Integers are read as what they stand for; of
the others only the form is checked.
-/

namespace FilterSql.Toml

/-- Whether a text is made of runs of digits with single underscores between them. -/
def areDigits (isDigit : Char → Bool) : List Char → Bool
  | [] => false
  | [c] => isDigit c
  | c :: '_' :: rest => isDigit c && areDigits isDigit rest
  | c :: rest => isDigit c && areDigits isDigit rest

/-- A text without underscores. -/
def plainDigits (s : List Char) : List Char :=
  s.filter (· != '_')

/-- Whether a text is a decimal number without superfluous zeros in front. -/
def isWhole (s : List Char) : Bool :=
  areDigits Char.isDigit s && (s.length = 1 || s.head? != some '0')

/-- A text without its sign, and whether that is a minus. -/
def unsigned : List Char → Bool × List Char
  | '+' :: s => (false, s)
  | '-' :: s => (true, s)
  | s => (false, s)

/-- The number that a list of digits to a base writes. -/
def baseValue (base : Nat) (digits : List Char) : Nat :=
  digits.foldl (fun n c => base * n + Json.hexValue c) 0

/-- Whether a character is a digit below the base of an octal number. -/
def isOctal (c : Char) : Bool :=
  '0' ≤ c && c ≤ '7'

/-- Whether a character is a digit below the base of a binary number. -/
def isBinary (c : Char) : Bool :=
  c = '0' || c = '1'

/-- The number with digits to a base, if they are such digits. -/
def based? (base : Nat) (isDigit : Char → Bool) (digits : List Char) : Option Int :=
  if areDigits isDigit digits then some (baseValue base (plainDigits digits)) else none

/-- The integer that a text writes. -/
def integer? (s : List Char) : Option Int :=
  match s with
  | '0' :: 'x' :: digits => based? 16 Json.Source.isHex digits
  | '0' :: 'o' :: digits => based? 8 isOctal digits
  | '0' :: 'b' :: digits => based? 2 isBinary digits
  | s =>
    let (negative, digits) := unsigned s
    if isWhole digits then
      let n : Int := baseValue 10 (plainDigits digits)
      some (if negative then -n else n)
    else none

/-- Whether a text is an exponent behind its letter. -/
def isExponent (s : List Char) : Bool :=
  areDigits Char.isDigit (unsigned s).2

/-- A text up to a character of a kind, and what follows that character if there is one. -/
def splitAt (isMark : Char → Bool) (s : List Char) : List Char × Option (List Char) :=
  match s.dropWhile (!isMark ·) with
  | [] => (s, none)
  | _ :: rest => (s.takeWhile (!isMark ·), some rest)

/-- Whether a text is a floating-point number. -/
def isFloat (s : List Char) : Bool :=
  let (_, s) := unsigned s
  let (mantissa, exponent) := splitAt (fun c => c = 'e' || c = 'E') s
  let (whole, fraction) := splitAt (· = '.') mantissa
  s = ['i', 'n', 'f'] || s = ['n', 'a', 'n'] ||
    ((fraction.isSome || exponent.isSome) && isWhole whole &&
      fraction.all (areDigits Char.isDigit) && exponent.all isExponent)

/-- A number of two digits in a range, and the text behind it. -/
def pair? (least most : Nat) : List Char → Option (Nat × List Char)
  | a :: b :: s =>
    let n := Json.decimalValue [a, b]
    if a.isDigit && b.isDigit && least ≤ n && n ≤ most then some (n, s) else none
  | _ => none

/-- The text behind an expected character. -/
def expect? (c : Char) : List Char → Option (List Char)
  | d :: s => if d = c then some s else none
  | [] => none

/-- The number of days of a month. -/
def monthLength (year month : Nat) : Nat :=
  if month = 2 then
    if year % 4 = 0 && (year % 100 != 0 || year % 400 = 0) then 29 else 28
  else if [4, 6, 9, 11].contains month then 30
  else 31

/-- The text behind a date. -/
def date? : List Char → Option (List Char)
  | a :: b :: c :: d :: s => do
    if !([a, b, c, d].all Char.isDigit) then none
    let (month, s) ← pair? 1 12 (← expect? '-' s)
    let (_, s) ← pair? 1 (monthLength (Json.decimalValue [a, b, c, d]) month) (← expect? '-' s)
    return s
  | _ => none

/-- The text behind the seconds of a time, which may be left out. -/
def seconds? : List Char → Option (List Char)
  | ':' :: s => do
    let (_, s) ← pair? 0 60 s
    match s with
    | '.' :: s => if (s.takeWhile Char.isDigit).isEmpty then none else s.dropWhile Char.isDigit
    | s => some s
  | s => some s

/-- The text behind a time. -/
def time? (s : List Char) : Option (List Char) := do
  let (_, s) ← pair? 0 23 s
  let (_, s) ← pair? 0 59 (← expect? ':' s)
  seconds? s

/-- Whether a text is an offset from UTC, or nothing. -/
def isOffset : List Char → Bool
  | [] => true
  | ['Z'] => true
  | ['z'] => true
  | c :: s =>
    (c = '+' || c = '-') &&
      (do let (_, s) ← pair? 0 23 s
          let (_, s) ← pair? 0 59 (← expect? ':' s)
          return s) = some []

/-- Whether a text is a date, a time, or both with or without an offset. -/
def isDatetime (s : List Char) : Bool :=
  time? s = some [] ||
    match date? s with
    | none => false
    | some [] => true
    | some (c :: s) => (c = 'T' || c = 't' || c = ' ') && (time? s).any isOffset

/-- What a bare scalar is. -/
inductive Scalar where
  | bool (value : Bool)
  | integer (value : Int)
  /-- A floating-point number, a date or a time. -/
  | other
  deriving DecidableEq

/-- The scalar that a text writes. -/
def Scalar.ofText? (s : List Char) : Option Scalar :=
  if s = ['t', 'r', 'u', 'e'] then some (.bool true)
  else if s = ['f', 'a', 'l', 's', 'e'] then some (.bool false)
  else
    match integer? s with
    | some n => some (.integer n)
    | none => if isFloat s || isDatetime s then some .other else none

/-- Whether a character may stand in a bare scalar. -/
def isScalarChar (c : Char) : Bool :=
  c.isAlphanum || ['+', '-', '_', '.', ':'].contains c

/-- A bare scalar with the text behind it. A date and a time may have a blank between them. -/
def scalarAt? (s : List Char) : Option (Scalar × List Char) :=
  let run := s.takeWhile isScalarChar
  let rest := s.dropWhile isScalarChar
  let longer : Option (Scalar × List Char) :=
    match rest with
    | ' ' :: c :: rest =>
      if date? run = some [] && c.isDigit then
        let time := (c :: rest).takeWhile isScalarChar
        (Scalar.ofText? (run ++ ' ' :: time)).map (·, (c :: rest).dropWhile isScalarChar)
      else none
    | _ => none
  longer.or ((Scalar.ofText? run).map (·, rest))

end FilterSql.Toml
