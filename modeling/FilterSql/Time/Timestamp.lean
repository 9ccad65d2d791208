import FilterSql.Text.Blank
import FilterSql.Time.Instant

/-!
# Timestamps as text

Instants are read in two ways. `Instant.ofRfc3339?` reads the Internet date and time format to the
letter, with a blank allowed for the `T`; `Instant.ofLenient?` reads the wider form of stored
values, in which white space may stand between the items, fields may have fewer digits, and a year
may have a sign and any number of digits. `Instant.text` writes the Internet form with as many
fraction digits as the instant needs, in threes.
-/

namespace FilterSql.Instant

/-- The digits at the head of a text, at most `most` of them, with the rest. -/
def takeDigits (most : Nat) (s : List Char) : List Char × List Char :=
  let run := (s.take most).takeWhile Char.isDigit
  (run, s.drop run.length)

/-- The number that a list of digits writes. -/
def digitsValue (digits : List Char) : Nat :=
  digits.foldl (fun n c => 10 * n + (c.toNat - '0'.toNat)) 0

/-- A number of at least `least` and at most `most` digits. -/
def number? (least most : Nat) (s : List Char) : Option (Nat × List Char) :=
  let (digits, rest) := takeDigits most s
  if digits.length < least then none else some (digitsValue digits, rest)

/-- The text behind an expected character. -/
def expect? (c : Char) : List Char → Option (List Char)
  | d :: rest => if c = d then some rest else none
  | [] => none

/-- The text behind the separator of date and time. -/
def separator? : List Char → Option (List Char)
  | c :: rest => if c = 'T' || c = 't' || c = ' ' then some rest else none
  | [] => none

/-- The nanoseconds of a fraction, if the text starts with one. Digits beyond the ninth do not
count. -/
def fraction? : List Char → Option (Nat × List Char)
  | '.' :: s =>
    let (digits, rest) := takeDigits 9 s
    if digits.isEmpty then none
    else some (digitsValue digits * Nat.pow 10 (9 - digits.length), rest.dropWhile Char.isDigit)
  | s => some (0, s)

/-- Two digits, the first at most `lead`. -/
def pair? (lead : Char) : List Char → Option (Nat × List Char)
  | a :: b :: rest =>
    if a.isDigit && b.isDigit && a ≤ lead then some (digitsValue [a, b], rest) else none
  | _ => none

/-- An offset in seconds: `Z`, or a sign, hours, what `colon?` passes over, and minutes. The minus
may be the hyphen or U+2212. -/
def offset? (colon? : List Char → Option (List Char)) : List Char → Option (Int × List Char)
  | [] => none
  | c :: s =>
    if c = 'Z' || c = 'z' then some (0, s)
    else if c = '+' || c = '-' || c = '−' then do
      let (hours, s) ← pair? '9' s
      let s ← colon? s
      let (minutes, s) ← pair? '5' s
      let seconds : Int := hours * 3600 + minutes * 60
      if seconds < 86400 then some (if c = '+' then seconds else -seconds, s) else none
    else none

/-- The instant of a text in the Internet date and time format. -/
def ofRfc3339? (text : String) : Option Instant := do
  let (year, s) ← number? 4 4 text.toList
  let (month, s) ← number? 2 2 (← expect? '-' s)
  let (day, s) ← number? 2 2 (← expect? '-' s)
  let (hour, s) ← number? 2 2 (← separator? s)
  let (minute, s) ← number? 2 2 (← expect? ':' s)
  let (second, s) ← number? 2 2 (← expect? ':' s)
  let (nanos, s) ← fraction? s
  let (offset, s) ← offset? (expect? ':') s
  if s.isEmpty then ofClock? ⟨⟨year, month, day⟩, hour, minute, second, nanos⟩ offset else none

/-- A year: four digits at most, or a sign and any number of digits. -/
def year? : List Char → Option (Int × List Char)
  | '-' :: s => (number? 1 s.length s).map fun (n, rest) => (-(n : Int), rest)
  | '+' :: s => (number? 1 s.length s).map fun (n, rest) => ((n : Int), rest)
  | s => (number? 1 4 s).map fun (n, rest) => ((n : Int), rest)

/-- One or two digits behind white space. -/
def field? (s : List Char) : Option (Nat × List Char) :=
  number? 1 2 (Text.trimStart s)

/-- The zone of a lenient timestamp: `UTC` in any case, or an offset. -/
def zone? (s : List Char) : Option (Int × List Char) :=
  if (s.take 3).map Char.toUpper = ['U', 'T', 'C'] then some (0, s.drop 3)
  else offset? (fun s => some (s.dropWhile fun c => c == ':' || Text.isBlank c)) s

/-- The instant of a text in the lenient form of stored values. -/
def ofLenient? (text : String) : Option Instant := do
  let (year, s) ← year? (Text.trimStart text.toList)
  let (month, s) ← field? (← expect? '-' (Text.trimStart s))
  let (day, s) ← field? (← expect? '-' (Text.trimStart s))
  let (hour, s) ← field? (← separator? s)
  let (minute, s) ← field? (← expect? ':' (Text.trimStart s))
  let (second, s) ← field? (← expect? ':' (Text.trimStart s))
  let (nanos, s) ← fraction? s
  let (offset, s) ← zone? (Text.trimStart s)
  if (Text.trimStart s).isEmpty then
    ofClock? ⟨⟨year, month, day⟩, hour, minute, second, nanos⟩ offset
  else none

/-- The digits of a number, with zeros in front up to a width. -/
def padded (width n : Nat) : String :=
  let digits := Nat.toDigits 10 n
  String.ofList (List.replicate (width - digits.length) '0' ++ digits)

/-- A year: four digits, and a sign in front when four digits cannot hold it. -/
def yearText (year : Int) : String :=
  if year < 0 then "-" ++ padded 4 year.natAbs
  else if year ≤ 9999 then padded 4 year.toNat
  else "+" ++ padded 4 year.toNat

/-- A fraction of no, three, six or nine digits, the fewest that hold it. -/
def fractionText (nanos : Nat) : String :=
  if nanos = 0 then ""
  else if nanos % 1000000 = 0 then "." ++ padded 3 (nanos / 1000000)
  else if nanos % 1000 = 0 then "." ++ padded 6 (nanos / 1000)
  else "." ++ padded 9 nanos

/-- An instant in the Internet date and time format, `zone` being the text for Coordinated
Universal Time. -/
def text (zone : String) (t : Instant) : String :=
  let c := t.toClock
  yearText c.date.year ++ "-" ++ padded 2 c.date.month ++ "-" ++ padded 2 c.date.day ++ "T" ++
    padded 2 c.hour ++ ":" ++ padded 2 c.minute ++ ":" ++ padded 2 c.second ++
    fractionText c.nanos ++ zone

end FilterSql.Instant
