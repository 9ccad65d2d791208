import FilterSql.Time.Calendar

/-!
# Instants

An instant is a second of Coordinated Universal Time and the nanoseconds into it. A leap second is
kept as the last second of its minute with a thousand million nanoseconds or more, so the order by
second and then by nanosecond is the order in time. The instants reach over the days of the years
-262143 to 262142.
-/

namespace FilterSql

/-- An instant in Coordinated Universal Time, counted from the start of 1970. -/
structure Instant where
  seconds : Int
  nanos : Nat
  first_le : -8334601228800 ≤ seconds
  le_last : seconds ≤ 8210266876799
  nanos_lt : nanos < 2000000000
  leap_at_end : 1000000000 ≤ nanos → seconds % 60 = 59
  deriving DecidableEq

namespace Instant

/-- The instant at a second and a nanosecond, if there is one. -/
def ofUnix? (seconds : Int) (nanos : Nat) : Option Instant :=
  if h : (-8334601228800 ≤ seconds ∧ seconds ≤ 8210266876799) ∧
      nanos < 2000000000 ∧ (1000000000 ≤ nanos → seconds % 60 = 59) then
    some ⟨seconds, nanos, h.1.1, h.1.2, h.2.1, h.2.2⟩
  else none

/-- The instant a number of milliseconds after the start of 1970. -/
def ofMillis? (millis : Int) : Option Instant :=
  ofUnix? (millis / 1000) ((millis % 1000).toNat * 1000000)

/-- The order in time. -/
def order (a b : Instant) : Ordering :=
  (compare a.seconds b.seconds).then (compare a.nanos b.nanos)

/-- The start of 1970. -/
def epoch : Instant := ⟨0, 0, by decide, by decide, by decide, by decide⟩

instance : Inhabited Instant := ⟨epoch⟩

/-- A clock reading of a date: hours, minutes, seconds with 60 for a leap second, and nanoseconds
below a thousand million. -/
structure ClockTime where
  date : Date
  hour : Nat
  minute : Nat
  second : Nat
  nanos : Nat

/-- The instant of a clock reading taken `offset` seconds east of Greenwich. The date must lie in
the range of instants both there and in Coordinated Universal Time. -/
def ofClock? (c : ClockTime) (offset : Int) : Option Instant :=
  if c.date.isValid && c.hour < 24 && c.minute < 60 && c.second ≤ 60 && c.nanos < 1000000000 then
    let leap := c.second == 60
    let time := c.hour * 3600 + c.minute * 60 + (if leap then 59 else c.second)
    let here := c.date.toDay * 86400 + time
    let nanos := if leap then c.nanos + 1000000000 else c.nanos
    (ofUnix? here nanos).bind fun _ => ofUnix? (here - offset) nanos
  else none

/-- The clock reading of an instant in Coordinated Universal Time. -/
def toClock (t : Instant) : ClockTime :=
  let day := t.seconds / 86400
  let time := (t.seconds % 86400).toNat
  let leap := 1000000000 ≤ t.nanos
  { date := Date.ofDay day
    hour := time / 3600
    minute := time / 60 % 60
    second := if leap then time % 60 + 1 else time % 60
    nanos := if leap then t.nanos - 1000000000 else t.nanos }

example : (Date.toDay ⟨-262143, 1, 1⟩) * 86400 = -8334601228800 := by decide
example : (Date.toDay ⟨262142, 12, 31⟩) * 86400 + 86399 = 8210266876799 := by decide

end Instant

end FilterSql
