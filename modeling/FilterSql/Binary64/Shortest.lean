import FilterSql.Binary64.Round

/-!
# The shortest decimal of a binary64 number

A finite number is written with the fewest digits that read back to it; of two such decimals the
nearer one is taken, and at equal distance the even one. The digits are found on the decimal grids
of 1, 2, … 17 digits: a grid is tried by its two points around the number, and a point is accepted
if it lies in the interval of reals that round to the number.
-/

namespace FilterSql.Binary64

/-- A positive decimal `digits · 10 ^ scale`. -/
structure Decimal where
  digits : Nat
  scale : Int
  deriving DecidableEq, Repr

/-- The comparison of `a · 2 ^ p · 10 ^ s` with `b · 2 ^ q · 10 ^ t`, by whole numbers. -/
def compareScaled (a : Nat) (p s : Int) (b : Nat) (q t : Int) : Ordering :=
  let twos := min p q
  let tens := min s t
  compare (a * Nat.pow 2 (p - twos).toNat * Nat.pow 10 (s - tens).toNat)
    (b * Nat.pow 2 (q - twos).toNat * Nat.pow 10 (t - tens).toNat)

/-- Whether a decimal rounds to the number with significand `m` and exponent `e`. The ends of the
interval belong to it when the significand is even; below a power of two the lower half-gap is half
as wide. -/
def roundsTo (m : Nat) (e : Int) (d : Decimal) : Bool :=
  let narrow := m == Nat.pow 2 52 && e != -1074
  let low := if narrow then 4 * m - 1 else 4 * m - 2
  let high := 4 * m + 2
  let fromLow := compareScaled d.digits 0 d.scale low (e - 2) 0
  let toHigh := compareScaled d.digits 0 d.scale high (e - 2) 0
  if m % 2 = 0 then fromLow != .lt && toHigh != .gt else fromLow == .gt && toHigh == .lt

/-- The exponent of the leading decimal digit of `m · 2 ^ e`, for a positive `m`. A negative power
of two is a power of five over a power of ten, so the digits of an integer tell it. -/
def leadingExponent (m : Nat) (e : Int) : Int :=
  match e with
  | .ofNat k => ((Nat.toDigits 10 (m * Nat.pow 2 k)).length : Int) - 1
  | .negSucc k => ((Nat.toDigits 10 (m * Nat.pow 5 (k + 1))).length : Int) - 1 - (k + 1)

/-- The lower neighbour of `m · 2 ^ e` on the grid of the multiples of `10 ^ scale`. -/
def gridBelow (m : Nat) (e scale : Int) : Nat :=
  (m * Nat.pow 2 e.toNat * Nat.pow 10 (-scale).toNat) /
    (Nat.pow 2 (-e).toNat * Nat.pow 10 scale.toNat)

/-- The decimal that stands for the number on the grid of the multiples of `10 ^ scale`, if one of
the number's neighbours on the grid rounds to it. -/
def onGrid? (m : Nat) (e scale : Int) : Option Decimal :=
  let low : Decimal := ⟨gridBelow m e scale, scale⟩
  let high : Decimal := ⟨low.digits + 1, scale⟩
  match roundsTo m e low, roundsTo m e high with
  | true, false => some low
  | false, true => some high
  | false, false => none
  | true, true =>
    match compareScaled (2 * low.digits + 1) 0 scale (2 * m) e 0 with
    | .lt => some high
    | .gt => some low
    | .eq => some (if low.digits % 2 = 0 then low else high)

/-- A decimal without trailing zeros in its digits, by at most `fuel` steps. -/
def Decimal.trim : Nat → Decimal → Decimal
  | 0, d => d
  | fuel + 1, d =>
    if d.digits % 10 = 0 ∧ d.digits ≠ 0 then Decimal.trim fuel ⟨d.digits / 10, d.scale + 1⟩ else d

/-- The shortest decimal of a finite number other than zero, without its sign. -/
def shortest (x : Binary64) : Decimal :=
  let lead := leadingExponent x.significand x.exponent
  match (List.range 17).findSome? fun (n : Nat) =>
      onGrid? x.significand x.exponent (lead - Int.ofNat n) with
  | some d => d.trim 20
  | none => ⟨x.significand, 0⟩

end FilterSql.Binary64
