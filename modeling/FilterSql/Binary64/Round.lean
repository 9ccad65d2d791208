import FilterSql.Binary64.Basic

/-!
# Rounding to binary64

`Binary64.ofRatio` is the number nearest to a quotient of naturals, a tie going to the even
significand; integers and decimals are read through it. The quotient is scaled by a power of two
until its integer part has 53 bits, or as few as the subnormal range leaves, and the carry of a
round-up runs into the exponent field by itself.
-/

namespace FilterSql.Binary64

/-- The integer nearest to `num / den`, a tie going to the even one. -/
def roundDiv (num den : Nat) : Nat :=
  let q := num / den
  let twice := 2 * (num % den)
  if twice < den then q
  else if twice > den then q + 1
  else if q % 2 = 0 then q else q + 1

/-- The binary exponent at which `num / den` has an integer part of 53 bits, but at least that of
the subnormal numbers. -/
def scaleOf (num den : Nat) : Int :=
  -- the lengths of the two numbers give the exponent or one less
  let estimate : Int := (num.log2 : Int) - (den.log2 : Int) - 53
  let tooSmall : Bool :=
    match estimate with
    | .ofNat e => Nat.pow 2 53 * (den * Nat.pow 2 e) ≤ num
    | .negSucc e => Nat.pow 2 53 * den ≤ num * Nat.pow 2 (e + 1)
  max (if tooSmall then estimate + 1 else estimate) (-1074)

/-- The magnitude bits of the number nearest to `num / den`; an overflow gives the bits of
infinity. -/
def magnitudeOfRatio (num den : Nat) : Nat :=
  if num = 0 then 0
  else
    let e := scaleOf num den
    let q :=
      match e with
      | .ofNat k => roundDiv num (den * Nat.pow 2 k)
      | .negSucc k => roundDiv (num * Nat.pow 2 (k + 1)) den
    -- a significand that is rounded up to 54 bits carries into the exponent field
    let bits := if q < Nat.pow 2 52 then q else (e + 1075).toNat * Nat.pow 2 52 + (q - Nat.pow 2 52)
    min bits (2047 * Nat.pow 2 52)

/-- The number nearest to `± num / den`. -/
def ofRatio (negative : Bool) (num den : Nat) : Binary64 :=
  ofParts negative (magnitudeOfRatio num den)

/-- The number nearest to an integer. -/
def ofInt (n : Int) : Binary64 :=
  ofRatio (decide (n < 0)) n.natAbs 1

/-- The number nearest to `± digits · 10 ^ scale`. A magnitude beyond the range of the format, or
below half of its smallest number, is settled without building the power. -/
def ofDecimal (negative : Bool) (digits : Nat) (scale : Int) : Binary64 :=
  if digits = 0 then ofParts negative 0
  else
    let places : Int := (Nat.toDigits 10 digits).length
    if places + scale > 400 then ofParts negative (2047 * Nat.pow 2 52)
    else if places + scale < -400 then ofParts negative 0
    else
      match scale with
      | .ofNat k => ofRatio negative (digits * Nat.pow 10 k) 1
      | .negSucc k => ofRatio negative digits (Nat.pow 10 (k + 1))

end FilterSql.Binary64
