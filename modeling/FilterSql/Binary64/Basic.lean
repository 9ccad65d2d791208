/-!
# Binary64 numbers

A floating-point number is its 64-bit word: sign, eleven exponent bits and 52 fraction bits. All
operations read the word with exact integer arithmetic, so they can be reasoned about and do not
depend on a run-time float. Two comparisons are kept apart: `Binary64.same`, where a NaN differs
from everything and the two zeros are equal, and the total order of `Binary64.totalKey`, in which
every word has its own place.
-/

namespace FilterSql

/-- A binary64 number, given by its bits. -/
structure Binary64 where
  bits : UInt64
  deriving DecidableEq, Inhabited

namespace Binary64

/-- Whether the sign bit is set. -/
def negative (x : Binary64) : Bool :=
  Nat.pow 2 63 ≤ x.bits.toNat

/-- The bits below the sign. -/
def magnitude (x : Binary64) : Nat :=
  x.bits.toNat % Nat.pow 2 63

/-- The exponent field. -/
def exponentField (x : Binary64) : Nat :=
  x.magnitude / Nat.pow 2 52

/-- The fraction field. -/
def fractionField (x : Binary64) : Nat :=
  x.magnitude % Nat.pow 2 52

/-- Whether the word is neither an infinity nor a NaN. -/
def isFinite (x : Binary64) : Bool :=
  x.exponentField < 2047

/-- Whether the word is no number. -/
def isNaN (x : Binary64) : Bool :=
  x.exponentField == 2047 && x.fractionField != 0

/-- Whether the word is one of the two zeros. -/
def isZero (x : Binary64) : Bool :=
  x.magnitude == 0

/-- The integer significand of a finite number: its absolute value is
`significand · 2 ^ exponent`. -/
def significand (x : Binary64) : Nat :=
  if x.exponentField = 0 then x.fractionField else Nat.pow 2 52 + x.fractionField

/-- The binary exponent that goes with the significand. -/
def exponent (x : Binary64) : Int :=
  if x.exponentField = 0 then -1074 else (x.exponentField : Int) - 1075

/-- The word with a given sign and the given bits below it. -/
def ofParts (negative : Bool) (magnitude : Nat) : Binary64 :=
  ⟨UInt64.ofNat ((if negative then Nat.pow 2 63 else 0) + magnitude % Nat.pow 2 63)⟩

/-- Positive zero. -/
def zero : Binary64 := ⟨0⟩

/-- Numeric equality: a NaN equals nothing, and the two zeros are equal. -/
def same (x y : Binary64) : Bool :=
  !x.isNaN && !y.isNaN && (x.bits == y.bits || (x.isZero && y.isZero))

instance : BEq Binary64 := ⟨same⟩

/-- The place of a word in the total order: negative words below positive ones, each sign by
magnitude, so that `-0` lies below `+0` and the NaNs lie at the two ends. -/
def totalKey (x : Binary64) : Int :=
  if x.negative then -(x.magnitude : Int) - 1 else x.magnitude

/-- The total order on words. -/
def totalCompare (x y : Binary64) : Ordering :=
  compare x.totalKey y.totalKey

/-- The integer part of a number as a count: what is not positive counts as nothing, and what is
too large for 64 bits as the largest count. -/
def toCount (x : Binary64) : Nat :=
  if x.isNaN || x.negative then 0
  else if !x.isFinite then UInt64.size - 1
  else
    let whole :=
      match x.exponent with
      | .ofNat e => x.significand * Nat.pow 2 e
      | .negSucc e => x.significand / Nat.pow 2 (e + 1)
    min whole (UInt64.size - 1)

end Binary64

end FilterSql
