import FilterSql.Binary64.Round
import Mathlib.Algebra.Order.Field.Power
import Mathlib.Tactic.FieldSimp
import Mathlib.Tactic.Linarith
import Mathlib.Tactic.NormNum
import Mathlib.Tactic.Positivity
import Mathlib.Tactic.Ring

/-!
# The numbers that round to a binary64 number

A finite number other than zero is `m · 2 ^ e` for a canonical significand and exponent, and a
rational rounds to it from half a gap below to half a gap above, the two ends included where `m` is
even (`RoundsTo`). `magnitudeOfRatio_eq` and `ofDecimal_eq` say that every quotient and every
decimal in this interval is read as the number. The one place where the exponent of the quotient is
not that of the number lies right below a power of two, where the gap is half as wide.
-/

namespace FilterSql.Binary64

/-- A significand and an exponent of a finite number other than zero: 53 bits, or fewer with the
exponent of the subnormal numbers. -/
structure IsCanonical (m : ℕ) (e : ℤ) : Prop where
  pos : 0 < m
  lt : m < 2 ^ 53
  first_le : -1074 ≤ e
  le_last : e ≤ 971
  normal : 2 ^ 52 ≤ m ∨ e = -1074

/-- The bits of `m · 2 ^ e` below the sign. -/
def bitsOf (m : ℕ) (e : ℤ) : ℕ :=
  if m < 2 ^ 52 then m else (e + 1075).toNat * 2 ^ 52 + (m - 2 ^ 52)

/-- Half of the gap below `m · 2 ^ e`, in units of `2 ^ e`. The numbers below a power of two lie
twice as close. -/
def halfGap (m : ℕ) (e : ℤ) : ℚ :=
  if m = 2 ^ 52 ∧ e ≠ -1074 then 1 / 4 else 1 / 2

/-- A rational in units of `2 ^ e` is nearest to `m`, with the given half-gap below `m`; the ends
belong to an even `m`. -/
structure Near (m : ℕ) (below y : ℚ) : Prop where
  low : m - below ≤ y
  high : y ≤ m + 1 / 2
  strict : m % 2 = 1 → m - below < y ∧ y < m + 1 / 2

/-- A rational rounds to `m · 2 ^ e`. -/
def RoundsTo (m : ℕ) (e : ℤ) (r : ℚ) : Prop :=
  Near m (halfGap m e) (r / 2 ^ e)

variable {m : ℕ} {e : ℤ} {r : ℚ} {num den : ℕ}

/-- The half-gap below is at most one half. -/
theorem halfGap_le : halfGap m e ≤ 1 / 2 := by
  unfold halfGap
  split <;> norm_num

/-- What rounds to a positive number is positive. -/
theorem RoundsTo.pos (hm : 0 < m) (h : RoundsTo m e r) : 0 < r := by
  have hm : (1 : ℚ) ≤ m := by exact_mod_cast hm
  have hlow := h.low
  have hgap := @halfGap_le m e
  have hscaled : 0 < r / 2 ^ e := by linarith
  have hunit : (0 : ℚ) < 2 ^ e := by positivity
  rwa [lt_div_iff₀ hunit, zero_mul] at hscaled

/-! ## Rounding a quotient to an integer -/

/-- The integer nearest to a quotient. -/
theorem roundDiv_eq {q : ℕ} (hden : 0 < den) (h : Near q (1 / 2) (num / den)) :
    roundDiv num den = q := by
  have hden' : (0 : ℚ) < den := by exact_mod_cast hden
  have hlow : 2 * (q * den) ≤ 2 * num + den := by
    have := h.low
    rw [le_div_iff₀ hden'] at this
    exact_mod_cast (by linarith : (2 * (q * den) : ℚ) ≤ 2 * num + den)
  have hhigh : 2 * num ≤ 2 * (q * den) + den := by
    have := h.high
    rw [div_le_iff₀ hden'] at this
    exact_mod_cast (by linarith : (2 * num : ℚ) ≤ 2 * (q * den) + den)
  have hodd : q % 2 = 1 → 2 * (q * den) < 2 * num + den ∧ 2 * num < 2 * (q * den) + den := by
    intro hq
    obtain ⟨hl, hh⟩ := h.strict hq
    rw [lt_div_iff₀ hden'] at hl
    rw [div_lt_iff₀ hden'] at hh
    constructor
    · exact_mod_cast (by linarith : (2 * (q * den) : ℚ) < 2 * num + den)
    · exact_mod_cast (by linarith : (2 * num : ℚ) < 2 * (q * den) + den)
  have hsplit : num / den * den + num % den = num := Nat.div_add_mod' num den
  have hmod : num % den < den := Nat.mod_lt num hden
  -- the nearest integer is the quotient or the next one
  have hcases : q = num / den ∨ q = num / den + 1 := by
    have hle : num / den ≤ q := by
      by_contra hlt
      have : (q + 1) * den ≤ num / den * den := Nat.mul_le_mul_right _ (by omega)
      rw [Nat.add_mul] at this
      omega
    have hge : q ≤ num / den + 1 := by
      by_contra hlt
      have : (num / den + 2) * den ≤ q * den := Nat.mul_le_mul_right _ (by omega)
      rw [Nat.add_mul] at this
      omega
    omega
  simp only [roundDiv]
  rcases hcases with hq | hq
  · rw [hq] at hlow hhigh hodd ⊢
    split
    · rfl
    · split
      · omega
      · split
        · rfl
        · exact absurd (hodd (by omega)) (by omega)
  · rw [hq, Nat.add_mul, Nat.one_mul] at hlow hhigh hodd
    rw [hq]
    split
    · omega
    · split
      · rfl
      · split
        · exact absurd (hodd (by omega)) (by omega)
        · rfl

/-- The integer that `magnitudeOfRatio` finds for a quotient at a binary exponent. -/
theorem roundDiv_scaled {q : ℕ} (hden : 0 < den) :
    Near q (1 / 2) (num / den / 2 ^ e) →
      (match e with
        | .ofNat k => roundDiv num (den * Nat.pow 2 k)
        | .negSucc k => roundDiv (num * Nat.pow 2 (k + 1)) den) = q := by
  intro h
  cases e with
  | ofNat k =>
      refine roundDiv_eq (Nat.mul_pos hden (Nat.two_pow_pos k)) ?_
      rw [Int.ofNat_eq_natCast, zpow_natCast, div_div] at h
      simpa only [Nat.pow_eq, Nat.cast_mul, Nat.cast_pow, Nat.cast_ofNat] using h
  | negSucc k =>
      refine roundDiv_eq hden ?_
      rw [zpow_negSucc, div_inv_eq_mul, div_mul_eq_mul_div] at h
      simpa only [Nat.pow_eq, Nat.cast_mul, Nat.cast_pow, Nat.cast_ofNat] using h

/-! ## The exponent of a quotient -/

/-- The lengths of numerator and denominator bound the quotient. -/
theorem lt_two_zpow_log2 (hnum : 0 < num) (hden : 0 < den) :
    (2 : ℚ) ^ ((num.log2 : ℤ) - den.log2 - 1) < num / den ∧
      (num : ℚ) / den < 2 ^ ((num.log2 : ℤ) - den.log2 + 1) := by
  have hden' : (0 : ℚ) < den := by exact_mod_cast hden
  have hn : (2 : ℚ) ^ (num.log2 : ℤ) ≤ num := by
    rw [zpow_natCast]
    exact_mod_cast Nat.log2_self_le hnum.ne'
  have hn' : (num : ℚ) < 2 ^ ((num.log2 : ℤ) + 1) := by
    exact_mod_cast Nat.lt_log2_self
  have hd : (2 : ℚ) ^ (den.log2 : ℤ) ≤ den := by
    rw [zpow_natCast]
    exact_mod_cast Nat.log2_self_le hden.ne'
  have hd' : (den : ℚ) < 2 ^ ((den.log2 : ℤ) + 1) := by
    exact_mod_cast Nat.lt_log2_self
  constructor
  · rw [lt_div_iff₀ hden']
    calc (2 : ℚ) ^ ((num.log2 : ℤ) - den.log2 - 1) * den
        < 2 ^ ((num.log2 : ℤ) - den.log2 - 1) * 2 ^ ((den.log2 : ℤ) + 1) := by gcongr
      _ = 2 ^ (num.log2 : ℤ) := by
          rw [← zpow_add₀ two_ne_zero]
          congr 1
          ring
      _ ≤ num := hn
  · rw [div_lt_iff₀ hden']
    calc (num : ℚ) < 2 ^ ((num.log2 : ℤ) + 1) := hn'
      _ = 2 ^ ((num.log2 : ℤ) - den.log2 + 1) * 2 ^ (den.log2 : ℤ) := by
          rw [← zpow_add₀ two_ne_zero]
          congr 1
          ring
      _ ≤ 2 ^ ((num.log2 : ℤ) - den.log2 + 1) * den := by gcongr

/-- The test of `scaleOf` by whole numbers. -/
theorem hasPlaces_eq (hden : 0 < den) (estimate : ℤ) :
    (match estimate with
      | .ofNat e => decide (Nat.pow 2 53 * (den * Nat.pow 2 e) ≤ num)
      | .negSucc e => decide (Nat.pow 2 53 * den ≤ num * Nat.pow 2 (e + 1))) =
      decide ((2 : ℚ) ^ (estimate + 53) ≤ num / den) := by
  have hden' : (0 : ℚ) < den := by exact_mod_cast hden
  cases estimate with
  | ofNat e =>
      rw [decide_eq_decide, le_div_iff₀ hden', zpow_add₀ two_ne_zero, Int.ofNat_eq_natCast,
        zpow_natCast, mul_comm (_ ^ e), mul_assoc, mul_comm (_ ^ e)]
      norm_cast
  | negSucc e =>
      rw [decide_eq_decide, le_div_iff₀ hden', zpow_add₀ two_ne_zero, zpow_negSucc,
        mul_assoc, inv_mul_le_iff₀ (by positivity), mul_comm (_ ^ (e + 1))]
      norm_cast

/-- The exponent is the estimate or the next one, but not too small. -/
theorem scaleOf_eq (hden : 0 < den) {estimate : ℤ}
    (hestimate : (num.log2 : ℤ) - den.log2 - 53 = estimate) :
    scaleOf num den =
      max (if (2 : ℚ) ^ (estimate + 53) ≤ num / den then estimate + 1 else estimate) (-1074) := by
  subst hestimate
  have hchosen := congrArg
    (fun tooSmall : Bool =>
      max (if tooSmall then (num.log2 : ℤ) - den.log2 - 53 + 1 else num.log2 - den.log2 - 53)
        (-1074))
    (@hasPlaces_eq num den hden ((num.log2 : ℤ) - den.log2 - 53))
  simp only [decide_eq_true_eq] at hchosen
  exact hchosen

/-- A quotient has at most 53 bits before the point at its exponent, and as many unless the exponent
is that of the subnormal numbers. -/
theorem scaleOf_spec (hnum : 0 < num) (hden : 0 < den) :
    -1074 ≤ scaleOf num den ∧ (num : ℚ) / den < 2 ^ (scaleOf num den + 53) ∧
      (scaleOf num den = -1074 ∨ 2 ^ (scaleOf num den + 52) ≤ (num : ℚ) / den) := by
  obtain ⟨hlow, hhigh⟩ := lt_two_zpow_log2 hnum hden
  obtain ⟨estimate, hestimate⟩ : ∃ e, (num.log2 : ℤ) - den.log2 - 53 = e := ⟨_, rfl⟩
  replace hlow : (2 : ℚ) ^ (estimate + 52) ≤ num / den := by
    rw [← hestimate, show (num.log2 : ℤ) - den.log2 - 53 + 52 = num.log2 - den.log2 - 1 by ring]
    exact hlow.le
  replace hhigh : (num : ℚ) / den < 2 ^ (estimate + 1 + 53) := by
    have hplaces : (num.log2 : ℤ) - den.log2 - 53 + 1 + 53 = num.log2 - den.log2 + 1 := by ring
    rwa [← hestimate, hplaces]
  have hchosen : ∀ e : ℤ, (num : ℚ) / den < 2 ^ (e + 53) → 2 ^ (e + 52) ≤ (num : ℚ) / den →
      -1074 ≤ max e (-1074) ∧ (num : ℚ) / den < 2 ^ (max e (-1074) + 53) ∧
        (max e (-1074) = -1074 ∨ 2 ^ (max e (-1074) + 52) ≤ (num : ℚ) / den) := by
    intro e hlt hle
    refine ⟨le_max_right _ _, hlt.trans_le ?_, ?_⟩
    · exact zpow_le_zpow_right₀ one_le_two (by omega)
    · rcases le_total e (-1074) with hsmall | hlarge
      · exact .inl (max_eq_right hsmall)
      · exact .inr (by rwa [max_eq_left hlarge])
  rw [scaleOf_eq hden hestimate]
  split
  · next h =>
    refine hchosen _ hhigh ?_
    rwa [show estimate + 1 + 52 = estimate + 53 by ring]
  · next h => exact hchosen _ (not_le.mp h) hlow

/-! ## Rounding a quotient to a number -/

/-- A rational that is near with a smaller half-gap is so with a wider one. -/
theorem Near.mono {below below' y : ℚ} (hle : below ≤ below') (h : Near m below y) :
    Near m below' y where
  low := by linarith [h.low]
  high := h.high
  strict hodd := ⟨by linarith [(h.strict hodd).1], (h.strict hodd).2⟩

/-- A canonical number has fewer bits than infinity. -/
theorem IsCanonical.bitsOf_lt (h : IsCanonical m e) : bitsOf m e < 2047 * 2 ^ 52 := by
  have hlt := h.lt
  have hlast := h.le_last
  unfold bitsOf
  split <;> omega

/-- A quotient whose scaled significand is near to an integer is read as that integer, or as
infinity. -/
theorem magnitudeOfRatio_scaled {q : ℕ} (hnum : 0 < num) (hden : 0 < den)
    (h : Near q (1 / 2) (num / den / 2 ^ scaleOf num den)) :
    magnitudeOfRatio num den = min (bitsOf q (scaleOf num den)) (2047 * 2 ^ 52) := by
  unfold magnitudeOfRatio
  rw [if_neg hnum.ne']
  exact congrArg (fun q => min (bitsOf q (scaleOf num den)) (2047 * 2 ^ 52))
    (roundDiv_scaled hden h)

/-- A quotient whose exponent is below that of the number it rounds to lies right below a power of
two. -/
theorem RoundsTo.below {e' : ℤ} (hcanonical : IsCanonical m e) (h : RoundsTo m e r)
    (hfirst : -1074 ≤ e') (hbelow : e' < e) (hlt : r < 2 ^ (e' + 53)) :
    m = 2 ^ 52 ∧ e' = e - 1 ∧ Near (2 ^ 53) (1 / 2) (r / 2 ^ e') := by
  have hm : 2 ^ 52 ≤ m := hcanonical.normal.resolve_right (by omega)
  have hunit : (0 : ℚ) < 2 ^ e := by positivity
  have hscaled : r / 2 ^ e < 2 ^ (e' + 53 - e) := by
    rwa [div_lt_iff₀ hunit, ← zpow_add₀ two_ne_zero, sub_add_cancel]
  have hlow := h.low
  have hgap := @halfGap_le m e
  obtain rfl : m = 2 ^ 52 := by
    have hpower : (2 : ℚ) ^ (e' + 53 - e) ≤ 2 ^ (52 : ℤ) :=
      zpow_le_zpow_right₀ one_le_two (by omega)
    norm_num at hpower
    have hle : (m : ℚ) < 4503599627370497 := by linarith
    have : m < 4503599627370497 := by exact_mod_cast hle
    omega
  obtain rfl : e' = e - 1 := by
    by_contra hne
    have hpower : (2 : ℚ) ^ (e' + 53 - e) ≤ 2 ^ (51 : ℤ) :=
      zpow_le_zpow_right₀ one_le_two (by omega)
    norm_num at hpower hlow
    linarith
  refine ⟨rfl, rfl, ?_⟩
  rw [halfGap, if_pos ⟨rfl, by omega⟩] at hlow
  rw [show e - 1 + 53 - e = 52 by ring] at hscaled
  rw [zpow_sub_one₀ two_ne_zero, ← div_div, div_inv_eq_mul]
  norm_num at hlow hscaled
  constructor
  · norm_num
    linarith
  · norm_num
    linarith
  · intro hodd
    norm_num at hodd

/-- The exponent of a quotient is not above that of the number it rounds to. -/
theorem RoundsTo.scale_le {e' : ℤ} (hcanonical : IsCanonical m e) (h : RoundsTo m e r)
    (hle : 2 ^ (e' + 52) ≤ r) : e' ≤ e := by
  by_contra habove
  have hscaled : (2 : ℚ) ^ (53 : ℤ) ≤ r / 2 ^ e := by
    rw [le_div_iff₀ (by positivity), ← zpow_add₀ two_ne_zero]
    exact (zpow_le_zpow_right₀ one_le_two (by omega)).trans hle
  have hhigh := h.high
  have hmax : (m : ℚ) + 1 ≤ 2 ^ 53 := by exact_mod_cast hcanonical.lt
  norm_num at hscaled hmax
  linarith

/-- Every quotient that rounds to a number has its bits. -/
theorem magnitudeOfRatio_eq (hden : 0 < den) (hcanonical : IsCanonical m e)
    (h : RoundsTo m e (num / den)) : magnitudeOfRatio num den = bitsOf m e := by
  have hnum : 0 < num := by
    have hpos := h.pos hcanonical.pos
    by_contra hzero
    simp [Nat.eq_zero_of_not_pos hzero] at hpos
  obtain ⟨hfirst, hlt, hnormal⟩ := scaleOf_spec hnum hden
  have hmin : min (bitsOf m e) (2047 * 2 ^ 52) = bitsOf m e := min_eq_left hcanonical.bitsOf_lt.le
  have hle : scaleOf num den ≤ e := by
    rcases hnormal with hsmall | hnormal
    · exact hsmall ▸ hcanonical.first_le
    · exact h.scale_le hcanonical hnormal
  rcases hle.lt_or_eq with hbelow | hscale
  · -- the significand is rounded up to 54 bits and carries into the exponent
    obtain ⟨rfl, hscale, hnear⟩ := h.below hcanonical hfirst hbelow hlt
    rw [magnitudeOfRatio_scaled hnum hden (by exact_mod_cast hnear), ← hmin, hscale]
    have hcarry : bitsOf (2 ^ 53) (e - 1) = bitsOf (2 ^ 52) e := by
      have hfirst := hcanonical.first_le
      unfold bitsOf
      norm_num
      omega
    rw [hcarry]
  · have hnear : Near m (1 / 2) (num / den / 2 ^ scaleOf num den) := hscale ▸ h.mono halfGap_le
    rw [magnitudeOfRatio_scaled hnum hden hnear, hscale, hmin]

/-! ## Reading a decimal -/

/-- What rounds to a number has at least half the size of the least one. -/
theorem RoundsTo.least_le (hcanonical : IsCanonical m e) (h : RoundsTo m e r) :
    (2 : ℚ) ^ (-1075 : ℤ) ≤ r := by
  have hm : (1 : ℚ) ≤ m := by exact_mod_cast hcanonical.pos
  have hlow := h.low
  have hgap := @halfGap_le m e
  have hhalf : (1 / 2 : ℚ) ≤ r / 2 ^ e := by linarith
  rw [le_div_iff₀ (by positivity)] at hhalf
  calc (2 : ℚ) ^ (-1075 : ℤ) = 1 / 2 * 2 ^ (-1074 : ℤ) := by
        rw [show (-1075 : ℤ) = -1074 - 1 by norm_num, zpow_sub_one₀ two_ne_zero, one_div, mul_comm]
    _ ≤ 1 / 2 * 2 ^ e := by gcongr; exacts [one_le_two, hcanonical.first_le]
    _ ≤ r := hhalf

/-- What rounds to a number is below the infinity. -/
theorem RoundsTo.lt_infinity (hcanonical : IsCanonical m e) (h : RoundsTo m e r) :
    r < 2 ^ (1024 : ℤ) := by
  have hm : (m : ℚ) + 1 ≤ 2 ^ 53 := by exact_mod_cast hcanonical.lt
  have hhigh := h.high
  rw [div_le_iff₀ (by positivity)] at hhigh
  calc r ≤ (m + 1 / 2) * 2 ^ e := hhigh
    _ < 2 ^ 53 * 2 ^ e := by gcongr; linarith
    _ ≤ 2 ^ 53 * 2 ^ (971 : ℤ) := by gcongr; exacts [one_le_two, hcanonical.le_last]
    _ = 2 ^ (1024 : ℤ) := by
        rw [← zpow_natCast, ← zpow_add₀ two_ne_zero]
        norm_num

/-- A number is at least the power of ten with its digits but one. -/
theorem pow_length_toDigits_le {n : ℕ} (hn : 0 < n) :
    10 ^ ((Nat.toDigits 10 n).length - 1) ≤ n := by
  rcases Nat.eq_zero_or_pos ((Nat.toDigits 10 n).length - 1) with hone | hmore
  · rw [hone]
    exact hn
  · have hlength := (Nat.length_toDigits_le_iff (b := 10) (n := n) (by norm_num) hmore).not
    exact not_lt.mp (hlength.mp (by omega))

/-- A number is below the power of ten with its digits. -/
theorem lt_pow_length_toDigits (n : ℕ) : n < 10 ^ (Nat.toDigits 10 n).length :=
  (Nat.length_toDigits_le_iff (by norm_num) Nat.length_toDigits_pos).mp le_rfl

/-- Ten to the 400 is more than two to the 1200. -/
theorem two_pow_le_ten_pow : (2 : ℚ) ^ (1200 : ℤ) ≤ 10 ^ (400 : ℤ) := by
  rw [show (1200 : ℤ) = 3 * 400 by norm_num, zpow_mul]
  exact zpow_le_zpow_left₀ (by norm_num) (by norm_num) (by norm_num)

/-- The size of a decimal by its number of digits. -/
theorem decimal_bounds {digits : ℕ} (hdigits : 0 < digits) (scale : ℤ) :
    (10 : ℚ) ^ ((Nat.toDigits 10 digits).length + scale - 1) ≤ digits * 10 ^ scale ∧
      (digits : ℚ) * 10 ^ scale < 10 ^ ((Nat.toDigits 10 digits).length + scale) := by
  have hlow : (10 : ℚ) ^ (((Nat.toDigits 10 digits).length - 1 : ℕ) : ℤ) ≤ digits := by
    exact_mod_cast pow_length_toDigits_le hdigits
  have hhigh : (digits : ℚ) < 10 ^ ((Nat.toDigits 10 digits).length : ℤ) := by
    exact_mod_cast lt_pow_length_toDigits digits
  have hlength : 0 < (Nat.toDigits 10 digits).length := Nat.length_toDigits_pos
  constructor
  · rw [show ((Nat.toDigits 10 digits).length + scale - 1 : ℤ) =
      ((Nat.toDigits 10 digits).length - 1 : ℕ) + scale by omega, zpow_add₀ (by norm_num)]
    gcongr
  · rw [zpow_add₀ (by norm_num)]
    gcongr

/-- Every decimal that rounds to a number is read as the number. -/
theorem ofDecimal_eq {digits : ℕ} {scale : ℤ} (hcanonical : IsCanonical m e)
    (h : RoundsTo m e (digits * 10 ^ scale)) (negative : Bool) :
    ofDecimal negative digits scale = ofParts negative (bitsOf m e) := by
  have hdigits : 0 < digits := by
    have hpos := h.pos hcanonical.pos
    by_contra hzero
    simp [Nat.eq_zero_of_not_pos hzero] at hpos
  obtain ⟨hlow, hhigh⟩ := decimal_bounds hdigits scale
  have hlarge : ¬ ((Nat.toDigits 10 digits).length + scale > 400) := by
    intro hplaces
    refine absurd ((h.lt_infinity hcanonical).trans_le ?_) (not_lt.mpr hlow)
    calc (2 : ℚ) ^ (1024 : ℤ) ≤ 2 ^ (1200 : ℤ) := zpow_le_zpow_right₀ one_le_two (by norm_num)
      _ ≤ 10 ^ (400 : ℤ) := two_pow_le_ten_pow
      _ ≤ _ := zpow_le_zpow_right₀ (by norm_num) (by omega)
  have hsmall : ¬ ((Nat.toDigits 10 digits).length + scale < -400) := by
    intro hplaces
    refine absurd (hhigh.trans_le ?_) (not_lt.mpr (h.least_le hcanonical))
    calc (10 : ℚ) ^ ((Nat.toDigits 10 digits).length + scale) ≤ 10 ^ (-400 : ℤ) :=
          zpow_le_zpow_right₀ (by norm_num) (by omega)
      _ ≤ 2 ^ (-1200 : ℤ) := by
          rw [zpow_neg, zpow_neg]
          exact inv_anti₀ (by positivity) two_pow_le_ten_pow
      _ ≤ 2 ^ (-1075 : ℤ) := zpow_le_zpow_right₀ one_le_two (by norm_num)
  simp only [ofDecimal, if_neg hdigits.ne', if_neg hlarge, if_neg hsmall]
  cases scale with
  | ofNat k =>
      rw [Int.ofNat_eq_natCast, zpow_natCast] at h
      refine congrArg (ofParts negative) (magnitudeOfRatio_eq one_pos hcanonical ?_)
      simpa only [Nat.pow_eq, Nat.cast_mul, Nat.cast_pow, Nat.cast_ofNat, Nat.cast_one, div_one]
        using h
  | negSucc k =>
      rw [zpow_negSucc, ← div_eq_mul_inv] at h
      refine congrArg (ofParts negative)
        (magnitudeOfRatio_eq (Nat.pow_pos (by norm_num)) hcanonical ?_)
      simpa only [Nat.pow_eq, Nat.cast_pow, Nat.cast_ofNat] using h

/-! ## The parts of a number -/

variable (x : Binary64)

/-- The sign and the magnitude make up the number. -/
theorem ofParts_negative_magnitude : ofParts x.negative x.magnitude = x := by
  have hlt : x.bits.toNat < 2 ^ 64 := x.bits.toNat_lt
  suffices hbits : (if x.negative then Nat.pow 2 63 else 0) + x.magnitude % Nat.pow 2 63 =
      x.bits.toNat by
    simp only [ofParts, hbits, UInt64.ofNat_toNat]
  simp only [negative, magnitude, Nat.pow_eq, decide_eq_true_eq]
  split <;> omega

/-- The significand and the exponent of a finite number other than zero. -/
theorem isCanonical_of_isFinite (hfinite : x.isFinite = true) (hzero : x.isZero = false) :
    IsCanonical x.significand x.exponent := by
  have hfield : x.exponentField < 2047 := of_decide_eq_true hfinite
  have hfraction : x.fractionField < 2 ^ 52 := Nat.mod_lt _ (by norm_num)
  have hpos : x.exponentField = 0 → 0 < x.fractionField := by
    intro hsubnormal
    have hmagnitude : x.magnitude ≠ 0 := ne_of_beq_false hzero
    simp only [exponentField, fractionField, Nat.pow_eq] at hsubnormal ⊢
    omega
  unfold significand exponent
  split
  · next hsubnormal =>
    exact ⟨hpos hsubnormal, by omega, le_rfl, by norm_num, .inr rfl⟩
  · next hnormal =>
    simp only [Nat.pow_eq]
    exact ⟨by omega, by omega, by omega, by omega, .inl (Nat.le_add_right _ _)⟩

/-- The significand and the exponent make up the magnitude. -/
theorem bitsOf_significand : bitsOf x.significand x.exponent = x.magnitude := by
  have hfraction : x.fractionField < 2 ^ 52 := Nat.mod_lt _ (by norm_num)
  have hsplit : x.exponentField * 2 ^ 52 + x.fractionField = x.magnitude := Nat.div_add_mod' _ _
  by_cases hsubnormal : x.exponentField = 0
  · rw [significand, if_pos hsubnormal, bitsOf, if_pos hfraction]
    omega
  · have hnormal : ¬ (2 ^ 52 + x.fractionField < 2 ^ 52) := by omega
    have hsignificand : x.significand = 2 ^ 52 + x.fractionField := if_neg hsubnormal
    have hexponent : x.exponent = x.exponentField - 1075 := if_neg hsubnormal
    rw [bitsOf, hsignificand, hexponent, if_neg hnormal, sub_add_cancel, Int.toNat_natCast,
      Nat.add_sub_cancel_left]
    exact hsplit

end FilterSql.Binary64
