import FilterSql.Binary64.Shortest
import FilterSql.Proofs.Binary64.Rounding
import Mathlib.Algebra.Order.Ring.Rat
import Mathlib.Order.Compare

/-!
# The shortest decimal reads back

The decimal that stands for a finite number lies in the interval of the rationals that round to it
(`shortest_roundsTo`), so reading the decimal gives the number again (`ofDecimal_shortest`). The
search cannot fail: on the grid of 17 digits two neighbours are less than the interval apart, and
the nearer neighbour of the number lies in it.
-/

namespace FilterSql.Binary64

variable {m : ℕ} {e : ℤ}

/-- The rational that a decimal stands for. -/
def Decimal.value (d : Decimal) : ℚ :=
  d.digits * 10 ^ d.scale

/-! ## Comparing by whole numbers -/

/-- A common factor does not change a comparison. -/
theorem compare_mul_right {c : ℚ} (hc : 0 < c) (a b : ℕ) :
    compare (a * c) (b * c) = compare a b := by
  have hmono : StrictMono fun n : ℕ => (n : ℚ) * c := fun _ _ hlt => by
    dsimp only
    gcongr
  rw [← cmp_eq_compare, ← cmp_eq_compare]
  exact hmono.cmp_map_eq a b

/-- With the lower powers of two and ten taken out, a number is a whole one. -/
theorem scaled_eq {twos tens : ℤ} (a : ℕ) {p s : ℤ} (htwos : twos ≤ p) (htens : tens ≤ s) :
    (a : ℚ) * 2 ^ p * 10 ^ s =
      (a * Nat.pow 2 (p - twos).toNat * Nat.pow 10 (s - tens).toNat : ℕ) *
        (2 ^ twos * 10 ^ tens) := by
  have htwo : (2 : ℚ) ^ p = 2 ^ (p - twos).toNat * 2 ^ twos := by
    rw [← zpow_natCast, ← zpow_add₀ two_ne_zero]
    congr 1
    omega
  have hten : (10 : ℚ) ^ s = 10 ^ (s - tens).toNat * 10 ^ tens := by
    rw [← zpow_natCast, ← zpow_add₀ (by norm_num)]
    congr 1
    omega
  rw [htwo, hten]
  simp only [Nat.pow_eq, Nat.cast_mul, Nat.cast_pow, Nat.cast_ofNat]
  ring

/-- The comparison by whole numbers is that of the rationals. -/
theorem compareScaled_eq (a : ℕ) (p s : ℤ) (b : ℕ) (q t : ℤ) :
    compareScaled a p s b q t = compare ((a : ℚ) * 2 ^ p * 10 ^ s) (b * 2 ^ q * 10 ^ t) := by
  rw [scaled_eq a (min_le_left p q) (min_le_left s t), scaled_eq b (min_le_right p q)
    (min_le_right s t), compare_mul_right (by positivity)]
  rfl

/-- A decimal is compared by the rational that it stands for. -/
theorem compareScaled_value (d : Decimal) (b : ℕ) (q : ℤ) :
    compareScaled d.digits 0 d.scale b q 0 = compare d.value (b * 2 ^ q) := by
  rw [compareScaled_eq, zpow_zero, zpow_zero, mul_one, mul_one]
  rfl

/-! ## The acceptance test -/

/-- The lower end of the interval is half a gap below the number. -/
theorem roundsTo_low (hm : 0 < m) :
    (((if (m == Nat.pow 2 52 && e != -1074) = true then 4 * m - 1 else 4 * m - 2 : ℕ) : ℚ) *
      2 ^ (e - 2)) = (m - halfGap m e) * 2 ^ e := by
  have hunit : (2 : ℚ) ^ e = 4 * 2 ^ (e - 2) := by
    rw [zpow_sub₀ two_ne_zero]
    norm_num
    ring
  have hnarrow : ((m == Nat.pow 2 52 && e != -1074) = true) = (m = 2 ^ 52 ∧ e ≠ -1074) := by
    rw [Bool.and_eq_true, beq_iff_eq, bne_iff_ne, Nat.pow_eq]
  rw [hunit, ← mul_assoc, halfGap]
  congr 1
  simp only [hnarrow]
  split <;> rw [Nat.cast_sub (by omega)] <;> push_cast <;> ring

/-- The acceptance test for a decimal is that it rounds to the number. -/
theorem roundsTo_iff (hm : 0 < m) (d : Decimal) :
    roundsTo m e d = true ↔ RoundsTo m e d.value := by
  have hunit : (0 : ℚ) < 2 ^ e := by positivity
  have hhigh : ((4 * m + 2 : ℕ) : ℚ) * 2 ^ (e - 2) = (m + 1 / 2) * 2 ^ e := by
    rw [zpow_sub₀ two_ne_zero]
    push_cast
    ring
  simp only [roundsTo, compareScaled_value, roundsTo_low hm, hhigh, RoundsTo]
  split
  · next heven =>
    rw [Bool.and_eq_true, bne_iff_ne, bne_iff_ne, compare_ge_iff_ge, compare_le_iff_le,
      ← le_div_iff₀ hunit, ← div_le_iff₀ hunit]
    exact ⟨fun ⟨hl, hh⟩ => ⟨hl, hh, fun hodd => by omega⟩, fun h => ⟨h.low, h.high⟩⟩
  · next hodd =>
    rw [Bool.and_eq_true, beq_iff_eq, beq_iff_eq, compare_gt_iff_gt, compare_lt_iff_lt,
      ← lt_div_iff₀ hunit, ← div_lt_iff₀ hunit]
    exact ⟨fun ⟨hl, hh⟩ => ⟨hl.le, hh.le, fun _ => ⟨hl, hh⟩⟩, fun h => h.strict (by omega)⟩

/-- What is less than half the gap below away from the number rounds to it. -/
theorem roundsTo_of_abs_lt {r : ℚ} (h : |r - m * 2 ^ e| < halfGap m e * 2 ^ e) :
    RoundsTo m e r := by
  have hunit : (0 : ℚ) < 2 ^ e := by positivity
  have hgap := @halfGap_le m e
  obtain ⟨hlow, hhigh⟩ := abs_lt.mp h
  have hlow : m - halfGap m e < r / 2 ^ e := by
    rw [lt_div_iff₀ hunit]
    linarith
  have hhigh : r / 2 ^ e < m + 1 / 2 := by
    rw [div_lt_iff₀ hunit]
    nlinarith
  exact ⟨hlow.le, hhigh.le, fun _ => ⟨hlow, hhigh⟩⟩

/-! ## The grids -/

/-- A number is at least the power of ten below its length. -/
theorem zpow_length_le {n : ℕ} (hn : 0 < n) :
    (10 : ℚ) ^ (((Nat.toDigits 10 n).length : ℤ) - 1) ≤ n := by
  simpa only [add_zero, zpow_zero, mul_one] using (decimal_bounds hn 0).1

/-- The leading digit is not above the number. -/
theorem leadingExponent_le (hm : 0 < m) : (10 : ℚ) ^ leadingExponent m e ≤ m * 2 ^ e := by
  cases e with
  | ofNat k =>
      refine (zpow_length_le (Nat.mul_pos hm (Nat.two_pow_pos k))).trans_eq ?_
      rw [Int.ofNat_eq_natCast, zpow_natCast]
      push_cast
      rfl
  | negSucc k =>
      have hpos : 0 < m * Nat.pow 5 (k + 1) := Nat.mul_pos hm (Nat.pow_pos (by norm_num))
      have hlength := zpow_length_le hpos
      have hten : (10 : ℚ) ^ (k + 1) = 2 ^ (k + 1) * 5 ^ (k + 1) := by
        rw [← mul_pow]
        norm_num
      rw [leadingExponent, zpow_sub₀ (by norm_num), zpow_negSucc, ← div_eq_mul_inv,
        div_le_div_iff₀ (by positivity) (by positivity)]
      calc (10 : ℚ) ^ ((Nat.toDigits 10 (m * Nat.pow 5 (k + 1))).length - 1 : ℤ) * 2 ^ (k + 1)
          ≤ (m * Nat.pow 5 (k + 1) : ℕ) * 2 ^ (k + 1) := by gcongr
        _ = m * 10 ^ ((k : ℤ) + 1) := by
          rw [show ((k : ℤ) + 1) = ((k + 1 : ℕ) : ℤ) by push_cast; rfl, zpow_natCast, hten,
            Nat.pow_eq]
          push_cast
          ring

/-- The quotient of the two natural powers is the power with an integer exponent. -/
theorem pow_toNat_div {b : ℚ} (hb : b ≠ 0) (e : ℤ) : b ^ e.toNat / b ^ (-e).toNat = b ^ e := by
  rw [← zpow_natCast, ← zpow_natCast, ← zpow_sub₀ hb]
  congr 1
  omega

/-- The number lies between two neighbours on each grid. -/
theorem gridBelow_spec (m : ℕ) (e scale : ℤ) :
    (gridBelow m e scale : ℚ) * 10 ^ scale ≤ m * 2 ^ e ∧
      (m : ℚ) * 2 ^ e < (gridBelow m e scale + 1 : ℕ) * 10 ^ scale := by
  have hunit : (0 : ℚ) < 10 ^ scale := by positivity
  have hden : 0 < Nat.pow 2 (-e).toNat * Nat.pow 10 scale.toNat :=
    Nat.mul_pos (Nat.two_pow_pos _) (Nat.pow_pos (by norm_num))
  have hratio : ((m * Nat.pow 2 e.toNat * Nat.pow 10 (-scale).toNat : ℕ) : ℚ) /
      (Nat.pow 2 (-e).toNat * Nat.pow 10 scale.toNat : ℕ) = m * 2 ^ e / 10 ^ scale := by
    rw [← pow_toNat_div two_ne_zero e, ← pow_toNat_div (by norm_num) scale]
    simp only [Nat.pow_eq]
    push_cast
    field_simp
  constructor
  · rw [← le_div_iff₀ hunit, ← hratio, le_div_iff₀ (by exact_mod_cast hden)]
    exact_mod_cast Nat.div_mul_le_self _ _
  · rw [← div_lt_iff₀ hunit, ← hratio, div_lt_iff₀ (by exact_mod_cast hden)]
    exact_mod_cast (Nat.lt_mul_div_succ _ hden).trans_eq (Nat.mul_comm _ _)

/-- Where a grid has no decimal, neither neighbour rounds to the number. -/
theorem onGrid?_eq_none {scale : ℤ} (h : onGrid? m e scale = none) :
    roundsTo m e ⟨gridBelow m e scale, scale⟩ = false ∧
      roundsTo m e ⟨gridBelow m e scale + 1, scale⟩ = false := by
  simp only [onGrid?] at h
  split at h
  · cases h
  · cases h
  · next hlow hhigh => exact ⟨hlow, hhigh⟩
  · split at h <;> cases h

/-- A decimal that is found on a grid rounds to the number. -/
theorem roundsTo_of_onGrid? {scale : ℤ} {d : Decimal} (h : onGrid? m e scale = some d) :
    roundsTo m e d = true := by
  simp only [onGrid?] at h
  split at h
  · next hlow _ => exact Option.some.inj h ▸ hlow
  · next hhigh => exact Option.some.inj h ▸ hhigh
  · cases h
  · next hlow hhigh =>
    split at h
    · exact Option.some.inj h ▸ hhigh
    · exact Option.some.inj h ▸ hlow
    · split at h
      · exact Option.some.inj h ▸ hlow
      · exact Option.some.inj h ▸ hhigh

/-- Neighbours on the grid of 17 digits are closer than the interval is wide. -/
theorem spacing_lt (hcanonical : IsCanonical m e) :
    (10 : ℚ) ^ (leadingExponent m e - 16) < 2 * halfGap m e * 2 ^ e := by
  have hunit : (0 : ℚ) < 2 ^ e := by positivity
  have hlead := leadingExponent_le (e := e) hcanonical.pos
  -- a significand of 53 bits has at most 16 digits
  have hm : (m : ℚ) < 10 ^ 16 * (2 * halfGap m e) := by
    unfold halfGap
    split
    · next hnarrow =>
      rw [hnarrow.1]
      norm_num
    · have hlt : (m : ℚ) < 2 ^ 53 := by exact_mod_cast hcanonical.lt
      norm_num at hlt ⊢
      linarith
  rw [zpow_sub₀ (by norm_num), div_lt_iff₀ (by positivity)]
  calc (10 : ℚ) ^ leadingExponent m e ≤ m * 2 ^ e := hlead
    _ < 10 ^ 16 * (2 * halfGap m e) * 2 ^ e := by gcongr
    _ = 2 * halfGap m e * 2 ^ e * 10 ^ (16 : ℤ) := by
      norm_num
      ring

/-- One of the neighbours on the grid of 17 digits rounds to the number. -/
theorem onGrid?_ne_none (hcanonical : IsCanonical m e) :
    onGrid? m e (leadingExponent m e - 16) ≠ none := by
  intro hnone
  obtain ⟨hlow, hhigh⟩ := onGrid?_eq_none hnone
  have hspacing := spacing_lt hcanonical
  generalize leadingExponent m e - 16 = scale at hlow hhigh hspacing
  obtain ⟨hle, hlt⟩ := gridBelow_spec m e scale
  generalize gridBelow m e scale = below at hlow hhigh hle hlt
  have hnext : ((below + 1 : ℕ) : ℚ) * 10 ^ scale = below * 10 ^ scale + 10 ^ scale := by
    push_cast
    ring
  by_cases hnear : (m : ℚ) * 2 ^ e - below * 10 ^ scale < halfGap m e * 2 ^ e
  · refine Bool.false_ne_true (hlow.symm.trans
      ((roundsTo_iff hcanonical.pos _).mpr (roundsTo_of_abs_lt ?_)))
    rw [Decimal.value, abs_lt]
    constructor <;> linarith
  · refine Bool.false_ne_true (hhigh.symm.trans
      ((roundsTo_iff hcanonical.pos _).mpr (roundsTo_of_abs_lt ?_)))
    rw [Decimal.value, abs_lt]
    constructor <;> linarith

/-! ## The shortest decimal -/

/-- Zeros at the end do not change the value of a decimal. -/
theorem Decimal.value_trim (fuel : ℕ) (d : Decimal) : (d.trim fuel).value = d.value := by
  induction fuel generalizing d with
  | zero => rfl
  | succ fuel ih =>
      rw [Decimal.trim]
      split
      · next hzero =>
        have hdigits : d.digits = d.digits / 10 * 10 := by omega
        rw [ih, Decimal.value, Decimal.value, zpow_add_one₀ (by norm_num)]
        conv_rhs => rw [hdigits]
        push_cast
        ring
      · rfl

variable (x : Binary64)

/-- The decimal that stands for a finite number rounds to it. -/
theorem shortest_roundsTo (hfinite : x.isFinite = true) (hzero : x.isZero = false) :
    RoundsTo x.significand x.exponent x.shortest.value := by
  have hcanonical := isCanonical_of_isFinite x hfinite hzero
  simp only [shortest]
  split
  · next d hfound =>
    obtain ⟨n, -, hgrid⟩ := List.exists_of_findSome?_eq_some hfound
    rw [Decimal.value_trim]
    exact (roundsTo_iff hcanonical.pos d).mp (roundsTo_of_onGrid? hgrid)
  · next hnone =>
    exact absurd (List.findSome?_eq_none_iff.mp hnone 16 (List.mem_range.mpr (by norm_num)))
      (onGrid?_ne_none hcanonical)

/-- The decimal of a number other than zero is not zero. -/
theorem shortest_digits_pos (hfinite : x.isFinite = true) (hzero : x.isZero = false) :
    0 < x.shortest.digits := by
  have hcanonical := isCanonical_of_isFinite x hfinite hzero
  have hpos := (shortest_roundsTo x hfinite hzero).pos hcanonical.pos
  by_contra hdigits
  simp [Decimal.value, Nat.eq_zero_of_not_pos hdigits] at hpos

/-- Reading any decimal of the value that stands for a finite number gives the number. -/
theorem ofDecimal_shortest (hfinite : x.isFinite = true) (hzero : x.isZero = false) {digits : ℕ}
    {scale : ℤ} (hvalue : (⟨digits, scale⟩ : Decimal).value = x.shortest.value) :
    ofDecimal x.negative digits scale = x := by
  have hcanonical := isCanonical_of_isFinite x hfinite hzero
  have hrounds := shortest_roundsTo x hfinite hzero
  rw [← hvalue] at hrounds
  rw [ofDecimal_eq hcanonical hrounds, bitsOf_significand, ofParts_negative_magnitude]

end FilterSql.Binary64
