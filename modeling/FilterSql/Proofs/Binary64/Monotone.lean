import FilterSql.Proofs.Binary64.Shortest
import Mathlib.Data.Rat.Floor

/-!
# Rounding keeps the order

The larger of two quotients does not round to the smaller number (`magnitudeOfRatio_mono`), so
integers are read as floats in their order (`totalKey_ofInt_mono`), although large ones may be read
as the same float. Up to `2 ^ 53` they are not: there every integer is a number of the format
(`ofInt_inj`), and a count is read back from it (`toCount_ofInt`).
-/

namespace FilterSql.Binary64

variable {num den num' den' : ℕ}

/-! ## Quotients -/

/-- Every number that is not negative has a nearest integer. -/
theorem exists_near {y : ℚ} (hy : 0 ≤ y) : ∃ q : ℕ, Near q (1 / 2) y := by
  have hfloor : (⌊y⌋₊ : ℚ) ≤ y := Nat.floor_le hy
  have hnext : y < ⌊y⌋₊ + 1 := Nat.lt_floor_add_one y
  rcases lt_trichotomy y (⌊y⌋₊ + 1 / 2) with hlow | htie | hhigh
  · exact ⟨⌊y⌋₊, by linarith, hlow.le, fun _ => ⟨by linarith, hlow⟩⟩
  · -- a tie goes to the even one of the two neighbours
    rcases Nat.mod_two_eq_zero_or_one ⌊y⌋₊ with heven | hodd
    · exact ⟨⌊y⌋₊, by linarith, htie.le, fun hodd => by omega⟩
    · exact ⟨⌊y⌋₊ + 1, by push_cast; linarith, by push_cast; linarith, fun hodd' => by omega⟩
  · exact ⟨⌊y⌋₊ + 1, by push_cast; linarith, by push_cast; linarith,
      fun _ => ⟨by push_cast; linarith, by push_cast; linarith⟩⟩

/-- An integer is near to itself. -/
theorem Near.self (m : ℕ) : Near m (1 / 2) m :=
  ⟨by linarith, by linarith, fun _ => ⟨by linarith, by linarith⟩⟩

/-- The integers nearest to two numbers are in their order. -/
theorem Near.le {q q' : ℕ} {y y' : ℚ} (h : Near q (1 / 2) y) (h' : Near q' (1 / 2) y')
    (hle : y ≤ y') : q ≤ q' := by
  by_contra hlt
  have hgap : (q' : ℚ) + 1 ≤ q := by exact_mod_cast not_le.mp hlt
  have hlow := h.low
  have hhigh := h'.high
  -- both numbers lie halfway between the two integers, one of which is odd
  obtain rfl : q = q' + 1 := by
    have : (q : ℚ) ≤ q' + 1 := by linarith
    have : q ≤ q' + 1 := by exact_mod_cast this
    omega
  rcases Nat.mod_two_eq_zero_or_one q' with heven | hodd
  · have := (h.strict (by omega)).1
    linarith
  · have := (h'.strict hodd).2
    linarith

/-- Bits grow with the significand. -/
theorem bitsOf_mono {q q' : ℕ} {e : ℤ} (he : -1074 ≤ e) (hle : q ≤ q') :
    bitsOf q e ≤ bitsOf q' e := by
  unfold bitsOf
  split <;> split <;> omega

/-- A larger exponent outweighs the significand. -/
theorem bitsOf_le_of_lt {q q' : ℕ} {e e' : ℤ} (hfirst : -1074 ≤ e) (hlt : e < e')
    (hq : q ≤ 2 ^ 53) (hq' : 2 ^ 52 ≤ q') : bitsOf q e ≤ bitsOf q' e' := by
  unfold bitsOf
  rw [if_neg (not_lt.mpr hq')]
  split <;> omega

/-- The significand of a quotient has 53 bits, or fewer with the exponent of the subnormal numbers;
rounding up can make it `2 ^ 53`. -/
theorem exists_significand (hnum : 0 < num) (hden : 0 < den) :
    ∃ q : ℕ, Near q (1 / 2) (num / den / 2 ^ scaleOf num den) ∧ q ≤ 2 ^ 53 ∧
      (scaleOf num den = -1074 ∨ 2 ^ 52 ≤ q) := by
  obtain ⟨-, hbelow, hleast⟩ := scaleOf_spec hnum hden
  have hunit : (0 : ℚ) < 2 ^ scaleOf num den := by positivity
  obtain ⟨q, hq⟩ := exists_near (y := num / den / 2 ^ scaleOf num den) (by positivity)
  refine ⟨q, hq, hq.le (.self _) ?_, hleast.imp_right fun hleast => (Near.self _).le hq ?_⟩
  · rw [div_le_iff₀ hunit, Nat.cast_pow, Nat.cast_ofNat, ← zpow_natCast, ← zpow_add₀ two_ne_zero,
      add_comm]
    exact hbelow.le
  · rw [le_div_iff₀ hunit, Nat.cast_pow, Nat.cast_ofNat, ← zpow_natCast, ← zpow_add₀ two_ne_zero,
      add_comm]
    exact hleast

/-- The exponents of quotients are in their order. -/
theorem scaleOf_mono (hnum : 0 < num) (hden : 0 < den) (hnum' : 0 < num') (hden' : 0 < den')
    (hle : (num : ℚ) / den ≤ num' / den') : scaleOf num den ≤ scaleOf num' den' := by
  obtain ⟨-, -, hleast⟩ := scaleOf_spec hnum hden
  obtain ⟨hfirst', hbelow', -⟩ := scaleOf_spec hnum' hden'
  rcases hleast with hsmall | hleast
  · rwa [hsmall]
  · have hpowers := hleast.trans_lt (hle.trans_lt hbelow')
    rw [zpow_lt_zpow_iff_right₀ one_lt_two] at hpowers
    omega

/-- Rounding keeps the order of quotients. -/
theorem magnitudeOfRatio_mono (hden : 0 < den) (hden' : 0 < den')
    (hle : (num : ℚ) / den ≤ num' / den') :
    magnitudeOfRatio num den ≤ magnitudeOfRatio num' den' := by
  rcases Nat.eq_zero_or_pos num with rfl | hnum
  · exact Nat.zero_le _
  have hpos : (0 : ℚ) < num / den := by positivity
  have hnum' : 0 < num' := by
    by_contra hzero
    rw [Nat.eq_zero_of_not_pos hzero, Nat.cast_zero, zero_div] at hle
    linarith
  obtain ⟨q, hq, hqle, -⟩ := exists_significand hnum hden
  obtain ⟨q', hq', -, hleast'⟩ := exists_significand hnum' hden'
  have hfirst := (scaleOf_spec hnum hden).1
  rw [magnitudeOfRatio_scaled hnum hden hq, magnitudeOfRatio_scaled hnum' hden' hq']
  refine min_le_min_right _ ?_
  rcases (scaleOf_mono hnum hden hnum' hden' hle).eq_or_lt with hscale | hscale
  · rw [← hscale] at hq' ⊢
    exact bitsOf_mono hfirst (hq.le hq' (by gcongr))
  · exact bitsOf_le_of_lt hfirst hscale hqle (hleast'.resolve_left (by omega))

/-! ## Integers -/

/-- A magnitude has no bit for the sign. -/
theorem magnitudeOfRatio_lt (num den : ℕ) : magnitudeOfRatio num den < 2 ^ 63 := by
  unfold magnitudeOfRatio
  split
  · norm_num
  · exact (min_le_right _ _).trans_lt (by norm_num)

/-- The place of a number in the order is its magnitude, counted down from minus one below zero. -/
theorem totalKey_ofParts {negative : Bool} {magnitude : ℕ} (hlt : magnitude < 2 ^ 63) :
    (ofParts negative magnitude).totalKey =
      if negative then -(magnitude : ℤ) - 1 else magnitude := by
  have hbits : (ofParts negative magnitude).bits.toNat =
      (if negative then 2 ^ 63 else 0) + magnitude := by
    simp only [ofParts, Nat.pow_eq, Nat.mod_eq_of_lt hlt]
    refine UInt64.toNat_ofNat_of_lt' ?_
    rw [UInt64.size]
    split <;> omega
  simp only [totalKey, Binary64.negative, Binary64.magnitude, hbits, Nat.pow_eq, decide_eq_true_eq]
  cases negative with
  | true =>
      simp only [if_true]
      omega
  | false =>
      simp only [Bool.false_eq_true, if_false]
      omega

/-- Different numbers have different places in the order. -/
theorem totalKey_injective : Function.Injective totalKey := by
  intro x y h
  rw [← ofParts_negative_magnitude x, ← ofParts_negative_magnitude y]
  unfold totalKey at h
  split at h <;> split at h
  · next hx hy => rw [hx, hy, show x.magnitude = y.magnitude by omega]
  · omega
  · omega
  · next hx hy =>
    rw [Bool.eq_false_of_not_eq_true hx, Bool.eq_false_of_not_eq_true hy,
      show x.magnitude = y.magnitude by omega]

/-- The place of an integer among the floats. -/
theorem totalKey_ofInt (n : ℤ) :
    (ofInt n).totalKey =
      if n < 0 then -(magnitudeOfRatio n.natAbs 1 : ℤ) - 1 else magnitudeOfRatio n.natAbs 1 := by
  rw [ofInt, ofRatio, totalKey_ofParts (magnitudeOfRatio_lt _ _)]
  simp only [decide_eq_true_eq]

/-- Integers are read as floats in their order. -/
theorem totalKey_ofInt_mono {m n : ℤ} (hle : m ≤ n) :
    (ofInt m).totalKey ≤ (ofInt n).totalKey := by
  have hmono : ∀ {a b : ℕ}, a ≤ b → magnitudeOfRatio a 1 ≤ magnitudeOfRatio b 1 := by
    intro a b hab
    exact magnitudeOfRatio_mono one_pos one_pos (by gcongr)
  simp only [totalKey_ofInt]
  split <;> split
  · have := hmono (show n.natAbs ≤ m.natAbs by omega)
    omega
  · omega
  · omega
  · have := hmono (show m.natAbs ≤ n.natAbs by omega)
    omega

/-- Up to `2 ^ 53` every integer is a number of the format. -/
theorem exists_canonical {n : ℕ} (hpos : 0 < n) (hle : n ≤ 2 ^ 53) :
    ∃ m e, IsCanonical m e ∧ 2 ^ 52 ≤ m ∧ (n : ℚ) = m * 2 ^ e := by
  rcases hle.lt_or_eq with hlt | rfl
  · have hlog : 2 ^ n.log2 ≤ n := Nat.log2_self_le hpos.ne'
    have hlog' : n < 2 ^ (n.log2 + 1) := Nat.lt_log2_self
    have hplaces : n.log2 < 53 := (Nat.log2_lt hpos.ne').mpr hlt
    have hlow : 2 ^ 52 ≤ n * 2 ^ (52 - n.log2) := by
      calc 2 ^ 52 = 2 ^ n.log2 * 2 ^ (52 - n.log2) := by
            rw [← pow_add, Nat.add_sub_cancel' (by omega)]
        _ ≤ n * 2 ^ (52 - n.log2) := Nat.mul_le_mul_right _ hlog
    have hhigh : n * 2 ^ (52 - n.log2) < 2 ^ 53 := by
      calc n * 2 ^ (52 - n.log2) < 2 ^ (n.log2 + 1) * 2 ^ (52 - n.log2) :=
            Nat.mul_lt_mul_of_pos_right hlog' (by positivity)
        _ = 2 ^ 53 := by
            rw [← pow_add]
            congr 1
            omega
    refine ⟨_, -((52 - n.log2 : ℕ) : ℤ), ⟨by omega, hhigh, by omega, by omega, .inl hlow⟩, hlow, ?_⟩
    rw [zpow_neg, zpow_natCast, Nat.cast_mul, Nat.cast_pow, Nat.cast_ofNat,
      mul_inv_cancel_right₀ (by positivity)]
  · refine ⟨2 ^ 52, 1, ⟨?_, ?_, ?_, ?_, .inl le_rfl⟩, le_rfl, ?_⟩ <;> norm_num

/-- A number of the format rounds to itself. -/
theorem RoundsTo.self (m : ℕ) (e : ℤ) : RoundsTo m e (m * 2 ^ e) := by
  refine roundsTo_of_abs_lt ?_
  have hgap : 0 < halfGap m e := by
    unfold halfGap
    split <;> norm_num
  rw [sub_self, abs_zero]
  positivity

/-- An integer with few bits is read exactly. -/
theorem magnitudeOfRatio_canonical {n m : ℕ} {e : ℤ} (hcanonical : IsCanonical m e)
    (hvalue : (n : ℚ) = m * 2 ^ e) : magnitudeOfRatio n 1 = bitsOf m e := by
  have hrounds : RoundsTo m e ((n : ℚ) / (1 : ℕ)) := by
    rw [Nat.cast_one, div_one, hvalue]
    exact .self m e
  exact magnitudeOfRatio_eq one_pos hcanonical hrounds

/-- The bits of an integer that is a number of the format give the integer back. -/
theorem exists_exact {n : ℕ} (hpos : 0 < n) (hle : n ≤ 2 ^ 53) :
    ∃ (m : ℕ) (e : ℤ), (2 ^ 52 ≤ m ∧ m < 2 ^ 53 ∧ -1074 ≤ e) ∧ (n : ℚ) = m * 2 ^ e ∧
      (magnitudeOfRatio n 1 : ℤ) = (e + 1074) * 2 ^ 52 + m := by
  obtain ⟨m, e, hcanonical, hlow, hvalue⟩ := exists_canonical hpos hle
  refine ⟨m, e, ⟨hlow, hcanonical.lt, hcanonical.first_le⟩, hvalue, ?_⟩
  have hfirst := hcanonical.first_le
  rw [magnitudeOfRatio_canonical hcanonical hvalue, bitsOf, if_neg (not_lt.mpr hlow)]
  omega

/-- Different integers up to 2 to the 53 are read as different numbers. -/
theorem magnitudeOfRatio_inj {n n' : ℕ} (hle : n ≤ 2 ^ 53) (hle' : n' ≤ 2 ^ 53)
    (h : magnitudeOfRatio n 1 = magnitudeOfRatio n' 1) : n = n' := by
  have hzero : magnitudeOfRatio 0 1 = 0 := if_pos rfl
  rcases Nat.eq_zero_or_pos n with rfl | hpos <;> rcases Nat.eq_zero_or_pos n' with rfl | hpos'
  · rfl
  · obtain ⟨m, e, hbounds, -, hbits⟩ := exists_exact hpos' hle'
    omega
  · obtain ⟨m, e, hbounds, -, hbits⟩ := exists_exact hpos hle
    omega
  · obtain ⟨m, e, hbounds, hvalue, hbits⟩ := exists_exact hpos hle
    obtain ⟨m', e', hbounds', hvalue', hbits'⟩ := exists_exact hpos' hle'
    obtain ⟨rfl, rfl⟩ : e = e' ∧ m = m' := by omega
    exact_mod_cast hvalue.trans hvalue'.symm

/-- No two integers up to `2 ^ 53` are read as the same float. -/
theorem ofInt_inj {m n : ℤ} (hm : m.natAbs ≤ 2 ^ 53) (hn : n.natAbs ≤ 2 ^ 53)
    (h : ofInt m = ofInt n) : m = n := by
  have hkey := congrArg totalKey h
  rw [totalKey_ofInt, totalKey_ofInt] at hkey
  split at hkey <;> split at hkey
  · have := magnitudeOfRatio_inj hm hn (by omega)
    omega
  · omega
  · omega
  · have := magnitudeOfRatio_inj hm hn (by omega)
    omega

/-! ## Counts -/

/-- The fields of a positive number with a significand of 53 bits. -/
theorem fields_ofParts {m : ℕ} {e : ℤ} (h : IsCanonical m e) (hlow : 2 ^ 52 ≤ m) :
    (ofParts false (bitsOf m e)).exponentField = (e + 1075).toNat ∧
      (ofParts false (bitsOf m e)).fractionField = m - 2 ^ 52 ∧
      (ofParts false (bitsOf m e)).negative = false := by
  have hbits : bitsOf m e = (e + 1075).toNat * 2 ^ 52 + (m - 2 ^ 52) := if_neg (not_lt.mpr hlow)
  have hlt := h.bitsOf_lt
  have hword : (ofParts false (bitsOf m e)).bits.toNat = bitsOf m e := by
    simp only [ofParts, Bool.false_eq_true, if_false, Nat.zero_add, Nat.pow_eq,
      Nat.mod_eq_of_lt (show bitsOf m e < 2 ^ 63 by omega)]
    exact UInt64.toNat_ofNat_of_lt' (by rw [UInt64.size]; omega)
  have hhigh := h.lt
  simp only [exponentField, fractionField, magnitude, negative, hword, Nat.pow_eq,
    decide_eq_false_iff_not]
  rw [hbits] at hlt ⊢
  omega

/-- A number whose value is a count up to `2 ^ 53` is read as the count. -/
theorem toCount_of_value {x : Binary64} {n : ℕ} (hle : n ≤ 2 ^ 53) (hfinite : x.isFinite = true)
    (hsign : x.negative = false) (hvalue : (n : ℚ) = x.significand * 2 ^ x.exponent) :
    x.toCount = n := by
  have hnumber : x.isNaN = false := by
    rw [isFinite, decide_eq_true_eq] at hfinite
    rw [isNaN, beq_eq_false_iff_ne.2 (by omega), Bool.false_and]
  have hmax : min n (UInt64.size - 1) = n := by
    rw [UInt64.size]
    omega
  rw [toCount, hnumber, hsign, hfinite]
  simp only [Bool.or_self, Bool.false_eq_true, Bool.not_true, if_false]
  split
  next k hexponent =>
    rw [hexponent, Int.ofNat_eq_natCast, zpow_natCast] at hvalue
    have hwhole : n = x.significand * 2 ^ k := by exact_mod_cast hvalue
    rw [Nat.pow_eq, ← hwhole, hmax]
  next k hexponent =>
    rw [hexponent, zpow_negSucc, ← div_eq_mul_inv, eq_div_iff (by positivity)] at hvalue
    have hwhole : n * 2 ^ (k + 1) = x.significand := by exact_mod_cast hvalue
    rw [Nat.pow_eq, ← hwhole, Nat.mul_div_cancel _ (by positivity), hmax]

/-- A count up to `2 ^ 53` is read back from the float that it is sent as. -/
theorem toCount_ofInt {n : ℕ} (hle : n ≤ 2 ^ 53) : (ofInt n).toCount = n := by
  rcases Nat.eq_zero_or_pos n with rfl | hpos
  · have hsignificand : (ofInt (0 : ℕ)).significand = 0 := by decide
    refine toCount_of_value hle (by decide) (by decide) ?_
    rw [Nat.cast_zero, hsignificand, Nat.cast_zero, zero_mul]
  obtain ⟨m, e, hcanonical, hlow, hvalue⟩ := exists_canonical hpos hle
  have hnumber : ofInt n = ofParts false (bitsOf m e) := by
    rw [ofInt, ofRatio, Int.natAbs_natCast, magnitudeOfRatio_canonical hcanonical hvalue,
      decide_eq_false (by omega)]
  obtain ⟨hexponent, hfraction, hsign⟩ := fields_ofParts hcanonical hlow
  have hfirst := hcanonical.first_le
  have hlast := hcanonical.le_last
  have hnormal : (e + 1075).toNat ≠ 0 := by omega
  have hfinite : (ofParts false (bitsOf m e)).isFinite = true := by
    rw [isFinite, hexponent, decide_eq_true_eq]
    omega
  have hsignificand : (ofParts false (bitsOf m e)).significand = m := by
    rw [significand, hexponent, hfraction, if_neg hnormal, Nat.pow_eq,
      Nat.add_sub_cancel' hlow]
  have hscale : (ofParts false (bitsOf m e)).exponent = e := by
    rw [exponent, hexponent, if_neg hnormal]
    omega
  rw [hnumber]
  refine toCount_of_value hle hfinite hsign ?_
  rw [hsignificand, hscale, hvalue]

end FilterSql.Binary64
