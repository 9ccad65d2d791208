import FilterSql.Json.Writer
import FilterSql.Proofs.Binary64.Shortest
import FilterSql.Proofs.Text.Digits

/-!
# Numbers read back

A number as written, `NumberText`, has one compact text, and the reader finds the number at the head
of it (`number?_chars`). An integer and a finite floating-point number are written as such texts
(`intText_chars`, `floatText_chars`), and the value of the text is the number again
(`toJson?_ofInt`, `toJson?_ofFloat`): for a float in each of the four layouts, because the
layout moves the point and leaves the value of the decimal.
-/

namespace FilterSql.Json

open Text (AllDigits NoDigit)

namespace NumberText

/-- The text of a fraction. -/
def fractionChars : Option (List Char) → List Char
  | none => []
  | some digits => '.' :: digits

/-- The text of an exponent. -/
def exponentChars : Option (Bool × List Char) → List Char
  | none => []
  | some (negative, digits) => 'e' :: (if negative then '-' else '+') :: digits

/-- The text of a number. -/
def chars (n : NumberText) : List Char :=
  (if n.negative then ['-'] else []) ++
    (n.whole ++ (fractionChars n.fraction ++ exponentChars n.exponent))

/-- The digits of a number are digits, at least one in each place, and start with zero in the only
place that may not be longer then. -/
structure IsPlain (n : NumberText) : Prop where
  whole : AllDigits n.whole
  whole_ne : n.whole ≠ []
  zero : n.whole.head? = some '0' → n.whole = ['0']
  fraction : ∀ digits ∈ n.fraction, AllDigits digits ∧ digits ≠ []
  exponent : ∀ exponent ∈ n.exponent, AllDigits exponent.2 ∧ exponent.2 ≠ []

/-- A text does not go on with a number. -/
def Ends (rest : List Char) : Prop :=
  ∀ c ∈ rest.head?, c.isDigit = false ∧ c ≠ '.' ∧ c ≠ 'e' ∧ c ≠ 'E'

variable {rest : List Char}

/-- What ends a number starts with no digit. -/
theorem Ends.noDigit (h : Ends rest) : NoDigit rest := fun c hc => (h c hc).1

/-- Digits are read to the last. -/
theorem digits?_append {run : List Char} (hrun : AllDigits run) (hne : run ≠ [])
    (hrest : NoDigit rest) : Source.digits? (run ++ rest) = some (run, rest) := by
  rw [Source.digits?, hrun.takeWhile_append hrest, hrun.dropWhile_append hrest]
  cases run with
  | nil => exact absurd rfl hne
  | cons c run => rfl

/-- A whole number is read to its last digit. -/
theorem whole?_append {run : List Char} (hrun : AllDigits run) (hne : run ≠ [])
    (hzero : run.head? = some '0' → run = ['0']) (hrest : NoDigit rest) :
    Source.whole? (run ++ rest) = some (run, rest) := by
  cases run with
  | nil => exact absurd rfl hne
  | cons c run =>
      by_cases hc : c = '0'
      · obtain ⟨-, rfl⟩ := List.cons.inj (hzero (congrArg some hc))
        rw [hc]
        rfl
      · rw [← digits?_append hrun hne hrest, List.cons_append, Source.whole?]
        exact fun _ h => hc (List.cons.inj h).1

/-- An exponent, or what follows where there is none, starts with no digit. -/
theorem noDigit_exponentChars (exponent : Option (Bool × List Char)) (hrest : Ends rest) :
    NoDigit (exponentChars exponent ++ rest) := by
  cases exponent with
  | none => exact hrest.noDigit
  | some exponent =>
      intro c hc
      obtain rfl := Option.some.inj hc
      rfl

/-- A fraction, or what follows where there is none, starts with no digit. -/
theorem noDigit_fractionChars (fraction : Option (List Char)) (exponent : Option (Bool × List Char))
    (hrest : Ends rest) : NoDigit (fractionChars fraction ++ (exponentChars exponent ++ rest)) := by
  cases fraction with
  | none => exact noDigit_exponentChars exponent hrest
  | some digits =>
      intro c hc
      obtain rfl := Option.some.inj hc
      rfl

/-- Without a point there is no fraction. -/
theorem fraction?_none {s : List Char} (h : ∀ c ∈ s.head?, c ≠ '.') :
    Source.fraction? s = some (none, s) := by
  unfold Source.fraction?
  split
  · exact absurd rfl (h '.' rfl)
  · rfl

/-- A fraction is read to its last digit, or none where there is none. -/
theorem fraction?_append {fraction : Option (List Char)} (exponent : Option (Bool × List Char))
    (hfraction : ∀ digits ∈ fraction, AllDigits digits ∧ digits ≠ []) (hrest : Ends rest) :
    Source.fraction? (fractionChars fraction ++ (exponentChars exponent ++ rest)) =
      some (fraction, exponentChars exponent ++ rest) := by
  cases fraction with
  | none =>
      refine fraction?_none fun c hc => ?_
      cases exponent with
      | none => exact (hrest c hc).2.1
      | some exponent =>
          obtain rfl := Option.some.inj hc
          decide
  | some digits =>
      obtain ⟨hdigits, hne⟩ := hfraction digits rfl
      rw [fractionChars, List.cons_append, Source.fraction?,
        digits?_append hdigits hne (noDigit_exponentChars exponent hrest), Option.map_some]

/-- An exponent is read to its last digit, or none where there is none. -/
theorem exponent?_append {exponent : Option (Bool × List Char)}
    (hexponent : ∀ e ∈ exponent, AllDigits e.2 ∧ e.2 ≠ []) (hrest : Ends rest) :
    Source.exponent? (exponentChars exponent ++ rest) = some (exponent, rest) := by
  cases exponent with
  | none =>
      cases rest with
      | nil => rfl
      | cons c rest =>
          obtain ⟨-, -, he, hE⟩ := hrest c rfl
          simp [exponentChars, Source.exponent?, he, hE]
  | some exponent =>
      obtain ⟨negative, digits⟩ := exponent
      obtain ⟨hdigits, hne⟩ := hexponent (negative, digits) rfl
      have hread := digits?_append hdigits hne hrest.noDigit
      cases negative <;> simp [exponentChars, Source.exponent?, hread]

/-- The reader takes the sign off a number. -/
theorem number?_sign (negative : Bool) {s : List Char} (hs : ∀ c ∈ s.head?, c.isDigit = true) :
    Source.number? ((if negative then ['-'] else []) ++ s) = (do
      let (whole, s) ← Source.whole? s
      let (fraction, s) ← Source.fraction? s
      let (exponent, s) ← Source.exponent? s
      return (⟨negative, whole, fraction, exponent⟩, s)) := by
  cases negative with
  | true => rfl
  | false =>
      simp only [Bool.false_eq_true, if_false, List.nil_append, Source.number?]
      split
      · exact absurd (hs '-' rfl) (by decide)
      · rfl

/-- The reader finds a number at the head of its text. -/
theorem number?_chars {n : NumberText} (h : n.IsPlain) (hrest : Ends rest) :
    Source.number? (n.chars ++ rest) = some (n, rest) := by
  obtain ⟨negative, whole, fraction, exponent⟩ := n
  have hhead : ∀ c ∈ (whole ++ (fractionChars fraction ++ (exponentChars exponent ++ rest))).head?,
      c.isDigit = true := by
    obtain ⟨c, run, rfl⟩ := List.exists_cons_of_ne_nil h.whole_ne
    rintro _ ⟨⟩
    exact h.whole c List.mem_cons_self
  rw [chars, List.append_assoc, List.append_assoc, List.append_assoc, number?_sign negative hhead,
    whole?_append h.whole h.whole_ne h.zero (noDigit_fractionChars fraction exponent hrest)]
  simp only [Option.bind_eq_bind, Option.bind_some, Option.pure_def,
    fraction?_append exponent h.fraction hrest, exponent?_append h.exponent hrest]

/-! ## Integers -/

/-- An integer as written. -/
def ofInt (n : Int) : NumberText :=
  ⟨decide (n < 0), Nat.toDigits 10 n.natAbs, none, none⟩

/-- Only zero is written with a zero in front. -/
theorem zero_toDigits (n : ℕ) (h : (Nat.toDigits 10 n).head? = some '0') :
    Nat.toDigits 10 n = ['0'] := by
  rcases Nat.eq_zero_or_pos n with rfl | hn
  · rfl
  · exact absurd h (Text.head?_toDigits hn)

/-- An integer is written plainly. -/
theorem ofInt_isPlain (n : Int) : (ofInt n).IsPlain where
  whole := Text.allDigits_toDigits _
  whole_ne := Nat.toDigits_ne_nil
  zero := zero_toDigits _
  fraction := fun _ h => nomatch h
  exponent := fun _ h => nomatch h

/-- The text of an integer is the integer as written. -/
theorem toList_intText (n : Int) : (intText n).toList = (ofInt n).chars := by
  simp only [intText, ofInt, chars, fractionChars, exponentChars, List.append_nil,
    decide_eq_true_eq]
  split <;> simp [natText]

/-- The digits of a number are read as the number. -/
theorem decimalValue_toDigits (n : ℕ) : decimalValue (Nat.toDigits 10 n) = n :=
  (Text.foldl_digits _).trans Nat.ofDigitChars_ten_toDigits

/-- An integer of 64 bits is the value of its text. -/
theorem toJson?_ofInt {n : Int} (hfirst : Int64.minValue.toInt ≤ n) (hlast : n < UInt64.size) :
    (ofInt n).toJson? = some (.int n) := by
  have hdigits : (ofInt n).significant = n.natAbs := by
    simp only [significant, ofInt, Option.getD_none, List.append_nil, decimalValue_toDigits]
  have hfirst' : -9223372036854775808 ≤ n := hfirst
  have hlast' : n < 18446744073709551616 := hlast
  have hinteger : (ofInt n).isInteger = true := rfl
  have hnegative : (ofInt n).negative = decide (n < 0) := rfl
  simp only [toJson?, hdigits, hinteger, hnegative, Bool.not_true, Bool.false_eq_true, if_false,
    decide_eq_true_eq]
  split
  · next hneg =>
    have hvalue : -(n.natAbs : Int) = n := by omega
    have hrange : ¬ ((decide (n.natAbs = 0) || decide (n < Int64.minValue.toInt)) = true) := by
      rw [Bool.or_eq_true, decide_eq_true_eq, decide_eq_true_eq]
      exact fun h => h.elim (by omega) (not_lt.mpr hfirst)
    rw [hvalue, if_neg hrange]
  · next hnonneg =>
    have hvalue : (n.natAbs : Int) = n := by omega
    have hsize : n.natAbs < UInt64.size := by omega
    rw [if_pos hsize, hvalue]

/-! ## Decimals -/

/-- Digits in scientific notation: the point stands behind the first one. -/
def scientific (negative : Bool) (digits : List Char) (exponent : Int) : NumberText :=
  ⟨negative, digits.take 1, if digits.drop 1 = [] then none else some (digits.drop 1),
    some (decide (exponent < 0), Nat.toDigits 10 exponent.natAbs)⟩

/-- A decimal as written: the point moves with its size. -/
def ofDecimal (negative : Bool) (d : Binary64.Decimal) : NumberText :=
  let digits := Nat.toDigits 10 d.digits
  let point : Int := digits.length + d.scale
  if 0 ≤ d.scale ∧ point ≤ 16 then
    ⟨negative, digits ++ List.replicate d.scale.toNat '0', some ['0'], none⟩
  else if 0 < point ∧ point ≤ 16 then
    ⟨negative, digits.take point.toNat, some (digits.drop point.toNat), none⟩
  else if -5 < point ∧ point ≤ 0 then
    ⟨negative, ['0'], some (List.replicate (-point).toNat '0' ++ digits), none⟩
  else scientific negative digits (point - 1)

/-- The text of a decimal is the decimal as written. -/
theorem toList_decimalText (negative : Bool) (d : Binary64.Decimal) :
    (if negative then ['-'] else []) ++ (decimalText d).toList = (ofDecimal negative d).chars := by
  have hne : Nat.toDigits 10 d.digits ≠ [] := Nat.toDigits_ne_nil
  simp only [decimalText, ofDecimal]
  generalize Nat.toDigits 10 d.digits = digits at hne ⊢
  generalize (digits.length : Int) + d.scale = point
  by_cases hwhole : 0 ≤ d.scale ∧ point ≤ 16
  · simp [if_pos hwhole, chars, fractionChars, exponentChars, zeros]
  by_cases hinside : 0 < point ∧ point ≤ 16
  · simp [if_neg hwhole, if_pos hinside, chars, fractionChars, exponentChars]
  by_cases hbefore : -5 < point ∧ point ≤ 0
  · simp [if_neg hwhole, if_neg hinside, if_pos hbefore, chars, fractionChars, exponentChars, zeros]
  simp only [if_neg hwhole, if_neg hinside, if_neg hbefore]
  obtain ⟨c, run, rfl⟩ := List.exists_cons_of_ne_nil hne
  by_cases hsign : point - 1 < 0 <;> cases run <;>
    simp [scientific, chars, fractionChars, exponentChars, natText, hsign]

/-- Scientific notation is plain if the digits do not start with zero. -/
theorem scientific_isPlain (negative : Bool) {digits : List Char} (exponent : Int)
    (hall : AllDigits digits) (hne : digits ≠ []) (hfirst : digits.head? ≠ some '0') :
    (scientific negative digits exponent).IsPlain := by
  obtain ⟨c, run, rfl⟩ := List.exists_cons_of_ne_nil hne
  refine ⟨fun d hd => hall d (List.mem_of_mem_take hd), List.cons_ne_nil _ _,
    fun h => absurd h hfirst, ?_, ?_⟩
  · intro digits hdigits
    rw [scientific] at hdigits
    split at hdigits
    · cases hdigits
    · next hrun =>
      obtain rfl := Option.some.inj hdigits
      exact ⟨fun d hd => hall d (List.mem_of_mem_drop hd), hrun⟩
  · rintro _ ⟨⟩
    exact ⟨Text.allDigits_toDigits _, Nat.toDigits_ne_nil⟩

/-- A decimal that is not zero is written plainly. -/
theorem ofDecimal_isPlain (negative : Bool) {d : Binary64.Decimal} (hd : 0 < d.digits) :
    (ofDecimal negative d).IsPlain := by
  have hne : Nat.toDigits 10 d.digits ≠ [] := Nat.toDigits_ne_nil
  have hall := Text.allDigits_toDigits d.digits
  have hfirst := Text.head?_toDigits hd
  simp only [ofDecimal]
  generalize Nat.toDigits 10 d.digits = digits at hne hall hfirst ⊢
  generalize hpoint : (digits.length : Int) + d.scale = point
  have hlength := List.length_pos_iff.mpr hne
  split
  · refine ⟨hall.append (Text.allDigits_replicate _), by simp [hne], ?_, ?_, nofun⟩
    · rw [List.head?_append_of_ne_nil _ hne]
      exact fun h => absurd h hfirst
    · rintro _ ⟨⟩
      exact ⟨Text.allDigits_replicate 1, List.cons_ne_nil _ _⟩
  split
  · refine ⟨fun c hc => hall c (List.mem_of_mem_take hc), ?_, ?_, ?_, nofun⟩
    · exact List.length_pos_iff.mp (by rw [List.length_take]; omega)
    · rw [List.head?_take, if_neg (by omega)]
      exact fun h => absurd h hfirst
    · rintro _ ⟨⟩
      exact ⟨fun c hc => hall c (List.mem_of_mem_drop hc),
        List.length_pos_iff.mp (by rw [List.length_drop]; omega)⟩
  split
  · refine ⟨Text.allDigits_replicate 1, List.cons_ne_nil _ _, fun _ => rfl, ?_, nofun⟩
    rintro _ ⟨⟩
    exact ⟨(Text.allDigits_replicate _).append hall, List.append_ne_nil_of_right_ne_nil _ hne⟩
  · exact scientific_isPlain negative (point - 1) hall hne hfirst

/-- A decimal is never written as an integer. -/
theorem isInteger_ofDecimal (negative : Bool) (d : Binary64.Decimal) :
    (ofDecimal negative d).isInteger = false := by
  unfold ofDecimal scientific isInteger
  dsimp only
  split_ifs <;> simp

/-- The significant digits of a number are those before the point and those behind it. -/
theorem significant_eq (n : NumberText) :
    n.significant = Nat.ofDigitChars 10 (n.whole ++ n.fraction.getD []) 0 :=
  Text.foldl_digits _

/-- Scientific notation keeps the significant digits. -/
theorem significant_scientific (negative : Bool) (digits : List Char) (exponent : Int) :
    (scientific negative digits exponent).significant = Nat.ofDigitChars 10 digits 0 := by
  have hfraction : (if digits.drop 1 = [] then none else some (digits.drop 1)).getD [] =
      digits.drop 1 := by
    split
    · next h => exact h.symm
    · rfl
  rw [significant_eq, scientific, hfraction, List.take_append_drop]

/-- In scientific notation the digits behind the point lower the scale. -/
theorem scale_scientific (negative : Bool) (digits : List Char) (exponent : Int) :
    (scientific negative digits exponent).scale = exponent - (digits.drop 1).length := by
  have hfraction : ((if digits.drop 1 = [] then none else some (digits.drop 1)).getD []).length =
      (digits.drop 1).length := by
    split
    · next h => rw [h]; rfl
    · rfl
  simp only [scale, scientific, hfraction]
  by_cases hsign : exponent < 0
  · simp only [hsign, decide_true, decimalValue_toDigits]
    omega
  · simp only [hsign, decide_false, decimalValue_toDigits]
    omega

/-- The layout of a decimal keeps its value. -/
theorem value_ofDecimal (negative : Bool) (d : Binary64.Decimal) :
    (⟨(ofDecimal negative d).significant, (ofDecimal negative d).scale⟩ : Binary64.Decimal).value =
      d.value := by
  have hlength : 0 < (Nat.toDigits 10 d.digits).length := Nat.length_toDigits_pos
  have hvalue : Nat.ofDigitChars 10 (Nat.toDigits 10 d.digits) 0 = d.digits :=
    Nat.ofDigitChars_ten_toDigits
  simp only [ofDecimal]
  generalize Nat.toDigits 10 d.digits = digits at hlength hvalue ⊢
  generalize hpoint : (digits.length : Int) + d.scale = point
  by_cases hwhole : 0 ≤ d.scale ∧ point ≤ 16
  · have hdigits : Nat.ofDigitChars 10 (digits ++ List.replicate d.scale.toNat '0' ++ ['0']) 0 =
        10 * (10 ^ d.scale.toNat * d.digits) := by
      rw [Nat.ofDigitChars_append, Nat.ofDigitChars_append, Nat.ofDigitChars_replicate_zero, hvalue]
      exact Nat.ofDigitChars_replicate_zero (n := 1)
    have hscale : (10 : ℚ) ^ d.scale = 10 ^ d.scale.toNat := by
      rw [← zpow_natCast, Int.toNat_of_nonneg hwhole.1]
    simp only [if_pos hwhole, significant_eq, Option.getD_some, hdigits, scale,
      Binary64.Decimal.value, hscale]
    norm_num
    ring
  by_cases hinside : 0 < point ∧ point ≤ 16
  · have hscale : (0 - ((digits.drop point.toNat).length : Int)) = d.scale := by
      rw [List.length_drop]
      omega
    simp only [if_neg hwhole, if_pos hinside, significant_eq, Option.getD_some,
      List.take_append_drop, hvalue, scale, hscale]
  by_cases hbefore : -5 < point ∧ point ≤ 0
  · have hscale : (0 - ((List.replicate (-point).toNat '0' ++ digits).length : Int)) = d.scale := by
      rw [List.length_append, List.length_replicate]
      omega
    have hdigits : Nat.ofDigitChars 10 (['0'] ++ (List.replicate (-point).toNat '0' ++ digits)) 0 =
        d.digits := by
      rw [Nat.ofDigitChars_append, Nat.ofDigitChars_append, Nat.ofDigitChars_replicate_zero,
        ← hvalue]
      rfl
    simp only [if_neg hwhole, if_neg hinside, if_pos hbefore, significant_eq, Option.getD_some,
      hdigits, scale, hscale]
  · have hscale : point - 1 - ((digits.drop 1).length : Int) = d.scale := by
      rw [List.length_drop]
      omega
    simp only [if_neg hwhole, if_neg hinside, if_neg hbefore, significant_scientific,
      scale_scientific, hvalue, hscale]

/-! ## Floating-point numbers -/

/-- A finite floating-point number as written. -/
def ofFloat (x : Binary64) : NumberText :=
  if x.isZero then ⟨x.negative, ['0'], some ['0'], none⟩ else ofDecimal x.negative x.shortest

/-- The text of a finite number is the number as written. -/
theorem toList_floatText {x : Binary64} (hx : x.isFinite = true) :
    (floatText x).toList = (ofFloat x).chars := by
  have hsign : (if x.negative then "-" else "").toList = if x.negative then ['-'] else [] := by
    split <;> rfl
  rw [floatText, hx, Bool.not_true, if_neg Bool.false_ne_true, String.toList_append, hsign, ofFloat]
  by_cases hzero : x.isZero = true
  · rw [if_pos hzero, if_pos hzero]
    rfl
  · rw [if_neg hzero, if_neg hzero]
    exact toList_decimalText x.negative x.shortest

/-- A finite number is written plainly. -/
theorem ofFloat_isPlain {x : Binary64} (hx : x.isFinite = true) : (ofFloat x).IsPlain := by
  rw [ofFloat]
  split
  · refine ⟨Text.allDigits_replicate 1, List.cons_ne_nil _ _, fun _ => rfl, ?_, nofun⟩
    rintro _ ⟨⟩
    exact ⟨Text.allDigits_replicate 1, List.cons_ne_nil _ _⟩
  · next hzero =>
    exact ofDecimal_isPlain x.negative
      (Binary64.shortest_digits_pos x hx (Bool.eq_false_of_not_eq_true hzero))

/-- A finite number as written is read as the number. -/
theorem toFloat?_ofFloat {x : Binary64} (hx : x.isFinite = true) :
    (ofFloat x).toFloat? = some (.float x) := by
  have hread : Binary64.ofDecimal (ofFloat x).negative (ofFloat x).significant (ofFloat x).scale =
      x := by
    rw [ofFloat]
    split
    · next hzero =>
      have hmagnitude : x.magnitude = 0 := eq_of_beq hzero
      have hzero := Binary64.ofParts_negative_magnitude x
      rwa [hmagnitude] at hzero
    · next hzero =>
      have hnegative : (ofDecimal x.negative x.shortest).negative = x.negative := by
        unfold ofDecimal scientific
        dsimp only
        split_ifs <;> rfl
      rw [hnegative]
      exact Binary64.ofDecimal_shortest x hx (Bool.eq_false_of_not_eq_true hzero)
        (value_ofDecimal x.negative x.shortest)
  rw [toFloat?]
  simp only [hread, hx, if_true]

/-- A finite floating-point number is the value of its text. -/
theorem toJson?_ofFloat {x : Binary64} (hx : x.isFinite = true) :
    (ofFloat x).toJson? = some (.float x) := by
  have hinteger : (ofFloat x).isInteger = false := by
    rw [ofFloat]
    split
    · rfl
    · exact isInteger_ofDecimal _ _
  simp only [toJson?, hinteger, Bool.not_false, if_true, toFloat?_ofFloat hx]

end NumberText

end FilterSql.Json
