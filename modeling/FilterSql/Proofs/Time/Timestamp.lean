import FilterSql.Proofs.Text.Digits
import FilterSql.Proofs.Time.Calendar
import FilterSql.Time.Timestamp

/-!
# Timestamps read back

The text of an instant is read as the instant (`Instant.ofLenient?_text`), to the nanosecond and
with its leap second, and in years of four digits it is in the Internet format, too
(`Instant.ofRfc3339?_text`). Every number of the text is a run of digits, with zeros in front up to
a width (`number?_padded`), and what stands behind it is no digit.
-/

namespace FilterSql.Instant

open Text (AllDigits NoDigit)

/-! ## The clock -/

/-- An instant is found by its seconds and nanoseconds. -/
theorem ofUnix?_self (t : Instant) : ofUnix? t.seconds t.nanos = some t :=
  dif_pos ⟨⟨t.first_le, t.le_last⟩, t.nanos_lt, t.leap_at_end⟩

/-- The hands of the clock. -/
theorem toClock_spec (t : Instant) :
    (t.toClock.hour < 24 ∧ t.toClock.minute < 60 ∧ t.toClock.second ≤ 60 ∧
      t.toClock.nanos < 1000000000) ∧
      t.toClock.hour * 3600 + t.toClock.minute * 60 +
        (if (t.toClock.second == 60) = true then 59 else t.toClock.second) =
        (t.seconds % 86400).toNat ∧
      (if (t.toClock.second == 60) = true then t.toClock.nanos + 1000000000 else t.toClock.nanos) =
        t.nanos := by
  have hnanos := t.nanos_lt
  have hleap := t.leap_at_end
  simp only [toClock, beq_iff_eq]
  split
  · next h =>
    have hend : (t.seconds % 86400).toNat % 60 = 59 := by omega
    rw [hend, if_pos rfl, if_pos rfl]
    omega
  · have hbefore : (t.seconds % 86400).toNat % 60 ≠ 60 := by omega
    rw [if_neg hbefore, if_neg hbefore]
    omega

/-- The clock reading of an instant is taken at the instant. -/
theorem ofClock?_toClock (t : Instant) : ofClock? t.toClock 0 = some t := by
  have hvalid : t.toClock.date.isValid = true := Date.isValid_ofDay _
  have hday : t.toClock.date.toDay = t.seconds / 86400 := Date.toDay_ofDay _
  obtain ⟨⟨hhour, hminute, hsecond, hfraction⟩, htime, hnanos⟩ := toClock_spec t
  have hhere : t.toClock.date.toDay * 86400 + ((t.seconds % 86400).toNat : Int) = t.seconds := by
    rw [hday]
    omega
  simp only [ofClock?, hvalid, hhour, hminute, hsecond, hfraction, decide_true, Bool.and_self,
    if_true, htime, hnanos, hhere, sub_zero, ofUnix?_self, Option.bind_some]

/-! ## Numbers -/

/-- The characters of a number with zeros in front. -/
def paddedChars (width n : Nat) : List Char :=
  List.replicate (width - (Nat.toDigits 10 n).length) '0' ++ Nat.toDigits 10 n

/-- The text of a number with zeros in front has those characters. -/
theorem toList_padded (width n : Nat) : (padded width n).toList = paddedChars width n := by
  simp [padded, paddedChars]

/-- They are digits. -/
theorem allDigits_padded (width n : Nat) : AllDigits (paddedChars width n) :=
  (Text.allDigits_replicate _).append (Text.allDigits_toDigits n)

/-- There are as many as the width, if the number fits. -/
theorem length_padded {width n : Nat} (hwidth : 0 < width) (hn : n < 10 ^ width) :
    (paddedChars width n).length = width := by
  have hlength := (Nat.length_toDigits_le_iff (b := 10) (by norm_num) hwidth).mpr hn
  rw [paddedChars, List.length_append, List.length_replicate]
  omega

/-- Zeros in front do not change the number. -/
theorem digitsValue_padded (width n : Nat) : digitsValue (paddedChars width n) = n := by
  rw [digitsValue, Text.foldl_digits, paddedChars, Nat.ofDigitChars_append,
    Nat.ofDigitChars_replicate_zero, Nat.mul_zero, Nat.ofDigitChars_ten_toDigits]

/-- Digits are taken to the last or to the limit. -/
theorem takeDigits_append {run rest : List Char} {most : Nat} (hrun : AllDigits run)
    (hlength : run.length ≤ most) (hrest : NoDigit rest ∨ run.length = most) :
    takeDigits most (run ++ rest) = (run, rest) := by
  have hnext : NoDigit (rest.take (most - run.length)) := by
    rcases hrest with hrest | hfull
    · intro c hc
      rw [List.head?_take] at hc
      split at hc
      · cases hc
      · exact hrest c hc
    · rw [hfull, Nat.sub_self, List.take_zero]
      exact nofun
  rw [takeDigits, List.take_append, List.take_of_length_le hlength, hrun.takeWhile_append hnext,
    List.drop_left]

/-- A number with zeros in front is read up to its last digit. -/
theorem number?_padded {width n least most : Nat} {rest : List Char}
    (hleast : least ≤ (paddedChars width n).length) (hmost : (paddedChars width n).length ≤ most)
    (hrest : NoDigit rest ∨ (paddedChars width n).length = most) :
    number? least most (paddedChars width n ++ rest) = some (n, rest) := by
  rw [number?, takeDigits_append (allDigits_padded width n) hmost hrest]
  simp only [digitsValue_padded, if_neg (Nat.not_lt.mpr hleast)]

/-! ## The parts of a timestamp -/

/-- A digit is no blank. -/
theorem isBlank_digit {c : Char} (hc : c.isDigit = true) : Text.isBlank c = false := by
  have hrange : 48 ≤ c.toNat ∧ c.toNat ≤ 57 := by
    simpa [Char.isDigit, UInt32.le_iff_toNat_le] using hc
  simp [Text.isBlank]
  omega

/-- Nothing is skipped before a number. -/
theorem trimStart_padded (width n : Nat) (rest : List Char) :
    Text.trimStart (paddedChars width n ++ rest) = paddedChars width n ++ rest := by
  have hall := allDigits_padded width n
  have hne : paddedChars width n ≠ [] := List.append_ne_nil_of_right_ne_nil _ Nat.toDigits_ne_nil
  generalize paddedChars width n = run at hall hne
  obtain ⟨c, run, rfl⟩ := List.exists_cons_of_ne_nil hne
  simp [Text.trimStart, isBlank_digit (hall c List.mem_cons_self)]

/-- A field of two digits is read back. -/
theorem field?_padded {n : Nat} (hn : n < 100) (rest : List Char) :
    field? (paddedChars 2 n ++ rest) = some (n, rest) := by
  have hlength : (paddedChars 2 n).length = 2 := length_padded (by decide) hn
  rw [field?, trimStart_padded]
  exact number?_padded (by omega) hlength.le (.inr hlength)

/-- A year of four digits is read back. -/
theorem year?_padded {n : Nat} (hn : n ≤ 9999) {rest : List Char} (hrest : NoDigit rest) :
    year? (paddedChars 4 n ++ rest) = some ((n : Int), rest) := by
  have hlength : (paddedChars 4 n).length = 4 := length_padded (by decide) (by omega)
  have hread : number? 1 4 (paddedChars 4 n ++ rest) = some (n, rest) :=
    number?_padded (by omega) hlength.le (.inl hrest)
  have hall := allDigits_padded 4 n
  generalize paddedChars 4 n = run at hlength hread hall ⊢
  unfold year?
  -- a digit is no sign
  split
  · next s heq =>
    obtain ⟨c, run, rfl⟩ := List.exists_cons_of_length_pos (by omega : 0 < run.length)
    obtain ⟨rfl, -⟩ := List.cons.inj heq
    exact absurd (hall _ List.mem_cons_self) (by decide)
  · next s heq =>
    obtain ⟨c, run, rfl⟩ := List.exists_cons_of_length_pos (by omega : 0 < run.length)
    obtain ⟨rfl, -⟩ := List.cons.inj heq
    exact absurd (hall _ List.mem_cons_self) (by decide)
  · rw [hread, Option.map_some]

/-- Every year is read back, with a sign where it has one. -/
theorem year?_yearText (year : Int) {rest : List Char} (hrest : NoDigit rest) :
    year? ((yearText year).toList ++ rest) = some (year, rest) := by
  have hnumber (n : Nat) : number? 1 (paddedChars 4 n ++ rest).length (paddedChars 4 n ++ rest) =
      some (n, rest) := by
    refine number?_padded ?_ (by simp) (.inl hrest)
    exact List.length_pos_iff.mpr (List.append_ne_nil_of_right_ne_nil _ Nat.toDigits_ne_nil)
  unfold yearText
  split
  · next hneg =>
    rw [String.toList_append, toList_padded]
    refine (congrArg (Option.map _) (hnumber year.natAbs)).trans ?_
    have hvalue : -(year.natAbs : Int) = year := by omega
    simp only [Option.map_some, hvalue]
  split
  · next hpos hfour =>
    rw [toList_padded, year?_padded (by omega) hrest, Int.toNat_of_nonneg (by omega)]
  · next hpos hfour =>
    rw [String.toList_append, toList_padded]
    refine (congrArg (Option.map _) (hnumber year.toNat)).trans ?_
    have hvalue : (year.toNat : Int) = year := by omega
    simp only [Option.map_some, hvalue]

/-- A fraction of a second is read back in nanoseconds. -/
theorem fraction?_padded {width n : Nat} (hwidth : 0 < width ∧ width ≤ 9) (hn : n < 10 ^ width)
    {rest : List Char} (hrest : NoDigit rest) :
    fraction? ('.' :: (paddedChars width n ++ rest)) = some (n * 10 ^ (9 - width), rest) := by
  have hlength := length_padded hwidth.1 hn
  have hne : (paddedChars width n).isEmpty = false :=
    List.isEmpty_eq_false_iff.mpr (List.append_ne_nil_of_right_ne_nil _ Nat.toDigits_ne_nil)
  have hdrop : rest.dropWhile Char.isDigit = rest :=
    (Text.allDigits_replicate 0).dropWhile_append hrest
  rw [fraction?, takeDigits_append (allDigits_padded width n) (by omega) (.inl hrest)]
  simp only [hne, digitsValue_padded, hlength, Nat.pow_eq, hdrop, Bool.false_eq_true, if_false]

/-- The nanoseconds are read back from as many digits as they need. -/
theorem fraction?_fractionText {nanos : Nat} (hnanos : nanos < 1000000000) {rest : List Char}
    (hrest : NoDigit rest) (hpoint : ∀ s, rest ≠ '.' :: s) :
    fraction? ((fractionText nanos).toList ++ rest) = some (nanos, rest) := by
  have htext (width n : Nat) : ("." ++ padded width n).toList ++ rest =
      '.' :: (paddedChars width n ++ rest) := by
    rw [String.toList_append, toList_padded]
    rfl
  unfold fractionText
  split
  · next hzero =>
    rw [hzero, String.toList_empty, List.nil_append, fraction?]
    exact hpoint
  split
  · next hthree =>
    rw [htext, fraction?_padded (by decide) (by omega) hrest]
    exact congrArg (fun n => some (n, rest)) (Nat.div_mul_cancel (Nat.dvd_of_mod_eq_zero hthree))
  split
  · next hsix =>
    rw [htext, fraction?_padded (by decide) (by omega) hrest]
    exact congrArg (fun n => some (n, rest)) (Nat.div_mul_cancel (Nat.dvd_of_mod_eq_zero hsix))
  · rw [htext, fraction?_padded (by decide) hnanos hrest, Nat.sub_self, Nat.pow_zero, Nat.mul_one]

/-- Nothing is skipped before a character that is no blank. -/
theorem trimStart_cons {c : Char} (hc : Text.isBlank c = false) (s : List Char) :
    Text.trimStart (c :: s) = c :: s := by
  simp [Text.trimStart, hc]

/-- Nothing is skipped before a year. -/
theorem trimStart_yearText (year : Int) (rest : List Char) :
    Text.trimStart ((yearText year).toList ++ rest) = (yearText year).toList ++ rest := by
  unfold yearText
  split
  · rw [String.toList_append]
    exact trimStart_cons rfl _
  split
  · rw [toList_padded, trimStart_padded]
  · rw [String.toList_append]
    exact trimStart_cons rfl _

/-- A character that is no digit ends a number. -/
theorem noDigit_cons {c : Char} (hc : c.isDigit = false) (s : List Char) : NoDigit (c :: s) := by
  rintro _ ⟨⟩
  exact hc

/-- The parts of the text of an instant. -/
theorem toList_text (zone : String) (t : Instant) :
    (t.text zone).toList = (yearText t.toClock.date.year).toList ++
      '-' :: (paddedChars 2 t.toClock.date.month ++ '-' :: (paddedChars 2 t.toClock.date.day ++
      'T' :: (paddedChars 2 t.toClock.hour ++ ':' :: (paddedChars 2 t.toClock.minute ++
      ':' :: (paddedChars 2 t.toClock.second ++
      ((fractionText t.toClock.nanos).toList ++ zone.toList)))))) := by
  simp [text, toList_padded]

/-- The fraction of an instant is read back, also where it is left out. -/
theorem fraction?_text (t : Instant) {c : Char} (hc : c.isDigit = false ∧ c ≠ '.')
    (rest : List Char) :
    fraction? ((fractionText t.toClock.nanos).toList ++ c :: rest) =
      some (t.toClock.nanos, c :: rest) :=
  fraction?_fractionText (toClock_spec t).1.2.2.2 (noDigit_cons hc.1 _) (by simpa using hc.2)

/-- The text of an instant is read as the instant. -/
theorem ofLenient?_text (t : Instant) : ofLenient? (t.text "Z") = some t := by
  obtain ⟨⟨hhour, hminute, hsecond, -⟩, -⟩ := toClock_spec t
  have hmonth : t.toClock.date.month ≤ 12 := Date.month_ofDay_le _
  have hday : t.toClock.date.day ≤ 31 := Date.day_ofDay_le _
  have hexpect {c : Char} (hc : Text.isBlank c = false) (s : List Char) :
      expect? c (Text.trimStart (c :: s)) = some s := by
    rw [trimStart_cons hc]
    exact if_pos rfl
  rw [ofLenient?, toList_text, trimStart_yearText]
  refine Option.bind_eq_some_iff.mpr ⟨_, year?_yearText _ (noDigit_cons rfl _), ?_⟩
  refine Option.bind_eq_some_iff.mpr ⟨_, hexpect rfl _, ?_⟩
  refine Option.bind_eq_some_iff.mpr ⟨_, field?_padded (by omega) _, ?_⟩
  refine Option.bind_eq_some_iff.mpr ⟨_, hexpect rfl _, ?_⟩
  refine Option.bind_eq_some_iff.mpr ⟨_, field?_padded (by omega) _, ?_⟩
  refine Option.bind_eq_some_iff.mpr ⟨_, rfl, ?_⟩
  refine Option.bind_eq_some_iff.mpr ⟨_, field?_padded (by omega) _, ?_⟩
  refine Option.bind_eq_some_iff.mpr ⟨_, hexpect rfl _, ?_⟩
  refine Option.bind_eq_some_iff.mpr ⟨_, field?_padded (by omega) _, ?_⟩
  refine Option.bind_eq_some_iff.mpr ⟨_, hexpect rfl _, ?_⟩
  refine Option.bind_eq_some_iff.mpr ⟨_, field?_padded (by omega) _, ?_⟩
  refine Option.bind_eq_some_iff.mpr ⟨_, fraction?_text t (by decide) [], ?_⟩
  refine Option.bind_eq_some_iff.mpr ⟨(0, []), by decide, ?_⟩
  exact ofClock?_toClock t

/-- A number of two digits is read to the letter. -/
theorem number?_pair {n : Nat} (hn : n < 100) (rest : List Char) :
    number? 2 2 (paddedChars 2 n ++ rest) = some (n, rest) := by
  have hlength : (paddedChars 2 n).length = 2 := length_padded (by decide) hn
  exact number?_padded hlength.ge hlength.le (.inr hlength)

/-- The text of an instant in a year of four digits is in the Internet format, with either text for
Coordinated Universal Time. -/
theorem ofRfc3339?_text (t : Instant) (hfirst : 0 ≤ t.toClock.date.year)
    (hlast : t.toClock.date.year ≤ 9999) {zone : String} (hzone : zone = "Z" ∨ zone = "+00:00") :
    ofRfc3339? (t.text zone) = some t := by
  obtain ⟨⟨hhour, hminute, hsecond, -⟩, -⟩ := toClock_spec t
  have hmonth : t.toClock.date.month ≤ 12 := Date.month_ofDay_le _
  have hday : t.toClock.date.day ≤ 31 := Date.day_ofDay_le _
  have hlength : (paddedChars 4 t.toClock.date.year.toNat).length = 4 :=
    length_padded (by decide) (by omega)
  have hyear (rest : List Char) : number? 4 4 ((yearText t.toClock.date.year).toList ++ rest) =
      some (t.toClock.date.year.toNat, rest) := by
    rw [yearText, if_neg (by omega), if_pos hlast, toList_padded]
    exact number?_padded hlength.ge hlength.le (.inr hlength)
  have hclock : ofClock? ⟨⟨t.toClock.date.year.toNat, t.toClock.date.month, t.toClock.date.day⟩,
      t.toClock.hour, t.toClock.minute, t.toClock.second, t.toClock.nanos⟩ 0 = some t := by
    rw [Int.toNat_of_nonneg hfirst]
    exact ofClock?_toClock t
  rw [ofRfc3339?, toList_text]
  refine Option.bind_eq_some_iff.mpr ⟨_, hyear _, ?_⟩
  refine Option.bind_eq_some_iff.mpr ⟨_, rfl, ?_⟩
  refine Option.bind_eq_some_iff.mpr ⟨_, number?_pair (by omega) _, ?_⟩
  refine Option.bind_eq_some_iff.mpr ⟨_, rfl, ?_⟩
  refine Option.bind_eq_some_iff.mpr ⟨_, number?_pair (by omega) _, ?_⟩
  refine Option.bind_eq_some_iff.mpr ⟨_, rfl, ?_⟩
  refine Option.bind_eq_some_iff.mpr ⟨_, number?_pair (by omega) _, ?_⟩
  refine Option.bind_eq_some_iff.mpr ⟨_, rfl, ?_⟩
  refine Option.bind_eq_some_iff.mpr ⟨_, number?_pair (by omega) _, ?_⟩
  refine Option.bind_eq_some_iff.mpr ⟨_, rfl, ?_⟩
  refine Option.bind_eq_some_iff.mpr ⟨_, number?_pair (by omega) _, ?_⟩
  obtain ⟨c, rest, hchars, hc, hoffset⟩ : ∃ c rest, zone.toList = c :: rest ∧
      (c.isDigit = false ∧ c ≠ '.') ∧ offset? (expect? ':') (c :: rest) = some (0, []) := by
    rcases hzone with rfl | rfl
    · exact ⟨'Z', [], rfl, by decide, by decide⟩
    · exact ⟨'+', ['0', '0', ':', '0', '0'], rfl, by decide, by decide⟩
  rw [hchars]
  refine Option.bind_eq_some_iff.mpr ⟨_, fraction?_text t hc rest, ?_⟩
  refine Option.bind_eq_some_iff.mpr ⟨(0, []), hoffset, ?_⟩
  exact hclock

/-- The whole milliseconds of an instant that is no leap second. -/
theorem ofMillis?_self (t : Instant) (hleap : t.nanos < 1000000000)
    (hwhole : t.nanos % 1000000 = 0) :
    ofMillis? (t.seconds * 1000 + (t.nanos / 1000000 : Nat)) = some t := by
  have hseconds : (t.seconds * 1000 + (t.nanos / 1000000 : Nat)) / 1000 = t.seconds := by omega
  have hnanos : ((t.seconds * 1000 + (t.nanos / 1000000 : Nat)) % 1000).toNat * 1000000 =
      t.nanos := by omega
  rw [ofMillis?, hseconds, hnanos, ofUnix?_self]

/-- The instants that are a whole number of milliseconds are those of whole milliseconds that are no
leap seconds. -/
theorem exists_ofMillis?_iff {t : Instant} :
    (∃ millis, ofMillis? millis = some t) ↔ t.nanos < 1000000000 ∧ t.nanos % 1000000 = 0 := by
  refine ⟨fun ⟨millis, h⟩ => ?_, fun ⟨hleap, hwhole⟩ => ⟨_, t.ofMillis?_self hleap hwhole⟩⟩
  rw [ofMillis?, ofUnix?] at h
  split at h
  · cases h
    dsimp only
    omega
  · cases h

end FilterSql.Instant
