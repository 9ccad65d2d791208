import FilterSql.Time.Calendar
import Mathlib.Algebra.BigOperators.Group.List.Basic
import Mathlib.Algebra.GroupWithZero.Nat
import Mathlib.Data.List.GetD

/-!
# Day numbers and dates

The date of a day number exists and has that day number (`Date.isValid_ofDay`, `Date.toDay_ofDay`).
The estimate of the year is at most one off because a year has 146097 / 400 days on average; inside
the year the months are walked one by one.
-/

namespace FilterSql.Date

/-- The days before a year, by the average length of a year. -/
theorem daysBeforeYear_near (year : Int) :
    146097 * (year - 1) - 1200 < 400 * daysBeforeYear year ∧
      400 * daysBeforeYear year < 146097 * (year - 1) + 400 := by
  unfold daysBeforeYear
  omega

/-- A day lies in its year. -/
theorem yearOf_spec (n : Int) :
    daysBeforeYear (yearOf n) ≤ n ∧ n < daysBeforeYear (yearOf n + 1) := by
  unfold yearOf
  generalize hestimate : 400 * n / 146097 + 1 = estimate
  have hbefore := daysBeforeYear_near (estimate - 1)
  have hafter := daysBeforeYear_near (estimate + 1 + 1)
  dsimp only
  split
  · next h =>
    rw [sub_add_cancel]
    omega
  · split <;> omega

/-- The days of the years before a year grow by its length. -/
theorem daysBeforeYear_succ (year : Int) :
    daysBeforeYear (year + 1) = daysBeforeYear year + (monthLengths (isLeapYear year)).sum := by
  have hleap : (monthLengths (isLeapYear year)).sum = if isLeapYear year then 366 else 365 := by
    cases isLeapYear year <;> rfl
  rw [hleap]
  simp only [isLeapYear, daysBeforeYear, Bool.and_eq_true, Bool.or_eq_true, beq_iff_eq, bne_iff_ne]
  split <;> omega

/-- The months before a day and the day of the month sum up to the day in the year. -/
theorem monthAndDay_spec (month : Nat) (lengths : List Nat) {n : Nat} (hn : n < lengths.sum) :
    month ≤ (monthAndDay month lengths n).1 ∧
      (monthAndDay month lengths n).1 - month < lengths.length ∧
      1 ≤ (monthAndDay month lengths n).2 ∧
      (monthAndDay month lengths n).2 ≤ lengths.getD ((monthAndDay month lengths n).1 - month) 0 ∧
      (lengths.take ((monthAndDay month lengths n).1 - month)).sum +
        (monthAndDay month lengths n).2 = n + 1 := by
  induction lengths generalizing month n with
  | nil => exact absurd hn (Nat.not_lt_zero n)
  | cons length lengths ih =>
      rw [monthAndDay]
      split
      · next hlt => simpa using Nat.succ_le_of_lt hlt
      · next hge =>
        rw [List.sum_cons] at hn
        obtain ⟨hmonth, hindex, hday, hlast, hsum⟩ := ih (month + 1) (n := n - length) (by omega)
        generalize monthAndDay (month + 1) lengths (n - length) = date at *
        obtain ⟨k, hk⟩ : ∃ k, date.1 - month = k + 1 := ⟨date.1 - (month + 1), by omega⟩
        have hk' : date.1 - (month + 1) = k := by omega
        rw [hk'] at hindex hlast hsum
        rw [hk, List.length_cons, List.getD_cons_succ, List.take_succ_cons, List.sum_cons]
        exact ⟨by omega, by omega, hday, hlast, by omega⟩

/-- Lengths that are added up one by one have their sum. -/
theorem foldl_add (lengths : List Nat) : lengths.foldl Nat.add 0 = lengths.sum :=
  List.sum_eq_foldl.symm

variable (day : Int)

/-- The walk through the months of the year of a day. -/
theorem ofDay_spec :
    1 ≤ (ofDay day).month ∧ (ofDay day).month ≤ 12 ∧ 1 ≤ (ofDay day).day ∧
      (ofDay day).day ≤
        (monthLengths (isLeapYear (ofDay day).year)).getD ((ofDay day).month - 1) 0 ∧
      (ofDay day).toDay = day := by
  obtain ⟨hfirst, hlast⟩ := yearOf_spec (day + epochOffset)
  rw [daysBeforeYear_succ] at hlast
  have hmonths : (monthLengths (isLeapYear (yearOf (day + epochOffset)))).length = 12 := rfl
  obtain ⟨hmonth, hindex, hday, hlength, hsum⟩ := monthAndDay_spec 1
    (monthLengths (isLeapYear (yearOf (day + epochOffset))))
    (n := (day + epochOffset - daysBeforeYear (yearOf (day + epochOffset))).toNat) (by omega)
  simp only [ofDay, toDay, foldl_add]
  exact ⟨hmonth, by omega, hday, hlength, by omega⟩

/-- The date of a day number exists. -/
theorem isValid_ofDay : (ofDay day).isValid = true := by
  obtain ⟨hfirst, hlast, hday, hlength, -⟩ := ofDay_spec day
  simp only [isValid, Bool.and_eq_true, decide_eq_true_eq]
  exact ⟨⟨⟨hfirst, hlast⟩, hday⟩, hlength⟩

/-- A year has twelve months. -/
theorem month_ofDay_le : (ofDay day).month ≤ 12 :=
  (ofDay_spec day).2.1

/-- A month has at most 31 days. -/
theorem day_ofDay_le : (ofDay day).day ≤ 31 := by
  refine Nat.le_trans (ofDay_spec day).2.2.2.1 ?_
  generalize isLeapYear (ofDay day).year = leap
  have hall : ∀ length ∈ monthLengths leap, length ≤ 31 := by cases leap <;> decide
  rcases Nat.lt_or_ge ((ofDay day).month - 1) (monthLengths leap).length with hlt | hge
  · rw [List.getD_eq_getElem _ _ hlt]
    exact hall _ (List.getElem_mem hlt)
  · rw [List.getD_eq_default _ _ hge]
    exact Nat.zero_le 31

/-- The date of a day number has that number. -/
theorem toDay_ofDay : (ofDay day).toDay = day :=
  (ofDay_spec day).2.2.2.2

end FilterSql.Date
