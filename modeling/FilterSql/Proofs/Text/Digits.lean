import Mathlib.Data.List.Basic
import Mathlib.Data.Nat.Digits.Defs

/-!
# Runs of digits

The digits of a count are read back as the count, with zeros in front or not, and a reader that
takes digits as long as it can takes a run of digits whole.
-/

namespace FilterSql.Text

/-- A text does not start with a digit. -/
def NoDigit (rest : List Char) : Prop :=
  ∀ c ∈ rest.head?, c.isDigit = false

/-- All characters are digits. -/
def AllDigits (run : List Char) : Prop :=
  ∀ c ∈ run, c.isDigit = true

variable {run rest : List Char}

/-- The digits of a number are digits. -/
theorem allDigits_toDigits (n : Nat) : AllDigits (Nat.toDigits 10 n) := fun _ hc =>
  Nat.isDigit_of_mem_toDigits (by decide) (by decide) hc

/-- Zeros are digits. -/
theorem allDigits_replicate (n : Nat) : AllDigits (List.replicate n '0') := fun c hc => by
  rw [List.eq_of_mem_replicate hc]
  rfl

/-- Digits and digits are digits. -/
theorem AllDigits.append {more : List Char} (hrun : AllDigits run) (hmore : AllDigits more) :
    AllDigits (run ++ more) := fun c hc =>
  (List.mem_append.mp hc).elim (hrun c) (hmore c)

/-- A run of digits is taken whole. -/
theorem AllDigits.takeWhile_append (hrun : AllDigits run) (hrest : NoDigit rest) :
    (run ++ rest).takeWhile Char.isDigit = run := by
  rw [List.takeWhile_append_of_pos hrun]
  cases rest with
  | nil => simp
  | cons c rest => simp [hrest c rfl]

/-- Behind a run of digits the rest is left. -/
theorem AllDigits.dropWhile_append (hrun : AllDigits run) (hrest : NoDigit rest) :
    (run ++ rest).dropWhile Char.isDigit = rest := by
  rw [List.dropWhile_append_of_pos hrun]
  cases rest with
  | nil => rfl
  | cons c rest => simp [hrest c rfl]

/-- The first digit of a positive count is not zero. -/
theorem head?_toDigits {n : ℕ} (hn : 0 < n) : (Nat.toDigits 10 n).head? ≠ some '0' := by
  induction n using Nat.strong_induction_on with
  | _ n ih =>
      rcases Nat.lt_or_ge n 10 with hlt | hge
      · have hall : ∀ n < 10, 0 < n → n.digitChar ≠ '0' := by decide
        rw [Nat.toDigits_of_lt_base hlt]
        exact fun h => hall n hlt hn (Option.some.inj h)
      · rw [Nat.toDigits_of_base_le (by decide) hge,
          List.head?_append_of_ne_nil _ Nat.toDigits_ne_nil]
        exact ih (n / 10) (by omega) (by omega)

/-- The number of a run of digits, as the readers count it. -/
theorem foldl_digits (digits : List Char) :
    digits.foldl (fun n c => 10 * n + (c.toNat - '0'.toNat)) 0 = Nat.ofDigitChars 10 digits 0 := by
  rw [Nat.ofDigitChars_eq_foldl]

end FilterSql.Text
