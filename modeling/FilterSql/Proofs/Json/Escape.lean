import FilterSql.Json.Writer

/-!
# Strings read back

A character is written in one of three ways (`escapeChar_cases`): behind a backslash, by the digits
of its code, or as it is. The reader takes the escapes of a string up to the closing quote
(`string?_escape`), and they stand for the characters again (`stringOf?_escape`); both go by what
the escape of one character adds in front.
-/

namespace FilterSql.Json

/-- The ways to write a character: a letter behind a backslash, the digits of a control character,
and the character itself. -/
inductive Escaped (c : Char) : List Char → Prop
  | letter (d : Char) (legal : ['"', '\\', '/', 'b', 'f', 'n', 'r', 't'].contains d = true)
      (value : escapedChar d = c) : Escaped c ['\\', d]
  | digits (h l : Char) (hex : Source.isHex h = true ∧ Source.isHex l = true)
      (value : hexNumber ['0', '0', h, l] = c.toNat) (control : c.toNat < 0x20) :
      Escaped c ['\\', 'u', '0', '0', h, l]
  | plain (quote : c ≠ '"') (backslash : c ≠ '\\') (control : ¬ c.toNat < 0x20) : Escaped c [c]

/-- The digits of a control character are hexadecimal and stand for it. -/
theorem controlDigits {n : Nat} (hn : n < 0x20) :
    (Source.isHex (hexDigit (n / 16)) = true ∧ Source.isHex (hexDigit (n % 16)) = true) ∧
      hexNumber ['0', '0', hexDigit (n / 16), hexDigit (n % 16)] = n := by
  have hall : ∀ n < 0x20,
      (Source.isHex (hexDigit (n / 16)) = true ∧ Source.isHex (hexDigit (n % 16)) = true) ∧
        hexNumber ['0', '0', hexDigit (n / 16), hexDigit (n % 16)] = n := by decide
  exact hall n hn

/-- A character is that of its number. -/
theorem ofNat_eq_of_toNat {c : Char} {n : Nat} (h : c.toNat = n) : Char.ofNat n = c := by
  rw [← h, Char.ofNat_toNat]

/-- Every character is written in one of the ways to escape it, or as it is. -/
theorem escapeChar_escaped (c : Char) : Escaped c (escapeChar c) := by
  unfold escapeChar
  split
  · next h => exact .letter '"' rfl h.symm
  split
  · next h => exact .letter '\\' rfl h.symm
  split
  · next h => exact .letter 'n' rfl h.symm
  split
  · next h => exact .letter 'r' rfl h.symm
  split
  · next h => exact .letter 't' rfl h.symm
  split
  · next h => exact .letter 'b' rfl (ofNat_eq_of_toNat h)
  split
  · next h => exact .letter 'f' rfl (ofNat_eq_of_toNat h)
  split
  · next h =>
    obtain ⟨hhex, hvalue⟩ := controlDigits h
    exact .digits _ _ hhex hvalue h
  · next hquote hbackslash _ _ _ _ _ hcontrol => exact .plain hquote hbackslash hcontrol

variable {c : Char} {written : List Char}

/-- The reader of a string passes over a written character. -/
theorem Escaped.string?_append (h : Escaped c written) (s : List Char) :
    Source.string? (written ++ s) =
      (Source.string? s).map fun (run, rest) => (written ++ run, rest) := by
  cases h with
  | letter d legal value =>
      rw [List.cons_append, List.singleton_append, Source.string?, if_pos legal]
      · rfl
      · rintro _ _ _ _ _ rfl
        exact absurd legal (by decide)
  | digits h l hex value control =>
      obtain ⟨hh, hl⟩ := hex
      have hzero : Source.isHex '0' = true := rfl
      simp [Source.string?, hh, hl, hzero]
  | plain quote backslash control =>
      rw [List.singleton_append, Source.string?]
      · simp [backslash, control]
      · exact quote
      · exact fun _ _ _ _ _ h => absurd h backslash
      · exact fun _ _ h => absurd h backslash

/-- What a written character stands for. -/
theorem Escaped.unescape?_append (h : Escaped c written) (s : List Char) :
    unescape? (written ++ s) = (unescape? s).map (c :: ·) := by
  cases h with
  | letter d legal value =>
      rw [List.cons_append, List.singleton_append, unescape?, value]
      rintro _ _ _ _ _ rfl
      exact absurd legal (by decide)
  | digits h l hex value control =>
      have hhigh : isHighSurrogate c.toNat = false := by simp [isHighSurrogate]; omega
      have hlow : isLowSurrogate c.toNat = false := by simp [isLowSurrogate]; omega
      rw [unescape?.eq_def]
      simp [value, hhigh, hlow]
  | plain quote backslash control =>
      rw [List.singleton_append, unescape?]
      · exact fun _ _ _ _ _ h => absurd h backslash
      · exact fun _ _ h => absurd h backslash

/-- The reader takes the escapes of a string up to the closing quote. -/
theorem string?_escape (s rest : List Char) :
    Source.string? (escape s ++ '"' :: rest) = some (escape s, rest) := by
  induction s with
  | nil => rfl
  | cons c s ih =>
      rw [escape, List.flatMap_cons, List.append_assoc, (escapeChar_escaped c).string?_append]
      exact congrArg (Option.map _) ih

/-- A text that is escaped is read back. -/
theorem unescape?_escape (s : List Char) : unescape? (escape s) = some s := by
  induction s with
  | nil => rfl
  | cons c s ih =>
      rw [escape, List.flatMap_cons, (escapeChar_escaped c).unescape?_append]
      exact congrArg (Option.map _) ih

/-- The escapes of a string stand for the string. -/
theorem stringOf?_escape (s : String) : stringOf? (escape s.toList) = some s := by
  rw [stringOf?, unescape?_escape, Option.map_some, String.ofList_toList]

end FilterSql.Json
