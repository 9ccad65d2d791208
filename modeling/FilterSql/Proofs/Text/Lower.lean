import FilterSql.Text.Lower

/-!
# Full lower-casing and that of ASCII

`Text.lower` maps every letter, while databases without Unicode data lower the letters of ASCII
only, as `String.toLower` does. The two agree on the texts whose other letters have no lower-case
form but themselves, and on no other text (`Text.lower_eq_toLower_iff`).
-/

namespace FilterSql.Text

/-- The letters of a text that are not in ASCII are their own lower-case forms. -/
def LowersAscii (s : String) : Prop :=
  ∀ c ∈ s.toList, c.toNat < 0x80 ∨ lowerChar c = [c]

/-- It is decided letter by letter. -/
instance (s : String) : Decidable (LowersAscii s) :=
  decidable_of_iff (s.toList.all fun c => c.toNat < 0x80 || lowerChar c == [c]) <| by
    simp [LowersAscii]

/-- The lower-case form of a character between two texts, the first one in reverse order. -/
def image (before : List Char) (c : Char) (rest : List Char) : List Char :=
  if c.toNat = 0x3A3 then
    if startsCased before && !startsCased rest then [Char.ofNat 0x3C2] else [Char.ofNat 0x3C3]
  else lowerChar c

variable {before rest : List Char} {c : Char}

/-- Letters are put in lower case one after the other. -/
theorem lowerFrom_cons :
    lowerFrom before (c :: rest) = image before c rest ++ lowerFrom (c :: before) rest :=
  rfl

/-- A letter of ASCII is put in its lower case in ASCII. -/
theorem image_of_ascii (h : c.toNat < 0x80) : image before c rest = [c.toLower] := by
  rw [image, if_neg (by omega), lowerChar, if_pos h]

/-- Outside ASCII a letter stays as it is. -/
theorem toLower_of_not_ascii (h : 0x80 ≤ c.toNat) : c.toLower = c := by
  unfold Char.toLower
  rw [dif_neg]
  rintro ⟨-, hle⟩
  have : c.toNat ≤ 90 := hle
  omega

/-- Outside ASCII a character stays as it is wherever it stands, or nowhere. -/
theorem image_eq_self_iff (h : 0x80 ≤ c.toNat) :
    image before c rest = [c] ↔ lowerChar c = [c] := by
  unfold image
  split
  · next hsigma =>
    obtain rfl : c = 'Σ' := Char.ext (UInt32.toNat_inj.1 hsigma)
    split <;> decide
  · exact Iff.rfl

/-- No letter is lost. -/
theorem image_ne_nil : image before c rest ≠ [] := by
  unfold image lowerChar
  repeat' split
  all_goals exact List.cons_ne_nil _ _

/-- No character is dropped. -/
theorem length_le_lowerFrom (s : List Char) : s.length ≤ (lowerFrom before s).length := by
  induction s generalizing before with
  | nil => exact Nat.zero_le _
  | cons c rest ih =>
      have himage : 0 < (image before c rest).length := List.length_pos_iff.2 image_ne_nil
      have hrest := @ih (c :: before)
      rw [lowerFrom_cons, List.length_append, List.length_cons]
      omega

/-- A letter is put in one letter if the rest keeps its length. -/
theorem lowerFrom_cons_eq_iff {d : Char} {s : List Char} (hlength : s.length = rest.length) :
    lowerFrom before (c :: rest) = d :: s ↔
      image before c rest = [d] ∧ lowerFrom (c :: before) rest = s := by
  rw [lowerFrom_cons]
  constructor
  · intro h
    obtain ⟨e, more, himage⟩ := List.exists_cons_of_ne_nil (@image_ne_nil before rest c)
    rw [himage, List.cons_append, List.cons.injEq] at h
    obtain ⟨rfl, happend⟩ := h
    -- a second character would make the text longer, since the rest does not get shorter
    obtain rfl : more = [] := by
      have hall := congrArg List.length happend
      have hrest := @length_le_lowerFrom (c :: before) rest
      rw [List.length_append] at hall
      exact List.eq_nil_of_length_eq_zero (by omega)
    exact ⟨himage, happend⟩
  · rintro ⟨himage, hrest⟩
    rw [himage, hrest]
    rfl

/-- A text is put in lower case as in ASCII exactly if its other letters are their own forms. -/
theorem lowerFrom_eq_map_iff (s : List Char) :
    lowerFrom before s = s.map Char.toLower ↔ ∀ c ∈ s, c.toNat < 0x80 ∨ lowerChar c = [c] := by
  induction s generalizing before with
  | nil => simp [lowerFrom]
  | cons c rest ih =>
      rw [List.map_cons, lowerFrom_cons_eq_iff (List.length_map _), ih, List.forall_mem_cons]
      refine and_congr_left fun _ => ?_
      rcases Nat.lt_or_ge c.toNat 0x80 with hascii | hother
      · exact iff_of_true (image_of_ascii hascii) (.inl hascii)
      · rw [toLower_of_not_ascii hother, image_eq_self_iff hother,
          or_iff_right (Nat.not_lt.2 hother)]

/-- A text is lowered as one of ASCII if and only if no other letter of it has a lower-case form of
its own. -/
theorem lower_eq_toLower_iff (s : String) : lower s = s.toLower ↔ LowersAscii s := by
  rw [← String.toList_inj, lower, String.toList_ofList,
    show s.toLower = s.map Char.toLower from rfl, String.toList_map]
  exact lowerFrom_eq_map_iff _

end FilterSql.Text
