import FilterSql.Compile.Test
import Mathlib.Data.List.Infix

/-!
# Patterns

What a `LIKE` pattern matches: a percent sign any run of characters, an underscore any one
character, and a backslash makes the next character stand for itself. `matches_containsPattern`
says that the pattern of a substring search finds exactly the texts that contain the substring, and
`matches_self_only_iff` which texts are patterns of nothing but themselves.
-/

namespace FilterSql

/-- A part of a pattern. -/
inductive PatternItem where
  /-- Any run of characters, the empty one among them. -/
  | anyRun
  | anyOne
  | char (c : Char)
  deriving DecidableEq

namespace Like

/-- The parts of a pattern. A backslash at the end stands for itself. -/
def items : List Char → List PatternItem
  | [] => []
  | '\\' :: c :: rest => .char c :: items rest
  | c :: rest =>
    (if c = '%' then .anyRun else if c = '_' then .anyOne else .char c) :: items rest

/-- Whether a text is matched by the parts of a pattern. -/
def isMatch : List PatternItem → List Char → Bool
  | [], text => text.isEmpty
  | .anyRun :: rest, text => text.tails.any (isMatch rest)
  | .anyOne :: rest, _ :: text => isMatch rest text
  | .char c :: rest, d :: text => c == d && isMatch rest text
  | _ :: _, [] => false

/-- A run of any characters matches what can be split into two parts, of which the rest matches the
second. -/
theorem isMatch_anyRun {rest : List PatternItem} {text : List Char} :
    isMatch (.anyRun :: rest) text = true ↔
      ∃ before after, text = before ++ after ∧ isMatch rest after = true := by
  simp only [isMatch, List.any_eq_true, List.mem_tails]
  constructor
  · rintro ⟨after, ⟨before, rfl⟩, h⟩
    exact ⟨before, after, rfl, h⟩
  · rintro ⟨before, after, rfl, h⟩
    exact ⟨after, ⟨before, rfl⟩, h⟩

/-- Characters that stand for themselves match just themselves. -/
theorem isMatch_chars {s : List Char} {rest : List PatternItem} {text : List Char} :
    isMatch (s.map .char ++ rest) text = true ↔
      ∃ after, text = s ++ after ∧ isMatch rest after = true := by
  induction s generalizing text with
  | nil => simp
  | cons c s ih =>
      cases text with
      | nil => simp [isMatch]
      | cons d text =>
          simp only [List.map_cons, List.cons_append, isMatch, Bool.and_eq_true, beq_iff_eq, ih,
            List.cons.injEq]
          constructor
          · rintro ⟨rfl, after, rfl, h⟩
            exact ⟨after, ⟨rfl, rfl⟩, h⟩
          · rintro ⟨after, ⟨rfl, rfl⟩, h⟩
            exact ⟨rfl, after, rfl, h⟩

/-- An escaped text is read back character by character. -/
theorem items_escapePattern (s rest : List Char) :
    items (FilterColumn.escapePattern s ++ rest) = s.map .char ++ items rest := by
  induction s with
  | nil => rfl
  | cons c s ih =>
      have hcons : FilterColumn.escapePattern (c :: s) =
          (if c = '\\' ∨ c = '%' ∨ c = '_' then ['\\', c] else [c]) ++
            FilterColumn.escapePattern s := rfl
      rw [hcons, List.append_assoc]
      by_cases h : c = '\\' ∨ c = '%' ∨ c = '_'
      · simp [h, items, ih]
      · obtain ⟨hslash, hpercent, hunder⟩ := not_or.1 h |>.imp_right not_or.1
        -- the clause of an escaped character does not apply, as `c` is no backslash
        rw [if_neg h, List.singleton_append, items]
        · simp [hpercent, hunder, ih]
        · intro d rest heq
          exact absurd heq hslash

/-- Whether a text matches a pattern. -/
def Matches (pattern text : String) : Bool :=
  isMatch (items pattern.toList) text.toList

/-- The pattern of a substring search finds the texts that contain the substring in lower case,
whatever characters it is made of. -/
theorem matches_containsPattern (needle text : String) :
    Matches (FilterColumn.containsPattern needle) text = true ↔
      (Text.lower needle).toList <:+: text.toList := by
  have hitems : items (FilterColumn.containsPattern needle).toList =
      .anyRun :: ((Text.lower needle).toList.map .char ++ [.anyRun]) := by
    simp only [FilterColumn.containsPattern, String.toList_append, String.toList_ofList]
    show PatternItem.anyRun :: items (FilterColumn.escapePattern _ ++ ['%']) = _
    rw [items_escapePattern]
    rfl
  rw [Matches, hitems, isMatch_anyRun]
  constructor
  · rintro ⟨before, rest, htext, h⟩
    obtain ⟨after, rfl, -⟩ := isMatch_chars.1 h
    exact ⟨before, after, by rw [htext, List.append_assoc]⟩
  · rintro ⟨before, after, htext⟩
    refine ⟨before, (Text.lower needle).toList ++ after, by rw [← htext, List.append_assoc], ?_⟩
    refine isMatch_chars.2 ⟨after, rfl, isMatch_anyRun.2 ⟨after, [], by simp, rfl⟩⟩

/-! ## Texts as patterns of themselves -/

/-- No character of a text has a meaning in a pattern; a backslash at the end has none. -/
def IsPlain (s : List Char) : Prop :=
  '%' ∉ s ∧ '_' ∉ s ∧ '\\' ∉ s.dropLast

/-- It is decided character by character. -/
instance (s : List Char) : Decidable (IsPlain s) :=
  inferInstanceAs (Decidable (_ ∧ _ ∧ _))

/-- A pattern has at most as many items as characters. -/
theorem length_items_le (s : List Char) : (items s).length ≤ s.length := by
  fun_induction items s with
  | case1 => rfl
  | case2 c rest ih => simp only [List.length_cons]; omega
  | case3 c rest _ ih => simpa using ih

/-- The parts of a text are its characters where none of them has a meaning. -/
theorem items_eq_chars_iff (s : List Char) : items s = s.map .char ↔ IsPlain s := by
  unfold IsPlain
  fun_induction items s with
  | case1 => simp
  | case2 c rest _ =>
      -- an escaped character leaves fewer parts than characters
      refine iff_of_false (fun h => ?_) (by simp)
      have hlength := congrArg List.length h
      have hle := length_items_le rest
      simp only [List.length_cons, List.length_map] at hlength
      omega
  | case3 c rest hslash ih =>
      by_cases hpercent : c = '%'
      · simp [hpercent]
      by_cases hunder : c = '_'
      · simp [hunder]
      rw [if_neg hpercent, if_neg hunder, List.map_cons, List.cons.injEq, and_iff_right rfl, ih]
      cases rest with
      | nil => simp [Ne.symm hpercent, Ne.symm hunder]
      | cons d rest =>
          have hplain : c ≠ '\\' := fun hc => hslash d rest hc rfl
          simp [Ne.symm hpercent, Ne.symm hunder, Ne.symm hplain]

/-- The character that fills a part: its own, or a given one where the part does not say which. -/
def filling (c : Char) : PatternItem → Char
  | .char d => d
  | _ => c

/-- A pattern matches the text that fills its parts. -/
theorem isMatch_filling (c : Char) (parts : List PatternItem) :
    isMatch parts (parts.map (filling c)) = true := by
  induction parts with
  | nil => rfl
  | cons part rest ih =>
      cases part with
      | anyRun => exact isMatch_anyRun.2 ⟨[c], _, rfl, ih⟩
      | anyOne => exact ih
      | char d => simpa [isMatch, filling] using ih

/-- A pattern matches its own text and no other one exactly if none of its characters has a
meaning. -/
theorem matches_self_only_iff (pattern : String) :
    (∀ text, Matches pattern text = true ↔ text = pattern) ↔ IsPlain pattern.toList := by
  rw [← items_eq_chars_iff]
  constructor
  · intro h
    have hfilled : ∀ c, (items pattern.toList).map (filling c) = pattern.toList := by
      intro c
      have hmatch := (h (String.ofList ((items pattern.toList).map (filling c)))).1
        (by rw [Matches, String.toList_ofList]; exact isMatch_filling c _)
      simpa using congrArg String.toList hmatch
    -- two different fillings give the same text, so there is nothing to fill
    have hchars : ∀ part ∈ items pattern.toList, part = .char (filling 'a' part) := by
      have hsame := List.map_inj_left.1 ((hfilled 'a').trans (hfilled 'b').symm)
      intro part hpart
      have hpart := hsame part hpart
      cases part with
      | char d => rfl
      | anyRun => exact absurd hpart (by decide)
      | anyOne => exact absurd hpart (by decide)
    conv_rhs => rw [← hfilled 'a', List.map_map]
    exact (List.map_id _).symm.trans (List.map_congr_left hchars)
  · intro h text
    rw [Matches, h, ← List.append_nil (pattern.toList.map _), isMatch_chars]
    constructor
    · rintro ⟨after, htext, hafter⟩
      obtain rfl := List.isEmpty_iff.1 hafter
      exact String.toList_injective (by simpa using htext)
    · rintro rfl
      exact ⟨[], by simp, rfl⟩

end Like

end FilterSql
