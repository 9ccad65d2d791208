import FilterSql.Text.Blank
import Mathlib.Data.List.TakeWhile

/-!
# Parts of a text and the white space around them

Splitting a text at a separator and joining texts with it undo each other
(`Text.splitOn_join`, `Text.join_splitOn`). Trimming takes the white space off both ends of a text
and nothing else: `Text.trim_eq_iff` says so without the two passes.
-/

namespace FilterSql.Text

/-! ## Parts -/

/-- The parts of a text are those that the library splits it into. -/
theorem splitOn_eq (separator : Char) (s : List Char) :
    splitOn separator s = s.splitOn separator := by
  induction s with
  | nil => rfl
  | cons c rest ih =>
      rw [splitOn, List.splitOn_cons_eq_if_modifyHead, ih]
      by_cases h : c = separator
      · rw [if_pos h, if_pos (beq_iff_eq.2 h)]
      · rw [if_neg h, if_neg (by simpa using h)]
        cases hparts : rest.splitOn separator with
        | nil => exact absurd (ih.trans hparts) (splitOn_ne_nil separator rest)
        | cons part parts => rfl

/-- The separator stands in no part. -/
theorem not_mem_of_mem_splitOn {separator : Char} {s part : List Char}
    (h : part ∈ splitOn separator s) : separator ∉ part := by
  induction s generalizing part with
  | nil =>
      rw [List.mem_singleton.1 h]
      exact List.not_mem_nil
  | cons c rest ih =>
      rw [splitOn] at h
      split at h
      · rcases List.mem_cons.1 h with rfl | h
        · exact List.not_mem_nil
        · exact ih h
      next hc =>
        split at h
        next hnil => exact absurd hnil (splitOn_ne_nil separator rest)
        next first parts hparts =>
          rw [hparts] at ih
          rcases List.mem_cons.1 h with rfl | h
          · rw [List.mem_cons, not_or]
            exact ⟨fun heq => hc heq.symm, ih List.mem_cons_self⟩
          · exact ih (List.mem_cons_of_mem _ h)

/-- Joining texts is joining their characters. -/
theorem toList_join (separator : String) (texts : List String) :
    (join separator texts).toList = separator.toList.intercalate (texts.map String.toList) := by
  induction texts with
  | nil => rfl
  | cons s rest ih =>
      cases rest with
      | nil => simp [join]
      | cons t rest => simp [join, ih, List.intercalate_cons_cons]

variable (c : Char) (separator : String)

/-- Splitting at a separator undoes joining with it. -/
theorem splitOn_join (hc : separator.toList = [c]) {texts : List String} (hne : texts ≠ [])
    (h : ∀ text ∈ texts, c ∉ text.toList) :
    splitOn c (join separator texts).toList = texts.map String.toList := by
  rw [splitOn_eq, toList_join, hc]
  exact List.splitOn_intercalate c (by simpa using h) (by simpa using hne)

/-- Joining with a separator undoes splitting at it. -/
theorem join_splitOn (hc : separator.toList = [c]) (text : String) :
    join separator ((splitOn c text.toList).map String.ofList) = text := by
  refine String.toList_injective ?_
  rw [toList_join, List.map_map, splitOn_eq, hc]
  simp [Function.comp_def, List.intercalate_splitOn]

/-! ## White space -/

/-- The characters with the property `White_Space`, one by one. -/
def IsWhiteSpace (c : Char) : Prop :=
  c.toNat ∈ [0x9, 0xA, 0xB, 0xC, 0xD, 0x20, 0x85, 0xA0, 0x1680, 0x2000, 0x2001, 0x2002, 0x2003,
    0x2004, 0x2005, 0x2006, 0x2007, 0x2008, 0x2009, 0x200A, 0x2028, 0x2029, 0x202F, 0x205F, 0x3000]

/-- White space is decided by the list. -/
instance : DecidablePred IsWhiteSpace :=
  fun c => inferInstanceAs (Decidable (c.toNat ∈ _))

/-- What is skipped is white space. -/
theorem isBlank_iff {c : Char} : isBlank c = true ↔ IsWhiteSpace c := by
  simp only [isBlank, IsWhiteSpace, Bool.or_eq_true, Bool.and_eq_true, decide_eq_true_eq,
    beq_iff_eq, List.mem_cons, List.not_mem_nil, or_false]
  omega

/-- A text of white space. -/
def Blank (s : List Char) : Prop :=
  ∀ c ∈ s, IsWhiteSpace c

/-- Blank texts are told character by character. -/
instance (s : List Char) : Decidable (Blank s) :=
  inferInstanceAs (Decidable (∀ c ∈ s, IsWhiteSpace c))

/-- The empty text is blank. -/
theorem blank_nil : Blank [] :=
  fun _ hc => absurd hc List.not_mem_nil

/-- Two blank texts are blank together. -/
theorem Blank.append {s t : List Char} (hs : Blank s) (ht : Blank t) : Blank (s ++ t) :=
  List.forall_mem_append.2 ⟨hs, ht⟩

/-- A blank text is blank from its end, too. -/
theorem Blank.reverse {s : List Char} (hs : Blank s) : Blank s.reverse :=
  fun c hc => hs c (List.mem_reverse.1 hc)

/-- Nothing is left of blank texts and of no others. -/
theorem trim_eq_nil {s : List Char} : trim s = [] ↔ Blank s := by
  simp only [trim_eq_nil_iff, isBlank_iff, Blank]

/-- A text that neither starts nor ends with white space. -/
structure IsTrimmed (s : List Char) : Prop where
  head : ∀ c, s.head? = some c → ¬IsWhiteSpace c
  last : ∀ c, s.getLast? = some c → ¬IsWhiteSpace c

/-- The end of a text is trimmed as the start of the reverse. -/
theorem trimEnd_eq (s : List Char) : trimEnd s = (trimStart s.reverse).reverse := rfl

/-- White space in front is taken off. -/
theorem trimStart_append {before : List Char} (h : Blank before) (s : List Char) :
    trimStart (before ++ s) = trimStart s :=
  List.dropWhile_append_of_pos fun c hc => isBlank_iff.2 (h c hc)

/-- Nothing is taken off a text that starts with something else. -/
theorem trimStart_of_head {s : List Char} (h : ∀ c, s.head? = some c → ¬IsWhiteSpace c) :
    trimStart s = s := by
  cases s with
  | nil => rfl
  | cons c rest => exact List.dropWhile_cons_of_neg fun hc => h c rfl (isBlank_iff.1 hc)

/-- What is left does not start with white space. -/
theorem head_trimStart (s : List Char) (c : Char) (h : (trimStart s).head? = some c) :
    ¬IsWhiteSpace c := by
  have hhead := List.head?_dropWhile_not isBlank s
  rw [trimStart] at h
  rw [h] at hhead
  rw [← isBlank_iff]
  exact Bool.not_eq_true _ ▸ hhead

/-- What is taken off the start is white space. -/
theorem exists_trimStart (s : List Char) : ∃ before, Blank before ∧ s = before ++ trimStart s :=
  ⟨s.takeWhile isBlank, fun _ hc => isBlank_iff.1 (List.mem_takeWhile_imp hc),
    List.takeWhile_append_dropWhile.symm⟩

/-- What is taken off the end is white space. -/
theorem exists_trimEnd (s : List Char) : ∃ after, Blank after ∧ s = trimEnd s ++ after := by
  obtain ⟨behind, hbehind, hs⟩ := exists_trimStart s.reverse
  refine ⟨behind.reverse, hbehind.reverse, ?_⟩
  rw [trimEnd_eq, ← List.reverse_append, ← hs, List.reverse_reverse]

/-- Trimming takes white space off both ends. -/
theorem exists_trim (s : List Char) :
    ∃ before after, Blank before ∧ Blank after ∧ s = before ++ trim s ++ after := by
  obtain ⟨before, hbefore, hs⟩ := exists_trimStart s
  obtain ⟨after, hafter, hrest⟩ := exists_trimEnd (trimStart s)
  refine ⟨before, after, hbefore, hafter, ?_⟩
  rw [List.append_assoc, trim, ← hrest]
  exact hs

/-- What is left has no white space at its ends. -/
theorem isTrimmed_trim (s : List Char) : IsTrimmed (trim s) := by
  constructor
  · intro c hc
    obtain ⟨after, -, hrest⟩ := exists_trimEnd (trimStart s)
    refine head_trimStart s c ?_
    rw [hrest, ← trim, List.head?_append, hc, Option.some_or]
  · intro c hc
    rw [trim, trimEnd_eq, List.getLast?_reverse] at hc
    exact head_trimStart _ c hc

/-- The white space around a text that has none at its ends is what trimming takes off. -/
theorem trim_surrounded {before s after : List Char} (hbefore : Blank before) (hafter : Blank after)
    (hs : IsTrimmed s) : trim (before ++ s ++ after) = s := by
  cases s with
  | nil =>
      rw [trim_eq_nil, List.append_nil]
      exact hbefore.append hafter
  | cons c rest =>
      have hfront : trimStart (c :: rest ++ after) = c :: rest ++ after :=
        trimStart_of_head (by simpa using hs.head)
      have hback : trimStart (c :: rest).reverse = (c :: rest).reverse :=
        trimStart_of_head fun d hd => hs.last d (by rwa [List.head?_reverse] at hd)
      rw [trim, List.append_assoc, trimStart_append hbefore, hfront, trimEnd_eq,
        List.reverse_append, trimStart_append hafter.reverse, hback, List.reverse_reverse]

/-- A text trims to what stands between white space and has none at its ends. -/
theorem trim_eq_iff {s core : List Char} :
    trim s = core ↔ IsTrimmed core ∧
      ∃ before after, Blank before ∧ Blank after ∧ s = before ++ core ++ after := by
  constructor
  · rintro rfl
    exact ⟨isTrimmed_trim s, exists_trim s⟩
  · rintro ⟨hcore, before, after, hbefore, hafter, rfl⟩
    exact trim_surrounded hbefore hafter hcore

end FilterSql.Text
