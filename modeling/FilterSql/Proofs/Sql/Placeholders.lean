import FilterSql.Sql.Dialect

/-!
# Reading placeholders

The placeholders that a reader of SQL text finds from left to right, outside single quotes.
`Dialect.Shows` says which placeholders a piece of text adds to what is read, and `Dialect.Ends`
that it does so whatever follows it: behind a number there must not stand another digit. A text is
put together from pieces, and each piece that a dialect writes shows the placeholders of the
fragments in it, in their order.
-/

namespace FilterSql

namespace Dialect

/-- The character that a placeholder starts with. -/
def mark : Dialect → Char
  | postgres => '$'
  | _ => '?'

/-- What is read of the placeholder with a number; MySQL does not write the number. -/
def numbered : Dialect → Nat → Option Nat
  | mysql, _ => none
  | _, n => some n

/-- The number at the start of the text behind a mark. -/
def numberAt (d : Dialect) (s : List Char) : Option Nat :=
  let digits := s.takeWhile Char.isDigit
  match d with
  | mysql => none
  | _ => if digits.isEmpty then none else some (Nat.ofDigitChars 10 digits 0)

/-- The placeholders in a text that starts within quotes or not. -/
def marksFrom (d : Dialect) (quoted : Bool) : List Char → List (Option Nat)
  | [] => []
  | c :: rest =>
    if c = '\'' then d.marksFrom (!quoted) rest
    else if c = d.mark ∧ quoted = false then d.numberAt rest :: d.marksFrom quoted rest
    else d.marksFrom quoted rest

/-- The placeholders in a text, from left to right. -/
def marks (d : Dialect) (text : String) : List (Option Nat) :=
  d.marksFrom false text.toList

/-- The placeholders of some values that follow on the values bound so far. -/
def numbering (d : Dialect) (bound count : Nat) : List (Option Nat) :=
  (List.range' (bound + 1) count).map d.numbered

/-- A text without quotes and without the mark of placeholders. -/
def Plain (d : Dialect) (text : String) : Prop :=
  ∀ c ∈ text.toList, c ≠ '\'' ∧ c ≠ d.mark

/-- A piece of text adds some placeholders to what is read, unless a digit follows it. -/
def Shows (d : Dialect) (text : String) (marks : List (Option Nat)) : Prop :=
  ∀ rest : List Char, (∀ c, rest.head? = some c → c.isDigit = false) →
    d.marksFrom false (text.toList ++ rest) = marks ++ d.marksFrom false rest

/-- A piece of text adds some placeholders to what is read, whatever follows it. -/
def Ends (d : Dialect) (text : String) (marks : List (Option Nat)) : Prop :=
  ∀ rest : List Char, d.marksFrom false (text.toList ++ rest) = marks ++ d.marksFrom false rest

/-- A piece of text that may be empty, starts with no digit, and shows some placeholders. -/
structure ShowsClause (d : Dialect) (text : String) (marks : List (Option Nat)) : Prop where
  shows : d.Shows text marks
  head : ∀ c, text.toList.head? = some c → c.isDigit = false

/-- Whether a text shows no placeholder in any language and closes its quotes. -/
def isQuiet (quoted : Bool) : List Char → Bool
  | [] => !quoted
  | c :: rest =>
    if c = '\'' then isQuiet (!quoted) rest
    else (quoted || (c != '$' && c != '?')) && isQuiet quoted rest

/-- Whether a text shows no placeholder and can stand behind a number. -/
def isSeparator (text : String) : Bool :=
  isQuiet false text.toList && text.toList.head?.any (!·.isDigit)

variable {d : Dialect} {s t : String} {ms ns : List (Option Nat)}

/-! ## Pieces of text -/

/-- A quiet text is read to its end without a placeholder, and behind it no quote is open. -/
theorem marksFrom_quiet {quoted : Bool} {s : List Char} (h : isQuiet quoted s = true)
    (rest : List Char) : d.marksFrom quoted (s ++ rest) = d.marksFrom false rest := by
  induction s generalizing quoted with
  | nil =>
      obtain rfl : quoted = false := by simpa [isQuiet] using h
      rfl
  | cons c s ih =>
      simp only [isQuiet] at h
      rw [List.cons_append, marksFrom]
      split at h
      next hquote => rw [if_pos hquote, ih h]
      next hquote =>
        simp only [Bool.and_eq_true, Bool.or_eq_true, bne_iff_ne] at h
        obtain ⟨hc, h⟩ := h
        have hmark : ¬(c = d.mark ∧ quoted = false) := by
          rintro ⟨rfl, rfl⟩
          cases d <;> simp [mark] at hc
        rw [if_neg hquote, if_neg hmark, ih h]

/-- Without quotes and marks nothing is read. -/
theorem marksFrom_plain {s : List Char} (h : ∀ c ∈ s, c ≠ '\'' ∧ c ≠ d.mark)
    (rest : List Char) : d.marksFrom false (s ++ rest) = d.marksFrom false rest := by
  induction s with
  | nil => rfl
  | cons c s ih =>
      obtain ⟨⟨hquote, hmark⟩, hs⟩ := List.forall_mem_cons.1 h
      rw [List.cons_append, marksFrom, if_neg hquote, if_neg fun hc => hmark hc.1, ih hs]

/-- Within quotes nothing is read. -/
theorem marksFrom_quoted {s : List Char} (h : ∀ c ∈ s, c ≠ '\'') (rest : List Char) :
    d.marksFrom true (s ++ rest) = d.marksFrom true rest := by
  induction s with
  | nil => rfl
  | cons c s ih =>
      obtain ⟨hquote, hs⟩ := List.forall_mem_cons.1 h
      rw [List.cons_append, marksFrom, if_neg hquote, if_neg (by simp), ih hs]

/-- A plain text shows nothing, whatever follows it. -/
theorem Plain.ends (h : d.Plain s) : d.Ends s [] := fun rest => marksFrom_plain h rest

/-- A quiet text shows nothing, whatever follows it. -/
theorem ends_quiet (h : isQuiet false s.toList = true) : d.Ends s [] :=
  fun rest => marksFrom_quiet h rest

/-- A text in quotes shows nothing. -/
theorem ends_quoted (h : ∀ c ∈ s.toList, c ≠ '\'') : d.Ends ("'" ++ s ++ "'") [] := by
  intro rest
  have htext : ("'" ++ s ++ "'").toList ++ rest = '\'' :: (s.toList ++ '\'' :: rest) := by
    simp
  rw [htext, marksFrom, if_pos rfl, Bool.not_false, marksFrom_quoted h, marksFrom, if_pos rfl]
  rfl

/-- What holds whatever follows holds if no digit follows. -/
theorem Ends.shows (h : d.Ends s ms) : d.Shows s ms := fun rest _ => h rest

/-- A text can follow one that has ended. -/
theorem Ends.append (hs : d.Ends s ms) (ht : d.Shows t ns) : d.Shows (s ++ t) (ms ++ ns) := by
  intro rest hrest
  rw [String.toList_append, List.append_assoc, hs, ht rest hrest, List.append_assoc]

/-- If both texts have ended, so has the whole. -/
theorem Ends.append_ends (hs : d.Ends s ms) (ht : d.Ends t ns) : d.Ends (s ++ t) (ms ++ ns) := by
  intro rest
  rw [String.toList_append, List.append_assoc, hs, ht rest, List.append_assoc]

/-- A quiet text at the end shows nothing. -/
theorem Ends.close (hs : d.Ends s ms) (ht : isQuiet false t.toList = true) :
    d.Ends (s ++ t) ms := by
  simpa using hs.append_ends (ends_quiet ht)

/-- A quiet text in front shows nothing. -/
theorem Shows.after (h : d.Shows t ms) (hs : isQuiet false s.toList = true) :
    d.Shows (s ++ t) ms :=
  (ends_quiet hs).append h

/-- A quiet text in front shows nothing, also where the text has ended. -/
theorem Ends.after (h : d.Ends t ms) (hs : isQuiet false s.toList = true) : d.Ends (s ++ t) ms :=
  (ends_quiet hs).append_ends h

/-- A clause can follow any text. -/
theorem Shows.clause (hs : d.Shows s ms) (ht : d.ShowsClause t ns) :
    d.Shows (s ++ t) (ms ++ ns) := by
  intro rest hrest
  rw [String.toList_append, List.append_assoc, hs, ht.shows rest hrest, List.append_assoc]
  intro c hc
  cases htext : t.toList with
  | nil =>
      rw [htext, List.nil_append] at hc
      exact hrest c hc
  | cons head tail =>
      rw [htext] at hc
      exact ht.head c (by rwa [htext])

/-- A clause may be empty. -/
theorem ShowsClause.nothing : d.ShowsClause "" [] :=
  ⟨(ends_quiet rfl).shows, by simp⟩

/-- A separator ends what stands before it. -/
theorem Shows.close (h : d.Shows s ms) (ht : isSeparator t = true) : d.Ends (s ++ t) ms := by
  rw [isSeparator, Bool.and_eq_true] at ht
  obtain ⟨hquiet, hhead⟩ := ht
  intro rest
  rw [String.toList_append, List.append_assoc, h, marksFrom_quiet hquiet]
  intro c hc
  cases htext : t.toList with
  | nil => simp [htext] at hhead
  | cons head tail =>
      rw [htext] at hc hhead
      cases hc
      simpa using hhead

/-- A clause of a separator and what stands behind it. -/
theorem Shows.behind (h : d.Shows t ms) (hs : isSeparator s = true) :
    d.ShowsClause (s ++ t) ms := by
  rw [isSeparator, Bool.and_eq_true] at hs
  obtain ⟨hquiet, hhead⟩ := hs
  refine ⟨h.after hquiet, fun c hc => ?_⟩
  cases htext : s.toList with
  | nil => simp [htext] at hhead
  | cons head tail =>
      rw [String.toList_append, htext] at hc
      rw [htext] at hhead
      cases hc
      simpa using hhead

/-- What a whole text shows is what is read in it. -/
theorem shows_marks (h : d.Shows s ms) : d.marks s = ms := by
  have hread := h [] (by simp)
  simpa [marks, marksFrom] using hread

/-! ## Placeholders -/

/-- The digits of a number are plain. -/
theorem natText_plain (n : Nat) : d.Plain (Json.natText n) := by
  intro c hc
  rw [Json.natText, String.toList_ofList] at hc
  have hdigit := Nat.isDigit_of_mem_toDigits (by decide) (by decide) hc
  constructor
  · rintro rfl
    exact absurd hdigit (by decide)
  · rintro rfl
    cases d <;> exact absurd hdigit (by decide)

/-- The number behind a mark is read to its last digit. -/
theorem numberAt_natText (n : Nat) {rest : List Char}
    (hrest : ∀ c, rest.head? = some c → c.isDigit = false) :
    d.numberAt ((Json.natText n).toList ++ rest) = d.numbered n := by
  have hbehind : rest.takeWhile Char.isDigit = [] := by
    cases rest with
    | nil => rfl
    | cons c rest => simp [hrest c rfl]
  have hdigits : ∀ c ∈ Nat.toDigits 10 n, c.isDigit = true := fun c hc =>
    Nat.isDigit_of_mem_toDigits (by decide) (by decide) hc
  have htake : ((Json.natText n).toList ++ rest).takeWhile Char.isDigit = Nat.toDigits 10 n := by
    rw [Json.natText, String.toList_ofList, List.takeWhile_append_of_pos hdigits, hbehind,
      List.append_nil]
  unfold numberAt
  rw [htake]
  cases d <;> simp [numbered, Nat.toDigits_ne_nil]

/-- The placeholder with a number is read with that number. -/
theorem shows_placeholder (n : Nat) : d.Shows (d.placeholder n) [d.numbered n] := by
  intro rest hrest
  -- behind the mark stands the number, or nothing where placeholders have no numbers
  have hmark : ∀ number : String, d.Plain number → d.placeholder n = d.mark.toString ++ number →
      d.numberAt (number.toList ++ rest) = d.numbered n →
      d.marksFrom false ((d.placeholder n).toList ++ rest) =
        [d.numbered n] ++ d.marksFrom false rest := by
    intro number hnumber htext hread
    have hquote : d.mark ≠ '\'' := by cases d <;> decide
    rw [htext, String.toList_append, Char.toString, String.toList_singleton, List.append_assoc,
      List.singleton_append, marksFrom, if_neg hquote, if_pos ⟨rfl, rfl⟩, hread,
      marksFrom_plain hnumber, List.singleton_append]
  cases d with
  | mysql => exact hmark "" (by simp [Plain]) rfl rfl
  | postgres => exact hmark (Json.natText n) (natText_plain n) rfl (numberAt_natText n hrest)
  | sqlite => exact hmark (Json.natText n) (natText_plain n) rfl (numberAt_natText n hrest)

/-! ## Lists of texts -/

/-- Texts that show some placeholders in turn. -/
inductive ShowsAll (d : Dialect) : List String → List (Option Nat) → Prop where
  | nil : ShowsAll d [] []
  | cons {text : String} {texts : List String} {ms ns : List (Option Nat)} (first : d.Shows text ms)
      (rest : ShowsAll d texts ns) : ShowsAll d (text :: texts) (ms ++ ns)

variable {texts more : List String}

/-- Two lists of texts in turn show their placeholders in turn. -/
theorem ShowsAll.append (h : d.ShowsAll texts ms) (hmore : d.ShowsAll more ns) :
    d.ShowsAll (texts ++ more) (ms ++ ns) := by
  induction h with
  | nil => exact hmore
  | cons first _ ih =>
      rw [List.append_assoc]
      exact .cons first ih

/-- Texts between separators show their placeholders in turn. -/
theorem ShowsAll.join {separator : String} (hseparator : isSeparator separator = true)
    (h : d.ShowsAll texts ms) : d.Shows (Text.join separator texts) ms := by
  induction h with
  | nil => exact (ends_quiet rfl).shows
  | @cons text texts ms ns first rest ih =>
      cases rest with
      | nil => simpa [Text.join] using first
      | cons => exact (first.close hseparator).append ih

/-- Texts with a blank before each of them. -/
theorem ShowsAll.blanks (h : d.ShowsAll texts ms) :
    d.ShowsClause (String.join (texts.map (" " ++ ·))) ms := by
  induction h with
  | nil => exact .nothing
  | @cons text texts ms ns first rest ih =>
      rw [List.map_cons, String.join_cons, String.append_assoc]
      exact (first.clause ih).behind (by decide)

/-- The placeholders of some values have the numbers of these values. -/
theorem showsAll_placeholders (bound : Nat) (values : List Value) :
    d.ShowsAll (d.placeholders (bound + 1) values) (d.numbering bound values.length) := by
  induction values generalizing bound with
  | nil => exact .nil
  | cons v rest ih =>
      rw [placeholders, numbering, List.length_cons, List.range'_succ, List.map_cons]
      exact .cons (shows_placeholder _) (ih (bound + 1))

/-- Numbers follow on each other. -/
theorem numbering_append (bound m n : Nat) :
    d.numbering bound m ++ d.numbering (bound + m) n = d.numbering bound (m + n) := by
  rw [numbering, numbering, numbering, ← List.map_append, Nat.add_right_comm,
    List.range'_append_1]

/-! ## Fragments of a dialect -/

variable {field : String} {bound : Nat} {values : List Value}

/-- The text of a truth value shows no placeholder. -/
theorem ends_boolText (b : Bool) : d.Ends (d.boolText b) [] := by
  cases d <;> cases b <;> exact ends_quiet (by decide)

/-- Postgres binds the list as one array, the other languages bind each value. -/
theorem ends_any {before after : String} (hbefore : isSeparator before = true)
    (hafter : isSeparator after = true) (h : d.Shows field ms) (n : Nat) :
    d.Ends (field ++ before ++ d.placeholder n ++ after) (ms ++ [d.numbered n]) :=
  ((h.close hbefore).append (shows_placeholder n)).close hafter

/-- A list of placeholders in its brackets shows one for each of the values. -/
theorem ends_list {before after : String} (hbefore : isSeparator before = true)
    (hafter : isSeparator after = true) (h : d.Shows field ms) :
    d.Ends (field ++ before ++ Text.join ", " (d.placeholders (bound + 1) values) ++ after)
      (ms ++ d.numbering bound values.length) :=
  ((h.close hbefore).append ((showsAll_placeholders bound values).join (by decide))).close hafter

/-- In Postgres a list is one array with one placeholder. -/
theorem postgres_isIn (field : String) (values : List Value) (first : Nat) :
    (postgres.isIn field values first).1 =
      field ++ " = ANY(" ++ postgres.placeholder first ++ ")" := by
  have hmark : " = ANY($" = " = ANY(" ++ "$" := by decide
  simp only [placeholder, isIn, hmark, String.append_assoc]

/-- In Postgres a list is one array with one placeholder, also in the negated test. -/
theorem postgres_isNotIn (field : String) (values : List Value) (first : Nat) :
    (postgres.isNotIn field values first).1 =
      field ++ " != ALL(" ++ postgres.placeholder first ++ ")" := by
  have hmark : " != ALL($" = " != ALL(" ++ "$" := by decide
  simp only [placeholder, isNotIn, hmark, String.append_assoc]

/-- A test for membership shows the placeholders of its operand and then those of its list. -/
theorem ends_isIn (h : d.Shows field ms) :
    d.Ends (d.isIn field values (bound + 1)).1
      (ms ++ d.numbering bound (d.isIn field values (bound + 1)).2.length) := by
  cases d with
  | postgres =>
      rw [postgres_isIn]
      exact ends_any (by decide) (by decide) h (bound + 1)
  | mysql => exact ends_list (by decide) (by decide) h
  | sqlite => exact ends_list (by decide) (by decide) h

/-- The negated test shows the placeholders of its operand and then those of its list. -/
theorem ends_isNotIn (h : d.Shows field ms) :
    d.Ends (d.isNotIn field values (bound + 1)).1
      (ms ++ d.numbering bound (d.isNotIn field values (bound + 1)).2.length) := by
  cases d with
  | postgres =>
      rw [postgres_isNotIn]
      exact ends_any (by decide) (by decide) h (bound + 1)
  | mysql => exact ends_list (by decide) (by decide) h
  | sqlite => exact ends_list (by decide) (by decide) h

/-- The comparison that counts NULL as a value shows the placeholders of its two sides. -/
theorem shows_nullSafeEq (hs : d.Shows s ms) (ht : d.Shows t ns) :
    d.Shows (d.nullSafeEq s t) (ms ++ ns) := by
  cases d <;> exact (hs.close (by decide)).append ht

/-- The extraction of a path shows the placeholders of the document and of the path. -/
theorem ends_jsonExtract (hs : d.Shows s ms) (ht : d.Shows t ns) :
    d.Ends (d.jsonExtract s t) (ms ++ ns) := by
  cases d <;>
    exact (((hs.after (by decide)).close (by decide)).append ht).close (by decide)

/-- The text of a JSON value shows the placeholders of the value. -/
theorem shows_jsonUnquote (hs : d.Shows s ms) : d.Shows (d.jsonUnquote s) ms := by
  cases d with
  | mysql => exact ((hs.after (by decide)).close (by decide)).shows
  | postgres => exact ((hs.after (by decide)).close (by decide)).shows
  | sqlite => exact hs

/-- The test for a JSON null or NULL shows the placeholders of its operand. -/
theorem ends_jsonNullTest (hs : d.Shows s ms) :
    d.Ends ((d.jsonNullTest? s).getD (s ++ " IS NULL")) ms := by
  cases d <;> exact hs.close (by decide)

/-- The fragments of a JSON string are repeated, and they show no placeholder. -/
theorem ends_jsonString (hs : d.Ends s []) (ht : d.Ends t []) : d.Ends (d.jsonString s t) [] := by
  have hvalue : d.Ends (d.jsonExtract s t) [] := ends_jsonExtract hs.shows ht.shows
  have hunquoted : d.Shows (d.jsonUnquote (d.jsonExtract s t)) [] :=
    shows_jsonUnquote hvalue.shows
  cases d with
  | mysql =>
      exact (((hvalue.after (by decide)).close (by decide)).append hunquoted).close (by decide)
  | postgres =>
      exact (((hvalue.after (by decide)).close (by decide)).append hunquoted).close (by decide)
  | sqlite =>
      have htest := (((hs.after (s := "CASE WHEN json_type(") (by decide)).close
        (t := ", ") (by decide)).append ht.shows).close (t := ") = 'text' THEN ") (by decide)
      exact (htest.append hvalue.shows).close (by decide)

/-- The search in a JSON array shows the placeholders of the array and of the element. -/
theorem shows_arrayContains (foldCase : Bool) (hs : d.Shows s ms) (ht : d.Shows t ns) :
    d.Shows (d.arrayContains s t foldCase) (ms ++ ns) := by
  cases d <;> cases foldCase
  case postgres.false => exact (((hs.close (by decide)).append ht).close (by decide)).shows
  all_goals
    exact ((((hs.after (by decide)).close (by decide)).append ht).close (by decide)).shows

/-- The overlap test shows the placeholders of its two sides. -/
theorem ends_overlaps (hs : d.Shows s ms) (ht : d.Shows t ns) :
    d.Ends (d.overlaps s t) (ms ++ ns) := by
  cases d <;>
    exact (((hs.after (by decide)).close (by decide)).append ht).close (by decide)

/-- A pattern test shows the placeholders of its operand and of the pattern. -/
theorem shows_like (negated : Bool) (hs : d.Shows s ms) (ht : d.Shows t ns) :
    d.Shows (d.like s t negated) (ms ++ ns) := by
  have hboth : d.Shows (s ++ (if negated then " NOT LIKE " else " LIKE ") ++ t) (ms ++ ns) := by
    cases negated <;> exact (hs.close (by decide)).append ht
  cases d with
  | mysql => simpa [like] using hboth
  | postgres => simpa [like] using hboth
  | sqlite => exact (hboth.close (by decide)).shows

/-- A term of an order shows the placeholders of what it orders by. -/
theorem shows_nullsOrder (direction : Direction) (hs : d.Shows s ms) :
    d.Shows (s ++ " " ++ direction.keyword ++ d.nullsOrder direction) ms := by
  have hdirection : d.Ends (s ++ " " ++ direction.keyword) ms := by
    cases direction <;> exact (hs.close (by decide)).close (by decide)
  cases d <;> cases direction <;> exact (hdirection.close (by decide)).shows

/-- The hint with the time limit shows no placeholder. -/
theorem ends_timeoutHint (milliseconds : Nat) {hint : String}
    (h : d.timeoutHint? milliseconds = some hint) : d.Ends hint [] := by
  cases d <;> cases h
  exact (((natText_plain milliseconds).ends.after (by decide)).close (by decide))

/-- Texts without placeholders show none together. -/
theorem showsAll_of_forall (h : ∀ text ∈ texts, d.Shows text []) : d.ShowsAll texts [] := by
  induction texts with
  | nil => exact .nil
  | cons text rest ih =>
      obtain ⟨htext, hrest⟩ := List.forall_mem_cons.1 h
      exact .cons htext (ih hrest)

/-- The end of an upsert shows no placeholder if its columns are plain. -/
theorem shows_upsertTail {conflict update : List String} (hconflict : ∀ c ∈ conflict, d.Plain c)
    (hupdate : ∀ c ∈ update, d.Plain c) : d.Shows (d.upsertTail conflict update) [] := by
  have hassignments : ∀ before after : String, isQuiet false before.toList = true →
      isQuiet false after.toList = true →
      d.ShowsAll (update.map fun c => c ++ " = " ++ before ++ c ++ after) [] := by
    intro before after hbefore hafter
    refine showsAll_of_forall fun text htext => ?_
    obtain ⟨c, hc, rfl⟩ := List.mem_map.1 htext
    have hplain := (hupdate c hc).ends
    have hleft : d.Ends (c ++ " = " ++ before) [] :=
      (hplain.shows.close (by decide)).close hbefore
    exact ((hleft.append_ends hplain).close hafter).shows
  have htarget : d.Ends ("ON CONFLICT (" ++ Text.join ", " conflict ++ ") DO UPDATE SET ") [] := by
    have hjoin := (showsAll_of_forall fun c hc => (hconflict c hc).ends.shows).join
      (by decide : isSeparator ", " = true)
    exact (hjoin.after (by decide)).close (by decide)
  cases d with
  | mysql =>
      have hjoin := (hassignments "VALUES(" ")" (by decide) (by decide)).join
        (by decide : isSeparator ", " = true)
      exact hjoin.after (by decide)
  | postgres =>
      exact htarget.append ((hassignments "EXCLUDED." "" (by decide) (by decide)).join (by decide))
  | sqlite =>
      exact htarget.append ((hassignments "excluded." "" (by decide) (by decide)).join (by decide))

end Dialect

/-! ## Names -/

/-- A character of an identifier is no quote and starts no placeholder. -/
theorem Identifier.isTail_plain {c : Char} (h : isTail c = true) (d : Dialect) :
    c ≠ '\'' ∧ c ≠ d.mark := by
  constructor
  · rintro rfl
    exact absurd h (by decide)
  · rintro rfl
    cases d <;> exact absurd h (by decide)

/-- Every character of an identifier may stand behind its first. -/
theorem Identifier.isTail_of_mem (name : Identifier) :
    ∀ c ∈ name.text.toList, isTail c = true := by
  have hvalid := name.valid
  intro c hc
  cases htext : name.text.toList with
  | nil => simp [htext] at hc
  | cons head tail =>
      simp only [htext, isValid, Bool.and_eq_true, List.all_eq_true] at hvalid
      obtain ⟨⟨hhead, htail⟩, -⟩ := hvalid
      rw [htext, List.mem_cons] at hc
      rcases hc with rfl | hc
      · simp [isTail, hhead]
      · exact htail c hc

/-- An identifier is plain in every language. -/
theorem Identifier.plain (name : Identifier) (d : Dialect) : d.Plain name.text := fun c hc =>
  isTail_plain (name.isTail_of_mem c hc) d

/-- The steps of a fixed path hold nothing that ends the quotes around it or escapes their end. -/
theorem FixedPath.areSteps_inert {fuel : Nat} {s : List Char} (h : areSteps fuel s = true) :
    ∀ c ∈ s, c ≠ '\'' ∧ c ≠ '\\' := by
  have hname : ∀ s : List Char, Identifier.isValid s = true → ∀ c ∈ s, c ≠ '\'' ∧ c ≠ '\\' := by
    intro s hs c hc
    have htail := Identifier.isTail_of_mem ⟨String.ofList s, by simpa using hs⟩ c
      (by simpa using hc)
    constructor <;> rintro rfl <;> exact absurd htail (by decide)
  -- a step ends at a character that is inert, and the other steps follow
  have hstep : ∀ (stop head : Char) (s rest : List Char), stop ≠ '\'' ∧ stop ≠ '\\' →
      s.dropWhile (· != stop) = head :: rest →
      (∀ c ∈ s.takeWhile (· != stop), c ≠ '\'' ∧ c ≠ '\\') →
      (∀ c ∈ rest, c ≠ '\'' ∧ c ≠ '\\') → ∀ c ∈ s, c ≠ '\'' ∧ c ≠ '\\' := by
    intro stop head s rest hstop hdrop htake hrest c hc
    have hhead := List.head?_dropWhile_not (· != stop) s
    rw [hdrop] at hhead
    obtain rfl : head = stop := by simpa using hhead
    rw [← List.takeWhile_append_dropWhile (p := (· != head)) (l := s), hdrop, List.mem_append,
      List.mem_cons] at hc
    rcases hc with hc | rfl | hc
    · exact htake c hc
    · exact hstop
    · exact hrest c hc
  fun_induction areSteps fuel s with
  | case1 => simp
  | case2 => cases h
  | case3 fuel s label head rest hdrop ih =>
      simp only [Bool.and_eq_true, List.all_eq_true] at h
      have hlabel : ∀ c ∈ label, c ≠ '\'' ∧ c ≠ '\\' := by
        intro c hc
        have hchar := h.1.2 c hc
        simp only [isLabelChar, Bool.and_eq_true, bne_iff_ne] at hchar
        exact hchar.1
      exact List.forall_mem_cons.2 ⟨by decide, List.forall_mem_cons.2 ⟨by decide,
        hstep '"' head s rest (by decide) hdrop hlabel (ih h.2)⟩⟩
  | case4 => cases h
  | case5 fuel s hlabel inName ih =>
      rw [Bool.and_eq_true] at h
      refine List.forall_mem_cons.2 ⟨by decide, fun c hc => ?_⟩
      rw [← List.takeWhile_append_dropWhile (p := inName) (l := s), List.mem_append] at hc
      exact hc.elim (hname _ h.1 c) (ih h.2 c)
  | case6 fuel s index head rest hdrop ih =>
      simp only [Bool.and_eq_true, List.all_eq_true] at h
      have hindex : ∀ c ∈ index, c ≠ '\'' ∧ c ≠ '\\' := by
        intro c hc
        constructor <;> rintro rfl <;> exact absurd (h.1.2 _ hc) (by decide)
      exact List.forall_mem_cons.2 ⟨by decide,
        hstep ']' head s rest (by decide) hdrop hindex (ih h.2)⟩
  | case7 => cases h
  | case8 => cases h

/-- A fixed path holds no quote and no backslash. -/
theorem FixedPath.inert (path : FixedPath) : ∀ c ∈ path.text.toList, c ≠ '\'' ∧ c ≠ '\\' := by
  have hvalid := path.valid
  rw [isValid, Bool.and_eq_true] at hvalid
  obtain ⟨-, hsteps⟩ := hvalid
  split at hsteps
  next steps htext =>
    rw [htext]
    exact List.forall_mem_cons.2 ⟨by decide, areSteps_inert hsteps⟩
  next => cases hsteps

/-- A fixed path in its quotes shows no placeholder, although it starts with a dollar sign. -/
theorem FixedPath.ends_quoted (path : FixedPath) (d : Dialect) :
    d.Ends ("'" ++ path.text ++ "'") [] :=
  Dialect.ends_quoted fun c hc => (path.inert c hc).1

end FilterSql
