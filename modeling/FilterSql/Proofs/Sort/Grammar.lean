import FilterSql.Proofs.Text.Parts
import FilterSql.Sort.Basic
import Mathlib.Data.List.Forall2

/-!
# The grammar of written orders

How a text writes an order, without the reader: `SortTerm.Writes` says which terms a part between
two commas writes, with white space wherever it may stand. `SortTerm.ofParts_outcome` is the
statement to read first: the terms of a list of parts are those that its parts write, unless one of
them is a minus alone. What is read is written back by `SortTerm.text` in the shortest way, so
reading it again gives the same terms (`SortTerm.parse_grammar`).
-/

namespace FilterSql.SortTerm

/-! ## Parts -/

/-- A key as it can be written: at least one character, no comma, and no white space around it. -/
structure IsKey (key : List Char) : Prop where
  ne_nil : key ≠ []
  comma : ',' ∉ key
  trimmed : Text.IsTrimmed key

/-- A part writes a term: its key with white space around it, and for a key that goes down a minus
in front, with white space behind it. -/
inductive Writes : List Char → SortTerm → Prop where
  | up {before key after : List Char} (hbefore : Text.Blank before) (hafter : Text.Blank after)
      (hkey : IsKey key) (hminus : key.head? ≠ some '-') :
      Writes (before ++ key ++ after) ⟨String.ofList key, .asc⟩
  | down {before between key after : List Char} (hbefore : Text.Blank before)
      (hbetween : Text.Blank between) (hafter : Text.Blank after) (hkey : IsKey key) :
      Writes (before ++ ('-' :: (between ++ key)) ++ after) ⟨String.ofList key, .desc⟩

/-- A part holds a minus and no key. -/
def LoneMinus (part : List Char) : Prop :=
  ∃ before after, Text.Blank before ∧ Text.Blank after ∧ part = before ++ ['-'] ++ after

variable {part : List Char} {term : SortTerm}

/-- A minus is no white space. -/
theorem minus_not_whiteSpace : ¬Text.IsWhiteSpace '-' := by
  decide

/-- What is left of a part without commas is a key, if anything is. -/
theorem isKey_trim (hcomma : ',' ∉ part) (hne : Text.trim part ≠ []) : IsKey (Text.trim part) := by
  obtain ⟨before, after, -, -, hpart⟩ := Text.exists_trim part
  refine ⟨hne, fun hmem => hcomma ?_, Text.isTrimmed_trim part⟩
  rw [hpart]
  exact List.mem_append_left _ (List.mem_append_right _ hmem)

/-- A part that does not start with a minus is a key that goes up. -/
theorem ofPart_up {key : List Char} (h : key.head? ≠ some '-') :
    ofPart key = .ok ⟨String.ofList key, .asc⟩ := by
  unfold ofPart
  split
  · exact absurd rfl h
  · rfl

/-- A part that starts with a minus and goes on is a key that goes down. -/
theorem ofPart_down {rest : List Char} (h : Text.trim rest ≠ []) :
    ofPart ('-' :: rest) = .ok ⟨String.ofList (Text.trim rest), .desc⟩ := by
  rw [ofPart]
  split
  next hnil => exact absurd hnil h
  next => rfl

/-- A part is a minus alone exactly if it is one without the white space around it. -/
theorem loneMinus_iff : LoneMinus part ↔ Text.trim part = ['-'] := by
  have htrimmed : Text.IsTrimmed ['-'] := by
    constructor <;> simp [minus_not_whiteSpace]
  rw [Text.trim_eq_iff, LoneMinus, and_iff_right htrimmed]

/-- A minus in front of a key is trimmed where the key is. -/
theorem IsKey.isTrimmed_minus {key : List Char} (h : IsKey key) (between : List Char) :
    Text.IsTrimmed ('-' :: (between ++ key)) := by
  constructor
  · simp [minus_not_whiteSpace]
  · intro c hc
    have hlast := List.getLast?_eq_some_getLast h.ne_nil
    rw [← List.cons_append, List.getLast?_append, hlast, Option.some_or] at hc
    exact h.trimmed.last c (hlast.trans hc)

/-- A part that writes a term is read as this term. -/
theorem Writes.ofPart_trim (h : Writes part term) :
    Text.trim part ≠ [] ∧ ofPart (Text.trim part) = .ok term := by
  cases h with
  | up hbefore hafter hkey hminus =>
      rw [Text.trim_surrounded hbefore hafter hkey.trimmed]
      exact ⟨hkey.ne_nil, ofPart_up hminus⟩
  | @down before between key after hbefore hbetween hafter hkey =>
      have hkeyText : Text.trim (between ++ key) = key := by
        simpa using Text.trim_surrounded hbetween Text.blank_nil hkey.trimmed
      rw [Text.trim_surrounded hbefore hafter (hkey.isTrimmed_minus between)]
      refine ⟨List.cons_ne_nil _ _, ?_⟩
      rw [ofPart_down (by rw [hkeyText]; exact hkey.ne_nil), hkeyText]

/-- A part without commas is blank, or holds a minus and no key, or writes a term. -/
theorem part_cases (hcomma : ',' ∉ part) :
    Text.Blank part ∨ LoneMinus part ∨ ∃ term, Writes part term := by
  obtain ⟨before, after, hbefore, hafter, hpart⟩ := Text.exists_trim part
  by_cases hblank : Text.trim part = []
  · exact .inl (Text.trim_eq_nil.1 hblank)
  have hkey := isKey_trim hcomma hblank
  by_cases hminus : (Text.trim part).head? = some '-'
  · obtain ⟨rest, hrest⟩ := List.head?_eq_some_iff.1 hminus
    rw [hrest] at hpart
    -- the white space behind the sign goes, and what is left is the key
    by_cases hlone : Text.trim rest = []
    · refine .inr (.inl ⟨before, rest ++ after, hbefore, ?_, by simp [hpart]⟩)
      exact Text.Blank.append (Text.trim_eq_nil.1 hlone) hafter
    · obtain ⟨between, behind, hbetween, hbehind, hsplit⟩ := Text.exists_trim rest
      have hrestComma : ',' ∉ rest := fun hmem => hcomma (by simp [hpart, hmem])
      have hwrites := Writes.down hbefore hbetween (hbehind.append hafter)
        (isKey_trim hrestComma hlone)
      have heq : part = before ++ ('-' :: (between ++ Text.trim rest)) ++ (behind ++ after) :=
        calc
          part = before ++ ('-' :: (between ++ Text.trim rest ++ behind)) ++ after := by
            rw [← hsplit, hpart]
          _ = before ++ ('-' :: (between ++ Text.trim rest)) ++ (behind ++ after) := by simp
      exact .inr (.inr ⟨_, heq ▸ hwrites⟩)
  · rw [hpart]
    exact .inr (.inr ⟨_, .up hbefore hafter hkey hminus⟩)

/-! ## Lists of parts -/

variable {parts rest : List (List Char)} {terms : List SortTerm}

/-- A blank part is passed over. -/
theorem ofParts_blank (h : Text.Blank part) : ofParts (part :: rest) = ofParts rest := by
  rw [ofParts, Text.trim_eq_nil.2 h]

/-- A minus alone ends the reading with an error. -/
theorem ofParts_loneMinus (h : LoneMinus part) :
    ofParts (part :: rest) = .error (.unknownKey "-") := by
  rw [ofParts, loneMinus_iff.1 h]
  rfl

/-- A part that writes a term is read as the term. -/
theorem Writes.ofParts_cons (h : Writes part term) :
    ofParts (part :: rest) = (ofParts rest).map (term :: ·) := by
  obtain ⟨hne, hterm⟩ := h.ofPart_trim
  rw [ofParts]
  split
  next hnil => exact absurd hnil hne
  next =>
    rw [hterm]
    cases ofParts rest <;> rfl

/-- A part that writes a term is not blank. -/
theorem Writes.not_blank (h : Writes part term) : ¬Text.Blank part :=
  fun hblank => h.ofPart_trim.1 (Text.trim_eq_nil.2 hblank)

/-- A part that writes a term is no minus alone. -/
theorem Writes.not_loneMinus (h : Writes part term) : ¬LoneMinus part := by
  intro hlone
  have hterm := h.ofPart_trim.2
  rw [loneMinus_iff.1 hlone] at hterm
  cases hterm

/-- A minus alone is not blank. -/
theorem LoneMinus.not_blank (h : LoneMinus part) : ¬Text.Blank part := by
  intro hblank
  have hnil := Text.trim_eq_nil.2 hblank
  rw [loneMinus_iff.1 h] at hnil
  cases hnil

/-- The parts that are not blank each write a term, unless one of them is a minus alone. -/
theorem ofParts_outcome (hcomma : ∀ part ∈ parts, ',' ∉ part) :
    (∃ terms, ofParts parts = .ok terms ∧
        List.Forall₂ Writes (parts.filter fun part => ¬Text.Blank part) terms ∧
        ∀ part ∈ parts, ¬LoneMinus part) ∨
      ofParts parts = .error (.unknownKey "-") ∧ ∃ part ∈ parts, LoneMinus part := by
  induction parts with
  | nil => exact .inl ⟨[], rfl, .nil, by simp⟩
  | cons part rest ih =>
      obtain ⟨hpart, hrest⟩ := List.forall_mem_cons.1 hcomma
      specialize ih hrest
      rcases part_cases hpart with hblank | hlone | ⟨term, hwrites⟩
      · have hnotLone : ¬LoneMinus part := fun hlone => hlone.not_blank hblank
        rw [ofParts_blank hblank, List.filter_cons_of_neg (by simpa using hblank)]
        simpa [hnotLone] using ih
      · exact .inr ⟨ofParts_loneMinus hlone, part, List.mem_cons_self, hlone⟩
      · rw [hwrites.ofParts_cons, List.filter_cons_of_pos (by simpa using hwrites.not_blank)]
        rcases ih with ⟨terms, hterms, heach, hnone⟩ | ⟨herror, lone, hmem, hlone⟩
        · exact .inl ⟨term :: terms, by rw [hterms]; rfl, .cons hwrites heach,
            List.forall_mem_cons.2 ⟨hwrites.not_loneMinus, hnone⟩⟩
        · exact .inr ⟨by rw [herror]; rfl, lone, List.mem_cons_of_mem _ hmem, hlone⟩

/-- There are no terms exactly if all parts are blank. -/
theorem terms_eq_nil_iff
    (h : List.Forall₂ Writes (parts.filter fun part => ¬Text.Blank part) terms) :
    terms = [] ↔ ∀ part ∈ parts, Text.Blank part := by
  rw [← List.length_eq_zero_iff, ← h.length_eq, List.length_eq_zero_iff]
  simp

/-- Parts that write terms are read as the terms. -/
theorem ofParts_of_writes (h : List.Forall₂ Writes parts terms) : ofParts parts = .ok terms := by
  induction h with
  | nil => rfl
  | cons hwrites _ ih =>
      rw [hwrites.ofParts_cons, ih]
      rfl

/-! ## Terms as they are written back -/

/-- The key of a written term can be written. -/
theorem Writes.isKey (h : Writes part term) : IsKey term.key.toList := by
  cases h with
  | up _ _ hkey _ => simpa using hkey
  | down _ _ _ hkey => simpa using hkey

/-- A term that is read is written back as a part that writes it. -/
theorem Writes.text (h : Writes part term) : Writes term.text.toList term := by
  have hnil := Text.blank_nil
  cases h with
  | up _ _ hkey hminus => simpa [SortTerm.text] using Writes.up hnil hnil hkey hminus
  | down _ _ _ hkey => simpa [SortTerm.text] using Writes.down hnil hnil hnil hkey

/-- Each term that is written is written by its own text. -/
theorem writes_text (h : List.Forall₂ Writes parts terms) :
    ∀ term ∈ terms, Writes term.text.toList term := by
  induction h with
  | nil => simp
  | cons hwrites _ ih => exact List.forall_mem_cons.2 ⟨hwrites.text, ih⟩

/-- The text of a term has no comma. -/
theorem IsKey.comma_text (h : IsKey term.key.toList) : ',' ∉ term.text.toList := by
  have hcomma := h.comma
  obtain ⟨key, direction⟩ := term
  cases direction <;> simpa [SortTerm.text] using hcomma

/-! ## Texts -/

variable {text : String}

/-- A text is read as the terms of its parts, of which there has to be one. -/
theorem parse_eq_ok_iff : parse text = .ok terms ↔
    ofParts (Text.splitOn ',' text.toList) = .ok terms ∧ terms ≠ [] := by
  unfold parse
  cases ofParts (Text.splitOn ',' text.toList) with
  | error e => exact ⟨nofun, nofun⟩
  | ok read =>
    cases read with
    | nil => exact ⟨nofun, fun h => absurd (Except.ok.inj h.1).symm h.2⟩
    | cons term rest =>
      constructor
      · intro h
        cases h
        exact ⟨rfl, List.cons_ne_nil _ _⟩
      · rintro ⟨h, -⟩
        cases h
        rfl

/-- A text is refused as its parts are. -/
theorem parse_eq_error {e : SortError} (h : ofParts (Text.splitOn ',' text.toList) = .error e) :
    parse text = .error e := by
  rw [parse, h]
  rfl

/-- A text is refused because all its parts are blank, is refused because one of them is a minus
alone, or writes a term with each part that is not blank. -/
theorem parse_outcome (hparts : Text.splitOn ',' text.toList = parts) :
    (parse text = .error .emptySort ∧ ∀ part ∈ parts, Text.Blank part) ∨
      (parse text = .error (.unknownKey "-") ∧ ∃ part ∈ parts, LoneMinus part) ∨
      ∃ terms, parse text = .ok terms ∧ (∃ part ∈ parts, ¬Text.Blank part) ∧
        (∀ part ∈ parts, ¬LoneMinus part) ∧
        List.Forall₂ Writes (parts.filter fun part => ¬Text.Blank part) terms := by
  subst hparts
  rcases ofParts_outcome fun _ => Text.not_mem_of_mem_splitOn with
    ⟨terms, hterms, heach, hnone⟩ | ⟨herror, hlone⟩
  · by_cases hblank : ∀ part ∈ Text.splitOn ',' text.toList, Text.Blank part
    · obtain rfl := (terms_eq_nil_iff heach).2 hblank
      refine .inl ⟨?_, hblank⟩
      rw [parse, hterms]
      rfl
    · have hne := mt (terms_eq_nil_iff heach).1 hblank
      push Not at hblank
      exact .inr (.inr ⟨terms, parse_eq_ok_iff.2 ⟨hterms, hne⟩, hblank, hnone, heach⟩)
  · exact .inr (.inl ⟨parse_eq_error herror, hlone⟩)

/-- Terms that are read are read again from what they are written back as. -/
theorem parse_join_text (hne : terms ≠ []) (h : List.Forall₂ Writes parts terms) :
    parse (Text.join "," (terms.map SortTerm.text)) = .ok terms := by
  have htexts := writes_text h
  have hcomma : ∀ text ∈ terms.map SortTerm.text, ',' ∉ text.toList := by
    intro text htext
    obtain ⟨term, hterm, rfl⟩ := List.mem_map.1 htext
    exact (htexts term hterm).isKey.comma_text
  rw [parse_eq_ok_iff, Text.splitOn_join ',' "," rfl (by simpa using hne) hcomma, List.map_map]
  refine ⟨ofParts_of_writes ?_, hne⟩
  rw [List.forall₂_map_left_iff, List.forall₂_same]
  exact htexts

/-- A text is the parts between its commas. It writes no order where all of them are blank, is
refused where one of them is a minus alone, and otherwise writes a term with each part that is not
blank; these terms are read again from what they are written back as. -/
theorem parse_grammar (text : String) :
    ∃ parts : List (List Char), parts ≠ [] ∧ (∀ part ∈ parts, ',' ∉ part) ∧
      [','].intercalate parts = text.toList ∧
      (parse text = .error .emptySort ↔ ∀ part ∈ parts, Text.Blank part) ∧
      (parse text = .error (.unknownKey "-") ↔ ∃ part ∈ parts, LoneMinus part) ∧
      ((∃ terms, parse text = .ok terms) ↔
        (∃ part ∈ parts, ¬Text.Blank part) ∧ ∀ part ∈ parts, ¬LoneMinus part) ∧
      ∀ terms, parse text = .ok terms →
        List.Forall₂ Writes (parts.filter fun part => ¬Text.Blank part) terms ∧
        (∀ term ∈ terms, IsKey term.key.toList) ∧
        parse (Text.join "," (terms.map SortTerm.text)) = .ok terms := by
  have hcomma : ∀ part ∈ Text.splitOn ',' text.toList, ',' ∉ part :=
    fun _ => Text.not_mem_of_mem_splitOn
  refine ⟨Text.splitOn ',' text.toList, Text.splitOn_ne_nil _ _, hcomma, ?_, ?_⟩
  · rw [Text.splitOn_eq, List.intercalate_splitOn]
  rcases parse_outcome rfl with
    ⟨hparse, hblank⟩ | ⟨hparse, hlone⟩ | ⟨terms, hparse, hterm, hnone, heach⟩ <;> rw [hparse]
  · refine ⟨iff_of_true rfl hblank, iff_of_false nofun ?_, iff_of_false nofun ?_, nofun⟩
    · rintro ⟨part, hpart, hlone⟩
      exact hlone.not_blank (hblank part hpart)
    · rintro ⟨⟨part, hpart, hnot⟩, -⟩
      exact hnot (hblank part hpart)
  · obtain ⟨part, hpart, hlone⟩ := hlone
    refine ⟨iff_of_false nofun fun hblank => hlone.not_blank (hblank part hpart),
      iff_of_true rfl ⟨part, hpart, hlone⟩, iff_of_false nofun fun h => h.2 part hpart hlone, nofun⟩
  · refine ⟨iff_of_false nofun ?_, iff_of_false nofun ?_, iff_of_true ⟨terms, rfl⟩ ⟨hterm, hnone⟩,
      ?_⟩
    · obtain ⟨part, hpart, hnot⟩ := hterm
      exact fun hblank => hnot (hblank part hpart)
    · rintro ⟨part, hpart, hlone⟩
      exact hnone part hpart hlone
    · intro read hread
      cases hread
      exact ⟨heach, fun term hterm => (writes_text heach term hterm).isKey,
        parse_join_text (parse_eq_ok_iff.1 hparse).2 heach⟩

/-- Only the first minus is a sign. -/
example : parse "- -a, ,b" = .ok [⟨"-a", .desc⟩, ⟨"b", .asc⟩] := by decide

end FilterSql.SortTerm
