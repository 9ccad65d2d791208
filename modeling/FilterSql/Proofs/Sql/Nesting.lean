import FilterSql.Proofs.Basic
import FilterSql.Proofs.Sql.Clauses
import FilterSql.Proofs.Sql.Parts
import FilterSql.Proofs.Sql.Tokens

/-!
# Quotes and parentheses in rendered text

Every text that is rendered closes its quotes and its parentheses, and the text of an expression
keeps the words `AND`, `OR` and `NOT` in parentheses, as long as no name is one of them and the
texts of the statement's author do the same. The text of a single test keeps `AND` and `OR` in
parentheses.

`Render.Gives` is what is shown of every step of rendering, with one rule for each way of putting
steps together; the pieces that a dialect writes are taken one by one before.
-/

namespace FilterSql

namespace Dialect

variable {d : Dialect} {r : Reserved} {s t : String}

/-! ## Words, numbers and quoted texts -/

/-- A word that is not reserved. -/
theorem nests_word (hs : s.toList ≠ []) (h : ∀ c ∈ s.toList, Token.isWordChar c = true)
    (hfree : r.holds (.word s.toList) = false) : d.Nests r s 0 0 := by
  obtain ⟨hclosed, hword⟩ := d.tokens_word hs h
  refine ⟨hclosed, ?_⟩
  rw [hword, Reserved.depth_cons, Reserved.step_of_free (by simp) (by simp) hfree]
  rfl

/-- A digit has no lower case. -/
theorem toLower_of_isDigit {c : Char} (h : c.isDigit = true) : c.toLower = c := by
  simp only [Char.isDigit, Bool.and_eq_true, decide_eq_true_eq] at h
  refine dif_neg fun hupper => ?_
  exact absurd (Nat.le_trans hupper.1 h.2) (by decide)

/-- The first letter of a reserved word. -/
theorem holds_of_head {c : Char} {chars : List Char} (h : c.toLower ∉ ['a', 'o', 'n']) :
    r.holds (.word (c :: chars)) = false := by
  have hoperators : Reserved.operators.holds (.word (c :: chars)) = false := by
    simp only [List.mem_cons, List.not_mem_nil, or_false, not_or] at h
    simp [Reserved.holds, Reserved.words, Token.isWord, h]
  exact Bool.eq_false_iff.2 fun hr => absurd (r.le_operators _ hr) (by simp [hoperators])

/-- A digit is a character of words. -/
theorem isWordChar_of_isDigit {c : Char} (h : c.isDigit = true) : Token.isWordChar c = true := by
  simp [Token.isWordChar, Char.isAlphanum, h]

/-- The text of a number holds digits only. -/
theorem isDigit_of_mem_natText {n : Nat} {c : Char} (h : c ∈ (Json.natText n).toList) :
    c.isDigit = true := by
  rw [Json.natText, String.toList_ofList] at h
  exact Nat.isDigit_of_mem_toDigits (by decide) (by decide) h

/-- The text of a number is closed and holds no reserved word. -/
theorem nests_natText (n : Nat) : d.Nests r (Json.natText n) 0 0 := by
  have hne : (Json.natText n).toList ≠ [] := by
    rw [Json.natText, String.toList_ofList]
    exact Nat.toDigits_ne_nil
  refine nests_word hne (fun c hc => isWordChar_of_isDigit (isDigit_of_mem_natText hc)) ?_
  obtain ⟨c, rest, hrest⟩ := List.exists_cons_of_ne_nil hne
  have hc : c.isDigit = true := isDigit_of_mem_natText (n := n) (by simp [hrest])
  rw [hrest]
  refine holds_of_head fun hmem => ?_
  rw [toLower_of_isDigit hc, List.mem_cons, List.mem_cons, List.mem_singleton] at hmem
  rcases hmem with rfl | rfl | rfl <;> exact absurd hc (by decide)

/-- A placeholder is closed and holds no reserved word. -/
theorem nests_placeholder (n : Nat) : d.Nests r (d.placeholder n) 0 0 := by
  cases d with
  | mysql =>
      have hmark : isNested .operators 0 0 "?" = true := by decide
      exact (isNested_nests hmark).mono r.le_operators
  | sqlite => exact (nests_natText n).after (by decide)
  | postgres =>
      have htext : ("$" ++ Json.natText n).toList = '$' :: (Json.natText n).toList := by simp
      refine nests_word ?_ ?_ ?_ <;> rw [placeholder, htext]
      · simp
      · exact List.forall_mem_cons.2
          ⟨by decide, fun c hc => isWordChar_of_isDigit (isDigit_of_mem_natText hc)⟩
      · exact holds_of_head (by decide)

/-- Within quotes every character is taken as it is. -/
theorem tokens_quoted {s : List Char} (h : ∀ c ∈ s, c ≠ '\'' ∧ c ≠ '\\') (rest : List Char) :
    d.tokens (.quoted '\'') (s ++ rest) = s.map .quoted ++ d.tokens (.quoted '\'') rest ∧
      d.modeAfter (.quoted '\'') (s ++ rest) = d.modeAfter (.quoted '\'') rest := by
  induction s with
  | nil => exact ⟨rfl, rfl⟩
  | cons c s ih =>
      obtain ⟨⟨hquote, hescape⟩, hs⟩ := List.forall_mem_cons.1 h
      have hnext : d.next (.quoted '\'') c = .quoted '\'' := by simp [next, hquote, hescape]
      obtain ⟨htokens, hmode⟩ := ih hs
      rw [List.cons_append, tokens, if_neg (by simp), hnext, htokens, modeAfter, List.foldl_cons,
        hnext]
      exact ⟨rfl, hmode⟩

/-- Within quotes there are no parentheses. -/
theorem depth_quoted (s : List Char) (i : Nat) : r.depth i (s.map .quoted) = some i := by
  induction s with
  | nil => rfl
  | cons c s ih =>
      have hfree : r.holds (.quoted c) = false := by cases r <;> rfl
      rw [List.map_cons, Reserved.depth_cons, Reserved.step_of_free (by simp) (by simp) hfree,
        Option.bind_some, ih]

/-- A text in quotes. -/
theorem stops_quoted (h : ∀ c ∈ s.toList, c ≠ '\'' ∧ c ≠ '\\') :
    d.Stops r ("'" ++ s ++ "'") 0 0 := by
  have htext : ("'" ++ s ++ "'").toList = '\'' :: (s.toList ++ ['\'']) := by simp
  obtain ⟨htokens, hmode⟩ := d.tokens_quoted h ['\'']
  have hopen : d.next .plain '\'' = .quoted '\'' := rfl
  have hclose : d.tokens (.quoted '\'') ['\''] = ['\''].map .quoted := rfl
  refine ⟨⟨?_, ?_⟩, ?_⟩ <;> rw [htext]
  · exact hmode
  · rw [tokens, hopen, if_neg (by simp), htokens, hclose, ← List.map_append, ← List.map_cons,
      depth_quoted]
  · rw [← List.cons_append, endsInWord_append (by simp)]
    rfl

/-! ## Lists of texts -/

variable {texts more : List String}

/-- Texts with a separator between each two of them. -/
theorem nests_join {r' : Reserved} (hr : r ≤ r') {separator : String}
    (hseparator : isBetween r' 0 0 separator = true) (h : ∀ text ∈ texts, d.Nests r text 0 0) :
    d.Nests r (Text.join separator texts) 0 0 := by
  induction texts with
  | nil => exact nests_empty
  | cons text texts ih =>
      obtain ⟨htext, htexts⟩ := List.forall_mem_cons.1 h
      cases texts with
      | nil => exact htext
      | cons next rest => exact (htext.close_of_le hr hseparator).append (ih htexts)

/-- A text that may be empty and can stand behind every other. -/
structure NestsClause (d : Dialect) (r : Reserved) (text : String) : Prop where
  nests : d.Nests r text 0 0
  apart : startsInWord text.toList = false

/-- No text at all is a clause. -/
theorem NestsClause.nothing : d.NestsClause r "" := ⟨nests_empty, rfl⟩

/-- A clause may stand behind every text. -/
theorem Nests.clause (hs : d.Nests r s 0 0) (ht : d.NestsClause r t) : d.Nests r (s ++ t) 0 0 :=
  nests_append hs ht.nests (.inr ht.apart)

/-- A clause of a separator and what stands behind it. -/
theorem Nests.behind (ht : d.Nests r t 0 0) (hs : isBetween .operators 0 0 s = true) :
    d.NestsClause r (s ++ t) := by
  simp only [isBetween, Bool.and_eq_true, Bool.not_eq_true'] at hs
  obtain ⟨⟨hhead, hstart⟩, hne⟩ := hs
  refine ⟨ht.after hhead, ?_⟩
  obtain ⟨c, rest, htext⟩ := List.exists_cons_of_ne_nil (l := s.toList) (by simpa using hne)
  rw [String.toList_append, htext, List.cons_append]
  rwa [htext] at hstart

/-- Texts with a blank before each of them. -/
theorem nests_blanks (h : ∀ text ∈ texts, d.Nests r text 0 0) :
    d.NestsClause r (String.join (texts.map (" " ++ ·))) := by
  induction texts with
  | nil => exact .nothing
  | cons text texts ih =>
      obtain ⟨htext, htexts⟩ := List.forall_mem_cons.1 h
      rw [List.map_cons, String.join_cons, String.append_assoc]
      exact (htext.clause (ih htexts)).behind (by decide)

/-- Each placeholder of a list is closed. -/
theorem nests_placeholders (first : Nat) (values : List Value) :
    ∀ text ∈ d.placeholders first values, d.Nests r text 0 0 := by
  induction values generalizing first with
  | nil => simp [placeholders]
  | cons v rest ih => exact List.forall_mem_cons.2 ⟨nests_placeholder first, ih (first + 1)⟩

/-! ## Fragments of a dialect -/

variable {field : String} {first : Nat} {values : List Value}

/-- The texts for true and false are closed. -/
theorem nests_boolText (b : Bool) : d.Nests r (d.boolText b) 0 0 := by
  cases d <;> cases b <;> exact (isNested_nests (by decide)).mono r.le_operators

/-- A text in parentheses behind another one. -/
theorem nests_list {r' : Reserved} {before : String} (hs : d.Nests r s 0 0) (hr : r ≤ r')
    (hbefore : isBetween r' 0 1 before = true) (ht : d.Nests r t 0 0) :
    d.Nests r (s ++ before ++ t ++ ")") 0 0 :=
  ((hs.close_of_le hr hbefore).append ht.lift).finish (by decide)

/-- The placeholders of a list are closed when they are joined. -/
theorem nests_joinPlaceholders (first : Nat) (values : List Value) :
    d.Nests r (Text.join ", " (d.placeholders first values)) 0 0 :=
  nests_join r.le_operators (by decide) (nests_placeholders first values)

/-- The test for a list is closed where the tested text is. -/
theorem nests_isIn (h : d.Nests r field 0 0) : d.Nests r (d.isIn field values first).1 0 0 := by
  cases d with
  | postgres =>
      rw [postgres_isIn]
      exact nests_list h r.le_operators (by decide) (nests_placeholder first)
  | mysql => exact nests_list h r.le_operators (by decide) (nests_joinPlaceholders first values)
  | sqlite => exact nests_list h r.le_operators (by decide) (nests_joinPlaceholders first values)

/-- The test against a list is closed where the tested text is. It holds the word `NOT`, which is
free beside the connectives. -/
theorem nests_isNotIn (hr : r ≤ .connectives) (h : d.Nests r field 0 0) :
    d.Nests r (d.isNotIn field values first).1 0 0 := by
  cases d with
  | postgres =>
      rw [postgres_isNotIn]
      exact nests_list h r.le_operators (by decide) (nests_placeholder first)
  | mysql => exact nests_list h hr (by decide) (nests_joinPlaceholders first values)
  | sqlite => exact nests_list h hr (by decide) (nests_joinPlaceholders first values)

/-- Null-safe equality is closed where both sides are. In Postgres it holds the word `NOT`. -/
theorem nests_nullSafeEq (hr : r ≤ .connectives) (hs : d.Nests r s 0 0) (ht : d.Nests r t 0 0) :
    d.Nests r (d.nullSafeEq s t) 0 0 := by
  have hisNot : isBetween .connectives 0 0 " IS NOT DISTINCT FROM " = true := by decide
  cases d with
  | mysql => exact (hs.close (by decide)).append ht
  | postgres => exact (hs.close_of_le hr hisNot).append ht
  | sqlite => exact (hs.close (by decide)).append ht

/-- Taking a part of a document is closed where the document and the path are. -/
theorem nests_jsonExtract (hs : d.Nests r s 0 0) (ht : d.Nests r t 0 0) :
    d.Nests r (d.jsonExtract s t) 0 0 := by
  cases d <;>
    exact hs.lift.call ht.lift (by decide) (by decide) (by decide)

/-- Reading a part of a document as text is closed where the part is. -/
theorem nests_jsonUnquote (hs : d.Nests r s 0 0) : d.Nests r (d.jsonUnquote s) 0 0 := by
  cases d with
  | mysql => exact hs.lift.wrap (by decide) (by decide)
  | postgres => exact hs.lift.wrap (by decide) (by decide)
  | sqlite => exact hs

/-- The test for a JSON null is closed where the tested text is. -/
theorem nests_jsonNullTest (hs : d.Nests r s 0 0) :
    d.Nests r ((d.jsonNullTest? s).getD (s ++ " IS NULL")) 0 0 := by
  cases d <;> exact hs.finish (by decide)

/-- Reading a text from a document is closed where the document and the path are. -/
theorem nests_jsonString (hs : d.Nests r s 0 0) (ht : d.Nests r t 0 0) :
    d.Nests r (d.jsonString s t) 0 0 := by
  have hvalue : d.Nests r (d.jsonExtract s t) 0 0 := nests_jsonExtract hs ht
  have hunquoted : d.Nests r (d.jsonUnquote (d.jsonExtract s t)) 0 0 := nests_jsonUnquote hvalue
  cases d with
  | mysql =>
      exact hvalue.lift.call hunquoted (by decide) (by decide) (by decide)
  | postgres =>
      exact hvalue.lift.call hunquoted (by decide) (by decide) (by decide)
  | sqlite =>
      exact (((((hs.lift.after (by decide)).close (by decide)).append ht.lift).close
        (by decide)).append hvalue).finish (by decide)

/-- In MySQL the test in lower case ends with `IS NOT NULL`. -/
theorem nests_arrayContains (hr : r ≤ .connectives) (foldCase : Bool) (hs : d.Nests r s 0 0)
    (ht : d.Nests r t 0 0) : d.Nests r (d.arrayContains s t foldCase) 0 0 := by
  have hisNot : isTail .connectives 1 0 ") IS NOT NULL" = true := by decide
  cases d <;> cases foldCase
  case mysql.true =>
    exact (((hs.lift.lift.after (by decide)).close (by decide)).append ht.lift).finish_of_le hr
      hisNot
  case mysql.false =>
    exact hs.lift.call ht.lift (by decide) (by decide) (by decide)
  case postgres.false => exact ((hs.close (by decide)).append ht).finish (by decide)
  all_goals
    exact hs.lift.lift.call ht.lift (by decide) (by decide) (by decide)

/-- The test for a common element is closed where both sides are. -/
theorem nests_overlaps (hs : d.Nests r s 0 0) (ht : d.Nests r t 0 0) :
    d.Nests r (d.overlaps s t) 0 0 := by
  cases d with
  | mysql =>
      exact hs.lift.call ht.lift (by decide) (by decide) (by decide)
  | postgres =>
      exact hs.lift.lift.call ht.lift.lift (by decide) (by decide) (by decide)
  | sqlite =>
      exact hs.lift.lift.call ht.lift.lift (by decide) (by decide) (by decide)

/-- Only SQLite names the backslash as the escape of the pattern, and there it escapes nothing in
a literal. -/
theorem nests_like (hr : r ≤ .connectives) (negated : Bool) (hs : d.Nests r s 0 0)
    (ht : d.Nests r t 0 0) : d.Nests r (d.like s t negated) 0 0 := by
  have hnotLike : isBetween .connectives 0 0 " NOT LIKE " = true := by decide
  have hboth : d.Nests r (s ++ (if negated then " NOT LIKE " else " LIKE ") ++ t) 0 0 := by
    cases negated with
    | true => exact (hs.close_of_le hr hnotLike).append ht
    | false => exact (hs.close (by decide)).append ht
  cases d with
  | mysql => simpa [like] using hboth
  | postgres => simpa [like] using hboth
  | sqlite =>
      have hescape : sqlite.Nests .operators " ESCAPE '\\'" 0 0 := ⟨by decide, by decide⟩
      exact nests_append hboth (hescape.mono r.le_operators) (.inr rfl)

/-- A term of an order is closed where its expression is. -/
theorem nests_nullsOrder (direction : Direction) (hs : d.Nests r s 0 0) :
    d.Nests r (s ++ " " ++ direction.keyword ++ d.nullsOrder direction) 0 0 := by
  have hkeyword : d.Nests r direction.keyword 0 0 := by
    cases direction <;> exact (isNested_nests (by decide)).mono r.le_operators
  have hdirection := (hs.close (t := " ") (by decide)).append hkeyword
  cases d <;> cases direction <;> exact hdirection.finish (by decide)

/-- The hint that bounds the time of a statement is closed, and another text may follow it. -/
theorem nests_timeoutHint (milliseconds : Nat) {hint : String}
    (h : d.timeoutHint? milliseconds = some hint) : d.Stops r hint 0 0 := by
  cases d <;> cases h
  exact ((nests_natText milliseconds).lift.after (by decide)).close (by decide)

end Dialect

/-! ## Names -/

namespace Identifier

/-- A name is none of the words that combine conditions. -/
def NoOperator (name : Identifier) : Prop :=
  Reserved.operators.holds (.word name.text.toList) = false

/-- Whether a name is one of the words is decided by looking at it. -/
instance (name : Identifier) : Decidable name.NoOperator :=
  inferInstanceAs (Decidable (_ = _))

variable {d : Dialect} {r : Reserved}

/-- A character of a name is a character of words. -/
theorem isWordChar_of_isTail {c : Char} (h : isTail c = true) : Token.isWordChar c = true := by
  simp only [isTail, isHead, Bool.or_eq_true, Bool.and_eq_true, decide_eq_true_eq] at h
  have hbetween {lower upper : UInt32} (hc : lower ≤ c.val ∧ c.val ≤ upper) :
      (decide (lower ≤ c.val) && decide (c.val ≤ upper)) = true := by
    simp [hc]
  rw [Token.isWordChar, Char.isAlphanum]
  simp only [Bool.or_eq_true, beq_iff_eq]
  obtain ((hlower | hupper) | hunderscore) | hdigit := h
  · exact .inl (.inl (.inl (.inl (Bool.or_eq_true_iff.2 (.inr (hbetween hlower))))))
  · exact .inl (.inl (.inl (.inl (Bool.or_eq_true_iff.2 (.inl (decide_eq_true hupper))))))
  · exact .inl (.inl (.inr hunderscore))
  · exact .inl (.inl (.inl (.inr (hbetween hdigit))))

/-- A name that is not reserved is closed. -/
theorem nests (name : Identifier) (h : r.holds (.word name.text.toList) = false) :
    d.Nests r name.text 0 0 := by
  refine Dialect.nests_word ?_ (fun c hc => isWordChar_of_isTail (name.isTail_of_mem c hc)) h
  intro hempty
  have hvalid := name.valid
  simp [hempty, isValid] at hvalid

/-- A name that is none of the words is closed. -/
theorem NoOperator.nests {name : Identifier} (h : name.NoOperator) : d.Nests r name.text 0 0 :=
  (Identifier.nests name h).mono r.le_operators

/-- A name is closed where no words are reserved. -/
theorem nests_nothing (name : Identifier) : d.Nests .nothing name.text 0 0 :=
  name.nests rfl

end Identifier

/-- The name of a column and that of its table combine no conditions. -/
def Column.NoOperator (c : Column) : Prop :=
  c.name.NoOperator ∧ ∀ table, c.qualifier = .named table → table.NoOperator

/-- What is asked of the parts of a tree: no column is called as one of the words that combine
conditions, and the texts of the statement's author keep these words in parentheses. -/
def Part.Orderly (d : Dialect) : Part → Prop
  | .expr (.column c) => c.NoOperator
  | .expr (.jsonString c _) => c.NoOperator
  | .expr (.keyword text) => d.Nests .operators text 0 0
  | .expr (.cast _ type) => d.Nests .operators type 0 0
  | _ => True

/-- The tables that columns are qualified with nest. -/
structure Namespaces.Nests (d : Dialect) (r : Reserved) (n : Namespaces) : Prop where
  own : ∀ table, n.own = some table → d.Nests r table 0 0
  enclosing : ∀ table, n.enclosing = some table → d.Nests r table 0 0

/-- Columns are qualified with names that combine no conditions. -/
structure Namespaces.NoOperator (n : Namespaces) : Prop where
  own : ∀ table, n.own = some table →
    ∃ name : Identifier, name.text = table ∧ name.NoOperator
  enclosing : ∀ table, n.enclosing = some table →
    ∃ name : Identifier, name.text = table ∧ name.NoOperator

variable {d : Dialect} {r : Reserved} {n : Namespaces}

/-- Where no namespaces are given, none is one of the words. -/
theorem Namespaces.noOperator_none : Namespaces.none.NoOperator :=
  ⟨by rintro _ ⟨⟩, by rintro _ ⟨⟩⟩

/-- Namespaces that are none of the words are closed. -/
theorem Namespaces.NoOperator.nests (h : n.NoOperator) : n.Nests d r where
  own table htable := by
    obtain ⟨name, rfl, hname⟩ := h.own table htable
    exact hname.nests
  enclosing table htable := by
    obtain ⟨name, rfl, hname⟩ := h.enclosing table htable
    exact hname.nests

/-- Namespaces that are closed for more reserved words are so for fewer. -/
theorem Namespaces.Nests.mono {r' : Reserved} (h : n.Nests d r') (hr : r ≤ r') : n.Nests d r :=
  ⟨fun table htable => (h.own table htable).mono hr,
    fun table htable => (h.enclosing table htable).mono hr⟩

/-- Inside a statement nothing is asked of the names. -/
theorem Namespaces.Nests.inside {own : Option String} (h : n.Nests d r)
    (hown : ∀ table, own = some table → d.Nests .nothing table 0 0) :
    (n.inside own).Nests d .nothing :=
  ⟨hown, (h.mono r.nothing_le).own⟩

/-- The namespace of a table is closed. -/
theorem Table.nests_namespaceText (t : Table) : d.Nests .nothing t.namespaceText 0 0 :=
  (t.asName.getD t.name).nests_nothing

/-- The text of a table is closed. -/
theorem Table.nests_text (t : Table) : d.Nests .nothing t.text 0 0 := by
  unfold Table.text
  cases t.asName with
  | none => exact t.name.nests_nothing
  | some asName => exact (t.name.nests_nothing.close (by decide)).append asName.nests_nothing

/-! ## Steps of rendering -/

namespace Render

variable {α β : Type} {x : Render α} {f : α → Render β} {P : α → Prop} {Q : β → Prop}

/-- What a step of rendering gives has a property. -/
def Gives (x : Render α) (P : α → Prop) : Prop :=
  ∀ bound a bound', StateT.run x bound = .ok (a, bound') → P a

/-- A result with the property has it. -/
theorem Gives.pure {a : α} (h : P a) : Gives (pure a : Render α) P := by
  rintro bound _ _ ⟨⟩
  exact h

/-- A step that fails gives nothing without the property. -/
theorem Gives.throw {e : RenderError} : Gives (throw e : Render α) P := by
  rintro bound _ _ ⟨⟩

/-- A result that is known before rendering has the property where it has it. -/
theorem Gives.lift {result : Except RenderError α} (h : ∀ a, result = .ok a → P a) :
    Gives (liftM result : Render α) P := by
  intro bound a bound' hrun
  cases result with
  | error e => cases hrun
  | ok b =>
      cases hrun
      exact h a rfl

/-- A step gives what the steps behind it give for the results that it can have. -/
theorem Gives.bind (hx : Gives x P) (hf : ∀ a, P a → Gives (f a) Q) : Gives (x >>= f) Q := by
  intro bound b bound' hrun
  obtain ⟨⟨a, mid⟩, hx', hf'⟩ := bind_eq_ok.1 hrun
  exact hf a (hx bound a mid hx') mid b bound' hf'

/-- The property of the result of a function is shown on its arguments. -/
theorem Gives.map {g : α → β} (hx : Gives x P) (hg : ∀ a, P a → Q (g a)) :
    Gives (do return g (← x)) Q :=
  hx.bind fun a ha => .pure (hg a ha)

/-- A property that is shown may be weakened. -/
theorem Gives.imp {Q : α → Prop} (hx : Gives x P) (h : ∀ a, P a → Q a) : Gives x Q :=
  fun bound a bound' hrun => h a (hx bound a bound' hrun)

/-- The placeholder of a value that is bound is closed. -/
theorem gives_bind (value : Value) : Gives (Render.bind d value) (d.Nests r · 0 0) := by
  rintro bound _ _ ⟨⟩
  exact Dialect.nests_placeholder _

/-- A fragment with placeholders has a property that it has from every number on. -/
theorem gives_bindAll {fragment : Nat → String × List Value} {P : String → Prop}
    (h : ∀ first, P (fragment first).1) : Gives (bindAll fragment) P := by
  rintro bound _ _ ⟨⟩
  exact h (bound.size + 1)

end Render

/-! ## Rendering -/

/-- Whether a condition is a single test: it is put together from no others, it is not settled, and
no `NOT` stands before it. -/
def Condition.isTest : Condition → Bool
  | .requires _ | .joined _ _ | .all _ | .any _ | .not _ => false
  | .oneOf _ [] _ => false
  | .exists _ true => false
  | _ => true

/-- The text of a column is closed where its names are none of the words. -/
theorem Column.render_nests (hn : n.Nests d r) {c : Column} (hc : c.NoOperator) :
    Render.Gives (liftM (c.render n) : Render String) (d.Nests r · 0 0) := by
  have hqualified : ∀ table, d.Nests r table 0 0 → d.Nests r (table ++ "." ++ c.name.text) 0 0 :=
    fun table htable => (htable.close (by decide)).append hc.1.nests
  refine Render.Gives.lift fun text htext => ?_
  unfold Column.render at htext
  split at htext
  · split at htext
    next table htable =>
      cases htext
      exact hqualified table (hn.own table htable)
    next =>
      cases htext
      exact hc.1.nests
  · split at htext
    next table htable =>
      cases htext
      exact hqualified table (hn.enclosing table htable)
    next => cases htext
  next table hqualifier =>
    cases htext
    exact hqualified _ (hc.2 table hqualifier).nests

/-- A path that is written out is closed, as it stands in quotes. -/
theorem FixedPath.nests (path : FixedPath) : d.Nests r ("'" ++ path.text ++ "'") 0 0 :=
  (Dialect.stops_quoted path.inert).toNests

/-- The text of a path is closed. -/
theorem JsonPath.render_nests (path : JsonPath) :
    Render.Gives (path.render d) (d.Nests r · 0 0) := by
  cases path with
  | fixed path => exact .pure path.nests
  | bound text => exact Render.gives_bind _

/-- Parentheses around a condition keep it closed. -/
theorem Condition.nests_enclosed (c : Condition) {text : String} (h : d.Nests .nothing text 0 0) :
    d.Nests .nothing (c.enclosed text) 0 0 := by
  unfold Condition.enclosed
  split
  · exact h
  · exact h.lift.wrap (by decide) (by decide)

namespace Select

/-- A clause with a list of closed texts is a clause. -/
theorem nests_listText {keyword : String} {texts : List String}
    (hkeyword : Dialect.isBetween .operators 0 0 keyword = true)
    (h : ∀ text ∈ texts, d.Nests .nothing text 0 0) :
    d.NestsClause .nothing (listText keyword texts) := by
  unfold listText
  split
  · exact .nothing
  · exact (Dialect.nests_join (Reserved.le_operators _) (by decide) h).behind hkeyword

/-- A clause with a number is a clause. -/
theorem nests_countText {keyword : String}
    (hkeyword : Dialect.isBetween .operators 0 0 keyword = true) (count : Option Nat) :
    d.NestsClause .nothing (countText keyword count) := by
  cases count with
  | none => exact .nothing
  | some n => exact (Dialect.nests_natText n).behind hkeyword

/-- The items of a statement are closed where their texts are. -/
theorem nests_itemsText {texts : List String} (h : ∀ text ∈ texts, d.Nests .nothing text 0 0) :
    d.Nests .nothing (itemsText texts) 0 0 := by
  unfold itemsText
  split
  · exact Dialect.isNested_nests (by decide)
  · exact Dialect.nests_join (Reserved.le_operators _) (by decide) h

/-- The hint of a statement is closed, and another text may follow it. -/
theorem stops_hintText (timeout : Option Nat) : d.Stops .nothing (hintText d timeout) 0 0 := by
  unfold hintText
  split
  next hint hhint =>
    obtain ⟨milliseconds, -, hhint⟩ := Option.bind_eq_some_iff.1 hhint
    exact (Dialect.nests_timeoutHint milliseconds hhint).toNests.close (by decide)
  next => exact ⟨Dialect.nests_empty, rfl⟩

/-- The `FROM` clause is a clause. -/
theorem nests_sourceText (source : Option Table) :
    d.NestsClause .nothing (sourceText source) := by
  cases source with
  | none => exact .nothing
  | some table => exact table.nests_text.behind (by decide)

/-- A statement nests as its clauses do. -/
theorem nests_assemble (s : Select) {items joins groups terms : List String}
    {filter having : String} (hitems : ∀ text ∈ items, d.Nests .nothing text 0 0)
    (hjoins : ∀ text ∈ joins, d.Nests .nothing text 0 0) (hfilter : d.NestsClause .nothing filter)
    (hgroups : ∀ text ∈ groups, d.Nests .nothing text 0 0)
    (hhaving : d.NestsClause .nothing having)
    (hterms : ∀ text ∈ terms, d.Nests .nothing text 0 0) :
    d.Nests .nothing (s.assemble d items joins filter groups having terms) 0 0 := by
  have hselect : d.Stops .nothing ("SELECT " ++ hintText d s.timeout) 0 0 :=
    (Dialect.isHead_stops (fun _ h => h) (by decide)).append_stops (stops_hintText s.timeout)
  have hhead := hselect.append (nests_itemsText hitems)
  have hrows := ((hhead.clause (nests_sourceText s.source)).clause
    (Dialect.nests_blanks hjoins)).clause hfilter
  have hgroupBy : d.NestsClause .nothing (listText " GROUP BY " groups) :=
    nests_listText (by decide) hgroups
  have horderBy : d.NestsClause .nothing (listText " ORDER BY " terms) :=
    nests_listText (by decide) hterms
  have hlimit : d.NestsClause .nothing (countText " LIMIT " s.limit) :=
    nests_countText (by decide) _
  have hoffset : d.NestsClause .nothing (countText " OFFSET " s.offset) :=
    nests_countText (by decide) _
  exact ((((hrows.clause hgroupBy).clause hhaving).clause horderBy).clause hlimit).clause hoffset

end Select

mutual

/-- The operators stand in parentheses in the text of an expression. -/
theorem Expr.render_nests {r : Reserved} {n : Namespaces} (hn : n.Nests d r) (expr : Expr)
    (h : ∀ part ∈ expr.parts, part.Orderly d) :
    Render.Gives (expr.render d n) (d.Nests r · 0 0) := by
  match expr with
  | .column column =>
      have hcolumn : column.NoOperator := h (.expr (.column column)) (by simp [Expr.parts])
      exact column.render_nests hn hcolumn
  | .param value => exact Render.gives_bind value
  | .null => exact .pure ((Dialect.isNested_nests (by decide)).mono r.le_operators)
  | .keyword text =>
      have htext : d.Nests .operators text 0 0 :=
        h (.expr (.keyword text)) (by simp [Expr.parts])
      exact .pure (htext.mono r.le_operators)
  | .lower expr =>
      rw [Expr.parts, List.forall_mem_cons] at h
      exact (expr.render_nests hn h.2).map fun text htext => htext.lift.wrap (by decide) (by decide)
  | .cast expr type =>
      rw [Expr.parts, List.forall_mem_cons] at h
      have htype : d.Nests r type 0 0 := Dialect.Nests.mono h.1 r.le_operators
      exact (expr.render_nests hn h.2).map fun text htext =>
        htext.lift.call htype.lift (by decide) (by decide) (by decide)
  | .jsonExtract target path =>
      rw [Expr.parts, List.forall_mem_cons] at h
      refine (target.render_nests hn h.2).bind fun target htarget => ?_
      exact path.render_nests.map fun path hpath => Dialect.nests_jsonExtract htarget hpath
  | .jsonUnquote expr =>
      rw [Expr.parts, List.forall_mem_cons] at h
      exact (expr.render_nests hn h.2).map fun text htext => Dialect.nests_jsonUnquote htext
  | .jsonString column path =>
      have hcolumn : column.NoOperator :=
        h (.expr (.jsonString column path)) (by simp [Expr.parts])
      exact (column.render_nests hn hcolumn).map fun text htext =>
        Dialect.nests_jsonString htext path.nests
  | .countRows => exact .pure ((Dialect.isNested_nests (by decide)).mono r.le_operators)
  | .count expr =>
      rw [Expr.parts, List.forall_mem_cons] at h
      exact (expr.render_nests hn h.2).map fun text htext => htext.lift.wrap (by decide) (by decide)
  | .sum expr =>
      rw [Expr.parts, List.forall_mem_cons] at h
      exact (expr.render_nests hn h.2).map fun text htext => htext.lift.wrap (by decide) (by decide)
  | .coalesce exprs =>
      rw [Expr.parts, List.forall_mem_cons] at h
      refine (Expr.renderAll_nests hn exprs h.2).map fun texts htexts => ?_
      have hseparator : Dialect.isBetween .operators 0 0 ", " = true := by decide
      have hjoin := Dialect.nests_join r.le_operators hseparator htexts
      exact hjoin.lift.wrap (by decide) (by decide)
  | .subquery query =>
      rw [Expr.parts, List.forall_mem_cons] at h
      exact (query.render_nests (hn.mono r.nothing_le) h.2).map fun text htext =>
        htext.inside.wrap (by decide) (by decide)
  | .exists query =>
      rw [Expr.parts, List.forall_mem_cons] at h
      exact (query.render_nests (hn.mono r.nothing_le) h.2).map fun text htext =>
        htext.inside.wrap (by decide) (by decide)
termination_by structural expr

/-- The texts of a list of expressions are closed where the author's parts of it are. -/
theorem Expr.renderAll_nests {r : Reserved} {n : Namespaces} (hn : n.Nests d r)
    (exprs : List Expr) (h : ∀ part ∈ Expr.partsAll exprs, part.Orderly d) :
    Render.Gives (Expr.renderAll d n exprs) fun texts => ∀ text ∈ texts, d.Nests r text 0 0 := by
  match exprs with
  | [] => exact .pure (by simp)
  | expr :: rest =>
      rw [Expr.partsAll, List.forall_mem_append] at h
      refine (expr.render_nests hn h.1).bind fun text htext => ?_
      exact (Expr.renderAll_nests hn rest h.2).map fun texts htexts =>
        List.forall_mem_cons.2 ⟨htext, htexts⟩
termination_by structural exprs

/-- The connectives stand in parentheses in the text of a single test. -/
theorem Condition.render_nests {r : Reserved} {n : Namespaces} (hn : n.Nests d r)
    (hr : r ≤ .connectives) (condition : Condition)
    (hc : condition.isTest = false → r = .nothing)
    (h : ∀ part ∈ condition.parts, part.Orderly d) :
    Render.Gives (condition.render d n) (d.Nests r · 0 0) := by
  match condition with
  | .compare left op right =>
      rw [Condition.parts, List.forall_mem_cons, List.forall_mem_append] at h
      refine (left.render_nests hn h.2.1).bind fun left hleft => ?_
      refine (right.render_nests hn h.2.2).map fun right hright => ?_
      have hop : d.Nests r op.symbol 0 0 := by
        cases op <;> exact (Dialect.isNested_nests (by decide)).mono r.le_operators
      exact (((hleft.close (by decide)).append hop).close (by decide)).append hright
  | .nullSafeEq left right =>
      rw [Condition.parts, List.forall_mem_cons, List.forall_mem_append] at h
      refine (left.render_nests hn h.2.1).bind fun left hleft => ?_
      exact (right.render_nests hn h.2.2).map fun right hright =>
        Dialect.nests_nullSafeEq hr hleft hright
  | .isNull expr negated =>
      rw [Condition.parts, List.forall_mem_cons] at h
      refine (expr.render_nests hn h.2).map fun text htext => ?_
      cases negated with
      | true =>
          have hisNot : Dialect.isTail .connectives 0 0 " IS NOT NULL" = true := by decide
          exact htext.finish_of_le hr hisNot
      | false => exact htext.finish (by decide)
  | .isJsonNull expr =>
      rw [Condition.parts, List.forall_mem_cons] at h
      exact (expr.render_nests hn h.2).map fun text htext => Dialect.nests_jsonNullTest htext
  | .oneOf expr values negated =>
      rw [Condition.parts, List.forall_mem_cons] at h
      refine (expr.render_nests hn h.2).bind fun field hfield => ?_
      split
      · exact .pure (Dialect.nests_boolText negated)
      · refine Render.gives_bindAll fun first => ?_
        cases negated with
        | false => exact Dialect.nests_isIn hfield
        | true => exact Dialect.nests_isNotIn hr hfield
  | .like expr pattern negated =>
      rw [Condition.parts, List.forall_mem_cons] at h
      refine (expr.render_nests hn h.2).bind fun text htext => ?_
      exact (Render.gives_bind pattern).map fun pattern hpattern =>
        Dialect.nests_like hr negated htext hpattern
  | .arrayContains column value foldCase =>
      rw [Condition.parts, List.forall_mem_cons] at h
      refine (column.render_nests hn h.2).bind fun text htext => ?_
      exact (Render.gives_bind _).map fun value hvalue =>
        Dialect.nests_arrayContains hr foldCase htext hvalue
  | .overlaps column values =>
      rw [Condition.parts, List.forall_mem_cons] at h
      refine (column.render_nests hn h.2).bind fun text htext => ?_
      exact (Render.gives_bind _).map fun value hvalue => Dialect.nests_overlaps htext hvalue
  | .exists query negated =>
      rw [Condition.parts, List.forall_mem_cons] at h
      refine (query.render_nests (hn.mono r.nothing_le) h.2).map fun text htext => ?_
      cases negated with
      | true =>
          have hnotExists : Dialect.isHead .connectives 0 1 "NOT EXISTS (" = true := by decide
          exact ((Dialect.isHead_stops hr hnotExists).append htext.inside).finish (by decide)
      | false => exact htext.inside.wrap (by decide) (by decide)
  | .requires join => exact .pure (Dialect.nests_boolText true)
  | .joined join inner =>
      rw [Condition.parts, List.forall_mem_cons, List.forall_mem_append] at h
      obtain rfl := hc rfl
      exact inner.render_nests hn hr (fun _ => rfl) h.2.2
  | .all conditions =>
      rw [Condition.parts, List.forall_mem_cons] at h
      obtain rfl := hc rfl
      refine (Condition.renderConjuncts_nests hn conditions h.2).map fun texts htexts => ?_
      split
      · exact Dialect.nests_boolText true
      · exact Dialect.nests_join (fun _ h => h) (by decide) htexts
  | .any conditions =>
      rw [Condition.parts, List.forall_mem_cons] at h
      obtain rfl := hc rfl
      refine (Condition.renderDisjuncts_nests hn conditions h.2).map fun texts htexts => ?_
      split
      · exact Dialect.nests_boolText false
      · exact Dialect.nests_join (fun _ h => h) (by decide) htexts
  | .not condition =>
      rw [Condition.parts, List.forall_mem_cons] at h
      obtain rfl := hc rfl
      have hnot : Dialect.isHead .nothing 0 1 "NOT (" = true := by decide
      exact (condition.render_nests hn hr (fun _ => rfl) h.2).map fun text htext =>
        ((Dialect.isHead_stops (fun _ h => h) hnot).append htext.lift).finish (by decide)
termination_by structural condition

/-- The texts of a conjunction are closed where the author's parts of it are. -/
theorem Condition.renderConjuncts_nests {n : Namespaces} (hn : n.Nests d .nothing)
    (conditions : List Condition) (h : ∀ part ∈ Condition.partsAll conditions, part.Orderly d) :
    Render.Gives (Condition.renderConjuncts d n conditions)
      fun texts => ∀ text ∈ texts, d.Nests .nothing text 0 0 := by
  match conditions with
  | [] => exact .pure (by simp)
  | c :: rest =>
      rw [Condition.partsAll, List.forall_mem_append] at h
      rw [Condition.renderConjuncts]
      split
      · exact Condition.renderConjuncts_nests hn rest h.2
      · refine (c.render_nests hn (Reserved.nothing_le _) (fun _ => rfl) h.1).bind
          fun text htext => ?_
        exact (Condition.renderConjuncts_nests hn rest h.2).map fun texts htexts =>
          List.forall_mem_cons.2 ⟨c.nests_enclosed htext, htexts⟩
termination_by structural conditions

/-- The texts of a disjunction are closed where the author's parts of it are. -/
theorem Condition.renderDisjuncts_nests {n : Namespaces} (hn : n.Nests d .nothing)
    (conditions : List Condition) (h : ∀ part ∈ Condition.partsAll conditions, part.Orderly d) :
    Render.Gives (Condition.renderDisjuncts d n conditions)
      fun texts => ∀ text ∈ texts, d.Nests .nothing text 0 0 := by
  match conditions with
  | [] => exact .pure (by simp)
  | c :: rest =>
      rw [Condition.partsAll, List.forall_mem_append] at h
      refine (c.render_nests hn (Reserved.nothing_le _) (fun _ => rfl) h.1).bind
        fun text htext => ?_
      exact (Condition.renderDisjuncts_nests hn rest h.2).map fun texts htexts =>
        List.forall_mem_cons.2 ⟨c.nests_enclosed htext, htexts⟩
termination_by structural conditions

/-- The joins of a condition are closed where the author's parts of it are. -/
theorem Condition.renderJoins_nests {n : Namespaces} (hn : n.Nests d .nothing)
    (found : List Join) (condition : Condition)
    (h : ∀ part ∈ condition.parts, part.Orderly d) :
    Render.Gives (condition.renderJoins d n found)
      fun result => ∀ text ∈ result.1, d.Nests .nothing text 0 0 := by
  match condition with
  | .requires join =>
      rw [Condition.parts, List.forall_mem_cons] at h
      rw [Condition.renderJoins]
      split
      · exact .pure (by simp)
      · exact (join.render_nests hn h.2).map fun text htext => by simpa using htext
  | .joined join inner =>
      rw [Condition.parts, List.forall_mem_cons, List.forall_mem_append] at h
      rw [Condition.renderJoins]
      split
      · exact inner.renderJoins_nests hn found h.2.2
      · refine (join.render_nests hn h.2.1).bind fun text htext => ?_
        exact (inner.renderJoins_nests hn _ h.2.2).map fun result htexts =>
          List.forall_mem_cons.2 ⟨htext, htexts⟩
  | .all conditions =>
      rw [Condition.parts, List.forall_mem_cons] at h
      exact Condition.renderJoinsAll_nests hn found conditions h.2
  | .any conditions =>
      rw [Condition.parts, List.forall_mem_cons] at h
      exact Condition.renderJoinsAll_nests hn found conditions h.2
  | .not condition =>
      rw [Condition.parts, List.forall_mem_cons] at h
      exact condition.renderJoins_nests hn found h.2
  | .compare .. | .nullSafeEq .. | .isNull .. | .isJsonNull .. | .oneOf .. | .like ..
  | .arrayContains .. | .overlaps .. | .exists .. => exact .pure (by simp)
termination_by structural condition

/-- The joins of a list of conditions are closed where the author's parts of it are. -/
theorem Condition.renderJoinsAll_nests {n : Namespaces} (hn : n.Nests d .nothing)
    (found : List Join) (conditions : List Condition)
    (h : ∀ part ∈ Condition.partsAll conditions, part.Orderly d) :
    Render.Gives (Condition.renderJoinsAll d n found conditions)
      fun result => ∀ text ∈ result.1, d.Nests .nothing text 0 0 := by
  match conditions with
  | [] => exact .pure (by simp)
  | c :: rest =>
      rw [Condition.partsAll, List.forall_mem_append] at h
      refine (c.renderJoins_nests hn found h.1).bind fun result htexts => ?_
      exact (Condition.renderJoinsAll_nests hn result.2 rest h.2).map fun result' hmore =>
        List.forall_mem_append.2 ⟨htexts, hmore⟩
termination_by structural conditions

/-- The joins of a predicate are closed where the author's parts of it are. -/
theorem Predicate.renderJoins_nests {n : Namespaces} (hn : n.Nests d .nothing)
    (found : List Join) (p : Predicate) (h : ∀ part ∈ p.parts, part.Orderly d) :
    Render.Gives (p.renderJoins d n found)
      fun texts => ∀ text ∈ texts, d.Nests .nothing text 0 0 := by
  match p with
  | .always => exact .pure (by simp)
  | .never => exact .pure (by simp)
  | .condition c => exact (c.renderJoins_nests hn found h).map fun result htexts => htexts
termination_by structural p

/-- The `WHERE` clause is a clause where the author's parts of it are closed. -/
theorem Predicate.renderWhere_nests {n : Namespaces} (hn : n.Nests d .nothing) (p : Predicate)
    (h : ∀ part ∈ p.parts, part.Orderly d) :
    Render.Gives (p.renderWhere d n) (d.NestsClause .nothing) := by
  match p with
  | .always => exact .pure .nothing
  | .never => exact .pure ((Dialect.nests_boolText false).behind (by decide))
  | .condition c =>
      rw [Predicate.renderWhere]
      split
      · exact .pure .nothing
      · exact (c.render_nests hn (Reserved.nothing_le _) (fun _ => rfl) h).map
          fun text htext => htext.behind (by decide)
termination_by structural p

/-- The text of a join is closed where the author's parts of it are. -/
theorem Join.render_nests {n : Namespaces} (hn : n.Nests d .nothing) (join : Join)
    (h : ∀ part ∈ join.parts, part.Orderly d) :
    Render.Gives (join.render d n) (d.Nests .nothing · 0 0) := by
  match join with
  | ⟨kind, table, on⟩ =>
      have hinner : (n.inside (some table.namespaceText)).Nests d .nothing :=
        hn.inside (by rintro _ ⟨⟩; exact table.nests_namespaceText)
      refine (on.render_nests hinner (Reserved.nothing_le _) (fun _ => rfl) h).map
        fun text htext => ?_
      cases kind <;>
        exact ((table.nests_text.after (by decide)).close (by decide)).append htext
termination_by structural join

/-- The texts of a list of joins are closed where the author's parts of it are. -/
theorem Join.renderAll_nests {n : Namespaces} (hn : n.Nests d .nothing) (joins : List Join)
    (h : ∀ part ∈ Join.partsAll joins, part.Orderly d) :
    Render.Gives (Join.renderAll d n joins)
      fun texts => ∀ text ∈ texts, d.Nests .nothing text 0 0 := by
  match joins with
  | [] => exact .pure (by simp)
  | join :: rest =>
      rw [Join.partsAll, List.forall_mem_append] at h
      refine (join.render_nests hn h.1).bind fun text htext => ?_
      exact (Join.renderAll_nests hn rest h.2).map fun texts htexts =>
        List.forall_mem_cons.2 ⟨htext, htexts⟩
termination_by structural joins

/-- The texts of the items are closed where the author's parts of it are. -/
theorem SelectItem.renderAll_nests {n : Namespaces} (hn : n.Nests d .nothing)
    (items : List SelectItem) (h : ∀ part ∈ SelectItem.partsAll items, part.Orderly d) :
    Render.Gives (SelectItem.renderAll d n items)
      fun texts => ∀ text ∈ texts, d.Nests .nothing text 0 0 := by
  match items with
  | [] => exact .pure (by simp)
  | ⟨expr, asName⟩ :: rest =>
      rw [SelectItem.partsAll, List.forall_mem_append] at h
      refine (expr.render_nests hn h.1).bind fun text htext => ?_
      refine (SelectItem.renderAll_nests hn rest h.2).map fun texts htexts => ?_
      refine List.forall_mem_cons.2 ⟨?_, htexts⟩
      cases asName with
      | none => exact htext
      | some asName => exact (htext.close (by decide)).append asName.nests_nothing
termination_by structural items

/-- The texts of an order are closed where the author's parts of it are. -/
theorem OrderTerm.renderAll_nests {n : Namespaces} (hn : n.Nests d .nothing)
    (terms : List OrderTerm) (h : ∀ part ∈ OrderTerm.partsAll terms, part.Orderly d) :
    Render.Gives (OrderTerm.renderAll d n terms)
      fun texts => ∀ text ∈ texts, d.Nests .nothing text 0 0 := by
  match terms with
  | [] => exact .pure (by simp)
  | ⟨expr, direction⟩ :: rest =>
      rw [OrderTerm.partsAll, List.forall_mem_append] at h
      refine (expr.render_nests hn h.1).bind fun text htext => ?_
      exact (OrderTerm.renderAll_nests hn rest h.2).map fun texts htexts =>
        List.forall_mem_cons.2 ⟨Dialect.nests_nullsOrder direction htext, htexts⟩
termination_by structural terms

/-- The `HAVING` clause is a clause where the author's parts of it are closed. -/
theorem Select.renderHaving_nests {n : Namespaces} (hn : n.Nests d .nothing)
    (having : Option Condition) (h : ∀ part ∈ Condition.partsOption having, part.Orderly d) :
    Render.Gives (Select.renderHaving d n having) (d.NestsClause .nothing) := by
  match having with
  | none => exact .pure .nothing
  | some c =>
      exact (c.render_nests hn (Reserved.nothing_le _) (fun _ => rfl) h).map
        fun text htext => htext.behind (by decide)
termination_by structural having

/-- The text of a statement is closed where the author's parts of it are. -/
theorem Select.render_nests {n : Namespaces} (hn : n.Nests d .nothing) (s : Select)
    (h : ∀ part ∈ s.parts, part.Orderly d) :
    Render.Gives (s.render d n) (d.Nests .nothing · 0 0) := by
  match s with
  | ⟨items, source, joins, filter, groupBy, having, orderBy, limit, offset, timeout⟩ =>
      rw [Select.render_eq]
      split
      · exact .throw
      -- the clauses are rendered inside the namespace of the statement's table
      have hinner : (n.inside (source.map Table.namespaceText)).Nests d .nothing := by
        refine hn.inside fun text htext => ?_
        obtain ⟨table, -, rfl⟩ := Option.map_eq_some_iff.1 htext
        exact table.nests_namespaceText
      simp only [Select.parts, List.forall_mem_append] at h
      obtain ⟨⟨⟨⟨⟨hitems, hjoins⟩, hfilter⟩, hgroupBy⟩, hhaving⟩, horderBy⟩ := h
      refine (SelectItem.renderAll_nests hinner items hitems).bind fun items hitems => ?_
      refine (Join.renderAll_nests hinner joins hjoins).bind fun explicit hexplicit => ?_
      refine (filter.renderJoins_nests hinner joins hfilter).bind fun needed hneeded => ?_
      refine (filter.renderWhere_nests hinner hfilter).bind fun filter hfilter => ?_
      refine (Expr.renderAll_nests hinner groupBy hgroupBy).bind fun groups hgroups => ?_
      refine (Select.renderHaving_nests hinner having hhaving).bind fun having hhaving => ?_
      exact (OrderTerm.renderAll_nests hinner orderBy horderBy).map fun terms hterms =>
        Select.nests_assemble _ hitems (List.forall_mem_append.2 ⟨hexplicit, hneeded⟩) hfilter
          hgroups hhaving hterms
termination_by structural s

end

end FilterSql
