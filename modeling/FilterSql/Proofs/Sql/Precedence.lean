import FilterSql.Proofs.Sql.Formula
import FilterSql.Proofs.Sql.Nesting

/-!
# Conditions and their texts

The text of a condition is read as the condition. `Condition.formula` is what a condition says of
its tests: a joined condition stands for the condition on the joined row, a join that is only
required asks nothing, and a search in an empty list is settled. `Condition.render_read` reads the
text of a condition by the precedence of the connectives and gives a formula over the same tests
in the same order, with the same truth value under every assignment.

`Condition.Reads` is what the induction on the condition carries: the items that the text is read
as, and that they hold no connective where the condition stands beside a connective without
parentheses.
-/

namespace FilterSql

namespace Condition

mutual

/-- What a condition says of its tests. -/
def formula : Condition → Formula Condition
  | .requires _ => .const true
  | .joined _ inner => inner.formula
  | .all conditions => .joinAll .and (formulas conditions)
  | .any conditions => .joinAll .or (formulas conditions)
  | .not condition => .not condition.formula
  | .oneOf _ [] negated => .const negated
  | .exists query true => .not (.atom (.exists query false))
  | test => .atom test
termination_by structural x => x

/-- What each condition of a list says of its tests. -/
def formulas : List Condition → List (Formula Condition)
  | [] => []
  | c :: rest => c.formula :: formulas rest
termination_by structural x => x

end

/-- Tokens are those of the text of a test. -/
def Writes (d : Dialect) (n : Namespaces) (test : Condition) (tokens : List Token) : Prop :=
  ∃ bound text bound', StateT.run (test.render d n) bound = .ok (text, bound') ∧
    tokens = d.tokens .plain text.toList

end Condition

namespace Dialect

/-- Whether a test can go on with some tokens behind an expression: the first one is no truth value,
no parenthesis and no `NOT` of its own. -/
def goesOn (d : Dialect) : List Token → Bool
  | t :: rest =>
    t != .mark '(' && t != .mark ')' && (d.constant? t).isNone &&
      (!t.isWord "NOT" || rest.head?.any fun u => u.isWord "IN" || u.isWord "LIKE")
  | [] => false

/-- Whether a test can go on with a text behind an expression, and another text can follow. -/
def isOperator (text : String) : Bool :=
  every.all (fun d => d.goesOn (d.tokens .plain text.toList)) && !endsInWord text.toList

/-- A text starts with an expression that keeps the operators in parentheses, perhaps none, and goes
on as a test does. -/
structure StartsTest (d : Dialect) (text : String) : Prop where
  start : ∃ expr operator : String, d.Nests .operators expr 0 0 ∧ isOperator operator = true ∧
    (expr = "" ∨ startsInWord operator.toList = false) ∧
    (expr ++ operator).toList <+: text.toList

variable {d : Dialect} {s t : String} {ts us : List Token}

/-! ## Single tests -/

/-- Tokens that start with another word than `NOT` start no negation. -/
theorem isNegation_of_not {token : Token} (h : token.isWord "NOT" = false) :
    isNegation (token :: ts) = false := by
  cases ts <;> simp [isNegation, h]

/-- Whether a test can go on does not depend on what follows. -/
theorem goesOn_append (h : d.goesOn ts = true) : d.goesOn (ts ++ us) = true := by
  match ts with
  | [] => cases h
  | [t] =>
      simp only [goesOn, List.head?_nil, Option.any_none, Bool.or_false, Bool.and_eq_true] at h
      simp [goesOn, h]
  | t :: u :: ts => exact h

/-- Tokens that a test can go on with start no negation. -/
theorem isNegation_of_goesOn (h : d.goesOn ts = true) : isNegation ts = false := by
  match ts with
  | [] => rfl
  | [t] => rfl
  | t :: u :: ts =>
      simp only [goesOn, Bool.and_eq_true, Bool.or_eq_true, Bool.not_eq_true', List.head?_cons,
        Option.any_some] at h
      obtain hnot | hnext := h.2
      · exact isNegation_of_not hnot
      · rw [isNegation, Bool.or_eq_true_iff.2 hnext, Bool.not_true, Bool.and_false]

/-- The operators stand in parentheses, so a `NOT` is not the first token. -/
theorem isNegation_append (hts : Reserved.operators.depth 0 ts = some 0)
    (hus : isNegation us = false) : isNegation (ts ++ us) = false := by
  cases ts with
  | nil => exact hus
  | cons t ts =>
      rw [Reserved.depth_cons, Option.bind_eq_some_iff] at hts
      obtain ⟨depth, hstep, -⟩ := hts
      refine isNegation_of_not ?_
      obtain ⟨rfl, -⟩ | ⟨-, hdepth⟩ | ⟨-, hfree, -⟩ := Reserved.step_eq_some.1 hstep
      · rfl
      · cases hdepth
      · have hnot := List.any_eq_false.1 (hfree rfl) "NOT" (by decide)
        exact Bool.eq_false_iff.2 hnot

/-- A text that starts a test starts one whatever follows it. -/
theorem StartsTest.append (h : d.StartsTest s) : d.StartsTest (s ++ t) := by
  obtain ⟨expr, operator, hexpr, hoperator, hseam, hprefix⟩ := h.start
  refine ⟨expr, operator, hexpr, hoperator, hseam, hprefix.trans ?_⟩
  rw [String.toList_append]
  exact List.prefix_append _ _

/-- An operator without an expression before it starts a test. -/
theorem startsTest_head (ht : isOperator t = true) : d.StartsTest t :=
  ⟨"", t, nests_empty, ht, .inl rfl, by simp⟩

/-- A test that goes on with the start of a text, which need not end with a mark or a blank. -/
theorem Nests.startsTest_of_prefix (hs : d.Nests .operators s 0 0) (operator : String)
    (hoperator : isOperator operator = true) (hseam : startsInWord operator.toList = false)
    (ht : operator.toList <+: t.toList) : d.StartsTest (s ++ t) := by
  refine ⟨s, operator, hs, hoperator, .inr hseam, ?_⟩
  rw [String.toList_append, String.toList_append]
  exact (List.prefix_append_right_inj _).2 ht

/-- An expression and an operator behind it start a test. -/
theorem Nests.startsTest (hs : d.Nests .operators s 0 0) (ht : isOperator t = true)
    (hseam : startsInWord t.toList = false) : d.StartsTest (s ++ t) :=
  hs.startsTest_of_prefix t ht hseam (List.prefix_refl _)

/-- The tokens of a test are those of the expression and what it goes on with. -/
theorem StartsTest.tokens (h : d.StartsTest s) : ∃ ts us, d.tokens .plain s.toList = ts ++ us ∧
    Reserved.operators.depth 0 ts = some 0 ∧ d.goesOn us = true := by
  obtain ⟨expr, operator, hexpr, hoperator, hseam, rest, hrest⟩ := h.start
  rw [isOperator, Bool.and_eq_true, Bool.not_eq_true'] at hoperator
  have hgoesOn := List.all_eq_true.1 hoperator.1 d d.mem_every
  have hapart : endsInWord expr.toList = false ∨
      startsInWord (operator.toList ++ rest) = false := by
    refine hseam.imp (fun hempty => by rw [hempty]; rfl) fun hstart => ?_
    cases htext : operator.toList with
    | nil => simp [htext, Dialect.tokens, goesOn] at hgoesOn
    | cons c operator => rwa [htext] at hstart
  rw [String.toList_append, List.append_assoc] at hrest
  refine ⟨_, d.tokens .plain (operator.toList ++ rest), ?_, hexpr.depth, ?_⟩
  · rw [← hrest, tokens_append hapart, hexpr.closed]
  · rw [tokens_append (.inl hoperator.2)]
    exact goesOn_append hgoesOn

/-- The text of a single test is one atom. -/
theorem StartsTest.gathers (h : d.StartsTest s) (hs : d.Nests .connectives s 0 0) :
    ∃ items, d.Gathers s items ∧ (∀ item ∈ items, item.Free .connectives) ∧
      d.readOperand items = .atom (d.tokens .plain s.toList) := by
  obtain ⟨items, hgathers, hfree⟩ := hs.gathers
  refine ⟨items, hgathers, hfree, ?_⟩
  obtain ⟨ts, us, htokens, hts, hus⟩ := h.tokens
  have hnot : isNegation (items.flatMap Item.tokens) = false := by
    rw [hgathers.tokens, htokens]
    exact isNegation_append hts (isNegation_of_goesOn hus)
  rw [← hgathers.tokens]
  cases us with
  | nil => cases hus
  | cons t us =>
      simp only [goesOn, Bool.and_eq_true, bne_iff_ne, Option.isNone_iff_eq_none] at hus
      obtain ⟨⟨hmark, hvalue⟩, -⟩ := hus
      -- the parts of the text before and behind the first token of the operator nest
      have hts' : Reserved.connectives.depth 0 ts = some 0 :=
        Reserved.depth_mono (Reserved.le_operators _) hts
      have hdepth := hs.depth
      rw [htokens, Reserved.depth_append, hts', Option.bind_some, Reserved.depth_cons,
        Option.bind_eq_some_iff] at hdepth
      obtain ⟨depth, hstep, hus⟩ := hdepth
      obtain ⟨hopen, -⟩ | ⟨hclose, -⟩ | ⟨-, -, rfl⟩ := Reserved.step_eq_some.1 hstep
      · exact absurd hopen hmark.1
      · exact absurd hclose hmark.2
      · exact readOperand_test hnot (hgathers.token_mem htokens hts' hmark hus) hvalue

/-- Whether a `NOT` before a text negates what the text starts. -/
def isNegated (text : String) : Bool :=
  every.all (fun d => isNegation (.word ['N', 'O', 'T'] :: d.tokens .plain text.toList)) &&
    !endsInWord text.toList

/-- What is negated stays so whatever follows it. -/
theorem isNegation_of_isNegated (ht : isNegated t = true) :
    isNegation (.word ['N', 'O', 'T'] :: d.tokens .plain (t ++ s).toList) = true := by
  rw [isNegated, Bool.and_eq_true, Bool.not_eq_true'] at ht
  have hnegation := List.all_eq_true.1 ht.1 d d.mem_every
  rw [String.toList_append, tokens_append (.inl ht.2)]
  cases htokens : d.tokens .plain t.toList with
  | nil => simp [htokens, isNegation] at hnegation
  | cons token rest => rwa [htokens] at hnegation

/-! ## Tests of a dialect -/

variable {field : String} {first : Nat} {values : List Value}

/-- A test for membership starts with its operand. -/
theorem isIn_startsTest (h : d.Nests .operators field 0 0) :
    d.StartsTest (d.isIn field values first).1 := by
  cases d with
  | postgres =>
      rw [postgres_isIn]
      exact ((h.startsTest (by decide) (by decide)).append).append
  | mysql => exact ((h.startsTest (by decide) (by decide)).append).append
  | sqlite => exact ((h.startsTest (by decide) (by decide)).append).append

/-- The negated test for membership starts with its operand. -/
theorem isNotIn_startsTest (h : d.Nests .operators field 0 0) :
    d.StartsTest (d.isNotIn field values first).1 := by
  cases d with
  | postgres =>
      rw [postgres_isNotIn]
      exact ((h.startsTest (by decide) (by decide)).append).append
  | mysql => exact ((h.startsTest (by decide) (by decide)).append).append
  | sqlite => exact ((h.startsTest (by decide) (by decide)).append).append

/-- The comparison that counts NULL as a value starts with its left side. -/
theorem nullSafeEq_startsTest (h : d.Nests .operators s 0 0) :
    d.StartsTest (d.nullSafeEq s t) := by
  cases d <;> exact (h.startsTest (by decide) (by decide)).append

/-- A pattern test starts with its operand. -/
theorem like_startsTest (negated : Bool) (h : d.Nests .operators s 0 0) :
    d.StartsTest (d.like s t negated) := by
  cases negated <;> exact ((h.startsTest (by decide) (by decide)).append).append

/-- The search in a JSON array starts a test. -/
theorem arrayContains_startsTest (foldCase : Bool) (h : d.Nests .operators s 0 0) :
    d.StartsTest (d.arrayContains s t foldCase) := by
  cases d <;> cases foldCase
  case postgres.false => exact ((h.startsTest (by decide) (by decide)).append).append
  all_goals exact ((((startsTest_head (by decide)).append).append).append).append

/-- The overlap test starts a test. -/
theorem overlaps_startsTest : d.StartsTest (d.overlaps s t) := by
  cases d <;> exact ((((startsTest_head (by decide)).append).append).append).append

/-- The test for a JSON null starts with its operand. -/
theorem jsonNullTest_startsTest (h : d.Nests .operators s 0 0) :
    d.StartsTest ((d.jsonNullTest? s).getD (s ++ " IS NULL")) := by
  cases d with
  | mysql => exact h.startsTest (by decide) (by decide)
  | postgres => exact h.startsTest_of_prefix " = " (by decide) (by decide) (by decide)
  | sqlite => exact h.startsTest_of_prefix " IS " (by decide) (by decide) (by decide)

end Dialect

variable {d : Dialect} {n : Namespaces}

/-! ## Rendering -/

namespace Condition

/-- A test is an atom of the formula. -/
theorem formula_of_isTest {c : Condition} (h : c.isTest = true) : c.formula = .atom c := by
  cases c with
  | requires | joined | all | any | not => cases h
  | oneOf expr values negated =>
      cases values with
      | nil => cases h
      | cons => rfl
  | «exists» query negated =>
      cases negated with
      | true => cases h
      | false => rfl
  | _ => rfl

/-- The text of a single test starts as one. -/
theorem render_startsTest (hn : n.Nests d .operators) (c : Condition) (hc : c.isTest = true)
    (h : ∀ part ∈ c.parts, part.Orderly d) : Render.Gives (c.render d n) d.StartsTest := by
  cases c with
  | requires | joined | all | any | not => cases hc
  | compare left op right =>
      rw [Condition.parts, List.forall_mem_cons, List.forall_mem_append] at h
      refine (left.render_nests hn h.2.1).bind fun left hleft => ?_
      refine (right.render_nests hn h.2.2).map fun right _ => ?_
      have hoperator : left ++ " " ++ op.symbol ++ " " = left ++ (" " ++ op.symbol ++ " ") := by
        simp only [String.append_assoc]
      rw [hoperator]
      cases op <;> exact (hleft.startsTest (by decide) (by decide)).append
  | nullSafeEq left right =>
      rw [Condition.parts, List.forall_mem_cons, List.forall_mem_append] at h
      refine (left.render_nests hn h.2.1).bind fun left hleft => ?_
      exact (right.render_nests hn h.2.2).map fun right _ => Dialect.nullSafeEq_startsTest hleft
  | isNull expr negated =>
      rw [Condition.parts, List.forall_mem_cons] at h
      refine (expr.render_nests hn h.2).map fun text htext => ?_
      cases negated <;>
        exact htext.startsTest_of_prefix " IS " (by decide) (by decide) (by decide)
  | isJsonNull expr =>
      rw [Condition.parts, List.forall_mem_cons] at h
      exact (expr.render_nests hn h.2).map fun text htext => Dialect.jsonNullTest_startsTest htext
  | oneOf expr values negated =>
      rw [Condition.parts, List.forall_mem_cons] at h
      refine (expr.render_nests hn h.2).bind fun field hfield => ?_
      cases values with
      | nil => cases hc
      | cons v rest =>
          rw [List.isEmpty_cons, if_neg Bool.false_ne_true]
          refine Render.gives_bindAll fun first => ?_
          cases negated with
          | false => exact Dialect.isIn_startsTest hfield
          | true => exact Dialect.isNotIn_startsTest hfield
  | like expr pattern negated =>
      rw [Condition.parts, List.forall_mem_cons] at h
      refine (expr.render_nests hn h.2).bind fun text htext => ?_
      exact (Render.gives_bind (r := .nothing) pattern).map fun pattern _ =>
        Dialect.like_startsTest negated htext
  | arrayContains column value foldCase =>
      rw [Condition.parts, List.forall_mem_cons] at h
      refine (column.render_nests hn h.2).bind fun text htext => ?_
      exact (Render.gives_bind (r := .nothing) _).map fun value _ =>
        Dialect.arrayContains_startsTest foldCase htext
  | overlaps column values =>
      rw [Condition.parts, List.forall_mem_cons] at h
      refine (column.render_nests hn h.2).bind fun text _ => ?_
      exact (Render.gives_bind (r := .nothing) _).map fun values _ =>
        Dialect.overlaps_startsTest
  | «exists» query negated =>
      cases negated with
      | true => cases hc
      | false =>
          rw [Condition.parts, List.forall_mem_cons] at h
          exact (query.render_nests (hn.mono (Reserved.nothing_le _)) h.2).map fun text _ =>
            ((Dialect.startsTest_head (by decide)).append).append

/-- A text is read as some items, and what they are read as matches a formula. -/
structure ReadsItems (d : Dialect) (n : Namespaces) (f : Formula Condition) (text : String)
    (items : List Item) : Prop where
  gathers : d.Gathers text items
  agrees : f.Matches (Writes d n) (d.readItems items)

/-- A text is read as a formula, and it can stand beside a connective. -/
def ReadsOperand (d : Dialect) (n : Namespaces) (f : Formula Condition) (text : String) : Prop :=
  ∃ items, ReadsItems d n f text items ∧ ∀ item ∈ items, item.Free .connectives

/-- The text of a condition is read as the condition, and it can stand beside a connective if it
stands there without parentheses. -/
def Reads (d : Dialect) (n : Namespaces) (c : Condition) (text : String) : Prop :=
  ∃ items, ReadsItems d n c.formula text items ∧
    (c.isSingle = true → ∀ item ∈ items, item.Free .connectives)

/-- Texts can stand beside a connective, and together they are read as some formulas with the
connective between them. -/
def ReadsAll (d : Dialect) (n : Namespaces) (c : Connective) (fs : List (Formula Condition))
    (texts : List String) : Prop :=
  ∃ operands, List.Forall₂ d.Gathers texts operands ∧
    (∀ operand ∈ operands, ∀ item ∈ operand, item.Free .connectives) ∧
    (Formula.joinAll c fs).Matches (Writes d n) (.joinAll c (operands.map d.readOperand))

variable {f : Formula Condition} {fs : List (Formula Condition)} {c : Connective}
  {text : String} {texts : List String} {condition : Condition}

/-- A condition that is read as an operand is read. -/
theorem ReadsOperand.reads (h : ReadsOperand d n condition.formula text) :
    Reads d n condition text :=
  let ⟨items, hitems, hfree⟩ := h
  ⟨items, hitems, fun _ => hfree⟩

/-- A truth value stands for a formula that is settled. -/
theorem readsOperand_boolText {b : Bool} (h : f.Matches (Writes d n) (.const b)) :
    ReadsOperand d n f (d.boolText b) := by
  obtain ⟨items, hgathers, hfree, hread⟩ := d.gathers_boolText b
  refine ⟨items, ⟨hgathers, ?_⟩, hfree⟩
  rw [Dialect.readItems_operand hfree, hread]
  exact h

/-- What is read in parentheses can stand beside a connective. -/
theorem ReadsItems.enclose {items : List Item} (h : ReadsItems d n f text items) :
    ReadsOperand d n f ("(" ++ text ++ ")") := by
  have hfree : ∀ item ∈ [Item.group (items.flatMap Item.tokens) (d.readItems items)],
      item.Free .connectives := by
    simp [Item.Free, Item.isWord]
  refine ⟨_, ⟨h.gathers.enclose, ?_⟩, hfree⟩
  rw [Dialect.readItems_operand hfree, Dialect.readOperand_group]
  exact h.agrees

/-- Parentheses are put around a text that cannot stand beside a connective. -/
theorem Reads.enclosed (h : Reads d n condition text) :
    ReadsOperand d n condition.formula (condition.enclosed text) := by
  obtain ⟨items, hitems, hsingle⟩ := h
  unfold Condition.enclosed
  split
  next hc => exact ⟨items, hitems, hsingle hc⟩
  next => exact hitems.enclose

/-- A text behind a `NOT` of its own. -/
theorem ReadsOperand.not {head : String} (h : ReadsOperand d n f (head ++ text))
    (hhead : Dialect.isNegated head = true) :
    ReadsOperand d n (.not f) ("NOT " ++ (head ++ text)) := by
  obtain ⟨items, hitems, hfree⟩ := h
  have hfree' : ∀ item ∈ .token (.word ['N', 'O', 'T']) :: items, item.Free .connectives :=
    List.forall_mem_cons.2 ⟨by simp only [Item.Free]; decide, hfree⟩
  refine ⟨_, ⟨Dialect.gathers_not hitems.gathers, ?_⟩, hfree'⟩
  have hnot := Dialect.isNegation_of_isNegated (d := d) (s := text) hhead
  rw [← hitems.gathers.tokens] at hnot
  rw [Dialect.readItems_operand hfree', Dialect.readOperand_not hnot,
    ← Dialect.readItems_operand hfree]
  exact hitems.agrees.not

/-- No texts are read as no formulas. -/
theorem ReadsAll.nil : ReadsAll d n c [] [] := ⟨[], .nil, by simp, .const _⟩

/-- One more operand in front is read as one more formula in front. -/
theorem ReadsAll.cons (h : ReadsOperand d n f text) (hs : ReadsAll d n c fs texts) :
    ReadsAll d n c (f :: fs) (text :: texts) := by
  obtain ⟨items, hitems, hfree⟩ := h
  obtain ⟨operands, hgathers, hoperands, hmatches⟩ := hs
  have hfirst : f.Matches (Writes d n) (.joinAll c [d.readOperand items]) := by
    rw [← Dialect.readItems_operand hfree]
    exact hitems.agrees
  exact ⟨items :: operands, .cons hitems.gathers hgathers,
    List.forall_mem_cons.2 ⟨hfree, hoperands⟩, hfirst.joinAll_append hmatches⟩

/-- A condition that asks nothing may be left out. -/
theorem ReadsAll.skip (h : f.Matches (Writes d n) (.const c.unit))
    (hs : ReadsAll d n c fs texts) : ReadsAll d n c (f :: fs) texts := by
  obtain ⟨operands, hgathers, hoperands, hmatches⟩ := hs
  have hnone : f.Matches (Writes d n) (.joinAll c []) := h
  exact ⟨operands, hgathers, hoperands, hnone.joinAll_append hmatches⟩

/-- Where all formulas are left out, the connective of them is settled. -/
theorem ReadsAll.settled (h : ReadsAll d n c fs []) :
    (Formula.joinAll c fs).Matches (Writes d n) (.const c.unit) := by
  obtain ⟨_, hgathers, -, hmatches⟩ := h
  cases hgathers
  exact hmatches

/-- Texts with a connective between them. A single one can stand beside a connective itself. -/
theorem ReadsAll.reads (h : ReadsAll d n c fs (text :: texts))
    (hformula : condition.formula = .joinAll c fs)
    (hsingle : condition.isSingle = true → texts = []) :
    Reads d n condition (Text.join c.separator (text :: texts)) := by
  obtain ⟨operands, hgathers, hfree, hmatches⟩ := h
  rw [← hformula] at hmatches
  cases operands with
  | nil => cases hgathers
  | cons operand operands =>
      cases texts with
      | nil =>
          cases hgathers with
          | cons htext hrest =>
              cases hrest
              have hoperand := hfree operand List.mem_cons_self
              refine ⟨operand, ⟨htext, ?_⟩, fun _ => hoperand⟩
              rw [Dialect.readItems_operand hoperand]
              exact hmatches
      | cons next texts =>
          obtain ⟨items, hitems, hsplit, hother⟩ := Dialect.gathers_join (c := c) hgathers hfree
          refine ⟨items, ⟨hitems, ?_⟩, fun h => nomatch hsingle h⟩
          rw [Dialect.readItems_split hsplit hfree hother]
          exact hmatches

/-- A list that needs no parentheses has one part. -/
theorem length_of_isSingle {conditions : List Condition}
    (h : (Condition.all conditions).isSingle = true ∨ (Condition.any conditions).isSingle = true) :
    conditions.length = 1 := by
  match conditions with
  | [] => simp [isSingle] at h
  | [_] => rfl
  | _ :: _ :: _ => simp [isSingle] at h

mutual

/-- A condition that asks nothing has no tests and holds. -/
theorem formula_of_isVacuous {related : Condition → List Token → Prop} (condition : Condition)
    (h : condition.isVacuous = true) : condition.formula.Matches related (.const true) := by
  match condition with
  | .requires _ => exact .const true
  | .all conditions =>
      rw [Condition.isVacuous, Bool.and_eq_true] at h
      exact formulas_of_allVacuous conditions h.2
  | .joined .. | .any _ | .not _ | .compare .. | .nullSafeEq .. | .isNull .. | .isJsonNull ..
  | .oneOf .. | .like .. | .arrayContains .. | .overlaps .. | .exists .. => cases h
termination_by structural condition

/-- A list of joins that are only required holds. -/
theorem formulas_of_allVacuous {related : Condition → List Token → Prop}
    (conditions : List Condition) (h : allVacuous conditions = true) :
    (Formula.joinAll .and (formulas conditions)).Matches related (.const true) := by
  match conditions with
  | [] => exact .const true
  | condition :: rest =>
      rw [allVacuous, Bool.and_eq_true] at h
      have hfirst : condition.formula.Matches related (.joinAll .and []) :=
        formula_of_isVacuous condition h.1
      have hrest : (Formula.joinAll .and (formulas rest)).Matches related (.joinAll .and []) :=
        formulas_of_allVacuous rest h.2
      exact hfirst.joinAll_append hrest
termination_by structural conditions

end

/-- A single test is read as an atom. -/
theorem render_reads_test (hn : n.Nests d .operators) (condition : Condition)
    (hc : condition.isTest = true) (h : ∀ part ∈ condition.parts, part.Orderly d) :
    Render.Gives (condition.render d n) (ReadsOperand d n (.atom condition)) := by
  intro bound text bound' hrun
  have hnests := condition.render_nests (hn.mono (Reserved.le_operators .connectives))
    (fun _ h => h) (by simp [hc]) h bound text bound' hrun
  have hstarts := condition.render_startsTest hn hc h bound text bound' hrun
  obtain ⟨items, hgathers, hfree, hread⟩ := hstarts.gathers hnests
  refine ⟨items, ⟨hgathers, ?_⟩, hfree⟩
  rw [Dialect.readItems_operand hfree, hread]
  exact .atom ⟨bound, text, bound', hrun, rfl⟩

/-- A subquery without rows is read as the negation of one with rows. -/
theorem render_reads_notExists (hn : n.Nests d .operators) (query : Select)
    (h : ∀ part ∈ query.parts, part.Orderly d) :
    Render.Gives ((Condition.exists query true).render d n)
      (ReadsOperand d n (.not (.atom (.exists query false)))) := by
  intro bound text bound' hrun
  obtain ⟨⟨inner, mid⟩, hquery, hpure⟩ := bind_eq_ok.1 hrun
  cases hpure
  have hexists : StateT.run ((Condition.exists query false).render d n) bound =
      .ok ("EXISTS (" ++ inner ++ ")", bound') := bind_eq_ok.2 ⟨_, hquery, rfl⟩
  have hparts : ∀ part ∈ (Condition.exists query false).parts, part.Orderly d := by
    rw [Condition.parts, List.forall_mem_cons]
    exact ⟨trivial, h⟩
  have htest := render_reads_test hn _ rfl hparts bound _ bound' hexists
  rw [String.append_assoc] at htest
  have hnot : "NOT EXISTS (" = "NOT " ++ "EXISTS (" := by decide
  have htext : "NOT EXISTS (" ++ inner ++ ")" = "NOT " ++ ("EXISTS (" ++ (inner ++ ")")) := by
    rw [hnot, String.append_assoc, String.append_assoc]
  change ReadsOperand d n _ ("NOT EXISTS (" ++ inner ++ ")")
  rw [htext]
  exact htest.not (by decide)

mutual

/-- The text of a condition is read as the condition. -/
theorem render_reads (hn : n.Nests d .operators) (condition : Condition)
    (h : ∀ part ∈ condition.parts, part.Orderly d) :
    Render.Gives (condition.render d n) (Reads d n condition) := by
  match condition with
  | .requires join => exact .pure (readsOperand_boolText (.const true)).reads
  | .joined join inner =>
      rw [Condition.parts, List.forall_mem_cons, List.forall_mem_append] at h
      exact inner.render_reads hn h.2.2
  | .all conditions =>
      rw [Condition.parts, List.forall_mem_cons] at h
      refine (renderConjuncts_reads hn conditions h.2).map fun texts ⟨htexts, hlength⟩ => ?_
      cases texts with
      | nil => exact (readsOperand_boolText htexts.settled).reads
      | cons text rest =>
          refine htexts.reads rfl fun hsingle => List.eq_nil_of_length_eq_zero ?_
          rw [length_of_isSingle (.inl hsingle), List.length_cons] at hlength
          omega
  | .any conditions =>
      rw [Condition.parts, List.forall_mem_cons] at h
      refine (renderDisjuncts_reads hn conditions h.2).map fun texts ⟨htexts, hlength⟩ => ?_
      cases texts with
      | nil =>
          obtain rfl : conditions = [] := List.eq_nil_of_length_eq_zero hlength.symm
          exact (readsOperand_boolText htexts.settled).reads
      | cons text rest =>
          have hne : conditions.isEmpty = false := by
            cases conditions with
            | nil => cases hlength
            | cons => rfl
          rw [hne]
          refine htexts.reads rfl fun hsingle => List.eq_nil_of_length_eq_zero ?_
          rw [length_of_isSingle (.inr hsingle), List.length_cons] at hlength
          omega
  | .not condition =>
      rw [Condition.parts, List.forall_mem_cons] at h
      refine (condition.render_reads hn h.2).map fun text ⟨items, hitems, _⟩ => ?_
      have hnot : "NOT (" = "NOT " ++ "(" := by decide
      have hinner := hitems.enclose
      rw [String.append_assoc] at hinner
      rw [hnot, String.append_assoc, String.append_assoc]
      exact (hinner.not (by decide)).reads
  | .oneOf expr [] negated =>
      have hfield : Render.Gives (expr.render d n) fun _ => True := fun _ _ _ _ => trivial
      exact hfield.bind fun field _ => .pure (readsOperand_boolText (.const negated)).reads
  | .exists query true =>
      rw [Condition.parts, List.forall_mem_cons] at h
      exact (render_reads_notExists hn query h.2).imp fun text htext => htext.reads
  | .compare .. | .nullSafeEq .. | .isNull .. | .isJsonNull .. | .oneOf _ (_ :: _) _ | .like ..
  | .arrayContains .. | .overlaps .. | .exists _ false =>
      refine (render_reads_test hn _ rfl h).imp fun text htext => ?_
      rw [← formula_of_isTest rfl] at htext
      exact htext.reads
termination_by structural condition

/-- The texts of a conjunction are read as its parts, of which some may be left out. -/
theorem renderConjuncts_reads (hn : n.Nests d .operators) (conditions : List Condition)
    (h : ∀ part ∈ Condition.partsAll conditions, part.Orderly d) :
    Render.Gives (Condition.renderConjuncts d n conditions) fun texts =>
      ReadsAll d n .and (formulas conditions) texts ∧ texts.length ≤ conditions.length := by
  match conditions with
  | [] => exact .pure ⟨.nil, Nat.le_refl 0⟩
  | condition :: rest =>
      rw [Condition.partsAll, List.forall_mem_append] at h
      rw [Condition.renderConjuncts]
      split
      next hvacuous =>
        exact (renderConjuncts_reads hn rest h.2).imp fun texts ⟨htexts, hlength⟩ =>
          ⟨htexts.skip (formula_of_isVacuous condition hvacuous), Nat.le_succ_of_le hlength⟩
      next =>
        refine (condition.render_reads hn h.1).bind fun text htext => ?_
        exact (renderConjuncts_reads hn rest h.2).map fun texts ⟨htexts, hlength⟩ =>
          ⟨.cons htext.enclosed htexts, Nat.succ_le_succ hlength⟩
termination_by structural conditions

/-- The texts of a disjunction are read as its parts, one for each. -/
theorem renderDisjuncts_reads (hn : n.Nests d .operators) (conditions : List Condition)
    (h : ∀ part ∈ Condition.partsAll conditions, part.Orderly d) :
    Render.Gives (Condition.renderDisjuncts d n conditions) fun texts =>
      ReadsAll d n .or (formulas conditions) texts ∧ texts.length = conditions.length := by
  match conditions with
  | [] => exact .pure ⟨.nil, rfl⟩
  | condition :: rest =>
      rw [Condition.partsAll, List.forall_mem_append] at h
      refine (condition.render_reads hn h.1).bind fun text htext => ?_
      exact (renderDisjuncts_reads hn rest h.2).map fun texts ⟨htexts, hlength⟩ =>
        ⟨.cons htext.enclosed htexts, congrArg Nat.succ hlength⟩
termination_by structural conditions

end

/-- The text of a condition is read, by the precedence of the connectives, as a formula over the
tests of the condition in their order, and it has the truth value of the condition whatever the
truth values of the tests are. -/
theorem render_read {condition : Condition} {bound bound' : Array Value} {text : String}
    (hn : n.NoOperator) (h : ∀ part ∈ condition.parts, part.Orderly d)
    (hrun : StateT.run (condition.render d n) bound = .ok (text, bound')) :
    ∃ e, d.read? text = some e ∧
      List.Forall₂ (Writes d n) condition.formula.atoms e.atoms ∧
      ∀ v, e.eval v 0 = condition.formula.eval v 0 := by
  obtain ⟨items, hitems, -⟩ := render_reads hn.nests condition h bound text bound' hrun
  refine ⟨d.readItems items, ?_, hitems.agrees.atoms, fun v => hitems.agrees.eval v 0⟩
  rw [Dialect.read?, if_pos hitems.gathers.closed, hitems.gathers.gather]

namespace Sample

/-- A column of the statement's own table. -/
def column (name : String) (h : Identifier.isValid name.toList = true) : Expr :=
  .column ⟨.own, ⟨name, h⟩⟩

/-- The join with the table of owners. -/
def owners : Join :=
  ⟨.left, ⟨⟨"owners", .refl true⟩, none⟩, .all []⟩

/-- Alternatives beside a condition on the owner and a negation. -/
def mixed : Condition :=
  .all [.any [.isNull (column "a" (.refl true)) false,
      .compare (column "b" (.refl true)) .lt (.keyword "NOW()")],
    .requires owners, .joined owners (.any [.isNull (column "c" (.refl true)) true]),
    .not (.isNull (column "d" (.refl true)) false)]

end Sample

open Sample in
/-- A text with all three connectives is read as the formula of its condition. -/
theorem render_read_mixed :
    StateT.run (mixed.render .mysql .none) #[] =
        .ok ("(a IS NULL OR b < NOW()) AND c IS NOT NULL AND NOT (d IS NULL)", #[]) ∧
      (∀ part ∈ mixed.parts, part.Orderly .mysql) ∧
      ∃ e, Dialect.mysql.read?
          "(a IS NULL OR b < NOW()) AND c IS NOT NULL AND NOT (d IS NULL)" = some e ∧
        List.Forall₂ (Writes .mysql .none) mixed.formula.atoms e.atoms ∧
        ∀ v, e.eval v 0 = mixed.formula.eval v 0 := by
  have hcolumn : ∀ name (h : Identifier.isValid name.toList = true),
      Reserved.operators.holds (.word name.toList) = false →
      (Part.expr (column name h)).Orderly .mysql :=
    fun name h hname => ⟨hname, by rintro _ ⟨⟩⟩
  have hnow : (Part.expr (.keyword "NOW()")).Orderly .mysql := ⟨by decide, by decide⟩
  have hparts : ∀ part ∈ mixed.parts, part.Orderly .mysql := by
    simp only [mixed, owners, Condition.parts, Condition.partsAll, Join.parts, Expr.parts, column,
      List.forall_mem_cons, List.cons_append, List.nil_append]
    exact ⟨trivial, trivial, trivial, hcolumn "a" _ rfl, trivial, hcolumn "b" _ rfl, hnow, trivial,
      trivial, trivial, trivial, trivial, trivial, hcolumn "c" _ rfl, trivial, trivial,
      hcolumn "d" _ rfl, by simp⟩
  have hrender : StateT.run (mixed.render .mysql .none) #[] =
      .ok ("(a IS NULL OR b < NOW()) AND c IS NOT NULL AND NOT (d IS NULL)", #[]) := rfl
  exact ⟨hrender, hparts, render_read Namespaces.noOperator_none hparts hrender⟩

end Condition

end FilterSql
