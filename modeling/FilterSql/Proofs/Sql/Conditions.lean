import FilterSql.Proofs.Sort.Stable
import FilterSql.Proofs.Sql.Evaluation

/-!
# What the operations on conditions mean

The operations on conditions and predicates keep a normal form, by flattening connectives and
turning single tests round. Here they are shown to be Kleene's connectives all the same, and to
keep the joins. `Select.eval_isEmpty` says when a statement without groups gives no row, which is
what `EXISTS` asks.
-/

namespace FilterSql

variable {db : Database}

attribute [local simp] Condition.eval Condition.evalAll Condition.joinSteps Condition.joinStepsAll
  Predicate.eval Predicate.joinSteps

/-- A bound value is the same in every row. -/
theorem Expr.value_param (v : Value) (row : Env) : (Expr.param v).value db row = v :=
  rfl

namespace Condition

variable {g : RowGroup}

/-- The parts of two lists are evaluated one after the other. -/
theorem evalAll_append (as bs : List Condition) :
    evalAll db g (as ++ bs) = evalAll db g as ++ evalAll db g bs := by
  induction as with
  | nil => rfl
  | cons a as ih => simp [ih]

/-- The parts of two lists name their joins one after the other. -/
theorem joinStepsAll_append (as bs : List Condition) :
    joinStepsAll db (as ++ bs) = joinStepsAll db as ++ joinStepsAll db bs := by
  induction as with
  | nil => rfl
  | cons a as ih => simp [ih]

/-- A conjunction over two lists is the conjunction of the two. -/
theorem eval_all_append (as bs : List Condition) :
    (Condition.all (as ++ bs)).eval db g =
      ((Condition.all as).eval db g).and ((Condition.all bs).eval db g) := by
  simp only [eval, evalAll_append, Truth.all_append]

/-- A disjunction over two lists is the disjunction of the two. -/
theorem eval_any_append (as bs : List Condition) :
    (Condition.any (as ++ bs)).eval db g =
      ((Condition.any as).eval db g).or ((Condition.any bs).eval db g) := by
  simp only [eval, evalAll_append, Truth.any_append]

/-- The conjuncts that a condition is flattened to. -/
def conjuncts : Condition → List Condition
  | .all conditions => conditions
  | c => [c]

/-- The disjuncts that a condition is flattened to. -/
def disjuncts : Condition → List Condition
  | .any conditions => conditions
  | c => [c]

/-- What is no conjunction is its own one conjunct. -/
theorem conjuncts_of_ne {c : Condition} (h : ∀ cs, c = .all cs → False) : c.conjuncts = [c] := by
  unfold conjuncts
  split
  · exact (h _ rfl).elim
  · rfl

/-- What is no disjunction is its own one disjunct. -/
theorem disjuncts_of_ne {c : Condition} (h : ∀ cs, c = .any cs → False) : c.disjuncts = [c] := by
  unfold disjuncts
  split
  · exact (h _ rfl).elim
  · rfl

/-- A conjunction lists the conjuncts of both sides. -/
theorem and_eq_all (a b : Condition) : a.and b = .all (a.conjuncts ++ b.conjuncts) := by
  unfold Condition.and
  split
  · rfl
  next hb => rw [conjuncts_of_ne hb, conjuncts]
  next ha => rw [conjuncts_of_ne ha, conjuncts, List.singleton_append]
  next ha hb _ => rw [conjuncts_of_ne ha, conjuncts_of_ne hb, List.singleton_append]

/-- A disjunction lists the disjuncts of both sides. -/
theorem or_eq_any (a b : Condition) : a.or b = .any (a.disjuncts ++ b.disjuncts) := by
  unfold Condition.or
  split
  · rfl
  next hb => rw [disjuncts_of_ne hb, disjuncts]
  next ha => rw [disjuncts_of_ne ha, disjuncts, List.singleton_append]
  next ha hb _ => rw [disjuncts_of_ne ha, disjuncts_of_ne hb, List.singleton_append]

/-- The conjunction of its conjuncts comes to what the condition does. -/
@[simp] theorem eval_all_conjuncts (c : Condition) :
    (Condition.all c.conjuncts).eval db g = c.eval db g := by
  cases c <;> simp [conjuncts]

/-- The disjunction of its disjuncts comes to what the condition does. -/
@[simp] theorem eval_any_disjuncts (c : Condition) :
    (Condition.any c.disjuncts).eval db g = c.eval db g := by
  cases c <;> simp [disjuncts]

/-- The conjuncts of a condition name its joins. -/
@[simp] theorem joinStepsAll_conjuncts (c : Condition) :
    joinStepsAll db c.conjuncts = c.joinSteps db := by
  cases c <;> simp [conjuncts]

/-- The disjuncts of a condition name its joins. -/
@[simp] theorem joinStepsAll_disjuncts (c : Condition) :
    joinStepsAll db c.disjuncts = c.joinSteps db := by
  cases c <;> simp [disjuncts]

/-- Conjunctions are associative as lists of conjuncts. -/
theorem and_assoc (a b c : Condition) : (a.and b).and c = a.and (b.and c) := by
  simp only [and_eq_all, conjuncts, List.append_assoc]

/-- Flattening keeps the conjunction. -/
theorem eval_and (a b : Condition) : (a.and b).eval db g = (a.eval db g).and (b.eval db g) := by
  rw [and_eq_all, eval_all_append, eval_all_conjuncts, eval_all_conjuncts]

/-- Flattening keeps the disjunction. -/
theorem eval_or (a b : Condition) : (a.or b).eval db g = (a.eval db g).or (b.eval db g) := by
  rw [or_eq_any, eval_any_append, eval_any_disjuncts, eval_any_disjuncts]

/-- On a row, `and` is the conjunction of the truth values. -/
theorem truth_and (a b : Condition) (row : Env) :
    (a.and b).truth db row = (a.truth db row).and (b.truth db row) :=
  eval_and a b

/-- On a row, `or` is the disjunction of the truth values. -/
theorem truth_or (a b : Condition) (row : Env) :
    (a.or b).truth db row = (a.truth db row).or (b.truth db row) :=
  eval_or a b

/-- A comparison compares the values of its two sides. -/
theorem truth_compare (left right : Expr) (op : CompareOp) (row : Env) :
    (Condition.compare left op right).truth db row =
      db.test op (left.value db row) (right.value db row) :=
  rfl

/-- The test for `NULL` is never unknown. -/
theorem truth_null (expr : Expr) (row : Env) :
    (Condition.null expr).truth db row = .ofBool (expr.value db row).isNull := by
  rw [← Bool.bne_false (expr.value db row).isNull]
  rfl

/-- The negated test for `NULL` is never unknown. -/
theorem truth_notNull (expr : Expr) (row : Env) :
    (Condition.notNull expr).truth db row = .ofBool !(expr.value db row).isNull := by
  rw [← Bool.bne_true (expr.value db row).isNull]
  rfl

/-- A pattern test matches the value of its operand. -/
theorem truth_like (expr : Expr) (pattern : Value) (row : Env) :
    (Condition.like expr pattern false).truth db row = db.isLike (expr.value db row) pattern := by
  simp [truth, Expr.value]

/-- A test that is turned round comes to the opposite, and to unknown where the test does. -/
theorem eval_negate (c : Condition) : c.negate.eval db g = (c.eval db g).not := by
  unfold negate
  split
  · simp only [eval, Database.test_inverse]
  · simp only [eval, Truth.not_ofBool, Bool.bne_not]
  · next negated => cases negated <;> simp
  · next negated => cases negated <;> simp
  · next query negated => cases negated <;> simp
  · simp
  · simp

/-- A conjunction names the joins of both sides. -/
theorem joinSteps_and (a b : Condition) :
    (a.and b).joinSteps db = a.joinSteps db ++ b.joinSteps db := by
  rw [and_eq_all, joinSteps, joinStepsAll_append, joinStepsAll_conjuncts, joinStepsAll_conjuncts]

/-- A disjunction names the joins of both sides. -/
theorem joinSteps_or (a b : Condition) :
    (a.or b).joinSteps db = a.joinSteps db ++ b.joinSteps db := by
  rw [or_eq_any, joinSteps, joinStepsAll_append, joinStepsAll_disjuncts, joinStepsAll_disjuncts]

/-- Negation names the same joins. -/
@[simp] theorem joinSteps_negate (c : Condition) : c.negate.joinSteps db = c.joinSteps db := by
  unfold negate
  split <;> simp

end Condition

namespace Predicate

variable {g : RowGroup}

/-- A predicate that is a condition comes to what the condition does. -/
theorem truth_condition (c : Condition) (row : Env) :
    (Predicate.condition c).truth db row = c.truth db row :=
  rfl

/-- Settled or not, `and` is the conjunction of the truth values. -/
theorem eval_and (p q : Predicate) : (p.and q).eval db g = (p.eval db g).and (q.eval db g) := by
  unfold Predicate.and
  split
  case h_5 => exact Condition.eval_and _ _
  all_goals simp

/-- Settled or not, `or` is the disjunction of the truth values. -/
theorem eval_or (p q : Predicate) : (p.or q).eval db g = (p.eval db g).or (q.eval db g) := by
  unfold Predicate.or
  split
  case h_5 => exact Condition.eval_or _ _
  all_goals simp

/-- Settled or not, `negate` is the negation of the truth value. -/
theorem eval_negate (p : Predicate) : p.negate.eval db g = (p.eval db g).not := by
  cases p with
  | always => rfl
  | never => rfl
  | condition c => exact c.eval_negate

/-- On a row, `and` is the conjunction of the truth values, settled or not. -/
theorem truth_and (p q : Predicate) (row : Env) :
    (p.and q).truth db row = (p.truth db row).and (q.truth db row) :=
  eval_and p q

/-- On a row, `or` is the disjunction of the truth values, settled or not. -/
theorem truth_or (p q : Predicate) (row : Env) :
    (p.or q).truth db row = (p.truth db row).or (q.truth db row) :=
  eval_or p q

/-- On a row, `negate` is the negation of the truth value, settled or not. -/
theorem truth_negate (p : Predicate) (row : Env) :
    p.negate.truth db row = (p.truth db row).not :=
  eval_negate p

/-- Conjunctions of predicates are associative. -/
theorem and_assoc (p q r : Predicate) : (p.and q).and r = p.and (q.and r) := by
  cases p <;> cases q <;> cases r <;> simp only [Predicate.and, Condition.and_assoc]

/-- The joins of a conjunction are those of its parts, unless it is settled that no row matches. -/
theorem joinSteps_and {p q : Predicate} (h : p.and q ≠ .never) :
    (p.and q).joinSteps db = p.joinSteps db ++ q.joinSteps db := by
  unfold Predicate.and at h ⊢
  split
  case h_5 => exact Condition.joinSteps_and _ _
  all_goals simp_all

/-- The conjunction of predicates without joins has none. -/
theorem joinSteps_and_nil {p q : Predicate} (hp : p.joinSteps db = []) (hq : q.joinSteps db = []) :
    (p.and q).joinSteps db = [] := by
  by_cases h : p.and q = .never
  · rw [h]; rfl
  · rw [joinSteps_and h, hp, hq]; rfl

/-- The disjunction of predicates without joins has none. -/
theorem joinSteps_or_nil {p q : Predicate} (hp : p.joinSteps db = []) (hq : q.joinSteps db = []) :
    (p.or q).joinSteps db = [] := by
  unfold Predicate.or
  split
  case h_5 a b =>
    show (a.or b).joinSteps db = []
    rw [Condition.joinSteps_or]
    exact List.append_eq_nil_iff.2 ⟨hp, hq⟩
  all_goals first | rfl | assumption

/-- The negation of a predicate names the same joins. -/
@[simp] theorem joinSteps_negate (p : Predicate) : p.negate.joinSteps db = p.joinSteps db := by
  cases p with
  | always => rfl
  | never => rfl
  | condition c => exact c.joinSteps_negate

end Predicate

/-- Rows are cut alike before and after they are mapped. -/
theorem window_map {α β : Type} (f : α → β) (limit offset : Option Nat) (l : List α) :
    window limit offset (l.map f) = (window limit offset l).map f := by
  cases limit <;> simp [window]

namespace Select

/-- Without groups, a statement gives a row of items for each row that it chooses. -/
theorem eval_of_ungrouped {s : Select} (h : s.isGrouped = false) (env : Env) :
    s.eval db env =
      (s.run db env).map fun row => SelectItem.evalAll db (.single row) s.items := by
  obtain ⟨items, source, joins, filter, groupBy, having, orderBy, limit, offset, timeout⟩ := s
  simp only [isGrouped, Bool.or_eq_false_iff, Bool.not_eq_false'] at h
  obtain ⟨⟨hkeys, hhaving⟩, hitems⟩ := h
  obtain rfl : having = none := by simpa using hhaving
  -- every row is a group by itself, so the groups are sorted and cut as the rows are
  simp only [eval, hkeys, hitems, Bool.not_true, Option.isSome_none, Bool.or_self, makeGroups,
    Condition.evalOption, decide_true, List.filter_true, stableSort_map, window_map, List.map_map]
  rfl

/-- A statement gives a row for each row that it matches: it makes no groups, neither by a list of
keys nor by an item that counts or adds up, and it is not cut. -/
structure IsPlain (s : Select) : Prop where
  ungrouped : s.isGrouped = false
  limit : s.limit = none
  offset : s.offset = none

/-- Without groups and cuts, a statement gives no row exactly when it matches none. -/
theorem IsPlain.eval_isEmpty {s : Select} (h : s.IsPlain) (env : Env) :
    (s.eval db env).isEmpty = (s.matched db env).isEmpty := by
  rw [eval_of_ungrouped h.ungrouped, List.isEmpty_map, run, h.limit, h.offset]
  exact stableSort_isEmpty _

/-- A statement that is restricted stays without groups and cuts. -/
theorem IsPlain.restrict {s : Select} (h : s.IsPlain) (p : Predicate) : (s.restrict p).IsPlain :=
  ⟨h.ungrouped, h.limit, h.offset⟩

/-- A statement whose filter is settled against every row matches none. -/
theorem matched_eq_nil {s : Select} (h : s.filter = .never) (env : Env) :
    s.matched db env = [] := by
  refine List.filter_eq_nil_iff.2 fun row _ => ?_
  rw [h]
  exact of_decide_eq_false rfl

/-- A predicate that needs no join chooses among the rows that a statement matches. -/
theorem matched_restrict {s : Select} {p : Predicate} (hp : p.joinSteps db = []) (env : Env) :
    (s.restrict p).matched db env =
      (s.matched db env).filter fun row => p.truth db row = .holds := by
  have hholds : ∀ row, (s.filter.and p).truth db row = .holds ↔
      s.filter.truth db row = .holds ∧ p.truth db row = .holds := by
    intro row
    rw [Predicate.truth_and, Truth.and_eq_holds]
  -- a filter that is settled loses the joins that its parts would have made
  by_cases hnever : s.filter.and p = .never
  · have hno : ∀ row, ¬(s.filter.truth db row = .holds ∧ p.truth db row = .holds) := by
      intro row h
      rw [← hholds, hnever] at h
      cases h
    rw [matched_eq_nil hnever env]
    refine (List.filter_eq_nil_iff.2 fun row hrow h => hno row ?_).symm
    exact ⟨of_decide_eq_true (List.mem_filter.1 hrow).2, of_decide_eq_true h⟩
  · have hjoined : (s.restrict p).joinedRows db env = s.joinedRows db env := by
      simp only [joinedRows, restrict, Predicate.joinSteps_and hnever, hp, List.append_nil]
    rw [matched, hjoined, matched, List.filter_filter]
    refine List.filter_congr fun row _ => ?_
    show decide ((s.filter.and p).truth db row = .holds) = _
    rw [decide_eq_decide.2 (hholds row), Bool.decide_and, Bool.and_comm]

end Select

end FilterSql
