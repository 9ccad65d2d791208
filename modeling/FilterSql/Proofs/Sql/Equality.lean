import FilterSql.Sql.Syntax
import Mathlib.Logic.Basic

/-!
# Equality of statements

The equality of the syntax of queries compares bound values as numbers, so it is not that of the
trees: a NaN differs from itself, and the two zeros are equal. It is symmetric and transitive all
the same, so joins that equal a join are told apart from others by any of them. In both proofs trees
with different constructors at the root are unequal by computation, and the parts of the others are
compared one by one.
-/

namespace FilterSql

/-! ## Symmetry -/

/-- Two numbers are the same in either order. -/
theorem Binary64.same_comm (x y : Binary64) : x.same y = y.same x := by
  have hbits : (x.bits == y.bits) = (y.bits == x.bits) := BEq.comm
  simp only [same, hbits, Bool.and_comm x.isZero, Bool.and_comm (!x.isNaN)]

mutual

/-- Two values are the same in either order. -/
theorem Value.same_comm (a b : Value) : a.same b = b.same a := by
  match a with
  | .null => cases b <;> rfl
  | .bool _ => cases b <;> first | rfl | exact BEq.comm
  | .int _ => cases b <;> first | rfl | exact BEq.comm
  | .float x => cases b <;> first | rfl | exact x.same_comm _
  | .string _ => cases b <;> first | rfl | exact BEq.comm
  | .instant _ => cases b <;> first | rfl | exact BEq.comm
  | .array items => cases b <;> first | rfl | exact Value.sameAll_comm items _

/-- Two lists of values are the same in either order. -/
theorem Value.sameAll_comm (as bs : List Value) :
    Value.sameAll as bs = Value.sameAll bs as := by
  match as, bs with
  | [], [] | [], _ :: _ | _ :: _, [] => rfl
  | a :: as, b :: bs => exact congrArg₂ and (a.same_comm b) (Value.sameAll_comm as bs)

end

mutual

/-- Two expressions are the same in either order. -/
theorem Expr.same_comm (a b : Expr) : a.same b = b.same a := by
  match a with
  | .column _ => cases b <;> first | rfl | exact BEq.comm
  | .param v => cases b <;> first | rfl | exact v.same_comm _
  | .null => cases b <;> rfl
  | .keyword _ => cases b <;> first | rfl | exact BEq.comm
  | .lower a => cases b <;> first | rfl | exact a.same_comm _
  | .cast a _ => cases b <;> first | rfl | exact congrArg₂ and (a.same_comm _) BEq.comm
  | .jsonExtract a _ => cases b <;> first | rfl | exact congrArg₂ and (a.same_comm _) BEq.comm
  | .jsonUnquote a => cases b <;> first | rfl | exact a.same_comm _
  | .jsonString _ _ => cases b <;> first | rfl | exact congrArg₂ and BEq.comm BEq.comm
  | .countRows => cases b <;> rfl
  | .count a => cases b <;> first | rfl | exact a.same_comm _
  | .sum a => cases b <;> first | rfl | exact a.same_comm _
  | .coalesce as => cases b <;> first | rfl | exact Expr.sameAll_comm as _
  | .subquery s => cases b <;> first | rfl | exact s.same_comm _
  | .exists s => cases b <;> first | rfl | exact s.same_comm _
termination_by structural a

/-- Two lists of expressions are the same in either order. -/
theorem Expr.sameAll_comm (as bs : List Expr) :
    Expr.sameAll as bs = Expr.sameAll bs as := by
  match as, bs with
  | [], [] | [], _ :: _ | _ :: _, [] => rfl
  | a :: as, b :: bs => exact congrArg₂ and (a.same_comm b) (Expr.sameAll_comm as bs)
termination_by structural as

/-- Two conditions are the same in either order. -/
theorem Condition.same_comm (a b : Condition) : a.same b = b.same a := by
  match a with
  | .compare left _ right =>
      cases b <;> first
        | rfl
        | exact congrArg₂ and (congrArg₂ and (left.same_comm _) BEq.comm) (right.same_comm _)
  | .nullSafeEq left right =>
      cases b <;> first | rfl | exact congrArg₂ and (left.same_comm _) (right.same_comm _)
  | .isNull a _ => cases b <;> first | rfl | exact congrArg₂ and (a.same_comm _) BEq.comm
  | .isJsonNull a => cases b <;> first | rfl | exact a.same_comm _
  | .oneOf a vs _ =>
      cases b <;> first
        | rfl
        | exact congrArg₂ and (congrArg₂ and (a.same_comm _) (Value.sameAll_comm vs _)) BEq.comm
  | .like a v _ =>
      cases b <;> first
        | rfl
        | exact congrArg₂ and (congrArg₂ and (a.same_comm _) (v.same_comm _)) BEq.comm
  | .arrayContains a v _ =>
      cases b <;> first
        | rfl
        | exact congrArg₂ and (congrArg₂ and (a.same_comm _) (v.same_comm _)) BEq.comm
  | .overlaps a vs =>
      cases b <;> first | rfl | exact congrArg₂ and (a.same_comm _) (Value.sameAll_comm vs _)
  | .exists s _ => cases b <;> first | rfl | exact congrArg₂ and (s.same_comm _) BEq.comm
  | .requires join => cases b <;> first | rfl | exact join.same_comm _
  | .joined join a =>
      cases b <;> first | rfl | exact congrArg₂ and (join.same_comm _) (a.same_comm _)
  | .all as => cases b <;> first | rfl | exact Condition.sameAll_comm as _
  | .any as => cases b <;> first | rfl | exact Condition.sameAll_comm as _
  | .not a => cases b <;> first | rfl | exact a.same_comm _
termination_by structural a

/-- Two lists of conditions are the same in either order. -/
theorem Condition.sameAll_comm (as bs : List Condition) :
    Condition.sameAll as bs = Condition.sameAll bs as := by
  match as, bs with
  | [], [] | [], _ :: _ | _ :: _, [] => rfl
  | a :: as, b :: bs => exact congrArg₂ and (a.same_comm b) (Condition.sameAll_comm as bs)
termination_by structural as

/-- Two predicates are the same in either order. -/
theorem Predicate.same_comm (p q : Predicate) : p.same q = q.same p := by
  match p with
  | .always => cases q <;> rfl
  | .never => cases q <;> rfl
  | .condition a => cases q <;> first | rfl | exact a.same_comm _
termination_by structural p

/-- Two joins are the same in either order. -/
theorem Join.same_comm (a b : Join) : a.same b = b.same a := by
  match a with
  | ⟨_, _, on⟩ =>
      obtain ⟨_, _, on'⟩ := b
      exact congrArg₂ and (congrArg₂ and BEq.comm BEq.comm) (on.same_comm on')
termination_by structural a

/-- Two lists of joins are the same in either order. -/
theorem Join.sameAll_comm (as bs : List Join) :
    Join.sameAll as bs = Join.sameAll bs as := by
  match as, bs with
  | [], [] | [], _ :: _ | _ :: _, [] => rfl
  | a :: as, b :: bs => exact congrArg₂ and (a.same_comm b) (Join.sameAll_comm as bs)
termination_by structural as

/-- Two lists of items are the same in either order. -/
theorem SelectItem.sameAll_comm (as bs : List SelectItem) :
    SelectItem.sameAll as bs = SelectItem.sameAll bs as := by
  match as, bs with
  | [], [] | [], ⟨_, _⟩ :: _ | ⟨_, _⟩ :: _, [] => rfl
  | ⟨a, _⟩ :: as, ⟨b, _⟩ :: bs =>
      exact congrArg₂ and (congrArg₂ and (a.same_comm b) BEq.comm)
        (SelectItem.sameAll_comm as bs)
termination_by structural as

/-- Two orders are the same in either order. -/
theorem OrderTerm.sameAll_comm (as bs : List OrderTerm) :
    OrderTerm.sameAll as bs = OrderTerm.sameAll bs as := by
  match as, bs with
  | [], [] | [], ⟨_, _⟩ :: _ | ⟨_, _⟩ :: _, [] => rfl
  | ⟨a, _⟩ :: as, ⟨b, _⟩ :: bs =>
      exact congrArg₂ and (congrArg₂ and (a.same_comm b) BEq.comm)
        (OrderTerm.sameAll_comm as bs)
termination_by structural as

/-- Two statements are the same in either order. -/
theorem Select.same_comm (s t : Select) : s.same t = t.same s := by
  match s with
  | ⟨items, source, joins, filter, groupBy, having, orderBy, limit, offset, timeout⟩ =>
      obtain ⟨items', source', joins', filter', groupBy', having', orderBy', limit', offset',
        timeout'⟩ := t
      have hhead := congrArg₂ and (congrArg₂ and (congrArg₂ and (congrArg₂ and
        (SelectItem.sameAll_comm items items') (BEq.comm (a := source) (b := source')))
        (Join.sameAll_comm joins joins')) (filter.same_comm filter'))
        (Expr.sameAll_comm groupBy groupBy')
      have horder := OrderTerm.sameAll_comm orderBy orderBy'
      have hlimit : (limit == limit') = (limit' == limit) := BEq.comm
      have hoffset : (offset == offset') = (offset' == offset) := BEq.comm
      have htimeout : (timeout == timeout') = (timeout' == timeout) := BEq.comm
      have hall {x y : Bool} (hhaving : x = y) :=
        congrArg₂ and (congrArg₂ and (congrArg₂ and (congrArg₂ and (congrArg₂ and hhead hhaving)
          horder) hlimit) hoffset) htimeout
      match having, having' with
      | none, none => exact hall rfl
      | none, some _ => exact hall rfl
      | some _, none => exact hall rfl
      | some a, some b => exact hall (a.same_comm b)
termination_by structural s

end

/-! ## Transitivity -/

/-- What two tests have in common with a third, both of them have. -/
theorem trans_and {x y x' y' x'' y'' : Bool} (hx : x = true → x' = true → x'' = true)
    (hy : y = true → y' = true → y'' = true) (h : (x && y) = true) (h' : (x' && y') = true) :
    (x'' && y'') = true := by
  obtain ⟨h₁, h₂⟩ := Bool.and_eq_true_iff.1 h
  obtain ⟨h₁', h₂'⟩ := Bool.and_eq_true_iff.1 h'
  exact Bool.and_eq_true_iff.2 ⟨hx h₁ h₁', hy h₂ h₂'⟩

/-- Numbers that are the same as one number are the same. A number that is no number is not even the
same as itself. -/
theorem Binary64.same_trans {x y z : Binary64} (hxy : x.same y = true) (hyz : y.same z = true) :
    x.same z = true := by
  simp only [same, Bool.and_eq_true, Bool.or_eq_true, beq_iff_eq] at hxy hyz ⊢
  obtain ⟨⟨hx, -⟩, hxy⟩ := hxy
  obtain ⟨⟨-, hz⟩, hyz⟩ := hyz
  refine ⟨⟨hx, hz⟩, ?_⟩
  rcases hxy with hxy | hxy
  · obtain rfl : x = y := congrArg mk hxy
    exact hyz
  · rcases hyz with hyz | hyz
    · obtain rfl : y = z := congrArg mk hyz
      exact .inr hxy
    · exact .inr ⟨hxy.1, hyz.2⟩

mutual

/-- Values that are the same as one value are the same. -/
theorem Value.same_trans (a : Value) {b c : Value} (hab : a.same b = true)
    (hbc : b.same c = true) : a.same c = true := by
  match a with
  | .null =>
      cases b <;> try cases hab
      exact hbc
  | .bool _ =>
      cases b <;> try cases hab
      cases c <;> try cases hbc
      exact BEq.trans hab hbc
  | .int _ =>
      cases b <;> try cases hab
      cases c <;> try cases hbc
      exact BEq.trans hab hbc
  | .float x =>
      cases b <;> try cases hab
      cases c <;> try cases hbc
      exact x.same_trans hab hbc
  | .string _ =>
      cases b <;> try cases hab
      cases c <;> try cases hbc
      exact BEq.trans hab hbc
  | .instant _ =>
      cases b <;> try cases hab
      cases c <;> try cases hbc
      exact BEq.trans hab hbc
  | .array items =>
      cases b <;> try cases hab
      cases c <;> try cases hbc
      exact Value.sameAll_trans items hab hbc

/-- Lists of values that are the same as one list are the same. -/
theorem Value.sameAll_trans (as : List Value) {bs cs : List Value}
    (hab : Value.sameAll as bs = true) (hbc : Value.sameAll bs cs = true) :
    Value.sameAll as cs = true := by
  match as with
  | [] =>
      cases bs <;> try cases hab
      exact hbc
  | a :: as =>
      cases bs <;> try cases hab
      cases cs <;> try cases hbc
      exact trans_and a.same_trans (Value.sameAll_trans as) hab hbc

end

mutual

/-- Expressions that are the same as one expression are the same. -/
theorem Expr.same_trans (a : Expr) {b c : Expr} (hab : a.same b = true)
    (hbc : b.same c = true) : a.same c = true := by
  match a with
  | .column _ =>
      cases b <;> try cases hab
      cases c <;> try cases hbc
      exact BEq.trans hab hbc
  | .param v =>
      cases b <;> try cases hab
      cases c <;> try cases hbc
      exact v.same_trans hab hbc
  | .null =>
      cases b <;> try cases hab
      exact hbc
  | .keyword _ =>
      cases b <;> try cases hab
      cases c <;> try cases hbc
      exact BEq.trans hab hbc
  | .lower a =>
      cases b <;> try cases hab
      cases c <;> try cases hbc
      exact a.same_trans hab hbc
  | .cast a _ =>
      cases b <;> try cases hab
      cases c <;> try cases hbc
      exact trans_and a.same_trans BEq.trans hab hbc
  | .jsonExtract a _ =>
      cases b <;> try cases hab
      cases c <;> try cases hbc
      exact trans_and a.same_trans BEq.trans hab hbc
  | .jsonUnquote a =>
      cases b <;> try cases hab
      cases c <;> try cases hbc
      exact a.same_trans hab hbc
  | .jsonString _ _ =>
      cases b <;> try cases hab
      cases c <;> try cases hbc
      exact trans_and BEq.trans BEq.trans hab hbc
  | .countRows =>
      cases b <;> try cases hab
      exact hbc
  | .count a =>
      cases b <;> try cases hab
      cases c <;> try cases hbc
      exact a.same_trans hab hbc
  | .sum a =>
      cases b <;> try cases hab
      cases c <;> try cases hbc
      exact a.same_trans hab hbc
  | .coalesce as =>
      cases b <;> try cases hab
      cases c <;> try cases hbc
      exact Expr.sameAll_trans as hab hbc
  | .subquery s =>
      cases b <;> try cases hab
      cases c <;> try cases hbc
      exact s.same_trans hab hbc
  | .exists s =>
      cases b <;> try cases hab
      cases c <;> try cases hbc
      exact s.same_trans hab hbc
termination_by structural a

/-- Lists of expressions that are the same as one list are the same. -/
theorem Expr.sameAll_trans (as : List Expr) {bs cs : List Expr}
    (hab : Expr.sameAll as bs = true) (hbc : Expr.sameAll bs cs = true) :
    Expr.sameAll as cs = true := by
  match as with
  | [] =>
      cases bs <;> try cases hab
      exact hbc
  | a :: as =>
      cases bs <;> try cases hab
      cases cs <;> try cases hbc
      exact trans_and a.same_trans (Expr.sameAll_trans as) hab hbc
termination_by structural as

/-- Conditions that are the same as one condition are the same. -/
theorem Condition.same_trans (a : Condition) {b c : Condition} (hab : a.same b = true)
    (hbc : b.same c = true) : a.same c = true := by
  match a with
  | .compare left _ right =>
      cases b <;> try cases hab
      cases c <;> try cases hbc
      exact trans_and (trans_and left.same_trans BEq.trans) right.same_trans hab hbc
  | .nullSafeEq left right =>
      cases b <;> try cases hab
      cases c <;> try cases hbc
      exact trans_and left.same_trans right.same_trans hab hbc
  | .isNull a _ =>
      cases b <;> try cases hab
      cases c <;> try cases hbc
      exact trans_and a.same_trans BEq.trans hab hbc
  | .isJsonNull a =>
      cases b <;> try cases hab
      cases c <;> try cases hbc
      exact a.same_trans hab hbc
  | .oneOf a vs _ =>
      cases b <;> try cases hab
      cases c <;> try cases hbc
      exact trans_and (trans_and a.same_trans (Value.sameAll_trans vs)) BEq.trans hab hbc
  | .like a v _ =>
      cases b <;> try cases hab
      cases c <;> try cases hbc
      exact trans_and (trans_and a.same_trans v.same_trans) BEq.trans hab hbc
  | .arrayContains a v _ =>
      cases b <;> try cases hab
      cases c <;> try cases hbc
      exact trans_and (trans_and a.same_trans v.same_trans) BEq.trans hab hbc
  | .overlaps a vs =>
      cases b <;> try cases hab
      cases c <;> try cases hbc
      exact trans_and a.same_trans (Value.sameAll_trans vs) hab hbc
  | .exists s _ =>
      cases b <;> try cases hab
      cases c <;> try cases hbc
      exact trans_and s.same_trans BEq.trans hab hbc
  | .requires join =>
      cases b <;> try cases hab
      cases c <;> try cases hbc
      exact join.same_trans hab hbc
  | .joined join a =>
      cases b <;> try cases hab
      cases c <;> try cases hbc
      exact trans_and join.same_trans a.same_trans hab hbc
  | .all as =>
      cases b <;> try cases hab
      cases c <;> try cases hbc
      exact Condition.sameAll_trans as hab hbc
  | .any as =>
      cases b <;> try cases hab
      cases c <;> try cases hbc
      exact Condition.sameAll_trans as hab hbc
  | .not a =>
      cases b <;> try cases hab
      cases c <;> try cases hbc
      exact a.same_trans hab hbc
termination_by structural a

/-- Lists of conditions that are the same as one list are the same. -/
theorem Condition.sameAll_trans (as : List Condition) {bs cs : List Condition}
    (hab : Condition.sameAll as bs = true) (hbc : Condition.sameAll bs cs = true) :
    Condition.sameAll as cs = true := by
  match as with
  | [] =>
      cases bs <;> try cases hab
      exact hbc
  | a :: as =>
      cases bs <;> try cases hab
      cases cs <;> try cases hbc
      exact trans_and a.same_trans (Condition.sameAll_trans as) hab hbc
termination_by structural as

/-- Predicates that are the same as one predicate are the same. -/
theorem Predicate.same_trans (p : Predicate) {q r : Predicate} (hpq : p.same q = true)
    (hqr : q.same r = true) : p.same r = true := by
  match p with
  | .always =>
      cases q <;> try cases hpq
      exact hqr
  | .never =>
      cases q <;> try cases hpq
      exact hqr
  | .condition a =>
      cases q <;> try cases hpq
      cases r <;> try cases hqr
      exact a.same_trans hpq hqr
termination_by structural p

/-- Joins that are the same as one join are the same. -/
theorem Join.same_trans (a : Join) {b c : Join} (hab : a.same b = true)
    (hbc : b.same c = true) : a.same c = true := by
  match a with
  | ⟨_, _, on⟩ =>
      obtain ⟨_, _, _⟩ := b
      obtain ⟨_, _, _⟩ := c
      exact trans_and (trans_and BEq.trans BEq.trans) on.same_trans hab hbc
termination_by structural a

/-- Lists of joins that are the same as one list are the same. -/
theorem Join.sameAll_trans (as : List Join) {bs cs : List Join}
    (hab : Join.sameAll as bs = true) (hbc : Join.sameAll bs cs = true) :
    Join.sameAll as cs = true := by
  match as with
  | [] =>
      cases bs <;> try cases hab
      exact hbc
  | a :: as =>
      cases bs <;> try cases hab
      cases cs <;> try cases hbc
      exact trans_and a.same_trans (Join.sameAll_trans as) hab hbc
termination_by structural as

/-- Lists of items that are the same as one list are the same. -/
theorem SelectItem.sameAll_trans (as : List SelectItem) {bs cs : List SelectItem}
    (hab : SelectItem.sameAll as bs = true) (hbc : SelectItem.sameAll bs cs = true) :
    SelectItem.sameAll as cs = true := by
  match as, bs, cs with
  | [], [], _ => exact hbc
  | [], ⟨_, _⟩ :: _, _ => cases hab
  | ⟨_, _⟩ :: _, [], _ => cases hab
  | ⟨_, _⟩ :: _, ⟨_, _⟩ :: _, [] => cases hbc
  | ⟨a, _⟩ :: as, ⟨_, _⟩ :: _, ⟨_, _⟩ :: _ =>
      exact trans_and (trans_and a.same_trans BEq.trans) (SelectItem.sameAll_trans as) hab hbc
termination_by structural as

/-- Orders that are the same as one order are the same. -/
theorem OrderTerm.sameAll_trans (as : List OrderTerm) {bs cs : List OrderTerm}
    (hab : OrderTerm.sameAll as bs = true) (hbc : OrderTerm.sameAll bs cs = true) :
    OrderTerm.sameAll as cs = true := by
  match as, bs, cs with
  | [], [], _ => exact hbc
  | [], ⟨_, _⟩ :: _, _ => cases hab
  | ⟨_, _⟩ :: _, [], _ => cases hab
  | ⟨_, _⟩ :: _, ⟨_, _⟩ :: _, [] => cases hbc
  | ⟨a, _⟩ :: as, ⟨_, _⟩ :: _, ⟨_, _⟩ :: _ =>
      exact trans_and (trans_and a.same_trans BEq.trans) (OrderTerm.sameAll_trans as) hab hbc
termination_by structural as

/-- Statements that are the same as one statement are the same. -/
theorem Select.same_trans (s : Select) {t u : Select} (hst : s.same t = true)
    (htu : t.same u = true) : s.same u = true := by
  match s with
  | ⟨items, source, joins, filter, groupBy, having, orderBy, limit, offset, timeout⟩ =>
      obtain ⟨items', source', joins', filter', groupBy', having', orderBy', limit', offset',
        timeout'⟩ := t
      obtain ⟨items'', source'', joins'', filter'', groupBy'', having'', orderBy'', limit'',
        offset'', timeout''⟩ := u
      have hitems : SelectItem.sameAll items items' → SelectItem.sameAll items' items'' →
          SelectItem.sameAll items items'' := SelectItem.sameAll_trans items
      have hsource : source == source' → source' == source'' → source == source'' := BEq.trans
      have hjoins : Join.sameAll joins joins' → Join.sameAll joins' joins'' →
          Join.sameAll joins joins'' := Join.sameAll_trans joins
      have hfilter : filter.same filter' → filter'.same filter'' → filter.same filter'' :=
        filter.same_trans
      have hgroups : Expr.sameAll groupBy groupBy' → Expr.sameAll groupBy' groupBy'' →
          Expr.sameAll groupBy groupBy'' := Expr.sameAll_trans groupBy
      have horder : OrderTerm.sameAll orderBy orderBy' → OrderTerm.sameAll orderBy' orderBy'' →
          OrderTerm.sameAll orderBy orderBy'' := OrderTerm.sameAll_trans orderBy
      have hlimit : limit == limit' → limit' == limit'' → limit == limit'' := BEq.trans
      have hoffset : offset == offset' → offset' == offset'' → offset == offset'' := BEq.trans
      have htimeout : timeout == timeout' → timeout' == timeout'' → timeout == timeout'' :=
        BEq.trans
      have hhead := trans_and (trans_and (trans_and (trans_and hitems hsource) hjoins) hfilter)
        hgroups
      have hall {x y z : Bool} (hhaving : x = true → y = true → z = true) :=
        trans_and (trans_and (trans_and (trans_and (trans_and hhead hhaving) horder) hlimit)
          hoffset) htimeout
      match having, having', having'' with
      | none, none, none => exact hall (fun h _ => h) hst htu
      | some a, some b, some c => exact hall a.same_trans hst htu
      | none, none, some _ | some _, some _, none => exact hall (fun _ h => h) hst htu
      | none, some _, none | none, some _, some _ | some _, none, none | some _, none, some _ =>
          exact hall (fun h _ => absurd h Bool.false_ne_true) hst htu
termination_by structural s

end

/-- Being the same is symmetric and transitive on joins. It is not reflexive, as a join may hold a
number that is none. -/
instance : PartialEquivBEq Join where
  symm {a b} h := (b.same_comm a).trans h
  trans {a _ _} := a.same_trans

end FilterSql
