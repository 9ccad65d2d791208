import FilterSql.Proofs.Sql.Conditions
import FilterSql.Proofs.Sql.Formula

/-!
# The algebra of conditions

`Condition.kleene` is what a condition comes to under any truth values of its tests, with Kleene's
connectives. Predicates that are put together with `Predicate.and`, `Predicate.or` and
`Predicate.negate` come to what the connectives make of their operands
(`Predicate.kleene_algebra`), although decided operands are dropped and single tests are turned
round in place. All that this needs of the truth values is that a test and the one it is turned
round to are opposites (`Opposes`), which is so on every database (`opposes_eval`).

Each connective makes one list of its operands, so it does not matter how they are bracketed:
`Connective.whole` and `Connective.wholePredicate` are what every bracketing gives.
-/

namespace FilterSql

/-! ## Truth under an assignment -/

mutual

/-- What a condition comes to where its tests have given truth values. A condition on the row that a
join adds stands for itself, and a join that is only required asks nothing. -/
def Condition.kleene (v : Condition → Truth) : Condition → Truth
  | .requires _ => .holds
  | .joined _ inner => inner.kleene v
  | .all conditions => .all (Condition.allKleene v conditions)
  | .any conditions => .any (Condition.allKleene v conditions)
  | .not condition => (condition.kleene v).not
  | test => v test
termination_by structural x => x

/-- What the conditions of a list come to where their tests have given truth values. -/
def Condition.allKleene (v : Condition → Truth) : List Condition → List Truth
  | [] => []
  | c :: rest => c.kleene v :: Condition.allKleene v rest
termination_by structural x => x

end

/-- What a predicate comes to where the tests in it have given truth values. -/
def Predicate.kleene (v : Condition → Truth) : Predicate → Truth
  | .always => .holds
  | .never => .fails
  | .condition c => c.kleene v

/-- Truth values under which the tests that are turned round into each other are opposites. -/
structure Opposes (v : Condition → Truth) : Prop where
  compare : ∀ left op right, v (.compare left op.inverse right) = (v (.compare left op right)).not
  isNull : ∀ expr negated, v (.isNull expr !negated) = (v (.isNull expr negated)).not
  oneOf : ∀ expr values negated,
    v (.oneOf expr values !negated) = (v (.oneOf expr values negated)).not
  like : ∀ expr pattern negated,
    v (.like expr pattern !negated) = (v (.like expr pattern negated)).not
  subquery : ∀ query negated, v (.exists query !negated) = (v (.exists query negated)).not

section Database

variable (db : Database) (g : RowGroup)

/-- On every row the tests that are turned round into each other are opposites. -/
theorem opposes_eval : Opposes fun test => test.eval db g where
  compare left op right := Condition.eval_negate (.compare left op right)
  isNull expr negated := Condition.eval_negate (.isNull expr negated)
  oneOf expr values negated := Condition.eval_negate (.oneOf expr values negated)
  like expr pattern negated := Condition.eval_negate (.like expr pattern negated)
  subquery query negated := Condition.eval_negate (.exists query negated)

mutual

/-- On a row a condition comes to what its tests there make of it. -/
theorem Condition.kleene_eval (c : Condition) :
    (c.kleene fun test => test.eval db g) = c.eval db g := by
  match c with
  | .requires _ => rfl
  | .joined _ inner => exact inner.kleene_eval
  | .all conditions => exact congrArg Truth.all (Condition.allKleene_eval conditions)
  | .any conditions => exact congrArg Truth.any (Condition.allKleene_eval conditions)
  | .not condition => exact congrArg Truth.not condition.kleene_eval
  | .compare .. | .nullSafeEq .. | .isNull .. | .isJsonNull .. | .oneOf .. | .like ..
  | .arrayContains .. | .overlaps .. | .exists .. => rfl
termination_by structural c

/-- Under the truth values on a row, a list comes to what it does on the row. -/
theorem Condition.allKleene_eval (conditions : List Condition) :
    (Condition.allKleene (fun test => test.eval db g) conditions) =
      Condition.evalAll db g conditions := by
  match conditions with
  | [] => rfl
  | c :: rest => exact congrArg₂ List.cons c.kleene_eval (Condition.allKleene_eval rest)
termination_by structural conditions

end

end Database

/-! ## Negation -/

section Negation

variable {v : Condition → Truth}

/-- Turning a test round, wrapping a condition and undoing a negation all come to the opposite. -/
theorem Condition.kleene_negate (hv : Opposes v) (c : Condition) :
    c.negate.kleene v = (c.kleene v).not := by
  unfold negate
  split
  next left op right => exact hv.compare left op right
  next expr negated => exact hv.isNull expr negated
  next expr values negated => exact hv.oneOf expr values negated
  next expr pattern negated => exact hv.like expr pattern negated
  next query negated => exact hv.subquery query negated
  next condition => exact (Truth.not_not _).symm
  next => rfl

/-- A negation needs the joins that the condition needs, in the same order. -/
theorem Condition.joins_negate (c : Condition) : c.negate.joins = c.joins := by
  unfold negate
  split <;> rfl

/-- A predicate that is negated comes to the negation. -/
theorem Predicate.kleene_negate (hv : Opposes v) (p : Predicate) :
    p.negate.kleene v = (p.kleene v).not := by
  cases p with
  | always => rfl
  | never => rfl
  | condition c => exact c.kleene_negate hv

/-- A predicate that is negated names the same joins. -/
theorem Predicate.joins_negate (p : Predicate) : p.negate.joins = p.joins := by
  cases p with
  | always => rfl
  | never => rfl
  | condition c => exact c.joins_negate

/-- As a condition a predicate comes to the same. -/
theorem Predicate.kleene_toCondition (p : Predicate) : p.toCondition.kleene v = p.kleene v := by
  cases p <;> rfl

end Negation

/-! ## The connectives -/

/-- The predicate that is decided. -/
def Predicate.ofBool : Bool → Predicate
  | true => .always
  | false => .never

/-- The condition of a predicate that is not decided. -/
def Predicate.condition? : Predicate → Option Condition
  | .condition c => some c
  | _ => none

namespace Connective

/-- What a connective makes of two conditions. -/
def ofConditions : Connective → Condition → Condition → Condition
  | and => Condition.and
  | or => Condition.or

/-- What a connective makes of two predicates. -/
def ofPredicates : Connective → Predicate → Predicate → Predicate
  | and => Predicate.and
  | or => Predicate.or

/-- A connective over a list of conditions. -/
def list : Connective → List Condition → Condition
  | and => .all
  | or => .any

/-- The operands that a condition has under a connective. -/
def parts : Connective → Condition → List Condition
  | and => Condition.conjuncts
  | or => Condition.disjuncts

/-- What a connective makes of some conditions: one list of all their operands in order, and of a
single condition the condition itself. -/
def whole (c : Connective) : List Condition → Condition
  | [a] => a
  | as => c.list (as.flatMap c.parts)

/-- What a connective makes of some predicates. One that decides the connective stands for all, and
those that add nothing are left out. -/
def wholePredicate (c : Connective) (ps : List Predicate) : Predicate :=
  if ps.any fun p => p.decided? == some !c.unit then .ofBool !c.unit
  else
    match ps.filterMap Predicate.condition? with
    | [] => .ofBool c.unit
    | as => .condition (c.whole as)

variable {v : Condition → Truth} (c : Connective)

/-- A connective lists the operands of both sides. -/
theorem ofConditions_eq (a b : Condition) :
    c.ofConditions a b = c.list (c.parts a ++ c.parts b) := by
  cases c
  exacts [Condition.and_eq_all a b, Condition.or_eq_any a b]

/-- Two lists come to what each of them does, one after the other. -/
theorem allKleene_append (as bs : List Condition) :
    Condition.allKleene v (as ++ bs) = Condition.allKleene v as ++ Condition.allKleene v bs := by
  induction as with
  | nil => rfl
  | cons a as ih =>
      rw [List.cons_append, Condition.allKleene, ih, Condition.allKleene, List.cons_append]

/-- Two lists under a connective come to what the connective makes of the two. -/
theorem kleene_list_append (as bs : List Condition) :
    (c.list (as ++ bs)).kleene v = c.apply ((c.list as).kleene v) ((c.list bs).kleene v) := by
  cases c with
  | and => simp only [list, apply, Condition.kleene, allKleene_append, Truth.all_append]
  | or => simp only [list, apply, Condition.kleene, allKleene_append, Truth.any_append]

/-- One condition under a connective comes to what the condition does. -/
theorem kleene_list_singleton (a : Condition) : (c.list [a]).kleene v = a.kleene v := by
  cases c
  exacts [Truth.and_holds _, Truth.or_fails _]

/-- The operands of a list are those listed. -/
theorem parts_list (as : List Condition) : c.parts (c.list as) = as := by
  cases c <;> rfl

/-- The operands of a condition come to what the condition does. -/
theorem kleene_list_parts (a : Condition) : (c.list (c.parts a)).kleene v = a.kleene v := by
  have hparts : c.list (c.parts a) = a ∨ c.parts a = [a] := by
    cases c <;> cases a <;> first | exact .inl rfl | exact .inr rfl
  rcases hparts with h | h
  · rw [h]
  · rw [h, kleene_list_singleton]

/-- Flattening keeps what the connective comes to. -/
theorem kleene_ofConditions (a b : Condition) :
    (c.ofConditions a b).kleene v = c.apply (a.kleene v) (b.kleene v) := by
  rw [ofConditions_eq, kleene_list_append, kleene_list_parts, kleene_list_parts]

/-- Settling what is decided keeps what the connective comes to. -/
theorem kleene_ofPredicates (p q : Predicate) :
    (c.ofPredicates p q).kleene v = c.apply (p.kleene v) (q.kleene v) := by
  cases p with
  | condition a =>
      cases q with
      | condition b =>
          cases c
          exacts [kleene_ofConditions .and a b, kleene_ofConditions .or a b]
      | always | never =>
          cases c <;> simp [ofPredicates, Predicate.and, Predicate.or, Predicate.kleene, apply]
  | always | never =>
      cases c <;> cases q <;>
        simp [ofPredicates, Predicate.and, Predicate.or, Predicate.kleene, apply]

end Connective

/-- The predicate that the operations on predicates make of an expression. -/
def Formula.build : Formula Predicate → Predicate
  | const value => .ofBool value
  | atom p => p
  | not f => f.build.negate
  | join c f g => c.ofPredicates f.build g.build

/-- What Kleene's connectives make of the truth values of the operands of an expression. -/
def Formula.kleene (v : Condition → Truth) : Formula Predicate → Truth
  | const value => .ofBool value
  | atom p => p.kleene v
  | not f => (f.kleene v).not
  | join c f g => c.apply (f.kleene v) (g.kleene v)

/-- A predicate that is built of others comes to what the connectives make of them. -/
theorem Formula.kleene_build {v : Condition → Truth} (hv : Opposes v) (f : Formula Predicate) :
    f.build.kleene v = f.kleene v := by
  induction f with
  | const value => cases value <;> rfl
  | atom p => rfl
  | not f ih => rw [build, Predicate.kleene_negate hv, ih, kleene]
  | join c f g ihf ihg => rw [build, c.kleene_ofPredicates, ihf, ihg, kleene]

/-! ## Bracketings -/

/-- Operands in a row, put together two at a time. -/
inductive Bracketing (α : Type) where
  | operand (a : α)
  | pair (left right : Bracketing α)

namespace Bracketing

variable {α : Type}

/-- The operands from left to right. -/
def operands : Bracketing α → List α
  | operand a => [a]
  | pair left right => left.operands ++ right.operands

/-- What an operation makes of the operands, pair by pair. -/
def fold (f : α → α → α) : Bracketing α → α
  | operand a => a
  | pair left right => f (left.fold f) (right.fold f)

/-- There is at least one operand. -/
theorem operands_ne_nil (t : Bracketing α) : t.operands ≠ [] := by
  induction t with
  | operand a => exact List.cons_ne_nil _ _
  | pair left right ihl _ => exact List.append_ne_nil_of_left_ne_nil ihl _

/-- An operation that can be done on whole lists does not depend on the brackets. -/
theorem fold_eq {f : α → α → α} {whole : List α → α} (hone : ∀ a, whole [a] = a)
    (happend : ∀ as bs, as ≠ [] → bs ≠ [] → whole (as ++ bs) = f (whole as) (whole bs))
    (t : Bracketing α) : t.fold f = whole t.operands := by
  induction t with
  | operand a => exact (hone a).symm
  | pair left right ihl ihr =>
      rw [fold, operands, happend _ _ left.operands_ne_nil right.operands_ne_nil, ihl, ihr]

end Bracketing

namespace Connective

variable (c : Connective)

/-- Any number of conditions but one are listed with all their operands. -/
theorem whole_of_length {as : List Condition} (h : as.length ≠ 1) :
    c.whole as = c.list (as.flatMap c.parts) := by
  unfold whole
  split
  · exact absurd rfl h
  · rfl

/-- The operands of the whole are those of the conditions. -/
theorem parts_whole (as : List Condition) : c.parts (c.whole as) = as.flatMap c.parts := by
  unfold whole
  split
  · exact (List.flatMap_singleton _ _).symm
  · exact c.parts_list _

/-- The whole of two lists is what the connective makes of the two wholes. -/
theorem whole_append {as bs : List Condition} (ha : as ≠ []) (hb : bs ≠ []) :
    c.whole (as ++ bs) = c.ofConditions (c.whole as) (c.whole bs) := by
  have hlength : (as ++ bs).length ≠ 1 := by
    have := List.length_pos_iff.2 ha
    have := List.length_pos_iff.2 hb
    rw [List.length_append]
    omega
  rw [c.whole_of_length hlength, ofConditions_eq, parts_whole, parts_whole, List.flatMap_append]

/-- A predicate that decides the connective stands for both. -/
theorem ofPredicates_decided (p : Predicate) :
    c.ofPredicates (.ofBool !c.unit) p = .ofBool !c.unit ∧
      c.ofPredicates p (.ofBool !c.unit) = .ofBool !c.unit := by
  cases c <;> cases p <;> exact ⟨rfl, rfl⟩

/-- A predicate that adds nothing is left out. -/
theorem ofPredicates_unit (p : Predicate) :
    c.ofPredicates (.ofBool c.unit) p = p ∧ c.ofPredicates p (.ofBool c.unit) = p := by
  cases c <;> cases p <;> exact ⟨rfl, rfl⟩

/-- Two conditions that are not decided are put together as conditions. -/
theorem ofPredicates_condition (a b : Condition) :
    c.ofPredicates (.condition a) (.condition b) = .condition (c.ofConditions a b) := by
  cases c <;> rfl

/-- The whole of one predicate is the predicate. -/
theorem wholePredicate_singleton (p : Predicate) : c.wholePredicate [p] = p := by
  cases c <;> cases p <;> rfl

/-- The whole of two lists of predicates is what the connective makes of the two wholes. -/
theorem wholePredicate_append (ps qs : List Predicate) :
    c.wholePredicate (ps ++ qs) = c.ofPredicates (c.wholePredicate ps) (c.wholePredicate qs) := by
  simp only [wholePredicate, List.any_append, List.filterMap_append]
  cases ps.any fun p => p.decided? == some !c.unit with
  | true => exact (c.ofPredicates_decided _).1.symm
  | false =>
      -- nothing on the left settles the connective, so what is left there is a condition or a unit
      cases qs.any fun q => q.decided? == some !c.unit with
      | true => exact (c.ofPredicates_decided _).2.symm
      | false =>
          cases ps.filterMap Predicate.condition? with
          | nil => exact (c.ofPredicates_unit _).1.symm
          | cons a as =>
              cases qs.filterMap Predicate.condition? with
              | nil => simpa using (c.ofPredicates_unit _).2.symm
              | cons b bs =>
                  have happend :=
                    c.whole_append (List.cons_ne_nil a as) (List.cons_ne_nil b bs)
                  simpa [ofPredicates_condition] using happend

end Connective

/-- Predicates that are put together come to what Kleene's connectives make of them, also as
conditions. How they are bracketed makes no difference to what they are put together to, which has
the operands in order, and a negation needs the same joins. -/
theorem Predicate.kleene_algebra {v : Condition → Truth} (hv : Opposes v) :
    (∀ f : Formula Predicate,
      f.build.kleene v = f.kleene v ∧ f.build.toCondition.kleene v = f.kleene v) ∧
      (∀ (c : Connective) (t : Bracketing Condition),
        t.fold c.ofConditions = c.whole t.operands) ∧
      (∀ (c : Connective) (t : Bracketing Predicate),
        t.fold c.ofPredicates = c.wholePredicate t.operands) ∧
      (∀ c : Condition, c.negate.joins = c.joins) ∧ ∀ p : Predicate, p.negate.joins = p.joins := by
  refine ⟨fun f => ⟨f.kleene_build hv, ?_⟩, fun c t => ?_, fun c t => ?_, Condition.joins_negate,
    joins_negate⟩
  · rw [kleene_toCondition, f.kleene_build hv]
  · exact t.fold_eq (fun _ => rfl) fun _ _ => c.whole_append
  · exact t.fold_eq c.wholePredicate_singleton fun ps qs _ _ => c.wholePredicate_append ps qs

namespace Predicate.Sample

/-- The column that the tests are about. -/
def name : Expr := .column ⟨.own, ⟨"name", .refl true⟩⟩

/-- The truth values of tests on a guest without a name. -/
def ofUnnamed (test : Condition) : Truth :=
  test.eval (.plain fun _ => []) (.single (Env.top.onRow "guests" fun _ => none))

/-- There is a name, and it comes after `m`. -/
def late : Formula Predicate :=
  .join .and (.not (.atom (.condition (.null name))))
    (.atom (.condition (.compare name .gt (.param (.string "m")))))

end Predicate.Sample

open Predicate.Sample in
/-- Whether the name comes after `m` is unknown, but there is none. -/
theorem Predicate.kleene_algebra_unnamed :
    Opposes ofUnnamed ∧ late.build.kleene ofUnnamed = .fails ∧
      (Formula.not late).build.toCondition.kleene ofUnnamed = .holds := by
  have hv : Opposes ofUnnamed := opposes_eval _ _
  refine ⟨hv, ?_, ?_⟩
  · exact ((kleene_algebra hv).1 late).1
  · exact ((kleene_algebra hv).1 (.not late)).2

end FilterSql
