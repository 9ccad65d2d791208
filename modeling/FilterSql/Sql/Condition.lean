import FilterSql.Sql.Syntax

/-!
# Conditions and predicates

The operations on conditions keep a normal form: `Condition.and` and `Condition.or` join lists of
the same connective instead of nesting them, and `Condition.negate` turns the operator of a single
test round instead of wrapping it. The operations on predicates settle what is known without a
row. `Condition.joins` gives the joins that a condition needs.
-/

namespace FilterSql

namespace Condition

/-- `left = right`. -/
def eq (left right : Expr) : Condition :=
  .compare left .eq right

/-- `expr IS NULL`. -/
def null (expr : Expr) : Condition :=
  .isNull expr false

/-- `expr IS NOT NULL`. -/
def notNull (expr : Expr) : Condition :=
  .isNull expr true

/-- The condition that no row meets. -/
def impossible : Condition :=
  .any []

/-- Both conditions hold. -/
def and : Condition → Condition → Condition
  | .all as, .all bs => .all (as ++ bs)
  | .all as, b => .all (as ++ [b])
  | a, .all bs => .all (a :: bs)
  | a, b => .all [a, b]

/-- At least one of two conditions holds. -/
def or : Condition → Condition → Condition
  | .any as, .any bs => .any (as ++ bs)
  | .any as, b => .any (as ++ [b])
  | a, .any bs => .any (a :: bs)
  | a, b => .any [a, b]

/-- The condition fails. A single test is turned round, and a double negation is undone. -/
def negate : Condition → Condition
  | .compare left op right => .compare left op.inverse right
  | .isNull expr negated => .isNull expr !negated
  | .oneOf expr values negated => .oneOf expr values !negated
  | .like expr pattern negated => .like expr pattern !negated
  | .exists query negated => .exists query !negated
  | .not condition => condition
  | condition => .not condition

mutual

/-- The joins found so far, followed by those that a condition needs and that are not among them, in
the order of their first use. -/
def joinsAfter (found : List Join) : Condition → List Join
  | .requires join => if found.contains join then found else found ++ [join]
  | .joined join inner =>
    joinsAfter (if found.contains join then found else found ++ [join]) inner
  | .all conditions => joinsAfterAll found conditions
  | .any conditions => joinsAfterAll found conditions
  | .not condition => joinsAfter found condition
  | _ => found

/-- The joins found so far, followed by the new ones that a list of conditions needs. -/
def joinsAfterAll (found : List Join) : List Condition → List Join
  | [] => found
  | c :: rest => joinsAfterAll (joinsAfter found c) rest

end

/-- The joins that a condition needs, each once, in the order of their first use. -/
def joins (condition : Condition) : List Join :=
  joinsAfter [] condition

mutual

/-- Whether a condition asks nothing of the row and only needs joins. -/
def isVacuous : Condition → Bool
  | .requires _ => true
  | .all conditions => !conditions.isEmpty && allVacuous conditions
  | _ => false

/-- Whether every condition of a list is vacuous. -/
def allVacuous : List Condition → Bool
  | [] => true
  | c :: rest => isVacuous c && allVacuous rest

end

/-- Whether the text of a condition can stand beside `AND` and `OR` without parentheses. -/
def isSingle : Condition → Bool
  | .all [only] => isSingle only
  | .any [only] => isSingle only
  | .all _ => false
  | .any _ => false
  | .joined _ inner => isSingle inner
  | _ => true

end Condition

namespace Predicate

/-- Both predicates hold: `never` wins, and `always` adds nothing. -/
def and : Predicate → Predicate → Predicate
  | .never, _ => .never
  | _, .never => .never
  | .always, p => p
  | p, .always => p
  | .condition a, .condition b => .condition (a.and b)

/-- At least one of two predicates holds: `always` wins, and `never` adds nothing. -/
def or : Predicate → Predicate → Predicate
  | .always, _ => .always
  | _, .always => .always
  | .never, p => p
  | p, .never => p
  | .condition a, .condition b => .condition (a.or b)

/-- The predicate fails. -/
def negate : Predicate → Predicate
  | .always => .never
  | .never => .always
  | .condition c => .condition c.negate

/-- A predicate as a condition; the two constants become the empty connectives. -/
def toCondition : Predicate → Condition
  | .always => .all []
  | .never => .any []
  | .condition c => c

/-- The outcome of a predicate, if it is known without a row. -/
def decided? : Predicate → Option Bool
  | .always => some true
  | .never => some false
  | .condition _ => none

/-- The joins that a predicate needs. -/
def joins : Predicate → List Join
  | .condition c => c.joins
  | _ => []

end Predicate

end FilterSql
