import FilterSql.Proofs.Sql.Database
import FilterSql.Sort.Stable
import FilterSql.Sql.Statement

/-!
# The meaning of statements

What expressions, conditions and statements come to on a database, by recursion on their syntax.
A statement puts the rows of its table and its joins together, keeps those on which its filter
holds, groups them where it is grouped, and then sorts and cuts. The joins that a filter needs
follow the statement's own joins, each once, as where statements are written out. `Select.run` is
the part of this that statements without groups have, on rows instead of groups.
-/

namespace FilterSql

/-! ## Parts that are no recursion on the syntax -/

mutual

/-- Whether an expression is computed over a group of rows. -/
def Expr.aggregates : Expr → Bool
  | .lower expr => expr.aggregates
  | .cast expr _ => expr.aggregates
  | .jsonExtract target _ => target.aggregates
  | .jsonUnquote expr => expr.aggregates
  | .countRows => true
  | .count _ => true
  | .sum _ => true
  | .coalesce exprs => Expr.anyAggregates exprs
  | _ => false
termination_by structural x => x

/-- Whether one of some expressions is computed over a group of rows. -/
def Expr.anyAggregates : List Expr → Bool
  | [] => false
  | expr :: rest => expr.aggregates || Expr.anyAggregates rest
termination_by structural x => x

end

/-- Whether a statement gives a row for each group of rows. Without a list of groups there is then
one group of all rows. -/
def Select.isGrouped (s : Select) : Bool :=
  !s.groupBy.isEmpty || s.having.isSome || s.items.any (·.expr.aggregates)

namespace Database

/-- The rows of the table of a statement that stands in `env`, one row if there is no table. -/
def start (db : Database) (env : Env) : Option Table → List Env
  | none => [env.inside]
  | some table => (db.rows table.name.text).map (env.onRow table.namespaceText)

/-- The rows that a table adds to a row, of which `on` chooses; with a left join the row stays
where there are none. -/
def extend (db : Database) (kind : JoinKind) (table : Table) (on : Env → Bool) (env : Env) :
    List Env :=
  let found := ((db.rows table.name.text).map (env.joined table.namespaceText)).filter on
  match kind, found with
  | .left, [] => [env.joined table.namespaceText fun _ => none]
  | _, found => found

/-- Whether two lists hold the same values in turn, `NULL` being the same as `NULL`. -/
def sameValues (db : Database) : List Value → List Value → Bool
  | [], [] => true
  | v :: vs, w :: ws => db.nullSafeEq v w && db.sameValues vs ws
  | _, _ => false

/-- The order of two rows by the values of their terms, the first of which that differ settle
it. -/
def compareTerms (db : Database) : List (Value × Direction) → List (Value × Direction) → Ordering
  | (v, direction) :: vs, (w, _) :: ws =>
    let byTerm :=
      match direction with
      | .asc => db.order v w
      | .desc => (db.order v w).swap
    byTerm.then (db.compareTerms vs ws)
  | _, _ => .eq

end Database

/-- A row put into the first of some groups that it belongs to. -/
def addToGroups (same : Env → Env → Bool) (row : Env) : List (List Env) → List (List Env)
  | [] => [[row]]
  | group :: rest =>
    if group.any (same row) then (group ++ [row]) :: rest
    else group :: addToGroups same row rest

/-- The steps of the joins that are not among those found so far, each once. -/
def freshSteps (found : List Join) :
    List (Join × (Env → List Env)) → List (Env → List Env)
  | [] => []
  | (join, step) :: rest =>
    if found.contains join then freshSteps found rest
    else step :: freshSteps (found ++ [join]) rest

/-- The rows that some steps make of rows. -/
def followSteps (steps : List (Env → List Env)) (rows : List Env) : List Env :=
  steps.foldl (fun rows step => rows.flatMap step) rows

/-- The groups that a statement makes of its rows: those of the same key where it lists keys, and
else all rows together or each by itself. -/
def makeGroups (grouped hasKeys : Bool) (same : Env → Env → Bool) (outside : Env)
    (rows : List Env) : List RowGroup :=
  match grouped, hasKeys with
  | _, true =>
    (rows.foldl (fun groups row => addToGroups same row groups) []).map fun group =>
      ⟨group.headD outside, group⟩
  | true, false => [⟨rows.headD outside, rows⟩]
  | false, false => rows.map .single

/-- The items of a list from `offset` on, at most `limit` of them. -/
def window {α : Type} (limit offset : Option Nat) (items : List α) : List α :=
  let rest := items.drop (offset.getD 0)
  match limit with
  | some n => rest.take n
  | none => rest

/-! ## Evaluation -/

mutual

/-- The value of an expression. -/
def Expr.eval (db : Database) (g : RowGroup) : Expr → Value
  | .column column => g.env.column column
  | .param value => value
  | .null => .null
  | .keyword text => db.keyword text
  | .lower expr => db.lowered (expr.eval db g)
  | .cast expr type => db.cast type (expr.eval db g)
  | .jsonExtract target path => db.jsonExtract (target.eval db g) path.text
  | .jsonUnquote expr => db.jsonUnquote (expr.eval db g)
  | .jsonString column path => db.jsonString (g.env.column column) path.text
  | .countRows => .int (Int64.ofNat g.rows.length)
  | .count expr =>
    .int (Int64.ofNat (g.rows.countP fun row => !(expr.eval db (.single row)).isNull))
  | .sum expr => db.sum ((g.rows.map fun row => expr.eval db (.single row)).filter (!·.isNull))
  | .coalesce exprs => ((Expr.evalAll db g exprs).find? (!·.isNull)).getD .null
  | .subquery query => ((query.eval db g.env).head?.bind (·.head?)).getD .null
  | .exists query => .bool (!(query.eval db g.env).isEmpty)
termination_by structural x => x

/-- The values of a list of expressions. -/
def Expr.evalAll (db : Database) (g : RowGroup) : List Expr → List Value
  | [] => []
  | expr :: rest => expr.eval db g :: Expr.evalAll db g rest
termination_by structural x => x

/-- What a condition comes to. -/
def Condition.eval (db : Database) (g : RowGroup) : Condition → Truth
  | .compare left op right => db.test op (left.eval db g) (right.eval db g)
  | .nullSafeEq left right => .ofBool (db.nullSafeEq (left.eval db g) (right.eval db g))
  | .isNull expr negated => .ofBool ((expr.eval db g).isNull != negated)
  | .isJsonNull expr => db.isJsonNull (expr.eval db g)
  | .oneOf expr values negated =>
    let found := db.isIn (expr.eval db g) values
    if negated then found.not else found
  | .like expr pattern negated =>
    let found := db.isLike (expr.eval db g) pattern
    if negated then found.not else found
  | .arrayContains column value foldCase =>
    let array := column.eval db g
    if array.isNull then .unknown else .ofBool (db.arrayHolds array value foldCase)
  | .overlaps column values =>
    let array := column.eval db g
    if array.isNull then .unknown else .ofBool (db.arrayOverlaps array values)
  | .exists query negated => .ofBool ((query.eval db g.env).isEmpty == negated)
  | .requires _ => .holds
  | .joined _ inner => inner.eval db g
  | .all conditions => .all (Condition.evalAll db g conditions)
  | .any conditions => .any (Condition.evalAll db g conditions)
  | .not condition => (condition.eval db g).not
termination_by structural x => x

/-- What the conditions of a list come to. -/
def Condition.evalAll (db : Database) (g : RowGroup) : List Condition → List Truth
  | [] => []
  | c :: rest => c.eval db g :: Condition.evalAll db g rest
termination_by structural x => x

/-- What a condition comes to that need not be there. -/
def Condition.evalOption (db : Database) (g : RowGroup) : Option Condition → Truth
  | none => .holds
  | some c => c.eval db g
termination_by structural x => x

/-- What a predicate comes to. -/
def Predicate.eval (db : Database) (g : RowGroup) : Predicate → Truth
  | .always => .holds
  | .never => .fails
  | .condition c => c.eval db g
termination_by structural x => x

/-- The rows that a join makes of a row. -/
def Join.step (db : Database) (env : Env) : Join → List Env
  | ⟨kind, table, on⟩ =>
    db.extend kind table
      (fun row => on.eval db (.single (row.atJoin table.namespaceText)) = .holds) env
termination_by structural x => x

/-- The steps of a list of joins. -/
def Join.steps (db : Database) : List Join → List (Env → List Env)
  | [] => []
  | join :: rest => (fun env => join.step db env) :: Join.steps db rest
termination_by structural x => x

/-- The joins that a condition names, with their steps. -/
def Condition.joinSteps (db : Database) : Condition → List (Join × (Env → List Env))
  | .requires join => [(join, fun env => join.step db env)]
  | .joined join inner => (join, fun env => join.step db env) :: inner.joinSteps db
  | .all conditions => Condition.joinStepsAll db conditions
  | .any conditions => Condition.joinStepsAll db conditions
  | .not condition => condition.joinSteps db
  | _ => []
termination_by structural x => x

/-- The joins that the conditions of a list name, with their steps. -/
def Condition.joinStepsAll (db : Database) :
    List Condition → List (Join × (Env → List Env))
  | [] => []
  | c :: rest => c.joinSteps db ++ Condition.joinStepsAll db rest
termination_by structural x => x

/-- The joins that a predicate names, with their steps. -/
def Predicate.joinSteps (db : Database) : Predicate → List (Join × (Env → List Env))
  | .condition c => c.joinSteps db
  | _ => []
termination_by structural x => x

/-- The values of the items of a statement. -/
def SelectItem.evalAll (db : Database) (g : RowGroup) : List SelectItem → List Value
  | [] => []
  | ⟨expr, _⟩ :: rest => expr.eval db g :: SelectItem.evalAll db g rest
termination_by structural x => x

/-- The values of the terms of an order. -/
def OrderTerm.evalAll (db : Database) (g : RowGroup) : List OrderTerm → List (Value × Direction)
  | [] => []
  | ⟨expr, direction⟩ :: rest => (expr.eval db g, direction) :: OrderTerm.evalAll db g rest
termination_by structural x => x

/-- The rows that a statement gives, as the values of its items. -/
def Select.eval (db : Database) (env : Env) : Select → List (List Value)
  | ⟨items, source, joins, filter, groupBy, having, orderBy, limit, offset, _⟩ =>
    let steps := Join.steps db joins ++ freshSteps joins (filter.joinSteps db)
    let rows := (followSteps steps (db.start env source)).filter fun row =>
      filter.eval db (.single row) = .holds
    let same := fun a b =>
      db.sameValues (Expr.evalAll db (.single a) groupBy) (Expr.evalAll db (.single b) groupBy)
    let grouped := having.isSome || items.any (·.expr.aggregates)
    let groups := (makeGroups grouped (!groupBy.isEmpty) same env.inside rows).filter fun g =>
      Condition.evalOption db g having = .holds
    let sorted := stableSort
      (fun a b => db.compareTerms (OrderTerm.evalAll db a orderBy) (OrderTerm.evalAll db b orderBy))
      groups
    (window limit offset sorted).map fun g => SelectItem.evalAll db g items
termination_by structural x => x

end

/-! ## On single rows -/

/-- The value of an expression on a row. -/
def Expr.value (db : Database) (env : Env) (expr : Expr) : Value :=
  expr.eval db (.single env)

/-- What a condition comes to on a row. -/
def Condition.truth (db : Database) (env : Env) (c : Condition) : Truth :=
  c.eval db (.single env)

/-- What a predicate comes to on a row. -/
def Predicate.truth (db : Database) (env : Env) (p : Predicate) : Truth :=
  p.eval db (.single env)

namespace Select

/-- The rows of a statement's table and joins. -/
def joinedRows (db : Database) (env : Env) (s : Select) : List Env :=
  followSteps (Join.steps db s.joins ++ freshSteps s.joins (s.filter.joinSteps db))
    (db.start env s.source)

/-- The rows on which the filter of a statement holds. -/
def matched (db : Database) (env : Env) (s : Select) : List Env :=
  (s.joinedRows db env).filter fun row => s.filter.truth db row = .holds

/-- The order of rows that a statement asks for. -/
def compareRows (db : Database) (terms : List OrderTerm) (a b : Env) : Ordering :=
  db.compareTerms (OrderTerm.evalAll db (.single a) terms) (OrderTerm.evalAll db (.single b) terms)

/-- The rows that a statement without groups chooses, in its order. -/
def run (db : Database) (env : Env) (s : Select) : List Env :=
  window s.limit s.offset (stableSort (compareRows db s.orderBy) (s.matched db env))

end Select

end FilterSql
