import FilterSql.Proofs.Sql.Conditions

/-!
# Joins and groups

The rows that joins make of a row, join by join: each adds some rows of its table (`Join.picks`).
The joins that a predicate needs follow the joins of the statement that it restricts, and those that
are there already are left out (`Select.joinedRows_restrict`). Whether a statement gives a row at
all depends on the number of its groups (`Select.eval_isEmpty`).
-/

namespace FilterSql

variable {db : Database}

/-! ## Joins -/

/-- The rows that a join adds, from those of its table that it finds: an empty one where a left join
finds none. -/
def JoinKind.filled : JoinKind → List TableRow → List TableRow
  | .left, [] => [fun _ => none]
  | _, found => found

/-- A joined row is added for each row that the join finds, or one empty row. -/
theorem Database.extend_eq (kind : JoinKind) (table : Table) (on : Env → Bool) (env : Env) :
    db.extend kind table on env =
      (kind.filled ((db.rows table.name.text).filter fun added =>
        on (env.joined table.namespaceText added))).map (env.joined table.namespaceText) := by
  have hfound : ((db.rows table.name.text).map (env.joined table.namespaceText)).filter on =
      ((db.rows table.name.text).filter fun added =>
        on (env.joined table.namespaceText added)).map (env.joined table.namespaceText) :=
    List.filter_map
  simp only [extend, hfound]
  generalize (db.rows table.name.text).filter _ = found
  cases kind <;> cases found <;> rfl

namespace Join

/-- The name that the columns of the joined table are qualified with. -/
def name (join : Join) : String :=
  join.table.namespaceText

/-- The rows of its table that a join adds to a row. -/
def picks (db : Database) (join : Join) (row : Env) : List TableRow :=
  join.kind.filled ((db.rows join.table.name.text).filter fun added =>
    join.on.truth db ((row.joined join.name added).atJoin join.name) = .holds)

/-- A join makes of a row one row for each that it adds. -/
theorem step_eq (join : Join) (row : Env) :
    join.step db row = (join.picks db row).map (row.joined join.name) := by
  obtain ⟨kind, table, on⟩ := join
  exact Database.extend_eq kind table _ row

/-- The rows that joins make of rows. -/
def follow (db : Database) (joins : List Join) (rows : List Env) : List Env :=
  followSteps (steps db joins) rows

/-- Without joins the rows stay as they are. -/
@[simp] theorem follow_nil (rows : List Env) : follow db [] rows = rows := rfl

/-- The first join makes rows, of which the rest make theirs. -/
theorem follow_cons (join : Join) (rest : List Join) (rows : List Env) :
    follow db (join :: rest) rows = follow db rest (rows.flatMap fun row => join.step db row) :=
  rfl

/-- The steps of two lists of joins are those of the one and then of the other. -/
theorem steps_append (joins more : List Join) :
    steps db (joins ++ more) = steps db joins ++ steps db more := by
  induction joins with
  | nil => rfl
  | cons join rest ih => simp only [List.cons_append, steps, ih]

/-- The second list of joins makes its rows of those of the first. -/
theorem follow_append (joins more : List Join) (rows : List Env) :
    follow db (joins ++ more) rows = follow db more (follow db joins rows) := by
  simp only [follow, followSteps, steps_append, List.foldl_append]

/-- What joins make of rows they make of one of them. -/
theorem mem_follow {joins : List Join} {rows : List Env} {row : Env} :
    row ∈ follow db joins rows ↔ ∃ before ∈ rows, row ∈ follow db joins [before] := by
  induction joins generalizing rows with
  | nil => simp
  | cons join rest ih =>
      simp only [follow_cons, List.flatMap_singleton]
      rw [ih]
      constructor
      · rintro ⟨next, hnext, hrow⟩
        obtain ⟨before, hbefore, hnext⟩ := List.mem_flatMap.1 hnext
        exact ⟨before, hbefore, ih.2 ⟨next, hnext, hrow⟩⟩
      · rintro ⟨before, hbefore, hrow⟩
        obtain ⟨next, hnext, hrow⟩ := ih.1 hrow
        exact ⟨next, List.mem_flatMap.2 ⟨before, hbefore, hnext⟩, hrow⟩

/-- The first join adds a row to a row, and the others go on from there. -/
theorem mem_follow_cons {join : Join} {rest : List Join} {before row : Env} :
    row ∈ follow db (join :: rest) [before] ↔
      ∃ added ∈ join.picks db before, row ∈ follow db rest [before.joined join.name added] := by
  rw [follow_cons, List.flatMap_singleton, mem_follow, step_eq]
  simp only [List.mem_map, exists_exists_and_eq_and]

/-- Joins change neither the own table nor the enclosing one. -/
theorem follow_own {joins : List Join} {before row : Env} (h : row ∈ follow db joins [before]) :
    row.own = before.own ∧ row.enclosing = before.enclosing := by
  induction joins generalizing before with
  | nil =>
      rw [follow_nil, List.mem_singleton] at h
      rw [h]
      exact ⟨rfl, rfl⟩
  | cons join rest ih =>
      obtain ⟨added, -, hrow⟩ := mem_follow_cons.1 h
      obtain ⟨hown, henclosing⟩ := ih hrow
      exact ⟨hown, henclosing⟩

/-- The joins of a list that are not among those found, each once. -/
def fresh (found : List Join) : List Join → List Join
  | [] => []
  | join :: rest =>
    if found.contains join then fresh found rest else join :: fresh (found ++ [join]) rest

/-- Of two lists the second adds what neither those found nor the first has. -/
theorem fresh_append (found joins more : List Join) :
    fresh found (joins ++ more) = fresh found joins ++ fresh (found ++ fresh found joins) more := by
  induction joins generalizing found with
  | nil => simp [fresh]
  | cons join rest ih =>
      rw [List.cons_append, fresh, fresh]
      split
      · exact ih found
      · rw [ih, List.cons_append, List.append_assoc, List.singleton_append]

/-- What a list adds is in the list. -/
theorem mem_of_mem_fresh {found joins : List Join} {join : Join} (h : join ∈ fresh found joins) :
    join ∈ joins := by
  induction joins generalizing found with
  | nil => exact h
  | cons first rest ih =>
      rw [fresh] at h
      split at h
      · exact List.mem_cons_of_mem _ (ih h)
      · rcases List.mem_cons.1 h with rfl | h
        · exact List.mem_cons_self
        · exact List.mem_cons_of_mem _ (ih h)

/-- What is left of a list is not among the joins found. -/
theorem not_contains_of_mem_fresh {found joins : List Join} {join : Join}
    (h : join ∈ fresh found joins) : ∀ other ∈ found, (join == other) = false := by
  induction joins generalizing found with
  | nil => cases h
  | cons first rest ih =>
      rw [fresh, List.contains_eq_any_beq] at h
      split at h
      next => exact ih h
      next hnone =>
        rcases List.mem_cons.1 h with rfl | h
        · simpa using hnone
        · exact fun other hother => ih h other (List.mem_append_left _ hother)

/-- What is left of a list is left once. -/
theorem pairwise_fresh (found joins : List Join) :
    (fresh found joins).Pairwise fun join later => (later == join) = false := by
  induction joins generalizing found with
  | nil => exact .nil
  | cons first rest ih =>
      rw [fresh]
      split
      · exact ih found
      · refine List.pairwise_cons.2 ⟨fun later hlater => ?_, ih _⟩
        exact not_contains_of_mem_fresh hlater first (by simp)

/-- A join that is found is equal to one of the list. -/
theorem exists_of_contains {found : List Join} {join : Join} (h : found.contains join = true) :
    ∃ other ∈ found, (join == other) = true := by
  rw [List.contains_eq_any_beq] at h
  exact List.any_eq_true.1 h

/-- Equal joins have one name. -/
theorem name_eq_of_beq {join other : Join} (h : (join == other) = true) :
    join.name = other.name := by
  obtain ⟨kind, table, on⟩ := join
  obtain ⟨kind', table', on'⟩ := other
  have hsame : (kind == kind' && table == table' && on.same on') = true := h
  simp only [Bool.and_eq_true, beq_iff_eq] at hsame
  rw [name, name, hsame.1.2]

/-- A join of a list that is not among those found is left, or one that equals it is. -/
theorem exists_same_mem_fresh {found joins : List Join} {join : Join} (hjoin : join ∈ joins)
    (hfound : ∀ other ∈ found, (join == other) = false) :
    ∃ kept ∈ fresh found joins, join = kept ∨ (join == kept) = true := by
  induction joins generalizing found with
  | nil => cases hjoin
  | cons first rest ih =>
      rw [fresh]
      split
      next hcontains =>
        rcases List.mem_cons.1 hjoin with rfl | hjoin
        · obtain ⟨other, hother, hsame⟩ := exists_of_contains hcontains
          rw [hfound other hother] at hsame
          cases hsame
        · exact ih hjoin hfound
      next =>
        cases hsame : join == first with
        | true => exact ⟨first, List.mem_cons_self, .inr hsame⟩
        | false =>
            rcases List.mem_cons.1 hjoin with rfl | hjoin
            · exact ⟨join, List.mem_cons_self, .inl rfl⟩
            · have hlater : ∀ other ∈ found ++ [first], (join == other) = false := by
                intro other hother
                rcases List.mem_append.1 hother with hother | hother
                · exact hfound other hother
                · rwa [List.mem_singleton.1 hother]
              obtain ⟨kept, hkept, hname⟩ := ih hjoin hlater
              exact ⟨kept, List.mem_cons_of_mem _ hkept, hname⟩

/-- A join of a list that is not among those found is left, or one of its name is. -/
theorem exists_mem_fresh {found joins : List Join} {join : Join} (hjoin : join ∈ joins)
    (hfound : ∀ other ∈ found, (join == other) = false) :
    ∃ kept ∈ fresh found joins, join.name = kept.name := by
  obtain ⟨kept, hkept, hsame⟩ := exists_same_mem_fresh hjoin hfound
  refine ⟨kept, hkept, ?_⟩
  rcases hsame with rfl | hsame
  · rfl
  · exact name_eq_of_beq hsame

end Join

/-! ## The joins that a predicate needs -/

mutual

/-- The steps of a condition are those of the joins that it names. -/
theorem Condition.joinSteps_eq (c : Condition) :
    c.joinSteps db =
      ((c.joinSteps db).map Prod.fst).map fun join => (join, fun row => join.step db row) := by
  match c with
  | .requires join => rfl
  | .joined join inner =>
      rw [Condition.joinSteps, List.map_cons, List.map_cons, ← inner.joinSteps_eq]
  | .all conditions => exact Condition.joinStepsAll_eq conditions
  | .any conditions => exact Condition.joinStepsAll_eq conditions
  | .not condition => exact condition.joinSteps_eq
  | .compare .. | .nullSafeEq .. | .isNull .. | .isJsonNull .. | .oneOf .. | .like ..
  | .arrayContains .. | .overlaps .. | .exists .. => rfl
termination_by structural c

/-- The steps of some conditions are those of the joins that they name. -/
theorem Condition.joinStepsAll_eq (conditions : List Condition) :
    Condition.joinStepsAll db conditions =
      ((Condition.joinStepsAll db conditions).map Prod.fst).map
        fun join => (join, fun row => join.step db row) := by
  match conditions with
  | [] => rfl
  | c :: rest =>
      rw [Condition.joinStepsAll, List.map_append, List.map_append, ← c.joinSteps_eq,
        ← Condition.joinStepsAll_eq rest]
termination_by structural conditions

end

namespace Predicate

/-- The joins that a predicate names, in order and with repetitions. -/
def needs (db : Database) (p : Predicate) : List Join :=
  (p.joinSteps db).map Prod.fst

/-- The steps of a predicate are those of the joins that it names. -/
theorem joinSteps_eq (p : Predicate) :
    p.joinSteps db = (p.needs db).map fun join => (join, fun row => join.step db row) := by
  cases p with
  | always => rfl
  | never => rfl
  | condition c => exact c.joinSteps_eq

/-- Steps are left out where the joins that they belong to are. -/
theorem freshSteps_eq (found joins : List Join) :
    freshSteps found (joins.map fun join => (join, fun row => join.step db row)) =
      Join.steps db (Join.fresh found joins) := by
  induction joins generalizing found with
  | nil => rfl
  | cons join rest ih =>
      rw [List.map_cons, freshSteps, Join.fresh]
      split
      · exact ih found
      · rw [ih, Join.steps]

/-- A conjunction that is not settled needs the joins of both sides. -/
theorem needs_and {p q : Predicate} (h : p.and q ≠ .never) :
    (p.and q).needs db = p.needs db ++ q.needs db := by
  rw [needs, joinSteps_and h, List.map_append]
  rfl

/-- A negation needs the same joins. -/
theorem needs_negate (p : Predicate) : p.negate.needs db = p.needs db := by
  rw [needs, joinSteps_negate, needs]

/-- A conjunction is settled against every row exactly if one side is. -/
theorem and_eq_never {p q : Predicate} : p.and q = .never ↔ p = .never ∨ q = .never := by
  cases p <;> cases q <;> simp [Predicate.and]

/-- A disjunction is settled against every row exactly if both sides are. -/
theorem or_eq_never {p q : Predicate} : p.or q = .never ↔ p = .never ∧ q = .never := by
  cases p <;> cases q <;> simp [Predicate.or]

/-- A conjunction is settled for every row exactly if both sides are. -/
theorem and_eq_always {p q : Predicate} : p.and q = .always ↔ p = .always ∧ q = .always := by
  cases p <;> cases q <;> simp [Predicate.and]

/-- The joins of a disjunction are those of its parts, unless it is settled that every row
matches. -/
theorem needs_or {p q : Predicate} (h : p.or q ≠ .always) :
    (p.or q).needs db = p.needs db ++ q.needs db := by
  cases p <;> cases q <;> simp only [Predicate.or, ne_eq, not_true_eq_false] at h ⊢
  · rfl
  · rfl
  · simp only [needs, joinSteps, List.map_nil, List.append_nil]
  · simp only [needs, joinSteps, Condition.joinSteps_or, List.map_append]

end Predicate

/-! ## Statements -/

namespace Select

/-- The joins of a statement, those that its filter needs among them. -/
def known (db : Database) (s : Select) : List Join :=
  s.joins ++ Join.fresh s.joins (s.filter.needs db)

/-- The rows of a statement before its filter are those that its joins make. -/
theorem joinedRows_eq (s : Select) (env : Env) :
    s.joinedRows db env = Join.follow db (s.known db) (db.start env s.source) := by
  rw [joinedRows, s.filter.joinSteps_eq, Predicate.freshSteps_eq, ← Join.steps_append]
  rfl

/-- The rows of a statement have its table as their own one. -/
theorem own_of_mem_joinedRows {s : Select} {env row : Env} (h : row ∈ s.joinedRows db env) :
    row.own = s.source.map Table.namespaceText ∧ row.enclosing = env.own := by
  rw [joinedRows_eq, Join.mem_follow] at h
  obtain ⟨before, hbefore, hrow⟩ := h
  obtain ⟨hown, henclosing⟩ := Join.follow_own hrow
  rw [hown, henclosing]
  cases hsource : s.source with
  | none =>
      rw [hsource, Database.start, List.mem_singleton] at hbefore
      rw [hbefore]
      exact ⟨rfl, rfl⟩
  | some table =>
      rw [hsource, Database.start] at hbefore
      obtain ⟨first, -, rfl⟩ := List.mem_map.1 hbefore
      exact ⟨rfl, rfl⟩

/-- The joins of a predicate follow those of the statement that it restricts. -/
theorem known_restrict {s : Select} {p : Predicate} (h : s.filter.and p ≠ .never) :
    (s.restrict p).known db = s.known db ++ Join.fresh (s.known db) (p.needs db) := by
  simp only [known, restrict, Predicate.needs_and h, Join.fresh_append, List.append_assoc]

/-- A predicate adds its joins behind those of the statement. -/
theorem joinedRows_restrict {s : Select} {p : Predicate} (h : s.filter.and p ≠ .never)
    (env : Env) :
    (s.restrict p).joinedRows db env =
      Join.follow db (Join.fresh (s.known db) (p.needs db)) (s.joinedRows db env) := by
  rw [joinedRows_eq, known_restrict h, Join.follow_append, joinedRows_eq]
  rfl

/-- The groups that a statement makes of its rows and keeps. -/
def groups (db : Database) (env : Env) (s : Select) : List RowGroup :=
  (makeGroups (s.having.isSome || s.items.any (·.expr.aggregates)) (!s.groupBy.isEmpty)
    (fun a b => db.sameValues (Expr.evalAll db (.single a) s.groupBy)
      (Expr.evalAll db (.single b) s.groupBy))
    env.inside (s.matched db env)).filter fun g => Condition.evalOption db g s.having = .holds

/-- The rows of a statement are made of its groups. -/
theorem eval_eq_groups (s : Select) (env : Env) :
    s.eval db env =
      (window s.limit s.offset (stableSort (fun a b => db.compareTerms
        (OrderTerm.evalAll db a s.orderBy) (OrderTerm.evalAll db b s.orderBy))
        (s.groups db env))).map fun g => SelectItem.evalAll db g s.items := by
  obtain ⟨items, source, joins, filter, groupBy, having, orderBy, limit, offset, timeout⟩ := s
  rfl

/-- A window is empty where the limit is zero or the offset reaches to the end. -/
theorem window_isEmpty {α : Type} (limit offset : Option Nat) (items : List α) :
    (window limit offset items).isEmpty =
      decide (limit = some 0 ∨ items.length ≤ offset.getD 0) := by
  rw [Bool.eq_iff_iff, List.isEmpty_iff, decide_eq_true_iff]
  cases limit <;> simp [window]

/-- Whether a statement gives a row depends on the number of its groups. -/
theorem eval_isEmpty (s : Select) (env : Env) :
    (s.eval db env).isEmpty =
      decide (s.limit = some 0 ∨ (s.groups db env).length ≤ s.offset.getD 0) := by
  rw [eval_eq_groups, List.isEmpty_map, window_isEmpty, length_stableSort]

end Select

end FilterSql
