import FilterSql.Proofs.Sql.Equality
import FilterSql.Proofs.Sql.Joins
import FilterSql.Proofs.Sql.Nesting

/-!
# The joins of a rendered statement

Joins are told apart three times: where they are passed to a statement, where they are gathered from
its filter, and where the two lists meet. The outcome is one list without repetitions
(`Join.fresh`), and the text of a statement has a `JOIN` for each of its members and no other
(`Select.joins_emitted_once`). The joins that a subquery needs are in the text of the subquery.
-/

namespace FilterSql

variable {d : Dialect} {n : Namespaces}

/-! ## The joins that a condition names -/

mutual

/-- The joins that a condition names, from the outside in and from left to right, with repetitions.
The joins of a subquery are its own. -/
def Condition.wanted : Condition → List Join
  | .requires join => [join]
  | .joined join inner => join :: inner.wanted
  | .all conditions => Condition.wantedAll conditions
  | .any conditions => Condition.wantedAll conditions
  | .not condition => condition.wanted
  | _ => []
termination_by structural x => x

/-- The joins that the conditions of a list name. -/
def Condition.wantedAll : List Condition → List Join
  | [] => []
  | c :: rest => c.wanted ++ Condition.wantedAll rest
termination_by structural x => x

end

/-- The joins that a predicate names. -/
def Predicate.wanted : Predicate → List Join
  | .condition c => c.wanted
  | _ => []

/-- The joins of two lists are rendered one after the other. -/
theorem Join.renderAll_append (joins more : List Join) :
    Join.renderAll d n (joins ++ more) = do
      let texts ← Join.renderAll d n joins
      return texts ++ (← Join.renderAll d n more) := by
  induction joins with
  | nil => simp [Join.renderAll]
  | cons join rest ih => simp [Join.renderAll, ih]

/-- One join is left out where it is there already. -/
theorem Join.fresh_singleton (found : List Join) (join : Join) :
    Join.fresh found [join] = if found.contains join then [] else [join] := rfl

mutual

/-- The joins of a condition are rendered as the list of those that are new. -/
theorem Condition.renderJoins_eq (found : List Join) (c : Condition) :
    c.renderJoins d n found = do
      let texts ← Join.renderAll d n (Join.fresh found c.wanted)
      return (texts, found ++ Join.fresh found c.wanted) := by
  match c with
  | .requires join =>
    rw [Condition.renderJoins, Condition.wanted, Join.fresh_singleton]
    split <;> simp [Join.renderAll]
  | .joined join inner =>
    rw [Condition.renderJoins, Condition.wanted, Join.fresh]
    split
    · exact inner.renderJoins_eq found
    · simp [Join.renderAll, inner.renderJoins_eq (found ++ [join])]
  | .all conditions => exact Condition.renderJoinsAll_eq found conditions
  | .any conditions => exact Condition.renderJoinsAll_eq found conditions
  | .not condition => exact condition.renderJoins_eq found
  | .compare .. | .nullSafeEq .. | .isNull .. | .isJsonNull .. | .oneOf .. | .like ..
  | .arrayContains .. | .overlaps .. | .exists .. =>
    simp [Condition.renderJoins, Condition.wanted, Join.fresh, Join.renderAll]
termination_by structural c

/-- The joins of some conditions are rendered as their list without those found before. -/
theorem Condition.renderJoinsAll_eq (found : List Join) (conditions : List Condition) :
    Condition.renderJoinsAll d n found conditions = do
      let texts ← Join.renderAll d n (Join.fresh found (Condition.wantedAll conditions))
      return (texts, found ++ Join.fresh found (Condition.wantedAll conditions)) := by
  match conditions with
  | [] => simp [Condition.renderJoinsAll, Condition.wantedAll, Join.fresh, Join.renderAll]
  | c :: rest =>
    rw [Condition.renderJoinsAll, Condition.wantedAll, Join.fresh_append, Join.renderAll_append,
      c.renderJoins_eq found]
    simp [Condition.renderJoinsAll_eq _ rest]
termination_by structural conditions

end

/-- The joins of a predicate are rendered as its list without those found before. -/
theorem Predicate.renderJoins_eq (found : List Join) (p : Predicate) :
    p.renderJoins d n found = Join.renderAll d n (Join.fresh found p.wanted) := by
  cases p with
  | always => rfl
  | never => rfl
  | condition c => simp [Predicate.renderJoins, Predicate.wanted, c.renderJoins_eq found]

mutual

/-- Behind a condition its joins are found as well. -/
theorem Condition.joinsAfter_eq (found : List Join) (c : Condition) :
    c.joinsAfter found = found ++ Join.fresh found c.wanted := by
  match c with
  | .requires join =>
    rw [Condition.joinsAfter, Condition.wanted, Join.fresh_singleton]
    split <;> simp
  | .joined join inner =>
    rw [Condition.joinsAfter, Condition.wanted, Join.fresh]
    split
    · exact inner.joinsAfter_eq found
    · simp [inner.joinsAfter_eq (found ++ [join])]
  | .all conditions => exact Condition.joinsAfterAll_eq found conditions
  | .any conditions => exact Condition.joinsAfterAll_eq found conditions
  | .not condition => exact condition.joinsAfter_eq found
  | .compare .. | .nullSafeEq .. | .isNull .. | .isJsonNull .. | .oneOf .. | .like ..
  | .arrayContains .. | .overlaps .. | .exists .. =>
    simp [Condition.joinsAfter, Condition.wanted, Join.fresh]
termination_by structural c

/-- Behind some conditions their joins are found as well. -/
theorem Condition.joinsAfterAll_eq (found : List Join) (conditions : List Condition) :
    Condition.joinsAfterAll found conditions =
      found ++ Join.fresh found (Condition.wantedAll conditions) := by
  match conditions with
  | [] => simp [Condition.joinsAfterAll, Condition.wantedAll, Join.fresh]
  | c :: rest =>
    rw [Condition.joinsAfterAll, Condition.wantedAll, Join.fresh_append, c.joinsAfter_eq found,
      Condition.joinsAfterAll_eq _ rest, List.append_assoc]
termination_by structural conditions

end

mutual

/-- A database follows the joins that a condition names. -/
theorem Condition.joinSteps_fst (db : Database) (c : Condition) :
    (c.joinSteps db).map Prod.fst = c.wanted := by
  match c with
  | .joined join inner => exact congrArg (join :: ·) (inner.joinSteps_fst db)
  | .all conditions => exact Condition.joinStepsAll_fst db conditions
  | .any conditions => exact Condition.joinStepsAll_fst db conditions
  | .not condition => exact condition.joinSteps_fst db
  | .compare .. | .nullSafeEq .. | .isNull .. | .isJsonNull .. | .oneOf .. | .like ..
  | .arrayContains .. | .overlaps .. | .exists .. | .requires .. => rfl
termination_by structural c

/-- The joins that the rows of some conditions are made with are those that they name. -/
theorem Condition.joinStepsAll_fst (db : Database) (conditions : List Condition) :
    (Condition.joinStepsAll db conditions).map Prod.fst = Condition.wantedAll conditions := by
  match conditions with
  | [] => rfl
  | c :: rest =>
      rw [Condition.joinStepsAll, List.map_append, c.joinSteps_fst db,
        Condition.joinStepsAll_fst db rest, Condition.wantedAll]
termination_by structural conditions

end

/-- The joins that a predicate needs are those that it names. -/
theorem Predicate.needs_eq (db : Database) (p : Predicate) : p.needs db = p.wanted := by
  cases p with
  | always => rfl
  | never => rfl
  | condition c => exact c.joinSteps_fst db

/-! ## What is new beside some joins -/

namespace Join

/-- What is new beside some joins depends on which joins equal one of them. -/
theorem fresh_congr {found other : List Join} (h : ∀ j, found.contains j = other.contains j)
    (joins : List Join) : fresh found joins = fresh other joins := by
  induction joins generalizing found other with
  | nil => rfl
  | cons join rest ih =>
      have hstep : ∀ j, (found ++ [join]).contains j = (other ++ [join]).contains j := fun j => by
        simp only [List.contains_append, h j]
      rw [fresh, fresh, h join, ih h, ih hstep]

/-- A join that equals one of those found adds nothing to them. -/
theorem contains_append_of_contains {found : List Join} {join : Join}
    (h : found.contains join = true) (j : Join) :
    (found ++ [join]).contains j = found.contains j := by
  rw [List.contains_append, Bool.or_eq_left_iff_imp]
  intro hj
  obtain ⟨other, hother, hsame⟩ := exists_of_contains h
  rw [List.contains_eq_any_beq] at hj ⊢
  have hjoin : (j == join) = true := by simpa using hj
  exact List.any_eq_true.2 ⟨other, hother, BEq.trans hjoin hsame⟩

/-- What is new beside some joins and others is what is new beside the others, without what equals
one of the first. -/
theorem fresh_append_left (found seen joins : List Join) :
    fresh (found ++ seen) joins = (fresh seen joins).filter fun j => !found.contains j := by
  induction joins generalizing seen with
  | nil => rfl
  | cons join rest ih =>
      rw [fresh, fresh, List.contains_append]
      cases hseen : seen.contains join with
      | true =>
          rw [Bool.or_true]
          exact ih seen
      | false =>
          rw [Bool.or_false]
          have hnext := ih (seen ++ [join])
          rw [← List.append_assoc] at hnext
          cases hfound : found.contains join with
          | true =>
              -- the join is new beside `seen` alone, where it hides what equals it later on
              have hboth : (found ++ seen).contains join = true := by simp [hfound]
              have hsame := fresh_congr (contains_append_of_contains hboth) rest
              simp only [if_true, Bool.false_eq_true, if_false]
              rw [List.filter_cons_of_neg (by simp [hfound]), ← hnext, hsame]
          | false =>
              simp only [Bool.false_eq_true, if_false]
              rw [List.filter_cons_of_pos (by simp [hfound]), hnext]

/-- Joins that differ from those found and from each other are all new. -/
theorem fresh_eq_self {found joins : List Join}
    (hpairwise : joins.Pairwise fun join later => (later == join) = false)
    (hfound : ∀ join ∈ joins, ∀ other ∈ found, (join == other) = false) :
    fresh found joins = joins := by
  induction joins generalizing found with
  | nil => rfl
  | cons join rest ih =>
      obtain ⟨hjoin, hrest⟩ := List.pairwise_cons.1 hpairwise
      obtain ⟨hnone, hothers⟩ := List.forall_mem_cons.1 hfound
      have hnew : found.contains join = false := by
        rw [List.contains_eq_any_beq, List.any_eq_false]
        exact fun other hother => by simp [hnone other hother]
      rw [fresh, hnew, if_neg Bool.false_ne_true, ih hrest]
      intro later hlater other hother
      rcases List.mem_append.1 hother with hother | hother
      · exact hothers later hlater other hother
      · rw [List.mem_singleton.1 hother]
        exact hjoin later hlater

end Join

/-- The joins that a predicate needs are those it names, each once. -/
theorem Predicate.joins_eq (p : Predicate) : p.joins = Join.fresh [] p.wanted := by
  cases p with
  | always => rfl
  | never => rfl
  | condition c => exact c.joinsAfter_eq []

/-! ## Building a statement -/

namespace Select

/-- A call that goes on building a statement. -/
inductive Change where
  | fromTable (table : Table)
  | select (expr : Expr) (asName : Option Identifier)
  | join (join : Join)
  | restrict (predicate : Predicate)
  | groupedBy (expr : Expr)
  | havingOnly (condition : Condition)
  | ordered (term : OrderTerm)
  | limited (limit : Nat)
  | skipping (offset : Nat)
  | within (milliseconds : Nat)
  | toCount (expr : Option Expr)
  | toSum (expr : Expr)
  | toExists

namespace Change

/-- What a call makes of a statement. -/
def apply (s : Select) : Change → Select
  | .fromTable table => s.fromTable table
  | .select expr asName => s.select expr asName
  | .join added => s.join added
  | .restrict predicate => s.restrict predicate
  | .groupedBy expr => s.groupedBy expr
  | .havingOnly condition => s.havingOnly condition
  | .ordered term => s.ordered term
  | .limited limit => s.limited limit
  | .skipping offset => s.skipping offset
  | .within milliseconds => s.within milliseconds
  | .toCount expr => s.toCount expr
  | .toSum expr => s.toSum expr
  | .toExists => s.toExists

/-- The joins passed to a statement, from those passed before a call. The statement that asks
whether there is a row starts without joins: those passed before belong to its subquery. -/
def passed (joins : List Join) : Change → List Join
  | .join added => joins ++ [added]
  | .toExists => []
  | _ => joins

end Change

/-- The statement that a sequence of calls builds. -/
def built (changes : List Change) : Select :=
  changes.foldl Change.apply empty

/-- The joins passed to the statement that a sequence of calls builds, with repetitions. -/
def passed (changes : List Change) : List Join :=
  changes.foldl Change.passed []

/-- A call keeps the joins of a statement in the order in which they were first passed. -/
theorem Change.apply_joins {s : Select} {joins : List Join} (h : s.joins = Join.fresh [] joins)
    (change : Change) : (change.apply s).joins = Join.fresh [] (change.passed joins) := by
  cases change with
  | join added =>
      have hjoin : (s.join added).joins = s.joins ++ Join.fresh s.joins [added] := by
        rw [Select.join, Join.fresh_singleton]
        split
        · rw [List.append_nil]
        · rfl
      rw [passed, Join.fresh_append, List.nil_append, ← h]
      exact hjoin
  | toExists => rfl
  | _ => exact h

/-- The joins of a statement that is built are those passed to it, each once. -/
theorem built_joins (changes : List Change) :
    (built changes).joins = Join.fresh [] (passed changes) := by
  suffices hrun : ∀ (s : Select) (joins : List Join), s.joins = Join.fresh [] joins →
      (changes.foldl Change.apply s).joins = Join.fresh [] (changes.foldl Change.passed joins) from
    hrun empty [] rfl
  induction changes with
  | nil => exact fun _ _ h => h
  | cons change rest ih => exact fun s joins h => ih _ _ (change.apply_joins h)

/-! ## The joins of a statement -/

/-- The joins in the text of a statement: those passed to it, and then those of its filter that are
not there yet. -/
def emitted (s : Select) : List Join :=
  s.joins ++ Join.fresh s.joins s.filter.joins

/-- The joins of a filter are told apart before they are put beside those of the statement, which
comes to the same as telling them apart there. -/
theorem emitted_eq (s : Select) :
    s.emitted = s.joins ++ Join.fresh s.joins s.filter.wanted := by
  have happend := Join.fresh_append_left s.joins []
  rw [emitted, Predicate.joins_eq, ← List.append_nil s.joins, happend, happend,
    Join.fresh_eq_self (Join.pairwise_fresh [] _) fun _ hj => Join.not_contains_of_mem_fresh hj]

/-- The text has the joins that a database follows. -/
theorem known_eq_emitted (db : Database) (s : Select) : s.known db = s.emitted := by
  rw [known, emitted_eq, Predicate.needs_eq]

/-- The statement rendered clause by clause, with a given list for its joins. -/
def renderListing (d : Dialect) (n : Namespaces) (joins : List Join) (s : Select) :
    Render String :=
  if s.lacksTable then throw .missingFrom
  else do
    let inner := n.inside s.namespaceText?
    let items ← SelectItem.renderAll d inner s.items
    let joins ← Join.renderAll d inner joins
    let filter ← s.filter.renderWhere d inner
    let groups ← Expr.renderAll d inner s.groupBy
    let having ← renderHaving d inner s.having
    let terms ← OrderTerm.renderAll d inner s.orderBy
    return s.assemble d items joins filter groups having terms

end Select

/-! ## Subqueries -/

mutual

/-- The subqueries of the `EXISTS` tests of a condition. -/
def Condition.subqueries : Condition → List Select
  | .exists query _ => [query]
  | .joined _ inner => inner.subqueries
  | .all conditions => Condition.subqueriesAll conditions
  | .any conditions => Condition.subqueriesAll conditions
  | .not condition => condition.subqueries
  | _ => []
termination_by structural x => x

/-- The subqueries of the conditions of a list. -/
def Condition.subqueriesAll : List Condition → List Select
  | [] => []
  | c :: rest => c.subqueries ++ Condition.subqueriesAll rest
termination_by structural x => x

end

/-- The subqueries of a predicate. -/
def Predicate.subqueries : Predicate → List Select
  | .condition c => c.subqueries
  | _ => []

mutual

/-- A condition with other subqueries in its `EXISTS` tests. -/
def Condition.mapSubqueries (f : Select → Select) : Condition → Condition
  | .exists query negated => .exists (f query) negated
  | .joined join inner => .joined join (inner.mapSubqueries f)
  | .all conditions => .all (Condition.mapSubqueriesAll f conditions)
  | .any conditions => .any (Condition.mapSubqueriesAll f conditions)
  | .not condition => .not (condition.mapSubqueries f)
  | condition => condition
termination_by structural x => x

/-- The conditions of a list with other subqueries. -/
def Condition.mapSubqueriesAll (f : Select → Select) : List Condition → List Condition
  | [] => []
  | c :: rest => c.mapSubqueries f :: Condition.mapSubqueriesAll f rest
termination_by structural x => x

end

/-- A predicate with other subqueries. -/
def Predicate.mapSubqueries (f : Select → Select) : Predicate → Predicate
  | .condition c => .condition (c.mapSubqueries f)
  | p => p

mutual

/-- A condition with other subqueries names the same joins. -/
theorem Condition.wanted_mapSubqueries (f : Select → Select) (c : Condition) :
    (c.mapSubqueries f).wanted = c.wanted := by
  match c with
  | .joined join inner => exact congrArg (join :: ·) (inner.wanted_mapSubqueries f)
  | .all conditions => exact Condition.wantedAll_mapSubqueriesAll f conditions
  | .any conditions => exact Condition.wantedAll_mapSubqueriesAll f conditions
  | .not condition => exact condition.wanted_mapSubqueries f
  | .compare .. | .nullSafeEq .. | .isNull .. | .isJsonNull .. | .oneOf .. | .like ..
  | .arrayContains .. | .overlaps .. | .exists .. | .requires .. => rfl
termination_by structural c

/-- Conditions with other subqueries name the same joins. -/
theorem Condition.wantedAll_mapSubqueriesAll (f : Select → Select) (conditions : List Condition) :
    Condition.wantedAll (Condition.mapSubqueriesAll f conditions) =
      Condition.wantedAll conditions := by
  match conditions with
  | [] => rfl
  | c :: rest =>
      rw [Condition.mapSubqueriesAll, Condition.wantedAll, Condition.wantedAll,
        c.wanted_mapSubqueries f, Condition.wantedAll_mapSubqueriesAll f rest]
termination_by structural conditions

end

/-- A predicate with other subqueries names the same joins. -/
theorem Predicate.wanted_mapSubqueries (f : Select → Select) (p : Predicate) :
    (p.mapSubqueries f).wanted = p.wanted := by
  cases p with
  | always => rfl
  | never => rfl
  | condition c => exact c.wanted_mapSubqueries f

mutual

/-- A condition that asks nothing has no subquery. -/
theorem Condition.subqueries_of_isVacuous {c : Condition} (h : c.isVacuous = true) :
    c.subqueries = [] := by
  match c with
  | .requires _ => rfl
  | .all conditions =>
      rw [Condition.isVacuous, Bool.and_eq_true] at h
      exact Condition.subqueriesAll_of_allVacuous h.2
  | .compare .. | .nullSafeEq .. | .isNull .. | .isJsonNull .. | .oneOf .. | .like ..
  | .arrayContains .. | .overlaps .. | .exists .. | .joined .. | .any _ | .not _ => cases h
termination_by structural c

/-- Conditions that ask nothing have no subquery. -/
theorem Condition.subqueriesAll_of_allVacuous {conditions : List Condition}
    (h : Condition.allVacuous conditions = true) : Condition.subqueriesAll conditions = [] := by
  match conditions with
  | [] => rfl
  | c :: rest =>
      rw [Condition.allVacuous, Bool.and_eq_true] at h
      rw [Condition.subqueriesAll, Condition.subqueries_of_isVacuous h.1,
        Condition.subqueriesAll_of_allVacuous h.2, List.nil_append]
termination_by structural conditions

end

namespace Select

/-- A text holds an `EXISTS` with the text of a subquery in which all joins of the subquery are
listed. -/
def StandsIn (d : Dialect) (n : Namespaces) (query : Select) (text : String) : Prop :=
  ∃ before inner after bound bound',
    text = before ++ "EXISTS (" ++ inner ++ ")" ++ after ∧
      StateT.run (query.renderListing d n query.emitted) bound = .ok (inner, bound')

/-- A text around a part holds what the part holds. -/
theorem StandsIn.within {query : Select} {text : String} (h : query.StandsIn d n text)
    (before after : String) : query.StandsIn d n (before ++ text ++ after) := by
  obtain ⟨first, inner, last, bound, bound', rfl, hrun⟩ := h
  exact ⟨before ++ first, inner, last ++ after, bound, bound',
    by simp only [String.append_assoc], hrun⟩

/-- Parts in a row hold what one of them holds. -/
theorem StandsIn.join {query : Select} {part : String} (h : query.StandsIn d n part)
    (separator : String) {parts : List String} (hpart : part ∈ parts) :
    query.StandsIn d n (Text.join separator parts) := by
  induction parts with
  | nil => cases hpart
  | cons first rest ih =>
      cases rest with
      | nil =>
          rw [List.mem_singleton.1 hpart] at h
          exact h
      | cons second rest =>
          have hjoin : Text.join separator (first :: second :: rest) =
              first ++ separator ++ Text.join separator (second :: rest) := rfl
          rw [hjoin]
          rcases List.mem_cons.1 hpart with rfl | hpart
          · have hin := h.within "" (separator ++ Text.join separator (second :: rest))
            rwa [String.empty_append, ← String.append_assoc] at hin
          · have hin := (ih hpart).within (first ++ separator) ""
            rwa [String.append_empty] at hin

/-- Parentheses around a text leave in it what it holds. -/
theorem StandsIn.enclosed {query : Select} {text : String} (h : query.StandsIn d n text)
    (c : Condition) : query.StandsIn d n (c.enclosed text) := by
  unfold Condition.enclosed
  split
  · exact h
  · exact h.within "(" ")"

/-- The statement is rendered with the list of its joins. -/
theorem render_eq_listing (d : Dialect) (n : Namespaces) (s : Select) :
    s.render d n = s.renderListing d n s.emitted := by
  rw [render_eq, renderListing, emitted_eq]
  simp only [Predicate.renderJoins_eq, Join.renderAll_append, bind_assoc, pure_bind]

/-- The text of an `EXISTS` test holds its subquery. -/
theorem gives_exists (query : Select) {head : String} (before : String)
    (h : head = before ++ "EXISTS (") :
    Render.Gives (do return head ++ (← query.render d n) ++ ")") (query.StandsIn d n) := by
  intro bound text bound' hrun
  obtain ⟨⟨inner, mid⟩, hquery, hpure⟩ := bind_eq_ok.1 hrun
  cases hpure
  rw [render_eq_listing] at hquery
  exact ⟨before, inner, "", bound, bound', by rw [h, String.append_empty], hquery⟩

/-- A text for the first condition of a list and texts for the others. -/
theorem StandsIn.cons {c : Condition} {text : String} {parts : List String} {others : List Select}
    (htext : ∀ query ∈ c.subqueries, query.StandsIn d n text)
    (hparts : ∀ query ∈ others, ∃ part ∈ parts, query.StandsIn d n part) :
    ∀ query ∈ c.subqueries ++ others, ∃ part ∈ c.enclosed text :: parts,
      query.StandsIn d n part := by
  intro query hquery
  rcases List.mem_append.1 hquery with hquery | hquery
  · exact ⟨_, List.mem_cons_self, (htext query hquery).enclosed c⟩
  · obtain ⟨part, hpart, hstands⟩ := hparts query hquery
    exact ⟨part, List.mem_cons_of_mem _ hpart, hstands⟩

end Select

mutual

/-- The text of a condition holds those of its subqueries. -/
theorem Condition.gives_subqueries (c : Condition) :
    Render.Gives (c.render d n) fun text => ∀ query ∈ c.subqueries, query.StandsIn d n text := by
  match c with
  | .exists query negated =>
      have hquery : Render.Gives ((Condition.exists query negated).render d n)
          (query.StandsIn d n) := by
        cases negated with
        | false => exact query.gives_exists "" (by decide)
        | true => exact query.gives_exists "NOT " (by decide)
      exact hquery.imp fun text htext => List.forall_mem_singleton.2 htext
  | .joined join inner => exact inner.gives_subqueries
  | .all conditions =>
      refine (Condition.gives_subqueriesConjuncts conditions).map fun parts hparts => ?_
      intro query hquery
      obtain ⟨part, hpart, hstands⟩ := hparts query hquery
      -- a conjunction without texts is `TRUE`, but here there is a text
      rw [if_neg (by rw [List.isEmpty_iff]; exact List.ne_nil_of_mem hpart)]
      exact hstands.join " AND " hpart
  | .any conditions =>
      refine (Condition.gives_subqueriesDisjuncts conditions).map fun parts hparts => ?_
      intro query hquery
      obtain ⟨part, hpart, hstands⟩ := hparts query hquery
      cases conditions with
      | nil => cases hquery
      | cons => exact hstands.join " OR " hpart
  | .not condition =>
      refine condition.gives_subqueries.map fun text htext query hquery => ?_
      exact (htext query hquery).within "NOT (" ")"
  | .compare .. | .nullSafeEq .. | .isNull .. | .isJsonNull .. | .oneOf .. | .like ..
  | .arrayContains .. | .overlaps .. | .requires .. => exact fun _ _ _ _ => List.forall_mem_nil _
termination_by structural c

/-- The texts of a conjunction hold the subqueries of its parts. -/
theorem Condition.gives_subqueriesConjuncts (conditions : List Condition) :
    Render.Gives (Condition.renderConjuncts d n conditions) fun parts =>
      ∀ query ∈ Condition.subqueriesAll conditions, ∃ part ∈ parts, query.StandsIn d n part := by
  match conditions with
  | [] => exact fun _ _ _ _ => List.forall_mem_nil _
  | c :: rest =>
      rw [Condition.renderConjuncts, Condition.subqueriesAll]
      cases hvacuous : c.isVacuous with
      | true =>
          rw [Condition.subqueries_of_isVacuous hvacuous]
          exact Condition.gives_subqueriesConjuncts rest
      | false =>
          exact c.gives_subqueries.bind fun text htext =>
            (Condition.gives_subqueriesConjuncts rest).map fun parts => Select.StandsIn.cons htext
termination_by structural conditions

/-- The texts of a disjunction hold the subqueries of its parts. -/
theorem Condition.gives_subqueriesDisjuncts (conditions : List Condition) :
    Render.Gives (Condition.renderDisjuncts d n conditions) fun parts =>
      ∀ query ∈ Condition.subqueriesAll conditions, ∃ part ∈ parts, query.StandsIn d n part := by
  match conditions with
  | [] => exact fun _ _ _ _ => List.forall_mem_nil _
  | c :: rest =>
      rw [Condition.renderDisjuncts, Condition.subqueriesAll]
      exact c.gives_subqueries.bind fun text htext =>
        (Condition.gives_subqueriesDisjuncts rest).map fun parts => Select.StandsIn.cons htext
termination_by structural conditions

end

/-- The `WHERE` of a predicate holds its subqueries. -/
theorem Predicate.gives_subqueries (p : Predicate) :
    Render.Gives (p.renderWhere d n) fun text =>
      ∀ query ∈ p.subqueries, query.StandsIn d n text := by
  cases p with
  | always => exact fun _ _ _ _ => List.forall_mem_nil _
  | never => exact fun _ _ _ _ => List.forall_mem_nil _
  | condition c =>
      rw [Predicate.renderWhere, Predicate.subqueries]
      cases hvacuous : c.isVacuous with
      | true =>
          rw [Condition.subqueries_of_isVacuous hvacuous]
          exact fun _ _ _ _ => List.forall_mem_nil _
      | false =>
          refine c.gives_subqueries.map fun text htext query hquery => ?_
          have hin := (htext query hquery).within " WHERE " ""
          rwa [String.append_empty] at hin

namespace Select

/-- The text of a statement holds the subqueries of its filter. -/
theorem gives_subqueries (s : Select) :
    Render.Gives (s.render d n) fun text =>
      ∀ query ∈ s.filter.subqueries, query.StandsIn d (n.inside s.namespaceText?) text := by
  have hany {α : Type} (x : Render α) : Render.Gives x fun _ => True := fun _ _ _ _ => trivial
  rw [render_eq_listing, renderListing]
  split
  · exact .throw
  · refine (hany _).bind fun items _ => (hany _).bind fun joins _ => ?_
    refine s.filter.gives_subqueries.bind fun filter hfilter => ?_
    refine (hany _).bind fun groups _ => (hany _).bind fun having _ => ?_
    refine (hany _).map fun terms _ => ?_
    intro query hquery
    have hin := (hfilter query hquery).within
      ("SELECT " ++ hintText d s.timeout ++ itemsText items ++ sourceText s.source ++
        String.join (joins.map (" " ++ ·)))
      (listText " GROUP BY " groups ++ having ++ listText " ORDER BY " terms ++
        countText " LIMIT " s.limit ++ countText " OFFSET " s.offset)
    simpa only [assemble_eq, String.append_assoc] using hin

/-- The subquery of the statement that asks whether there is a row. -/
def probe (s : Select) : Select :=
  { s with
    items := [⟨.keyword "1", none⟩], orderBy := [], limit := none, offset := none, timeout := none }

/-- The text of a statement that asks whether there is a row holds the statement that it asks of. -/
theorem gives_probe (s : Select) :
    Render.Gives (s.toExists.render d n) (s.probe.StandsIn d (n.inside none)) := by
  have hany {α : Type} (x : Render α) : Render.Gives x fun _ => True := fun _ _ _ _ => trivial
  have hitems : Render.Gives (SelectItem.renderAll d (n.inside none) s.toExists.items)
      fun texts => s.probe.StandsIn d (n.inside none) (itemsText texts) := by
    have hexists : Render.Gives ((Expr.exists s.probe).render d (n.inside none))
        (s.probe.StandsIn d (n.inside none)) := s.probe.gives_exists "" (by decide)
    have hnone : Render.Gives (SelectItem.renderAll d (n.inside none) []) (· = []) := .pure rfl
    refine hexists.bind fun text htext => hnone.map fun others hothers => ?_
    have hin := htext.within "" (" AS " ++ aggregateAlias.text)
    rw [String.empty_append, ← String.append_assoc] at hin
    rw [hothers]
    exact hin
  rw [render_eq]
  refine hitems.bind fun items hitems => (hany _).bind fun joins _ => (hany _).bind fun more _ => ?_
  refine (hany _).bind fun filter _ => (hany _).bind fun groups _ => ?_
  refine (hany _).bind fun having _ => (hany _).map fun terms _ => ?_
  have hin := hitems.within ("SELECT " ++ hintText d s.timeout)
    (String.join ((joins ++ more).map (" " ++ ·)) ++ filter ++ listText " GROUP BY " groups ++
      having ++ listText " ORDER BY " terms)
  simpa only [assemble_eq, toExists, sourceText, countText, empty, String.append_assoc,
    String.append_empty, String.empty_append] using hin

end Select

/-! ## Joins in the text -/

namespace Select

/-- The joins in the text of a statement are those passed to it, as they came first, and then those
that its filter names, each of them once. -/
structure EmitsOnce (s : Select) (passed : List Join) : Prop where
  /-- The text has a `JOIN` for each of the joins in turn, and no other. -/
  text : ∀ d n, s.render d n = s.renderListing d n s.emitted
  order : s.emitted = Join.fresh [] passed ++
    (Join.fresh [] s.filter.wanted).filter fun join => !(Join.fresh [] passed).contains join
  apart : s.emitted.Pairwise fun join later => (join == later) = false ∧ (later == join) = false
  complete : ∀ join ∈ passed ++ s.filter.wanted,
    ∃ kept ∈ s.emitted, join = kept ∨ (join == kept) = true
  /-- Where no row matches, the filter adds no join. -/
  never : s.filter = .never → s.emitted = Join.fresh [] passed
  /-- The joins do not depend on the subqueries of the filter. -/
  outside : ∀ f, ({ s with filter := s.filter.mapSubqueries f } : Select).emitted = s.emitted
  /-- The joins that a subquery of the filter needs are in the text of the subquery. -/
  inside : ∀ d n, Render.Gives (s.render d n) fun text => ∀ query ∈ s.filter.subqueries,
    query.StandsIn d (n.inside s.namespaceText?) text ∧
      ∀ join ∈ query.filter.wanted, ∃ kept ∈ query.emitted, join = kept ∨ (join == kept) = true
  /-- The statement that asks whether there is a row has the joins in its own subquery. -/
  probed : s.toExists.emitted = [] ∧ s.probe.emitted = s.emitted ∧
    ∀ d n, Render.Gives (s.toExists.render d n) (s.probe.StandsIn d (n.inside none))

/-- Every join that the filter of a statement names is in the text of the statement. -/
theorem exists_emitted_of_wanted (s : Select) {join : Join} (h : join ∈ s.filter.wanted) :
    ∃ kept ∈ s.emitted, join = kept ∨ (join == kept) = true := by
  rw [emitted_eq]
  by_cases hjoins : ∃ other ∈ s.joins, (join == other) = true
  · obtain ⟨other, hother, hsame⟩ := hjoins
    exact ⟨other, List.mem_append_left _ hother, .inr hsame⟩
  · obtain ⟨kept, hkept, hsame⟩ := Join.exists_same_mem_fresh h fun other hother =>
      Bool.eq_false_iff.2 fun htrue => hjoins ⟨other, hother, htrue⟩
    exact ⟨kept, List.mem_append_right _ hkept, hsame⟩

/-- However the calls that build a statement are mixed, its text has each join that was passed to it
or that its filter names once. -/
theorem joins_emitted_once (changes : List Change) :
    (built changes).EmitsOnce (passed changes) := by
  have hjoins := built_joins changes
  generalize built changes = s at hjoins ⊢
  generalize passed changes = asked at hjoins ⊢
  have hemitted : s.emitted = Join.fresh [] (asked ++ s.filter.wanted) := by
    rw [emitted_eq, hjoins, Join.fresh_append, List.nil_append]
  exact {
    text := fun d n => render_eq_listing d n s
    order := by
      rw [hemitted, Join.fresh_append, List.nil_append, ← Join.fresh_append_left, List.append_nil]
    apart := by
      rw [hemitted]
      exact (Join.pairwise_fresh [] _).imp fun h => ⟨BEq.comm.trans h, h⟩
    complete := by
      rw [hemitted]
      exact fun join hjoin => Join.exists_same_mem_fresh hjoin (List.forall_mem_nil _)
    never := fun hnever => by
      have hwanted : s.filter.wanted = [] := by rw [hnever]; rfl
      rw [hemitted, hwanted, List.append_nil]
    outside := fun f => by
      rw [emitted_eq, emitted_eq, Predicate.wanted_mapSubqueries]
    inside := fun d n => s.gives_subqueries.imp fun text htext query hquery =>
      ⟨htext query hquery, fun join hjoin => query.exists_emitted_of_wanted hjoin⟩
    probed := ⟨rfl, rfl, fun d n => s.gives_probe⟩ }

namespace Sample

/-- The join with the table of users for the author. -/
def author : Join :=
  ⟨.inner, ⟨⟨"users", .refl true⟩, some ⟨"author", .refl true⟩⟩,
    .eq (.column ⟨.own, ⟨"id", .refl true⟩⟩) (.column ⟨.enclosing, ⟨"author", .refl true⟩⟩)⟩

/-- The join with the table of teams. -/
def team : Join :=
  ⟨.left, ⟨⟨"teams", .refl true⟩, none⟩,
    .eq (.column ⟨.own, ⟨"id", .refl true⟩⟩) (.column ⟨.enclosing, ⟨"team", .refl true⟩⟩)⟩

/-- A column of a joined table is `NULL`. -/
def unset (table column : Identifier) : Condition :=
  .null (.column ⟨.named table, column⟩)

/-- Comments whose author has no name. -/
def comments : Select :=
  (Select.empty.fromTable ⟨⟨"comments", .refl true⟩, none⟩).restrictBy
    (.joined author (unset ⟨"author", .refl true⟩ ⟨"name", .refl true⟩))

/-- The number of posts, with joins that are passed, needed by the filter, or both. -/
def counted : List Change :=
  [.join author, .fromTable ⟨⟨"posts", .refl true⟩, none⟩,
    .restrict (.condition (.any [.joined team (unset ⟨"teams", .refl true⟩ ⟨"name", .refl true⟩),
      .not (.joined author (unset ⟨"author", .refl true⟩ ⟨"name", .refl true⟩))])),
    .join author, .toCount none, .restrict (.condition (.exists comments false))]

end Sample

open Sample in
/-- A join that is passed twice and named by the filter stands in the text once. -/
theorem joins_emitted_once_counted :
    (built counted).EmitsOnce (passed counted) ∧ passed counted = [author, author] ∧
      (built counted).filter.wanted = [team, author] ∧ (built counted).emitted = [author, team] :=
  ⟨joins_emitted_once counted, rfl, rfl, rfl⟩

open Sample in
example : StateT.run (Join.renderAll .mysql ⟨some "posts", none⟩ (built counted).emitted) #[] =
    .ok (["JOIN users author ON author.id = posts.author",
      "LEFT JOIN teams ON teams.id = posts.team"], #[]) := rfl

end Select

end FilterSql
