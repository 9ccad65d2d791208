import FilterSql.Proofs.Sort.Agreement
import FilterSql.Sort.Page

/-!
# The statement of a page

The statement of a page chooses among the rows of the statement on all rows those behind the cursor
(`PageRequest.select_eq`), and its joins and its order are the same. `PageRequest.beyond_ofRow` says
which rows are behind the cursor of a row.
-/

namespace FilterSql

namespace Select

/-- The joins found so far with one more, unless an equal one is there. -/
def addJoin (found : List Join) (join : Join) : List Join :=
  if found.contains join then found else found ++ [join]

/-- Joins are added one after the other, and nothing else changes. -/
theorem foldl_join (joins : List Join) (s : Select) :
    joins.foldl Select.join s = { s with joins := joins.foldl addJoin s.joins } := by
  induction joins generalizing s with
  | nil => cases s; rfl
  | cons join joins ih =>
      rw [List.foldl_cons, List.foldl_cons, ih, Select.join, addJoin]
      split <;> rfl

/-- Terms are added one after the other, and nothing else changes. -/
theorem foldl_ordered (terms : List OrderTerm) (s : Select) :
    terms.foldl Select.ordered s = { s with orderBy := s.orderBy ++ terms } := by
  induction terms generalizing s with
  | nil => cases s; simp
  | cons term terms ih =>
      rw [List.foldl_cons, ih]
      simp [Select.ordered]

end Select

variable {Row : Type} {sorts : SortSchema Row} {sort resolved : List SortTerm}
  {rules : List (SortTerm × SortRule Row)}

/-- An order adds the joins of its keys and their terms to a statement. -/
theorem SortSchema.apply_eq (hsort : sorts.resolve sort = .ok resolved)
    (hrules : sorts.HasRules resolved rules) (s : Select) :
    sorts.apply s sort = .ok
      { s with
        joins := (joinsOf [] rules).foldl Select.addJoin s.joins
        orderBy := s.orderBy ++ termsOf rules } := by
  rw [apply, orderBy_eq hsort hrules]
  show Except.ok _ = Except.ok _
  rw [Select.foldl_join, Select.foldl_ordered]

/-- An order that is added to a statement can be resolved. -/
theorem SortSchema.resolve_of_apply {select all : Select} (h : sorts.apply select sort = .ok all) :
    ∃ resolved, sorts.resolve sort = .ok resolved := by
  cases hsort : sorts.resolve sort with
  | error e => simp [apply, orderBy, rulesOf, hsort, bind, Except.bind] at h
  | ok resolved => exact ⟨resolved, rfl⟩

namespace PageRequest

variable {limits : Limits} {now : Instant} {schema : Schema} {base all : Select}
  {p : PageRequest} {filter beyond : Predicate}

/-- The statement of a page is that on all rows, restricted to the rows behind the cursor and cut
after the limit. -/
theorem select_eq (hsort : sorts.resolve p.sort = .ok resolved)
    (hrules : sorts.HasRules resolved rules)
    (hfilter : p.filter.compile limits now schema = .ok filter)
    (hall : sorts.apply (base.restrict filter) p.sort = .ok all)
    (hbeyond : PageRequest.beyond sorts resolved p.cursor = .ok beyond) :
    p.select limits now schema sorts base = .ok
      { all.restrict beyond with
        limit := some p.limit
        timeout := limits.timeout.or all.timeout } := by
  have hresolved := (SortSchema.isResolved_of_resolve hsort).resolve_eq
  rw [SortSchema.apply_eq hsort hrules] at hall
  cases hall
  simp only [select, hsort, hfilter, hbeyond, SortSchema.apply_eq hresolved hrules, Except.mapError,
    bind, Except.bind, pure, Except.pure, Select.restrict, Select.limited, Select.within,
    Predicate.and_assoc]
  cases limits.timeout <;> rfl

variable {db : Database} {decode : Env → Row} {rows : Env → Prop} {env a b : Env}

/-- The rows of a page are the first ones of all rows in order that are behind the cursor. -/
theorem run_page {timeout : Option Nat} (hoffset : all.offset = none)
    (hjoins : beyond.joinSteps db = []) :
    Select.run db env
        { all.restrict beyond with
          limit := some p.limit
          timeout := timeout } =
      (stableSort (Select.compareRows db all.orderBy) ((all.matched db env).filter fun row =>
        beyond.truth db row = .holds)).take p.limit := by
  rw [← Select.matched_restrict hjoins]
  simp only [Select.run, window, Select.restrict, hoffset]
  rfl

/-- The predicate behind the cursor of a row needs no join and holds on the rows that come after the
row in memory. -/
theorem beyond_ofRow (hrules : sorts.HasRules resolved rules)
    (hfits : sorts.Fits db decode rows resolved) (ha : rows a) :
    ∃ beyond, PageRequest.beyond sorts resolved
        (some ⟨rules.map fun key => (key.1.key, key.2.value (decode a))⟩) = .ok beyond ∧
      beyond.joinSteps db = [] ∧
      ∀ b, rows b → (beyond.truth db b = .holds ↔
        SortSchema.compareBy rules (decode a) (decode b) = .lt) := by
  have htruth : ∀ b, rows b → ((Keyset.anyOf (Keyset.branches .after none
      (rules.map (Keyset.keyAt db a)))).truth db b = .holds ↔
        SortSchema.compareBy rules (decode a) (decode b) = .lt) :=
    fun b hb => Keyset.truth_beside hrules hfits ha hb .after
  have hjoins := Keyset.joinSteps_anyOf
    (@Keyset.joinSteps_branches db .after none (by simp) (rules.map (Keyset.keyAt db a)))
  simp only [PageRequest.beyond, Keyset.of_eq hrules, Keyset.toCondition_eq hrules hfits ha,
    Except.mapError, bind, Except.bind, pure, Except.pure]
  split
  next hnone =>
    -- a position below which nothing can be has no branches
    rw [hnone] at htruth
    refine ⟨.never, rfl, rfl, fun b hb => ?_⟩
    rw [← htruth b hb]
    simp [Condition.truth, Condition.eval, Condition.evalAll, Predicate.truth, Predicate.eval]
  next => exact ⟨.condition _, rfl, hjoins, htruth⟩

end PageRequest

end FilterSql
