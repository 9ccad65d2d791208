import FilterSql.Proofs.Sort.Statement

/-!
# The request for the next page

A request that is built into a statement asks for a known order and a filter that compiles, and its
cursor belongs to the order (`PageRequest.exists_select_iff`). The request for the next page differs
in nothing but the cursor, which is that of a row and so has the keys of the resolved order
(`PageRequest.next_builds`). By induction no request on a walk through pages is refused
(`PageRequest.Leads.exists_select`).
-/

namespace FilterSql

/-- No row has the value `now` for a key. -/
def SortSchema.Stored {Row : Type} (s : SortSchema Row) : Prop :=
  ∀ key rule, s.get? key = some rule → ∀ row, rule.value row ≠ .now

/-- Every value that a row can have is bound in a statement. -/
theorem Operand.exists_bound {operand : Operand} (h : operand ≠ .now) :
    ∃ value, operand.bound? = some value := by
  cases operand <;> first | exact ⟨_, rfl⟩ | exact absurd rfl h

variable {Row : Type} {sorts : SortSchema Row} {sort resolved : List SortTerm}
  {rules : List (SortTerm × SortRule Row)}

namespace Keyset

/-- The values of a row can be compared with the expressions of their keys. -/
theorem exists_keys (hget : ∀ key ∈ rules, sorts.get? key.1.key = some key.2)
    (hstored : sorts.Stored) (row : Row) :
    ∃ keys, Keyset.keys sorts (rules.map fun key => (key.1, key.2.value row)) = .ok keys := by
  induction rules with
  | nil => exact ⟨[], rfl⟩
  | cons key rules ih =>
      obtain ⟨hkey, hrest⟩ := List.forall_mem_cons.1 hget
      obtain ⟨value, hvalue⟩ := Operand.exists_bound (hstored _ _ hkey row)
      obtain ⟨others, hothers⟩ := ih hrest
      refine ⟨⟨(key.2.term key.1.direction).expr, key.2.nullable, key.1.direction, value⟩ :: others,
        ?_⟩
      rw [List.map_cons, keys, hkey, hvalue, hothers]
      rfl

end Keyset

namespace PageRequest

variable {limits : Limits} {now : Instant} {schema : Schema} {base : Select} {p next : PageRequest}
  {rows : List Row}

/-- The rows behind the cursor of a row are found whatever the row is. -/
theorem exists_beyond (hrules : sorts.HasRules resolved rules) (hstored : sorts.Stored)
    (row : Row) : ∃ predicate, beyond sorts resolved
      (some ⟨rules.map fun key => (key.1.key, key.2.value row)⟩) = .ok predicate := by
  obtain ⟨keys, hkeys⟩ := Keyset.exists_keys hrules.get? hstored row
  simp only [beyond, Keyset.of_eq hrules, Keyset.toCondition, hkeys, Except.mapError, bind,
    Except.bind, pure, Except.pure]
  split <;> exact ⟨_, rfl⟩

/-- A request is built exactly when its order is known, its filter compiles, and its cursor belongs
to the order. -/
theorem exists_select_iff :
    (∃ select, p.select limits now schema sorts base = .ok select) ↔
      ∃ resolved filter predicate, sorts.resolve p.sort = .ok resolved ∧
        p.filter.compile limits now schema = .ok filter ∧
        beyond sorts resolved p.cursor = .ok predicate := by
  constructor
  · rintro ⟨statement, h⟩
    obtain ⟨resolved, hsort, h⟩ := bind_eq_ok.1 h
    obtain ⟨filter, hfilter, h⟩ := bind_eq_ok.1 h
    obtain ⟨predicate, hbeyond, -⟩ := bind_eq_ok.1 h
    exact ⟨resolved, filter, predicate, mapError_eq_ok.1 hsort, mapError_eq_ok.1 hfilter, hbeyond⟩
  · rintro ⟨resolved, filter, predicate, hsort, hfilter, hbeyond⟩
    obtain ⟨rules, hrules⟩ :=
      SortSchema.exists_hasRules (SortSchema.isResolved_of_resolve hsort).known
    have hall := SortSchema.apply_eq hsort hrules (base.restrict filter)
    exact ⟨_, select_eq hsort hrules hfilter hall hbeyond⟩

/-- The request for the next page has the cursor of the last row, and nothing else is new. -/
theorem eq_of_next (h : p.next? sorts rows = .ok (some next)) :
    ∃ last cursor, rows.getLast? = some last ∧ Cursor.ofRow sorts last p.sort = .ok cursor ∧
      next = { p with cursor := some cursor } := by
  unfold next? at h
  split at h
  · cases h
  next last hlast =>
    split at h
    · cases h
    obtain ⟨cursor, hcursor, h⟩ := bind_eq_ok.1 h
    obtain ⟨-, hnext⟩ := Option.ite_none_left_eq_some.1 (Except.ok.inj h)
    exact ⟨last, cursor, hlast, hcursor, (Option.some.inj hnext).symm⟩

/-- The cursor of a row has the keys of the resolved order. -/
theorem ofRow_keys {row : Row} {cursor : Cursor} (h : Cursor.ofRow sorts row sort = .ok cursor) :
    ∃ resolved rules, sorts.resolve sort = .ok resolved ∧ sorts.HasRules resolved rules ∧
      cursor = ⟨rules.map fun key => (key.1.key, key.2.value row)⟩ := by
  cases hsort : sorts.resolve sort with
  | error e =>
      simp [Cursor.ofRow, SortSchema.values, SortSchema.rulesOf, hsort, bind, Except.bind] at h
  | ok resolved =>
      obtain ⟨rules, hrules⟩ :=
        SortSchema.exists_hasRules (SortSchema.isResolved_of_resolve hsort).known
      rw [Keyset.ofRow_eq hsort hrules] at h
      exact ⟨resolved, rules, rfl, hrules, (Except.ok.inj h).symm⟩

/-- The step of a walk: the request for the next page is built where this one is. -/
theorem exists_select_next (hstored : sorts.Stored)
    (hselect : ∃ select, p.select limits now schema sorts base = .ok select)
    (hnext : p.next? sorts rows = .ok (some next)) :
    ∃ select, next.select limits now schema sorts base = .ok select := by
  obtain ⟨resolved, filter, -, hsort, hfilter, -⟩ := exists_select_iff.1 hselect
  obtain ⟨last, cursor, -, hcursor, rfl⟩ := eq_of_next hnext
  obtain ⟨_, rules, hsort', hrules, rfl⟩ := ofRow_keys hcursor
  obtain rfl := Except.ok.inj (hsort.symm.trans hsort')
  obtain ⟨beyond, hbeyond⟩ := exists_beyond hrules hstored last
  exact exists_select_iff.2 ⟨resolved, filter, beyond, hsort, hfilter, hbeyond⟩

/-- One request leads to another through pages of any rows. -/
inductive Leads (sorts : SortSchema Row) (p : PageRequest) : PageRequest → Prop where
  | refl : Leads sorts p p
  | next {q r : PageRequest} {rows : List Row} (walk : Leads sorts p q)
      (step : q.next? sorts rows = .ok (some r)) : Leads sorts p r

/-- No request is refused that a request which is built leads to. -/
theorem Leads.exists_select (hstored : sorts.Stored) (h : p.Leads sorts next)
    (hselect : ∃ select, p.select limits now schema sorts base = .ok select) :
    ∃ select, next.select limits now schema sorts base = .ok select := by
  induction h with
  | refl => exact hselect
  | next _ hstep ih => exact exists_select_next hstored ih hstep

/-- Where a request is built and a page of rows leads to a next one, this asks for the same rows in
the same order, its cursor has the keys of the resolved order, and it is built. -/
theorem next_builds {select : Select} (hstored : sorts.Stored)
    (hselect : p.select limits now schema sorts base = .ok select)
    (hnext : p.next? sorts rows = .ok (some next)) :
    (next.filter = p.filter ∧ next.sort = p.sort ∧ next.limit = p.limit) ∧
      (∃ resolved cursor, sorts.resolve p.sort = .ok resolved ∧ next.cursor = some cursor ∧
        cursor.fields.map (·.1) = resolved.map (·.key)) ∧
      ∃ following, next.select limits now schema sorts base = .ok following := by
  refine ⟨?_, ?_, exists_select_next hstored ⟨select, hselect⟩ hnext⟩
  · obtain ⟨_, _, _, _, rfl⟩ := eq_of_next hnext
    exact ⟨rfl, rfl, rfl⟩
  · obtain ⟨last, cursor, -, hcursor, rfl⟩ := eq_of_next hnext
    obtain ⟨resolved, rules, hsort, hrules, rfl⟩ := ofRow_keys hcursor
    refine ⟨resolved, _, hsort, rfl, ?_⟩
    rw [← hrules.terms, List.map_map, List.map_map]
    rfl

end PageRequest

namespace SortSchema.Sample

/-- The values of persons can be stored. -/
theorem people_stored : people.Stored := by
  intro key rule hrule person
  rcases List.mem_pair.1 (mem_rules_of_get? hrule) with h | h
  · obtain ⟨-, rfl⟩ := Prod.mk.inj h
    rintro ⟨⟩
  · obtain ⟨-, rfl⟩ := Prod.mk.inj h
    obtain ⟨id, _ | name⟩ := person <;> rintro ⟨⟩

/-- Pages of one person, by name twice and then by number. -/
def byName : PageRequest :=
  { PageRequest.first {} with
    sort := [⟨"name", .desc⟩, ⟨"name", .asc⟩]
    limit := 1 }

/-- The page behind the one of Ada. -/
def behindAda : PageRequest :=
  { byName with cursor := some ⟨[("name", .string "Ada"), ("id", .int 2)]⟩ }

end SortSchema.Sample

open SortSchema.Sample in
/-- The page behind a person can be built, with the filter, the order and the limit of the first. -/
theorem PageRequest.next_builds_people :
    people.Stored ∧
      (∃ select, byName.select {} default .empty people .empty = .ok select) ∧
      byName.next? people [ada] = .ok (some behindAda) ∧
      (behindAda.filter = byName.filter ∧ behindAda.sort = byName.sort ∧
        behindAda.limit = byName.limit) ∧
      (∃ resolved cursor, people.resolve byName.sort = .ok resolved ∧
        behindAda.cursor = some cursor ∧ cursor.fields.map (·.1) = resolved.map (·.key)) ∧
      ∃ following, behindAda.select {} default .empty people .empty = .ok following := by
  have hnext : byName.next? people [ada] = .ok (some behindAda) := rfl
  exact ⟨people_stored, ⟨_, rfl⟩, hnext, next_builds people_stored rfl hnext⟩

end FilterSql
