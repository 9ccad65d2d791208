import FilterSql.Proofs.Sql.Joins
import FilterSql.Proofs.Sort.Statement

/-!
# What a requested order stands for

An order may be requested with repeated keys and without the tie-break. `SortTerm.Completes` says
which order it is resolved to, by the places of the keys in the request, and
`SortSchema.Serves` says that the terms of a statement, the values of a row and the comparison of
rows are all made of the same keys in the same order. A request with an unknown key is refused by
all of them in the same way (`SortSchema.Refuses`).
-/

namespace FilterSql

/-! ## First terms -/

namespace SortTerm

/-- A list holds the first term of each key of a request, in the order of the request. -/
structure FirstOfEach (sort kept : List SortTerm) : Prop where
  mem : ∀ term, term ∈ kept ↔ sort.find? (·.key = term.key) = some term
  inOrder : kept.Pairwise fun a b =>
    sort.findIdx (·.key = a.key) < sort.findIdx (·.key = b.key)

/-- An order holds the first term of each key of a request, in the order of the request, and the
tie-break, which stands at the end and goes up unless it is requested. -/
structure Completes (tieBreak : String) (sort resolved : List SortTerm) : Prop where
  once : (resolved.map (·.key)).Nodup
  tied : (resolved.map (·.key)).count tieBreak = 1
  requested : ∃ kept, FirstOfEach sort kept ∧
    resolved = if tieBreak ∈ sort.map (·.key) then kept else kept ++ [⟨tieBreak, .asc⟩]

/-- The first terms are those that are found under their keys. -/
theorem mem_firsts_iff {term : SortTerm} {sort : List SortTerm} :
    term ∈ firsts sort ↔ sort.find? (·.key = term.key) = some term := by
  induction sort with
  | nil => simp [firsts]
  | cons first rest ih =>
      rw [firsts, List.mem_cons, List.mem_filter, ih, List.find?_cons]
      by_cases hkey : first.key = term.key
      · simp [hkey, eq_comm]
      · have hne : term ≠ first := fun h => hkey (h ▸ rfl)
        simp [hkey, hne, Ne.symm hkey]

/-- The first terms stand in the order of the request. -/
theorem firsts_inOrder (sort : List SortTerm) : (firsts sort).Pairwise fun a b =>
    sort.findIdx (·.key = a.key) < sort.findIdx (·.key = b.key) := by
  induction sort with
  | nil => exact .nil
  | cons first rest ih =>
      -- what is kept behind the first term stands one place further on in the whole request
      have hbehind : ∀ term ∈ (firsts rest).filter (·.key ≠ first.key),
          (first :: rest).findIdx (·.key = term.key) = rest.findIdx (·.key = term.key) + 1 := by
        intro term hterm
        have hkey : term.key ≠ first.key := by simpa using (List.mem_filter.1 hterm).2
        simp [List.findIdx_cons, hkey.symm]
      refine List.pairwise_cons.2 ⟨fun term hterm => ?_, ?_⟩
      · rw [hbehind term hterm, List.findIdx_cons]
        simp
      · refine (ih.filter _).imp_of_mem fun ha hb hlt => ?_
        rw [hbehind _ ha, hbehind _ hb]
        exact Nat.succ_lt_succ hlt

/-- The terms that are kept are the first of each key. -/
theorem firstOfEach_firsts (sort : List SortTerm) : FirstOfEach sort (firsts sort) :=
  ⟨fun _ => mem_firsts_iff, firsts_inOrder sort⟩

/-- The first terms have the keys of the request. -/
theorem mem_keys_firsts {sort : List SortTerm} {key : String} :
    key ∈ (firsts sort).map (·.key) ↔ key ∈ sort.map (·.key) := by
  constructor
  · intro h
    obtain ⟨term, hterm, rfl⟩ := List.mem_map.1 h
    exact List.mem_map_of_mem (mem_firsts hterm)
  · intro h
    obtain ⟨term, hterm, rfl⟩ := List.mem_map.1 h
    have hfound : (sort.find? (·.key = term.key)).isSome := by
      rw [List.find?_isSome]
      exact ⟨term, hterm, by simp⟩
    obtain ⟨first, hfirst⟩ := Option.isSome_iff_exists.1 hfound
    have hkey : first.key = term.key := by simpa using List.find?_some hfirst
    rw [← hkey] at hfirst ⊢
    exact List.mem_map_of_mem (mem_firsts_iff.2 hfirst)

end SortTerm

namespace SortSchema

variable {Row : Type} {s : SortSchema Row} {sort resolved : List SortTerm}
  {rules : List (SortTerm × SortRule Row)}

/-- The first terms with the tie-break complete a request over the keys of a schema. -/
theorem completes_withTieBreak (h : ∀ term ∈ sort, term.key ∈ s.keys) :
    SortTerm.Completes s.tieBreak sort (s.withTieBreak (SortTerm.firsts sort)) := by
  have hresolved := isResolved_of_resolve (resolve_of_known h)
  refine ⟨hresolved.once, ?_, SortTerm.firsts sort, SortTerm.firstOfEach_firsts sort, ?_⟩
  · obtain ⟨term, hterm, hkey⟩ := hresolved.tieBreak
    exact List.count_eq_one_of_mem hresolved.once (hkey ▸ List.mem_map_of_mem hterm)
  · have hany : (SortTerm.firsts sort).any (·.key = s.tieBreak) = true ↔
        s.tieBreak ∈ sort.map (·.key) := by
      rw [← SortTerm.mem_keys_firsts, List.any_eq_true, List.mem_map]
      simp only [decide_eq_true_eq]
    simp only [withTieBreak, hany]

/-! ## What is made of the keys -/

/-- The terms of a statement, the values of a row and the comparison of two rows are made of the
same keys in the same order. -/
structure Serves (s : SortSchema Row) (sort : List SortTerm)
    (rules : List (SortTerm × SortRule Row)) : Prop where
  orderBy : s.orderBy sort =
    .ok (rules.map fun key => key.2.term key.1.direction,
      Join.fresh [] (rules.filterMap (·.2.join)))
  apply : ∀ select, ∃ ordered, s.apply select sort = .ok ordered ∧
    ordered.orderBy = select.orderBy ++ rules.map fun key => key.2.term key.1.direction
  values : ∀ row, s.values row sort = .ok (rules.map fun key => (key.1.key, key.2.value row))
  comparator : ∃ compare, s.comparator sort = .ok compare ∧ ∀ a b, compare a b =
    match deciding? rules a b with
    | some key => key.1.direction.orient ((key.2.value a).order (key.2.value b))
    | none => .eq

/-- All that is made of an order is refused with one error. -/
structure Refuses (s : SortSchema Row) (sort : List SortTerm) (e : SortError) : Prop where
  resolve : s.resolve sort = .error e
  orderBy : s.orderBy sort = .error e
  apply : ∀ select, s.apply select sort = .error e
  values : ∀ row, s.values row sort = .error e
  comparator : s.comparator sort = .error e

/-- The joins of a list of rules are gathered as those that are new. -/
theorem joinsOf_eq (found : List Join) (rules : List (SortTerm × SortRule Row)) :
    joinsOf found rules = found ++ Join.fresh found (rules.filterMap (·.2.join)) := by
  induction rules generalizing found with
  | nil => simp [joinsOf, Join.fresh]
  | cons key rest ih =>
      obtain ⟨term, rule⟩ := key
      rw [joinsOf]
      cases hjoin : rule.join with
      | none => simp [hjoin, ih]
      | some join =>
          simp only [ih, List.filterMap_cons, hjoin, Join.fresh]
          split <;> simp

/-- What is settled by the first comparison is not compared further. -/
theorem then_of_ne_eq {first second : Ordering} (h : first ≠ .eq) : first.then second = first := by
  cases first with
  | eq => exact absurd rfl h
  | lt | gt => rfl

/-- The first key that tells two rows apart decides how they compare. -/
theorem compareBy_eq_deciding (rules : List (SortTerm × SortRule Row)) (a b : Row) :
    compareBy rules a b =
      match deciding? rules a b with
      | some key => key.1.direction.orient ((key.2.value a).order (key.2.value b))
      | none => .eq := by
  induction rules with
  | nil => rfl
  | cons key rest ih =>
      rw [compareBy_cons, deciding?, List.find?_cons]
      by_cases htie : (key.2.value a).order (key.2.value b) = .eq
      · rw [Direction.orient_eq_eq.2 htie, htie]
        exact ih
      · have hne : ((key.2.value a).order (key.2.value b) != .eq) = true := by
          simpa using htie
        rw [hne, then_of_ne_eq (mt Direction.orient_eq_eq.1 htie)]

/-- Where an order is resolved, the same keys serve all that is made of it. -/
theorem serves_of_resolve (hsort : s.resolve sort = .ok resolved)
    (hrules : s.HasRules resolved rules) : s.Serves sort rules where
  orderBy := by
    rw [orderBy_eq hsort hrules, joinsOf_eq]
    rfl
  apply select := ⟨_, apply_eq hsort hrules select, rfl⟩
  values row := by
    rw [SortSchema.values, rulesOf_of_resolve hsort hrules]
    rfl
  comparator := by
    refine ⟨compareBy rules, ?_, compareBy_eq_deciding rules⟩
    rw [SortSchema.comparator, rulesOf_of_resolve hsort hrules]
    rfl

/-- Where an order is refused, all that is made of it is. -/
theorem refuses_of_resolve {e : SortError} (h : s.resolve sort = .error e) : s.Refuses sort e where
  resolve := h
  orderBy := by rw [SortSchema.orderBy, rulesOf, h]; rfl
  apply select := by rw [SortSchema.apply, SortSchema.orderBy, rulesOf, h]; rfl
  values row := by rw [SortSchema.values, rulesOf, h]; rfl
  comparator := by rw [SortSchema.comparator, rulesOf, h]; rfl

/-! ## Schemas that are built -/

/-- A schema that is built has the rules and the tie-break it was built from. -/
theorem eq_of_build {defined : SortRules Row} {tieBreak : String}
    (h : defined.build tieBreak = .ok s) : s.toSortRules = defined ∧ s.tieBreak = tieBreak := by
  unfold SortRules.build at h
  split at h
  · cases h
    exact ⟨rfl, rfl⟩
  · cases h

/-- The first unknown key of an order is the one that it is refused for. -/
theorem resolve_of_unknown (h : ∃ term ∈ sort, term.key ∉ s.keys) :
    ∃ before unknown after, sort = before ++ unknown :: after ∧
      (∀ term ∈ before, term.key ∈ s.keys) ∧ unknown.key ∉ s.keys ∧
      s.resolve sort = .error (.unknownKey unknown.key) := by
  have hfound : (sort.find? fun term => !s.keys.contains term.key).isSome := by
    rw [List.find?_isSome]
    simpa using h
  obtain ⟨unknown, hfind⟩ := Option.isSome_iff_exists.1 hfound
  obtain ⟨hunknown, before, after, hsort, hbefore⟩ := List.find?_eq_some_iff_append.1 hfind
  refine ⟨before, unknown, after, hsort, by simpa using hbefore, by simpa using hunknown, ?_⟩
  rw [resolve, hfind]

/-- In a schema that is built, an order over its keys is resolved to the first terms with the
tie-break, this order is resolved to itself, and all that is made of the request is made of its
keys. A request with an unknown key is refused by all of them for the first such key. -/
theorem resolve_completes {defined : SortRules Row} {tieBreak : String}
    (hbuild : defined.build tieBreak = .ok s) (sort : List SortTerm) :
    ((∀ term ∈ sort, term.key ∈ defined.keys) →
      ∃ resolved rules, s.resolve sort = .ok resolved ∧
        SortTerm.Completes tieBreak sort resolved ∧ s.resolve resolved = .ok resolved ∧
        rules.map (·.1) = resolved ∧ (∀ key ∈ rules, (key.1.key, key.2) ∈ defined.rules) ∧
        s.Serves sort rules) ∧
      ((∃ term ∈ sort, term.key ∉ defined.keys) →
        ∃ before unknown after, sort = before ++ unknown :: after ∧
          (∀ term ∈ before, term.key ∈ defined.keys) ∧ unknown.key ∉ defined.keys ∧
          s.Refuses sort (.unknownKey unknown.key)) := by
  obtain ⟨rfl, rfl⟩ := eq_of_build hbuild
  constructor
  · intro hknown
    have hsort := resolve_of_known hknown
    have hresolved := isResolved_of_resolve hsort
    obtain ⟨rules, hrules⟩ := exists_hasRules hresolved.known
    exact ⟨_, rules, hsort, completes_withTieBreak hknown, hresolved.resolve_eq, hrules.terms,
      fun key hkey => mem_rules_of_get? (hrules.get? key hkey), serves_of_resolve hsort hrules⟩
  · intro hunknown
    obtain ⟨before, unknown, after, hsort, hbefore, hkey, hresolve⟩ := resolve_of_unknown hunknown
    exact ⟨before, unknown, after, hsort, hbefore, hkey, refuses_of_resolve hresolve⟩

namespace Sample

/-- A request that names a key twice, in both directions, and not the tie-break. -/
def byNameTwice : List SortTerm :=
  [⟨"name", .desc⟩, ⟨"name", .asc⟩]

/-- A request with two keys that persons do not have. -/
def byAgeAndTown : List SortTerm :=
  [⟨"name", .asc⟩, ⟨"age", .asc⟩, ⟨"town", .desc⟩]

end Sample

open Sample in
/-- One request is resolved and served, another one refused for the first of its unknown keys. -/
theorem resolve_completes_people :
    people.toSortRules.build "id" = .ok people ∧
      (∀ term ∈ byNameTwice, term.key ∈ people.keys) ∧
      (∃ resolved rules, people.resolve byNameTwice = .ok resolved ∧
        SortTerm.Completes "id" byNameTwice resolved ∧
        people.resolve resolved = .ok resolved ∧ rules.map (·.1) = resolved ∧
        (∀ key ∈ rules, (key.1.key, key.2) ∈ people.rules) ∧ people.Serves byNameTwice rules) ∧
      (∃ term ∈ byAgeAndTown, term.key ∉ people.keys) ∧
      ∃ before unknown after, byAgeAndTown = before ++ unknown :: after ∧
        (∀ term ∈ before, term.key ∈ people.keys) ∧ unknown.key ∉ people.keys ∧
        people.Refuses byAgeAndTown (.unknownKey unknown.key) :=
  have hknown : ∀ term ∈ byNameTwice, term.key ∈ people.keys := by decide
  have hunknown : ∃ term ∈ byAgeAndTown, term.key ∉ people.keys := by decide
  have hbuild : people.toSortRules.build "id" = .ok people := rfl
  ⟨hbuild, hknown, (resolve_completes hbuild _).1 hknown, hunknown,
    (resolve_completes hbuild _).2 hunknown⟩

end SortSchema

end FilterSql
