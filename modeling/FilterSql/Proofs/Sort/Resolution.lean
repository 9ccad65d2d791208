import FilterSql.Proofs.Basic
import FilterSql.Proofs.Sort.Order

/-!
# Resolved orders

What resolving an order gives: keys of the schema, each once, the tie-break among them
(`SortSchema.IsResolved`). Such an order is resolved to itself, and each of its terms has a rule.
-/

namespace FilterSql

namespace SortTerm

/-- The first terms are terms of the request. -/
theorem mem_firsts {term : SortTerm} {sort : List SortTerm} (h : term ∈ firsts sort) :
    term ∈ sort := by
  induction sort with
  | nil => exact h
  | cons first rest ih =>
      rcases List.mem_cons.1 h with rfl | h
      · exact List.mem_cons_self
      · exact List.mem_cons_of_mem _ (ih (List.mem_of_mem_filter h))

/-- The first terms have different keys. -/
theorem firsts_nodup (sort : List SortTerm) : ((firsts sort).map (·.key)).Nodup := by
  induction sort with
  | nil => exact List.nodup_nil
  | cons first rest ih =>
      rw [firsts, List.map_cons, List.nodup_cons]
      constructor
      · simp [List.mem_map, List.mem_filter]
      · exact ih.sublist (List.filter_sublist.map _)

/-- Where every key stands once, all terms are kept. -/
theorem firsts_of_nodup {sort : List SortTerm} (h : (sort.map (·.key)).Nodup) :
    firsts sort = sort := by
  induction sort with
  | nil => rfl
  | cons first rest ih =>
      rw [List.map_cons, List.nodup_cons] at h
      rw [firsts, ih h.2, List.filter_eq_self.2]
      intro term hterm
      refine decide_eq_true fun hkey => h.1 ?_
      exact hkey ▸ List.mem_map_of_mem hterm

end SortTerm

namespace SortSchema

variable {Row : Type} {s : SortSchema Row} {sort resolved : List SortTerm}

/-- An order names keys of the schema, each once, the tie-break among them. -/
structure IsResolved (s : SortSchema Row) (sort : List SortTerm) : Prop where
  known : ∀ term ∈ sort, term.key ∈ s.keys
  once : (sort.map (·.key)).Nodup
  tieBreak : ∃ term ∈ sort, term.key = s.tieBreak

/-- An order that is resolved names known keys, each once, and the tie-break. -/
theorem isResolved_of_resolve (h : s.resolve sort = .ok resolved) : s.IsResolved resolved := by
  unfold resolve at h
  split at h
  · cases h
  next hfind =>
    cases h
    have hknown : ∀ term ∈ SortTerm.firsts sort, term.key ∈ s.keys := by
      intro term hterm
      simpa using List.find?_eq_none.1 hfind term (SortTerm.mem_firsts hterm)
    unfold withTieBreak
    split
    next hany =>
      refine ⟨hknown, SortTerm.firsts_nodup sort, ?_⟩
      simpa using hany
    next hany =>
      -- the tie-break is put at the end, as no term names it
      refine ⟨fun term hterm => ?_, ?_, ⟨s.tieBreak, .asc⟩, by simp, rfl⟩
      · rcases List.mem_append.1 hterm with hterm | hterm
        · exact hknown term hterm
        · rw [List.mem_singleton.1 hterm]
          exact s.registered
      · rw [List.map_append, List.nodup_append]
        refine ⟨SortTerm.firsts_nodup sort, by simp, ?_⟩
        simp only [Bool.not_eq_true, List.any_eq_false, decide_eq_true_eq] at hany
        intro key hkey other hother
        obtain ⟨term, hterm, rfl⟩ := List.mem_map.1 hkey
        simpa [List.mem_singleton.1 hother] using hany term hterm

/-- An order over the keys of a schema is accepted. -/
theorem resolve_of_known (h : ∀ term ∈ sort, term.key ∈ s.keys) :
    s.resolve sort = .ok (s.withTieBreak (SortTerm.firsts sort)) := by
  have hfind : (sort.find? fun term => !s.keys.contains term.key) = none := by
    refine List.find?_eq_none.2 fun term hterm => ?_
    simpa using h term hterm
  rw [resolve, hfind]

/-- A resolved order is not changed by resolving it again. -/
theorem IsResolved.resolve_eq (h : s.IsResolved sort) : s.resolve sort = .ok sort := by
  have hany : sort.any (·.key = s.tieBreak) = true := by
    simpa using h.tieBreak
  rw [resolve_of_known h.known, SortTerm.firsts_of_nodup h.once, withTieBreak, if_pos hany]

/-- A key of the schema has a rule. -/
theorem get?_of_mem_keys {key : String} (h : key ∈ s.keys) : ∃ rule, s.get? key = some rule :=
  exists_find?_name h

/-- The rule of a key is one of the rules. -/
theorem mem_rules_of_get? {key : String} {rule : SortRule Row} (h : s.get? key = some rule) :
    (key, rule) ∈ s.rules :=
  mem_of_find?_name h

/-- The terms of an order with their rules in a schema. -/
structure HasRules (s : SortSchema Row) (sort : List SortTerm)
    (rules : List (SortTerm × SortRule Row)) : Prop where
  terms : rules.map (·.1) = sort
  get? : ∀ key ∈ rules, s.get? key.1.key = some key.2

/-- The terms of an order are looked up as their rules. -/
theorem HasRules.withRules {rules : List (SortTerm × SortRule Row)} (h : s.HasRules sort rules) :
    s.withRules sort = .ok rules := by
  obtain ⟨rfl, hget⟩ := h
  induction rules with
  | nil => rfl
  | cons key rules ih =>
      obtain ⟨hkey, hrest⟩ := List.forall_mem_cons.1 hget
      simp [SortSchema.withRules, hkey, ih hrest, bind, Except.bind, pure, Except.pure]

/-- If all keys are known there are rules for the terms. -/
theorem exists_hasRules (h : ∀ term ∈ sort, term.key ∈ s.keys) :
    ∃ rules, s.HasRules sort rules := by
  induction sort with
  | nil => exact ⟨[], rfl, by simp⟩
  | cons term rest ih =>
      obtain ⟨hterm, hrest⟩ := List.forall_mem_cons.1 h
      obtain ⟨rule, hrule⟩ := get?_of_mem_keys hterm
      obtain ⟨rules, hterms, hget⟩ := ih hrest
      exact ⟨(term, rule) :: rules, by rw [List.map_cons, hterms],
        List.forall_mem_cons.2 ⟨hrule, hget⟩⟩

/-- An order that is accepted stands for the rules of the order that it is resolved to. -/
theorem rulesOf_of_resolve {rules : List (SortTerm × SortRule Row)}
    (hsort : s.resolve sort = .ok resolved) (hrules : s.HasRules resolved rules) :
    s.rulesOf sort = .ok rules := by
  rw [rulesOf, hsort]
  exact hrules.withRules

end SortSchema

end FilterSql
