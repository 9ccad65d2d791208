import FilterSql.Proofs.Filter.Context

/-!
# Members that a filter gains

A member whose name starts with no `$` is a condition on a field. Where an object of a filter is
read member by member, a further one changes the filter or makes it invalid, at any depth and beside
any other member. An object with a member `$` is not read so: only `$` and `value` are looked up in
it, and any other member is passed over without an error (`Filter.read_added`).
-/

namespace FilterSql

namespace Filter

variable {max depth : Nat} {path : FieldPath} {name : String} {before after : List (String × Json)}

/-! ## Members by name -/

/-- A member with another name than `$` does not make an object an operand. -/
theorem isMagic_added (hname : name ≠ "$") (value : Json) :
    isMagic (before ++ (name, value) :: after) = isMagic (before ++ after) := by
  simp [isMagic, hname]

/-- A member with another name is not looked up. -/
theorem member?_added {other : String} (h : name ≠ other) (value : Json) :
    Json.member? other (before ++ (name, value) :: after) =
      Json.member? other (before ++ after) := by
  simp [Json.member?, List.find?_append, h]

/-- A value that JSON has no form for does not depend on a member that it did not have. -/
theorem magicOperand_added (hname : name ≠ "$") (hnew : name ∉ (before ++ after).map (·.1))
    {operand : Operand} (h : magicOperand (before ++ after) = .ok operand) (value : Json) :
    magicOperand (before ++ (name, value) :: after) = .ok operand := by
  rw [magicOperand_eq_ok, member?_added hname]
  rcases magicOperand_eq_ok.1 h with hnow | ⟨htag, t, hdate, rfl⟩
  · exact .inl hnow
  · -- a date is read from a member `value`, so that one is not the new one
    have hvalue : name ≠ "value" := by
      rintro rfl
      cases hmember : Json.member? "value" (before ++ after) with
      | none => simp [hmember, date?] at hdate
      | some value => exact hnew (List.mem_map_of_mem (mem_of_find?_name hmember))
    exact .inr ⟨htag, t, (member?_added hvalue value).symm ▸ hdate, rfl⟩

/-! ## Conjunctions -/

/-- A conjunction of any number of filters but one is a list. -/
theorem conjunction_of_length_ne {filters : List Filter} (h : filters.length ≠ 1) :
    conjunction filters = .all filters := by
  match filters, h with
  | [], _ => rfl
  | [_], h => exact absurd rfl h
  | _ :: _ :: _, _ => rfl

/-- No filter is a conjunction of which it is a part. -/
theorem ne_all_of_mem {filter : Filter} {filters : List Filter} (h : filter ∈ filters) :
    filter ≠ .all filters := by
  rintro rfl
  have hsize := List.sizeOf_lt_of_mem h
  rw [Filter.all.sizeOf_spec] at hsize
  omega

/-- A conjunction with a further condition on a field is another filter. -/
theorem conjunction_insert_ne (first last : List Filter) (part : Filter) :
    conjunction (first ++ .field name part :: last) ≠ conjunction (first ++ last) := by
  have hlength : (first ++ .field name part :: last).length = (first ++ last).length + 1 := by
    simp [Nat.add_assoc]
  intro h
  by_cases hnone : first ++ last = []
  · obtain ⟨rfl, rfl⟩ := List.append_eq_nil_iff.1 hnone
    cases h
  have hold : (first ++ last).length ≠ 0 := mt List.eq_nil_of_length_eq_zero hnone
  rw [conjunction_of_length_ne (by omega : (first ++ .field name part :: last).length ≠ 1)] at h
  by_cases hone : (first ++ last).length = 1
  · obtain ⟨only, honly⟩ := List.length_eq_one_iff.1 hone
    have hmem : only ∈ first ++ .field name part :: last := by
      have hmem : only ∈ first ++ last := honly ▸ List.mem_singleton_self only
      simp only [List.mem_append, List.mem_cons] at hmem ⊢
      exact hmem.imp_right .inr
    rw [honly] at h
    exact ne_all_of_mem hmem h.symm
  · rw [conjunction_of_length_ne hone, Filter.all.injEq] at h
    rw [h] at hlength
    omega

/-! ## Reading with a further member -/

/-- An object that is no operand is read differently with a further condition, if at all. -/
theorem ofJson_added_ne (hfield : MemberKind.ofName name = .field) (hname : name ≠ "$")
    (hmagic : isMagic (before ++ after) = false) {filter : Filter}
    (h : ofJson max path depth (.object (before ++ after)) = .ok filter) (value : Json) :
    ofJson max path depth (.object (before ++ (name, value) :: after)) ≠ .ok filter := by
  intro hadded
  have hdepth := Nat.not_lt.2 (depth_le_of_ofJson h)
  simp only [ofJson, if_neg hdepth, isMagic_added hname, hmagic, if_neg Bool.false_ne_true,
    map_eq_ok] at h hadded
  obtain ⟨filters, hfilters, rfl⟩ := h
  obtain ⟨filters', hfilters', hsame⟩ := hadded
  rw [ofMembers_append] at hfilters
  rw [ofMembers_insert, ofMember_field hfield] at hfilters'
  simp only [bind_eq_ok] at hfilters hfilters'
  obtain ⟨first, hfirst, last, hlast, hall⟩ := hfilters
  obtain ⟨first', hfirst', filter, hfilter, last', hlast', hall'⟩ := hfilters'
  cases hfirst.symm.trans hfirst'
  cases hlast.symm.trans hlast'
  obtain ⟨part, -, rfl⟩ := map_eq_ok.1 hfilter
  cases hall
  cases hall'
  exact conjunction_insert_ne first last part hsame

/-- The object of a value that JSON has no form for is read as that value, if anything is read. -/
theorem Hole.exists_read_magic (hole : Hole) {value : Json} {part : Filter}
    (h : hole.read max value = .ok part) :
    ∃ (path : FieldPath) (make : Operand → Filter), ∀ members, isMagic members = true →
      hole.read max (.object members) = (located path (magicOperand members)).map make := by
  cases hole with
  | filter path depth =>
      have hdepth := Nat.not_lt.2 (depth_le_of_ofJson h)
      exact ⟨path, .compare .eq, fun members hmagic => by
        rw [Hole.read, ofJson, if_neg hdepth, if_pos hmagic]⟩
  | compare op operator path =>
      exact ⟨path, .compare op, fun members hmagic => by rw [Hole.read, operand, if_pos hmagic]⟩
  | oneOf operator path first last =>
      exact ⟨path, fun operand => .oneOf (first ++ operand :: last), fun members hmagic => by
        rw [Hole.read, operand, if_pos hmagic]⟩

/-- The part that an object is read as becomes another one with a further member, or none, unless
the object has a member `$`. -/
theorem Hole.read_insert_iff (hole : Hole) (hfield : MemberKind.ofName name = .field)
    (hname : name ≠ "$") (hnew : name ∉ (before ++ after).map (·.1)) {part : Filter}
    (h : hole.read max (.object (before ++ after)) = .ok part) (value : Json) :
    hole.read max (.object (before ++ (name, value) :: after)) ≠ .ok part ↔
      isMagic (before ++ after) = false := by
  cases hmagic : isMagic (before ++ after) with
  | false =>
      refine iff_of_true ?_ rfl
      cases hole with
      | filter path depth => exact ofJson_added_ne hfield hname hmagic h value
      | compare | oneOf =>
          rw [Hole.read, operand, hmagic] at h
          cases h
  | true =>
      refine iff_of_false (not_not_intro ?_) (by decide)
      obtain ⟨path, make, hread⟩ := hole.exists_read_magic h
      rw [hread _ hmagic, map_eq_ok] at h
      obtain ⟨operand, hoperand, hpart⟩ := h
      rw [hread _ ((isMagic_added hname value).trans hmagic), map_eq_ok]
      exact ⟨operand, located_eq_ok.2 (magicOperand_added hname hnew (located_eq_ok.1 hoperand)
        value), hpart⟩

/-- A member that an object of a filter gains is not passed over unless the object has a member
`$`. The name of the new member is that of a field, which the object does not have yet, and no
object around it has a member `$`, so it stands for a filter or for an operand. -/
theorem read_added {p : Json.Place String Json} (hplain : ∀ frame ∈ p, ∀ s ∈ frame.names, s ≠ "$")
    (hname : name.toList.head? ≠ some '$') (hnew : name ∉ (before ++ after).map (·.1))
    {filter : Filter} (h : read max (Json.fill p (.object (before ++ after))) = .ok filter)
    (value : Json) :
    read max (Json.fill p (.object (before ++ (name, value) :: after))) ≠ .ok filter ↔
      isMagic (before ++ after) = false := by
  have hdollar : name ≠ "$" := by
    rintro rfl
    exact hname rfl
  obtain ⟨context, hole, hall⟩ := readsPart_fill (.inr rfl) p hplain .root 1
    (.object (before ++ after)) filter trivial h
  have hread (members : List (String × Json)) : read max (Json.fill p (.object members)) =
      (hole.read max (.object members)).map (fill context) :=
    hall (.object members) trivial
  rw [hread, map_eq_ok] at h
  obtain ⟨part, hpart, rfl⟩ := h
  rw [← hole.read_insert_iff (MemberKind.ofName_eq_field.2 hname) hdollar hnew hpart value,
    not_iff_not, hread, map_eq_ok]
  constructor
  · rintro ⟨other, hother, hsame⟩
    rw [hother, fill_injective context hsame]
  · exact fun hsame => ⟨part, hsame, rfl⟩

namespace Sample

/-- The member `at` of a filter. -/
def atPlace : Json.Place String Json := [.member [] "at" []]

/-- The members of `{"$gt": 1, "$lt": 9}`. -/
def rangeMembers : List (String × Json) := [("$gt", .int 1), ("$lt", .int 9)]

/-- The members of `{"$": "$now"}`. -/
def nowMembers : List (String × Json) := [("$", .string "$now")]

/-- The place does not lead through an operand. -/
theorem atPlace_plain : ∀ frame ∈ atPlace, ∀ s ∈ frame.names, s ≠ "$" := by
  simp [atPlace, Json.Frame.names]

end Sample

open Sample in
/-- A further condition on the range changes the filter. -/
theorem read_added_range :
    ∃ filter, read defaultMaxDepth (Json.fill atPlace (.object rangeMembers)) = .ok filter ∧
      read defaultMaxDepth (Json.fill atPlace (.object (rangeMembers ++ [("tenant", .int 5)]))) ≠
        .ok filter := by
  have hread : read defaultMaxDepth (Json.fill atPlace (.object (rangeMembers ++ []))) =
      .ok (.field "at" (.all [.compare .gt (.int 1), .compare .lt (.int 9)])) := rfl
  refine ⟨_, hread, ?_⟩
  exact (read_added atPlace_plain (by decide) (by simp [rangeMembers]) hread (.int 5)).2 rfl

open Sample in
/-- A further member of `$now` is passed over. -/
theorem read_passes_over :
    (∀ frame ∈ atPlace, ∀ s ∈ frame.names, s ≠ "$") ∧ "tenant".toList.head? ≠ some '$' ∧
      "tenant" ∉ nowMembers.map (·.1) ∧
      read defaultMaxDepth (Json.fill atPlace (.object nowMembers)) =
        .ok (.field "at" (.compare .eq .now)) ∧
      read defaultMaxDepth (Json.fill atPlace (.object (nowMembers ++ [("tenant", .int 5)]))) =
        .ok (.field "at" (.compare .eq .now)) :=
  ⟨atPlace_plain, by decide, by simp [nowMembers], rfl, rfl⟩

end Filter

end FilterSql
