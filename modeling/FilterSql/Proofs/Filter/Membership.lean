import FilterSql.Proofs.Filter.Negation

/-!
# Membership in a JSON array

A JSON array is asked for one value with `$eq` and for a list of values with `$in`. For one value
the strings of the array are put in lower case, as the value is; for a list they are not. So the two
tests agree on an array unless it has a string that is one of the values in lower case only
(`Filter.oneOf_agrees_iff`).
-/

namespace FilterSql

variable {db : Database} {row : Env}

/-- What a database finds in the JSON arrays that it stores: the elements of an array, and whether
an element equals a value. -/
structure Database.ReadsArrays (db : Database) (elements : Value → List Value)
    (equal : Value → Value → Prop) : Prop where
  folded : ∀ array s, db.arrayHolds array (.string s) true = true ↔
    ∃ t, Value.string t ∈ elements array ∧ db.lower t = s
  plain : ∀ array value, db.arrayHolds array value false = true ↔
    ∃ item ∈ elements array, equal item value
  overlap : ∀ array values, db.arrayOverlaps array values = true ↔
    ∃ item ∈ elements array, ∃ value ∈ values, equal item value
  /-- A string equals itself and nothing else. -/
  string : ∀ item s, equal item (.string s) ↔ item = .string s

/-- One of some values that is no string equals an element of an array. -/
def MeetsPlain (equal : Value → Value → Prop) (stored values : List Value) : Prop :=
  ∃ item ∈ stored, ∃ value ∈ values, (∀ s, value ≠ .string s) ∧ equal item value

/-- One of some strings is an element of an array. -/
def MeetsText (stored values : List Value) : Prop :=
  ∃ s, Value.string s ∈ values ∧ Value.string s ∈ stored

/-- One of some strings is an element of an array in lower case. -/
def MeetsFolded (db : Database) (stored values : List Value) : Prop :=
  ∃ s t, Value.string s ∈ values ∧ Value.string t ∈ stored ∧ db.lower t = s

/-! ## Tests on one column -/

namespace FilterColumn

variable {elements : Value → List Value} {equal : Value → Value → Prop} {c : FilterColumn}

/-- The search for an element holds if the array is there and has it. -/
theorem truth_arrayContains {value : Value} {foldCase : Bool} :
    (Condition.arrayContains c.expr value foldCase).truth db row = .holds ↔
      (c.expr.value db row).isNull = false ∧
        db.arrayHolds (c.expr.value db row) value foldCase = true := by
  show (if (c.expr.value db row).isNull then Truth.unknown
    else .ofBool (db.arrayHolds (c.expr.value db row) value foldCase)) = .holds ↔ _
  cases (c.expr.value db row).isNull <;> simp

/-- The overlap test holds if the array is there and has one of the values. -/
theorem truth_overlaps {values : List Value} :
    (Condition.overlaps c.expr values).truth db row = .holds ↔
      (c.expr.value db row).isNull = false ∧
        db.arrayOverlaps (c.expr.value db row) values = true := by
  show (if (c.expr.value db row).isNull then Truth.unknown
    else .ofBool (db.arrayOverlaps (c.expr.value db row) values)) = .holds ↔ _
  cases (c.expr.value db row).isNull <;> simp

/-- An array is asked for a string in lower case and for any other value as it is. -/
theorem truth_equals (hdb : db.ReadsArrays elements equal) (hkind : c.kind = .jsonArray)
    {value : Value} (hvalue : value.isNull = false) :
    (c.equals value).truth db row = .holds ↔
      (c.expr.value db row).isNull = false ∧
        ((∀ s, value ≠ .string s) ∧ (∃ item ∈ elements (c.expr.value db row), equal item value) ∨
          ∃ s, value = .string s ∧
            ∃ t, Value.string t ∈ elements (c.expr.value db row) ∧ db.lower t = s) := by
  have hequals : c.equals value = c.holds value := by
    unfold equals
    rw [hkind]
  rw [hequals]
  cases value with
  | null => cases hvalue
  | string s =>
      rw [holds, truth_arrayContains, hdb.folded]
      refine and_congr_right fun _ => ⟨fun hfound => .inr ⟨s, rfl, hfound⟩, ?_⟩
      rintro (⟨hplain, -⟩ | ⟨_, ⟨⟩, hfound⟩)
      · exact absurd rfl (hplain s)
      · exact hfound
  | _ => simp [holds, truth_arrayContains, hdb.plain]

/-- An array equals one of some values where it has one that is no string, or one of the strings in
lower case. -/
theorem exists_equals_iff (hdb : db.ReadsArrays elements equal) (hkind : c.kind = .jsonArray)
    {values : List Value} (hvalues : ∀ value ∈ values, value.isNull = false) :
    (∃ value ∈ values, (c.equals value).truth db row = .holds) ↔
      (c.expr.value db row).isNull = false ∧
        (MeetsPlain equal (elements (c.expr.value db row)) values ∨
          MeetsFolded db (elements (c.expr.value db row)) values) := by
  constructor
  · rintro ⟨value, hvalue, hholds⟩
    obtain ⟨hnull, hfinds⟩ := (truth_equals hdb hkind (hvalues value hvalue)).1 hholds
    refine ⟨hnull, hfinds.imp ?_ ?_⟩
    · rintro ⟨hplain, item, hitem, hequal⟩
      exact ⟨item, hitem, value, hvalue, hplain, hequal⟩
    · rintro ⟨s, rfl, t, ht, hlower⟩
      exact ⟨s, t, hvalue, ht, hlower⟩
  · rintro ⟨hnull, ⟨item, hitem, value, hvalue, hplain, hequal⟩ | ⟨s, t, hs, ht, hlower⟩⟩
    · exact ⟨value, hvalue, (truth_equals hdb hkind (hvalues value hvalue)).2
        ⟨hnull, .inl ⟨hplain, item, hitem, hequal⟩⟩⟩
    · exact ⟨_, hs, (truth_equals hdb hkind rfl).2 ⟨hnull, .inr ⟨s, rfl, t, ht, hlower⟩⟩⟩

/-- An array has one of some values where it has one that is no string, or one of the strings as it
is. -/
theorem isAmong_iff (hdb : db.ReadsArrays elements equal) (hkind : c.kind = .jsonArray)
    {values : List Value} :
    (c.isAmong values).truth db row = .holds ↔
      (c.expr.value db row).isNull = false ∧
        (MeetsPlain equal (elements (c.expr.value db row)) values ∨
          MeetsText (elements (c.expr.value db row)) values) := by
  have hamong : c.isAmong values = .overlaps c.expr values := by
    unfold isAmong
    rw [hkind]
  rw [hamong, truth_overlaps, hdb.overlap, and_congr_right_iff]
  refine fun _ => ⟨?_, ?_⟩
  · rintro ⟨item, hitem, value, hvalue, hequal⟩
    -- a string equals itself only, so it is stored as it is
    by_cases htext : ∃ s, value = .string s
    · obtain ⟨s, rfl⟩ := htext
      rw [hdb.string] at hequal
      exact .inr ⟨s, hvalue, hequal ▸ hitem⟩
    · exact .inl ⟨item, hitem, value, hvalue, not_exists.1 htext, hequal⟩
  · rintro (⟨item, hitem, value, hvalue, -, hequal⟩ | ⟨s, hvalue, hstored⟩)
    · exact ⟨item, hitem, value, hvalue, hequal⟩
    · exact ⟨.string s, hstored, .string s, hvalue, (hdb.string _ s).2 rfl⟩

end FilterColumn

namespace Filter

variable {limits : Limits} {now : Instant} {s : Scope} {above : Nat} {c : FilterColumn}

/-- A disjunction of equalities holds where one of them does. -/
theorem compileAny_equals (db : Database) (row : Env) (hcolumn : s.column = some c)
    {operands : List Operand} {p q : Predicate} (hp : p ≠ .always)
    (h : compileAny limits now s above p (operands.map (.compare .eq)) = .ok q) :
    ∃ values, Operand.toValues now c.kind operands = .ok values ∧
      (q.truth db row = .holds ↔
        p.truth db row = .holds ∨ ∃ value ∈ values, (c.equals value).truth db row = .holds) := by
  induction operands generalizing p with
  | nil =>
      cases h
      exact ⟨[], rfl, by simp⟩
  | cons operand rest ih =>
      obtain ⟨r, hr, hrest⟩ := compileAny_cons h
      obtain ⟨c', r', hc', hr', rfl⟩ := compileAt_compare hr
      obtain rfl : c = c' := Option.some.inj (hcolumn.symm.trans hc')
      obtain ⟨value, hvalue, rfl⟩ := map_eq_ok.1 hr'
      -- no equality is settled without a row
      have hgoes : p.or (.condition (c.equals value)) ≠ .always := by
        cases p <;> simp_all [Predicate.or]
      obtain ⟨hsettled, -⟩ | ⟨-, hrest⟩ := hrest
      · exact absurd hsettled hgoes
      obtain ⟨values, hvalues, hholds⟩ := ih hgoes hrest
      have hor : (p.or (.condition (c.equals value))).truth db row = .holds ↔
          p.truth db row = .holds ∨ (c.equals value).truth db row = .holds := by
        rw [Predicate.truth_or, Truth.or_eq_holds, Predicate.truth_condition]
      refine ⟨value :: values, ?_, ?_⟩
      · rw [Operand.toValues, hvalue, hvalues]
        rfl
      · rw [hholds, hor, List.exists_mem_cons_iff, or_assoc]

/-- Where a disjunction of equalities with some values compiles, so does the test for a list of
these values. -/
theorem compileAt_oneOf_of_any (hcolumn : s.column = some c) {operands : List Operand}
    {values : List Value} {q : Predicate} (hoperands : operands ≠ [])
    (hnull : ∀ operand ∈ operands, operand.isNull = false)
    (hlength : operands.length ≤ limits.maxValues)
    (hvalues : Operand.toValues now c.kind operands = .ok values)
    (h : compileAt limits now s .row above (.any (operands.map (.compare .eq))) = .ok q) :
    compileAt limits now s .row above (.oneOf operands) = .ok (.condition (c.isAmong values)) := by
  simp only [compileAt, bind_eq_ok] at h
  obtain ⟨_, hguard, -⟩ := h
  have hpresent : operands.filter (!·.isNull) = operands :=
    List.filter_eq_self.2 fun operand hoperand => by simp [hnull operand hoperand]
  have hnone : operands.any (·.isNull) = false :=
    List.any_eq_false.2 fun operand hoperand => by simp [hnull operand hoperand]
  have hsome : operands.isEmpty = false := by
    rw [← Bool.not_eq_true, List.isEmpty_iff]
    exact hoperands
  have hone : c.oneOf now limits.maxValues operands = .ok (.condition (c.isAmong values)) := by
    rw [FilterColumn.oneOf, if_neg (Nat.not_lt.2 hlength), hsome, hpresent, hvalues, hnone]
    rfl
  rw [compileAt]
  exact test_of_column hguard hcolumn "$in" hone

/-- On a JSON array, a list of values is found where one of the values is found, exactly if the
array is `NULL`, has one of the values that are no strings, or has one of the strings as it is when
it has one in lower case. So the two tests agree on arrays whose strings are in lower case. -/
theorem oneOf_agrees_iff (row : Env) {elements : Value → List Value}
    {equal : Value → Value → Prop} {operands : List Operand} {q : Predicate}
    (hdb : db.ReadsArrays elements equal)
    (hcolumn : s.column = some c) (hkind : c.kind = .jsonArray) (hoperands : operands ≠ [])
    (hnull : ∀ operand ∈ operands, operand.isNull = false)
    (hlength : operands.length ≤ limits.maxValues)
    (h : compileAt limits now s .row above (.any (operands.map (.compare .eq))) = .ok q) :
    ∃ values p, Operand.toValues now .jsonArray operands = .ok values ∧
      compileAt limits now s .row above (.oneOf operands) = .ok p ∧
      ((p.truth db row = .holds ↔ q.truth db row = .holds) ↔
        (c.expr.value db row).isNull = true ∨
          MeetsPlain equal (elements (c.expr.value db row)) values ∨
          (MeetsText (elements (c.expr.value db row)) values ↔
            MeetsFolded db (elements (c.expr.value db row)) values)) ∧
      ((∀ t, Value.string t ∈ elements (c.expr.value db row) → db.lower t = t) →
        (p.truth db row = .holds ↔ q.truth db row = .holds)) := by
  obtain ⟨_, hany, rfl⟩ := compileAt_any h
  have hnever : Predicate.never ≠ .always := nofun
  obtain ⟨values, hvalues, hq⟩ := compileAny_equals db row hcolumn hnever hany
  have hin := compileAt_oneOf_of_any hcolumn hoperands hnull hlength hvalues h
  rw [hkind] at hvalues
  have hpresent := Operand.isNull_toValues hvalues hnull
  have hlist : (Predicate.condition (c.isAmong values)).truth db row = .holds ↔ _ :=
    FilterColumn.isAmong_iff hdb hkind
  have hone : q.truth db row = .holds ↔ _ :=
    (hq.trans (or_iff_right nofun)).trans (FilterColumn.exists_equals_iff hdb hkind hpresent)
  have hagree : ((Predicate.condition (c.isAmong values)).truth db row = .holds ↔
      q.truth db row = .holds) ↔ (c.expr.value db row).isNull = true ∨
        MeetsPlain equal (elements (c.expr.value db row)) values ∨
        (MeetsText (elements (c.expr.value db row)) values ↔
          MeetsFolded db (elements (c.expr.value db row)) values) := by
    rw [hlist, hone]
    cases (c.expr.value db row).isNull with
    | true => simp
    | false =>
        by_cases hplain : MeetsPlain equal (elements (c.expr.value db row)) values <;>
          simp [hplain]
  refine ⟨values, _, hvalues, hin, hagree, fun hlower => hagree.2 (.inr (.inr ⟨?_, ?_⟩))⟩
  · rintro ⟨t, hvalue, hstored⟩
    exact ⟨t, t, hvalue, hstored, hlower t hstored⟩
  · rintro ⟨_, t, hvalue, hstored, rfl⟩
    rw [hlower t hstored] at hvalue
    exact ⟨t, hvalue, hstored⟩

namespace Sample

/-- The elements of an array. -/
def elements : Value → List Value
  | .array items => items
  | _ => []

/-- A database without tables that looks into arrays. -/
def shelf : Database :=
  { Database.plain fun _ => [] with
    arrayHolds := fun array value foldCase => (elements array).any fun item =>
      match foldCase, item, value with
      | true, .string t, .string s => Text.lower t == s
      | true, _, _ => false
      | false, item, value => item.same value
    arrayOverlaps := fun array values => (elements array).any fun item => values.any item.same }

/-- The database looks into its arrays. -/
theorem shelf_reads : shelf.ReadsArrays elements fun item value => item.same value = true where
  folded array s := by
    show (elements array).any _ = true ↔ _
    rw [List.any_eq_true]
    constructor
    · rintro ⟨item, hitem, hfound⟩
      cases item with
      | string t => exact ⟨t, hitem, beq_iff_eq.1 hfound⟩
      | _ => cases hfound
    · rintro ⟨t, ht, hlower⟩
      exact ⟨.string t, ht, beq_iff_eq.2 hlower⟩
  plain array value := by
    show (elements array).any _ = true ↔ _
    rw [List.any_eq_true]
  overlap array values := by
    show (elements array).any _ = true ↔ _
    simp only [List.any_eq_true]
  string item s := by
    cases item with
    | string t => simp [Value.same]
    | _ => exact ⟨nofun, nofun⟩

/-- The tags of an animal. -/
def tags : Expr := .column ⟨.own, ⟨"tags", .refl true⟩⟩

/-- At the tags of an animal. -/
def atTags : Scope := ⟨.none, some ⟨tags, .jsonArray, false⟩, ⟨["tags"]⟩⟩

/-- An animal with some tags. -/
def animal (stored : List Value) : Env :=
  Env.top.onRow "animals" fun _ => some (.array stored)

/-- Its tags have a name. -/
def wanted : List Operand := [.string "Rex"]

/-- The tags have the name in a list of one. -/
def listedTag : Predicate := .condition (.overlaps tags [.string "rex"])

/-- The tags have the name. -/
def foundTag : Predicate := .condition (.arrayContains tags (.string "rex") true)

end Sample

open Sample in
/-- On an animal that has the tag in lower case, both tests hold. -/
theorem oneOf_agrees_iff_animal :
    compileAt {} default atTags .row 0 (.any (wanted.map (.compare .eq))) = .ok foundTag ∧
      compileAt {} default atTags .row 0 (.oneOf wanted) = .ok listedTag ∧
      (listedTag.truth shelf (animal [.string "rex", .int 7]) = .holds ↔
        foundTag.truth shelf (animal [.string "rex", .int 7]) = .holds) := by
  have hany : compileAt {} default atTags .row 0 (.any (wanted.map (.compare .eq))) =
      .ok foundTag := rfl
  have hin : compileAt {} default atTags .row 0 (.oneOf wanted) = .ok listedTag := rfl
  obtain ⟨values, p, -, hp, -, hagree⟩ := oneOf_agrees_iff (animal [.string "rex", .int 7])
    shelf_reads rfl rfl (by decide) (by decide) (by decide) hany
  obtain rfl := Except.ok.inj (hin.symm.trans hp)
  refine ⟨hany, hin, hagree fun t ht => ?_⟩
  have ht : Value.string t ∈ [Value.string "rex", .int 7] := ht
  obtain rfl : t = "rex" := by simpa using ht
  rfl

open Sample in
/-- A name with a capital letter is found by itself and not in a list. -/
theorem oneOf_disagrees_capital :
    shelf.ReadsArrays elements (fun item value => item.same value = true) ∧
      compileAt {} default atTags .row 0 (.any (wanted.map (.compare .eq))) = .ok foundTag ∧
      compileAt {} default atTags .row 0 (.oneOf wanted) = .ok listedTag ∧
      foundTag.truth shelf (animal [.string "Rex"]) = .holds ∧
      listedTag.truth shelf (animal [.string "Rex"]) = .fails :=
  ⟨shelf_reads, rfl, rfl, rfl, rfl⟩

end Filter

end FilterSql
