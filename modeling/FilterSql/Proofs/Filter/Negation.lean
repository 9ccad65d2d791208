import FilterSql.Proofs.Filter.Steps
import FilterSql.Proofs.Filter.Meaning
import Mathlib.Logic.Basic

/-!
# A filter and its negation

In three-valued logic a filter and its negation tell the rows apart only where the filter is known.
`Filter.Certain` says for which filters and rows this is so: most tests have a case for `NULL`, but
the search for a text, a list of values without `null` and membership in a JSON array have none, so
there a nullable column must not be `NULL`. What is asked of related rows is always known.
`Filter.not_partitions` is the statement about compiled filters.
-/

namespace FilterSql

variable {db : Database} {row : Env}

/-! ## Known truth values -/

namespace Truth

variable {s t : Truth}

/-- A truth value of a test in two values is known. -/
theorem ofBool_known (b : Bool) : ofBool b ≠ unknown := by
  cases b <;> simp [ofBool]

/-- A negation is known exactly if what it negates is. -/
theorem not_known : s.not ≠ unknown ↔ s ≠ unknown := by
  cases s <;> simp [not]

/-- The conjunction of known truth values is known. -/
theorem and_known (hs : s ≠ unknown) (ht : t ≠ unknown) : s.and t ≠ unknown := by
  cases s <;> cases t <;> simp_all [and]

/-- The disjunction of known truth values is known. -/
theorem or_known (hs : s ≠ unknown) (ht : t ≠ unknown) : s.or t ≠ unknown := by
  cases s <;> cases t <;> simp_all [or]

/-- Exactly one of a truth value and its negation holds where it is known. -/
theorem xor_not_iff : Xor (s = holds) (s.not = holds) ↔ s ≠ unknown := by
  cases s <;> simp [Xor, not]

end Truth

/-- Two values that are not `NULL` compare with a known result. -/
theorem Database.test_known {op : CompareOp} {v w : Value} (hv : v.isNull = false)
    (hw : w.isNull = false) : db.test op v w ≠ .unknown := by
  rw [test_of_not_null db hv hw]
  exact Truth.ofBool_known _

/-- Membership is known where neither the value nor an element is `NULL`. -/
theorem Database.isIn_known {v : Value} {values : List Value} (hv : v.isNull = false)
    (hvalues : ∀ w ∈ values, w.isNull = false) : db.isIn v values ≠ .unknown := by
  induction values with
  | nil => simp [isIn]
  | cons w rest ih =>
      obtain ⟨hw, hrest⟩ := List.forall_mem_cons.1 hvalues
      exact Truth.or_known (test_known hv hw) (ih hrest)

/-- A pattern test is known where neither side is `NULL`. -/
theorem Database.isLike_known {v pattern : Value} (hv : v.isNull = false)
    (hpattern : pattern.isNull = false) : db.isLike v pattern ≠ .unknown := by
  simp only [isLike, hv, hpattern]
  exact Truth.ofBool_known _

namespace Predicate

variable {p : Predicate}

/-- What always holds is known. -/
theorem always_known : Predicate.always.truth db row ≠ .unknown :=
  Truth.ofBool_known true

/-- What never holds is known. -/
theorem never_known : Predicate.never.truth db row ≠ .unknown :=
  Truth.ofBool_known false

/-- The negation of a known predicate is known. -/
theorem negate_known (h : p.truth db row ≠ .unknown) : p.negate.truth db row ≠ .unknown := by
  rw [truth_negate]
  exact Truth.not_known.2 h

end Predicate

/-! ## Tests on one column -/

/-- The operand `null`, and no other one, is bound as `NULL`. -/
theorem Operand.isNull_toValue {now : Instant} {kind : ColumnKind} {operand : Operand}
    {value : Value} (h : operand.toValue now kind = .ok value) : value.isNull = operand.isNull := by
  cases operand <;> cases kind <;> grind [toValue, Value.isNull, Operand.isNull]

/-- Operands that are not null stand for values that are not `NULL`. -/
theorem Operand.isNull_toValues {now : Instant} {kind : ColumnKind} {operands : List Operand}
    {values : List Value} (h : toValues now kind operands = .ok values)
    (hoperands : ∀ operand ∈ operands, operand.isNull = false) :
    ∀ value ∈ values, value.isNull = false := by
  intro value hvalue
  obtain ⟨operand, hoperand, hbound⟩ := (toValues_spec h).2 value hvalue
  exact (isNull_toValue hbound).trans (hoperands operand hoperand)

namespace FilterColumn

/-- Where a column is not `NULL` its text is not `NULL` either. Some databases turn a stored JSON
`null` into `NULL` when they read it as a text. -/
def Legible (db : Database) (row : Env) (c : FilterColumn) : Prop :=
  c.kind = .jsonString → (c.expr.value db row).isNull = false →
    (db.jsonUnquote (c.expr.value db row)).isNull = false

/-- A nullable column is not `NULL`. -/
def Filled (db : Database) (row : Env) (c : FilterColumn) : Prop :=
  c.nullable = true → (c.expr.value db row).isNull = false

/-- A column that is declared never to be `NULL` is not `NULL`. -/
def KeepsNotNull (db : Database) (row : Env) (c : FilterColumn) : Prop :=
  c.nullable = false → (c.expr.value db row).isNull = false

variable {c : FilterColumn} {value : Value}

/-- A column that keeps what it is declared to be, and is filled if it is nullable, is not `NULL`.
-/
theorem Filled.notNull (hfilled : c.Filled db row) (hkeeps : c.KeepsNotNull db row) :
    (c.expr.value db row).isNull = false := by
  cases hnullable : c.nullable with
  | true => exact hfilled hnullable
  | false => exact hkeeps hnullable

/-- The lower-cased value is `NULL` where the value is. -/
theorem isNull_lowered {v : Value} : (db.lowered v).isNull = v.isNull := by
  unfold Database.lowered
  split <;> simp_all [Value.isNull]

/-- The lower-cased column is not `NULL` where the column is not. -/
theorem Legible.lowerText (hlegible : c.Legible db row)
    (hvalue : (c.expr.value db row).isNull = false) :
    (c.lowerText.value db row).isNull = false := by
  unfold FilterColumn.lowerText
  split
  next hkind => exact isNull_lowered.trans (hlegible hkind hvalue)
  next => exact isNull_lowered.trans hvalue

/-- What a value is compared with is not `NULL` where the column is not. -/
theorem Legible.target (hlegible : c.Legible db row)
    (hvalue : (c.expr.value db row).isNull = false) (operand : Value) :
    ((c.target operand).value db row).isNull = false := by
  unfold FilterColumn.target
  split
  · split
    · exact hlegible.lowerText hvalue
    · exact hvalue
  · exact hvalue

/-- A comparison with a column that is not `NULL` is known. -/
theorem compare_known {op : CompareOp} (hlegible : c.Legible db row)
    (hcolumn : (c.expr.value db row).isNull = false) (hvalue : value.isNull = false) :
    (Condition.compare (c.target value) op (.param value)).truth db row ≠ .unknown :=
  Database.test_known (hlegible.target hcolumn value) hvalue

/-- An array that may be `NULL` is known to hold `null`; other values need an array that is not
`NULL`. -/
theorem holds_known (hcolumn : value.isNull = false → (c.expr.value db row).isNull = false) :
    (c.holds value).truth db row ≠ .unknown := by
  have harray : ∀ element foldCase, (c.expr.value db row).isNull = false →
      (Condition.arrayContains c.expr element foldCase).truth db row ≠ .unknown := by
    intro element foldCase hpresent
    show (if (c.expr.value db row).isNull then Truth.unknown else _) ≠ _
    rw [hpresent]
    exact Truth.ofBool_known _
  unfold holds
  split
  next => exact harray _ _ (hcolumn rfl)
  next =>
    rw [Condition.truth_or, Condition.truth_null]
    by_cases hnull : (c.expr.value db row).isNull = true
    · rw [hnull]
      simp [Truth.ofBool]
    · exact Truth.or_known (harray _ _ (by simpa using hnull)) (Truth.ofBool_known _)
  next hvalue => exact harray _ _ (hcolumn (by cases value <;> simp_all [Value.isNull]))

/-- Where the column is `NULL` the test for nothing holds. -/
theorem isNothing_holds (hnull : (c.expr.value db row).isNull = true) :
    c.isNothing.truth db row = .holds := by
  unfold isNothing
  split
  · rw [Condition.truth_or, Condition.truth_null, hnull]
    exact Truth.or_holds _
  · rw [Condition.truth_null, hnull]
    rfl

/-- The test for nothing is known where the test for a JSON null is. -/
theorem isNothing_known (hjson : ∀ v, v.isNull = false → db.isJsonNull v ≠ .unknown) :
    c.isNothing.truth db row ≠ .unknown := by
  by_cases hnull : (c.expr.value db row).isNull = true
  · rw [isNothing_holds hnull]
    simp
  · unfold isNothing
    split
    · rw [Condition.truth_or, Condition.truth_null]
      exact Truth.or_known (hjson _ (Bool.eq_false_of_not_eq_true hnull)) (Truth.ofBool_known _)
    · rw [Condition.truth_null]
      exact Truth.ofBool_known _

/-- A column that is `NULL` equals `NULL`, and so does an array. -/
theorem equals_null_holds (hnull : (c.expr.value db row).isNull = true) :
    (c.equals .null).truth db row = .holds := by
  unfold equals
  split
  · show ((Condition.arrayContains c.expr .null false).or (.null c.expr)).truth db row = _
    rw [Condition.truth_or, Condition.truth_null, hnull]
    exact Truth.or_holds _
  · exact isNothing_holds hnull

/-- Equality is known, for an array where it is not `NULL` or is searched for `NULL`. -/
theorem equals_known (hjson : ∀ v, v.isNull = false → db.isJsonNull v ≠ .unknown)
    (hlegible : c.Legible db row) (hkeeps : c.KeepsNotNull db row)
    (harray : c.kind = .jsonArray → value.isNull = false → (c.expr.value db row).isNull = false) :
    (c.equals value).truth db row ≠ .unknown := by
  unfold equals
  split
  next hkind => exact holds_known (harray hkind)
  next =>
    split
    · exact isNothing_known hjson
    · next hvalue =>
      split
      · exact Truth.ofBool_known _
      · next hnullable =>
        exact compare_known hlegible (hkeeps (by simpa using hnullable)) (by simpa using hvalue)

/-- Whether a column lies above a value is known, since nullable columns are guarded. -/
theorem above_known (hlegible : c.Legible db row) (hkeeps : c.KeepsNotNull db row) :
    (c.above value).truth db row ≠ .unknown := by
  unfold above
  split
  · split
    · exact Truth.ofBool_known _
    · exact Truth.ofBool_known true
  next hvalue =>
    rw [Bool.not_eq_true] at hvalue
    show (Condition.truth db row (if c.nullable then _ else _)) ≠ _
    split
    · rw [Condition.truth_and, Condition.truth_notNull]
      -- the guard settles the test where the column is `NULL`
      by_cases hnull : (c.expr.value db row).isNull = true
      · rw [hnull]
        simp [Truth.ofBool]
      · exact Truth.and_known (Truth.ofBool_known _)
          (compare_known hlegible (by simpa using hnull) hvalue)
    next hnullable => exact compare_known hlegible (hkeeps (by simpa using hnullable)) hvalue

/-- Whether a column lies below a value is known, since nullable columns are guarded. -/
theorem below_known (hlegible : c.Legible db row) (hkeeps : c.KeepsNotNull db row) :
    (c.below value).truth db row ≠ .unknown := by
  unfold below
  split
  · exact Truth.ofBool_known false
  next hvalue =>
    rw [Bool.not_eq_true] at hvalue
    show (Condition.truth db row (if c.nullable then _ else _)) ≠ _
    split
    · rw [Condition.truth_or, Condition.truth_null]
      by_cases hnull : (c.expr.value db row).isNull = true
      · rw [hnull]
        simp [Truth.ofBool]
      · exact Truth.or_known (Truth.ofBool_known _)
          (compare_known hlegible (by simpa using hnull) hvalue)
    next hnullable => exact compare_known hlegible (hkeeps (by simpa using hnullable)) hvalue

/-- Membership is known where the column is not `NULL`. -/
theorem isAmong_known {values : List Value} (hlegible : c.Legible db row)
    (hcolumn : (c.expr.value db row).isNull = false)
    (hvalues : ∀ value ∈ values, value.isNull = false) :
    (c.isAmong values).truth db row ≠ .unknown := by
  unfold isAmong
  split
  next =>
    show (if (c.expr.value db row).isNull then Truth.unknown else _) ≠ _
    rw [hcolumn]
    exact Truth.ofBool_known _
  next value _ => exact compare_known hlegible hcolumn (hvalues value (by simp))
  next => exact Truth.ofBool_known false
  next first rest _ _ => exact Database.isIn_known (hlegible.target hcolumn first) hvalues

end FilterColumn

/-! ## Filters -/

/-- Whether an entry leads to related rows. -/
def Entry.Crosses : Entry → Prop
  | .related _ => True
  | _ => False

namespace Filter

mutual

/-- The tests of a filter that have no case for `NULL` stand on columns of the row that are not
`NULL`. What the filter asks of related rows does not matter. -/
def Certain (db : Database) (row : Env) (s : Scope) : Filter → Prop
  | .all filters => AllCertain db row s filters
  | .any filters => AllCertain db row s filters
  | .not filter => filter.Certain db row s
  | .field name filter =>
    ∀ target entry inner, s.follow name = .ok target → target.landing = .scope entry inner →
      (∀ passed ∈ entry :: target.passed, ¬passed.Crosses) → filter.Certain db row inner
  | .compare op operand =>
    ∀ c, s.column = some c → c.Legible db row ∧
      (c.kind = .jsonArray → op = .eq ∨ op = .neq → operand.isNull = false → c.Filled db row)
  | .oneOf operands =>
    ∀ c, s.column = some c → c.Legible db row ∧
      (operands = [] ∨ operands.any Operand.isNull = true ∨ c.Filled db row)
  | .contains _ => ∀ c, s.column = some c → c.Legible db row ∧ c.Filled db row
  | .elemMatch filter => filter.Certain db row s
  | .marker => True

/-- Every filter of a list is certain. -/
def AllCertain (db : Database) (row : Env) (s : Scope) : List Filter → Prop
  | [] => True
  | filter :: rest => filter.Certain db row s ∧ AllCertain db row s rest

end

end Filter

namespace FilterColumn

variable {c : FilterColumn} {now : Instant} {p : Predicate}

/-- Compiled comparisons are known, those for equality with an array where the array is filled. -/
theorem truth_compare_known {op : CompareOp} {operand : Operand}
    (hjson : ∀ v, v.isNull = false → db.isJsonNull v ≠ .unknown) (hkeeps : c.KeepsNotNull db row)
    (hlegible : c.Legible db row)
    (harray : c.kind = .jsonArray → op = .eq ∨ op = .neq → operand.isNull = false →
      c.Filled db row)
    (h : c.compare now op operand = .ok p) : p.truth db row ≠ .unknown := by
  simp only [FilterColumn.compare, map_eq_ok] at h
  obtain ⟨value, hvalue, rfl⟩ := h
  have hequals : op = .eq ∨ op = .neq → (c.equals value).truth db row ≠ .unknown := by
    intro hop
    refine equals_known hjson hlegible hkeeps fun hkind hnull => ?_
    exact (harray hkind hop ((Operand.isNull_toValue hvalue).symm.trans hnull)).notNull hkeeps
  cases op with
  | eq => exact hequals (.inl rfl)
  | neq => exact Predicate.negate_known (hequals (.inr rfl))
  | gt => exact above_known hlegible hkeeps
  | lte => exact Predicate.negate_known (above_known hlegible hkeeps)
  | lt => exact below_known hlegible hkeeps
  | gte => exact Predicate.negate_known (below_known hlegible hkeeps)

/-- Compiled membership is known for an empty list, a list with null, or a column that is filled. -/
theorem truth_oneOf_known {maxValues : Nat} {operands : List Operand}
    (hjson : ∀ v, v.isNull = false → db.isJsonNull v ≠ .unknown) (hkeeps : c.KeepsNotNull db row)
    (hlegible : c.Legible db row)
    (hguard : operands = [] ∨ operands.any Operand.isNull = true ∨ c.Filled db row)
    (h : c.oneOf now maxValues operands = .ok p) : p.truth db row ≠ .unknown := by
  unfold oneOf at h
  split at h
  · cases h
  split at h
  · cases h
    exact Truth.ofBool_known false
  next hempty =>
    simp only [map_eq_ok] at h
    obtain ⟨values, hvalues, rfl⟩ := h
    have hpresent : ∀ value ∈ values, value.isNull = false :=
      Operand.isNull_toValues hvalues fun operand hoperand => by
        simpa using (List.mem_filter.1 hoperand).2
    have hnull : (c.equals .null).truth db row ≠ .unknown :=
      equals_known hjson hlegible hkeeps fun _ h => by simp at h
    have hamong : c.Filled db row → (c.isAmong values).truth db row ≠ .unknown := fun hfilled =>
      isAmong_known hlegible (hfilled.notNull hkeeps) hpresent
    split
    next hany =>
      rcases hguard with rfl | hguard | hfilled
      · simp at hempty
      · simp [hguard] at hany
      · exact hamong hfilled
    next =>
      split
      · exact hnull
      · rw [Predicate.truth_condition, Condition.truth_or]
        -- where the column is `NULL`, the search in the list is unknown
        by_cases hcolumn : (c.expr.value db row).isNull = true
        · rw [equals_null_holds hcolumn, Truth.holds_or]
          simp
        · exact Truth.or_known hnull (isAmong_known hlegible (by simpa using hcolumn) hpresent)

/-- Compiled searches for a text are known where the column is filled. -/
theorem truth_contains_known {needle : String} (hkeeps : c.KeepsNotNull db row)
    (hlegible : c.Legible db row) (hfilled : c.Filled db row)
    (h : c.contains needle = .ok p) : p.truth db row ≠ .unknown := by
  unfold contains at h
  split at h
  · cases h
    rw [Predicate.truth_condition, Condition.truth_like]
    exact Database.isLike_known (hlegible.lowerText (hfilled.notNull hkeeps)) rfl
  · cases h

end FilterColumn

namespace Entry

variable {entry : Entry} {p : Predicate}

/-- A relation leads to other rows. -/
theorem crosses_related {base : Select} : (Entry.related base).Crosses :=
  trivial

/-- A predicate on related rows is known, and one on the row itself where it was known before. -/
theorem enclose_known (h : entry.Crosses ∨ p.truth db row ≠ .unknown) :
    (entry.enclose p).truth db row ≠ .unknown := by
  cases p with
  | never => cases entry <;> exact Truth.ofBool_known false
  | always =>
      cases entry with
      | row => exact Truth.ofBool_known true
      | related base => exact Truth.ofBool_known _
      | joined join always => cases always <;> exact Truth.ofBool_known true
  | condition c =>
      cases entry with
      | row => exact h.resolve_left not_false
      | related base => exact Truth.ofBool_known _
      | joined join always => exact h.resolve_left not_false

/-- A predicate behind some entries is known if one of them leads to other rows, or if it was known.
-/
theorem foldr_enclose_known {entries : List Entry}
    (h : (∃ entry ∈ entries, entry.Crosses) ∨ p.truth db row ≠ .unknown) :
    (entries.foldr Entry.enclose p).truth db row ≠ .unknown := by
  induction entries with
  | nil => simpa using h
  | cons entry rest ih =>
      refine enclose_known ?_
      rcases h with ⟨crossed, hmem, hcrosses⟩ | hp
      · rcases List.mem_cons.1 hmem with rfl | hmem
        · exact .inl hcrosses
        · exact .inr (ih (.inl ⟨crossed, hmem, hcrosses⟩))
      · exact .inr (ih (.inr hp))

end Entry

/-! ## Places -/

/-- The columns that a place leads to in the same row and that are declared never to be `NULL` are
not `NULL`. -/
structure Scope.KeepsNotNull (db : Database) (row : Env) (s : Scope) : Prop where
  column : ∀ c, s.column = some c → c.KeepsNotNull db row
  fields : s.fields = .none ∨ ∃ schema, s.fields = .schema schema ∧ schema.KeepsNotNull db row

/-- A step leads to related rows, or to a place in the row. -/
theorem FieldDefinition.KeepsNotNull.step {field : FieldDefinition}
    (hrow : field.KeepsNotNull db row) (path : FieldPath) :
    ∃ entry s, field.step path = .into entry s ∧ (entry.Crosses ∨ s.KeepsNotNull db row) := by
  cases hrow with
  | @column c below _ value fields =>
      refine ⟨_, _, rfl, .inr ⟨?_, ?_⟩⟩
      · rintro _ ⟨⟩
        exact value
      · cases below with
        | none => exact .inl rfl
        | some schema => exact .inr ⟨schema, rfl, fields schema rfl⟩
  | nested fields => exact ⟨_, _, rfl, .inr ⟨by rintro _ ⟨⟩, .inr ⟨_, rfl, fields⟩⟩⟩
  | related => exact ⟨_, _, rfl, .inl trivial⟩

/-- What a name leads to is a place in the row, unless related rows are passed on the way. -/
def Target.InRow (db : Database) (row : Env) (target : Target) : Prop :=
  (∃ passed ∈ target.passed, passed.Crosses) ∨
    ∃ entry s, target.landing = .scope entry s ∧ (entry.Crosses ∨ s.KeepsNotNull db row)

/-- A field of the row is in the row as the end of a name. -/
theorem FieldDefinition.KeepsNotNull.land {field : FieldDefinition}
    (hrow : field.KeepsNotNull db row) (path : FieldPath) :
    (field.step path).land.InRow db row := by
  obtain ⟨entry, s, hstep, hs⟩ := hrow.step path
  rw [hstep]
  exact .inr ⟨entry, s, rfl, hs⟩

namespace Scope.KeepsNotNull

variable {s : Scope} {target : Target}

/-- The first step of a name leads to related rows, or to a place in the row. -/
theorem first {head : String} {step : Step} (hs : s.KeepsNotNull db row)
    (h : s.first head = some step) :
    ∃ entry inner, step = .into entry inner ∧ (entry.Crosses ∨ inner.KeepsNotNull db row) := by
  obtain ⟨fields, column, path⟩ := s
  rcases hs.fields with hnone | ⟨schema, hschema, ⟨each⟩⟩
  · obtain rfl : fields = .none := hnone
    cases h
  · obtain rfl : fields = .schema schema := hschema
    obtain ⟨field, hfield, rfl⟩ := Option.map_eq_some_iff.1 h
    exact (each head field hfield).step _

/-- The segments of a name lead to a place in the row, unless they pass related rows. -/
theorem resolve {head : String} {rest : List String} (hs : s.KeepsNotNull db row)
    (h : s.resolve head rest = .ok target) : target.InRow db row := by
  induction rest generalizing s head target with
  | nil =>
      obtain ⟨step, hstep, rfl⟩ := resolve_nil h
      obtain ⟨entry, inner, rfl, hinner⟩ := hs.first hstep
      exact .inr ⟨entry, inner, rfl, hinner⟩
  | cons next rest ih =>
      rcases resolve_cons h with ⟨field, hfield, rfl⟩ | ⟨-, hcustom | hinto⟩
      · rcases hs.fields with hnone | ⟨schema, hschema, ⟨each⟩⟩
        · rw [hnone] at hfield
          cases hfield
        · rw [hschema] at hfield
          exact (each _ field hfield).land _
      · obtain ⟨compile, path, hfirst, -⟩ := hcustom
        obtain ⟨entry, inner, hinto, -⟩ := hs.first hfirst
        cases hinto
      · obtain ⟨entry, inner, behind, hfirst, hbehind, rfl⟩ := hinto
        obtain ⟨entry', inner', hinto, hinner⟩ := hs.first hfirst
        cases hinto
        rcases hinner with hcrosses | hinner
        · exact .inl ⟨entry, List.mem_cons_self, hcrosses⟩
        · refine (ih hinner hbehind).imp ?_ id
          rintro ⟨passed, hmem, hcrosses⟩
          exact ⟨passed, List.mem_cons_of_mem _ hmem, hcrosses⟩

/-- A name leads to a place in the row, unless it passes related rows. -/
theorem follow {name : String} (hs : s.KeepsNotNull db row) (h : s.follow name = .ok target) :
    target.InRow db row := by
  unfold Scope.follow at h
  split at h
  · exact hs.resolve h
  · exact hs.resolve h

end Scope.KeepsNotNull

/-! ## Filters -/

namespace Filter

variable {limits : Limits} {now : Instant}

mutual

/-- A compiled filter is known on a row if it asks about related rows, or if its tests are certain
on the row itself. -/
theorem compileAt_known (hjson : ∀ v, v.isNull = false → db.isJsonNull v ≠ .unknown)
    (filter : Filter) {s : Scope} {entry : Entry} {above : Nat} {p : Predicate}
    (hrow : entry.Crosses ∨ s.KeepsNotNull db row ∧ filter.Certain db row s)
    (h : compileAt limits now s entry above filter = .ok p) : p.truth db row ≠ .unknown := by
  match filter with
  | .all filters =>
      obtain ⟨q, hq, rfl⟩ := compileAt_all h
      refine Entry.enclose_known (hrow.imp_right fun ⟨hs, hcertain⟩ => ?_)
      exact compileAll_known hjson filters hs hcertain Predicate.always_known hq
  | .any filters =>
      obtain ⟨q, hq, rfl⟩ := compileAt_any h
      refine Entry.enclose_known (hrow.imp_right fun ⟨hs, hcertain⟩ => ?_)
      exact compileAny_known hjson filters hs hcertain Predicate.never_known hq
  | .not filter =>
      rcases compileAt_not h with ⟨base, q, rfl, hq, rfl⟩ | ⟨q, hentry, hq, rfl⟩
      · exact Predicate.negate_known (compileAt_known hjson filter (.inl Entry.crosses_related) hq)
      · refine Entry.enclose_known (hrow.imp_right fun ⟨hs, hcertain⟩ => ?_)
        exact Predicate.negate_known (compileAt_known hjson filter (.inr ⟨hs, hcertain⟩) hq)
  | .field name filter =>
      obtain ⟨target, q, htarget, hq, rfl⟩ := compileAt_field h
      refine Entry.enclose_known (hrow.imp_right fun ⟨hs, hcertain⟩ => ?_)
      refine Entry.foldr_enclose_known (Classical.or_iff_not_imp_left.2 fun hpassed => ?_)
      obtain ⟨entry', inner, hlanding, hinner⟩ := (hs.follow htarget).resolve_left hpassed
      rw [hlanding, compileLanding] at hq
      refine compileAt_known hjson filter (Classical.or_iff_not_imp_left.2 fun hentry => ?_) hq
      refine ⟨hinner.resolve_left hentry, hcertain target entry' inner htarget hlanding ?_⟩
      exact List.forall_mem_cons.2
        ⟨hentry, fun passed hmem hcrosses => hpassed ⟨passed, hmem, hcrosses⟩⟩
  | .compare op operand =>
      obtain ⟨c, q, hc, hq, rfl⟩ := compileAt_compare h
      refine Entry.enclose_known (hrow.imp_right fun ⟨hs, hcertain⟩ => ?_)
      obtain ⟨hlegible, harray⟩ := hcertain c hc
      exact FilterColumn.truth_compare_known hjson (hs.column c hc) hlegible harray hq
  | .oneOf operands =>
      obtain ⟨c, q, hc, hq, rfl⟩ := compileAt_oneOf h
      refine Entry.enclose_known (hrow.imp_right fun ⟨hs, hcertain⟩ => ?_)
      obtain ⟨hlegible, hguard⟩ := hcertain c hc
      exact FilterColumn.truth_oneOf_known hjson (hs.column c hc) hlegible hguard hq
  | .contains needle =>
      obtain ⟨c, q, hc, hq, rfl⟩ := compileAt_contains h
      refine Entry.enclose_known (hrow.imp_right fun ⟨hs, hcertain⟩ => ?_)
      obtain ⟨hlegible, hfilled⟩ := hcertain c hc
      exact FilterColumn.truth_contains_known (hs.column c hc) hlegible hfilled hq
  | .elemMatch filter =>
      obtain ⟨-, q, hq, rfl⟩ := compileAt_elemMatch h
      refine Entry.enclose_known (hrow.imp_right fun ⟨hs, hcertain⟩ => ?_)
      exact compileAt_known hjson filter (.inr ⟨hs, hcertain⟩) hq
  | .marker => exact absurd h compileAt_marker
termination_by structural filter

/-- A conjunction of certain filters is known if it is known so far. -/
theorem compileAll_known (hjson : ∀ v, v.isNull = false → db.isJsonNull v ≠ .unknown)
    (filters : List Filter) {s : Scope} {above : Nat} {p q : Predicate}
    (hs : s.KeepsNotNull db row) (hcertain : AllCertain db row s filters)
    (hq : q.truth db row ≠ .unknown) (h : compileAll limits now s above q filters = .ok p) :
    p.truth db row ≠ .unknown := by
  match filters with
  | [] =>
      cases h
      exact hq
  | filter :: rest =>
      obtain ⟨r, hr, h⟩ := compileAll_cons h
      have hfilter := compileAt_known hjson filter (.inr ⟨hs, hcertain.1⟩) hr
      rcases h with ⟨-, rfl⟩ | ⟨-, h⟩
      · exact Predicate.never_known
      · refine compileAll_known hjson rest hs hcertain.2 ?_ h
        rw [Predicate.truth_and]
        exact Truth.and_known hq hfilter
termination_by structural filters

/-- A disjunction of certain filters is known if it is known so far. -/
theorem compileAny_known (hjson : ∀ v, v.isNull = false → db.isJsonNull v ≠ .unknown)
    (filters : List Filter) {s : Scope} {above : Nat} {p q : Predicate}
    (hs : s.KeepsNotNull db row) (hcertain : AllCertain db row s filters)
    (hq : q.truth db row ≠ .unknown) (h : compileAny limits now s above q filters = .ok p) :
    p.truth db row ≠ .unknown := by
  match filters with
  | [] =>
      cases h
      exact hq
  | filter :: rest =>
      obtain ⟨r, hr, h⟩ := compileAny_cons h
      have hfilter := compileAt_known hjson filter (.inr ⟨hs, hcertain.1⟩) hr
      rcases h with ⟨-, rfl⟩ | ⟨-, h⟩
      · exact Predicate.always_known
      · refine compileAny_known hjson rest hs hcertain.2 ?_ h
        rw [Predicate.truth_or]
        exact Truth.or_known hq hfilter
termination_by structural filters

end

/-- The negation of a filter is compiled to the negation of its predicate. -/
theorem compile_not {schema : Schema} {filter : Filter} {p q : Predicate}
    (hp : filter.compile limits now schema = .ok p)
    (hq : (Filter.not filter).compile limits now schema = .ok q) : q = p.negate := by
  rcases compileAt_not hq with ⟨base, r, hentry, hr, rfl⟩ | ⟨r, hentry, hr, rfl⟩
  · cases hentry
  · rw [compileAt_above filter hp hr]
    rfl

/-- On a schema of columns, groups of fields and relations, exactly one of a filter and its negation
holds on a row where the filter is known, and where it is certain it is known. -/
theorem not_partitions {schema : Schema} {filter : Filter} {p q : Predicate}
    (hjson : ∀ v, v.isNull = false → db.isJsonNull v ≠ .unknown)
    (hrow : schema.KeepsNotNull db row) (hp : filter.compile limits now schema = .ok p)
    (hq : (Filter.not filter).compile limits now schema = .ok q) :
    (Xor (p.truth db row = .holds) (q.truth db row = .holds) ↔ p.truth db row ≠ .unknown) ∧
      (filter.Certain db row (.ofSchema schema) →
        Xor (p.truth db row = .holds) (q.truth db row = .holds)) := by
  have hnegate : q.truth db row = (p.truth db row).not := by
    rw [compile_not hp hq]
    exact Predicate.eval_negate p
  have hscope : (Scope.ofSchema schema).KeepsNotNull db row :=
    ⟨by rintro _ ⟨⟩, .inr ⟨schema, rfl, hrow⟩⟩
  rw [hnegate, Truth.xor_not_iff]
  exact ⟨Iff.rfl, fun hcertain => compileAt_known hjson filter (.inr ⟨hscope, hcertain⟩) hp⟩

namespace Sample

/-- The name of a guest. -/
def guestName : Expr := .column ⟨.own, ⟨"name", .refl true⟩⟩

/-- Guests, who need not give a name. -/
def guests : Schema :=
  .ofFields [("name", .column ⟨guestName, .string, true⟩ none)]

/-- The place of the name. -/
def atName : Scope := ⟨.none, some ⟨guestName, .string, true⟩, ⟨["name"]⟩⟩

/-- A guest without a name. -/
def guest : Env := Env.top.onRow "guests" fun _ => none

/-- The name comes after `m`. -/
def late : Filter := .field "name" (.compare .gt (.string "m"))

/-- What the first filter is compiled to. -/
def latePredicate : Predicate :=
  .condition (.all [.notNull guestName, .compare (.lower guestName) .gt (.param (.string "m"))])

/-- The name is one of two. -/
def listed : Filter := .field "name" (.oneOf [.string "ann", .string "bob"])

/-- What the second filter is compiled to. -/
def listedPredicate : Predicate :=
  .condition (.oneOf (.lower guestName) [.string "ann", .string "bob"] false)

/-- The name is nullable, so nothing is promised about it. -/
theorem guests_keepNotNull : guests.KeepsNotNull (.plain fun _ => []) guest := by
  refine ⟨fun name field h => ?_⟩
  obtain ⟨-, rfl⟩ := Prod.mk.inj (List.mem_singleton.1 (mem_of_find?_name h))
  exact .column (fun hnullable => by cases hnullable) (by simp)

end Sample

open Sample in
/-- The filter for late names and its negation divide the guests, those without a name too. -/
theorem not_partitions_guests :
    guests.KeepsNotNull (.plain fun _ => []) guest ∧
      late.compile {} default guests = .ok latePredicate ∧
      (Filter.not late).compile {} default guests = .ok latePredicate.negate ∧
      late.Certain (.plain fun _ => []) guest (.ofSchema guests) ∧
      Xor (latePredicate.truth (.plain fun _ => []) guest = .holds)
        (latePredicate.negate.truth (.plain fun _ => []) guest = .holds) := by
  have hp : late.compile {} default guests = .ok latePredicate := rfl
  have hq : (Filter.not late).compile {} default guests = .ok latePredicate.negate := rfl
  have hcertain : late.Certain (.plain fun _ => []) guest (.ofSchema guests) := by
    intro target entry inner htarget hlanding _
    have hname : (Scope.ofSchema guests).follow "name" = .ok ⟨[], .scope .row atName, 1⟩ := rfl
    obtain rfl := Except.ok.inj (hname.symm.trans htarget)
    cases hlanding
    intro c hc
    cases hc
    exact ⟨by rintro ⟨⟩, by rintro ⟨⟩⟩
  exact ⟨guests_keepNotNull, hp, hq, hcertain,
    (not_partitions (fun _ _ => by simp [Database.plain]) guests_keepNotNull hp hq).2 hcertain⟩

open Sample in
/-- A guest without a name is neither listed nor not listed. -/
theorem not_partitions_fails_unnamed :
    guests.KeepsNotNull (.plain fun _ => []) guest ∧
      listed.compile {} default guests = .ok listedPredicate ∧
      (Filter.not listed).compile {} default guests = .ok listedPredicate.negate ∧
      ¬Xor (listedPredicate.truth (.plain fun _ => []) guest = .holds)
        (listedPredicate.negate.truth (.plain fun _ => []) guest = .holds) := by
  refine ⟨guests_keepNotNull, rfl, rfl, ?_⟩
  have hunknown : listedPredicate.truth (.plain fun _ => []) guest = .unknown := rfl
  have hnegated : listedPredicate.negate.truth (.plain fun _ => []) guest = .unknown := rfl
  rw [hunknown, hnegated]
  simp [Xor]

end Filter

end FilterSql
