import FilterSql.Proofs.Basic
import FilterSql.Proofs.Filter.Meaning

/-!
# Predicates that decide a property of rows

`Predicate.Decides` relates the predicate of a filter to a two-valued property of rows. It is kept
by the connectives and by subqueries (`Decides.related`). The tests on one column decide what they
are meant to: `FilterColumn.decides_compare`, `FilterColumn.decides_oneOf` and
`FilterColumn.decides_contains` have one case for each place where `NULL` can stand. A comparison is
one of some value that is `NULL` where the column is (`Compares.outcome`), and it does not matter
which.
-/

namespace FilterSql

variable {db : Database}

/-- A predicate needs no join, and on the rows in question it is known and says what `holds`
says. -/
structure Predicate.Decides (db : Database) (p : Predicate) (rows holds : Env → Prop) : Prop where
  joinless : p.joinSteps db = []
  outcome : ∀ row, rows row → (p.truth db row).Says (holds row)

namespace Predicate.Decides

variable {p q : Predicate} {rows inner P Q : Env → Prop}

/-- The property may be replaced by one that is the same on the rows in question. -/
theorem congr (h : p.Decides db rows P) (hPQ : ∀ row, rows row → (P row ↔ Q row)) :
    p.Decides db rows Q :=
  ⟨h.joinless, fun row hrow => (h.outcome row hrow).congr (hPQ row hrow)⟩

/-- What is decided on some rows is decided on fewer. -/
theorem mono (h : p.Decides db rows P) (hsub : ∀ row, inner row → rows row) :
    p.Decides db inner P :=
  ⟨h.joinless, fun row hrow => h.outcome row (hsub row hrow)⟩

/-- What always holds decides the property that all rows have. -/
theorem always : Predicate.always.Decides db rows fun _ => True :=
  ⟨rfl, fun _ _ => trivial⟩

/-- What never holds decides the property that no row has. -/
theorem never : Predicate.never.Decides db rows fun _ => False :=
  ⟨rfl, fun _ _ => not_false⟩

/-- A conjunction decides that both hold. -/
theorem and (hp : p.Decides db rows P) (hq : q.Decides db rows Q) :
    (p.and q).Decides db rows fun row => P row ∧ Q row where
  joinless := joinSteps_and_nil hp.joinless hq.joinless
  outcome row hrow := by
    rw [truth_and]
    exact Truth.says_and (hp.outcome row hrow) (hq.outcome row hrow)

/-- A disjunction decides that one of them holds. -/
theorem or (hp : p.Decides db rows P) (hq : q.Decides db rows Q) :
    (p.or q).Decides db rows fun row => P row ∨ Q row where
  joinless := joinSteps_or_nil hp.joinless hq.joinless
  outcome row hrow := by
    rw [truth_or]
    exact Truth.says_or (hp.outcome row hrow) (hq.outcome row hrow)

/-- A negation decides that it does not hold. -/
theorem negate (hp : p.Decides db rows P) : p.negate.Decides db rows fun row => ¬P row where
  joinless := by rw [joinSteps_negate, hp.joinless]
  outcome row hrow := by
    rw [truth_negate]
    exact Truth.says_not (hp.outcome row hrow)

/-- A subquery decides whether one of the related rows has the property. -/
theorem related {base : Select} (hbase : base.IsPlain) (hp : p.Decides db inner P)
    (hrows : ∀ row, rows row → ∀ other ∈ base.matched db row, inner other) :
    ((Entry.related base).enclose p).Decides db rows
      fun row => ∃ other ∈ base.matched db row, P other := by
  cases p with
  | never =>
      refine Decides.never.congr fun row hrow => iff_of_false not_false ?_
      rintro ⟨other, hother, hP⟩
      exact hp.outcome other (hrows row hrow other hother) hP
  | always =>
      -- the subquery is left as it is and only asks for a related row
      refine ⟨rfl, fun row hrow => Truth.says_ofBool.congr ?_⟩
      show (base.eval db row).isEmpty == false ↔ _
      rw [hbase.eval_isEmpty, beq_false, Bool.not_eq_true', List.isEmpty_eq_false_iff_exists_mem]
      refine exists_congr fun other => (and_iff_left_of_imp fun hother => ?_).symm
      exact hp.outcome other (hrows row hrow other hother)
  | condition c =>
      refine ⟨rfl, fun row hrow => Truth.says_ofBool.congr ?_⟩
      show ((base.restrict (.condition c)).eval db row).isEmpty == false ↔ _
      rw [(hbase.restrict _).eval_isEmpty, Select.matched_restrict hp.joinless, beq_false,
        Bool.not_eq_true', List.isEmpty_eq_false_iff_exists_mem]
      refine exists_congr fun other => ?_
      rw [List.mem_filter, decide_eq_true_iff]
      refine and_congr_right fun hother => ?_
      exact (Truth.says_iff.1 (hp.outcome other (hrows row hrow other hother))).2

/-- Subqueries inside each other decide whether one of the rows at the end has the property. -/
theorem through {bases : List Select} (hbases : ∀ base ∈ bases, base.IsPlain)
    (hp : p.Decides db inner P)
    (hrows : ∀ row, rows row → ∀ last ∈ db.through row bases, inner last) :
    (bases.foldr (fun base => (Entry.related base).enclose) p).Decides db rows
      fun row => ∃ last ∈ db.through row bases, P last := by
  induction bases generalizing rows with
  | nil =>
      refine (hp.mono fun row hrow => hrows row hrow row (by simp [Database.through])).congr ?_
      simp [Database.through]
  | cons base bases ih =>
      obtain ⟨hbase, hbases⟩ := List.forall_mem_cons.1 hbases
      -- the rows in question become those that lead to the right rows at the end
      have hrest := @ih (fun row => ∀ last ∈ db.through row bases, inner last) hbases
        fun row hrow => hrow
      refine (related hbase hrest fun row hrow other hother last hlast => ?_).congr ?_
      · exact hrows row hrow last (List.mem_flatMap.2 ⟨other, hother, hlast⟩)
      · intro row _
        simp only [Database.through, List.mem_flatMap]
        grind

end Predicate.Decides

/-! ## The operands of a test -/

/-- On a plain column an operand is bound as the value that it stands for. -/
theorem Operand.toValue_eq {now : Instant} {kind : ColumnKind} {operand : Operand} {value : Value}
    (hkind : kind.isJson = false) (h : operand.toValue now kind = .ok value) :
    value = operand.meaning now := by
  cases operand <;> cases kind <;> simp_all [toValue, meaning, ColumnKind.isJson]
  case int.boolean => grind

/-- Texts are bound where the column is a text, and only there. -/
theorem Operand.toValue_kind {now : Instant} {kind : ColumnKind} {operand : Operand} {value : Value}
    (hkind : kind.isJson = false) (h : operand.toValue now kind = .ok value)
    (hvalue : value.isNull = false) : kind = .string ↔ ∃ s, value = .string s := by
  cases operand <;> cases kind <;> grind [toValue, ColumnKind.isJson, Value.isNull]

/-- On a plain column operands are bound as the values that they stand for. -/
theorem Operand.toValues_eq {now : Instant} {kind : ColumnKind} {operands : List Operand}
    {values : List Value} (hkind : kind.isJson = false)
    (h : toValues now kind operands = .ok values) :
    values = operands.map (meaning now) ∧
      ∀ operand ∈ operands, operand.toValue now kind = .ok (operand.meaning now) := by
  induction operands generalizing values with
  | nil =>
      cases h
      simp
  | cons operand rest ih =>
      simp only [toValues, bind_eq_ok] at h
      obtain ⟨value, hvalue, others, hothers, h⟩ := h
      cases h
      obtain rfl := toValue_eq hkind hvalue
      obtain ⟨rfl, heach⟩ := ih hothers
      exact ⟨rfl, List.forall_mem_cons.2 ⟨hvalue, heach⟩⟩

/-- An operand stands for `NULL` exactly if it is null. -/
@[simp] theorem Operand.isNull_meaning (now : Instant) (operand : Operand) :
    (operand.meaning now).isNull = operand.isNull := by
  cases operand <;> rfl

namespace FilterColumn

variable {c : FilterColumn} {row : Env} {value : Value}

/-- A column is read as `NULL` exactly if it is. -/
@[simp] theorem isNull_reading : (c.reading db row).isNull = (c.expr.value db row).isNull := by
  unfold reading
  dsimp only
  split
  · split <;> simp_all [Value.isNull]
  · rfl

/-- What a test of a column with a value relies on: where the column cannot be `NULL` it is not,
and what is compared with the value is the column as filters read it. -/
structure Reads (db : Database) (c : FilterColumn) (row : Env) (value : Value) : Prop where
  plain : c.kind.isJson = false
  notNull : c.nullable = false → (c.reading db row).isNull = false
  target : value.isNull = false → (c.target value).value db row = c.reading db row

/-- A test of a column with a value compares `x`, which is `NULL` where the column is. -/
structure Compares (db : Database) (c : FilterColumn) (row : Env) (x value : Value) : Prop where
  plain : c.kind.isJson = false
  isNull : (c.expr.value db row).isNull = x.isNull
  notNull : c.nullable = false → x.isNull = false
  target : value.isNull = false → (c.target value).value db row = x

/-- A test of a column compares the column as filters read it. -/
theorem Reads.compares (h : c.Reads db row value) :
    c.Compares db row (c.reading db row) value :=
  ⟨h.plain, isNull_reading.symm, h.notNull, h.target⟩

/-- The value of an operand is compared with the column as filters read it. -/
theorem reads_toValue {now : Instant} {operand : Operand} (hlower : ∀ s, db.lower s = Text.lower s)
    (hkind : c.kind.isJson = false)
    (hnull : c.nullable = false → (c.expr.value db row).isNull = false)
    (h : operand.toValue now c.kind = .ok value) : c.Reads db row value where
  plain := hkind
  notNull := by simpa using hnull
  target hvalue := by
    have htext := Operand.toValue_kind hkind h hvalue
    by_cases hstring : c.kind = .string
    · obtain ⟨s, rfl⟩ := htext.1 hstring
      have htarget : c.target (.string s) = .lower c.expr := by
        simp [target, lowerText, hstring, ColumnKind.isText]
      rw [htarget, reading]
      show db.lowered (c.expr.value db row) = _
      simp only [Database.lowered, hlower, hstring, if_true]
    · have hexpr : c.target value = c.expr := by
        unfold target
        split
        · exact absurd (htext.2 ⟨_, rfl⟩) hstring
        · rfl
      simp [hexpr, reading, hstring]

/-- For a test with `NULL` it is enough that a column that cannot be `NULL` is not. -/
theorem reads_null (hkind : c.kind.isJson = false)
    (hnull : c.nullable = false → (c.expr.value db row).isNull = false) :
    c.Reads db row .null where
  plain := hkind
  notNull := by simpa using hnull
  target hvalue := by simp at hvalue

/-! ## Tests -/

section Compares

variable {x : Value}

/-- A value that is `NULL` is that of a nullable column. -/
theorem Compares.nullable (h : c.Compares db row x value) (hx : x.isNull = true) :
    c.nullable = true := by
  by_contra hnot
  rw [h.notNull (by simpa using hnot)] at hx
  cases hx

/-- A comparison with a column compares the value. -/
theorem Compares.truth_compare (h : c.Compares db row x value) (op : CompareOp)
    (hvalue : value.isNull = false) :
    (Condition.compare (c.target value) op (.param value)).truth db row = db.test op x value := by
  rw [Condition.truth_compare, h.target hvalue, Expr.value_param]

/-- Where the column is not `NULL`, a comparison with a value says how they are ordered. -/
theorem Compares.compare_outcome (h : c.Compares db row x value) (op : CompareOp)
    (hvalue : value.isNull = false) (hx : x.isNull = false) :
    ((Condition.compare (c.target value) op (.param value)).truth db row).Says
      (op.accepts (db.order x value) = true) := by
  rw [h.truth_compare op hvalue]
  exact db.test_outcome op hx hvalue

/-- The test for `NULL` asks whether the value is. -/
theorem Compares.truth_null (h : c.Compares db row x value) :
    (Condition.null c.expr).truth db row = .ofBool x.isNull := by
  rw [Condition.truth_null, h.isNull]

/-- The negated test for `NULL` asks whether the value is not. -/
theorem Compares.truth_notNull (h : c.Compares db row x value) :
    (Condition.notNull c.expr).truth db row = .ofBool !x.isNull := by
  rw [Condition.truth_notNull, h.isNull]

/-- Equality with a value decides that the two are equal in the order of values. -/
theorem Compares.equals_outcome (h : c.Compares db row x value) :
    ((c.equals value).truth db row).Says (db.order x value = .eq) := by
  have harray : c.kind ≠ .jsonArray := by
    intro hkind
    simpa [hkind, ColumnKind.isJson] using h.plain
  have hequals : c.equals value =
      if value.isNull then c.isNothing
      else if c.nullable then .nullSafeEq (c.target value) (.param value)
      else .eq (c.target value) (.param value) := by
    unfold equals
    split
    · contradiction
    · rfl
  rw [hequals]
  split
  next hvalue =>
    obtain rfl := Value.isNull_iff.1 hvalue
    have hnothing : c.isNothing = .null c.expr := by simp [isNothing, h.plain]
    rw [hnothing, h.truth_null, Database.order]
    exact Truth.says_ofBool.congr (by cases x.isNull <;> simp)
  next hvalue =>
    rw [Bool.not_eq_true] at hvalue
    split
    next =>
      refine Truth.says_ofBool.congr ?_
      show db.nullSafeEq ((c.target value).value db row) value = true ↔ _
      rw [h.target hvalue, Database.nullSafeEq_iff]
    next hnullable =>
      have hx := h.notNull (by simpa using hnullable)
      exact (h.compare_outcome .eq hvalue hx).congr (by rw [CompareOp.accepts, beq_iff_eq])

/-- The test for what lies above a value decides the order of the two. -/
theorem Compares.above_outcome (h : c.Compares db row x value) :
    ((c.above value).truth db row).Says (db.order x value = .gt) := by
  unfold above
  split
  next hvalue =>
    obtain rfl := Value.isNull_iff.1 hvalue
    split
    next =>
      show ((Condition.notNull c.expr).truth db row).Says _
      rw [h.truth_notNull, Database.order]
      exact Truth.says_ofBool.congr (by cases x.isNull <;> simp)
    next hnullable => exact db.order_null_right (h.notNull (by simpa using hnullable))
  next hvalue =>
    rw [Bool.not_eq_true] at hvalue
    show (Condition.truth db row (if c.nullable then _ else _)).Says _
    -- only a nullable column can be `NULL`, and then the guard settles the test
    by_cases hx : x.isNull = true
    · rw [if_pos (h.nullable hx), Condition.truth_and, h.truth_notNull, hx,
        Value.isNull_iff.1 hx, db.order_null_left hvalue]
      simp [Truth.ofBool, Truth.Says]
    · rw [Bool.not_eq_true] at hx
      have htest := (h.compare_outcome .gt hvalue hx).congr (by
        rw [CompareOp.accepts, beq_iff_eq])
      split
      · rw [Condition.truth_and, h.truth_notNull, hx]
        simpa [Truth.ofBool] using htest
      · exact htest

/-- The test for what lies below a value decides the order of the two. -/
theorem Compares.below_outcome (h : c.Compares db row x value) :
    ((c.below value).truth db row).Says (db.order x value = .lt) := by
  unfold below
  split
  next hvalue =>
    obtain rfl := Value.isNull_iff.1 hvalue
    show ¬_
    rw [Database.order]
    cases x.isNull <;> simp
  next hvalue =>
    rw [Bool.not_eq_true] at hvalue
    show (Condition.truth db row (if c.nullable then _ else _)).Says _
    by_cases hx : x.isNull = true
    · rw [if_pos (h.nullable hx), Condition.truth_or, h.truth_null, hx,
        Value.isNull_iff.1 hx, db.order_null_left hvalue]
      simp [Truth.ofBool, Truth.Says]
    · rw [Bool.not_eq_true] at hx
      have htest := (h.compare_outcome .lt hvalue hx).congr (by
        rw [CompareOp.accepts, beq_iff_eq])
      split
      · rw [Condition.truth_or, h.truth_null, hx]
        simpa [Truth.ofBool] using htest
      · exact htest

/-- A comparison says what the operator makes of the order. -/
theorem Compares.outcome {now : Instant} {op : CompareOp} {operand : Operand} {p : Predicate}
    (h : c.Compares db row x value) (hvalue : operand.toValue now c.kind = .ok value)
    (hp : c.compare now op operand = .ok p) :
    (p.truth db row).Says (op.accepts (db.order x value) = true) := by
  have hequals : ((Predicate.condition (c.equals value)).truth db row).Says
      (db.order x value = .eq) := h.equals_outcome
  have hnegate : ∀ {q : Predicate} {P : Prop}, (q.truth db row).Says P →
      (q.negate.truth db row).Says ¬P := by
    intro q P hq
    rw [Predicate.truth_negate]
    exact Truth.says_not hq
  rw [compare, hvalue] at hp
  cases op with
  | eq =>
      cases hp
      exact hequals.congr (by simp [CompareOp.accepts])
  | neq =>
      cases hp
      exact (hnegate hequals).congr (by simp [CompareOp.accepts])
  | gt =>
      cases hp
      exact h.above_outcome.congr (by simp [CompareOp.accepts])
  | lte =>
      cases hp
      exact (hnegate h.above_outcome).congr (by simp [CompareOp.accepts])
  | lt =>
      cases hp
      exact h.below_outcome.congr (by simp [CompareOp.accepts])
  | gte =>
      cases hp
      exact (hnegate h.below_outcome).congr (by simp [CompareOp.accepts])

end Compares

/-- Equality with a value needs no join. -/
theorem joinSteps_equals : (c.equals value).joinSteps db = [] := by
  unfold equals isNothing holds
  split
  · split <;> simp [Condition.joinSteps_or, Condition.joinSteps, Condition.null]
  · split
    · split <;> simp [Condition.joinSteps_or, Condition.joinSteps, Condition.null]
    · split <;> simp [Condition.joinSteps, Condition.eq]

/-- The test for what lies above a value needs no join. -/
theorem joinSteps_above : (c.above value).joinSteps db = [] := by
  unfold above
  split
  · split <;> simp [Predicate.joinSteps, Condition.joinSteps, Condition.notNull]
  · show Condition.joinSteps db (if c.nullable then _ else _) = []
    split <;> simp [Condition.joinSteps_and, Condition.joinSteps, Condition.notNull]

/-- The test for what lies below a value needs no join. -/
theorem joinSteps_below : (c.below value).joinSteps db = [] := by
  unfold below
  split
  · rfl
  · show Condition.joinSteps db (if c.nullable then _ else _) = []
    split <;> simp [Condition.joinSteps_or, Condition.joinSteps, Condition.null]

/-- A compiled comparison needs no join. -/
theorem joinSteps_compare {now : Instant} {op : CompareOp} {operand : Operand} {p : Predicate}
    (h : c.compare now op operand = .ok p) : p.joinSteps db = [] := by
  obtain ⟨value, -, rfl⟩ := map_eq_ok.1 h
  cases op with
  | eq => exact joinSteps_equals
  | neq => rw [Predicate.joinSteps_negate]; exact joinSteps_equals
  | gt => exact joinSteps_above
  | lte => rw [Predicate.joinSteps_negate]; exact joinSteps_above
  | lt => exact joinSteps_below
  | gte => rw [Predicate.joinSteps_negate]; exact joinSteps_below

/-- A test for membership needs no join. -/
theorem joinSteps_isAmong {values : List Value} : (c.isAmong values).joinSteps db = [] := by
  unfold isAmong
  split <;> simp [Condition.joinSteps, Condition.eq]

/-- The column is among some values that are not `NULL` where it equals one of them. -/
theorem isAmong_outcome {values : List Value} (hkind : c.kind.isJson = false)
    (hread : (c.reading db row).isNull = false)
    (hvalues : ∀ value ∈ values, value.isNull = false ∧ c.Reads db row value) :
    ((c.isAmong values).truth db row).Says
      (∃ value ∈ values, db.order (c.reading db row) value = .eq) := by
  have hisIn : (c.isAmong values).truth db row = db.isIn (c.reading db row) values := by
    unfold isAmong
    split
    next hkind' => simp [hkind', ColumnKind.isJson] at hkind
    next value _ =>
      obtain ⟨hvalue, hreads⟩ := hvalues value (by simp)
      rw [Condition.eq, hreads.compares.truth_compare .eq hvalue]
      simp [Database.isIn]
    next => rfl
    next first rest _ _ =>
      obtain ⟨hvalue, hreads⟩ := hvalues first (by simp)
      rw [← hreads.target hvalue]
      rfl
  rw [hisIn]
  -- the first value of a list does not matter any more, so the induction can drop it
  have htests : ∀ values : List Value, (∀ value ∈ values, value.isNull = false) →
      (db.isIn (c.reading db row) values).Says
        (∃ value ∈ values, db.order (c.reading db row) value = .eq) := by
    intro values hvalues
    induction values with
    | nil => simp [Database.isIn, Truth.Says]
    | cons value rest ih =>
        obtain ⟨hvalue, hrest⟩ := List.forall_mem_cons.1 hvalues
        refine (Truth.says_or (db.test_outcome .eq hread hvalue) (ih hrest)).congr ?_
        simp [CompareOp.accepts]
  exact htests values fun value hvalue => (hvalues value hvalue).1

/-! ## Operators -/

variable {rows : Env → Prop} {p : Predicate} {now : Instant}

/-- A comparison decides what the operator makes of the order of the column and the operand. -/
theorem decides_compare {op : CompareOp} {operand : Operand}
    (hlower : ∀ s, db.lower s = Text.lower s) (hkind : c.kind.isJson = false)
    (hrows : ∀ row, rows row → c.nullable = false → (c.expr.value db row).isNull = false)
    (h : c.compare now op operand = .ok p) :
    p.Decides db rows fun row =>
      op.accepts (db.order (c.reading db row) (operand.meaning now)) = true := by
  obtain ⟨value, hvalue, -⟩ := map_eq_ok.1 h
  obtain rfl := Operand.toValue_eq hkind hvalue
  refine ⟨joinSteps_compare h, fun row hrow => ?_⟩
  exact (reads_toValue hlower hkind (hrows row hrow) hvalue).compares.outcome hvalue h

/-- Among operands with a `null`, the equal ones are found beside it. -/
theorem exists_equal_iff {operands : List Operand} (hany : operands.any Operand.isNull = true)
    (value : Value) :
    (db.order value .null = .eq ∨ ∃ operand ∈ operands, operand.isNull = false ∧
        db.order value (operand.meaning now) = .eq) ↔
      ∃ operand ∈ operands, db.order value (operand.meaning now) = .eq := by
  have hmeaning : ∀ operand : Operand, operand.isNull = true → operand.meaning now = .null := by
    intro operand hnull
    exact Value.isNull_iff.1 (by simpa using hnull)
  constructor
  · rintro (hread | ⟨operand, hmem, -, hsame⟩)
    · obtain ⟨nothing, hmem, hnull⟩ := List.any_eq_true.1 hany
      exact ⟨nothing, hmem, by rwa [hmeaning nothing hnull]⟩
    · exact ⟨operand, hmem, hsame⟩
  · rintro ⟨operand, hmem, hsame⟩
    by_cases hnull : operand.isNull = true
    · exact Or.inl (by rwa [hmeaning operand hnull] at hsame)
    · exact Or.inr ⟨operand, hmem, by simpa using hnull, hsame⟩

/-- The operands other than `null` are searched for one that the column equals. -/
theorem isAmong_present_outcome {operands : List Operand}
    (hlower : ∀ s, db.lower s = Text.lower s) (hkind : c.kind.isJson = false)
    (hnull : c.nullable = false → (c.expr.value db row).isNull = false)
    (hread : (c.reading db row).isNull = false)
    (heach : ∀ operand ∈ operands.filter (!·.isNull),
      operand.toValue now c.kind = .ok (operand.meaning now)) :
    ((c.isAmong ((operands.filter (!·.isNull)).map (Operand.meaning now))).truth db row).Says
      (∃ operand ∈ operands, operand.isNull = false ∧
        db.order (c.reading db row) (operand.meaning now) = .eq) := by
  refine (isAmong_outcome hkind hread fun value hvalue => ?_).congr ?_
  · obtain ⟨operand, hmem, rfl⟩ := List.mem_map.1 hvalue
    have hpresent := (List.mem_filter.1 hmem).2
    exact ⟨by simpa using hpresent, reads_toValue hlower hkind hnull (heach operand hmem)⟩
  · simp [and_assoc]

/-- A list of operands is searched for one that the column equals. Without a `null` in the list the
column must not be `NULL`. -/
theorem decides_oneOf {maxValues : Nat} {operands : List Operand}
    (hlower : ∀ s, db.lower s = Text.lower s) (hkind : c.kind.isJson = false)
    (hrows : ∀ row, rows row → c.nullable = false → (c.expr.value db row).isNull = false)
    (hguard : operands.any Operand.isNull = true ∨ c.nullable = false)
    (h : c.oneOf now maxValues operands = .ok p) :
    p.Decides db rows fun row =>
      ∃ operand ∈ operands, db.order (c.reading db row) (operand.meaning now) = .eq := by
  unfold oneOf at h
  split at h
  · cases h
  split at h
  next hempty =>
    cases h
    obtain rfl := List.isEmpty_iff.1 hempty
    exact Predicate.Decides.never.congr fun row _ => by simp
  cases hvalues : Operand.toValues now c.kind (operands.filter (!·.isNull)) with
  | error fault => simp [hvalues, Except.map] at h
  | ok values =>
      obtain ⟨rfl, heach⟩ := Operand.toValues_eq hkind hvalues
      have hnull : ∀ row, rows row → ((c.equals .null).truth db row).Says
          (db.order (c.reading db row) .null = .eq) := fun row hrow =>
        (reads_null hkind (hrows row hrow)).compares.equals_outcome
      rw [hvalues] at h
      by_cases hany : operands.any Operand.isNull = true
      · simp only [Except.map, hany, Bool.not_true, Bool.false_eq_true, if_false] at h
        split at h
        next hempty =>
          cases h
          refine ⟨joinSteps_equals, fun row hrow => (hnull row hrow).congr ?_⟩
          rw [← exists_equal_iff hany, or_iff_left]
          rintro ⟨operand, hmem, hpresent, -⟩
          simp only [List.isEmpty_iff, List.map_eq_nil_iff, List.filter_eq_nil_iff] at hempty
          exact hempty operand hmem (by simp [hpresent])
        next =>
          cases h
          refine ⟨?_, fun row hrow => Truth.Says.congr ?_ (exists_equal_iff hany _)⟩
          · show Condition.joinSteps db _ = []
            rw [Condition.joinSteps_or, joinSteps_equals, joinSteps_isAmong]
            rfl
          · rw [Predicate.truth_condition, Condition.truth_or]
            -- where the column is `NULL`, the search in the list is unknown
            by_cases hread : (c.reading db row).isNull = true
            · refine Truth.says_or_of_left (hnull row hrow) ?_
              rw [Value.isNull_iff.1 hread]
              rfl
            · exact Truth.says_or (hnull row hrow) (isAmong_present_outcome hlower hkind
                (hrows row hrow) (by simpa using hread) heach)
      · have hnullable : c.nullable = false := hguard.resolve_left hany
        rw [Bool.not_eq_true] at hany
        simp only [Except.map, hany, Bool.not_false, if_true] at h
        cases h
        refine ⟨joinSteps_isAmong, fun row hrow => ?_⟩
        have hread : (c.reading db row).isNull = false := by
          simpa using hrows row hrow hnullable
        refine (isAmong_present_outcome hlower hkind (hrows row hrow) hread heach).congr ?_
        simp only [List.any_eq_false] at hany
        refine exists_congr fun operand => and_congr_right fun hmem => and_iff_right ?_
        simpa using hany operand hmem

/-- The search for a text decides whether the text of the column contains it. -/
theorem decides_contains {needle : String} (hlower : ∀ s, db.lower s = Text.lower s)
    (hkind : c.kind.isJson = false)
    (hrows : ∀ row, rows row → (c.expr.value db row).isNull = false)
    (h : c.contains needle = .ok p) :
    p.Decides db rows fun row => ∃ text,
      c.reading db row = .string text ∧ (Text.lower needle).toList <:+: text.toList := by
  unfold contains at h
  split at h
  next htext =>
    cases h
    refine ⟨rfl, fun row hrow => ?_⟩
    have hstring : c.kind = .string := by
      cases hk : c.kind <;> simp_all [ColumnKind.isText, ColumnKind.isJson]
    have hlowered : c.lowerText.value db row = c.reading db row := by
      have hexpr : c.lowerText = .lower c.expr := by simp [lowerText, hstring]
      rw [hexpr, reading]
      show db.lowered (c.expr.value db row) = _
      simp only [Database.lowered, hlower, hstring, if_true]
    have hread : c.reading db row = .string (Text.lower (db.textOf (c.expr.value db row))) := by
      simp [reading, hstring, hrows row hrow]
    rw [Predicate.truth_condition, Condition.truth_like, hlowered, hread, Database.isLike_string]
    refine Truth.says_ofBool.congr ?_
    rw [Like.matches_containsPattern]
    simp
  next => cases h

end FilterColumn

end FilterSql
