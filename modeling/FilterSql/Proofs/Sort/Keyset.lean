import FilterSql.Proofs.Sort.Resolution
import FilterSql.Proofs.Sql.Conditions
import FilterSql.Sort.Keyset

/-!
# Keyset conditions agree with the comparison in memory

`Keyset.truth_branches_iff` is the induction over the keys: one of the branches holds on a row
exactly where the row is on the side of the position, key by key (`Keyset.OnSide`). A branch behind
ties that are unknown does not hold, and none is left out that could. Where the position is that of
a row, this is what the comparison by all keys says (`Keyset.onSide_keyAt`);
`Keyset.beside_iff_comparator` puts the position of a row, its two conditions and the comparison
together.
-/

namespace FilterSql

variable {Row : Type} {db : Database} {decode : Env → Row} {rows : Env → Prop} {a b : Env}

/-! ## Keys that the database compares as they are compared in memory -/

/-- On some rows the term of a key in a direction orders as the values of the key do. -/
structure SortRule.Fits (db : Database) (decode : Env → Row) (rows : Env → Prop)
    (direction : Direction) (rule : SortRule Row) : Prop where
  /-- The expression has the value that the key has in memory. -/
  reads : ∀ a, rows a →
    (rule.value (decode a)).bound? = some ((rule.term direction).expr.value db a)
  notNull : rule.nullable = false → ∀ a, rows a → (rule.value (decode a)).isNull = false
  /-- The values are no floats, and not `now`. -/
  exact : ∀ a, rows a → (rule.value (decode a)).IsExact
  ordered : ∀ a b, rows a → rows b → (rule.value (decode a)).isNull = false →
    (rule.value (decode b)).isNull = false →
    db.compare ((rule.term direction).expr.value db a) ((rule.term direction).expr.value db b) =
      (rule.value (decode a)).order (rule.value (decode b))

/-- All keys of an order fit on some rows. -/
def SortSchema.Fits (s : SortSchema Row) (db : Database) (decode : Env → Row) (rows : Env → Prop)
    (sort : List SortTerm) : Prop :=
  ∀ term ∈ sort, ∀ rule, s.get? term.key = some rule → rule.Fits db decode rows term.direction

namespace Operand

/-- The value of an operand is `NULL` exactly if the operand is null. -/
theorem isNull_bound {o : Operand} {v : Value} (h : o.bound? = some v) : v.isNull = o.isNull := by
  cases o <;> cases h <;> rfl

/-- Null comes before everything else. -/
theorem order_null_left {o : Operand} (h : o.isNull = false) : Operand.null.order o = .lt := by
  cases o <;> first | rfl | cases h

/-- Everything else comes after null. -/
theorem order_null_right {o : Operand} (h : o.isNull = false) : o.order .null = .gt := by
  cases o <;> first | rfl | cases h

/-- Null is the only operand that is null. -/
theorem isNull_iff {o : Operand} : o.isNull = true ↔ o = .null := by
  cases o <;> simp [isNull]

end Operand

/-- The database orders the values of a key as they are ordered in memory, `NULL` included. -/
theorem SortRule.Fits.order_eq {direction : Direction} {rule : SortRule Row}
    (h : rule.Fits db decode rows direction) (ha : rows a) (hb : rows b) :
    db.order ((rule.term direction).expr.value db a) ((rule.term direction).expr.value db b) =
      (rule.value (decode a)).order (rule.value (decode b)) := by
  have hnulla := Operand.isNull_bound (h.reads a ha)
  have hnullb := Operand.isNull_bound (h.reads b hb)
  by_cases hva : (rule.value (decode a)).isNull = true
  · rw [Value.isNull_iff.1 (hnulla.trans hva), Operand.isNull_iff.1 hva]
    by_cases hvb : (rule.value (decode b)).isNull = true
    · rw [Value.isNull_iff.1 (hnullb.trans hvb), Operand.isNull_iff.1 hvb]
      rfl
    · rw [Bool.not_eq_true] at hvb
      rw [Database.order_null_left db (hnullb.trans hvb), Operand.order_null_left hvb]
  · rw [Bool.not_eq_true] at hva
    by_cases hvb : (rule.value (decode b)).isNull = true
    · rw [Value.isNull_iff.1 (hnullb.trans hvb), Operand.isNull_iff.1 hvb,
        Database.order_null_right db (hnulla.trans hva), Operand.order_null_right hva]
    · rw [Bool.not_eq_true] at hvb
      rw [Database.order_of_not_null db (hnulla.trans hva) (hnullb.trans hvb)]
      exact h.ordered a b ha hb hva hvb

/-- Each rule of an order that fits the rows fits them. -/
theorem SortSchema.Fits.each {s : SortSchema Row} {sort : List SortTerm}
    {rules : List (SortTerm × SortRule Row)} (hfits : s.Fits db decode rows sort)
    (hrules : s.HasRules sort rules) :
    ∀ key ∈ rules, key.2.Fits db decode rows key.1.direction := by
  intro key hkey
  refine hfits key.1 ?_ key.2 (hrules.get? key hkey)
  rw [← hrules.terms]
  exact List.mem_map_of_mem hkey

/-- A rule that fits some rows fits fewer of them. -/
theorem SortRule.Fits.mono {direction : Direction} {rule : SortRule Row} {fewer : Env → Prop}
    (h : rule.Fits db decode rows direction) (hsub : ∀ a, fewer a → rows a) :
    rule.Fits db decode fewer direction where
  reads a ha := h.reads a (hsub a ha)
  notNull hnullable a ha := h.notNull hnullable a (hsub a ha)
  exact a ha := h.exact a (hsub a ha)
  ordered a b ha hb := h.ordered a b (hsub a ha) (hsub b hb)

/-- The values that two rows have for the keys of an order are the same in the order. -/
def SortSchema.Ties (s : SortSchema Row) (sort : List SortTerm) (a b : Row) : Prop :=
  ∀ term ∈ sort, ∀ rule, s.get? term.key = some rule → (rule.value a).order (rule.value b) = .eq

/-- How a position compares with the rows on a side of it. -/
def Side.outcome : Side → Ordering
  | .after => .lt
  | .before => .gt

/-- The operator of a side accepts the rows on that side, also where the direction is down. -/
theorem Side.operator_accepts (side : Side) (direction : Direction) (o : Ordering) :
    (side.operator direction).accepts o = true ↔ direction.orient o.swap = side.outcome := by
  cases side <;> cases direction <;> cases o <;> decide

/-- A comparison by keys is settled by the first one or tied there. -/
theorem Side.then_eq_outcome (side : Side) (o p : Ordering) :
    o.then p = side.outcome ↔ o = side.outcome ∨ o = .eq ∧ p = side.outcome := by
  cases side
  · exact Ordering.then_eq_lt
  · exact Ordering.then_eq_gt

namespace Keyset

/-! ## One key -/

namespace Key

variable {key : Key}

/-- A row ties with the position where their values are equal, with `NULL` equal to itself. -/
theorem truth_tie :
    key.tie.truth db b = .holds ↔ db.order (key.expr.value db b) key.value = .eq := by
  unfold tie
  split
  next hnull =>
    rw [Condition.truth_null, Truth.ofBool_eq_holds, Value.isNull_iff.1 hnull, Database.order]
    cases (key.expr.value db b).isNull <;> simp
  next hnull =>
    rw [Bool.not_eq_true] at hnull
    rw [Condition.eq, Condition.truth_compare, Expr.value_param,
      db.test_holds_iff_accepts rfl hnull, CompareOp.accepts, beq_iff_eq]

/-- A condition for what lies above a key holds exactly on the rows above it. -/
theorem truth_beyond_gt :
    (∃ c ∈ key.beyond? .gt, c.truth db b = .holds) ↔
      db.order (key.expr.value db b) key.value = .gt := by
  by_cases hnull : key.value.isNull = true
  · have hbeyond : key.beyond? .gt = some (.notNull key.expr) := by simp [beyond?, hnull]
    rw [hbeyond, Value.isNull_iff.1 hnull, Database.order]
    simp only [Option.mem_some_iff, exists_eq_left', Condition.truth_notNull,
      Truth.ofBool_eq_holds]
    cases (key.expr.value db b).isNull <;> simp
  · rw [Bool.not_eq_true] at hnull
    have hbeyond : key.beyond? .gt = some (.compare key.expr .gt (.param key.value)) := by
      simp [beyond?, hnull]
    rw [hbeyond]
    simp only [Option.mem_some_iff, exists_eq_left']
    rw [Condition.truth_compare, Expr.value_param, db.test_holds_iff_accepts rfl hnull,
      CompareOp.accepts, beq_iff_eq]

/-- A condition for what lies below a key holds exactly on the rows below it. -/
theorem truth_beyond_lt (hrow : key.nullable = false → (key.expr.value db b).isNull = false) :
    (∃ c ∈ key.beyond? .lt, c.truth db b = .holds) ↔
      db.order (key.expr.value db b) key.value = .lt := by
  by_cases hnull : key.value.isNull = true
  · have hbeyond : key.beyond? .lt = none := by simp [beyond?, hnull]
    rw [hbeyond, Value.isNull_iff.1 hnull, Database.order]
    cases (key.expr.value db b).isNull <;> simp
  · rw [Bool.not_eq_true] at hnull
    have hbeyond : key.beyond? .lt = some
        (if key.nullable then
            (Condition.null key.expr).or (.compare key.expr .lt (.param key.value))
          else .compare key.expr .lt (.param key.value)) := by
      simp [beyond?, hnull]
    have htest : (Condition.compare key.expr .lt (.param key.value)).truth db b = .holds ↔
        (key.expr.value db b).isNull = false ∧
          db.order (key.expr.value db b) key.value = .lt := by
      rw [Condition.truth_compare, Expr.value_param, db.test_holds_iff hnull, CompareOp.accepts,
        beq_iff_eq]
    rw [hbeyond]
    simp only [Option.mem_some_iff, exists_eq_left']
    by_cases hread : (key.expr.value db b).isNull = true
    · have hnullable : key.nullable = true := by
        by_contra hnot
        rw [hrow (by simpa using hnot)] at hread
        cases hread
      rw [if_pos hnullable, Condition.truth_or, Truth.or_eq_holds, Condition.truth_null, hread,
        Value.isNull_iff.1 hread, Database.order_null_left db hnull]
      simp
    · rw [Bool.not_eq_true] at hread
      split
      · rw [Condition.truth_or, Truth.or_eq_holds, htest, Condition.truth_null, hread]
        simp
      · rw [htest, and_iff_right hread]

/-- A row is beyond the position in the order where `NULL` is the smallest value. Where nothing can
be below the position there is no condition. -/
theorem truth_beyond (hrow : key.nullable = false → (key.expr.value db b).isNull = false)
    (side : Side) (direction : Direction) :
    (∃ c ∈ key.beyond? (side.operator direction), c.truth db b = .holds) ↔
      (side.operator direction).accepts (db.order (key.expr.value db b) key.value) = true := by
  cases side <;> cases direction <;>
    simp only [Side.operator, CompareOp.accepts, beq_iff_eq, truth_beyond_gt, truth_beyond_lt hrow]

end Key

/-! ## All keys -/

/-- A key of an order with the value at a row. -/
def keyAt (db : Database) (a : Env) (key : SortTerm × SortRule Row) : Key :=
  let expr := (key.2.term key.1.direction).expr
  ⟨expr, key.2.nullable, key.1.direction, expr.value db a⟩

/-- Alternatives hold exactly if one of them does. -/
theorem truth_anyOf (conditions : List Condition) :
    (anyOf conditions).truth db b = .holds ↔ ∃ c ∈ conditions, c.truth db b = .holds := by
  cases conditions with
  | nil => simp [anyOf, Condition.impossible, Condition.truth, Condition.eval, Condition.evalAll]
  | cons c rest =>
      induction rest generalizing c with
      | nil => simp [anyOf]
      | cons d rest ih =>
          have hfold : anyOf (c :: d :: rest) = anyOf (c.or d :: rest) := rfl
          rw [hfold, ih]
          simp [Condition.truth_or, Truth.or_eq_holds, or_assoc]

/-- A condition behind ties holds exactly if both do. -/
theorem truth_behind (ties : Option Condition) (c : Condition) :
    (behind ties c).truth db b = .holds ↔
      (∀ tie ∈ ties, tie.truth db b = .holds) ∧ c.truth db b = .holds := by
  cases ties with
  | none => simp [behind]
  | some tie => simp [behind, Condition.truth_and, Truth.and_eq_holds]

/-- The conditions of positions only compare expressions of the statement, so no join is needed for
them. -/
theorem joinSteps_branches (side : Side) {ties : Option Condition}
    (hties : ∀ tie ∈ ties, tie.joinSteps db = []) (keys : List Key) :
    ∀ c ∈ branches side ties keys, c.joinSteps db = [] := by
  induction keys generalizing ties with
  | nil => simp [branches]
  | cons key rest ih =>
      have hbehind : ∀ c : Condition, c.joinSteps db = [] →
          (behind ties c).joinSteps db = [] := by
        intro c hc
        cases ties with
        | none => exact hc
        | some tie => simpa [behind, Condition.joinSteps_and, hc] using hties tie rfl
      have htie : key.tie.joinSteps db = [] := by
        unfold Key.tie
        split <;> rfl
      have hbeyond : ∀ c ∈ key.beyond? (side.operator key.direction), c.joinSteps db = [] := by
        intro c hc
        unfold Key.beyond? at hc
        split at hc
        · cases hc
        · cases hc; rfl
        · cases hc
          split
          · exact Condition.joinSteps_or _ _
          · rfl
        · cases hc; rfl
      have hothers := @ih (some (behind ties key.tie)) (by simpa using hbehind _ htie)
      rw [branches]
      split
      next step hstep =>
        exact List.forall_mem_cons.2 ⟨hbehind step (hbeyond step hstep), hothers⟩
      next => exact hothers

/-- Alternatives without joins have none. -/
theorem joinSteps_anyOf {conditions : List Condition}
    (h : ∀ c ∈ conditions, c.joinSteps db = []) : (anyOf conditions).joinSteps db = [] := by
  cases conditions with
  | nil => rfl
  | cons c rest =>
      induction rest generalizing c with
      | nil => exact h c (by simp)
      | cons d rest ih =>
          obtain ⟨hc, hd, hrest⟩ := by simpa [List.forall_mem_cons] using h
          refine ih (c.or d) (List.forall_mem_cons.2 ⟨?_, hrest⟩)
          rw [Condition.joinSteps_or, hc, hd]
          rfl

/-- A branch of an order is one of its first key, or one of the rest behind a tie in the first. -/
theorem exists_branches (side : Side) (ties : Option Condition) (key : Key) (rest : List Key)
    (P : Condition → Prop) :
    (∃ c ∈ branches side ties (key :: rest), P c) ↔
      (∃ c ∈ key.beyond? (side.operator key.direction), P (behind ties c)) ∨
        ∃ c ∈ branches side (some (behind ties key.tie)) rest, P c := by
  rw [branches]
  cases key.beyond? (side.operator key.direction) <;> simp

/-- A row is on a side of a position: beyond it in the first key, or level with it there and on the
side in the rest of the keys. -/
def OnSide (db : Database) (row : Env) (side : Side) : List Key → Prop
  | [] => False
  | key :: rest =>
    (side.operator key.direction).accepts (db.order (key.expr.value db row) key.value) = true ∨
      db.order (key.expr.value db row) key.value = .eq ∧ OnSide db row side rest

/-- One of the branches of a position holds on a row exactly where the row is on the side of the
position, provided that the ties do that the branches stand behind. -/
theorem truth_branches_iff (side : Side) {keys : List Key}
    (hrow : ∀ key ∈ keys, key.nullable = false → (key.expr.value db b).isNull = false)
    (ties : Option Condition) :
    (∃ c ∈ branches side ties keys, c.truth db b = .holds) ↔
      (∀ tie ∈ ties, tie.truth db b = .holds) ∧ OnSide db b side keys := by
  -- each key that is passed adds its tie to those of the branches behind it
  induction keys generalizing ties with
  | nil => simp [branches, OnSide]
  | cons key rest ih =>
      obtain ⟨hkey, hrest⟩ := List.forall_mem_cons.1 hrow
      rw [exists_branches, ih hrest, OnSide, ← Key.truth_beyond hkey, ← Key.truth_tie]
      simp only [truth_behind, Option.mem_some_iff, forall_eq']
      have hsplit : (∃ c ∈ key.beyond? (side.operator key.direction),
          (∀ tie ∈ ties, tie.truth db b = .holds) ∧ c.truth db b = .holds) ↔
          (∀ tie ∈ ties, tie.truth db b = .holds) ∧
            ∃ c ∈ key.beyond? (side.operator key.direction), c.truth db b = .holds := by
        constructor
        · rintro ⟨c, hc, hties, hholds⟩
          exact ⟨hties, c, hc, hholds⟩
        · rintro ⟨hties, c, hc, hholds⟩
          exact ⟨c, hc, hties, hholds⟩
      rw [hsplit, and_assoc, ← and_or_left]

/-- A row is on a side of the position of another row where the comparison by all keys comes out
there. -/
theorem onSide_keyAt (side : Side) {rules : List (SortTerm × SortRule Row)}
    (hfits : ∀ key ∈ rules, key.2.Fits db decode rows key.1.direction) (ha : rows a)
    (hb : rows b) :
    OnSide db b side (rules.map (keyAt db a)) ↔
      SortSchema.compareBy rules (decode a) (decode b) = side.outcome := by
  induction rules with
  | nil => cases side <;> simp [OnSide, SortSchema.compareBy, Side.outcome]
  | cons key rules ih =>
      obtain ⟨hkey, hrest⟩ := List.forall_mem_cons.1 hfits
      have horder : db.order ((keyAt db a key).expr.value db b) (keyAt db a key).value =
          ((key.2.value (decode a)).order (key.2.value (decode b))).swap := by
        rw [← Operand.order_swap]
        exact hkey.order_eq hb ha
      rw [List.map_cons, OnSide, ih hrest, horder, Side.operator_accepts, Ordering.swap_swap,
        Ordering.swap_eq_eq, SortSchema.compareBy_cons, Side.then_eq_outcome,
        Direction.orient_eq_eq]
      rfl

/-! ## From a row to its conditions -/

/-- The condition of the rows on a side of a row in an order. -/
def beside (s : SortSchema Row) (side : Side) (sort : List SortTerm) (row : Row) :
    Except KeysetError Condition := do
  let resolved ← (s.resolve sort).mapError .sort
  let cursor ← (Cursor.ofRow s row sort).mapError .sort
  let keyset ← (Keyset.of side resolved cursor).mapError .cursor
  keyset.toCondition s

variable {s : SortSchema Row} {sort resolved : List SortTerm}
  {rules : List (SortTerm × SortRule Row)}

/-- The cursor at a row has the values of the row for all keys. -/
theorem ofRow_eq (hsort : s.resolve sort = .ok resolved) (hrules : s.HasRules resolved rules)
    (row : Row) : Cursor.ofRow s row sort =
      .ok ⟨rules.map fun key => (key.1.key, key.2.value row)⟩ := by
  rw [Cursor.ofRow, SortSchema.values, SortSchema.rulesOf_of_resolve hsort hrules]
  rfl

/-- The values of a cursor are put beside the terms they belong to. -/
theorem of_eq (hrules : s.HasRules resolved rules) (side : Side) (row : Row) :
    Keyset.of side resolved ⟨rules.map fun key => (key.1.key, key.2.value row)⟩ =
      .ok ⟨rules.map fun key => (key.1, key.2.value row), side⟩ := by
  have hkeys : (rules.map fun key => (key.1.key, key.2.value row)).map (·.1) =
      resolved.map (·.key) := by
    rw [← hrules.terms, List.map_map, List.map_map]
    rfl
  have hzip : resolved.zip ((rules.map fun key => (key.1.key, key.2.value row)).map (·.2)) =
      rules.map fun key => (key.1, key.2.value row) := by
    rw [← hrules.terms, List.map_map, List.zip_map']
    rfl
  rw [Keyset.of, Cursor.valuesFor, if_pos hkeys, ← hzip]
  rfl

/-- The keys at a row are looked up with the values of the row. -/
theorem keys_eq (hget : ∀ key ∈ rules, s.get? key.1.key = some key.2)
    (hreads : ∀ key ∈ rules, (key.2.value (decode a)).bound? =
      some ((key.2.term key.1.direction).expr.value db a)) :
    keys s (rules.map fun key => (key.1, key.2.value (decode a))) =
      .ok (rules.map (keyAt db a)) := by
  induction rules with
  | nil => rfl
  | cons key rules ih =>
      obtain ⟨hkey, hrest⟩ := List.forall_mem_cons.1 hget
      obtain ⟨hread, hreads⟩ := List.forall_mem_cons.1 hreads
      simp [keys, hkey, hread, ih hrest hreads, keyAt, bind, Except.bind, pure, Except.pure]

/-- The condition for the rows on a side of a row is that of the branches. -/
theorem toCondition_eq (hrules : s.HasRules resolved rules)
    (hfits : s.Fits db decode rows resolved) (ha : rows a) (side : Side) :
    toCondition s ⟨rules.map fun key => (key.1, key.2.value (decode a)), side⟩ =
      .ok (anyOf (branches side none (rules.map (keyAt db a)))) := by
  have hkeys := @keys_eq _ db decode a s rules hrules.get? fun key hkey =>
    (hfits.each hrules key hkey).reads a ha
  rw [toCondition, hkeys]
  rfl

/-- The rows on a side of a row have a condition, which is that of the branches. -/
theorem beside_eq (hsort : s.resolve sort = .ok resolved) (hrules : s.HasRules resolved rules)
    (hfits : s.Fits db decode rows resolved) (ha : rows a) (side : Side) :
    beside s side sort (decode a) =
      .ok (anyOf (branches side none (rules.map (keyAt db a)))) := by
  rw [beside, hsort, ofRow_eq hsort hrules]
  simp only [Except.mapError, bind, Except.bind, of_eq hrules, toCondition_eq hrules hfits ha]

/-- The condition of a side holds on the rows on that side in the comparison in memory. -/
theorem truth_beside (hrules : s.HasRules resolved rules) (hfits : s.Fits db decode rows resolved)
    (ha : rows a) (hb : rows b) (side : Side) :
    (anyOf (branches side none (rules.map (keyAt db a)))).truth db b = .holds ↔
      SortSchema.compareBy rules (decode a) (decode b) = side.outcome := by
  have heach := hfits.each hrules
  have hrow : ∀ key ∈ rules.map (keyAt db a), key.nullable = false →
      (key.expr.value db b).isNull = false := by
    intro key hkey hnullable
    obtain ⟨rule, hrule, rfl⟩ := List.mem_map.1 hkey
    have hfit := heach rule hrule
    exact (Operand.isNull_bound (hfit.reads b hb)).trans (hfit.notNull hnullable b hb)
  rw [truth_anyOf, truth_branches_iff side hrow, onSide_keyAt side heach ha hb]
  simp

/-- Two rows tie exactly if the comparator finds them equal. -/
theorem ties_iff (hrules : s.HasRules resolved rules) (hfits : s.Fits db decode rows resolved)
    (ha : rows a) (hb : rows b) :
    s.Ties resolved (decode a) (decode b) ↔
      SortSchema.compareBy rules (decode a) (decode b) = .eq := by
  have heach := hfits.each hrules
  rw [SortSchema.compareBy_eq_iff (fun key hkey => (heach key hkey).exact a ha)
    (fun key hkey => (heach key hkey).exact b hb), SortSchema.Ties, ← hrules.terms]
  constructor
  · intro hties key hkey
    have hfit := heach key hkey
    rw [← Operand.order_eq_iff (hfit.exact a ha) (hfit.exact b hb)]
    exact hties key.1 (List.mem_map_of_mem hkey) key.2 (hrules.get? key hkey)
  · intro hsame term hterm rule hrule
    obtain ⟨key, hkey, rfl⟩ := List.mem_map.1 hterm
    obtain rfl := Option.some.inj ((hrules.get? key hkey).symm.trans hrule)
    have hfit := heach key hkey
    exact (Operand.order_eq_iff (hfit.exact a ha) (hfit.exact b hb)).2 (hsame key hkey)

/-- In an order that a schema accepts, the conditions of the rows after and before a row hold on the
rows that the comparison in memory puts there. Every row is on one of the sides or ties for all
keys, and on no more than one. -/
theorem beside_iff_comparator (hsort : s.resolve sort = .ok resolved)
    (hfits : s.Fits db decode rows resolved) (ha : rows a) (hb : rows b) :
    ∃ compare after before, s.comparator sort = .ok compare ∧
      beside s .after sort (decode a) = .ok after ∧
      beside s .before sort (decode a) = .ok before ∧
      (after.truth db b = .holds ↔ compare (decode a) (decode b) = .lt) ∧
      (before.truth db b = .holds ↔ compare (decode a) (decode b) = .gt) ∧
      (s.Ties resolved (decode a) (decode b) ↔
        after.truth db b ≠ .holds ∧ before.truth db b ≠ .holds) ∧
      ¬(after.truth db b = .holds ∧ before.truth db b = .holds) := by
  obtain ⟨rules, hrules⟩ :=
    SortSchema.exists_hasRules (SortSchema.isResolved_of_resolve hsort).known
  have hafter := truth_beside hrules hfits ha hb .after
  have hbefore := truth_beside hrules hfits ha hb .before
  refine ⟨SortSchema.compareBy rules, _, _, ?_, beside_eq hsort hrules hfits ha .after,
    beside_eq hsort hrules hfits ha .before, hafter, hbefore, ?_, ?_⟩
  · rw [SortSchema.comparator, SortSchema.rulesOf_of_resolve hsort hrules]
    rfl
  · rw [ties_iff hrules hfits ha hb, ne_eq, ne_eq, hafter, hbefore, Side.outcome, Side.outcome]
    cases SortSchema.compareBy rules (decode a) (decode b) <;> simp
  · rw [hafter, hbefore, Side.outcome, Side.outcome]
    rintro ⟨hlt, hgt⟩
    rw [hlt] at hgt
    cases hgt

end Keyset

namespace SortSchema.Sample

/-- A person: a number, and a name if there is one. -/
structure Person where
  id : Int64
  name : Option String

namespace Person

/-- The name of a person as an operand. -/
def nameOperand (p : Person) : Operand :=
  match p.name with
  | some name => .string name
  | none => .null

/-- A person in the table of all persons. -/
def tableRow (p : Person) : TableRow := fun column =>
  if column = "id" then some (.int p.id) else p.nameOperand.bound?

/-- The row that a person is read from. -/
def row (p : Person) : Env :=
  Env.top.onRow "people" p.tableRow

/-- The person that a row holds. -/
def ofRow (row : Env) : Person where
  id := match row.bare "id" with
    | .int n => n
    | _ => 0
  name := match row.bare "name" with
    | .string s => some s
    | _ => none

end Person

/-- Persons by name, or by number. -/
def people : SortSchema Person where
  rules :=
    [("id", (SortRule.ofExpr (.column ⟨.own, ⟨"id", .refl true⟩⟩) fun p => .int p.id).notNull),
      ("name", .ofExpr (.column ⟨.own, ⟨"name", .refl true⟩⟩) Person.nameOperand)]
  distinct := by decide
  tieBreak := "id"
  registered := by decide

/-- The rows of persons are ordered in the database as in memory. -/
theorem fits (tables : String → List TableRow) (sort : List SortTerm) :
    people.Fits (.plain tables) Person.ofRow (fun row => ∃ p : Person, row = p.row) sort := by
  intro term _ rule hrule
  rcases List.mem_pair.1 (mem_rules_of_get? hrule) with h | h
  · obtain ⟨-, rfl⟩ := Prod.mk.inj h
    refine ⟨?_, ?_, ?_, ?_⟩
    · rintro _ ⟨p, rfl⟩
      rfl
    · rintro - _ ⟨p, rfl⟩
      rfl
    · rintro _ ⟨p, rfl⟩
      trivial
    · rintro _ _ ⟨p, rfl⟩ ⟨q, rfl⟩ - -
      rfl
  · obtain ⟨-, rfl⟩ := Prod.mk.inj h
    refine ⟨?_, ?_, ?_, ?_⟩
    · rintro _ ⟨⟨id, _ | name⟩, rfl⟩ <;> rfl
    · intro h
      cases h
    · rintro _ ⟨⟨id, _ | name⟩, rfl⟩ <;> trivial
    · rintro _ _ ⟨⟨id, _ | name⟩, rfl⟩ ⟨⟨id', _ | name'⟩, rfl⟩ hp hq <;>
        first
        | rfl
        | exact absurd (show true = false from hp) (by decide)
        | exact absurd (show true = false from hq) (by decide)

/-- A person without a name. -/
def anonymous : Person := ⟨1, none⟩

/-- A person with a name. -/
def ada : Person := ⟨2, some "Ada"⟩

/-- The two of them. -/
def database : Database :=
  .plain fun table => if table = "people" then [anonymous.tableRow, ada.tableRow] else []

end SortSchema.Sample

open SortSchema.Sample in
/-- By falling names the person without a name comes after the other, and is found there. -/
theorem Keyset.beside_iff_comparator_people :
    people.resolve [⟨"name", .desc⟩] = .ok [⟨"name", .desc⟩, ⟨"id", .asc⟩] ∧
      people.Fits database Person.ofRow (fun row => ∃ p : Person, row = p.row)
        [⟨"name", .desc⟩, ⟨"id", .asc⟩] ∧
      ∃ compare after before, people.comparator [⟨"name", .desc⟩] = .ok compare ∧
        Keyset.beside people .after [⟨"name", .desc⟩] (Person.ofRow ada.row) = .ok after ∧
        Keyset.beside people .before [⟨"name", .desc⟩] (Person.ofRow ada.row) = .ok before ∧
        (after.truth database anonymous.row = .holds ↔
          compare (Person.ofRow ada.row) (Person.ofRow anonymous.row) = .lt) ∧
        (before.truth database anonymous.row = .holds ↔
          compare (Person.ofRow ada.row) (Person.ofRow anonymous.row) = .gt) ∧
        (people.Ties [⟨"name", .desc⟩, ⟨"id", .asc⟩] (Person.ofRow ada.row)
            (Person.ofRow anonymous.row) ↔
          after.truth database anonymous.row ≠ .holds ∧
            before.truth database anonymous.row ≠ .holds) ∧
        ¬(after.truth database anonymous.row = .holds ∧
          before.truth database anonymous.row = .holds) :=
  ⟨rfl, fits _ _, Keyset.beside_iff_comparator rfl (fits _ _) ⟨ada, rfl⟩ ⟨anonymous, rfl⟩⟩

end FilterSql
