import FilterSql.Proofs.Filter.Decision
import FilterSql.Proofs.Filter.Dotted
import FilterSql.Proofs.Filter.Negation
import FilterSql.Proofs.Sort.Keyset

/-!
# A position as a filter and as a condition

`Keyset.toFilter` writes the rows on a side of a position as a filter, which is compiled like any
other, with a guard wherever a column can be `NULL`. `Keyset.toCondition` compares the expressions
that the rows are ordered by and leaves out what no row can meet. Both hold on the rows on the side
of the position (`Keyset.OnSide`), so they agree where each key is registered as a field that is
compared like it (`Keyset.toFilter_iff_toCondition`). One thing only keeps them apart: a filter
binds a truth value as a number where it is compared with numbers, and the condition binds it as it
is.

`Filter.HoldsWhere` is carried through the branches of the filter: what is decided without a row
cuts a list of filters short, and what is cut off makes no difference.
-/

namespace FilterSql

variable {limits : Limits} {now : Instant} {fields : Schema} {db : Database} {row : Env}

/-! ## Filters on a row -/

namespace Filter

/-- Wherever a filter is compiled on a row, its predicate holds where a proposition does. -/
def HoldsWhere (limits : Limits) (now : Instant) (fields : Schema) (db : Database) (row : Env)
    (filter : Filter) (P : Prop) : Prop :=
  ∀ above p, compileAt limits now (.ofSchema fields) .row above filter = .ok p →
    (p.truth db row = .holds ↔ P)

variable {filters : List Filter} {Ps : List Prop}

/-- The filters of a conjunction hold together, also where one that fails ends the list. -/
theorem compileAll_holds (h : List.Forall₂ (HoldsWhere limits now fields db row) filters Ps)
    {above : Nat} {p q : Predicate}
    (hp : compileAll limits now (.ofSchema fields) above q filters = .ok p) :
    p.truth db row = .holds ↔ q.truth db row = .holds ∧ ∀ P ∈ Ps, P := by
  induction h generalizing q with
  | nil =>
      cases hp
      simp
  | @cons filter P _ _ hfilter _ ih =>
      obtain ⟨r, hr, hrest⟩ := compileAll_cons hp
      have hand : (q.and r).truth db row = .holds ↔ q.truth db row = .holds ∧ P := by
        rw [Predicate.truth_and, Truth.and_eq_holds, hfilter above r hr]
      rw [List.forall_mem_cons, ← and_assoc, ← hand]
      rcases hrest with ⟨hnever, rfl⟩ | ⟨-, hrest⟩
      · rw [hnever]
        exact iff_of_false nofun fun h => nomatch h.1
      · exact ih hrest

/-- One of the filters of a disjunction holds, also where one that always does ends the list. -/
theorem compileAny_holds (h : List.Forall₂ (HoldsWhere limits now fields db row) filters Ps)
    {above : Nat} {p q : Predicate}
    (hp : compileAny limits now (.ofSchema fields) above q filters = .ok p) :
    p.truth db row = .holds ↔ q.truth db row = .holds ∨ ∃ P ∈ Ps, P := by
  induction h generalizing q with
  | nil =>
      cases hp
      simp
  | @cons filter P _ _ hfilter _ ih =>
      obtain ⟨r, hr, hrest⟩ := compileAny_cons hp
      have hor : (q.or r).truth db row = .holds ↔ q.truth db row = .holds ∨ P := by
        rw [Predicate.truth_or, Truth.or_eq_holds, hfilter above r hr]
      rw [List.exists_mem_cons_iff, ← or_assoc, ← hor]
      rcases hrest with ⟨halways, rfl⟩ | ⟨-, hrest⟩
      · rw [halways]
        exact iff_of_true rfl (.inl rfl)
      · exact ih hrest

/-- A conjunction of filters holds where all of their propositions do. -/
theorem HoldsWhere.conjunction
    (h : List.Forall₂ (HoldsWhere limits now fields db row) filters Ps) :
    HoldsWhere limits now fields db row (conjunction filters) (∀ P ∈ Ps, P) := by
  intro above p hp
  unfold Filter.conjunction at hp
  split at hp
  next filter =>
    cases h with
    | cons hfilter hrest =>
        cases hrest
        rw [List.forall_mem_singleton]
        exact hfilter above p hp
  next =>
    obtain ⟨q, hq, rfl⟩ := compileAt_all hp
    exact (compileAll_holds h hq).trans (and_iff_right rfl)

/-- A disjunction of filters holds where one of their propositions does. -/
theorem HoldsWhere.disjunction
    (h : List.Forall₂ (HoldsWhere limits now fields db row) filters Ps) :
    HoldsWhere limits now fields db row (disjunction filters) (∃ P ∈ Ps, P) := by
  intro above p hp
  unfold Filter.disjunction at hp
  split at hp
  next filter =>
    cases h with
    | cons hfilter hrest =>
        cases hrest
        simp only [List.mem_singleton, exists_eq_left]
        exact hfilter above p hp
  next =>
    obtain ⟨q, hq, rfl⟩ := compileAt_any hp
    exact (compileAny_holds h hq).trans (or_iff_right nofun)

/-- A field that is registered under a name as a column compares this column. -/
theorem compileAt_column {name : String} {c : FilterColumn} {below : Option Schema}
    {op : CompareOp} {operand : Operand} {above : Nat} {p : Predicate}
    (hget : fields.get? name = some (.column c below))
    (h : compileAt limits now (.ofSchema fields) .row above (.field name (.compare op operand)) =
      .ok p) : c.compare now op operand = .ok p := by
  obtain ⟨target, q, htarget, hlanding, rfl⟩ := compileAt_field h
  obtain rfl := Except.ok.inj ((Scope.follow_registered hget).symm.trans htarget)
  obtain ⟨c', p, hcolumn, hcompare, rfl⟩ := compileAt_compare hlanding
  cases hcolumn
  exact hcompare

end Filter

/-! ## Keys and the fields they are registered as -/

/-- In a comparison the truth values are 0 and 1, as in the databases that store them so. -/
def Database.CountsTruth (db : Database) : Prop :=
  ∀ v b, db.compare v (.bool b) = db.compare v (.int (if b then 1 else 0))

/-- A sort key compares what filters on a column compare: the column, where it holds numbers or
instants, and its text in lower case, where it holds texts. It can be `NULL` where the column can
be. -/
structure SortRule.Over {Row : Type} (rule : SortRule Row) (c : FilterColumn) : Prop where
  nullable : rule.nullable = c.nullable
  expr : (c.kind = .number ∨ c.kind = .datetime) ∧ (∀ d, (rule.term d).expr = c.expr) ∨
    c.kind = .string ∧ ∀ d, (rule.term d).expr = .lower c.expr

/-- Each key of a sort schema is registered as a column that is compared like it. -/
def SortSchema.Pairs {Row : Type} (s : SortSchema Row) (fields : Schema) : Prop :=
  ∀ key rule, s.get? key = some rule →
    ∃ c below, fields.get? key = some (.column c below) ∧ rule.Over c

/-- The strings of a cursor for texts are in lower case. -/
def Cursor.IsLowered (cursor : Cursor) (fields : Schema) : Prop :=
  ∀ key text, (key, .string text) ∈ cursor.fields → ∀ c below,
    fields.get? key = some (.column c below) → c.kind = .string → Text.lower text = text

/-- A truth value stands in a cursor for numbers only where the database compares it as a number. -/
def Cursor.CountsTruth (cursor : Cursor) (fields : Schema) (db : Database) : Prop :=
  ∀ key b, (key, .bool b) ∈ cursor.fields → ∀ c below,
    fields.get? key = some (.column c below) → c.kind = .number → db.CountsTruth

/-- The columns of a schema that are declared never to be `NULL` are not `NULL` on a row. -/
def Schema.FillsColumns (fields : Schema) (db : Database) (row : Env) : Prop :=
  ∀ key c below, fields.get? key = some (.column c below) → c.KeepsNotNull db row

namespace SortRule.Over

variable {Row : Type} {rule : SortRule Row} {c : FilterColumn}

/-- A sort key is not over a JSON column. -/
theorem plain (h : rule.Over c) : c.kind.isJson = false := by
  obtain ⟨hkind | hkind, -⟩ | ⟨hkind, -⟩ := h.expr <;> rw [hkind] <;> rfl

/-- The key is `NULL` where the column is. -/
theorem isNull (h : rule.Over c) (d : Direction) :
    (c.expr.value db row).isNull = ((rule.term d).expr.value db row).isNull := by
  obtain ⟨-, hexpr⟩ | ⟨-, hexpr⟩ := h.expr
  · rw [hexpr]
  · rw [hexpr]
    exact FilterColumn.isNull_lowered.symm

/-- A filter on the column compares the expression of the key. -/
theorem compares (h : rule.Over c) (hkeeps : c.KeepsNotNull db row) (d : Direction)
    {operand : Operand} {value : Value} (hvalue : operand.toValue now c.kind = .ok value) :
    c.Compares db row ((rule.term d).expr.value db row) value where
  plain := h.plain
  isNull := h.isNull d
  notNull hnullable := (h.isNull d).symm.trans (hkeeps hnullable)
  target hnull := by
    have htext := Operand.toValue_kind h.plain hvalue hnull
    obtain ⟨hkind, hexpr⟩ | ⟨hkind, hexpr⟩ := h.expr
    · have htarget : c.target value = c.expr := by
        unfold FilterColumn.target
        split
        · obtain hnumber | hdatetime := hkind <;> simp_all
        · rfl
      rw [htarget, hexpr]
    · obtain ⟨text, rfl⟩ := htext.1 hkind
      have htarget : c.target (.string text) = .lower c.expr := by
        simp [FilterColumn.target, FilterColumn.lowerText, hkind, ColumnKind.isText]
      rw [htarget, hexpr]

end SortRule.Over

/-- A filter accepts a truth value for a column that a sort key compares only if this holds
numbers. -/
theorem SortRule.Over.kind_of_bool {Row : Type} {rule : SortRule Row} {c : FilterColumn} {b : Bool}
    {value : Value} (h : rule.Over c) (hvalue : Operand.toValue now c.kind (.bool b) = .ok value) :
    c.kind = .number := by
  obtain ⟨hkind | hkind, -⟩ | ⟨hkind, -⟩ := h.expr
  · exact hkind
  all_goals
    rw [hkind] at hvalue
    cases hvalue

/-- What a filter binds for an operand is ordered like what is bound for it beside a sort key. -/
theorem Operand.order_toValue {kind : ColumnKind} {operand : Operand} {value bound : Value}
    (hkind : kind.isJson = false) (hvalue : operand.toValue now kind = .ok value)
    (hbound : operand.bound? = some bound)
    (hlower : ∀ text, operand = .string text → kind = .string → Text.lower text = text)
    (htruth : ∀ b, operand = .bool b → db.CountsTruth) (x : Value) :
    db.order x value = db.order x bound := by
  obtain rfl := Operand.toValue_eq hkind hvalue
  cases operand with
  | bool b =>
      cases hbound
      by_cases hx : x.isNull = true
      · rw [Value.isNull_iff.1 hx, meaning, db.order_null_left rfl, db.order_null_left rfl]
      · rw [Bool.not_eq_true] at hx
        rw [meaning, db.order_of_not_null hx rfl, db.order_of_not_null hx rfl, htruth b rfl x b]
  | string text =>
      cases hbound
      have hstring := (Operand.toValue_kind hkind hvalue rfl).2 ⟨_, rfl⟩
      rw [meaning, hlower text rfl hstring]
  | now => cases hbound
  | null | int _ | float _ | instant _ =>
      cases hbound
      rfl

/-! ## The two forms -/

namespace Keyset

/-- A key asks of a row what the filters on the field of a term ask with its operand. -/
structure Key.Asks (limits : Limits) (now : Instant) (fields : Schema) (db : Database) (row : Env)
    (term : SortTerm × Operand) (key : Key) : Prop where
  direction : key.direction = term.1.direction
  notNull : key.nullable = false → (key.expr.value db row).isNull = false
  holds : ∀ op, Filter.HoldsWhere limits now fields db row
    (.field term.1.key (.compare op term.2))
    (op.accepts (db.order (key.expr.value db row) key.value) = true)

/-- One of the filters of the branches holds on the rows on the side of the position, provided that
the ties do that the branches stand behind. -/
theorem filterBranches_holds (side : Side) {terms : List (SortTerm × Operand)} {keys : List Key}
    (h : List.Forall₂ (Key.Asks limits now fields db row) terms keys) {ties : List Filter}
    {Ts : List Prop} (hties : List.Forall₂ (Filter.HoldsWhere limits now fields db row) ties Ts) :
    ∃ Ps, List.Forall₂ (Filter.HoldsWhere limits now fields db row)
        (filterBranches side ties terms) Ps ∧
      ((∃ P ∈ Ps, P) ↔ (∀ T ∈ Ts, T) ∧ OnSide db row side keys) := by
  -- as in `branches`, each key that is passed adds its tie to those of the branches behind it
  induction h generalizing ties Ts with
  | nil => exact ⟨[], .nil, by simp [OnSide]⟩
  | @cons term key _ _ hkey _ ih =>
      have hstep := hkey.holds (side.operator term.1.direction)
      obtain ⟨Ps, hPs, hside⟩ := ih (List.rel_append hties (.cons (hkey.holds .eq) .nil))
      refine ⟨_ :: Ps, .cons (.conjunction (List.rel_append hties (.cons hstep .nil))) hPs, ?_⟩
      rw [List.exists_mem_cons_iff, hside]
      simp only [List.forall_mem_append, List.forall_mem_singleton, CompareOp.accepts, beq_iff_eq,
        OnSide, hkey.direction]
      rw [and_assoc, ← and_or_left]

/-- The filter of a position holds on the rows on the side of it. -/
theorem toFilter_holds {k : Keyset} {keys : List Key}
    (h : List.Forall₂ (Key.Asks limits now fields db row) k.terms keys) :
    Filter.HoldsWhere limits now fields db row k.toFilter (OnSide db row k.side keys) := by
  obtain ⟨Ps, hPs, hside⟩ := filterBranches_holds k.side h .nil
  intro above p hp
  rw [Filter.HoldsWhere.disjunction hPs above p hp, hside]
  simp

/-- A key that is never `NULL` is not `NULL` on the row. -/
theorem Key.Asks.each_notNull {terms : List (SortTerm × Operand)} {keys : List Key}
    (h : List.Forall₂ (Key.Asks limits now fields db row) terms keys) :
    ∀ key ∈ keys, key.nullable = false → (key.expr.value db row).isNull = false := by
  induction h with
  | nil => exact List.forall_mem_nil _
  | cons hkey _ ih => exact List.forall_mem_cons.2 ⟨hkey.notNull, ih⟩

/-- The condition of a position holds on the rows on the side of it. -/
theorem truth_toCondition {Row : Type} {s : SortSchema Row} {k : Keyset} {ks : List Key}
    (hkeys : keys s k.terms = .ok ks)
    (h : List.Forall₂ (Key.Asks limits now fields db row) k.terms ks) :
    ∃ c, k.toCondition s = .ok c ∧ (c.truth db row = .holds ↔ OnSide db row k.side ks) := by
  refine ⟨anyOf (branches k.side none ks), by rw [toCondition, hkeys]; rfl, ?_⟩
  rw [truth_anyOf, truth_branches_iff k.side (Key.Asks.each_notNull h)]
  simp

variable {Row : Type} {s : SortSchema Row} {sort resolved : List SortTerm} {cursor : Cursor}
  {side : Side} {k : Keyset} {p : Predicate}

/-- The values of a cursor stand beside the terms of their keys. -/
theorem mem_terms (hk : Keyset.of side resolved cursor = .ok k) {term : SortTerm}
    {operand : Operand} (h : (term, operand) ∈ k.terms) :
    term ∈ resolved ∧ (term.key, operand) ∈ cursor.fields := by
  obtain ⟨values, hvalues, hpure⟩ := bind_eq_ok.1 hk
  cases hpure
  unfold Cursor.valuesFor at hvalues
  split at hvalues
  next hkeys =>
    cases hvalues
    refine ⟨(List.of_mem_zip h).1, ?_⟩
    have hfields : (resolved.zip (cursor.fields.map (·.2))).map (fun t => (t.1.key, t.2)) =
        cursor.fields := by
      show List.map (Prod.map SortTerm.key id) _ = _
      rw [← List.zip_map_left, ← hkeys, List.zip_map']
      exact List.map_id' _
    rw [← hfields]
    exact List.mem_map.2 ⟨_, h, rfl⟩
  next => cases hvalues

/-- Terms that can be looked up have keys that ask what their filters ask. -/
theorem exists_asking {terms : List (SortTerm × Operand)}
    (h : ∀ t ∈ terms, ∃ rule value, s.get? t.1.key = some rule ∧ t.2.bound? = some value ∧
      Key.Asks limits now fields db row t
        ⟨(rule.term t.1.direction).expr, rule.nullable, t.1.direction, value⟩) :
    ∃ ks, keys s terms = .ok ks ∧
      List.Forall₂ (Key.Asks limits now fields db row) terms ks := by
  induction terms with
  | nil => exact ⟨[], rfl, .nil⟩
  | cons t rest ih =>
      obtain ⟨⟨rule, value, hrule, hvalue, hasks⟩, hrest⟩ := List.forall_mem_cons.1 h
      obtain ⟨ks, hks, hall⟩ := ih hrest
      refine ⟨_ :: ks, ?_, .cons hasks hall⟩
      simp only [keys, hrule, hvalue, hks]
      rfl

/-- A key asks what the field asks that it is registered as. -/
theorem asks_of_pairs (hpairs : s.Pairs fields) (hrow : fields.FillsColumns db row)
    {term : SortTerm} {operand : Operand} {rule : SortRule Row} {value : Value}
    (hrule : s.get? term.key = some rule) (hvalue : operand.bound? = some value)
    (hlower : ∀ text, operand = .string text → ∀ c below,
      fields.get? term.key = some (.column c below) → c.kind = .string → Text.lower text = text)
    (htruth : ∀ b, operand = .bool b → ∀ c below,
      fields.get? term.key = some (.column c below) → c.kind = .number → db.CountsTruth) :
    Key.Asks limits now fields db row (term, operand)
      ⟨(rule.term term.direction).expr, rule.nullable, term.direction, value⟩ := by
  obtain ⟨c, below, hget, hover⟩ := hpairs term.key rule hrule
  have hkeeps := hrow term.key c below hget
  refine ⟨rfl, fun hnullable => ?_, fun op above p hp => ?_⟩
  · exact (hover.isNull term.direction).symm.trans (hkeeps (hover.nullable ▸ hnullable))
  · have hcompare := Filter.compileAt_column hget hp
    obtain ⟨bound, hbound, -⟩ := map_eq_ok.1 hcompare
    have hsays := ((hover.compares hkeeps term.direction hbound).outcome hbound hcompare)
    have hcounts : ∀ b, operand = .bool b → db.CountsTruth := by
      rintro b rfl
      exact htruth b rfl c below hget (hover.kind_of_bool hbound)
    have horder := Operand.order_toValue hover.plain hbound hvalue
      (fun text htext => hlower text htext c below hget) hcounts
      ((rule.term term.direction).expr.value db row)
    rw [(Truth.says_iff.1 hsays).2, horder]

/-- Where each key is registered as a column that is compared like it, and the database compares the
truth values of the cursor as numbers, the rows that the filter of a position matches are the rows
that meet its condition, wherever the filter compiles. -/
theorem toFilter_iff_toCondition (hpairs : s.Pairs fields)
    (hsort : s.resolve sort = .ok resolved) (hk : Keyset.of side resolved cursor = .ok k)
    (hnow : ∀ key, (key, .now) ∉ cursor.fields) (hlower : cursor.IsLowered fields)
    (htruth : cursor.CountsTruth fields db)
    (hrow : fields.FillsColumns db row) (hp : k.toFilter.compile limits now fields = .ok p) :
    ∃ c, k.toCondition s = .ok c ∧ (p.truth db row = .holds ↔ c.truth db row = .holds) := by
  have hterms : ∀ t ∈ k.terms, ∃ rule value, s.get? t.1.key = some rule ∧
      t.2.bound? = some value ∧ Key.Asks limits now fields db row t
        ⟨(rule.term t.1.direction).expr, rule.nullable, t.1.direction, value⟩ := by
    rintro ⟨term, operand⟩ ht
    obtain ⟨hterm, hfield⟩ := mem_terms hk ht
    obtain ⟨rule, hrule⟩ := SortSchema.get?_of_mem_keys
      ((SortSchema.isResolved_of_resolve hsort).known term hterm)
    obtain ⟨value, hvalue⟩ : ∃ value, operand.bound? = some value := by
      cases operand with
      | now => exact absurd hfield (hnow term.key)
      | _ => exact ⟨_, rfl⟩
    refine ⟨rule, value, hrule, hvalue, asks_of_pairs hpairs hrow hrule hvalue ?_ ?_⟩
    · rintro text rfl c below hget hkind
      exact hlower term.key text hfield c below hget hkind
    · rintro b rfl
      exact htruth term.key b hfield
  obtain ⟨ks, hkeys, hasks⟩ := exists_asking hterms
  obtain ⟨c, hc, hholds⟩ := truth_toCondition hkeys hasks
  exact ⟨c, hc, (toFilter_holds hasks 0 p hp).trans hholds.symm⟩

end Keyset

namespace SortSchema.Sample

/-- The column with the number of a person. -/
def idColumn : Expr := .column ⟨.own, ⟨"id", .refl true⟩⟩

/-- The column with the name of a person. -/
def nameColumn : Expr := .column ⟨.own, ⟨"name", .refl true⟩⟩

/-- Persons by name in lower case, or by number. -/
def byLowerName : SortSchema Person where
  rules :=
    [("id", (SortRule.ofExpr idColumn fun p => .int p.id).notNull),
      ("name", .ofExpr (.lower nameColumn) fun p => SortRule.lowered p.nameOperand)]
  distinct := by decide
  tieBreak := "id"
  registered := by decide

/-- The fields of persons that filters may name. -/
def personFields : Schema :=
  .ofFields [("id", .column ⟨idColumn, .number, false⟩ none),
    ("name", .column ⟨nameColumn, .string, true⟩ none)]

/-- Each key of persons is registered as a field that is compared like it. -/
theorem pairs : byLowerName.Pairs personFields := by
  intro key rule hrule
  rcases List.mem_pair.1 (mem_rules_of_get? hrule) with h | h
  · obtain ⟨rfl, rfl⟩ := Prod.mk.inj h
    exact ⟨_, _, rfl, rfl, .inl ⟨.inl rfl, fun _ => rfl⟩⟩
  · obtain ⟨rfl, rfl⟩ := Prod.mk.inj h
    exact ⟨_, _, rfl, rfl, .inr ⟨rfl, fun _ => rfl⟩⟩

/-- The number that a truth value is compared as. -/
def counted : Value → Value
  | .bool b => .int (if b then 1 else 0)
  | v => v

/-- The tables of persons in a database that compares truth values as numbers. -/
def counting : Database :=
  { database with compare := fun v w => database.compare (counted v) (counted w) }

/-- Ada has a number. -/
theorem fillsColumns (db : Database) : personFields.FillsColumns db ada.row := by
  intro key c below hget hnullable
  rcases List.mem_pair.1 (mem_of_find?_name hget) with h | h
  · cases h
    rfl
  · cases h
    cases hnullable

/-- The number 1, as a caller may write it. -/
def trueCursor : Cursor := ⟨[("id", .bool true)]⟩

/-- The persons behind it. -/
def behindTrue : Keyset := ⟨[(⟨"id", .asc⟩, .bool true)], .after⟩

end SortSchema.Sample

open SortSchema.Sample in
/-- Ada comes behind the person with the number 1 and her name in lower case, also where a caller
has written the number as `true`. -/
theorem Keyset.toFilter_iff_toCondition_ada :
    ∃ k p c, byLowerName.resolve [⟨"name", .desc⟩] = .ok [⟨"name", .desc⟩, ⟨"id", .asc⟩] ∧
      Keyset.of .after [⟨"name", .desc⟩, ⟨"id", .asc⟩]
        ⟨[("name", .string "ada"), ("id", .bool true)]⟩ = .ok k ∧
      k.toFilter.compile {} default personFields = .ok p ∧
      k.toCondition byLowerName = .ok c ∧
      p.truth counting ada.row = .holds ∧ c.truth counting ada.row = .holds := by
  have hsort : byLowerName.resolve [⟨"name", .desc⟩] =
      .ok [⟨"name", .desc⟩, ⟨"id", .asc⟩] := rfl
  have hk : Keyset.of .after [⟨"name", .desc⟩, ⟨"id", .asc⟩]
      ⟨[("name", .string "ada"), ("id", .bool true)]⟩ =
      .ok ⟨[(⟨"name", .desc⟩, .string "ada"), (⟨"id", .asc⟩, .bool true)], .after⟩ := rfl
  have hlower : Cursor.IsLowered ⟨[("name", .string "ada"), ("id", .bool true)]⟩
      personFields := by
    intro key text htext _ _ _ _
    rcases List.mem_pair.1 htext with h | h
    · cases h
      decide
    · cases h
  have hcompile : ∃ p, (Keyset.toFilter ⟨[(⟨"name", .desc⟩, .string "ada"),
      (⟨"id", .asc⟩, .bool true)], .after⟩).compile {} default personFields = .ok p ∧
        p.truth counting ada.row = .holds := ⟨_, rfl, rfl⟩
  obtain ⟨p, hp, hholds⟩ := hcompile
  obtain ⟨c, hc, hiff⟩ := Keyset.toFilter_iff_toCondition pairs hsort hk (by simp) hlower
    (fun _ _ _ _ _ _ _ _ _ => rfl) (fillsColumns counting) hp
  exact ⟨_, p, c, hsort, hk, hp, hc, hholds, hiff.1 hholds⟩

open SortSchema.Sample in
/-- Where a database has no order between numbers and truth values, the two forms differ on a cursor
with `true` for the number 1: the filter binds 1 and finds Ada, who has the number 2, and the
condition binds `true` and does not. -/
theorem Keyset.toFilter_differs_true :
    byLowerName.Pairs personFields ∧
      byLowerName.resolve [⟨"id", .asc⟩] = .ok [⟨"id", .asc⟩] ∧
      Keyset.of .after [⟨"id", .asc⟩] trueCursor = .ok behindTrue ∧
      (∀ key, (key, .now) ∉ trueCursor.fields) ∧ trueCursor.IsLowered personFields ∧
      personFields.FillsColumns database ada.row ∧
      ∃ p c, behindTrue.toFilter.compile {} default personFields = .ok p ∧
        behindTrue.toCondition byLowerName = .ok c ∧
        p.truth database ada.row = .holds ∧ c.truth database ada.row = .fails := by
  have hnow : ∀ key, (key, .now) ∉ trueCursor.fields := by simp [trueCursor]
  have hlower : trueCursor.IsLowered personFields := by
    intro key text htext
    cases List.mem_singleton.1 htext
  exact ⟨pairs, rfl, rfl, hnow, hlower, fillsColumns database, _, _, rfl, rfl, rfl, rfl⟩

end FilterSql
