import FilterSql.Proofs.Basic
import FilterSql.Proofs.Filter.Meaning

/-!
# What a compiled filter is made of

One lemma for each kind of filter: where it is compiled, its predicate is made of the predicates of
its parts in one way only. The levels that a filter stands below decide whether it is refused and
nothing else (`Filter.compileAt_above`), so a filter has one predicate at a place, wherever in a
larger filter it stands.
-/

namespace FilterSql

/-- A value is bound for each of some operands. -/
theorem Operand.toValues_spec {now : Instant} {kind : ColumnKind} {operands : List Operand}
    {values : List Value} (h : toValues now kind operands = .ok values) :
    values.length = operands.length ∧
      ∀ value ∈ values, ∃ operand ∈ operands, operand.toValue now kind = .ok value := by
  induction operands generalizing values with
  | nil =>
      cases h
      simp
  | cons operand rest ih =>
      simp only [toValues, bind_eq_ok] at h
      obtain ⟨value, hvalue, others, hothers, h⟩ := h
      cases h
      obtain ⟨hlength, hrest⟩ := ih hothers
      refine ⟨congrArg Nat.succ hlength, List.forall_mem_cons.2 ⟨?_, fun other hother => ?_⟩⟩
      · exact ⟨operand, List.mem_cons_self, hvalue⟩
      · obtain ⟨source, hsource, hbound⟩ := hrest other hother
        exact ⟨source, List.mem_cons_of_mem operand hsource, hbound⟩

/-! ## The definitions of a schema -/

mutual

/-- All definitions below a field have a property, each under its name. -/
inductive FieldDefinition.EachBelow (P : String → FieldDefinition → Prop) :
    FieldDefinition → Prop where
  | column {c : FilterColumn} {below : Option Schema}
      (fields : ∀ schema, below = some schema → schema.Each P) :
      FieldDefinition.EachBelow P (.column c below)
  | nested {schema : Schema} (fields : schema.Each P) :
      FieldDefinition.EachBelow P (.nested schema)
  | related {base : Select} {schema : Schema} (fields : schema.Each P) :
      FieldDefinition.EachBelow P (.related base schema)
  | joined {join : Join} {schema : Schema} {always : Bool} (fields : schema.Each P) :
      FieldDefinition.EachBelow P (.joined join schema always)
  | wildcard {column : String → FilterColumn} {below : Option (String → Schema)}
      (fields : ∀ schemas, below = some schemas → ∀ key, (schemas key).Each P) :
      FieldDefinition.EachBelow P (.wildcard column below)
  | custom {compile : Filter → FieldPath → Except FilterError Predicate} :
      FieldDefinition.EachBelow P (.custom compile)

/-- All definitions of a schema, and all below them, have a property, each under its name. -/
inductive Schema.Each (P : String → FieldDefinition → Prop) : Schema → Prop where
  | intro {schema : Schema}
      (here : ∀ name field, schema.get? name = some field → P name field)
      (below : ∀ name field, schema.get? name = some field → field.EachBelow P) :
      Schema.Each P schema

end

/-- All definitions of the fields that are visible at a place, and all below them, have a
property. -/
inductive Fields.Each (P : String → FieldDefinition → Prop) : Fields → Prop where
  | none : Fields.Each P .none
  | schema {schema : Schema} (fields : schema.Each P) : Fields.Each P (.schema schema)
  | wildcard {column : String → FilterColumn} {below : Option (String → Schema)}
      (fields : ∀ schemas, below = some schemas → ∀ key, (schemas key).Each P) :
      Fields.Each P (.wildcard column below)

/-- What a name leads to: fields of which all definitions have a property, or a field with that
property and a compiler of its own. -/
inductive Landing.Each (P : String → FieldDefinition → Prop) : Landing → Prop where
  | scope {entry : Entry} {s : Scope} (fields : s.fields.Each P) : Landing.Each P (.scope entry s)
  | custom {compile : Filter → FieldPath → Except FilterError Predicate} {path : FieldPath}
      {rest : Option String} (name : String) (here : P name (.custom compile)) :
      Landing.Each P (.custom compile path rest)

section Each

variable {P : String → FieldDefinition → Prop}

/-- A schema has the property if each of its fields has it, and what is below them. -/
theorem Schema.Each.ofFields {fields : List (String × FieldDefinition)}
    (h : ∀ entry ∈ fields, P entry.1 entry.2 ∧ entry.2.EachBelow P) :
    (Schema.ofFields fields).Each P :=
  ⟨fun _ _ hget => (h _ (mem_of_find?_name hget)).1,
    fun _ _ hget => (h _ (mem_of_find?_name hget)).2⟩

/-- A schema with one field has the property if the field has it, and what is below it. -/
theorem Schema.Each.singleton {name : String} {field : FieldDefinition} (here : P name field)
    (below : field.EachBelow P) : (Schema.ofFields [(name, field)]).Each P :=
  .ofFields (List.forall_mem_singleton.2 ⟨here, below⟩)

/-- Optional fields have the property if they have it where they are there. -/
theorem Fields.Each.ofOption {below : Option Schema}
    (h : ∀ schema, below = some schema → schema.Each P) : (Fields.ofOption below).Each P := by
  cases below with
  | none => exact .none
  | some schema => exact .schema (h schema rfl)

/-- The field of a name has the property, and what is below it. -/
theorem Fields.Each.get? {fields : Fields} (h : fields.Each P) {name : String}
    {field : FieldDefinition} (hget : fields.get? name = some field) :
    P name field ∧ field.EachBelow P := by
  cases h with
  | none => cases hget
  | wildcard _ => cases hget
  | schema fields =>
      obtain ⟨here, below⟩ := fields
      exact ⟨here name field hget, below name field hget⟩

namespace Step

/-- A step that ends a name takes one step down. -/
theorem steps_land (step : Step) : step.land.steps = 1 := by
  cases step <;> rfl

/-- Where a name that ends in a step lands. -/
theorem land_each {name : String} {field : FieldDefinition} (here : P name field)
    (below : field.EachBelow P) (path : FieldPath) : (field.step path).land.landing.Each P := by
  cases below with
  | column fields => exact .scope (.ofOption fields)
  | nested fields => exact .scope (.schema fields)
  | related fields => exact .scope (.schema fields)
  | joined fields => exact .scope (.schema fields)
  | wildcard fields => exact .scope (.wildcard fields)
  | custom => exact .custom name here

end Step

end Each

namespace Scope

variable {s : Scope} {target : Target} {P : String → FieldDefinition → Prop}

/-- A first segment leads to fields of which all definitions have the property. -/
theorem first_each (hs : s.fields.Each P) {head : String} {step : Step}
    (h : s.first head = some step) : step.land.landing.Each P := by
  unfold first at h
  cases hfields : s.fields with
  | none => simp [hfields] at h
  | schema schema =>
      simp only [hfields, Option.map_eq_some_iff] at h
      obtain ⟨field, hget, rfl⟩ := h
      rw [hfields] at hs
      have hget : (Fields.schema schema).get? head = some field := hget
      obtain ⟨here, below⟩ := hs.get? hget
      exact Step.land_each here below _
  | wildcard column below =>
      simp only [hfields, Option.some.injEq] at h
      rw [hfields] at hs
      cases hs with
      | wildcard fields =>
          rw [← h]
          refine .scope (.ofOption fun schema hschema => ?_)
          obtain ⟨schemas, hbelow, rfl⟩ := Option.map_eq_some_iff.1 hschema
          exact fields schemas hbelow head

/-- A place can be tested if it has a column. -/
theorem tested_eq_ok {operator : String} {c : FilterColumn} :
    s.tested operator = .ok c ↔ s.column = some c := by
  unfold tested
  cases s.column <;> simp

/-- A name of one segment ends in its first step. -/
theorem resolve_nil {head : String}
    (h : s.resolve head [] = .ok target) :
    ∃ step, s.first head = some step ∧ target = step.land := by
  rw [resolve] at h
  cases hfirst : s.first head with
  | none => simp [hfirst] at h
  | some step =>
      simp only [hfirst, Except.ok.injEq] at h
      exact ⟨step, rfl, h.symm⟩

/-- A name of more than one segment leads to the field of the whole name; where there is none, it
leads through the field of the first segment. -/
theorem resolve_cons {head next : String} {rest : List String}
    (h : s.resolve head (next :: rest) = .ok target) :
    (∃ field, s.fields.get? (Text.join "." (head :: next :: rest)) = some field ∧
        target = (field.step (s.path.child (Text.join "." (head :: next :: rest)))).land) ∨
      s.fields.get? (Text.join "." (head :: next :: rest)) = none ∧
        ((∃ compile path, s.first head = some (.custom compile path) ∧
            target = ⟨[], .custom compile path (some (Text.join "." (next :: rest))), 1⟩) ∨
          ∃ entry inner behind, s.first head = some (.into entry inner) ∧
            inner.resolve next rest = .ok behind ∧
            target =
              { behind with passed := entry :: behind.passed, steps := behind.steps + 1 }) := by
  rw [resolve] at h
  cases hwhole : s.fields.get? (Text.join "." (head :: next :: rest)) with
  | some field =>
      simp only [hwhole, Except.ok.injEq] at h
      exact Or.inl ⟨field, rfl, h.symm⟩
  | none =>
      refine Or.inr ⟨rfl, ?_⟩
      cases hfirst : s.first head with
      | none => simp [hwhole, hfirst] at h
      | some step =>
          cases step with
          | custom compile path =>
              simp only [hwhole, hfirst, Except.ok.injEq] at h
              exact Or.inl ⟨compile, path, rfl, h.symm⟩
          | into entry inner =>
              simp only [hwhole, hfirst, map_eq_ok] at h
              obtain ⟨behind, hbehind, rfl⟩ := h
              exact Or.inr ⟨entry, inner, behind, rfl, hbehind, rfl⟩

/-- A name leads to fields of which all definitions have the property, in no more steps than it has
segments. -/
theorem resolve_each {rest : List String} (hs : s.fields.Each P) {head : String}
    (h : s.resolve head rest = .ok target) :
    target.landing.Each P ∧ target.steps ≤ rest.length + 1 := by
  induction rest generalizing s head target with
  | nil =>
      obtain ⟨step, hfirst, rfl⟩ := resolve_nil h
      exact ⟨first_each hs hfirst, step.steps_land.le⟩
  | cons next rest ih =>
      rcases resolve_cons h with ⟨field, hget, rfl⟩ | ⟨-, ⟨compile, path, hfirst, rfl⟩ |
        ⟨entry, inner, behind, hfirst, hbehind, rfl⟩⟩
      · obtain ⟨here, below⟩ := hs.get? hget
        refine ⟨Step.land_each here below _, ?_⟩
        rw [Step.steps_land]
        omega
      · cases first_each hs hfirst with
        | custom name here => exact ⟨.custom name here, by simp⟩
      · cases first_each hs hfirst with
        | scope fields =>
            obtain ⟨hlanding, hsteps⟩ := ih fields hbehind
            exact ⟨hlanding, by simpa using hsteps⟩

/-- A name is followed segment by segment. -/
theorem exists_segments {name : String} (h : s.follow name = .ok target) :
    ∃ head rest, Filter.segments name = head :: rest ∧ s.resolve head rest = .ok target := by
  unfold follow at h
  unfold Filter.segments
  split at h
  next hnil => exact absurd hnil (Text.splitOn_ne_nil _ _)
  next head rest hcons =>
    rw [hcons]
    exact ⟨String.ofList head, rest.map String.ofList, rfl, h⟩

end Scope

namespace Filter

/-- A test at its place succeeds as the test does. -/
theorem testAt_eq_ok {s : Scope} {result : Except FilterFault Predicate} {p : Predicate} :
    testAt s result = .ok p ↔ result = .ok p := by
  cases result <;> simp [testAt]

variable {limits : Limits} {now : Instant} {s : Scope} {entry : Entry} {above : Nat}
  {p : Predicate}

/-- Below the limit the guard lets a filter pass. -/
theorem guardDepth_ok (h : above < limits.maxDepth) : guardDepth limits s above = .ok () :=
  if_neg (Nat.not_le.2 h)

/-- Where a column can be tested, the result of the test is the predicate at its place. -/
theorem test_of_column (hguard : guardDepth limits s above = .ok ()) {c : FilterColumn}
    (hcolumn : s.column = some c) (operator : String)
    {test : FilterColumn → Except FilterFault Predicate} (h : test c = .ok p) :
    (do
      guardDepth limits s above
      let column ← s.tested operator
      return entry.enclose (← testAt s (test column))) = .ok (entry.enclose p) := by
  rw [hguard, Scope.tested_eq_ok.2 hcolumn]
  show (do return entry.enclose (← testAt s (test c))) = _
  rw [h]
  rfl

attribute [local simp] compileAt compileAll compileAny

/-- The predicate of a filter at the place that a name leads to. -/
def compileLanding (limits : Limits) (now : Instant) (above : Nat) (filter : Filter) :
    Landing → Except FilterError Predicate
  | .scope entry s => compileAt limits now s entry above filter
  | .custom compile path rest => compile (filter.onRest rest) path

/-- The predicate of a filter at the end of a name, with all that the entries on the way ask. -/
def compileTarget (limits : Limits) (now : Instant) (above : Nat) (filter : Filter)
    (target : Target) : Except FilterError Predicate :=
  (compileLanding limits now (above + target.steps) filter target.landing).map
    (target.passed.foldr Entry.enclose)

/-- A field is followed to the end of its name, where its filter is compiled. -/
theorem compileAt_field_target (name : String) (filter : Filter) :
    compileAt limits now s entry above (.field name filter) =
      guardDepth limits s above >>= fun _ =>
        (s.follow name >>= compileTarget limits now (above + 1) filter).map entry.enclose := by
  rw [compileAt]
  cases guardDepth limits s above with
  | error e => rfl
  | ok =>
      cases s.follow name with
      | error e => rfl
      | ok target =>
          simp only [bind, Except.bind, compileTarget]
          cases target.landing with
          | scope through inner =>
              dsimp only [compileLanding]
              cases compileAt limits now inner through (above + 1 + target.steps) filter <;> rfl
          | custom compile path rest =>
              dsimp only [compileLanding]
              cases compile (filter.onRest rest) path <;> rfl

/-! ## One kind of filter after the other -/

/-- A compiled conjunction is that of its filters, one level deeper. -/
theorem compileAt_all {filters : List Filter}
    (h : compileAt limits now s entry above (.all filters) = .ok p) :
    ∃ q, compileAll limits now s (above + 1) .always filters = .ok q ∧ p = entry.enclose q := by
  simp only [compileAt, bind_eq_ok, pure, Except.pure, Except.ok.injEq] at h
  obtain ⟨_, _, q, hq, rfl⟩ := h
  exact ⟨q, hq, rfl⟩

/-- A compiled disjunction is that of its filters, one level deeper. -/
theorem compileAt_any {filters : List Filter}
    (h : compileAt limits now s entry above (.any filters) = .ok p) :
    ∃ q, compileAny limits now s (above + 1) .never filters = .ok q ∧ p = entry.enclose q := by
  simp only [compileAt, bind_eq_ok, pure, Except.pure, Except.ok.injEq] at h
  obtain ⟨_, _, q, hq, rfl⟩ := h
  exact ⟨q, hq, rfl⟩

/-- The negation of a relation stands outside the subquery, every other one inside. -/
theorem compileAt_not {filter : Filter}
    (h : compileAt limits now s entry above (.not filter) = .ok p) :
    (∃ base q, entry = .related base ∧
        compileAt limits now s entry (above + 1) filter = .ok q ∧ p = q.negate) ∨
      ∃ q, (∀ base, entry ≠ .related base) ∧
        compileAt limits now s .row (above + 1) filter = .ok q ∧ p = entry.enclose q.negate := by
  cases entry with
  | related base =>
      simp only [compileAt, map_eq_ok] at h
      obtain ⟨q, hq, rfl⟩ := h
      exact Or.inl ⟨base, q, rfl, hq, rfl⟩
  | row =>
      simp only [compileAt, bind_eq_ok, pure, Except.pure, Except.ok.injEq] at h
      obtain ⟨_, _, q, hq, rfl⟩ := h
      exact Or.inr ⟨q, by simp, hq, rfl⟩
  | joined join always =>
      simp only [compileAt, bind_eq_ok, pure, Except.pure, Except.ok.injEq] at h
      obtain ⟨_, _, q, hq, rfl⟩ := h
      exact Or.inr ⟨q, by simp, hq, rfl⟩

/-- A compiled field is its filter at the end of the name, taken back through the entries on the
way. -/
theorem compileAt_field {name : String} {filter : Filter}
    (h : compileAt limits now s entry above (.field name filter) = .ok p) :
    ∃ target q, s.follow name = .ok target ∧
      compileLanding limits now (above + 1 + target.steps) filter target.landing = .ok q ∧
      p = entry.enclose (target.passed.foldr Entry.enclose q) := by
  simp only [compileAt_field_target, compileTarget, bind_eq_ok, map_eq_ok] at h
  obtain ⟨_, _, _, ⟨target, htarget, q, hq, rfl⟩, rfl⟩ := h
  exact ⟨target, q, htarget, hq, rfl⟩

/-- A compiled comparison is the test of the column at the place. -/
theorem compileAt_compare {op : CompareOp} {operand : Operand}
    (h : compileAt limits now s entry above (.compare op operand) = .ok p) :
    ∃ c q, s.column = some c ∧ c.compare now op operand = .ok q ∧ p = entry.enclose q := by
  simp only [compileAt, bind_eq_ok, pure, Except.pure, Except.ok.injEq] at h
  obtain ⟨_, _, c, hc, q, hq, rfl⟩ := h
  exact ⟨c, q, Scope.tested_eq_ok.1 hc, testAt_eq_ok.1 hq, rfl⟩

/-- A compiled membership is the test of the column at the place. -/
theorem compileAt_oneOf {operands : List Operand}
    (h : compileAt limits now s entry above (.oneOf operands) = .ok p) :
    ∃ c q, s.column = some c ∧ c.oneOf now limits.maxValues operands = .ok q ∧
      p = entry.enclose q := by
  simp only [compileAt, bind_eq_ok, pure, Except.pure, Except.ok.injEq] at h
  obtain ⟨_, _, c, hc, q, hq, rfl⟩ := h
  exact ⟨c, q, Scope.tested_eq_ok.1 hc, testAt_eq_ok.1 hq, rfl⟩

/-- A compiled search for a text is the test of the column at the place. -/
theorem compileAt_contains {needle : String}
    (h : compileAt limits now s entry above (.contains needle) = .ok p) :
    ∃ c q, s.column = some c ∧ c.contains needle = .ok q ∧ p = entry.enclose q := by
  simp only [compileAt, bind_eq_ok, pure, Except.pure, Except.ok.injEq] at h
  obtain ⟨_, _, c, hc, q, hq, rfl⟩ := h
  exact ⟨c, q, Scope.tested_eq_ok.1 hc, testAt_eq_ok.1 hq, rfl⟩

/-- A compiled filter on matches is the filter at the place behind the entry, which is another row.
-/
theorem compileAt_elemMatch {filter : Filter}
    (h : compileAt limits now s entry above (.elemMatch filter) = .ok p) :
    entry ≠ .row ∧
      ∃ q, compileAt limits now s .row above filter = .ok q ∧ p = entry.enclose q := by
  cases entry with
  | row =>
      simp only [compileAt, bind_eq_ok] at h
      obtain ⟨_, _, h⟩ := h
      cases h
  | related base =>
      simp only [compileAt, map_eq_ok] at h
      obtain ⟨q, hq, rfl⟩ := h
      exact ⟨by simp, q, hq, rfl⟩
  | joined join always =>
      simp only [compileAt, map_eq_ok] at h
      obtain ⟨q, hq, rfl⟩ := h
      exact ⟨by simp, q, hq, rfl⟩

/-- A marker is never compiled. -/
theorem compileAt_marker : compileAt limits now s entry above .marker ≠ .ok p := by
  intro h
  simp only [compileAt, bind_eq_ok] at h
  obtain ⟨_, _, h⟩ := h
  cases h

/-- Once it is settled that no row matches, the rest of a conjunction is not compiled. -/
theorem compileAll_cons {filter : Filter} {rest : List Filter} {q : Predicate}
    (h : compileAll limits now s above q (filter :: rest) = .ok p) :
    ∃ r, compileAt limits now s .row above filter = .ok r ∧
      (q.and r = .never ∧ p = .never ∨
        q.and r ≠ .never ∧ compileAll limits now s above (q.and r) rest = .ok p) := by
  simp only [compileAll, bind_eq_ok] at h
  obtain ⟨r, hr, h⟩ := h
  refine ⟨r, hr, ?_⟩
  split at h
  next hnever =>
    cases h
    exact Or.inl ⟨hnever, rfl⟩
  next hgoes => exact Or.inr ⟨hgoes, h⟩

/-- Once it is settled that every row matches, the rest of a disjunction is not compiled. -/
theorem compileAny_cons {filter : Filter} {rest : List Filter} {q : Predicate}
    (h : compileAny limits now s above q (filter :: rest) = .ok p) :
    ∃ r, compileAt limits now s .row above filter = .ok r ∧
      (q.or r = .always ∧ p = .always ∨
        q.or r ≠ .always ∧ compileAny limits now s above (q.or r) rest = .ok p) := by
  simp only [compileAny, bind_eq_ok] at h
  obtain ⟨r, hr, h⟩ := h
  refine ⟨r, hr, ?_⟩
  split at h
  next halways =>
    cases h
    exact Or.inl ⟨halways, rfl⟩
  next hgoes => exact Or.inr ⟨hgoes, h⟩

/-! ## Levels -/

section Levels

variable {α β : Type} {x y : Except FilterError α}

/-- A result is the refusal of a filter that nests too deep. -/
def TooDeep (x : Except FilterError α) : Prop :=
  ∃ e max, x = .error e ∧ e.fault = .tooDeep max

/-- Two results are the same, unless one of them is a refusal for the depth. -/
def Agree (x y : Except FilterError α) : Prop :=
  TooDeep x ∨ TooDeep y ∨ x = y

/-- Two results succeed with the same or both fail, unless one of them is a refusal for the
depth. -/
def Concur (x y : Except FilterError α) : Prop :=
  TooDeep x ∨ TooDeep y ∨ x.toOption = y.toOption

/-- A result is no refusal. -/
theorem not_tooDeep_ok {a : α} : ¬TooDeep (.ok a : Except FilterError α) := by
  rintro ⟨e, max, ⟨⟩, -⟩

/-- A refusal at the first step is the refusal of both. -/
theorem TooDeep.bind (h : TooDeep x) (f : α → Except FilterError β) : TooDeep (x >>= f) := by
  obtain ⟨e, max, rfl, hfault⟩ := h
  exact ⟨e, max, rfl, hfault⟩

/-- Every result agrees with itself. -/
theorem Agree.refl (x : Except FilterError α) : Agree x x := .inr (.inr rfl)

/-- Two steps in turn agree if each of them does. -/
theorem Agree.bind (h : Agree x y) {f g : α → Except FilterError β}
    (hf : ∀ a, Agree (f a) (g a)) : Agree (x >>= f) (y >>= g) := by
  rcases h with h | h | rfl
  · exact .inl (h.bind f)
  · exact .inr (.inl (h.bind g))
  · cases x with
    | error e => exact .refl _
    | ok a => exact hf a

/-- What is made of results that agree agrees. -/
theorem Agree.map (h : Agree x y) (f : α → β) : Agree (x.map f) (y.map f) :=
  h.bind fun a => .refl (.ok (f a))

/-- Results that agree concur. -/
theorem Agree.concur (h : Agree x y) : Concur x y :=
  h.imp_right (.imp_right (congrArg Except.toOption))

/-- Where neither result is a refusal for the depth, the two are the same. -/
theorem Agree.eq (h : Agree x y) (hx : ¬TooDeep x) (hy : ¬TooDeep y) : x = y :=
  (h.resolve_left hx).resolve_left hy

/-- Every result concurs with itself. -/
theorem Concur.refl (x : Except FilterError α) : Concur x x := .inr (.inr rfl)

/-- Two steps in turn concur if each of them does. -/
theorem Concur.bind (h : Concur x y) {f g : α → Except FilterError β}
    (hf : ∀ a, Concur (f a) (g a)) : Concur (x >>= f) (y >>= g) := by
  rcases h with h | h | h
  · exact .inl (h.bind f)
  · exact .inr (.inl (h.bind g))
  · cases x with
    | error e =>
        cases y with
        | error e' => exact .inr (.inr rfl)
        | ok b => cases h
    | ok a =>
        cases y with
        | error e' => cases h
        | ok b =>
            obtain rfl : a = b := Option.some.inj h
            exact hf a

/-- What is made of results that concur concurs. -/
theorem Concur.map (h : Concur x y) (f : α → β) : Concur (x.map f) (y.map f) :=
  h.bind fun a => .refl (.ok (f a))

/-- The guards at two levels agree. -/
theorem guardDepth_agree {above above' : Nat} :
    Agree (guardDepth limits s above) (guardDepth limits s above') := by
  unfold guardDepth
  split
  · exact .inl ⟨_, _, rfl, rfl⟩
  · split
    · exact .inr (.inl ⟨_, _, rfl, rfl⟩)
    · exact .refl _

/-- A guard refuses for the depth, or what stands behind it is looked at. -/
theorem tooDeep_or_passes (limits : Limits) (s : Scope) (above : Nat)
    (y : Except FilterError α) :
    TooDeep (guardDepth limits s above >>= fun _ => y) ∨
      (guardDepth limits s above >>= fun _ => y) = y := by
  unfold guardDepth
  split
  · exact .inl ⟨_, _, rfl, rfl⟩
  · exact .inr rfl

/-- A guard before one of two results that agree makes no difference to that. -/
theorem Agree.behind_guard {limits : Limits} {s : Scope} {above : Nat} (h : Agree x y) :
    Agree x (guardDepth limits s above >>= fun _ => y) := by
  rcases tooDeep_or_passes limits s above y with hdeep | hpasses
  · exact .inr (.inl hdeep)
  · rwa [hpasses]

/-- A guard before one of two results that concur makes no difference to that. -/
theorem Concur.behind_guard {limits : Limits} {s : Scope} {above : Nat} (h : Concur x y) :
    Concur x (guardDepth limits s above >>= fun _ => y) := by
  rcases tooDeep_or_passes limits s above y with hdeep | hpasses
  · exact .inr (.inl hdeep)
  · rwa [hpasses]

/-- Where neither result is a refusal for the depth, one succeeds where the other does. -/
theorem Concur.eq_ok_iff (h : Concur x y) (hx : ¬TooDeep x) (hy : ¬TooDeep y) (a : α) :
    x = .ok a ↔ y = .ok a := by
  have heq := (h.resolve_left hx).resolve_left hy
  cases x with
  | error e =>
      cases y with
      | error e' => exact ⟨nofun, nofun⟩
      | ok b => cases heq
  | ok a' =>
      cases y with
      | error e' => cases heq
      | ok b => rw [Option.some.inj heq]

mutual

/-- Two numbers of levels that a filter stands below differ in the refusal for the depth alone. -/
theorem compileAt_agree (filter : Filter) (s : Scope) (entry : Entry) (above above' : Nat) :
    Agree (compileAt limits now s entry above filter)
      (compileAt limits now s entry above' filter) := by
  match filter with
  | .all filters =>
      exact guardDepth_agree.bind fun _ =>
        (compileAll_agree filters s (above + 1) (above' + 1) .always).bind fun _ => .refl _
  | .any filters =>
      exact guardDepth_agree.bind fun _ =>
        (compileAny_agree filters s (above + 1) (above' + 1) .never).bind fun _ => .refl _
  | .not filter =>
      cases entry with
      | related base =>
          exact (compileAt_agree filter s (.related base) (above + 1) (above' + 1)).map _
      | row | joined _ _ =>
          exact guardDepth_agree.bind fun _ =>
            (compileAt_agree filter s .row (above + 1) (above' + 1)).bind fun _ => .refl _
  | .field name filter =>
      refine guardDepth_agree.bind fun _ => (Agree.refl (s.follow name)).bind fun target => ?_
      cases target.landing with
      | scope through inner =>
          exact (compileAt_agree filter inner through _ _).bind fun _ => .refl _
      | custom compile path rest => exact .refl _
  | .compare .. | .oneOf _ | .contains _ | .marker =>
      exact guardDepth_agree.bind fun _ => .refl _
  | .elemMatch filter =>
      cases entry with
      | row => exact guardDepth_agree.bind fun _ => .refl _
      | related _ | joined _ _ => exact (compileAt_agree filter s .row above above').map _
termination_by structural filter

/-- The conjunction of some filters agrees at any two levels. -/
theorem compileAll_agree (filters : List Filter) (s : Scope) (above above' : Nat)
    (p : Predicate) :
    Agree (compileAll limits now s above p filters)
      (compileAll limits now s above' p filters) := by
  match filters with
  | [] => exact .refl _
  | filter :: rest =>
      refine (compileAt_agree filter s .row above above').bind fun q => ?_
      split
      · exact .refl _
      · exact compileAll_agree rest s above above' _
termination_by structural filters

/-- The disjunction of some filters agrees at any two levels. -/
theorem compileAny_agree (filters : List Filter) (s : Scope) (above above' : Nat)
    (p : Predicate) :
    Agree (compileAny limits now s above p filters)
      (compileAny limits now s above' p filters) := by
  match filters with
  | [] => exact .refl _
  | filter :: rest =>
      refine (compileAt_agree filter s .row above above').bind fun q => ?_
      split
      · exact .refl _
      · exact compileAny_agree rest s above above' _
termination_by structural filters

end

/-- At a place a filter has at most one predicate, whatever number of levels it stands below. -/
theorem compileAt_above (filter : Filter) {s : Scope} {entry : Entry} {above above' : Nat}
    {p p' : Predicate} (h : compileAt limits now s entry above filter = .ok p)
    (h' : compileAt limits now s entry above' filter = .ok p') : p = p' := by
  have hagree : Agree (compileAt limits now s entry above filter)
      (compileAt limits now s entry above' filter) := compileAt_agree filter s entry above above'
  rw [h, h'] at hagree
  exact Except.ok.inj (hagree.eq not_tooDeep_ok not_tooDeep_ok)

end Levels

end Filter

end FilterSql
