import FilterSql.Proofs.Filter.Decision
import FilterSql.Proofs.Filter.Steps
import FilterSql.Proofs.Sql.Subquery

/-!
# What compiled filters see

The columns and joins of a schema are read at places where not all tables need be there: the fields
of a join see its table, and nothing else does. `Schema.Orderly` says that each field keeps to what
it can see. Then the predicate of every filter does (`Filter.compileAt_fits`), so within a relation
it comes to the same whatever joins other filters bring with them.
-/

namespace FilterSql

variable {db : Database}

/-! ## Tests on columns -/

/-- A predicate is a test of an expression: it needs no join, and what it comes to depends on the
value of the expression. -/
structure Predicate.Tests (db : Database) (expr : Expr) (p : Predicate) : Prop where
  joinless : p.joinSteps db = []
  truth : ∀ a b, expr.value db a = expr.value db b → p.truth db a = p.truth db b

/-- The negation of a test is a test of the same expression. -/
theorem Predicate.Tests.negate {expr : Expr} {p : Predicate} (h : p.Tests db expr) :
    p.negate.Tests db expr := by
  refine ⟨by rw [joinSteps_negate, h.joinless], fun a b hab => ?_⟩
  rw [truth_negate, truth_negate]
  exact congrArg Truth.not (h.truth a b hab)

namespace FilterColumn

variable {c : FilterColumn} {value : Value} {a b : Env}

/-- The lower-cased column depends on the value of the column. -/
theorem lowerText_congr (h : c.expr.value db a = c.expr.value db b) :
    c.lowerText.value db a = c.lowerText.value db b := by
  unfold lowerText
  split
  · exact congrArg (fun v => db.lowered (db.jsonUnquote v)) h
  · exact congrArg db.lowered h

/-- What a value is compared with depends on the value of the column. -/
theorem target_congr (h : c.expr.value db a = c.expr.value db b) :
    (c.target value).value db a = (c.target value).value db b := by
  unfold target
  split
  · split
    · exact lowerText_congr h
    · exact h
  · exact h

/-- The test for `NULL` depends on the value of the column. -/
theorem null_congr (h : c.expr.value db a = c.expr.value db b) :
    (Condition.null c.expr).truth db a = (Condition.null c.expr).truth db b := by
  rw [Condition.truth_null, Condition.truth_null, h]

/-- A comparison depends on the value of the column. -/
theorem compare_congr (h : c.expr.value db a = c.expr.value db b) (op : CompareOp) :
    (Condition.compare (c.target value) op (.param value)).truth db a =
      (Condition.compare (c.target value) op (.param value)).truth db b := by
  rw [Condition.truth_compare, Condition.truth_compare, target_congr h]
  rfl

/-- The search for an element depends on the value of the column. -/
theorem arrayContains_congr (h : c.expr.value db a = c.expr.value db b) (foldCase : Bool) :
    (Condition.arrayContains c.expr value foldCase).truth db a =
      (Condition.arrayContains c.expr value foldCase).truth db b :=
  congrArg (fun v => if v.isNull then Truth.unknown else .ofBool (db.arrayHolds v value foldCase)) h

/-- A test for equality depends on the value of the column. -/
theorem equals_congr (h : c.expr.value db a = c.expr.value db b) :
    (c.equals value).truth db a = (c.equals value).truth db b := by
  unfold equals isNothing holds
  split
  · split
    · exact arrayContains_congr h true
    · rw [Condition.truth_or, Condition.truth_or, arrayContains_congr h, null_congr h]
    · exact arrayContains_congr h false
  · split
    · split
      · have hjson : (Condition.isJsonNull c.expr).truth db a =
            (Condition.isJsonNull c.expr).truth db b := congrArg db.isJsonNull h
        rw [Condition.truth_or, Condition.truth_or, hjson, null_congr h]
      · exact null_congr h
    · split
      · exact congrArg (fun v => Truth.ofBool (db.nullSafeEq v value)) (target_congr h)
      · exact compare_congr h .eq

/-- A test for what lies above a value depends on the value of the column. -/
theorem above_congr (h : c.expr.value db a = c.expr.value db b) :
    (c.above value).truth db a = (c.above value).truth db b := by
  have hnotNull : (Condition.notNull c.expr).truth db a =
      (Condition.notNull c.expr).truth db b := by
    rw [Condition.truth_notNull, Condition.truth_notNull, h]
  unfold above
  split
  · split
    · exact hnotNull
    · rfl
  · rw [Predicate.truth_condition, Predicate.truth_condition]
    split
    · rw [Condition.truth_and, Condition.truth_and, hnotNull, compare_congr h]
    · exact compare_congr h .gt

/-- A test for what lies below a value depends on the value of the column. -/
theorem below_congr (h : c.expr.value db a = c.expr.value db b) :
    (c.below value).truth db a = (c.below value).truth db b := by
  unfold below
  split
  · rfl
  · rw [Predicate.truth_condition, Predicate.truth_condition]
    split
    · rw [Condition.truth_or, Condition.truth_or, null_congr h, compare_congr h]
    · exact compare_congr h .lt

/-- An overlap test depends on the value of the column. -/
theorem overlaps_congr (h : c.expr.value db a = c.expr.value db b) (values : List Value) :
    (Condition.overlaps c.expr values).truth db a =
      (Condition.overlaps c.expr values).truth db b :=
  congrArg (fun v => if v.isNull then Truth.unknown else .ofBool (db.arrayOverlaps v values)) h

/-- A test for membership depends on the value of the column. -/
theorem isAmong_congr {values : List Value} (h : c.expr.value db a = c.expr.value db b) :
    (c.isAmong values).truth db a = (c.isAmong values).truth db b := by
  unfold isAmong
  split
  · exact overlaps_congr h _
  · exact compare_congr h .eq
  · exact congrArg (db.isIn · []) h
  next first rest _ _ => exact congrArg (db.isIn · (first :: rest)) (target_congr h)

variable {now : Instant} {p : Predicate}

/-- Equality with a value is a test of the column. -/
theorem tests_equals : (Predicate.condition (c.equals value)).Tests db c.expr :=
  ⟨joinSteps_equals, fun _ _ => equals_congr⟩

/-- A compiled comparison is a test of the column. -/
theorem tests_compare {op : CompareOp} {operand : Operand} (h : c.compare now op operand = .ok p) :
    p.Tests db c.expr := by
  rw [FilterColumn.compare, map_eq_ok] at h
  obtain ⟨value, -, rfl⟩ := h
  have habove : (c.above value).Tests db c.expr := ⟨joinSteps_above, fun _ _ => above_congr⟩
  have hbelow : (c.below value).Tests db c.expr := ⟨joinSteps_below, fun _ _ => below_congr⟩
  cases op with
  | eq => exact tests_equals
  | neq => exact tests_equals.negate
  | gt => exact habove
  | lte => exact habove.negate
  | lt => exact hbelow
  | gte => exact hbelow.negate

/-- A compiled membership is a test of the column. -/
theorem tests_oneOf {maxValues : Nat} {operands : List Operand}
    (h : c.oneOf now maxValues operands = .ok p) : p.Tests db c.expr := by
  unfold FilterColumn.oneOf at h
  split at h
  · cases h
  split at h
  · cases h
    exact ⟨rfl, fun _ _ _ => rfl⟩
  · rw [map_eq_ok] at h
    obtain ⟨values, -, rfl⟩ := h
    split
    · exact ⟨joinSteps_isAmong, fun _ _ => isAmong_congr⟩
    · split
      · exact tests_equals
      · refine ⟨?_, fun a b hab => ?_⟩
        · show Condition.joinSteps db _ = []
          rw [Condition.joinSteps_or, joinSteps_equals, joinSteps_isAmong]
          rfl
        · rw [Predicate.truth_condition, Predicate.truth_condition, Condition.truth_or,
            Condition.truth_or, equals_congr hab, isAmong_congr hab]

/-- A compiled search for a text is a test of the column. -/
theorem tests_contains {needle : String} (h : c.contains needle = .ok p) : p.Tests db c.expr := by
  unfold FilterColumn.contains at h
  split at h
  · cases h
    refine ⟨rfl, fun a b hab => ?_⟩
    rw [Predicate.truth_condition, Predicate.truth_condition, Condition.truth_like,
      Condition.truth_like, lowerText_congr hab]
  · cases h

end FilterColumn

/-! ## Predicates that fit a place -/

namespace Sight

variable {S T : Sight} {p q : Predicate} {a b : Env}

/-- Rows that agree behind two lists of joins agree behind the first. -/
theorem Agree.past_left {joins more : List Join} (h : (S.past (joins ++ more)).Agree a b) :
    (S.past joins).Agree a b := by
  rw [← past_past] at h
  exact h.of_past

/-- Rows that agree behind two lists of joins agree behind the second. -/
theorem Agree.past_right {joins more : List Join} (h : (S.past (joins ++ more)).Agree a b) :
    (S.past more).Agree a b := by
  rw [← past_past, past_comm] at h
  exact h.of_past

/-- The predicate that never holds fits every place. -/
theorem fits_never : S.Fits db .never :=
  ⟨nofun, trivial, fun _ _ _ => rfl⟩

/-- The predicate that always holds fits every place. -/
theorem fits_always : S.Fits db .always :=
  ⟨nofun, trivial, fun _ _ _ => rfl⟩

/-- What is made of two predicates fits where both do, if it needs their joins and depends on what
they come to. -/
theorem Fits.combine {made : Predicate} {f : Truth → Truth → Truth} (hp : S.Fits db p)
    (hq : S.Fits db q) (hneeds : made.needs db = p.needs db ++ q.needs db)
    (htruth : ∀ row, made.truth db row = f (p.truth db row) (q.truth db row)) :
    S.Fits db made := by
  refine ⟨?_, ?_, fun a b hab => ?_⟩
  · rw [hneeds]
    exact fun join hjoin => (List.mem_append.1 hjoin).elim (hp.joins join) (hq.joins join)
  · rw [hneeds]
    exact hp.grounds.append hq.grounds
  · rw [hneeds] at hab
    have hleft : p.truth db a = p.truth db b := hp.sees a b hab.past_left
    have hright : q.truth db a = q.truth db b := hq.sees a b hab.past_right
    show made.truth db a = made.truth db b
    rw [htruth, htruth, hleft, hright]

/-- The conjunction of two predicates fits where both do. -/
theorem Fits.and (hp : S.Fits db p) (hq : S.Fits db q) : S.Fits db (p.and q) := by
  by_cases hnever : p.and q = .never
  · rw [hnever]
    exact fits_never
  · exact hp.combine hq (Predicate.needs_and hnever) fun _ => Predicate.eval_and p q

/-- The disjunction of two predicates fits where both do. -/
theorem Fits.or (hp : S.Fits db p) (hq : S.Fits db q) : S.Fits db (p.or q) := by
  by_cases halways : p.or q = .always
  · rw [halways]
    exact fits_always
  · exact hp.combine hq (Predicate.needs_or halways) fun _ => Predicate.eval_or p q

/-- The negation of a predicate fits where the predicate does. -/
theorem Fits.negate (hp : S.Fits db p) : S.Fits db p.negate := by
  have hneeds : p.negate.needs db = p.needs db := p.needs_negate
  refine ⟨by rw [hneeds]; exact hp.joins, by rw [hneeds]; exact hp.grounds, fun a b hab => ?_⟩
  rw [hneeds] at hab
  have hsees : p.truth db a = p.truth db b := hp.sees a b hab
  show p.negate.truth db a = p.negate.truth db b
  rw [Predicate.truth_negate, Predicate.truth_negate]
  exact congrArg Truth.not hsees

/-- A test of an expression fits where the expression is seen. -/
theorem fits_of_tests {expr : Expr} (hexpr : S.Sees fun row => expr.value db row)
    (hp : p.Tests db expr) : S.Fits db p := by
  have hneeds : p.needs db = [] := by rw [Predicate.needs, hp.joinless, List.map_nil]
  refine ⟨fun join hjoin => ?_, by rw [hneeds]; trivial, fun a b hab => ?_⟩
  · rw [hneeds] at hjoin
    exact absurd hjoin List.not_mem_nil
  · exact hp.truth a b (hexpr a b hab.of_past)

end Sight

/-- Where rows are seen as they are, everything is seen. -/
theorem Sight.sees_of_whole {α : Type} {S : Sight} (h : S.hidden = none) (f : Env → α) :
    S.Sees f := by
  intro a b hab
  obtain ⟨-, hab⟩ := hab
  rw [h] at hab
  exact congrArg f hab

/-! ## Entries -/

/-- What is seen behind an entry. Where rows are seen as they are, a relation without joins needs to
keep to nothing. -/
inductive Entry.Leads (db : Database) (S : Sight) : Entry → Sight → Prop where
  | row : Leads db S .row S
  | inside {base : Select} (whole : S.hidden = none) : Leads db S (.related base) (.inside base)
  | related {base : Select} {joins : Set Join} (rows : S.Admits db base joins) :
      Leads db S (.related base) (S.within db base joins)
  | joined {join : Join} {always : Bool} (mem : join ∈ S.joins)
      (picks : S.Sees (join.picks db)) : Leads db S (.joined join always) (S.past [join])

namespace Entry

variable {S T : Sight} {p q : Predicate} {a b : Env} {entry : Entry}

/-- A predicate on related rows asks whether there are any. -/
theorem enclose_related (base : Select) (h : p ≠ .never) :
    (Entry.related base).enclose p = .condition (.exists (base.restrict p) false) := by
  cases p with
  | always =>
      obtain ⟨_, _, _, filter, _, _, _, _, _, _⟩ := base
      cases filter <;> rfl
  | never => exact absurd rfl h
  | condition c => rfl

/-- What never holds on the other side of an entry never holds on this side. -/
theorem enclose_never (entry : Entry) : entry.enclose .never = .never := by
  cases entry <;> rfl

/-- What never holds behind some entries never holds before them. -/
theorem foldr_enclose_never (entries : List Entry) :
    entries.foldr Entry.enclose .never = .never := by
  induction entries with
  | nil => rfl
  | cons entry rest ih => rw [List.foldr_cons, ih, enclose_never]

/-- A predicate that fits behind an entry, taken back through it, fits before the entry. -/
theorem Leads.fits (h : entry.Leads db S T) (hp : T.Fits db p) : S.Fits db (entry.enclose p) := by
  cases h with
  | row => exact hp
  | @inside base hwhole =>
      by_cases hnever : p = .never
      · rw [hnever]
        exact Sight.fits_never
      · rw [enclose_related base hnever]
        exact ⟨nofun, trivial, (Sight.sees_of_whole hwhole _).past _⟩
  | @related base joins hbase =>
      by_cases hnever : p = .never
      · rw [hnever]
        exact Sight.fits_never
      · rw [enclose_related base hnever]
        refine ⟨nofun, trivial, fun a b hab => ?_⟩
        exact congrArg (fun empty => Truth.ofBool (empty == false))
          (hp.exists hbase a b hab.of_past)
  | @joined join always mem picks =>
      cases p with
      | never => exact Sight.fits_never
      | always =>
          cases always with
          | true => exact Sight.fits_always
          | false =>
              refine ⟨?_, ⟨picks, trivial⟩, fun _ _ _ => rfl⟩
              rintro _ (_ | ⟨_, ⟨⟩⟩)
              exact mem
      | condition c =>
          refine ⟨?_, ⟨picks, hp.grounds⟩, fun a b hab => ?_⟩
          · rintro other (_ | ⟨_, hother⟩)
            · exact mem
            · exact hp.joins other hother
          · have hneeds : (Predicate.condition (.joined join c)).needs db =
                join :: (Predicate.condition c).needs db := rfl
            refine hp.sees a b ?_
            have hab : (S.past (join :: (Predicate.condition c).needs db)).Agree a b := hab
            rwa [Sight.past_cons] at hab

/-- What is seen behind some entries, from the outside in. -/
inductive LeadAll (db : Database) : Sight → List Entry → Sight → Prop where
  | nil {S : Sight} : LeadAll db S [] S
  | cons {S T U : Sight} {entry : Entry} {rest : List Entry} (first : entry.Leads db S T)
      (behind : LeadAll db T rest U) : LeadAll db S (entry :: rest) U

/-- A predicate that fits behind some entries, taken back through them, fits before them. -/
theorem LeadAll.fits {entries : List Entry} (h : LeadAll db S entries T) (hp : T.Fits db p) :
    S.Fits db (entries.foldr Entry.enclose p) := by
  induction h with
  | nil => exact hp
  | cons first _ ih => exact first.fits (ih hp)

end Entry

/-! ## Schemas -/

mutual

/-- A field keeps to what is seen where it stands, and the fields below it do. The fields of a
relation see what is seen within its rows, those of a join see its table as well. Fields with a
compiler of their own are not among them. -/
inductive FieldDefinition.Orderly (db : Database) : Sight → FieldDefinition → Prop where
  | column {S : Sight} {c : FilterColumn} {below : Option Schema}
      (value : S.Sees fun row => c.expr.value db row)
      (fields : ∀ schema, below = some schema → Schema.Orderly db S schema) :
      FieldDefinition.Orderly db S (.column c below)
  | nested {S : Sight} {schema : Schema} (fields : Schema.Orderly db S schema) :
      FieldDefinition.Orderly db S (.nested schema)
  | related {S T : Sight} {base : Select} {schema : Schema}
      (entry : Entry.Leads db S (.related base) T) (fields : Schema.Orderly db T schema) :
      FieldDefinition.Orderly db S (.related base schema)
  | joined {S T : Sight} {join : Join} {schema : Schema} {always : Bool}
      (entry : Entry.Leads db S (.joined join always) T) (fields : Schema.Orderly db T schema) :
      FieldDefinition.Orderly db S (.joined join schema always)
  | wildcard {S : Sight} {column : String → FilterColumn} {below : Option (String → Schema)}
      (values : ∀ key, S.Sees fun row => (column key).expr.value db row)
      (fields : ∀ schema key, below = some schema → Schema.Orderly db S (schema key)) :
      FieldDefinition.Orderly db S (.wildcard column below)

/-- Every field keeps to what is seen. -/
inductive Schema.Orderly (db : Database) : Sight → Schema → Prop where
  | intro {S : Sight} {schema : Schema}
      (each : ∀ name field, schema.get? name = some field → field.Orderly db S) :
      Schema.Orderly db S schema

end

/-- The fields that are visible at a place keep to what is seen. -/
inductive Fields.Orderly (db : Database) (S : Sight) : Fields → Prop where
  | none : Fields.Orderly db S .none
  | schema {schema : Schema} (fields : schema.Orderly db S) : Fields.Orderly db S (.schema schema)
  | wildcard {column : String → FilterColumn} {below : Option (String → Schema)}
      (values : ∀ key, S.Sees fun row => (column key).expr.value db row)
      (fields : ∀ schema key, below = some schema → (schema key).Orderly db S) :
      Fields.Orderly db S (.wildcard column below)

/-- The fields and the column of a place keep to what is seen. -/
structure Scope.Orderly (db : Database) (S : Sight) (s : Scope) : Prop where
  fields : s.fields.Orderly db S
  column : ∀ c, s.column = some c → S.Sees fun row => c.expr.value db row

/-- A name leads to a place that keeps to what is seen there. -/
structure Target.Orderly (db : Database) (S : Sight) (target : Target) : Prop where
  leads : ∃ T U entry s, Entry.LeadAll db S target.passed T ∧ target.landing = .scope entry s ∧
    entry.Leads db T U ∧ s.Orderly db U

section Names

variable {S : Sight} {s : Scope} {target : Target}

/-- Optional fields keep to what is seen if they do where they are there. -/
theorem Fields.orderly_ofOption {below : Option Schema}
    (fields : ∀ schema, below = some schema → schema.Orderly db S) :
    (Fields.ofOption below).Orderly db S := by
  cases below with
  | none => exact .none
  | some schema => exact .schema (fields schema rfl)

/-- The step into a field leads to a place that keeps to what is seen there. -/
theorem FieldDefinition.Orderly.step {field : FieldDefinition} (h : field.Orderly db S)
    (path : FieldPath) :
    ∃ T entry s, field.step path = .into entry s ∧ entry.Leads db S T ∧ s.Orderly db T := by
  cases h with
  | column value fields =>
      refine ⟨_, _, _, rfl, .row, Fields.orderly_ofOption fields, ?_⟩
      rintro _ ⟨⟩
      exact value
  | nested fields => exact ⟨_, _, _, rfl, .row, .schema fields, nofun⟩
  | related entry fields => exact ⟨_, _, _, rfl, entry, .schema fields, nofun⟩
  | joined entry fields => exact ⟨_, _, _, rfl, entry, .schema fields, nofun⟩
  | wildcard values fields => exact ⟨_, _, _, rfl, .row, .wildcard values fields, nofun⟩

/-- A field that keeps to what is seen does so as the end of a name. -/
theorem FieldDefinition.Orderly.land {field : FieldDefinition} (h : field.Orderly db S)
    (path : FieldPath) : (field.step path).land.Orderly db S := by
  obtain ⟨T, entry, s, hstep, hentry, hs⟩ := h.step path
  rw [hstep]
  exact ⟨S, T, entry, s, .nil, rfl, hentry, hs⟩

/-- The first step of a name leads to a place that keeps to what is seen there. -/
theorem Scope.Orderly.first (hs : s.Orderly db S) {head : String} {step : Step}
    (h : s.first head = some step) :
    ∃ T entry inner, step = .into entry inner ∧ entry.Leads db S T ∧ inner.Orderly db T := by
  obtain ⟨fields, column, path⟩ := s
  obtain ⟨hfields, -⟩ := hs
  cases hfields with
  | none => cases h
  | schema hschema =>
      obtain ⟨each⟩ := hschema
      obtain ⟨field, hfield, rfl⟩ := Option.map_eq_some_iff.1 h
      exact (each head field hfield).step _
  | wildcard values fields =>
      cases h
      refine ⟨_, _, _, rfl, .row, Fields.orderly_ofOption fun schema hschema => ?_, ?_⟩
      · obtain ⟨below, hbelow, rfl⟩ := Option.map_eq_some_iff.1 hschema
        exact fields below head hbelow
      · rintro _ ⟨⟩
        exact values head

/-- The segments of a name lead to a place that keeps to what is seen there. -/
theorem Scope.Orderly.resolve (hs : s.Orderly db S) {head : String} {rest : List String}
    (h : s.resolve head rest = .ok target) : target.Orderly db S := by
  induction rest generalizing s S head target with
  | nil =>
      obtain ⟨step, hstep, rfl⟩ := Scope.resolve_nil h
      obtain ⟨T, entry, inner, rfl, hentry, hinner⟩ := hs.first hstep
      exact ⟨S, T, entry, inner, .nil, rfl, hentry, hinner⟩
  | cons next rest ih =>
      rcases Scope.resolve_cons h with ⟨field, hfield, rfl⟩ | ⟨-, hcustom | hinto⟩
      · obtain ⟨hfields, -⟩ := hs
        generalize s.fields = fields at hfields hfield
        cases hfields with
        | none => cases hfield
        | wildcard => cases hfield
        | schema hschema =>
            obtain ⟨each⟩ := hschema
            exact (each _ field hfield).land _
      · obtain ⟨compile, path, hfirst, -⟩ := hcustom
        obtain ⟨T, entry, inner, hinto, -, -⟩ := hs.first hfirst
        cases hinto
      · obtain ⟨entry, inner, behind, hfirst, hbehind, rfl⟩ := hinto
        obtain ⟨T, entry', inner', hinto, hentry, hinner⟩ := hs.first hfirst
        cases hinto
        obtain ⟨U, V, last, place, hpassed, hlanding, hlast, hplace⟩ := ih hinner hbehind
        exact ⟨U, V, last, place, .cons hentry hpassed, hlanding, hlast, hplace⟩

/-- A name leads to a place that keeps to what is seen there. -/
theorem Scope.Orderly.follow (hs : s.Orderly db S) {name : String}
    (h : s.follow name = .ok target) : target.Orderly db S := by
  unfold Scope.follow at h
  split at h
  · exact hs.resolve h
  · exact hs.resolve h

end Names

/-! ## Filters -/

namespace Filter

variable {limits : Limits} {now : Instant}

mutual

/-- The predicate of a filter fits the place that it is compiled for. -/
theorem compileAt_fits (filter : Filter) {S T : Sight} {s : Scope} {entry : Entry} {above : Nat}
    {p : Predicate} (hentry : entry.Leads db S T) (hs : s.Orderly db T)
    (h : compileAt limits now s entry above filter = .ok p) : S.Fits db p := by
  match filter with
  | .all filters =>
      obtain ⟨q, hq, rfl⟩ := compileAt_all h
      exact hentry.fits (compileAll_fits filters hs Sight.fits_always hq)
  | .any filters =>
      obtain ⟨q, hq, rfl⟩ := compileAt_any h
      exact hentry.fits (compileAny_fits filters hs Sight.fits_never hq)
  | .not filter =>
      rcases compileAt_not h with ⟨base, q, -, hq, rfl⟩ | ⟨q, -, hq, rfl⟩
      · exact (compileAt_fits filter hentry hs hq).negate
      · exact hentry.fits (compileAt_fits filter .row hs hq).negate
  | .field name filter =>
      obtain ⟨target, q, htarget, hq, rfl⟩ := compileAt_field h
      obtain ⟨U, V, through, inner, hpassed, hlanding, hthrough, hinner⟩ := hs.follow htarget
      rw [hlanding, compileLanding] at hq
      exact hentry.fits (hpassed.fits (compileAt_fits filter hthrough hinner hq))
  | .compare op operand =>
      obtain ⟨c, q, hc, hq, rfl⟩ := compileAt_compare h
      exact hentry.fits (Sight.fits_of_tests (hs.column c hc) (FilterColumn.tests_compare hq))
  | .oneOf operands =>
      obtain ⟨c, q, hc, hq, rfl⟩ := compileAt_oneOf h
      exact hentry.fits (Sight.fits_of_tests (hs.column c hc) (FilterColumn.tests_oneOf hq))
  | .contains needle =>
      obtain ⟨c, q, hc, hq, rfl⟩ := compileAt_contains h
      exact hentry.fits (Sight.fits_of_tests (hs.column c hc) (FilterColumn.tests_contains hq))
  | .elemMatch filter =>
      obtain ⟨-, q, hq, rfl⟩ := compileAt_elemMatch h
      exact hentry.fits (compileAt_fits filter .row hs hq)
  | .marker => exact absurd h compileAt_marker
termination_by structural filter

/-- The conjunction of some compiled filters fits the place if it fits so far. -/
theorem compileAll_fits (filters : List Filter) {T : Sight} {s : Scope} {above : Nat}
    {p q : Predicate} (hs : s.Orderly db T) (hp : T.Fits db p)
    (h : compileAll limits now s above p filters = .ok q) : T.Fits db q := by
  match filters with
  | [] =>
      cases h
      exact hp
  | filter :: rest =>
      obtain ⟨r, hr, h⟩ := compileAll_cons h
      rcases h with ⟨-, rfl⟩ | ⟨-, h⟩
      · exact Sight.fits_never
      · exact compileAll_fits rest hs (hp.and (compileAt_fits filter .row hs hr)) h
termination_by structural filters

/-- The disjunction of some compiled filters fits the place if it fits so far. -/
theorem compileAny_fits (filters : List Filter) {T : Sight} {s : Scope} {above : Nat}
    {p q : Predicate} (hs : s.Orderly db T) (hp : T.Fits db p)
    (h : compileAny limits now s above p filters = .ok q) : T.Fits db q := by
  match filters with
  | [] =>
      cases h
      exact hp
  | filter :: rest =>
      obtain ⟨r, hr, h⟩ := compileAny_cons h
      rcases h with ⟨-, rfl⟩ | ⟨-, h⟩
      · exact Sight.fits_always
      · exact compileAny_fits rest hs (hp.or (compileAt_fits filter .row hs hr)) h
termination_by structural filters

end

end Filter

end FilterSql
