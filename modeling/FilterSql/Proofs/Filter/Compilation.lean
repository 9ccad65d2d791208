import FilterSql.Proofs.Filter.Decision
import FilterSql.Proofs.Filter.Steps

/-!
# Compiled filters mean what they say

`Filter.compile_sound` relates a filter that is compiled to the rows that match it: on every row the
predicate is known, and it holds on the rows that `Filter.Holds`. The proof follows the filter, and
beside it the field on which each part of the filter stands; `Scope.resolve_target` is the step from
one field to another along a name.

The base of a relation must not count or add up. Such a statement gives a row whatever it matches,
also without a list of groups, so `EXISTS` holds of it on a row to which nothing is related
(`Filter.compile_holds_counted`).
-/

namespace FilterSql

variable {db : Database} {row : Env}

/-! ## Fields and places -/

/-- Rows are reached through two lists of relations by way of the rows between them. -/
theorem Database.mem_through_append {last : Env} {as bs : List Select} :
    last ∈ db.through row (as ++ bs) ↔
      ∃ mid ∈ db.through row as, last ∈ db.through mid bs := by
  induction as generalizing row with
  | nil => simp [through]
  | cons a as ih =>
      simp only [List.cons_append, through, List.mem_flatMap, ih]
      grind

namespace FieldDefinition

variable {field : FieldDefinition} {entry : Entry} {s : Scope} {path : FieldPath}

/-- The rows of a field are reached through the relation that it crosses, if it is one. -/
theorem rows_eq_through : field.rows db row = db.through row field.crossed := by
  cases field <;> simp [rows, crossed, Database.through]

/-- A place is entered in a row, or in the rows of the relation that the field is. -/
theorem IsRelational.entered (hfield : field.IsRelational)
    (hstep : field.step path = .into entry s) :
    (entry = .row ∧ field.inside = field ∧ field.crossed = []) ∨
      ∃ base schema, field = .related base schema ∧ entry = .related base := by
  cases hfield with
  | column => cases hstep; exact Or.inl ⟨rfl, rfl, rfl⟩
  | nested => cases hstep; exact Or.inl ⟨rfl, rfl, rfl⟩
  | related => cases hstep; exact Or.inr ⟨_, _, rfl, rfl⟩

/-- Every field of a relational schema can be entered. -/
theorem IsRelational.exists_step (hfield : field.IsRelational) (path : FieldPath) :
    ∃ entry s, field.step path = .into entry s ∧ s.path = path := by
  cases hfield <;> exact ⟨_, _, rfl, rfl⟩

/-- Behind a relation there are relational fields. -/
theorem IsRelational.inside (hfield : field.IsRelational) : field.inside.IsRelational := by
  cases hfield with
  | column kind fields => exact .column kind fields
  | nested fields => exact .nested fields
  | related _ fields => exact .nested fields

/-- Once entered, the place is one in the row itself. -/
theorem IsRelational.step_inside (hfield : field.IsRelational)
    (hstep : field.step path = .into entry s) : field.inside.step path = .into .row s := by
  cases hfield <;> cases hstep <;> rfl

/-- The step into a field leads to the fields below it. -/
theorem IsRelational.fields_step (hfield : field.IsRelational)
    (hstep : field.step path = .into entry s) : s.fields = .ofOption field.fields := by
  cases hfield <;> cases hstep <;> rfl

/-- A predicate behind a field is taken back through the relation that the field crosses. -/
theorem IsRelational.enclose (hfield : field.IsRelational)
    (hstep : field.step path = .into entry s) (p : Predicate) :
    entry.enclose p = field.crossed.foldr (fun base => (Entry.related base).enclose) p := by
  cases hfield <;> cases hstep <;> rfl

/-- The relation that a field crosses is plain. -/
theorem IsRelational.plain (hfield : field.IsRelational) :
    ∀ base ∈ field.crossed, base.IsPlain := by
  cases hfield with
  | column => simp [crossed]
  | nested => simp [crossed]
  | related plain => simpa [crossed] using plain

/-- The fields below a relational field are relational. -/
theorem IsRelational.of_fields {schema : Schema} (hfield : field.IsRelational)
    (h : field.fields = some schema) : schema.IsRelational := by
  cases hfield with
  | column _ fields => exact fields schema h
  | nested fields => cases h; exact fields
  | related _ fields => cases h; exact fields

/-- A place with a column is that of a field that is this column. -/
theorem IsRelational.tested (hfield : field.IsRelational)
    (hstep : field.step path = .into entry s) {c : FilterColumn} (h : s.column = some c) :
    ∃ below, field = .column c below ∧ entry = .row := by
  cases hfield <;> cases hstep <;> cases h
  exact ⟨_, rfl, rfl⟩

/-- On the rows of a field the columns that are never `NULL` are not. -/
theorem KeepsNotNull.inside (hrow : field.KeepsNotNull db row) :
    ∀ inner ∈ field.rows db row, field.inside.KeepsNotNull db inner := by
  cases hrow with
  | column value fields =>
      simpa [rows, FieldDefinition.inside] using KeepsNotNull.column value fields
  | nested fields => simpa [rows, FieldDefinition.inside] using KeepsNotNull.nested fields
  | related fields => exact fun inner hinner => .nested (fields inner hinner)

/-- What a field keeps, the fields below it keep. -/
theorem KeepsNotNull.of_fields {schema : Schema} (hrow : field.inside.KeepsNotNull db row)
    (h : field.fields = some schema) : schema.KeepsNotNull db row := by
  cases field <;> cases hrow
  case column.column fields => exact fields schema h
  case nested.nested fields => cases h; exact fields
  case related.nested fields => cases h; exact fields

/-- A column that is declared never to be `NULL` is not. -/
theorem KeepsNotNull.notNull {c : FilterColumn} {below : Option Schema}
    (hrow : (FieldDefinition.column c below).KeepsNotNull db row) (h : c.nullable = false) :
    (c.expr.value db row).isNull = false := by
  cases hrow with
  | column value => exact value h

end FieldDefinition

namespace Schema

variable {s : Schema} {segments : List String} {crossed : List Select} {target : FieldDefinition}

/-- The field of a name is one of those that the schema lists. -/
theorem get?_mem {name : String} {field : FieldDefinition} (h : s.get? name = some field) :
    (name, field) ∈ s.fields :=
  mem_of_find?_name h

/-- A name leads to a field of its own or on from the field of its first segment. -/
theorem target?_cons {head : String} {rest : List String}
    (h : s.target? (head :: rest) = some (crossed, target)) :
    (crossed = [] ∧ ∃ name, s.get? name = some target) ∨
      ∃ field fields behind, s.get? head = some field ∧ field.fields = some fields ∧
        fields.target? rest = some (behind, target) ∧ crossed = field.crossed ++ behind := by
  unfold target? at h
  split at h
  next hget =>
    cases h
    exact Or.inl ⟨rfl, _, hget⟩
  next =>
    simp only [Option.bind_eq_bind, Option.bind_eq_some_iff, Option.pure_def, Option.some.injEq,
      Prod.mk.injEq] at h
    obtain ⟨field, hget, fields, hfields, ⟨behind, _⟩, hrest, rfl, rfl⟩ := h
    exact Or.inr ⟨field, fields, behind, hget, hfields, hrest, rfl⟩

/-- A name leads to a relational field, through plain relations. -/
theorem IsRelational.of_target (hs : s.IsRelational)
    (h : s.target? segments = some (crossed, target)) :
    target.IsRelational ∧ ∀ base ∈ crossed, base.IsPlain := by
  induction segments generalizing s crossed with
  | nil => cases h
  | cons head rest ih =>
      obtain ⟨each⟩ := hs
      rcases target?_cons h with
        ⟨rfl, name, hget⟩ | ⟨field, fields, behind, hget, hfields, hrest, rfl⟩
      · exact ⟨each name target hget, by simp⟩
      · have hfield := each head field hget
        obtain ⟨htarget, hplain⟩ := ih (hfield.of_fields hfields) hrest
        refine ⟨htarget, fun base hbase => ?_⟩
        rcases List.mem_append.1 hbase with hbase | hbase
        · exact hfield.plain base hbase
        · exact hplain base hbase

/-- On the rows that a name leads to, the columns that are never `NULL` are not. -/
theorem KeepsNotNull.of_target (hrow : s.KeepsNotNull db row)
    (h : s.target? segments = some (crossed, target)) :
    ∀ last ∈ db.through row crossed, target.KeepsNotNull db last := by
  induction segments generalizing s row crossed with
  | nil => cases h
  | cons head rest ih =>
      obtain ⟨each⟩ := hrow
      rcases target?_cons h with
        ⟨rfl, name, hget⟩ | ⟨field, fields, behind, hget, hfields, hrest, rfl⟩
      · simpa [Database.through] using each name target hget
      · intro last hlast
        obtain ⟨mid, hmid, hlast⟩ := Database.mem_through_append.1 hlast
        rw [← FieldDefinition.rows_eq_through] at hmid
        have hinside := (each head field hget).inside mid hmid
        exact ih (hinside.of_fields hfields) hrest last hlast

end Schema

/-! ## Names -/

namespace Scope

variable {s : Scope} {field : FieldDefinition} {entry : Entry}

/-- What following a name gives agrees with where the name leads. -/
structure Reaches (fields : Schema) (segments : List String) (target : Target)
    (crossed : List Select) (field : FieldDefinition) (entry : Entry) (s : Scope) : Prop where
  leads : fields.target? segments = some (crossed, field)
  landing : target.landing = .scope entry s
  step : field.step s.path = .into entry s
  passed : ∀ p, target.passed.foldr Entry.enclose p =
    crossed.foldr (fun base => (Entry.related base).enclose) p

/-- A field of the whole name is the place that the name leads to. -/
theorem reaches_land {fields : Schema} {segments : List String} {target : FieldDefinition}
    (htarget : target.IsRelational) (hname : segments ≠ [])
    (hget : fields.get? (Text.join "." segments) = some target) (path : FieldPath) :
    ∃ entry s, Reaches fields segments (target.step path).land [] target entry s := by
  obtain ⟨entry, s, hstep, hpath⟩ := htarget.exists_step path
  refine ⟨entry, s, ?_, by rw [hstep]; rfl, by rw [hpath, hstep], by rw [hstep]; exact fun _ => rfl⟩
  cases segments with
  | nil => exact absurd rfl hname
  | cons head rest => simp only [Schema.target?, hget]

/-- A name can be followed only from a field with fields of its own. -/
theorem fields_of_resolve {head : String} {rest : List String} {target : Target}
    (hfield : field.IsRelational) (hstep : field.step s.path = .into entry s)
    (h : s.resolve head rest = .ok target) :
    ∃ fields, field.fields = some fields ∧ s.fields = .schema fields := by
  have hsfields := hfield.fields_step hstep
  cases hfields : field.fields with
  | none =>
      simp only [hfields, Fields.ofOption] at hsfields
      cases rest <;> simp [resolve, first, hsfields, Fields.get?] at h
  | some fields => exact ⟨fields, rfl, by rw [hsfields, hfields]; rfl⟩

/-- Following a name from a field leads to the field that the name leads to. -/
theorem resolve_target {head : String} {rest : List String} {target : Target}
    (hfield : field.IsRelational) (hstep : field.step s.path = .into entry s)
    (h : s.resolve head rest = .ok target) :
    ∃ fields crossed field' entry' s', field.fields = some fields ∧
      Reaches fields (head :: rest) target crossed field' entry' s' := by
  induction rest generalizing s field entry head target with
  | nil =>
      obtain ⟨fields, hfields, hsfields⟩ := fields_of_resolve hfield hstep h
      obtain ⟨each⟩ := hfield.of_fields hfields
      simp only [resolve, first, hsfields] at h
      cases hget : fields.get? head with
      | none => simp [hget] at h
      | some definition =>
          simp only [hget, Option.map_some, Except.ok.injEq] at h
          obtain ⟨entry', s', hreaches⟩ :=
            reaches_land (each head definition hget) (List.cons_ne_nil head []) hget _
          exact ⟨fields, _, _, entry', s', hfields, h ▸ hreaches⟩
  | cons next rest ih =>
      obtain ⟨fields, hfields, hsfields⟩ := fields_of_resolve hfield hstep h
      obtain ⟨each⟩ := hfield.of_fields hfields
      simp only [resolve, first, hsfields, Fields.get?] at h
      -- a field with the whole rest of the name hides what the first segment would lead to
      cases hwhole : fields.get? (Text.join "." (head :: next :: rest)) with
      | some definition =>
          simp only [hwhole, Except.ok.injEq] at h
          obtain ⟨entry', s', hreaches⟩ :=
            reaches_land (each _ definition hwhole) (List.cons_ne_nil head _) hwhole _
          exact ⟨fields, _, _, entry', s', hfields, h ▸ hreaches⟩
      | none =>
          cases hget : fields.get? head with
          | none => simp [hwhole, hget] at h
          | some definition =>
              have hdefinition := each head definition hget
              obtain ⟨through, inner, hinto, hpath⟩ := hdefinition.exists_step (s.path.child head)
              simp only [hwhole, hget, Option.map_some, hinto, map_eq_ok] at h
              obtain ⟨behind, hbehind, rfl⟩ := h
              obtain ⟨below, crossed, field', entry', s', hbelow, hreaches⟩ :=
                ih hdefinition (hpath ▸ hinto) hbehind
              refine ⟨fields, definition.crossed ++ crossed, field', entry', s', hfields, ?_⟩
              refine ⟨?_, hreaches.landing, hreaches.step, fun p => ?_⟩
              · rw [Schema.target?, hwhole]
                simp [hget, hbelow, hreaches.leads]
              · rw [List.foldr_cons, hreaches.passed, hdefinition.enclose hinto,
                  List.foldr_append]

/-- Where a name can be followed, it leads to a field of the schema. -/
theorem follow_target {name : String} {target : Target} (hfield : field.IsRelational)
    (hstep : field.step s.path = .into entry s) (h : s.follow name = .ok target) :
    ∃ fields crossed field' entry' s', field.fields = some fields ∧
      Reaches fields (Filter.segments name) target crossed field' entry' s' := by
  obtain ⟨head, rest, hname, h⟩ := exists_segments h
  rw [hname]
  exact resolve_target hfield hstep h

end Scope

/-! ## Filters -/

namespace Filter

variable {limits : Limits} {now : Instant}

/-- A predicate that decides a property of related rows decides, taken back, whether there is such a
row. -/
theorem Decides.enclose {field : FieldDefinition} {entry : Entry} {s : Scope} {p : Predicate}
    {P : Env → Prop} (hfield : field.IsRelational) (hstep : field.step s.path = .into entry s)
    (hp : p.Decides db (field.inside.KeepsNotNull db) P) :
    (entry.enclose p).Decides db (field.KeepsNotNull db)
      fun row => ∃ inner ∈ field.rows db row, P inner := by
  rw [hfield.enclose hstep]
  refine (Predicate.Decides.through hfield.plain hp ?_).congr ?_
  · intro row hrow
    rw [← FieldDefinition.rows_eq_through]
    exact hrow.inside
  · intro row _
    rw [← FieldDefinition.rows_eq_through]

mutual

/-- The predicate of a filter decides whether the filter holds, at every place. -/
theorem compileAt_decides (hlower : ∀ s, db.lower s = Text.lower s) (filter : Filter)
    {field : FieldDefinition} {entry : Entry} {s : Scope} {above : Nat} {p : Predicate}
    (hfield : field.IsRelational) (hstep : field.step s.path = .into entry s)
    (hguard : filter.Guarded field) (h : compileAt limits now s entry above filter = .ok p) :
    p.Decides db (field.KeepsNotNull db) fun row => filter.Holds db now row field := by
  match filter with
  | .all filters =>
      obtain ⟨q, hq, rfl⟩ := compileAt_all h
      refine Decides.enclose hfield hstep ?_
      refine (compileAll_decides hlower filters hfield.inside (hfield.step_inside hstep) hguard
        .always hq).congr ?_
      simp
  | .any filters =>
      obtain ⟨q, hq, rfl⟩ := compileAt_any h
      refine Decides.enclose hfield hstep ?_
      refine (compileAny_decides hlower filters hfield.inside (hfield.step_inside hstep) hguard
        .never hq).congr ?_
      simp
  | .not filter =>
      -- a relation is negated as a whole, every other field within the row
      rcases compileAt_not h with ⟨base, q, rfl, hq, rfl⟩ | ⟨q, hrow, hq, rfl⟩
      · exact (compileAt_decides hlower filter hfield hstep hguard hq).negate
      · rcases hfield.entered hstep with ⟨rfl, -, -⟩ | ⟨base, schema, -, rfl⟩
        · exact (compileAt_decides hlower filter hfield hstep hguard hq).negate
        · exact absurd rfl (hrow base)
  | .field name filter =>
      obtain ⟨target, q, htarget, hq, rfl⟩ := compileAt_field h
      obtain ⟨fields, crossed, inner, entry', s', hfields, hreaches⟩ :=
        Scope.follow_target hfield hstep htarget
      obtain ⟨hinner, hplain⟩ := (hfield.of_fields hfields).of_target hreaches.leads
      rw [hreaches.landing, compileLanding] at hq
      have hdecides := compileAt_decides hlower filter hinner hreaches.step
        (hguard fields crossed inner hfields hreaches.leads) hq
      refine Decides.enclose hfield hstep ?_
      rw [hreaches.passed]
      refine (Predicate.Decides.through hplain hdecides ?_).congr ?_
      · intro row hrow
        exact (hrow.of_fields hfields).of_target hreaches.leads
      · intro row _
        simp [hfields, hreaches.leads]
  | .compare op operand =>
      obtain ⟨c, q, hc, hq, rfl⟩ := compileAt_compare h
      obtain ⟨below, rfl, rfl⟩ := hfield.tested hstep hc
      cases hfield with
      | column hkind =>
          exact FilterColumn.decides_compare hlower hkind (fun row hrow => hrow.notNull) hq
  | .oneOf operands =>
      obtain ⟨c, q, hc, hq, rfl⟩ := compileAt_oneOf h
      obtain ⟨below, rfl, rfl⟩ := hfield.tested hstep hc
      cases hfield with
      | column hkind =>
          exact FilterColumn.decides_oneOf hlower hkind (fun row hrow => hrow.notNull)
            (hguard.imp_right fun hnullable => hnullable c below rfl) hq
  | .contains needle =>
      obtain ⟨c, q, hc, hq, rfl⟩ := compileAt_contains h
      obtain ⟨below, rfl, rfl⟩ := hfield.tested hstep hc
      cases hfield with
      | column hkind =>
          exact FilterColumn.decides_contains hlower hkind
            (fun row hrow => hrow.notNull (hguard c below rfl)) hq
  | .elemMatch filter =>
      obtain ⟨hrow, q, hq, rfl⟩ := compileAt_elemMatch h
      rcases hfield.entered hstep with ⟨hentry, -, -⟩ | ⟨base, schema, rfl, -⟩
      · exact absurd hentry hrow
      · refine Decides.enclose hfield hstep ?_
        exact compileAt_decides hlower filter hfield.inside (hfield.step_inside hstep) hguard hq
  | .marker => exact absurd h compileAt_marker
termination_by structural filter

/-- The conjunction of some filters decides whether all of them hold. -/
theorem compileAll_decides (hlower : ∀ s, db.lower s = Text.lower s) (filters : List Filter)
    {field : FieldDefinition} {s : Scope} {above : Nat} {p q : Predicate} {Q : Env → Prop}
    (hfield : field.IsRelational) (hstep : field.step s.path = .into .row s)
    (hguard : AllGuarded field filters) (hq : q.Decides db (field.KeepsNotNull db) Q)
    (h : compileAll limits now s above q filters = .ok p) :
    p.Decides db (field.KeepsNotNull db) fun row => Q row ∧ AllHold db now row field filters := by
  match filters with
  | [] =>
      cases h
      exact hq.congr fun row _ => (and_iff_left trivial).symm
  | filter :: rest =>
      obtain ⟨r, hr, h⟩ := compileAll_cons h
      have hboth := hq.and (compileAt_decides hlower filter hfield hstep hguard.1 hr)
      rcases h with ⟨hnever, rfl⟩ | ⟨-, h⟩
      · refine Predicate.Decides.never.congr fun row hrow => iff_of_false not_false ?_
        rintro ⟨hQ, hfilter, -⟩
        exact (hnever ▸ hboth).outcome row hrow ⟨hQ, hfilter⟩
      · exact (compileAll_decides hlower rest hfield hstep hguard.2 hboth h).congr fun row _ =>
          and_assoc
termination_by structural filters

/-- The disjunction of some filters decides whether one of them holds. -/
theorem compileAny_decides (hlower : ∀ s, db.lower s = Text.lower s) (filters : List Filter)
    {field : FieldDefinition} {s : Scope} {above : Nat} {p q : Predicate} {Q : Env → Prop}
    (hfield : field.IsRelational) (hstep : field.step s.path = .into .row s)
    (hguard : AllGuarded field filters) (hq : q.Decides db (field.KeepsNotNull db) Q)
    (h : compileAny limits now s above q filters = .ok p) :
    p.Decides db (field.KeepsNotNull db) fun row => Q row ∨ AnyHolds db now row field filters := by
  match filters with
  | [] =>
      cases h
      exact hq.congr fun row _ => (or_iff_left not_false).symm
  | filter :: rest =>
      obtain ⟨r, hr, h⟩ := compileAny_cons h
      have heither := hq.or (compileAt_decides hlower filter hfield hstep hguard.1 hr)
      rcases h with ⟨halways, rfl⟩ | ⟨-, h⟩
      · refine Predicate.Decides.always.congr fun row hrow => iff_of_true trivial ?_
        exact or_assoc.1 (Or.inl ((halways ▸ heither).outcome row hrow))
      · exact (compileAny_decides hlower rest hfield hstep hguard.2 heither h).congr fun row _ =>
          or_assoc
termination_by structural filters

end

/-- On a schema of plain columns, groups of fields and relations, the predicate of a filter is known
on every row, and it holds on the rows that match the filter. -/
theorem compile_sound {schema : Schema} {filter : Filter} {p : Predicate}
    (hlower : ∀ s, db.lower s = Text.lower s) (hschema : schema.IsRelational)
    (hguard : filter.Guarded (.nested schema)) (hrow : schema.KeepsNotNull db row)
    (h : filter.compile limits now schema = .ok p) :
    p.truth db row ≠ .unknown ∧
      (p.truth db row = .holds ↔ filter.Holds db now row (.nested schema)) := by
  have hdecides : p.Decides db (FieldDefinition.KeepsNotNull db (.nested schema))
      fun row => filter.Holds db now row (.nested schema) :=
    compileAt_decides hlower filter (.nested hschema) rfl hguard h
  exact Truth.says_iff.1 (hdecides.outcome row (.nested hrow))

namespace Sample

/-- The pets of a person. -/
def pets : Select :=
  { Select.empty with
    source := some ⟨⟨"pets", .refl true⟩, none⟩
    filter := .condition (.compare (.column ⟨.own, ⟨"owner", .refl true⟩⟩) .eq
      (.column ⟨.enclosing, ⟨"id", .refl true⟩⟩)) }

/-- The name of a pet. -/
def petName : Expr := .column ⟨.own, ⟨"name", .refl true⟩⟩

/-- Persons with their pets. -/
def people : Schema :=
  .ofFields [("pets", .related pets (.ofFields
    [("name", .column (.ofExpr petName .string) none)]))]

/-- A person, and in a table of its own the one pet that there is. -/
def person : Env :=
  Env.top.onRow "people" fun name => if name = "id" then some (.int 1) else none

/-- One pet, which is called Tom and belongs to the person. -/
def database : Database :=
  .plain fun table =>
    if table = "pets" then
      [fun name => if name = "owner" then some (.int 1) else some (.string "Tom")]
    else []

/-- No pet has an `o` in its name. -/
def filter : Filter := .field "pets" (.not (.field "name" (.contains "O")))

/-- The predicate of this filter: there is no pet whose name is like the pattern. -/
def predicate : Predicate :=
  .condition (.exists (pets.restrictBy (.like (.lower petName) (.string "%o%") false)) true)

/-- The number of a person's pets. -/
def petCount : Select := pets.toCount none

/-- Persons with their pets, where the base of the relation counts them. -/
def countedPeople : Schema :=
  .ofFields [("pets", .related petCount (.ofFields
    [("name", .column (.ofExpr petName .string) none)]))]

/-- A person without pets. -/
def stranger : Env :=
  Env.top.onRow "people" fun name => if name = "id" then some (.int 2) else none

/-- A pet is called Tom. -/
def namedTom : Filter := .field "pets" (.field "name" (.compare .eq (.string "Tom")))

/-- The predicate of this filter: the count of the pets with this name has a row. -/
def tomCounted : Predicate :=
  .condition (.exists (petCount.restrictBy
    (.compare (.lower petName) .eq (.param (.string "tom")))) false)

/-- A person without pets has no related rows on which a column could be `NULL`. -/
theorem keepsNotNull_stranger : countedPeople.KeepsNotNull database stranger := by
  refine ⟨fun name field h => ?_⟩
  obtain ⟨-, rfl⟩ := Prod.mk.inj (List.mem_singleton.1 (Schema.get?_mem h))
  refine .related fun inner hinner => ?_
  have hnone : petCount.matched database stranger = [] := rfl
  rw [hnone] at hinner
  cases hinner

end Sample

open Sample in
/-- The filter asks for persons none of whose pets has an `o` in its name, and the person has a pet
that is called Tom. -/
theorem compile_sound_pets :
    people.IsRelational ∧ Sample.filter.Guarded (.nested people) ∧
      people.KeepsNotNull database person ∧
      Sample.filter.compile {} default people = .ok predicate ∧
      predicate.truth database person ≠ .unknown ∧
      (predicate.truth database person = .holds ↔
        Sample.filter.Holds database default person (.nested people)) := by
  have hschema : people.IsRelational := by
    refine ⟨fun name field h => ?_⟩
    obtain ⟨-, rfl⟩ := Prod.mk.inj (List.mem_singleton.1 (Schema.get?_mem h))
    refine .related ⟨rfl, rfl, rfl⟩ ⟨fun name field h => ?_⟩
    obtain ⟨-, rfl⟩ := Prod.mk.inj (List.mem_singleton.1 (Schema.get?_mem h))
    exact .column rfl (by simp)
  have hguard : Sample.filter.Guarded (.nested people) := by
    intro fields crossed target hfields htarget
    cases hfields
    cases (show some ([], .related pets _) = some (crossed, target) from htarget)
    intro fields crossed target hfields htarget c below hc
    cases hfields
    cases (show some ([], .column (.ofExpr petName .string) none) = some (crossed, target) from
      htarget)
    cases hc
    rfl
  have hrow : people.KeepsNotNull database person := by
    refine ⟨fun name field h => ?_⟩
    obtain ⟨-, rfl⟩ := Prod.mk.inj (List.mem_singleton.1 (Schema.get?_mem h))
    refine .related fun inner hinner => ⟨fun name field h => ?_⟩
    obtain ⟨-, rfl⟩ := Prod.mk.inj (List.mem_singleton.1 (Schema.get?_mem h))
    refine .column (fun _ => ?_) (by simp)
    obtain rfl := List.mem_singleton.1 (List.mem_of_mem_filter hinner)
    rfl
  have hcompile : Sample.filter.compile {} default people = .ok predicate := rfl
  exact ⟨hschema, hguard, hrow, hcompile,
    compile_sound (fun _ => rfl) hschema hguard hrow hcompile⟩

open Sample in
/-- Where the base of a relation counts, a filter on the relation holds on a person without pets: a
count without groups, conditions on them and cuts is a row also where it is 0. -/
theorem compile_holds_counted :
    (petCount.groupBy = [] ∧ petCount.having = none ∧ petCount.limit = none ∧
        petCount.offset = none) ∧
      (∀ s, database.lower s = Text.lower s) ∧ namedTom.Guarded (.nested countedPeople) ∧
      countedPeople.KeepsNotNull database stranger ∧
      namedTom.compile {} default countedPeople = .ok tomCounted ∧
      tomCounted.truth database stranger = .holds ∧
      ¬namedTom.Holds database default stranger (.nested countedPeople) := by
  have hguard : namedTom.Guarded (.nested countedPeople) :=
    fun _ _ _ _ _ _ _ _ _ _ => trivial
  have hmisses : ¬namedTom.Holds database default stranger (.nested countedPeople) := by
    rintro ⟨person, hperson, fields, crossed, target, hfields, htarget, last, hlast, hpet⟩
    obtain rfl := List.mem_singleton.1 hperson
    cases hfields
    cases (show some ([], .related petCount _) = some (crossed, target) from htarget)
    obtain rfl := List.mem_singleton.1 hlast
    -- the count has no rows to look into
    obtain ⟨pet, hpet, -⟩ := hpet
    have hnone : petCount.matched database stranger = [] := rfl
    rw [FieldDefinition.rows, hnone] at hpet
    cases hpet
  exact ⟨⟨rfl, rfl, rfl, rfl⟩, fun _ => rfl, hguard, keepsNotNull_stranger, rfl, rfl, hmisses⟩

end Filter

end FilterSql
