import FilterSql.Proofs.Filter.Steps
import FilterSql.Proofs.Text.Parts

/-!
# Names with points

A name with points is a short form of fields in fields: where no name that is registered holds a
point and no field has a compiler of its own, a filter under such a name has the predicate of the
filter under the fields of its segments (`Filter.field_join_iff_nested`). A name is followed before
the filter is looked at, and fields in fields are compiled one after the other; what an entry asks
for beyond its filter it asks only at the end of a name, so the two ways meet there.
-/

namespace FilterSql

/-! ## Segments -/

namespace Text

/-- Two segments or more have a point between them. -/
theorem mem_join (head next : String) (rest : List String) :
    '.' ∈ (join "." (head :: next :: rest)).toList := by
  simp [join]

end Text

/-! ## Fields in fields -/

/-- A field has a name without points and no compiler of its own. -/
def FieldDefinition.Nests (name : String) (field : FieldDefinition) : Prop :=
  '.' ∉ name.toList ∧ ∀ compile, field ≠ .custom compile

namespace Scope

variable {s : Scope}

/-- No field is registered under the whole of a name with points. -/
theorem get?_join (hs : s.fields.Each FieldDefinition.Nests) (head next : String)
    (rest : List String) : s.fields.get? (Text.join "." (head :: next :: rest)) = none := by
  cases hget : s.fields.get? (Text.join "." (head :: next :: rest)) with
  | none => rfl
  | some field => exact absurd (Text.mem_join head next rest) (hs.get? hget).1.1

/-- Every step leads on to fields. -/
theorem first_into (hs : s.fields.Each FieldDefinition.Nests) {head : String} {step : Step}
    (h : s.first head = some step) :
    ∃ entry inner, step = .into entry inner ∧ inner.fields.Each FieldDefinition.Nests := by
  have hlanding := first_each hs h
  cases step with
  | into entry inner =>
      cases hlanding with
      | scope fields => exact ⟨entry, inner, rfl, fields⟩
  | custom compile path =>
      cases hlanding with
      | custom name here => exact absurd rfl (here.2 compile)

/-- The name of some segments is followed segment by segment. -/
theorem follow_join {head : String} {rest : List String}
    (h : ∀ segment ∈ head :: rest, '.' ∉ segment.toList) :
    s.follow (Text.join "." (head :: rest)) = s.resolve head rest := by
  rw [follow, Text.splitOn_join '.' "." rfl (List.cons_ne_nil head rest) h, List.map_cons]
  simp [List.map_map, Function.comp_def]

/-- A name that is registered as a whole leads to its field, points or not. -/
theorem follow_registered {schema : Schema} {name : String} {definition : FieldDefinition}
    (hget : schema.get? name = some definition) :
    (ofSchema schema).follow name = .ok (definition.step (FieldPath.root.child name)).land := by
  have hjoin := Text.join_splitOn '.' "." rfl name
  unfold follow
  split
  next hnil => exact absurd hnil (Text.splitOn_ne_nil _ _)
  next head rest hcons =>
    rw [hcons, List.map_cons] at hjoin
    cases rest with
    | nil =>
        obtain rfl : String.ofList head = name := hjoin
        simp [resolve, first, ofSchema, hget]
    | cons next rest =>
        rw [List.map_cons] at hjoin ⊢
        simp only [resolve, hjoin]
        simp [ofSchema, Fields.get?, hget]

/-- A name without points is one segment. -/
theorem follow_segment {head : String} (h : '.' ∉ head.toList) :
    s.follow head = s.resolve head [] := by
  have hsegments : ∀ segment ∈ [head], '.' ∉ segment.toList :=
    fun segment hsegment => by rwa [List.mem_singleton.1 hsegment]
  exact follow_join hsegments

/-- A name of more than one segment leads through the field of the first one. -/
theorem resolve_into (hs : s.fields.Each FieldDefinition.Nests) {head next : String}
    {rest : List String} {entry : Entry} {inner : Scope}
    (hfirst : s.first head = some (.into entry inner)) :
    s.resolve head (next :: rest) = (inner.resolve next rest).map fun target =>
      { target with passed := entry :: target.passed, steps := target.steps + 1 } := by
  simp only [resolve, get?_join hs, hfirst]

/-- Where the first segment is not known, the name is not. -/
theorem resolve_unresolved (hs : s.fields.Each FieldDefinition.Nests) {head : String}
    (hfirst : s.first head = none) (rest : List String) :
    s.resolve head rest = .error (s.unresolved head rest) := by
  cases rest with
  | nil => simp only [resolve, hfirst]
  | cons next rest => simp only [resolve, get?_join hs, hfirst]

end Scope

namespace Filter

/-- A filter under the last of some fields, each of them a field of the one before it. -/
def nested (segments : List String) (filter : Filter) : Filter :=
  segments.foldr .field filter

variable {limits : Limits} {now : Instant} {s : Scope} {entry : Entry} {above : Nat}
  {filter : Filter}

/-- What a filter asks at the end of a name depends on the levels as the filter does. -/
theorem compileTarget_agree (target : Target) (above above' : Nat) :
    Agree (compileTarget limits now above filter target)
      (compileTarget limits now above' filter target) := by
  unfold compileTarget
  refine Agree.map ?_ _
  cases target.landing with
  | scope entry inner => exact compileAt_agree filter inner entry _ _
  | custom compile path rest => exact .refl _

/-- A step on the way to the end of a name asks what its entry asks. -/
theorem compileTarget_passed (entry : Entry) (target : Target) (above : Nat) :
    compileTarget limits now above filter
        { target with passed := entry :: target.passed, steps := target.steps + 1 } =
      (compileTarget limits now (above + 1) filter target).map entry.enclose := by
  unfold compileTarget
  rw [show above + (target.steps + 1) = above + 1 + target.steps by omega]
  cases compileLanding limits now (above + 1 + target.steps) filter target.landing <;> rfl

/-- A name of one segment leads to where its step leads. -/
theorem resolve_segment {head : String} {inner : Scope}
    (hfirst : s.first head = some (.into entry inner)) :
    s.resolve head [] >>= compileTarget limits now above filter =
      compileAt limits now inner entry (above + 1) filter := by
  simp only [Scope.resolve, hfirst]
  show (compileAt limits now inner entry (above + 1) filter).map _ = _
  cases compileAt limits now inner entry (above + 1) filter <;> rfl

/-- A name of more segments asks what the entry of its first one asks of what is found behind it. -/
theorem resolve_through (hs : s.fields.Each FieldDefinition.Nests) {head : String} {inner : Scope}
    (hfirst : s.first head = some (.into entry inner)) (next : String) (rest : List String) :
    s.resolve head (next :: rest) >>= compileTarget limits now above filter =
      (inner.resolve next rest >>= compileTarget limits now (above + 1) filter).map
        entry.enclose := by
  rw [Scope.resolve_into hs hfirst]
  cases inner.resolve next rest with
  | error e => rfl
  | ok target => exact compileTarget_passed entry target above

/-- Fields in fields ask the same, one level further down. -/
theorem nested_through {head next : String} {inner : Scope}
    (hfirst : s.first head = some (.into entry inner)) (hnext : '.' ∉ next.toList)
    (rest : List String) :
    s.resolve head [] >>= compileTarget limits now above (nested (next :: rest) filter) =
      guardDepth limits inner (above + 1) >>= fun _ =>
        (inner.resolve next [] >>= compileTarget limits now (above + 1 + 1)
          (nested rest filter)).map entry.enclose := by
  rw [resolve_segment hfirst, nested, List.foldr_cons, compileAt_field_target,
    Scope.follow_segment hnext]
  rfl

/-- Following a name to its end comes to the same as following its first segment to a filter on the
fields of the others. -/
theorem resolve_concur (rest : List String) {s : Scope}
    (hs : s.fields.Each FieldDefinition.Nests) (head : String)
    (hrest : ∀ segment ∈ rest, '.' ∉ segment.toList) (above above' : Nat) :
    Concur (s.resolve head rest >>= compileTarget limits now above filter)
      (s.resolve head [] >>= compileTarget limits now above' (nested rest filter)) := by
  induction rest generalizing s head above above' with
  | nil =>
      exact (Concur.refl _).bind fun target => (compileTarget_agree target above above').concur
  | cons next rest ih =>
      obtain ⟨hnext, hrest⟩ := List.forall_mem_cons.1 hrest
      cases hfirst : s.first head with
      | none =>
          rw [Scope.resolve_unresolved hs hfirst, Scope.resolve_unresolved hs hfirst]
          exact .inr (.inr rfl)
      | some step =>
          obtain ⟨entry, inner, rfl, hinner⟩ := Scope.first_into hs hfirst
          -- the entry encloses what is found behind it, and asks for nothing more on the way
          rw [resolve_through hs hfirst, nested_through hfirst hnext]
          exact Concur.behind_guard ((ih hinner next hrest _ _).map _)

/-- A filter under a name with points has the predicate of the filter under the fields of its
segments, where both nest within the limit. -/
theorem field_join_iff_nested {schema : Schema} (hschema : schema.Each FieldDefinition.Nests)
    {segments : List String} (hne : segments ≠ [])
    (hsegments : ∀ segment ∈ segments, '.' ∉ segment.toList)
    (filter : Filter)
    (hname : ¬TooDeep ((Filter.field (Text.join "." segments) filter).compile limits now schema))
    (hnested : ¬TooDeep ((nested segments filter).compile limits now schema)) (p : Predicate) :
    (Filter.field (Text.join "." segments) filter).compile limits now schema = .ok p ↔
      (nested segments filter).compile limits now schema = .ok p := by
  cases segments with
  | nil => exact absurd rfl hne
  | cons head rest =>
      refine Concur.eq_ok_iff ?_ hname hnested p
      rw [compile, compile, compileAt_field_target, Scope.follow_join hsegments, nested,
        List.foldr_cons, compileAt_field_target,
        Scope.follow_segment (hsegments head List.mem_cons_self)]
      refine (Concur.refl _).bind fun _ => Concur.map ?_ _
      exact resolve_concur rest (.schema hschema) head
        (fun segment hsegment => hsegments segment (List.mem_cons_of_mem head hsegment)) _ _

namespace Sample

/-- A column of the table of a statement. -/
def column (name : String) (valid : Identifier.isValid name.toList = true) : Expr :=
  .column ⟨.own, ⟨name, valid⟩⟩

/-- The user who owns a dog. -/
def byOwner : Join :=
  ⟨.left, ⟨⟨"users", .refl true⟩, none⟩,
    .compare (column "id" (.refl true)) .eq (.column ⟨.enclosing, ⟨"owner", .refl true⟩⟩)⟩

/-- The groups of that user. -/
def ofOwner : Select :=
  { Select.empty with
    source := some ⟨⟨"groups", .refl true⟩, none⟩
    filter := .condition (.compare (column "member" (.refl true)) .eq
      (.column ⟨.enclosing, ⟨"owner", .refl true⟩⟩)) }

/-- The settings of a group under the key of a setting. -/
def setting : FilterColumn := .ofExpr (column "settings" (.refl true)) .jsonObject

/-- The weight of a setting. -/
def weight : FilterColumn := .ofExpr (column "weight" (.refl true)) .number

/-- The settings of a group by their keys, each with a weight. -/
def settings : FieldDefinition :=
  .wildcard (fun _ => setting) (some fun _ => .ofFields [("weight", .column weight none)])

/-- Dogs with owners, the groups that these are members of, and the settings of the groups. -/
def dogs : Schema :=
  .ofFields [("owner", .joined byOwner
    (.ofFields [("groups", .related ofOwner (.ofFields [("settings", settings)]))]) false)]

/-- The way to the weight of a setting. -/
def way : List String := ["owner", "groups", "settings", "collar", "weight"]

/-- The owner has a group in which the setting has a weight of 5. -/
def weighed : Predicate :=
  .condition (.joined byOwner (.exists
    (ofOwner.restrictBy (.compare weight.expr .eq (.param (.int 5)))) false))

/-- No name of dogs has points, and no field has a compiler of its own. -/
theorem dogs_nest : dogs.Each FieldDefinition.Nests := by
  have hweight : (Schema.ofFields [("weight", .column weight none)]).Each FieldDefinition.Nests :=
    .singleton ⟨by decide, nofun⟩ (.column nofun)
  have hsettings : settings.EachBelow FieldDefinition.Nests :=
    .wildcard fun schemas hschemas key => by
      cases hschemas
      exact hweight
  exact .singleton ⟨by decide, nofun⟩ <| .joined <|
    .singleton ⟨by decide, nofun⟩ <| .related <|
      .singleton ⟨by decide, nofun⟩ hsettings

end Sample

open Sample in
/-- A name of five segments and five fields in each other have one predicate. -/
theorem field_join_iff_nested_dogs :
    dogs.Each FieldDefinition.Nests ∧ way ≠ [] ∧ (∀ segment ∈ way, '.' ∉ segment.toList) ∧
      (field "owner.groups.settings.collar.weight" (.compare .eq (.int 5))).compile {} default
        dogs = .ok weighed ∧
      (field "owner" (field "groups" (field "settings" (field "collar" (field "weight"
        (.compare .eq (.int 5))))))).compile {} default dogs = .ok weighed := by
  have hway : way ≠ [] := List.cons_ne_nil _ _
  have hsegments : ∀ segment ∈ way, '.' ∉ segment.toList := by decide
  have hname : (field (Text.join "." way) (.compare .eq (.int 5))).compile {} default dogs =
      .ok weighed := rfl
  have hshallow : ¬TooDeep
      ((field (Text.join "." way) (.compare .eq (.int 5))).compile {} default dogs) := by
    rw [hname]
    exact not_tooDeep_ok
  have hnested : ¬TooDeep ((nested way (.compare .eq (.int 5))).compile {} default dogs) := by
    rintro ⟨e, max, h, -⟩
    cases h
  exact ⟨dogs_nest, hway, hsegments, hname,
    (field_join_iff_nested dogs_nest hway hsegments _ hshallow hnested weighed).1 hname⟩

end Filter

end FilterSql
