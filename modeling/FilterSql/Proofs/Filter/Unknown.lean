import FilterSql.Proofs.Filter.Dotted

/-!
# Where an unknown field is reported

A filter under a name with points and the filter under the fields of its segments have one result,
the error and its path where they fail (`Filter.field_join_eq_nested`): a field that is not known is
reported at the first segment that leads nowhere. There is one exception. Behind a column without
fields of its own the rest of a name is not taken apart, so two or more segments there are reported
as one field with points in its name.
-/

namespace FilterSql

namespace Scope

variable {s inner : Scope}

/-- The place that some segments lead to, one after the other. -/
def walk? : Scope → List String → Option Scope
  | s, [] => some s
  | s, head :: rest =>
    match s.first head with
    | some (.into _ inner) => inner.walk? rest
    | _ => none

/-- Segments lead to a place without fields before the last one of them is reached. -/
def Strands (s : Scope) (segments : List String) : Prop :=
  ∃ before head next rest inner, segments = before ++ head :: next :: rest ∧
    s.walk? before = some inner ∧ inner.fields = .none

/-- The way goes on from where its first segment leads. -/
theorem walk?_cons {entry : Entry} {head : String}
    (hfirst : s.first head = some (.into entry inner)) (rest : List String) :
    s.walk? (head :: rest) = inner.walk? rest := by
  rw [walk?, hfirst]

/-- A way begins with a step into another place. -/
theorem exists_of_walk? {head : String} {rest : List String}
    (h : s.walk? (head :: rest) = some inner) :
    ∃ entry next, s.first head = some (.into entry next) ∧ next.walk? rest = some inner := by
  rw [walk?] at h
  split at h
  next entry next hfirst => exact ⟨entry, next, hfirst, h⟩
  next => cases h

/-- Segments strand if they do behind the first. -/
theorem Strands.behind {entry : Entry} {head : String} {segments : List String}
    (hfirst : s.first head = some (.into entry inner)) (h : inner.Strands segments) :
    s.Strands (head :: segments) := by
  obtain ⟨before, head', next, rest, last, rfl, hwalk, hfields⟩ := h
  exact ⟨head :: before, head', next, rest, last, rfl, (walk?_cons hfirst before).trans hwalk,
    hfields⟩

/-- A place without fields knows no name. -/
theorem first_of_none (hfields : s.fields = .none) (head : String) : s.first head = none := by
  rw [first, hfields]

/-- The path goes on with the segment. -/
theorem path_of_first {entry : Entry} {head : String}
    (hfirst : s.first head = some (.into entry inner)) : inner.path = s.path.child head := by
  unfold first at hfirst
  cases hfields : s.fields with
  | none => simp [hfields] at hfirst
  | wildcard column below =>
      simp only [hfields, Option.some.injEq, Step.into.injEq] at hfirst
      rw [← hfirst.2]
  | schema schema =>
      simp only [hfields, Option.map_eq_some_iff] at hfirst
      obtain ⟨definition, -, hstep⟩ := hfirst
      cases definition <;> cases hstep <;> rfl

/-- The segments that lead to a place are its path. -/
theorem path_of_walk? {segments : List String} (h : s.walk? segments = some inner) :
    inner.path.names = s.path.names ++ segments := by
  induction segments generalizing s with
  | nil =>
      cases h
      rw [List.append_nil]
  | cons head rest ih =>
      obtain ⟨entry, next, hfirst, hnext⟩ := exists_of_walk? h
      rw [ih hnext, path_of_first hfirst, FieldPath.child, List.append_assoc,
        List.singleton_append]

/-- The error that the name of some segments is not known, at a place with fields. -/
theorem unresolved_of_fields (hfields : s.fields ≠ .none) (head : String) (rest : List String) :
    s.unresolved head rest = s.unknown head := by
  unfold unresolved
  split
  · contradiction
  · rfl

/-- Without fields the rest of a name is reported as a whole. -/
theorem unresolved_of_none (hfields : s.fields = .none) (head : String) (rest : List String) :
    s.unresolved head rest = s.unknown (Text.join "." (head :: rest)) := by
  rw [unresolved, hfields]

/-- The last segment of a name is reported as it is. -/
theorem unresolved_nil (s : Scope) (head : String) : s.unresolved head [] = s.unknown head := by
  unfold unresolved
  split <;> rfl

end Scope

namespace Filter

variable {limits : Limits} {now : Instant} {filter : Filter}

/-- Following a name to its end gives what following its first segment to a filter on the fields of
the others gives, unless the segments lead to a place without fields. -/
theorem resolve_agree (rest : List String) {s : Scope} (hs : s.fields.Each FieldDefinition.Nests)
    (head : String) (hrest : ∀ segment ∈ rest, '.' ∉ segment.toList)
    (hstrands : ¬ s.Strands (head :: rest)) (above above' : Nat) :
    Agree (s.resolve head rest >>= compileTarget limits now above filter)
      (s.resolve head [] >>= compileTarget limits now above' (nested rest filter)) := by
  induction rest generalizing s head above above' with
  | nil => exact (Agree.refl _).bind fun target => compileTarget_agree target above above'
  | cons next rest ih =>
      obtain ⟨hnext, hrest⟩ := List.forall_mem_cons.1 hrest
      cases hfirst : s.first head with
      | none =>
          have hfields : s.fields ≠ .none := fun hfields =>
            hstrands ⟨[], head, next, rest, s, rfl, rfl, hfields⟩
          rw [Scope.resolve_unresolved hs hfirst, Scope.resolve_unresolved hs hfirst,
            Scope.unresolved_of_fields hfields, Scope.unresolved_of_fields hfields]
          exact .refl _
      | some step =>
          obtain ⟨entry, inner, rfl, hinner⟩ := Scope.first_into hs hfirst
          have hinside : ¬ inner.Strands (next :: rest) := fun h => hstrands (h.behind hfirst)
          rw [resolve_through hs hfirst, nested_through hfirst hnext]
          exact Agree.behind_guard ((ih hinner next hrest hinside _ _).map _)

/-- A name whose segments lead to a place that does not know the next one is refused there. -/
theorem resolve_unknown {before rest : List String} {s inner : Scope} {head first : String}
    {others : List String} (hs : s.fields.Each FieldDefinition.Nests)
    (hsegments : before ++ head :: rest = first :: others) (hwalk : s.walk? before = some inner)
    (hhead : inner.first head = none) :
    s.resolve first others = .error (inner.unresolved head rest) := by
  induction before generalizing s first others with
  | nil =>
      cases hwalk
      cases hsegments
      exact Scope.resolve_unresolved hs hhead rest
  | cons b before ih =>
      obtain ⟨rfl, rfl⟩ : b = first ∧ before ++ head :: rest = others := List.cons.inj hsegments
      obtain ⟨next, more, hmore⟩ := List.exists_cons_of_ne_nil
        (List.append_ne_nil_of_right_ne_nil before (List.cons_ne_nil head rest))
      obtain ⟨entry, through, hfirst, hwalk⟩ := Scope.exists_of_walk? hwalk
      obtain ⟨_, _, hstep, hthrough⟩ := Scope.first_into hs hfirst
      cases hstep
      rw [hmore, Scope.resolve_into hs hfirst, ih hthrough hmore hwalk]
      rfl

/-- Fields in fields are refused at the first one that is not known, as far as they are looked
at. -/
theorem nested_unknown {before rest : List String} {s inner : Scope} {head first : String}
    {others : List String} (hs : s.fields.Each FieldDefinition.Nests)
    (hothers : ∀ segment ∈ others, '.' ∉ segment.toList)
    (hsegments : before ++ head :: rest = first :: others) (hwalk : s.walk? before = some inner)
    (hhead : inner.first head = none) (above : Nat) :
    Agree (.error (inner.unknown head))
      (s.resolve first [] >>= compileTarget limits now above (nested others filter)) := by
  induction before generalizing s first others above with
  | nil =>
      cases hwalk
      cases hsegments
      rw [Scope.resolve_unresolved hs hhead, Scope.unresolved_nil]
      exact .refl _
  | cons b before ih =>
      obtain ⟨rfl, rfl⟩ : b = first ∧ before ++ head :: rest = others := List.cons.inj hsegments
      obtain ⟨next, more, hmore⟩ := List.exists_cons_of_ne_nil
        (List.append_ne_nil_of_right_ne_nil before (List.cons_ne_nil head rest))
      rw [hmore, List.forall_mem_cons] at hothers
      obtain ⟨entry, through, hfirst, hwalk⟩ := Scope.exists_of_walk? hwalk
      obtain ⟨_, _, hstep, hthrough⟩ := Scope.first_into hs hfirst
      cases hstep
      rw [hmore, nested_through hfirst hothers.1]
      exact Agree.behind_guard ((ih hthrough hothers.2 hmore hwalk _).map entry.enclose)

section Compile

variable {schema : Schema} {head : String} {rest : List String}

/-- A name is followed from the fields of the schema. -/
theorem compile_join (hsegments : ∀ segment ∈ head :: rest, '.' ∉ segment.toList) :
    (field (Text.join "." (head :: rest)) filter).compile limits now schema =
      guardDepth limits (.ofSchema schema) 0 >>= fun _ =>
        ((Scope.ofSchema schema).resolve head rest >>= compileTarget limits now 1 filter).map
          Entry.row.enclose := by
  rw [compile, compileAt_field_target, Scope.follow_join hsegments]

/-- The fields of a name are followed one after the other. -/
theorem compile_nested (hhead : '.' ∉ head.toList) :
    (nested (head :: rest) filter).compile limits now schema =
      guardDepth limits (.ofSchema schema) 0 >>= fun _ =>
        ((Scope.ofSchema schema).resolve head [] >>=
          compileTarget limits now 1 (nested rest filter)).map Entry.row.enclose := by
  rw [compile, nested, List.foldr_cons, compileAt_field_target, Scope.follow_segment hhead]
  rfl

variable {segments before : List String} {s : Scope}

/-- A name is refused at the first of its segments that is not known. -/
theorem compile_join_unknown (hschema : schema.Each FieldDefinition.Nests)
    (hsegments : ∀ segment ∈ segments, '.' ∉ segment.toList)
    (hname : ¬TooDeep ((field (Text.join "." segments) filter).compile limits now schema))
    (hsplit : segments = before ++ head :: rest)
    (hwalk : (Scope.ofSchema schema).walk? before = some s) (hhead : s.first head = none) :
    (field (Text.join "." segments) filter).compile limits now schema =
      .error (s.unresolved head rest) := by
  obtain ⟨first, others, rfl⟩ := List.exists_cons_of_ne_nil
    (hsplit ▸ List.append_ne_nil_of_right_ne_nil before (List.cons_ne_nil head rest))
  rw [compile_join hsegments, resolve_unknown (.schema hschema) hsplit.symm hwalk hhead] at hname ⊢
  exact (tooDeep_or_passes limits _ 0 _).resolve_left hname

/-- Fields in fields are refused at the first one that is not known. -/
theorem compile_nested_unknown (hschema : schema.Each FieldDefinition.Nests)
    (hsegments : ∀ segment ∈ segments, '.' ∉ segment.toList)
    (hnested : ¬TooDeep ((nested segments filter).compile limits now schema))
    (hsplit : segments = before ++ head :: rest)
    (hwalk : (Scope.ofSchema schema).walk? before = some s) (hhead : s.first head = none) :
    (nested segments filter).compile limits now schema = .error (s.unknown head) := by
  obtain ⟨first, others, rfl⟩ := List.exists_cons_of_ne_nil
    (hsplit ▸ List.append_ne_nil_of_right_ne_nil before (List.cons_ne_nil head rest))
  obtain ⟨hfirst, hothers⟩ := List.forall_mem_cons.1 hsegments
  have hagree : Agree (.error (s.unknown head))
      ((nested (first :: others) filter).compile limits now schema) := by
    rw [compile_nested hfirst]
    exact Agree.behind_guard
      ((nested_unknown (.schema hschema) hothers hsplit.symm hwalk hhead 1).map Entry.row.enclose)
  refine (hagree.eq ?_ hnested).symm
  rintro ⟨e, max, he, hfault⟩
  cases he
  cases hfault

end Compile

/-- A filter under a name with points and the filter under the fields of its segments have one
result, unless the segments lead to a place without fields before their end. A segment that is not
known is reported where it stands; at a place without fields the name reports all that is left of
it. -/
theorem field_join_eq_nested {schema : Schema} (hschema : schema.Each FieldDefinition.Nests)
    {segments : List String} (hne : segments ≠ [])
    (hsegments : ∀ segment ∈ segments, '.' ∉ segment.toList) (filter : Filter)
    (hname : ¬TooDeep ((field (Text.join "." segments) filter).compile limits now schema))
    (hnested : ¬TooDeep ((nested segments filter).compile limits now schema)) :
    ((field (Text.join "." segments) filter).compile limits now schema =
        (nested segments filter).compile limits now schema ↔
      ¬ (Scope.ofSchema schema).Strands segments) ∧
      ∀ before head rest s, segments = before ++ head :: rest →
        (Scope.ofSchema schema).walk? before = some s → s.first head = none →
        (nested segments filter).compile limits now schema =
            .error ⟨.unknownField head, ⟨before ++ [head]⟩⟩ ∧
          (s.fields ≠ .none → (field (Text.join "." segments) filter).compile limits now schema =
            .error ⟨.unknownField head, ⟨before ++ [head]⟩⟩) ∧
          (s.fields = .none → (field (Text.join "." segments) filter).compile limits now schema =
            .error ⟨.unknownField (Text.join "." (head :: rest)),
              ⟨before ++ [Text.join "." (head :: rest)]⟩⟩) := by
  have hunknown : ∀ {before : List String} {s : Scope},
      (Scope.ofSchema schema).walk? before = some s →
        ∀ name, s.unknown name = ⟨.unknownField name, ⟨before ++ [name]⟩⟩ := by
    intro before s hwalk name
    rw [Scope.unknown, FieldPath.child, Scope.path_of_walk? hwalk]
    rfl
  refine ⟨⟨?_, ?_⟩, ?_⟩
  · rintro heq ⟨before, head, next, rest, s, hsplit, hwalk, hfields⟩
    have hhead := Scope.first_of_none hfields head
    rw [compile_join_unknown hschema hsegments hname hsplit hwalk hhead,
      compile_nested_unknown hschema hsegments hnested hsplit hwalk hhead,
      Scope.unresolved_of_none hfields, hunknown hwalk, hunknown hwalk] at heq
    -- the one name has points in it and the other one has not
    have hjoin : Text.join "." (head :: next :: rest) = head := by
      injection heq with heq
      injection heq with hfault
      injection hfault
    have hhead : '.' ∉ head.toList := hsegments head (by rw [hsplit]; simp)
    exact hhead (hjoin ▸ Text.mem_join head next rest)
  · intro hstrands
    obtain ⟨head, rest, rfl⟩ := List.exists_cons_of_ne_nil hne
    obtain ⟨hhead, hrest⟩ := List.forall_mem_cons.1 hsegments
    refine Agree.eq ?_ hname hnested
    rw [compile_join hsegments, compile_nested hhead]
    refine (Agree.refl _).bind fun _ => Agree.map ?_ _
    exact resolve_agree rest (.schema hschema) head hrest hstrands 1 1
  · intro before head rest s hsplit hwalk hhead
    have hrefused := compile_join_unknown hschema hsegments hname hsplit hwalk hhead
    refine ⟨?_, fun hfields => ?_, fun hfields => ?_⟩
    · rw [compile_nested_unknown hschema hsegments hnested hsplit hwalk hhead, hunknown hwalk]
    · rw [hrefused, Scope.unresolved_of_fields hfields, hunknown hwalk]
    · rw [hrefused, Scope.unresolved_of_none hfields, hunknown hwalk]

namespace Sample

/-- The way to a setting that has no colour. -/
def astray : List String := ["owner", "groups", "settings", "collar", "colour", "hue"]

/-- Dogs with a weight, which has no fields. -/
def weights : Schema := .ofFields [("weight", .column weight none)]

/-- The name of the unit of the weight. -/
def beyond : List String := ["weight", "unit", "name"]

end Sample

open Sample in
/-- A colour is not known at either way to it, and it is reported at the same path. -/
theorem field_join_eq_nested_colour :
    dogs.Each FieldDefinition.Nests ∧ astray ≠ [] ∧ (∀ segment ∈ astray, '.' ∉ segment.toList) ∧
      (field "owner.groups.settings.collar.colour.hue" (.compare .eq (.int 5))).compile {} default
          dogs =
        .error ⟨.unknownField "colour", ⟨["owner", "groups", "settings", "collar", "colour"]⟩⟩ ∧
      (nested astray (.compare .eq (.int 5))).compile {} default dogs =
        .error ⟨.unknownField "colour", ⟨["owner", "groups", "settings", "collar", "colour"]⟩⟩ := by
  have hne : astray ≠ [] := List.cons_ne_nil _ _
  have hsegments : ∀ segment ∈ astray, '.' ∉ segment.toList := by decide
  have hname : ¬TooDeep ((field (Text.join "." astray) (.compare .eq (.int 5))).compile {} default
      dogs) := by
    rintro ⟨e, max, he, hfault⟩
    cases he
    cases hfault
  have hnested : ¬TooDeep ((nested astray (.compare .eq (.int 5))).compile {} default dogs) := by
    rintro ⟨e, max, he, hfault⟩
    cases he
    cases hfault
  have hunknown := (field_join_eq_nested dogs_nest hne hsegments _ hname hnested).2
    ["owner", "groups", "settings", "collar"] "colour" ["hue"] _ rfl rfl rfl
  exact ⟨dogs_nest, hne, hsegments, hunknown.2.1 nofun, hunknown.1⟩

open Sample in
/-- The two segments behind the weight are reported as one field by the name, and the first of them
alone by the fields. -/
theorem field_join_ne_nested_weight :
    weights.Each FieldDefinition.Nests ∧ (∀ segment ∈ beyond, '.' ∉ segment.toList) ∧
      (field "weight.unit.name" (.compare .eq (.int 5))).compile {} default weights =
        .error ⟨.unknownField "unit.name", ⟨["weight", "unit.name"]⟩⟩ ∧
      (nested beyond (.compare .eq (.int 5))).compile {} default weights =
        .error ⟨.unknownField "unit", ⟨["weight", "unit"]⟩⟩ :=
  ⟨.singleton ⟨by decide, nofun⟩ (.column nofun), by decide, rfl, rfl⟩

end Filter

end FilterSql
