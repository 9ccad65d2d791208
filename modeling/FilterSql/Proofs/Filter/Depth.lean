import FilterSql.Proofs.Filter.Steps

/-!
# How deep a filter nests

The reader of filters counts the levels of the JSON value, and the compiler counts the levels of the
filter, where a field takes one level for itself and one for each segment of its name. A filter is
not refused for the depth where the levels that the compiler counts are within the limit
(`Filter.compileAt_shallow`), and they are at most `k + 2` for each level of the JSON value, where
names have at most `k` segments (`Filter.levels_ofJson`).
-/

namespace FilterSql

/-! ## Faults that are not about the depth -/

/-- A test is not refused for the depth. -/
def Flat {α : Type} (x : Except FilterFault α) : Prop :=
  ∀ max, x ≠ .error (.tooDeep max)

section Flat

variable {α β : Type} {x : Except FilterFault α}

/-- A test that is made is not refused. -/
theorem Flat.ok {a : α} : Flat (.ok a) := nofun

/-- What is made of the result of a test is not refused if the test is not. -/
theorem Flat.map (h : Flat x) (f : α → β) : Flat (x.map f) := by
  cases x with
  | ok a => exact .ok
  | error fault =>
      intro max hmax
      cases hmax
      exact h max rfl

/-- Two tests in turn, neither refused for the depth. -/
theorem Flat.bind (h : Flat x) {f : α → Except FilterFault β} (hf : ∀ a, Flat (f a)) :
    Flat (x >>= f) := by
  cases x with
  | ok a => exact hf a
  | error fault =>
      intro max hmax
      cases hmax
      exact h max rfl

/-- An operand is not refused for the depth. -/
theorem Operand.toValue_flat (now : Instant) (kind : ColumnKind) (operand : Operand) :
    Flat (operand.toValue now kind) := by
  unfold toValue
  split
  all_goals try split
  all_goals nofun

/-- Operands in a list are not refused for the depth. -/
theorem Operand.toValues_flat (now : Instant) (kind : ColumnKind) (operands : List Operand) :
    Flat (Operand.toValues now kind operands) := by
  induction operands with
  | nil => exact .ok
  | cons operand rest ih =>
      exact (operand.toValue_flat now kind).bind fun _ => ih.bind fun _ => .ok

namespace FilterColumn

variable (now : Instant) (c : FilterColumn)

/-- A comparison is not refused for the depth. -/
theorem compare_flat (op : CompareOp) (operand : Operand) : Flat (c.compare now op operand) :=
  (operand.toValue_flat now c.kind).map _

/-- A test for membership is not refused for the depth. -/
theorem oneOf_flat (maxValues : Nat) (operands : List Operand) :
    Flat (c.oneOf now maxValues operands) := by
  unfold oneOf
  split
  · nofun
  · split
    · exact .ok
    · exact (Operand.toValues_flat now c.kind _).map _

/-- A search for a text is not refused for the depth. -/
theorem contains_flat (needle : String) : Flat (c.contains needle) := by
  unfold contains
  split <;> nofun

end FilterColumn

end Flat

/-- A compiler that a field has of its own refuses no filter for the depth. -/
def FieldDefinition.Shallow (_ : String) (field : FieldDefinition) : Prop :=
  ∀ compile, field = .custom compile → ∀ filter path, ¬Filter.TooDeep (compile filter path)

namespace Filter

/-! ## Levels -/

mutual

/-- The levels of a filter, of which a field has one for itself and one for each segment of its
name. A filter on the matches of a relation has none of its own. -/
def levels : Filter → Nat
  | .all filters => 1 + levelsAll filters
  | .any filters => 1 + levelsAll filters
  | .not filter => 1 + filter.levels
  | .field name filter => 1 + (segments name).length + filter.levels
  | .elemMatch filter => filter.levels
  | .compare .. => 1
  | .oneOf _ => 1
  | .contains _ => 1
  | .marker => 1

/-- The levels of the deepest filter of a list. -/
def levelsAll : List Filter → Nat
  | [] => 0
  | filter :: rest => max filter.levels (levelsAll rest)

end

/-- Every filter has at least one level. -/
theorem levels_pos (filter : Filter) : 0 < filter.levels := by
  match filter with
  | .all _ | .any _ | .not _ | .field .. => unfold levels; omega
  | .elemMatch filter => exact filter.levels_pos
  | .compare .. | .oneOf _ | .contains _ | .marker => exact Nat.one_pos
termination_by structural filter

variable {α β : Type} {limits : Limits} {now : Instant} {s : Scope} {entry : Entry} {above : Nat}

/-- Two steps in turn, neither refused for the depth. -/
theorem not_tooDeep_bind {x : Except FilterError α} {f : α → Except FilterError β}
    (hx : ¬TooDeep x) (hf : ∀ a, x = .ok a → ¬TooDeep (f a)) : ¬TooDeep (x >>= f) := by
  cases x with
  | ok a => exact hf a rfl
  | error e =>
      rintro ⟨_, max, h, hfault⟩
      cases h
      exact hx ⟨e, max, rfl, hfault⟩

/-- What is made of a result is not refused if the result is not. -/
theorem not_tooDeep_map {x : Except FilterError α} (f : α → β) (hx : ¬TooDeep x) :
    ¬TooDeep (x.map f) :=
  not_tooDeep_bind hx fun _ _ => not_tooDeep_ok

/-- Any other fault is no refusal for the depth. -/
theorem not_tooDeep_error {fault : FilterFault} (path : FieldPath)
    (h : ∀ max, fault ≠ .tooDeep max) : ¬TooDeep (.error ⟨fault, path⟩ : Except FilterError α) := by
  rintro ⟨e, max, ⟨⟩, hfault⟩
  exact h max hfault

/-- Below the limit the guard lets a filter pass. -/
theorem guardDepth_shallow (h : above < limits.maxDepth) :
    ¬TooDeep (guardDepth limits s above) := by
  rw [guardDepth_ok h]
  exact not_tooDeep_ok

/-- A place without a column is another fault. -/
theorem tested_shallow (operator : String) : ¬TooDeep (s.tested operator) := by
  unfold Scope.tested
  split
  · exact not_tooDeep_ok
  · exact not_tooDeep_error _ nofun

/-- At its place a test is refused for nothing but its own fault. -/
theorem testAt_shallow {x : Except FilterFault Predicate} (h : Flat x) : ¬TooDeep (testAt s x) := by
  cases x with
  | ok p => exact not_tooDeep_ok
  | error fault => exact not_tooDeep_error _ fun max hmax => h max (by rw [hmax])

/-- A test at a place within the limit is not refused for the depth. -/
theorem test_shallow (hguard : ¬TooDeep (guardDepth limits s above)) (operator : String)
    {test : FilterColumn → Except FilterFault Predicate} (h : ∀ c, Flat (test c)) :
    ¬TooDeep (do
      guardDepth limits s above
      let column ← s.tested operator
      return entry.enclose (← testAt s (test column))) :=
  not_tooDeep_bind hguard fun _ _ => not_tooDeep_bind (tested_shallow operator) fun c _ =>
    not_tooDeep_bind (testAt_shallow (h c)) fun _ _ => not_tooDeep_ok

/-- An unknown name is another fault. -/
theorem unresolved_shallow (head : String) (rest : List String) :
    ¬TooDeep (.error (s.unresolved head rest) : Except FilterError α) := by
  unfold Scope.unresolved
  split <;> exact not_tooDeep_error _ nofun

/-- A name that is not known is not a matter of depth. -/
theorem resolve_shallow (rest : List String) (s : Scope) (head : String) :
    ¬TooDeep (s.resolve head rest) := by
  induction rest generalizing s head with
  | nil =>
      rw [Scope.resolve]
      split
      · exact not_tooDeep_ok
      · exact unresolved_shallow head []
  | cons next rest ih =>
      rw [Scope.resolve]
      split
      · exact not_tooDeep_ok
      · split
        · exact unresolved_shallow head _
        · exact not_tooDeep_ok
        · exact not_tooDeep_map _ (ih _ next)

/-- Names are followed without regard to the depth. -/
theorem follow_shallow (name : String) : ¬TooDeep (s.follow name) := by
  unfold Scope.follow
  split <;> exact resolve_shallow _ s _

/-! ## Filters within the limit -/

mutual

/-- A filter is not refused for the depth where its levels are within the limit. -/
theorem compileAt_shallow (filter : Filter) {s : Scope} {entry : Entry} {above : Nat}
    (hs : s.fields.Each FieldDefinition.Shallow) (h : above + filter.levels ≤ limits.maxDepth) :
    ¬TooDeep (compileAt limits now s entry above filter) := by
  have hguard : ¬TooDeep (guardDepth limits s above) := by
    have hpos := filter.levels_pos
    exact guardDepth_shallow (by omega)
  match filter with
  | .all filters =>
      rw [levels] at h
      refine not_tooDeep_bind hguard fun _ _ => not_tooDeep_bind ?_ fun _ _ => not_tooDeep_ok
      exact compileAll_shallow filters hs (by omega)
  | .any filters =>
      rw [levels] at h
      refine not_tooDeep_bind hguard fun _ _ => not_tooDeep_bind ?_ fun _ _ => not_tooDeep_ok
      exact compileAny_shallow filters hs (by omega)
  | .not filter =>
      rw [levels] at h
      cases entry with
      | related base => exact not_tooDeep_map _ (compileAt_shallow filter hs (by omega))
      | row | joined _ _ =>
          refine not_tooDeep_bind hguard fun _ _ => not_tooDeep_bind ?_ fun _ _ => not_tooDeep_ok
          exact compileAt_shallow filter hs (by omega)
  | .field name filter =>
      rw [levels] at h
      rw [compileAt_field_target]
      refine not_tooDeep_bind hguard fun _ _ => not_tooDeep_map _ ?_
      refine not_tooDeep_bind (follow_shallow name) fun target htarget => not_tooDeep_map _ ?_
      obtain ⟨head, rest, hname, hresolve⟩ := Scope.exists_segments htarget
      obtain ⟨passed, landing, steps⟩ := target
      obtain ⟨hlanding, hsteps⟩ := Scope.resolve_each hs hresolve
      -- a name leads at most as many steps down as it has segments after the first one
      rw [hname, List.length_cons] at h
      dsimp only at hlanding hsteps
      cases hlanding with
      | scope fields => exact compileAt_shallow filter fields (by dsimp only; omega)
      | custom name here => exact here _ rfl _ _
  | .compare op operand =>
      exact test_shallow hguard _ fun c => c.compare_flat now op operand
  | .oneOf operands => exact test_shallow hguard _ fun c => c.oneOf_flat now _ operands
  | .contains needle => exact test_shallow hguard _ fun c => c.contains_flat needle
  | .elemMatch filter =>
      rw [levels] at h
      cases entry with
      | row => exact not_tooDeep_bind hguard fun _ _ => not_tooDeep_error _ nofun
      | related _ | joined _ _ => exact not_tooDeep_map _ (compileAt_shallow filter hs h)
  | .marker => exact not_tooDeep_bind hguard fun _ _ => not_tooDeep_error _ nofun
termination_by structural filter

/-- The filters of a conjunction are not refused for the depth where their levels are within the
limit. -/
theorem compileAll_shallow (filters : List Filter) {s : Scope} {above : Nat} {p : Predicate}
    (hs : s.fields.Each FieldDefinition.Shallow)
    (h : above + levelsAll filters ≤ limits.maxDepth) :
    ¬TooDeep (compileAll limits now s above p filters) := by
  match filters with
  | [] => exact not_tooDeep_ok
  | filter :: rest =>
      rw [levelsAll] at h
      refine not_tooDeep_bind (compileAt_shallow filter hs (by omega)) fun _ _ => ?_
      split
      · exact not_tooDeep_ok
      · exact compileAll_shallow rest hs (by omega)
termination_by structural filters

/-- The filters of a disjunction are not refused for the depth where their levels are within the
limit. -/
theorem compileAny_shallow (filters : List Filter) {s : Scope} {above : Nat} {p : Predicate}
    (hs : s.fields.Each FieldDefinition.Shallow)
    (h : above + levelsAll filters ≤ limits.maxDepth) :
    ¬TooDeep (compileAny limits now s above p filters) := by
  match filters with
  | [] => exact not_tooDeep_ok
  | filter :: rest =>
      rw [levelsAll] at h
      refine not_tooDeep_bind (compileAt_shallow filter hs (by omega)) fun _ _ => ?_
      split
      · exact not_tooDeep_ok
      · exact compileAny_shallow rest hs (by omega)
termination_by structural filters

end

/-! ## Reading -/

mutual

/-- The names in a filter have at most `k` segments. -/
def NamesWithin (k : Nat) : Filter → Prop
  | .all filters => AllNamesWithin k filters
  | .any filters => AllNamesWithin k filters
  | .not filter => filter.NamesWithin k
  | .field name filter => (segments name).length ≤ k ∧ filter.NamesWithin k
  | .elemMatch filter => filter.NamesWithin k
  | .compare .. => True
  | .oneOf _ => True
  | .contains _ => True
  | .marker => True

/-- The names in the filters of a list have at most `k` segments. -/
def AllNamesWithin (k : Nat) : List Filter → Prop
  | [] => True
  | filter :: rest => filter.NamesWithin k ∧ AllNamesWithin k rest

end

/-- The filter of one member of an object that stands `depth` levels deep. -/
def ofMember (max : Nat) (path : FieldPath) (depth : Nat) (name : String) (value : Json) :
    Except FilterError Filter :=
  let shape (expected : String) : FilterError := ⟨.invalidShape name expected, path⟩
  match MemberKind.ofName name with
  | .field => (ofJson max (path.child name) (depth + 1) value).map (.field name)
  | .compare op => (located path (operand name value)).map (.compare op)
  | .and =>
    match value with
    | .array items => (ofItems max path (depth + 1) items).map .all
    | .object members => (ofJson max path (depth + 1) (.object members)).map (.all [·])
    | _ => .error (shape "a list of filters")
  | .or =>
    match value with
    | .array items => (ofItems max path (depth + 1) items).map .any
    | .object members => (ofJson max path (depth + 1) (.object members)).map (.any [·])
    | _ => .error (shape "a list of filters")
  | .not => (ofJson max path (depth + 1) value).map .not
  | .oneOf =>
    match value with
    | .array items => (located path (operands name items)).map .oneOf
    | _ => .error (shape "an array of values")
  | .contains =>
    match value with
    | .string needle => .ok (.contains needle)
    | _ => .error (shape "a string")
  | .elemMatch =>
    match value with
    | .object members => (ofJson max path (depth + 1) (.object members)).map .elemMatch
    | .array items => (ofJson max path (depth + 1) (.array items)).map .elemMatch
    | _ => .error (shape "a filter object")
  | .unknown => .error ⟨.unknownOperator name, path⟩

variable {max max' depth k : Nat} {path : FieldPath} {name : String} {value : Json}
  {filter : Filter}

/-- Members are read one after the other. -/
theorem ofMembers_cons (rest : List (String × Json)) :
    ofMembers max path depth ((name, value) :: rest) = do
      let filter ← ofMember max path depth name value
      return filter :: (← ofMembers max path depth rest) := by
  cases value <;> simp only [ofMembers, ofMember] <;> cases MemberKind.ofName name <;> rfl

/-- An array is read as the conjunction of its items, which stand a level deeper. -/
theorem ofJson_all (hdepth : depth ≤ max) {items : List Json} (hvalue : value = .array items)
    {filters : List Filter} :
    ofJson max path depth value = .ok (.all filters) ↔
      ofItems max path (depth + 1) items = .ok filters := by
  rw [hvalue, ofJson, if_neg (by omega), map_eq_ok]
  simp

/-- How a member of an object is read: it holds no further filter, or the filters of an array, or a
filter that stands a level deeper. -/
inductive ReadsMember (max : Nat) (path : FieldPath) (depth : Nat) (name : String) (value : Json) :
    Filter → Prop where
  | flat {filter : Filter} (levels : filter.levels = 1)
      (same : ∀ max', ofMember max' path depth name value = .ok filter) :
      ReadsMember max path depth name value filter
  | items {items : List Json} {filters : List Filter} (wrap : List Filter → Filter)
      (array : value = .array items) (reads : ofItems max path (depth + 1) items = .ok filters)
      (names : ∀ k, (wrap filters).NamesWithin k → AllNamesWithin k filters)
      (levels : (wrap filters).levels = 1 + levelsAll filters)
      (same : ∀ max', ofMember max' path depth name value =
        (ofItems max' path (depth + 1) items).map wrap) :
      ReadsMember max path depth name value (wrap filters)
  | deeper {inner : Filter} (wrap : Filter → Filter) (place : FieldPath)
      (reads : ofJson max place (depth + 1) value = .ok inner)
      (names : ∀ k, (wrap inner).NamesWithin k → inner.NamesWithin k)
      (levels : ∀ k, (wrap inner).NamesWithin k → (wrap inner).levels ≤ k + 1 + inner.levels)
      (same : ∀ max', ofMember max' path depth name value =
        (ofJson max' place (depth + 1) value).map wrap) :
      ReadsMember max path depth name value (wrap inner)

namespace ReadsMember

/-- A member whose reading does not depend on the limit holds no further filter. -/
theorem of_flat (x : Except FilterError Filter)
    (levels : ∀ filter, x = .ok filter → filter.levels = 1)
    (same : ∀ max', ofMember max' path depth name value = x)
    (h : ofMember max path depth name value = .ok filter) :
    ReadsMember max path depth name value filter := by
  have hx : x = .ok filter := (same max).symm.trans h
  exact .flat (levels filter hx) fun max' => (same max').trans hx

/-- A member that is made of the filters of an array. -/
theorem of_items (wrap : List Filter → Filter) {items : List Json}
    (names : ∀ filters k, (wrap filters).NamesWithin k → AllNamesWithin k filters)
    (levels : ∀ filters, (wrap filters).levels = 1 + levelsAll filters)
    (same : ∀ max', ofMember max' path depth name (.array items) =
      (ofItems max' path (depth + 1) items).map wrap)
    (h : ofMember max path depth name (.array items) = .ok filter) :
    ReadsMember max path depth name (.array items) filter := by
  obtain ⟨filters, hfilters, rfl⟩ := map_eq_ok.1 ((same max).symm.trans h)
  exact .items wrap rfl hfilters (names filters) (levels filters) same

/-- A member that is made of the filter that stands a level deeper. -/
theorem of_json (wrap : Filter → Filter) (place : FieldPath)
    (names : ∀ inner k, (wrap inner).NamesWithin k → inner.NamesWithin k)
    (levels : ∀ inner k, (wrap inner).NamesWithin k → (wrap inner).levels ≤ k + 1 + inner.levels)
    (same : ∀ max', ofMember max' path depth name value =
      (ofJson max' place (depth + 1) value).map wrap)
    (h : ofMember max path depth name value = .ok filter) :
    ReadsMember max path depth name value filter := by
  obtain ⟨inner, hinner, rfl⟩ := map_eq_ok.1 ((same max).symm.trans h)
  exact .deeper wrap place hinner (names inner) (levels inner) same

end ReadsMember

/-- A field has a level for itself and at most `k` for its name. -/
theorem levels_field_le (inner : Filter) (h : (field name inner).NamesWithin k) :
    (field name inner).levels ≤ k + 1 + inner.levels := by
  have hname : (segments name).length ≤ k := h.1
  rw [levels]
  omega

/-- A negation has one level of its own. -/
theorem levels_not_le (inner : Filter) : inner.not.levels ≤ k + 1 + inner.levels := by
  rw [levels]
  omega

/-- A filter on the matches of a relation has no level of its own. -/
theorem levels_elemMatch_le (inner : Filter) : inner.elemMatch.levels ≤ k + 1 + inner.levels := by
  rw [levels]
  omega

/-- A conjunction of one filter has one level of its own. -/
theorem levelsAll_singleton_le (inner : Filter) :
    1 + levelsAll [inner] ≤ k + 1 + inner.levels := by
  rw [levelsAll, levelsAll]
  omega

/-- Every member of an object is read in one of the three ways. -/
theorem readsMember (h : ofMember max path depth name value = .ok filter) :
    ReadsMember max path depth name value filter := by
  cases hkind : MemberKind.ofName name with
  | field =>
      exact .of_json (.field name) (path.child name) (fun _ _ hk => hk.2)
        (fun inner _ => levels_field_le inner) (fun _ => by simp only [ofMember, hkind]) h
  | not =>
      exact .of_json .not path (fun _ _ hk => hk) (fun inner _ _ => levels_not_le inner)
        (fun _ => by simp only [ofMember, hkind]) h
  | elemMatch =>
      cases value with
      | array items =>
          exact .of_json .elemMatch path (fun _ _ hk => hk)
            (fun inner _ _ => levels_elemMatch_le inner) (fun _ => by simp only [ofMember, hkind]) h
      | object members =>
          exact .of_json .elemMatch path (fun _ _ hk => hk)
            (fun inner _ _ => levels_elemMatch_le inner) (fun _ => by simp only [ofMember, hkind]) h
      | null | bool _ | int _ | float _ | string _ => simp [ofMember, hkind] at h
  | and =>
      cases value with
      | array items =>
          exact .of_items .all (fun _ _ hk => hk) (fun _ => rfl)
            (fun _ => by simp only [ofMember, hkind]) h
      | object members =>
          exact .of_json (.all [·]) path (fun _ _ hk => hk.1)
            (fun inner _ _ => levelsAll_singleton_le inner)
            (fun _ => by simp only [ofMember, hkind]) h
      | null | bool _ | int _ | float _ | string _ => simp [ofMember, hkind] at h
  | or =>
      cases value with
      | array items =>
          exact .of_items .any (fun _ _ hk => hk) (fun _ => rfl)
            (fun _ => by simp only [ofMember, hkind]) h
      | object members =>
          exact .of_json (.any [·]) path (fun _ _ hk => hk.1)
            (fun inner _ _ => levelsAll_singleton_le inner)
            (fun _ => by simp only [ofMember, hkind]) h
      | null | bool _ | int _ | float _ | string _ => simp [ofMember, hkind] at h
  | compare op =>
      refine .of_flat ((located path (operand name value)).map (.compare op)) ?_
        (fun _ => by simp only [ofMember, hkind]) h
      intro filter hfilter
      obtain ⟨operand, -, rfl⟩ := map_eq_ok.1 hfilter
      rfl
  | oneOf =>
      cases value with
      | array items =>
          refine .of_flat ((located path (operands name items)).map .oneOf) ?_
            (fun _ => by simp only [ofMember, hkind]) h
          intro filter hfilter
          obtain ⟨operands, -, rfl⟩ := map_eq_ok.1 hfilter
          rfl
      | null | bool _ | int _ | float _ | string _ | object _ => simp [ofMember, hkind] at h
  | contains =>
      cases value with
      | string needle =>
          refine .of_flat (.ok (.contains needle)) ?_ (fun _ => by simp only [ofMember, hkind]) h
          rintro filter ⟨⟩
          rfl
      | null | bool _ | int _ | float _ | array _ | object _ => simp [ofMember, hkind] at h
  | unknown => simp [ofMember, hkind] at h

mutual

/-- A filter that is read within a limit is read alike within every larger one. -/
theorem ofJson_mono (hmax : max ≤ max') (value : Json) {path : FieldPath} {depth : Nat}
    {filter : Filter} (h : ofJson max path depth value = .ok filter) :
    ofJson max' path depth value = .ok filter := by
  match value with
  | .object members =>
      rw [ofJson] at h ⊢
      split at h
      · cases h
      · rw [if_neg (by omega)]
        split at h
        next hmagic => rwa [if_pos hmagic]
        next hmagic =>
          rw [if_neg hmagic, map_eq_ok]
          obtain ⟨filters, hfilters, rfl⟩ := map_eq_ok.1 h
          exact ⟨filters, ofMembers_mono hmax members (by omega) hfilters, rfl⟩
  | .array items =>
      rw [ofJson] at h ⊢
      split at h
      · cases h
      · rw [if_neg (by omega), map_eq_ok]
        obtain ⟨filters, hfilters, rfl⟩ := map_eq_ok.1 h
        exact ⟨filters, ofItems_mono hmax items hfilters, rfl⟩
  | .null | .bool _ | .int _ | .float _ | .string _ =>
      simp only [ofJson] at h ⊢
      split at h
      · cases h
      · rwa [if_neg (by omega)]
termination_by structural value

/-- The items of an array are read alike under a greater limit. -/
theorem ofItems_mono (hmax : max ≤ max') (items : List Json) {path : FieldPath} {depth : Nat}
    {filters : List Filter} (h : ofItems max path depth items = .ok filters) :
    ofItems max' path depth items = .ok filters := by
  match items with
  | [] => exact h
  | item :: rest =>
      simp only [ofItems, bind_eq_ok, pure, Except.pure] at h ⊢
      obtain ⟨filter, hfilter, filters, hfilters, h⟩ := h
      exact ⟨filter, ofJson_mono hmax item hfilter, filters, ofItems_mono hmax rest hfilters, h⟩
termination_by structural items

/-- The members of an object are read alike under a greater limit. -/
theorem ofMembers_mono (hmax : max ≤ max') (members : List (String × Json)) {path : FieldPath}
    {depth : Nat} {filters : List Filter} (hdepth : depth ≤ max)
    (h : ofMembers max path depth members = .ok filters) :
    ofMembers max' path depth members = .ok filters := by
  match members with
  | [] => exact h
  | (name, value) :: rest =>
      simp only [ofMembers_cons, bind_eq_ok, pure, Except.pure] at h ⊢
      obtain ⟨filter, hfilter, filters, hfilters, h⟩ := h
      refine ⟨filter, ?_, filters, ofMembers_mono hmax rest hdepth hfilters, h⟩
      cases readsMember hfilter with
      | flat levels same => exact same max'
      | deeper wrap place reads names levels same =>
          rw [same, ofJson_mono hmax value reads]
          rfl
      | items wrap array reads names levels same =>
          -- the recursion is on the value, so its items are taken as the conjunction it is read as
          have hmono := ofJson_mono hmax value ((ofJson_all hdepth array).2 reads)
          rw [same, (ofJson_all (by omega) array).1 hmono]
          rfl
termination_by structural members

end

/-- The levels that a value takes by itself. An object of several members takes one for their
conjunction. -/
def ownLevels : Json → Nat
  | .object _ => 2
  | .null | .bool _ | .int _ | .float _ | .string _ | .array _ => 1

/-- At most two levels are a value's own. -/
theorem ownLevels_le (value : Json) : ownLevels value ≤ 2 := by
  cases value <;> simp [ownLevels]

/-- A value that is read stands within the limit. -/
theorem depth_le_of_ofJson (h : ofJson max path depth value = .ok filter) : depth ≤ max := by
  by_contra hdeep
  cases value <;> simp [ofJson, if_pos (show max < depth by omega)] at h

/-- A conjunction has at most one level of its own. -/
theorem levels_conjunction_le (filters : List Filter) :
    (conjunction filters).levels ≤ 1 + levelsAll filters := by
  unfold conjunction
  split
  · exact (Nat.le_max_left _ _).trans (Nat.le_add_left _ _)
  · exact le_rfl

/-- The names of a conjunction are those of its filters. -/
theorem namesWithin_conjunction {filters : List Filter} (h : (conjunction filters).NamesWithin k) :
    AllNamesWithin k filters := by
  unfold conjunction at h
  split at h
  · exact ⟨h, trivial⟩
  · exact h

mutual

/-- A level of the value makes at most `k + 2` levels of the filter, where names have at most `k`
segments: a field with its name, and a conjunction. -/
theorem levels_ofJson (value : Json) {path : FieldPath} {depth : Nat} {filter : Filter}
    (h : ofJson max path depth value = .ok filter) (hnames : filter.NamesWithin k) :
    filter.levels + (k + 2) * depth ≤ (k + 2) * max + ownLevels value := by
  have hdepth := depth_le_of_ofJson h
  have hleast : (k + 2) * depth ≤ (k + 2) * max := Nat.mul_le_mul_left _ hdepth
  match value with
  | .object members =>
      simp only [ofJson] at h
      rw [if_neg (by omega)] at h
      split at h
      · obtain ⟨operand, -, rfl⟩ := map_eq_ok.1 h
        rw [ownLevels, levels]
        omega
      · obtain ⟨filters, hfilters, rfl⟩ := map_eq_ok.1 h
        have hmembers := levels_ofMembers members hdepth hfilters (namesWithin_conjunction hnames)
        have hconj := levels_conjunction_le filters
        rw [ownLevels]
        omega
  | .array items =>
      simp only [ofJson] at h
      rw [if_neg (by omega)] at h
      obtain ⟨filters, hfilters, rfl⟩ := map_eq_ok.1 h
      rw [ownLevels, levels]
      rcases levels_ofItems items hfilters hnames with hempty | hitems
      · omega
      · rw [Nat.mul_add_one] at hitems
        omega
  | .null | .bool _ | .int _ | .float _ | .string _ =>
      simp only [ofJson] at h
      rw [if_neg (by omega)] at h
      obtain ⟨operand, -, rfl⟩ := map_eq_ok.1 h
      rw [ownLevels, levels]
      omega
termination_by structural value

/-- The levels of the items of an array, unless there are no items. -/
theorem levels_ofItems (items : List Json) {path : FieldPath} {depth : Nat}
    {filters : List Filter} (h : ofItems max path depth items = .ok filters)
    (hnames : AllNamesWithin k filters) :
    levelsAll filters = 0 ∨ levelsAll filters + (k + 2) * depth ≤ (k + 2) * max + 2 := by
  match items with
  | [] =>
      cases h
      exact .inl rfl
  | item :: rest =>
      simp only [ofItems, bind_eq_ok, pure, Except.pure] at h
      obtain ⟨filter, hfilter, filters, hfilters, h⟩ := h
      cases h
      have hitem := levels_ofJson item hfilter hnames.1
      have hrest := levels_ofItems rest hfilters hnames.2
      have hown := ownLevels_le item
      rw [levelsAll]
      omega
termination_by structural items

/-- The levels of the members of an object, at most one of them their own. -/
theorem levels_ofMembers (members : List (String × Json)) {path : FieldPath} {depth : Nat}
    {filters : List Filter} (hdepth : depth ≤ max)
    (h : ofMembers max path depth members = .ok filters) (hnames : AllNamesWithin k filters) :
    levelsAll filters + (k + 2) * depth ≤ (k + 2) * max + 1 := by
  have hleast : (k + 2) * depth ≤ (k + 2) * max := Nat.mul_le_mul_left _ hdepth
  match members with
  | [] =>
      cases h
      rw [levelsAll]
      omega
  | (name, value) :: rest =>
      simp only [ofMembers_cons, bind_eq_ok, pure, Except.pure] at h
      obtain ⟨filter, hfilter, filters, hfilters, h⟩ := h
      cases h
      have hrest := levels_ofMembers rest hdepth hfilters hnames.2
      have hmember : filter.levels + (k + 2) * depth ≤ (k + 2) * max + 1 := by
        cases readsMember hfilter with
        | flat levels same => omega
        | items wrap array reads names levels same =>
            -- an array has as many levels in a conjunction of its own as it has here
            have hvalue := levels_ofJson value ((ofJson_all hdepth array).2 reads)
              (names k hnames.1)
            rw [array, ownLevels, Filter.levels] at hvalue
            omega
        | deeper wrap place reads names levels same =>
            have hvalue := levels_ofJson value reads (names k hnames.1)
            have hwrap := levels k hnames.1
            have hown := ownLevels_le value
            rw [Nat.mul_add_one] at hvalue
            omega
      rw [levelsAll]
      omega
termination_by structural members

end

/-- A filter is refused for the depth only where its levels exceed the limit, and for each level of
the JSON value it has at most two more levels than its names have segments. -/
theorem compileJson_shallow {schema : Schema} {n : Nat}
    (hschema : schema.Each FieldDefinition.Shallow) (hread : read n value = .ok filter) :
    (n ≤ limits.maxDepth → filter.levels ≤ limits.maxDepth →
        ¬TooDeep (compileJson limits now schema value)) ∧
      ∀ k, filter.NamesWithin k → filter.levels ≤ (k + 2) * (n - 1) + 2 := by
  refine ⟨fun hlimit hlevels => ?_, fun k hk => ?_⟩
  · have hread' : read limits.maxDepth value = .ok filter := ofJson_mono hlimit value hread
    rw [compileJson, hread']
    exact compileAt_shallow filter (.schema hschema) (by omega)
  · have hpos : 1 ≤ n := depth_le_of_ofJson hread
    have hvalue := levels_ofJson value hread hk
    have hown := ownLevels_le value
    obtain ⟨m, rfl⟩ := Nat.exists_eq_add_of_le' hpos
    rw [Nat.mul_add_one (k + 2) m] at hvalue
    rw [Nat.add_sub_cancel]
    omega

namespace Sample

/-- A schema with one column. -/
def counts : Schema :=
  .ofFields [("count", .column (.ofExpr (.column ⟨.own, ⟨"count", .refl true⟩⟩) .number) none)]

/-- The count is 1. -/
def single : Json := .object [("count", .int 1)]

/-- The filter that is read for it. -/
def readSingle : Filter := .field "count" (.compare .eq (.int 1))

/-- It is read with two levels of JSON. -/
theorem read_single : read 2 single = .ok readSingle :=
  rfl

end Sample

open Sample in
/-- The filter takes three levels in the compiler. -/
theorem compileJson_shallow_counts :
    counts.Each FieldDefinition.Shallow ∧ read 2 single = .ok readSingle ∧
      ¬TooDeep (compileJson { maxDepth := 3 } default counts single) ∧
      readSingle.NamesWithin 1 ∧ readSingle.levels ≤ 5 := by
  have hschema : counts.Each FieldDefinition.Shallow := .singleton nofun (.column nofun)
  have hnames : readSingle.NamesWithin 1 := ⟨by decide, trivial⟩
  have hshallow : ¬TooDeep (compileJson { maxDepth := 3 } default counts single) :=
    (compileJson_shallow hschema read_single).1 (by decide) (by decide)
  have hlevels : readSingle.levels ≤ 5 :=
    (@compileJson_shallow {} default _ _ _ _ hschema read_single).2 1 hnames
  exact ⟨hschema, read_single, hshallow, hnames, hlevels⟩

open Sample in
/-- A filter of two levels is read within a limit of two and refused by the compiler. -/
theorem compileJson_refuses_single :
    ∃ filter, read 2 single = .ok filter ∧
      TooDeep (filter.compile { maxDepth := 2 } default counts) ∧
      TooDeep (compileJson { maxDepth := 2 } default counts single) :=
  ⟨readSingle, read_single, ⟨_, 2, rfl, rfl⟩, ⟨_, 2, rfl, rfl⟩⟩

end Filter

end FilterSql
