import FilterSql.Proofs.Filter.Meaning
import FilterSql.Proofs.Filter.Steps
import FilterSql.Proofs.Sql.Shape

/-!
# Filters that differ in a caller's data

What a caller sends are operands, texts to look for, and the keys of maps. Two filters that differ
in these alone (`Filter.Alike`) are compiled to predicates of one shape, so a statement that they
restrict is rendered to the same text (`Filter.compile_text_alike`). The schema may use the key of a
map where values are bound and nowhere else; it is then like itself (`Schema.Alike`) for any two
keys.
-/

namespace FilterSql

/-! ## Operands and values -/

/-- Whether a value is a text. -/
def Value.isText : Value → Bool
  | .string _ => true
  | _ => false

/-- Both values are `NULL`, both are texts, or none of them is either. -/
def Value.Alike (v w : Value) : Prop :=
  v.isNull = w.isNull ∧ v.isText = w.isText

/-- Two operands are of one kind. The instant of the compilation is like any other. -/
def Operand.Alike : Operand → Operand → Prop
  | .null, .null => True
  | .bool _, .bool _ => True
  | .int _, .int _ => True
  | .float _, .float _ => True
  | .string _, .string _ => True
  | .instant _, .instant _ => True
  | .instant _, .now => True
  | .now, .instant _ => True
  | .now, .now => True
  | _, _ => False

namespace Operand

variable {now now' : Instant} {kind : ColumnKind} {a b : Operand}

/-- Of two operands of one kind both are null or neither is. -/
theorem Alike.isNull (h : a.Alike b) : a.isNull = b.isNull := by
  cases a <;> cases b <;> first | rfl | exact h.elim

/-- Operands of one kind stand for values of one kind. -/
theorem Alike.toValue {v w : Value} (h : a.Alike b) (hv : a.toValue now kind = .ok v)
    (hw : b.toValue now' kind = .ok w) : v.Alike w := by
  cases a <;> cases b <;> first | exact h.elim | skip
  all_goals
    cases kind <;>
      simp only [Operand.toValue, Except.ok.injEq, reduceCtorEq] at hv hw <;>
      grind [Value.Alike, Value.isNull, Value.isText]

/-- The values of two lists of operands are of one kind, one after the other. -/
theorem alike_toValues {as bs : List Operand} {vs ws : List Value}
    (h : List.Forall₂ Alike as bs) (hv : toValues now kind as = .ok vs)
    (hw : toValues now' kind bs = .ok ws) : List.Forall₂ Value.Alike vs ws := by
  induction h generalizing vs ws with
  | nil =>
      cases hv
      cases hw
      exact .nil
  | cons hab _ ih =>
      simp only [toValues, bind_eq_ok] at hv hw
      obtain ⟨v, hv, vs, hvs, hpure⟩ := hv
      cases hpure
      obtain ⟨w, hw, ws, hws, hpure⟩ := hw
      cases hpure
      exact .cons (hab.toValue hv hw) (ih hvs hws)

/-- Both lists have a null or neither has. -/
theorem alike_any_isNull {as bs : List Operand} (h : List.Forall₂ Alike as bs) :
    as.any Operand.isNull = bs.any Operand.isNull := by
  induction h with
  | nil => rfl
  | cons hab _ ih => rw [List.any_cons, List.any_cons, hab.isNull, ih]

/-- Without their nulls the lists are still of one kind. -/
theorem alike_present {as bs : List Operand} (h : List.Forall₂ Alike as bs) :
    List.Forall₂ Alike (as.filter (!·.isNull)) (bs.filter (!·.isNull)) := by
  induction h with
  | nil => exact .nil
  | @cons a b _ _ hab _ ih =>
      rw [List.filter_cons, List.filter_cons, hab.isNull]
      split
      · exact .cons hab ih
      · exact ih

end Operand

/-! ## Tests on columns -/

/-- Two columns are tested in the same way. -/
structure FilterColumn.Alike (c c' : FilterColumn) : Prop where
  expr : c.expr.shape = c'.expr.shape
  kind : c.kind = c'.kind
  nullable : c.nullable = c'.nullable

namespace FilterColumn

variable {c c' : FilterColumn} {v w : Value}

/-- A text is compared with the lower-cased column, if the column is text. -/
theorem target_eq (v : Value) :
    c.target v = if v.isText && c.kind.isText then c.lowerText else c.expr := by
  cases v <;> simp [target, Value.isText]

/-- The lower-cased columns have one shape. -/
theorem Alike.lowerText (h : c.Alike c') : c.lowerText.shape = c'.lowerText.shape := by
  obtain ⟨expr, kind, nullable⟩ := c
  obtain ⟨expr', kind', nullable'⟩ := c'
  obtain ⟨hexpr, rfl, -⟩ := h
  cases kind <;> simp only [FilterColumn.lowerText, Expr.shape, hexpr]

/-- What values of one kind are compared with has one shape. -/
theorem Alike.target (h : c.Alike c') (hvalue : v.Alike w) :
    (c.target v).shape = (c'.target w).shape := by
  rw [target_eq, target_eq, hvalue.2, h.kind]
  split
  · exact h.lowerText
  · exact h.expr

/-- The two tests for `NULL` have one shape. -/
theorem Alike.null (h : c.Alike c') :
    (Condition.null c.expr).shape = (Condition.null c'.expr).shape := by
  simp only [Condition.null, Condition.shape, h.expr]

/-- The two tests for nothing, `NULL` or a JSON null, have one shape. -/
theorem Alike.isNothing (h : c.Alike c') : c.isNothing.shape = c'.isNothing.shape := by
  unfold FilterColumn.isNothing
  rw [h.kind]
  split
  · rw [Condition.shape_or, Condition.shape_or, h.null, Condition.shape, Condition.shape, h.expr]
  · exact h.null

/-- Comparisons with values of one kind have one shape. -/
theorem Alike.compare (h : c.Alike c') (hvalue : v.Alike w) (op : CompareOp) :
    (Condition.compare (c.target v) op (.param v)).shape =
      (Condition.compare (c'.target w) op (.param w)).shape := by
  simp only [Condition.shape, h.target hvalue, Expr.shape]

/-- How an element is looked for depends on whether it is a text or `NULL`. -/
theorem holds_eq (v : Value) :
    c.holds v =
      if v.isText then .arrayContains c.expr v true
      else if v.isNull then (Condition.arrayContains c.expr v false).or (.null c.expr)
      else .arrayContains c.expr v false := by
  cases v <;> rfl

/-- Searches for elements of one kind have one shape. -/
theorem Alike.holds (h : c.Alike c') (hvalue : v.Alike w) :
    (c.holds v).shape = (c'.holds w).shape := by
  have harray : ∀ foldCase, (Condition.arrayContains c.expr v foldCase).shape =
      (Condition.arrayContains c'.expr w foldCase).shape := by
    intro foldCase
    simp only [Condition.shape, h.expr]
  rw [holds_eq, holds_eq, hvalue.1, hvalue.2]
  split
  · exact harray true
  · split
    · rw [Condition.shape_or, Condition.shape_or, harray, h.null]
    · exact harray false

/-- Tests for equality with values of one kind have one shape. -/
theorem Alike.equals (h : c.Alike c') (hvalue : v.Alike w) :
    (c.equals v).shape = (c'.equals w).shape := by
  unfold FilterColumn.equals
  rw [h.kind]
  split
  · exact h.holds hvalue
  · rw [hvalue.1, h.nullable]
    split
    · exact h.isNothing
    · split
      · simp only [Condition.shape, h.target hvalue, Expr.shape]
      · exact h.compare hvalue .eq

/-- Tests for what lies above values of one kind have one shape. -/
theorem Alike.above (h : c.Alike c') (hvalue : v.Alike w) :
    (c.above v).shape = (c'.above w).shape := by
  have hnotNull : (Condition.notNull c.expr).shape = (Condition.notNull c'.expr).shape := by
    simp only [Condition.notNull, Condition.shape, h.expr]
  unfold FilterColumn.above
  rw [hvalue.1, h.nullable]
  split
  · split
    · exact congrArg Predicate.condition hnotNull
    · rfl
  · refine congrArg Predicate.condition ?_
    split
    · rw [Condition.shape_and, Condition.shape_and, hnotNull, h.compare hvalue]
    · exact h.compare hvalue .gt

/-- Tests for what lies below values of one kind have one shape. -/
theorem Alike.below (h : c.Alike c') (hvalue : v.Alike w) :
    (c.below v).shape = (c'.below w).shape := by
  unfold FilterColumn.below
  rw [hvalue.1, h.nullable]
  split
  · rfl
  · refine congrArg Predicate.condition ?_
    split
    · rw [Condition.shape_or, Condition.shape_or, h.null, h.compare hvalue]
    · exact h.compare hvalue .lt

/-- How membership is tested depends on the kind of the column, the number of values and the first
value. -/
theorem isAmong_eq (values : List Value) :
    c.isAmong values =
      if c.kind = .jsonArray then .overlaps c.expr values
      else match values with
        | [] => .oneOf c.expr [] false
        | [value] => .eq (c.target value) (.param value)
        | first :: rest => .oneOf (c.target first) (first :: rest) false := by
  obtain ⟨expr, kind, nullable⟩ := c
  cases kind <;> rcases values with _ | ⟨first, _ | ⟨second, rest⟩⟩ <;> rfl

/-- Tests for membership in lists of one kind have one shape. -/
theorem Alike.isAmong (h : c.Alike c') {vs ws : List Value}
    (hvalues : List.Forall₂ Value.Alike vs ws) : (c.isAmong vs).shape = (c'.isAmong ws).shape := by
  have hmany : ∀ left left' : Expr, left.shape = left'.shape →
      (Condition.oneOf left vs false).shape = (Condition.oneOf left' ws false).shape := by
    intro left left' hleft
    simp only [Condition.shape, hleft, List.map_const', hvalues.length_eq]
  rw [isAmong_eq, isAmong_eq, h.kind]
  split
  · simp only [Condition.shape, h.expr]
  · cases hvalues with
    | nil => exact hmany _ _ h.expr
    | cons hvalue hrest =>
        cases hrest with
        | nil => exact h.compare hvalue .eq
        | cons => exact hmany _ _ (h.target hvalue)

/-! ## Operators -/

variable {now now' : Instant} {p q : Predicate}

/-- Compiled comparisons with operands of one kind have one shape. -/
theorem Alike.compile_compare (h : c.Alike c') {op : CompareOp} {a b : Operand} (hab : a.Alike b)
    (hp : c.compare now op a = .ok p) (hq : c'.compare now' op b = .ok q) : p.shape = q.shape := by
  simp only [FilterColumn.compare, map_eq_ok] at hp hq
  obtain ⟨v, hv, rfl⟩ := hp
  obtain ⟨w, hw, rfl⟩ := hq
  rw [← h.kind] at hw
  have hvalue := hab.toValue hv hw
  have hequals : (Predicate.condition (c.equals v)).shape =
      (Predicate.condition (c'.equals w)).shape :=
    congrArg Predicate.condition (h.equals hvalue)
  cases op with
  | eq => exact hequals
  | neq => rw [Predicate.shape_negate, Predicate.shape_negate, hequals]
  | gt => exact h.above hvalue
  | lte => rw [Predicate.shape_negate, Predicate.shape_negate, h.above hvalue]
  | lt => exact h.below hvalue
  | gte => rw [Predicate.shape_negate, Predicate.shape_negate, h.below hvalue]

/-- Compiled tests for membership in lists of one kind have one shape. -/
theorem Alike.compile_oneOf (h : c.Alike c') {maxValues : Nat} {as bs : List Operand}
    (hoperands : List.Forall₂ Operand.Alike as bs) (hp : c.oneOf now maxValues as = .ok p)
    (hq : c'.oneOf now' maxValues bs = .ok q) : p.shape = q.shape := by
  have hnull : (c.equals .null).shape = (c'.equals .null).shape := h.equals ⟨rfl, rfl⟩
  have hempty : as.isEmpty = bs.isEmpty := by cases hoperands <;> rfl
  unfold FilterColumn.oneOf at hp hq
  rw [← hoperands.length_eq, ← hempty, ← h.kind, ← Operand.alike_any_isNull hoperands] at hq
  split at hp
  · cases hp
  next hlength =>
    rw [if_neg hlength] at hq
    split at hp
    next hnone =>
      rw [if_pos hnone] at hq
      cases hp
      cases hq
      rfl
    next hsome =>
      rw [if_neg hsome, map_eq_ok] at hq
      rw [map_eq_ok] at hp
      obtain ⟨vs, hvs, rfl⟩ := hp
      obtain ⟨ws, hws, rfl⟩ := hq
      have hvalues := Operand.alike_toValues (Operand.alike_present hoperands) hvs hws
      have hisEmpty : vs.isEmpty = ws.isEmpty := by cases hvalues <;> rfl
      have hamong := h.isAmong hvalues
      rw [hisEmpty]
      split
      · exact congrArg Predicate.condition hamong
      · split
        · exact congrArg Predicate.condition hnull
        · refine congrArg Predicate.condition ?_
          rw [Condition.shape_or, Condition.shape_or, hnull, hamong]

/-- Compiled searches for any two texts have one shape. -/
theorem Alike.compile_contains (h : c.Alike c') {needle needle' : String}
    (hp : c.contains needle = .ok p) (hq : c'.contains needle' = .ok q) : p.shape = q.shape := by
  unfold FilterColumn.contains at hp hq
  rw [← h.kind] at hq
  split at hp
  next htext =>
    rw [if_pos htext] at hq
    cases hp
    cases hq
    refine congrArg Predicate.condition ?_
    rw [Condition.shape, Condition.shape, h.lowerText]
  next => cases hp

end FilterColumn

/-! ## Schemas -/

mutual

/-- Two fields stand for things of one shape, and so do the fields below them. A map does so with
any two keys, and a join is the same join. -/
inductive FieldDefinition.Alike : FieldDefinition → FieldDefinition → Prop where
  | column {c c' : FilterColumn} {below below' : Option Schema} (value : c.Alike c')
      (present : below.isSome = below'.isSome)
      (fields : ∀ s t, below = some s → below' = some t → s.Alike t) :
      FieldDefinition.Alike (.column c below) (.column c' below')
  | nested {s t : Schema} (fields : s.Alike t) : FieldDefinition.Alike (.nested s) (.nested t)
  | related {base base' : Select} {s t : Schema} (rows : base.shape = base'.shape)
      (fields : s.Alike t) : FieldDefinition.Alike (.related base s) (.related base' t)
  | joined {join : Join} {s t : Schema} {always : Bool} (fields : s.Alike t) :
      FieldDefinition.Alike (.joined join s always) (.joined join t always)
  | wildcard {column column' : String → FilterColumn} {below below' : Option (String → Schema)}
      (values : ∀ key key', (column key).Alike (column' key'))
      (present : below.isSome = below'.isSome)
      (fields : ∀ s t key key', below = some s → below' = some t → (s key).Alike (t key')) :
      FieldDefinition.Alike (.wildcard column below) (.wildcard column' below')

/-- Two schemas have the same names, for fields that are alike. -/
inductive Schema.Alike : Schema → Schema → Prop where
  | intro {s t : Schema} (names : ∀ name, (s.get? name).isSome = (t.get? name).isSome)
      (each : ∀ name field field', s.get? name = some field → t.get? name = some field' →
        field.Alike field') : Schema.Alike s t

end

/-- The fields that are visible at two places are alike. -/
inductive Fields.Alike : Fields → Fields → Prop where
  | none : Fields.Alike .none .none
  | schema {s t : Schema} (fields : s.Alike t) : Fields.Alike (.schema s) (.schema t)
  | wildcard {column column' : String → FilterColumn} {below below' : Option (String → Schema)}
      (values : ∀ key key', (column key).Alike (column' key'))
      (present : below.isSome = below'.isSome)
      (fields : ∀ s t key key', below = some s → below' = some t → (s key).Alike (t key')) :
      Fields.Alike (.wildcard column below) (.wildcard column' below')

/-- Two places have fields that are alike and columns that are tested in the same way. -/
structure Scope.Alike (s t : Scope) : Prop where
  fields : s.fields.Alike t.fields
  column : ∀ c c', s.column = some c → t.column = some c' → c.Alike c'

/-- Two places are entered in the same way. -/
inductive Entry.Alike : Entry → Entry → Prop where
  | row : Entry.Alike .row .row
  | related {base base' : Select} (rows : base.shape = base'.shape) :
      Entry.Alike (.related base) (.related base')
  | joined {join : Join} {always : Bool} : Entry.Alike (.joined join always) (.joined join always)

/-- Predicates of one shape behind entries that are alike have one shape. -/
theorem Entry.Alike.enclose {entry entry' : Entry} {p q : Predicate} (h : entry.Alike entry')
    (hpq : p.shape = q.shape) : (entry.enclose p).shape = (entry'.enclose q).shape := by
  cases h with
  | row => exact hpq
  | @related base base' hbase =>
      cases p <;> cases q <;> simp only [Predicate.shape, reduceCtorEq] at hpq
      · rw [Entry.enclose, Entry.enclose, Predicate.shape, Predicate.shape, Condition.shape,
          Condition.shape, hbase]
      · rfl
      · rw [Entry.enclose, Entry.enclose, Predicate.shape, Predicate.shape, Condition.shape,
          Condition.shape, Select.restrictBy, Select.restrictBy, Select.shape_restrict,
          Select.shape_restrict, hbase, Predicate.shape, Predicate.shape, hpq]
  | joined =>
      cases p <;> cases q <;> simp only [Predicate.shape, reduceCtorEq] at hpq <;>
        simp_all [Entry.enclose, Predicate.shape, Condition.shape]

/-- Predicates of one shape behind entries that are alike one after the other have one shape. -/
theorem Entry.alike_foldr {entries entries' : List Entry} {p q : Predicate}
    (h : List.Forall₂ Entry.Alike entries entries') (hpq : p.shape = q.shape) :
    (entries.foldr Entry.enclose p).shape = (entries'.foldr Entry.enclose q).shape := by
  induction h with
  | nil => exact hpq
  | cons hentry _ ih => exact hentry.enclose ih

/-! ## Names -/

/-- Optional fields are alike if both are there or neither is, and they are alike where they are. -/
theorem Fields.alike_ofOption {below below' : Option Schema}
    (present : below.isSome = below'.isSome)
    (fields : ∀ s t, below = some s → below' = some t → s.Alike t) :
    (Fields.ofOption below).Alike (Fields.ofOption below') := by
  cases below with
  | none =>
      cases below' with
      | none => exact .none
      | some t => cases present
  | some s =>
      cases below' with
      | none => cases present
      | some t => exact .schema (fields s t rfl rfl)

/-- The steps into two fields that are alike lead to places that are alike. -/
theorem FieldDefinition.Alike.step {field field' : FieldDefinition} (h : field.Alike field')
    (path path' : FieldPath) :
    ∃ entry entry' s s', field.step path = .into entry s ∧ field'.step path' = .into entry' s' ∧
      entry.Alike entry' ∧ s.Alike s' := by
  cases h with
  | column value present fields =>
      refine ⟨_, _, _, _, rfl, rfl, .row, Fields.alike_ofOption present fields, ?_⟩
      rintro _ _ ⟨⟩ ⟨⟩
      exact value
  | nested fields => exact ⟨_, _, _, _, rfl, rfl, .row, .schema fields, by rintro _ _ ⟨⟩⟩
  | related rows fields =>
      exact ⟨_, _, _, _, rfl, rfl, .related rows, .schema fields, by rintro _ _ ⟨⟩⟩
  | joined fields => exact ⟨_, _, _, _, rfl, rfl, .joined, .schema fields, by rintro _ _ ⟨⟩⟩
  | wildcard values present fields =>
      exact ⟨_, _, _, _, rfl, rfl, .row, .wildcard values present fields, by rintro _ _ ⟨⟩⟩

/-- The fields that a field leads to. -/
def FieldDefinition.inner : FieldDefinition → Fields
  | .column _ below => .ofOption below
  | .nested schema => .schema schema
  | .related _ schema => .schema schema
  | .joined _ schema _ => .schema schema
  | .wildcard value below => .wildcard value below
  | .custom _ => .none

/-- A step leads to the fields that a field leads to. -/
theorem FieldDefinition.inner_of_step {field : FieldDefinition} {path : FieldPath} {entry : Entry}
    {s : Scope} (h : field.step path = .into entry s) : s.fields = field.inner := by
  cases field <;> cases h <;> rfl

/-- Two names are equal up to the keys of maps. The keys are first segments where the fields are
those of a map, and no field may have the rest of a name as a whole before a key is reached. -/
inductive Fields.NamesAlike : Fields → List String → List String → Prop where
  | refl (fields : Fields) (segments : List String) : NamesAlike fields segments segments
  | key {column : String → FilterColumn} {below : Option (String → Schema)} (key key' : String)
      {rest rest' : List String} (h : NamesAlike (.ofOption (below.map (· key))) rest rest') :
      NamesAlike (.wildcard column below) (key :: rest) (key' :: rest')
  | field {schema : Schema} {head : String} {rest rest' : List String} {field : FieldDefinition}
      (get : schema.get? head = some field)
      (whole : schema.get? (Text.join "." (head :: rest)) = .none)
      (whole' : schema.get? (Text.join "." (head :: rest')) = .none)
      (h : NamesAlike field.inner rest rest') :
      NamesAlike (.schema schema) (head :: rest) (head :: rest')

/-- Two names lead to places that are alike, by way of entries that are alike. -/
structure Target.Alike (target target' : Target) : Prop where
  passed : List.Forall₂ Entry.Alike target.passed target'.passed
  landing : ∃ entry entry' s s', target.landing = .scope entry s ∧
    target'.landing = .scope entry' s' ∧ entry.Alike entry' ∧ s.Alike s'

/-- Two fields that are alike are alike as the ends of a name. -/
theorem FieldDefinition.Alike.land {field field' : FieldDefinition} (h : field.Alike field')
    (path path' : FieldPath) : (field.step path).land.Alike (field'.step path').land := by
  obtain ⟨entry, entry', s, s', hstep, hstep', hentry, hs⟩ := h.step path path'
  rw [hstep, hstep']
  exact ⟨.nil, entry, entry', s, s', rfl, rfl, hentry, hs⟩

/-- Steps before the rest of two names keep them alike. -/
theorem Target.Alike.behind {target target' : Target} {entry entry' : Entry} {n n' : Nat}
    (h : target.Alike target') (hentry : entry.Alike entry') :
    Target.Alike { target with passed := entry :: target.passed, steps := n }
      { target' with passed := entry' :: target'.passed, steps := n' } :=
  ⟨.cons hentry h.passed, h.landing⟩

namespace Scope

variable {s t : Scope} {target target' : Target} {head head' : String} {rest rest' : List String}

/-- The first step at a place with a schema leads to the field of that name. -/
theorem first_schema {schema : Schema} (h : s.fields = .schema schema) :
    s.first head = (schema.get? head).map (·.step (s.path.child head)) := by
  unfold first
  rw [h]

/-- The first step at a place with a map leads to the value of the key. -/
theorem first_wildcard {column : String → FilterColumn} {below : Option (String → Schema)}
    (h : s.fields = .wildcard column below) :
    s.first head = some (.into .row
      ⟨.ofOption (below.map (· head)), some (column head), s.path.child head⟩) := by
  unfold first
  rw [h]

/-- The step into the value of a map, with any two keys. -/
theorem alike_value {column column' : String → FilterColumn}
    {below below' : Option (String → Schema)} {path path' : FieldPath}
    (values : ∀ key key', (column key).Alike (column' key'))
    (present : below.isSome = below'.isSome)
    (fields : ∀ s t key key', below = some s → below' = some t → (s key).Alike (t key')) :
    Scope.Alike ⟨.ofOption (below.map (· head)), some (column head), path⟩
      ⟨.ofOption (below'.map (· head')), some (column' head'), path'⟩ := by
  refine ⟨Fields.alike_ofOption (by simpa using present) ?_, ?_⟩
  · intro u u' hu hu'
    obtain ⟨below, rfl, rfl⟩ := Option.map_eq_some_iff.1 hu
    obtain ⟨below', rfl, rfl⟩ := Option.map_eq_some_iff.1 hu'
    exact fields below below' head head' rfl rfl
  · rintro _ _ ⟨⟩ ⟨⟩
    exact values head head'

/-- One segment leads to places that are alike, from places that are alike. -/
theorem Alike.first (h : s.Alike t) {step step' : Step} (hstep : s.first head = some step)
    (hstep' : t.first head = some step') :
    ∃ entry entry' u u', step = .into entry u ∧ step' = .into entry' u' ∧ entry.Alike entry' ∧
      u.Alike u' := by
  obtain ⟨fields, column, path⟩ := s
  obtain ⟨fields', column', path'⟩ := t
  obtain ⟨hfields, -⟩ := h
  cases hfields with
  | none => cases hstep
  | @schema schema schema' hschema =>
      obtain ⟨-, each⟩ := hschema
      obtain ⟨field, hfield, rfl⟩ := Option.map_eq_some_iff.1 hstep
      obtain ⟨field', hfield', rfl⟩ := Option.map_eq_some_iff.1 hstep'
      exact (each head field field' hfield hfield').step _ _
  | wildcard values present fields =>
      cases hstep
      cases hstep'
      exact ⟨_, _, _, _, rfl, rfl, .row, alike_value values present fields⟩

/-- Under one name two places that are alike have no field, or fields that are alike. -/
theorem Alike.get? (h : s.Alike t) (name : String) :
    (s.fields.get? name = none ∧ t.fields.get? name = none) ∨
      ∃ field field', s.fields.get? name = some field ∧ t.fields.get? name = some field' ∧
        field.Alike field' := by
  obtain ⟨hfields, -⟩ := h
  generalize s.fields = fields at hfields
  generalize t.fields = fields' at hfields
  cases hfields with
  | none => exact Or.inl ⟨rfl, rfl⟩
  | wildcard => exact Or.inl ⟨rfl, rfl⟩
  | @schema schema schema' hschema =>
      obtain ⟨names, each⟩ := hschema
      have hsome := names name
      cases hfield : schema.get? name with
      | none =>
          rw [hfield, Option.isSome_none, eq_comm, Option.isSome_eq_false_iff,
            Option.isNone_iff_eq_none] at hsome
          exact Or.inl ⟨hfield, hsome⟩
      | some field =>
          rw [hfield, Option.isSome_some, eq_comm, Option.isSome_iff_exists] at hsome
          obtain ⟨field', hfield'⟩ := hsome
          exact Or.inr ⟨field, field', hfield, hfield', each name field field' hfield hfield'⟩

/-- Where no field has the whole name, the name leads through the field of its first segment. -/
theorem resolve_through {entry : Entry} {u : Scope} (hfirst : s.first head = some (.into entry u))
    (hwhole : rest ≠ [] → s.fields.get? (Text.join "." (head :: rest)) = none)
    (h : s.resolve head rest = .ok target) :
    (rest = [] ∧ target = ⟨[], .scope entry u, 1⟩) ∨
      ∃ next behind rest', rest = next :: rest' ∧ u.resolve next rest' = .ok behind ∧
        target =
          { behind with passed := entry :: behind.passed, steps := behind.steps + 1 } := by
  cases rest with
  | nil =>
      obtain ⟨step, hstep, rfl⟩ := resolve_nil h
      cases hfirst.symm.trans hstep
      exact Or.inl ⟨rfl, rfl⟩
  | cons next rest =>
      rcases resolve_cons h with ⟨field, hfield, -⟩ | ⟨-, ⟨compile, path, hcustom, -⟩ | hinto⟩
      · cases (hwhole (List.cons_ne_nil next rest)).symm.trans hfield
      · cases hfirst.symm.trans hcustom
      · obtain ⟨entry', inner, behind, hinto, hbehind, rfl⟩ := hinto
        cases hfirst.symm.trans hinto
        exact Or.inr ⟨next, behind, rest, rfl, hbehind, rfl⟩

/-- Names that lead through entries that are alike lead to what is alike, if the rests of the names
do. -/
theorem alike_through {entry entry' : Entry} {u u' : Scope}
    (hfirst : s.first head = some (.into entry u))
    (hfirst' : t.first head' = some (.into entry' u'))
    (hentry : entry.Alike entry') (hu : u.Alike u') (hlength : rest.length = rest'.length)
    (hwhole : rest ≠ [] → s.fields.get? (Text.join "." (head :: rest)) = none)
    (hwhole' : rest' ≠ [] → t.fields.get? (Text.join "." (head' :: rest')) = none)
    (hs : s.resolve head rest = .ok target) (ht : t.resolve head' rest' = .ok target')
    (hbehind : ∀ next next' below below' behind behind', rest = next :: below →
      rest' = next' :: below' → u.resolve next below = .ok behind →
      u'.resolve next' below' = .ok behind' → behind.Alike behind') :
    target.Alike target' := by
  rcases resolve_through hfirst hwhole hs with ⟨rfl, rfl⟩ | ⟨next, behind, below, rfl, hb, rfl⟩ <;>
    rcases resolve_through hfirst' hwhole' ht with
      ⟨rfl, rfl⟩ | ⟨next', behind', below', rfl, hb', rfl⟩
  · exact ⟨.nil, entry, entry', u, u', rfl, rfl, hentry, hu⟩
  · cases hlength
  · cases hlength
  · exact (hbehind next next' below below' behind behind' rfl rfl hb hb').behind hentry

/-- One name leads to what is alike from places that are alike. -/
theorem Alike.resolve_same (h : s.Alike t) (hs : s.resolve head rest = .ok target)
    (ht : t.resolve head rest = .ok target') : target.Alike target' := by
  induction rest generalizing s t head target target' with
  | nil =>
      obtain ⟨step, hstep, rfl⟩ := resolve_nil hs
      obtain ⟨step', hstep', rfl⟩ := resolve_nil ht
      obtain ⟨entry, entry', u, u', rfl, rfl, hentry, hu⟩ := h.first hstep hstep'
      exact ⟨.nil, entry, entry', u, u', rfl, rfl, hentry, hu⟩
  | cons next rest ih =>
      rcases h.get? (Text.join "." (head :: next :: rest)) with
        ⟨hwhole, hwhole'⟩ | ⟨field, field', hwhole, hwhole', hfield⟩
      · rw [resolve, hwhole] at hs
        rw [resolve, hwhole'] at ht
        cases hstep : s.first head with
        | none => simp [hstep] at hs
        | some step =>
            cases hstep' : t.first head with
            | none => simp [hstep'] at ht
            | some step' =>
                obtain ⟨entry, entry', u, u', rfl, rfl, hentry, hu⟩ := h.first hstep hstep'
                simp only [hstep, map_eq_ok] at hs
                simp only [hstep', map_eq_ok] at ht
                obtain ⟨behind, hs, rfl⟩ := hs
                obtain ⟨behind', ht, rfl⟩ := ht
                exact (ih hu hs ht).behind hentry
      · rw [resolve, hwhole] at hs
        rw [resolve, hwhole'] at ht
        cases hs
        cases ht
        exact hfield.land _ _

end Scope

/-- Names that are equal up to the keys of maps have as many segments as each other. -/
theorem Fields.NamesAlike.length_eq {fields : Fields} {names names' : List String}
    (h : fields.NamesAlike names names') : names.length = names'.length := by
  induction h with
  | refl => rfl
  | key key key' _ ih => rw [List.length_cons, List.length_cons, ih]
  | field get whole whole' _ ih => rw [List.length_cons, List.length_cons, ih]

namespace Scope

variable {s t : Scope} {target target' : Target}

/-- Names that are alike lead to what is alike from places that are alike. -/
theorem Alike.resolve {fields : Fields} {names names' : List String}
    (hnames : fields.NamesAlike names names') {s t : Scope} {head head' : String}
    {rest rest' : List String} {target target' : Target} (h : s.Alike t)
    (hfields : s.fields = fields) (hhead : names = head :: rest) (hhead' : names' = head' :: rest')
    (hs : s.resolve head rest = .ok target) (ht : t.resolve head' rest' = .ok target') :
    target.Alike target' := by
  induction hnames generalizing s t head head' rest rest' target target' with
  | refl fields names =>
      cases hhead.symm.trans hhead'
      exact h.resolve_same hs ht
  | @key column below key key' below below' hbelow ih =>
      cases hhead
      cases hhead'
      have hlike := h.fields
      rw [hfields] at hlike
      generalize hfields' : t.fields = fields' at hlike
      cases hlike with
      | wildcard values present each =>
          refine alike_through (first_wildcard hfields) (first_wildcard hfields') .row
            (alike_value values present each) hbelow.length_eq ?_ ?_ hs ht ?_
          · rw [hfields]
            exact fun _ => rfl
          · rw [hfields']
            exact fun _ => rfl
          · intro next next' tail tail' behind behind' hrest hrest' hb hb'
            exact ih (alike_value values present each) rfl hrest hrest' hb hb'
  | @field schema head below below' field get whole whole' hbelow ih =>
      cases hhead
      cases hhead'
      have hlike := h.fields
      rw [hfields] at hlike
      generalize hfields' : t.fields = fields' at hlike
      cases hlike with
      | @schema _ schema' hschema =>
          obtain ⟨names, each⟩ := hschema
          obtain ⟨field', get'⟩ : ∃ field', schema'.get? head = some field' := by
            rw [← Option.isSome_iff_exists, ← names head, get, Option.isSome_some]
          obtain ⟨entry, entry', u, u', hstep, hstep', hentry, hu⟩ :=
            (each head field field' get get').step (s.path.child head) (t.path.child head)
          have hnone : schema'.get? (Text.join "." (head :: below')) = none := by
            rw [← Option.isNone_iff_eq_none, ← Option.isSome_eq_false_iff, ← names, whole']
            rfl
          have hfirst : s.first head = some (.into entry u) := by
            rw [first_schema hfields, get, ← hstep]
            rfl
          have hfirst' : t.first head = some (.into entry' u') := by
            rw [first_schema hfields', get', ← hstep']
            rfl
          refine alike_through hfirst hfirst' hentry hu hbelow.length_eq ?_ ?_ hs ht ?_
          · rw [hfields]
            exact fun _ => whole
          · rw [hfields']
            exact fun _ => hnone
          · intro next next' tail tail' behind behind' hrest hrest' hb hb'
            exact ih hu (FieldDefinition.inner_of_step hstep) hrest hrest' hb hb'

/-- Names that are equal up to the keys of maps lead to places that are alike. -/
theorem Alike.follow (h : s.Alike t) {name name' : String}
    (hnames : s.fields.NamesAlike (Filter.segments name) (Filter.segments name'))
    (hs : s.follow name = .ok target) (ht : t.follow name' = .ok target') :
    target.Alike target' := by
  obtain ⟨head, rest, hname, hs⟩ := exists_segments hs
  obtain ⟨head', rest', hname', ht⟩ := exists_segments ht
  exact Alike.resolve hnames h rfl hname hname' hs ht

end Scope

/-! ## Filters -/

namespace Filter

mutual

/-- Two filters at a place are equal up to the contents of operands of one kind, the texts that are
looked for and the keys of maps. -/
def Alike (s : Scope) : Filter → Filter → Prop
  | .all filters, .all others => AllAlike s filters others
  | .any filters, .any others => AllAlike s filters others
  | .not filter, .not other => filter.Alike s other
  | .field name filter, .field name' other =>
    s.fields.NamesAlike (segments name) (segments name') ∧
      ∀ target entry inner, s.follow name = .ok target → target.landing = .scope entry inner →
        filter.Alike inner other
  | .compare op operand, .compare op' operand' => op = op' ∧ operand.Alike operand'
  | .oneOf operands, .oneOf others => List.Forall₂ Operand.Alike operands others
  | .contains _, .contains _ => True
  | .elemMatch filter, .elemMatch other => filter.Alike s other
  | .marker, .marker => True
  | _, _ => False
termination_by structural x => x

/-- The filters of two lists are alike, one after the other. -/
def AllAlike (s : Scope) : List Filter → List Filter → Prop
  | [], [] => True
  | filter :: rest, other :: others => filter.Alike s other ∧ AllAlike s rest others
  | _, _ => False
termination_by structural x => x

end

variable {limits : Limits} {now now' : Instant}

mutual

/-- Filters that are alike have predicates of one shape at places that are alike. -/
theorem compileAt_alike (filter : Filter) {other : Filter} {s t : Scope} {entry entry' : Entry}
    {above above' : Nat} {p q : Predicate} (hs : s.Alike t) (hentry : entry.Alike entry')
    (h : filter.Alike s other) (hp : compileAt limits now s entry above filter = .ok p)
    (hq : compileAt limits now' t entry' above' other = .ok q) : p.shape = q.shape := by
  match filter with
  | .all filters =>
      cases other with
      | all others =>
          obtain ⟨r, hr, rfl⟩ := compileAt_all hp
          obtain ⟨r', hr', rfl⟩ := compileAt_all hq
          exact hentry.enclose (compileAll_alike filters hs rfl h hr hr')
      | _ => exact h.elim
  | .any filters =>
      cases other with
      | any others =>
          obtain ⟨r, hr, rfl⟩ := compileAt_any hp
          obtain ⟨r', hr', rfl⟩ := compileAt_any hq
          exact hentry.enclose (compileAny_alike filters hs rfl h hr hr')
      | _ => exact h.elim
  | .not filter =>
      cases other with
      | not other =>
          rcases compileAt_not hp with ⟨base, r, rfl, hr, rfl⟩ | ⟨r, hnone, hr, rfl⟩ <;>
            rcases compileAt_not hq with ⟨base', r', rfl, hr', rfl⟩ | ⟨r', hnone', hr', rfl⟩
          · rw [Predicate.shape_negate, Predicate.shape_negate,
              compileAt_alike filter hs hentry h hr hr']
          · cases hentry with
            | @related _ base' => exact absurd rfl (hnone' base')
          · cases hentry with
            | @related base => exact absurd rfl (hnone base)
          · refine hentry.enclose ?_
            rw [Predicate.shape_negate, Predicate.shape_negate,
              compileAt_alike filter hs .row h hr hr']
      | _ => exact h.elim
  | .field name filter =>
      cases other with
      | field name' other =>
          obtain ⟨hname, hbehind⟩ := h
          obtain ⟨target, r, htarget, hr, rfl⟩ := compileAt_field hp
          obtain ⟨target', r', htarget', hr', rfl⟩ := compileAt_field hq
          obtain ⟨hpassed, through, through', u, u', hlanding, hlanding', hthrough, hu⟩ :=
            hs.follow hname htarget htarget'
          rw [hlanding, compileLanding] at hr
          rw [hlanding', compileLanding] at hr'
          exact hentry.enclose (Entry.alike_foldr hpassed (compileAt_alike filter hu hthrough
            (hbehind target through u htarget hlanding) hr hr'))
      | _ => exact h.elim
  | .compare op operand =>
      cases other with
      | compare op' operand' =>
          obtain ⟨rfl, hoperand⟩ := h
          obtain ⟨c, r, hc, hr, rfl⟩ := compileAt_compare hp
          obtain ⟨c', r', hc', hr', rfl⟩ := compileAt_compare hq
          exact hentry.enclose ((hs.column c c' hc hc').compile_compare hoperand hr hr')
      | _ => exact h.elim
  | .oneOf operands =>
      cases other with
      | oneOf others =>
          obtain ⟨c, r, hc, hr, rfl⟩ := compileAt_oneOf hp
          obtain ⟨c', r', hc', hr', rfl⟩ := compileAt_oneOf hq
          exact hentry.enclose ((hs.column c c' hc hc').compile_oneOf h hr hr')
      | _ => exact h.elim
  | .contains needle =>
      cases other with
      | contains needle' =>
          obtain ⟨c, r, hc, hr, rfl⟩ := compileAt_contains hp
          obtain ⟨c', r', hc', hr', rfl⟩ := compileAt_contains hq
          exact hentry.enclose ((hs.column c c' hc hc').compile_contains hr hr')
      | _ => exact h.elim
  | .elemMatch filter =>
      cases other with
      | elemMatch other =>
          obtain ⟨-, r, hr, rfl⟩ := compileAt_elemMatch hp
          obtain ⟨-, r', hr', rfl⟩ := compileAt_elemMatch hq
          exact hentry.enclose (compileAt_alike filter hs .row h hr hr')
      | _ => exact h.elim
  | .marker => exact absurd hp compileAt_marker
termination_by structural filter

/-- Conjunctions of filters that are alike, one after the other, have one shape. -/
theorem compileAll_alike (filters : List Filter) {others : List Filter} {s t : Scope}
    {above above' : Nat} {before before' p q : Predicate} (hs : s.Alike t)
    (hbefore : before.shape = before'.shape) (h : AllAlike s filters others)
    (hp : compileAll limits now s above before filters = .ok p)
    (hq : compileAll limits now' t above' before' others = .ok q) : p.shape = q.shape := by
  match filters with
  | [] =>
      cases others with
      | nil =>
          cases hp
          cases hq
          exact hbefore
      | cons => exact h.elim
  | filter :: rest =>
      cases others with
      | nil => exact h.elim
      | cons other others =>
          obtain ⟨hfirst, hrest⟩ := h
          obtain ⟨r, hr, hp⟩ := compileAll_cons hp
          obtain ⟨r', hr', hq⟩ := compileAll_cons hq
          have hboth : (before.and r).shape = (before'.and r').shape := by
            rw [Predicate.shape_and, Predicate.shape_and, hbefore,
              compileAt_alike filter hs .row hfirst hr hr']
          rcases hp with ⟨hnever, rfl⟩ | ⟨hgoes, hp⟩ <;>
            rcases hq with ⟨hnever', rfl⟩ | ⟨hgoes', hq⟩
          · rfl
          · rw [hnever] at hboth
            exact absurd (Predicate.shape_eq_never.1 hboth.symm) hgoes'
          · rw [hnever'] at hboth
            exact absurd (Predicate.shape_eq_never.1 hboth) hgoes
          · exact compileAll_alike rest hs hboth hrest hp hq
termination_by structural filters

/-- Disjunctions of filters that are alike, one after the other, have one shape. -/
theorem compileAny_alike (filters : List Filter) {others : List Filter} {s t : Scope}
    {above above' : Nat} {before before' p q : Predicate} (hs : s.Alike t)
    (hbefore : before.shape = before'.shape) (h : AllAlike s filters others)
    (hp : compileAny limits now s above before filters = .ok p)
    (hq : compileAny limits now' t above' before' others = .ok q) : p.shape = q.shape := by
  match filters with
  | [] =>
      cases others with
      | nil =>
          cases hp
          cases hq
          exact hbefore
      | cons => exact h.elim
  | filter :: rest =>
      cases others with
      | nil => exact h.elim
      | cons other others =>
          obtain ⟨hfirst, hrest⟩ := h
          obtain ⟨r, hr, hp⟩ := compileAny_cons hp
          obtain ⟨r', hr', hq⟩ := compileAny_cons hq
          have heither : (before.or r).shape = (before'.or r').shape := by
            rw [Predicate.shape_or, Predicate.shape_or, hbefore,
              compileAt_alike filter hs .row hfirst hr hr']
          rcases hp with ⟨hall, rfl⟩ | ⟨hgoes, hp⟩ <;>
            rcases hq with ⟨hall', rfl⟩ | ⟨hgoes', hq⟩
          · rfl
          · rw [hall] at heither
            exact absurd (Predicate.shape_eq_always.1 heither.symm) hgoes'
          · rw [hall'] at heither
            exact absurd (Predicate.shape_eq_always.1 heither) hgoes
          · exact compileAny_alike rest hs heither hrest hp hq
termination_by structural filters

end

/-- What a caller sends does not reach the text of a statement: two filters that are equal up to the
contents of their operands, the texts that they look for and the keys of maps restrict a statement
to the same text, with as many bound values, or both statements are refused for the same reason. -/
theorem compile_text_alike {schema : Schema} (hschema : schema.Alike schema) {f g : Filter}
    (hfilters : f.Alike (.ofSchema schema) g) {p q : Predicate}
    (hp : compile limits now schema f = .ok p) (hq : compile limits now' schema g = .ok q)
    (base : Select) (d : Dialect) (n : Namespaces) :
    (∃ text values values', Render.run ((base.restrict p).render d n) = .ok ⟨text, values⟩ ∧
        Render.run ((base.restrict q).render d n) = .ok ⟨text, values'⟩ ∧
        values.length = values'.length) ∨
      ∃ e, Render.run ((base.restrict p).render d n) = .error e ∧
        Render.run ((base.restrict q).render d n) = .error e := by
  have hplace : (Scope.ofSchema schema).Alike (.ofSchema schema) :=
    ⟨.schema hschema, by rintro _ _ ⟨⟩⟩
  have hshape : p.shape = q.shape := compileAt_alike f hplace .row hfilters hp hq
  refine Select.render_run_of_shape ?_ d n
  rw [Select.shape_restrict, Select.shape_restrict, hshape]

namespace Sample

/-- The answer of a survey that a key names. -/
def answer (key : String) : FilterColumn :=
  ⟨.jsonExtract (.column ⟨.own, ⟨"answers", .refl true⟩⟩) (.forKey key), .jsonString, true⟩

/-- Surveys, whose answers are the members of a JSON column. -/
def surveys : Schema := .ofFields [("answers", .wildcard answer none)]

/-- All surveys. -/
def everySurvey : Select :=
  { Select.empty with source := some ⟨⟨"surveys", .refl true⟩, none⟩ }

/-- The colour is one of two. -/
def coloured : Filter := .field "answers.colour" (.oneOf [.string "blue", .string "red"])

/-- Keys and texts that would end what they stand in, were they written into a statement. -/
def hostile : Filter := .field "answers.') --" (.oneOf [.string "' OR 1=1 --", .string "\""])

/-- What the filter for the colours is compiled to. -/
def colouredPredicate : Predicate :=
  .condition (.oneOf (.lower (.jsonUnquote (answer "colour").expr))
    [.string "blue", .string "red"] false)

/-- What the hostile filter is compiled to. -/
def hostilePredicate : Predicate :=
  .condition (.oneOf (.lower (.jsonUnquote (answer "') --").expr))
    [.string "' or 1=1 --", .string "\""] false)

/-- The text of the statement with either of the filters. -/
def surveyText : String :=
  "SELECT * FROM surveys WHERE LOWER(json_extract(surveys.answers, ?1)) IN (?2, ?3)"

/-- Surveys are alike under any two keys. -/
theorem surveys_alike : surveys.Alike surveys := by
  have halike : FieldDefinition.Alike (.wildcard answer none) (.wildcard answer none) :=
    .wildcard (fun _ _ => ⟨rfl, rfl, rfl⟩) rfl (by rintro _ _ _ _ ⟨⟩)
  refine ⟨fun _ => rfl, fun name field field' hfield hfield' => ?_⟩
  cases hfield.symm.trans hfield'
  obtain ⟨pair, hpair, rfl⟩ := Option.map_eq_some_iff.1 hfield
  rw [List.mem_singleton.1 (List.mem_of_find?_eq_some hpair)]
  exact halike

end Sample

open Sample in
/-- The hostile filter changes the bound values and not the text. -/
theorem compile_text_alike_surveys :
    surveys.Alike surveys ∧ coloured.Alike (.ofSchema surveys) hostile ∧
      coloured.compile {} default surveys = .ok colouredPredicate ∧
      hostile.compile {} default surveys = .ok hostilePredicate ∧
      ∃ values,
        Render.run ((everySurvey.restrict colouredPredicate).render .sqlite .none) =
          .ok ⟨surveyText, [.string "$.colour", .string "blue", .string "red"]⟩ ∧
        Render.run ((everySurvey.restrict hostilePredicate).render .sqlite .none) =
          .ok ⟨surveyText, values⟩ ∧
        values.length = 3 := by
  have hnames : (Scope.ofSchema surveys).fields.NamesAlike (segments "answers.colour")
      (segments "answers.') --") :=
    .field rfl rfl rfl (.key "colour" "') --" (.refl _ _))
  have hfilters : coloured.Alike (.ofSchema surveys) hostile :=
    ⟨hnames, fun _ _ _ _ _ => .cons trivial (.cons trivial .nil)⟩
  have hcoloured : coloured.compile {} default surveys = .ok colouredPredicate := by rfl
  have hhostile : hostile.compile {} default surveys = .ok hostilePredicate := by rfl
  have hrun : Render.run ((everySurvey.restrict colouredPredicate).render .sqlite .none) =
      .ok ⟨surveyText, [.string "$.colour", .string "blue", .string "red"]⟩ := by rfl
  refine ⟨surveys_alike, hfilters, hcoloured, hhostile, ?_⟩
  rcases compile_text_alike surveys_alike hfilters hcoloured hhostile everySurvey .sqlite .none with
    ⟨text, values, values', hfirst, hsecond, hlength⟩ | ⟨e, hfirst, -⟩
  · cases hrun.symm.trans hfirst
    exact ⟨values', hrun, hsecond, hlength.symm⟩
  · cases hrun.symm.trans hfirst

end Filter

end FilterSql
