import FilterSql.Proofs.Filter.Steps
import FilterSql.Proofs.Sql.Algebra

/-!
# Well-formed conditions

What the condition of a compiled filter looks like: `Condition.WellFormed` is the grammar of such
conditions, with the values that may be bound on a column of each kind. Lists of values have at
least two values, none of them `NULL`, and conjunctions and disjunctions have at least two parts and
are flat. The conditions that a filter adds to the statements of its relations are well-formed too;
the statements and joins themselves come with the schema. `Filter.compile_wellFormed` is the
statement about compiled filters. `NULL` is bound in one place only, as an element that a JSON array
is searched for.
-/

namespace FilterSql

/-! ## What a schema defines -/

/-- The fields of a schema stand below a field. -/
def FieldDefinition.LeadsTo : FieldDefinition → Schema → Prop
  | .column _ below, inner => below = some inner
  | .nested schema, inner => schema = inner
  | .related _ schema, inner => schema = inner
  | .joined _ schema _, inner => schema = inner
  | .wildcard _ below, inner => ∃ schemas key, below = some schemas ∧ schemas key = inner
  | .custom _, _ => False

/-- A field is defined in a schema, or at any depth below it. -/
inductive Schema.Defines : Schema → FieldDefinition → Prop where
  | here {schema : Schema} {name : String} {field : FieldDefinition}
      (get : schema.get? name = some field) : Schema.Defines schema field
  | deeper {schema inner : Schema} {name : String} {outer field : FieldDefinition}
      (get : schema.get? name = some outer) (leads : outer.LeadsTo inner)
      (defines : Schema.Defines inner field) : Schema.Defines schema field

/-- What all definitions have, every field that is defined at some depth has. -/
theorem Schema.Each.of_defines {P : String → FieldDefinition → Prop} {schema : Schema}
    {field : FieldDefinition} (h : schema.Defines field) (heach : schema.Each P) :
    ∃ name, P name field := by
  induction h with
  | @here schema name field get =>
      obtain ⟨here, -⟩ := heach
      exact ⟨name, here name field get⟩
  | @deeper schema inner name outer field get leads _ ih =>
      obtain ⟨-, below⟩ := heach
      refine ih ?_
      cases below name outer get with
      | column fields => exact fields inner leads
      | nested fields | related fields | joined fields => exact leads ▸ fields
      | wildcard fields =>
          obtain ⟨schemas, key, hschemas, rfl⟩ := leads
          exact fields schemas hschemas key
      | custom => cases leads

/-- A column is one that a schema has tested by filters. -/
inductive Schema.Tests (schema : Schema) : FilterColumn → Prop where
  | column {c : FilterColumn} {below : Option Schema} (defines : schema.Defines (.column c below)) :
      Schema.Tests schema c
  | wildcard {column : String → FilterColumn} {below : Option (String → Schema)}
      (defines : schema.Defines (.wildcard column below)) (key : String) :
      Schema.Tests schema (column key)

/-! ## The texts of a filter -/

/-- The text of an operand, if it is one. -/
def Operand.texts : Operand → List String
  | .string s => [s]
  | _ => []

mutual

/-- The texts that a filter compares columns with or searches for. -/
def Filter.texts : Filter → List String
  | .all filters => Filter.textsAll filters
  | .any filters => Filter.textsAll filters
  | .not filter => filter.texts
  | .field _ filter => filter.texts
  | .compare _ operand => operand.texts
  | .oneOf operands => operands.flatMap Operand.texts
  | .contains needle => [needle]
  | .elemMatch filter => filter.texts
  | .marker => []

/-- The texts of some filters. -/
def Filter.textsAll : List Filter → List String
  | [] => []
  | filter :: rest => filter.texts ++ Filter.textsAll rest

end

/-! ## Bound values -/

/-- The values that are bound on a column of a kind, `NULL` aside. Strings are given texts in lower
case. -/
def ColumnKind.Binds (texts : List String) : ColumnKind → Value → Prop
  | .string, .string s => ∃ text ∈ texts, s = Text.lower text
  | .jsonString, .string s => ∃ text ∈ texts, s = Text.lower text
  | .number, .int _ => True
  | .number, .float _ => True
  | .boolean, .int n => n = 0 ∨ n = 1
  | .datetime, .instant _ => True
  | .jsonArray, .bool _ => True
  | .jsonArray, .int _ => True
  | .jsonArray, .float _ => True
  | .jsonArray, .string s => ∃ text ∈ texts, s = Text.lower text
  | _, _ => False

namespace Operand

variable {now : Instant} {kind : ColumnKind} {texts : List String}

/-- The value that is bound for an operand is one of the column's kind, or `NULL` for `null`. -/
theorem binds_toValue {operand : Operand} {value : Value}
    (h : operand.toValue now kind = .ok value) (htexts : operand.texts ⊆ texts) :
    operand.isNull = true ∧ value = .null ∨ kind.Binds texts value := by
  cases operand with
  | null =>
      cases h
      exact .inl ⟨rfl, rfl⟩
  | string s =>
      have hs : s ∈ texts := htexts (List.mem_singleton_self s)
      cases kind <;> cases h <;> exact .inr ⟨s, hs, rfl⟩
  | bool b =>
      cases kind <;> cases h
      · exact .inr trivial
      · cases b <;> simp [ColumnKind.Binds]
      · exact .inr trivial
  | int n =>
      cases kind
      case boolean =>
        rw [toValue] at h
        split at h
        next hbit =>
          cases h
          exact .inr hbit
        next => cases h
      all_goals cases h
      all_goals exact .inr trivial
  | float | instant | now => cases kind <;> cases h <;> exact .inr trivial

/-- Operands that are not null stand for values of the column's kind. -/
theorem binds_toValues {operands : List Operand} {values : List Value}
    (h : toValues now kind operands = .ok values)
    (hoperands : ∀ operand ∈ operands, operand.isNull = false ∧ operand.texts ⊆ texts) :
    ∀ value ∈ values, kind.Binds texts value := by
  intro value hvalue
  obtain ⟨operand, hoperand, hbound⟩ := (toValues_spec h).2 value hvalue
  obtain ⟨hpresent, htexts⟩ := hoperands operand hoperand
  rcases binds_toValue hbound htexts with ⟨hnull, -⟩ | hbinds
  · exact absurd (hpresent.symm.trans hnull) Bool.false_ne_true
  · exact hbinds

end Operand

/-! ## The grammar of conditions -/

/-- The conditions that filters with some texts are compiled to on the rows of a schema. -/
inductive Condition.WellFormed (schema : Schema) (texts : List String) (maxValues : Nat) :
    Condition → Prop where
  | compare {c : FilterColumn} {value : Value} (op : CompareOp) (column : schema.Tests c)
      (binds : c.kind.Binds texts value) :
      Condition.WellFormed schema texts maxValues (.compare (c.target value) op (.param value))
  | nullSafeEq {c : FilterColumn} {value : Value} (column : schema.Tests c)
      (binds : c.kind.Binds texts value) :
      Condition.WellFormed schema texts maxValues (.nullSafeEq (c.target value) (.param value))
  | isNull {c : FilterColumn} (negated : Bool) (column : schema.Tests c) :
      Condition.WellFormed schema texts maxValues (.isNull c.expr negated)
  | isJsonNull {c : FilterColumn} (column : schema.Tests c) :
      Condition.WellFormed schema texts maxValues (.isJsonNull c.expr)
  | oneOf {c : FilterColumn} {first : Value} {rest : List Value} (negated : Bool)
      (column : schema.Tests c) (binds : ∀ value ∈ first :: rest, c.kind.Binds texts value)
      (least : 2 ≤ (first :: rest).length) (most : (first :: rest).length ≤ maxValues) :
      Condition.WellFormed schema texts maxValues (.oneOf (c.target first) (first :: rest) negated)
  /-- The pattern is that of the texts which contain a text of the filter. -/
  | like {c : FilterColumn} {needle : String} (negated : Bool) (column : schema.Tests c)
      (isText : c.kind.isText = true) (text : needle ∈ texts) :
      Condition.WellFormed schema texts maxValues
        (.like c.lowerText (.string (FilterColumn.containsPattern needle)) negated)
  /-- An array may be searched for `null`. -/
  | arrayContains {c : FilterColumn} {value : Value} (foldCase : Bool) (column : schema.Tests c)
      (isArray : c.kind = .jsonArray) (binds : value = .null ∨ c.kind.Binds texts value) :
      Condition.WellFormed schema texts maxValues (.arrayContains c.expr value foldCase)
  | overlaps {c : FilterColumn} {values : List Value} (column : schema.Tests c)
      (isArray : c.kind = .jsonArray) (binds : ∀ value ∈ values, c.kind.Binds texts value)
      (least : 1 ≤ values.length) (most : values.length ≤ maxValues) :
      Condition.WellFormed schema texts maxValues (.overlaps c.expr values)
  | related {base : Select} {inner : Schema} (negated : Bool)
      (defines : schema.Defines (.related base inner)) :
      Condition.WellFormed schema texts maxValues (.exists base negated)
  /-- What a filter adds to the statement of a relation is well-formed itself. -/
  | restricted {base : Select} {inner : Schema} {condition : Condition} (negated : Bool)
      (defines : schema.Defines (.related base inner))
      (added : Condition.WellFormed schema texts maxValues condition) :
      Condition.WellFormed schema texts maxValues (.exists (base.restrictBy condition) negated)
  | requires {join : Join} {inner : Schema} {always : Bool}
      (defines : schema.Defines (.joined join inner always)) :
      Condition.WellFormed schema texts maxValues (.requires join)
  | joined {join : Join} {inner : Schema} {always : Bool} {condition : Condition}
      (defines : schema.Defines (.joined join inner always))
      (behind : Condition.WellFormed schema texts maxValues condition) :
      Condition.WellFormed schema texts maxValues (.joined join condition)
  | all {conditions : List Condition} (least : 2 ≤ conditions.length)
      (parts : ∀ part ∈ conditions, Condition.WellFormed schema texts maxValues part)
      (flat : ∀ part ∈ conditions, ∀ inner, part ≠ .all inner) :
      Condition.WellFormed schema texts maxValues (.all conditions)
  | any {conditions : List Condition} (least : 2 ≤ conditions.length)
      (parts : ∀ part ∈ conditions, Condition.WellFormed schema texts maxValues part)
      (flat : ∀ part ∈ conditions, ∀ inner, part ≠ .any inner) :
      Condition.WellFormed schema texts maxValues (.any conditions)
  | not {condition : Condition} (inner : Condition.WellFormed schema texts maxValues condition) :
      Condition.WellFormed schema texts maxValues (.not condition)

/-- A predicate is decided, or its condition is well-formed. -/
def Predicate.WellFormed (schema : Schema) (texts : List String) (maxValues : Nat) :
    Predicate → Prop
  | .condition c => c.WellFormed schema texts maxValues
  | _ => True

variable {schema : Schema} {texts : List String} {maxValues : Nat}

namespace Condition.WellFormed

variable {a b : Condition}

/-- The negation of a condition stays in the grammar. -/
theorem negate (h : a.WellFormed schema texts maxValues) :
    a.negate.WellFormed schema texts maxValues := by
  cases h with
  | compare op column binds => exact .compare op.inverse column binds
  | isNull negated column => exact .isNull (!negated) column
  | oneOf negated column binds least most => exact .oneOf (!negated) column binds least most
  | like negated column isText text => exact .like (!negated) column isText text
  | related negated defines => exact .related (!negated) defines
  | restricted negated defines added => exact .restricted (!negated) defines added
  | not inner => exact inner
  | nullSafeEq column binds => exact .not (.nullSafeEq column binds)
  | isJsonNull column => exact .not (.isJsonNull column)
  | arrayContains foldCase column isArray binds =>
      exact .not (.arrayContains foldCase column isArray binds)
  | overlaps column isArray binds least most =>
      exact .not (.overlaps column isArray binds least most)
  | requires defines => exact .not (.requires defines)
  | joined defines behind => exact .not (.joined defines behind)
  | all least parts flat => exact .not (.all least parts flat)
  | any least parts flat => exact .not (.any least parts flat)

/-- A list is in the grammar if it has two parts or more, all of them are, and none is a list of the
same kind. -/
theorem list_iff (c : Connective) {conditions : List Condition} :
    (c.list conditions).WellFormed schema texts maxValues ↔
      2 ≤ conditions.length ∧ ∀ part ∈ conditions,
        part.WellFormed schema texts maxValues ∧ ∀ inner, part ≠ c.list inner := by
  constructor
  · intro h
    cases c with
    | and =>
        cases h with
        | all least parts flat =>
            exact ⟨least, fun part hpart => ⟨parts part hpart, flat part hpart⟩⟩
    | or =>
        cases h with
        | any least parts flat =>
            exact ⟨least, fun part hpart => ⟨parts part hpart, flat part hpart⟩⟩
  · rintro ⟨least, hparts⟩
    have hformed := fun part hpart => (hparts part hpart).1
    have hflat := fun part hpart => (hparts part hpart).2
    cases c
    exacts [.all least hformed hflat, .any least hformed hflat]

/-- What a condition is flattened to under a connective is flat. -/
theorem parts (c : Connective) (h : a.WellFormed schema texts maxValues) :
    1 ≤ (c.parts a).length ∧ ∀ part ∈ c.parts a,
      part.WellFormed schema texts maxValues ∧ ∀ inner, part ≠ c.list inner := by
  by_cases hlist : ∃ conditions, a = c.list conditions
  · obtain ⟨conditions, rfl⟩ := hlist
    obtain ⟨least, hparts⟩ := (list_iff c).1 h
    rw [c.parts_list]
    exact ⟨Nat.le_of_succ_le least, hparts⟩
  · have halone : c.parts a = [a] := by
      cases c with
      | and => exact Condition.conjuncts_of_ne fun conditions ha => hlist ⟨conditions, ha⟩
      | or => exact Condition.disjuncts_of_ne fun conditions ha => hlist ⟨conditions, ha⟩
    rw [halone]
    refine ⟨Nat.le_refl 1, fun part hpart => ?_⟩
    rw [List.mem_singleton.1 hpart]
    exact ⟨h, fun inner ha => hlist ⟨inner, ha⟩⟩

/-- Two conditions under a connective. -/
theorem ofConditions (c : Connective) (ha : a.WellFormed schema texts maxValues)
    (hb : b.WellFormed schema texts maxValues) :
    (c.ofConditions a b).WellFormed schema texts maxValues := by
  obtain ⟨hleast, hparts⟩ := ha.parts c
  obtain ⟨hleast', hparts'⟩ := hb.parts c
  rw [c.ofConditions_eq, list_iff, List.length_append]
  exact ⟨Nat.add_le_add hleast hleast', List.forall_mem_append.2 ⟨hparts, hparts'⟩⟩

/-- A conjunction stays in the grammar. -/
theorem and (ha : a.WellFormed schema texts maxValues) (hb : b.WellFormed schema texts maxValues) :
    (a.and b).WellFormed schema texts maxValues :=
  ha.ofConditions .and hb

/-- A disjunction stays in the grammar. -/
theorem or (ha : a.WellFormed schema texts maxValues) (hb : b.WellFormed schema texts maxValues) :
    (a.or b).WellFormed schema texts maxValues :=
  ha.ofConditions .or hb

end Condition.WellFormed

namespace Predicate.WellFormed

variable {p q : Predicate}

/-- The negation of a predicate stays in the grammar, settled or not. -/
theorem negate (h : p.WellFormed schema texts maxValues) :
    p.negate.WellFormed schema texts maxValues := by
  cases p with
  | condition c => exact Condition.WellFormed.negate h
  | always | never => trivial

/-- Two predicates under a connective. -/
theorem ofPredicates (c : Connective) (hp : p.WellFormed schema texts maxValues)
    (hq : q.WellFormed schema texts maxValues) :
    (c.ofPredicates p q).WellFormed schema texts maxValues := by
  cases p with
  | condition a =>
      cases q with
      | condition b =>
          cases c
          exacts [Condition.WellFormed.and hp hq, Condition.WellFormed.or hp hq]
      | always | never => cases c <;> trivial
  | always | never => cases q <;> cases c <;> trivial

end Predicate.WellFormed

/-! ## Tests on one column -/

namespace FilterColumn

variable {c : FilterColumn} {value : Value}

/-- The test for nothing is in the grammar. -/
theorem isNothing_wellFormed (hc : schema.Tests c) :
    c.isNothing.WellFormed schema texts maxValues := by
  unfold isNothing
  split
  · exact .or (.isJsonNull hc) (.isNull false hc)
  · exact .isNull false hc

/-- The search for an element of an array is in the grammar. -/
theorem holds_wellFormed (hc : schema.Tests c) (harray : c.kind = .jsonArray)
    (hvalue : value = .null ∨ c.kind.Binds texts value) :
    (c.holds value).WellFormed schema texts maxValues := by
  unfold holds
  split
  · exact .arrayContains true hc harray hvalue
  · exact .or (.arrayContains false hc harray hvalue) (.isNull false hc)
  · exact .arrayContains false hc harray hvalue

/-- Equality with a value is in the grammar. -/
theorem equals_wellFormed (hc : schema.Tests c)
    (hvalue : value = .null ∨ c.kind.Binds texts value) :
    (c.equals value).WellFormed schema texts maxValues := by
  unfold equals
  split
  next harray => exact holds_wellFormed hc harray hvalue
  next =>
    split
    next => exact isNothing_wellFormed hc
    next hnull =>
      have hbinds := hvalue.resolve_left fun h => hnull (h ▸ rfl)
      split
      · exact .nullSafeEq hc hbinds
      · exact .compare .eq hc hbinds

/-- The test for what lies above a value is in the grammar. -/
theorem above_wellFormed (hc : schema.Tests c)
    (hvalue : value = .null ∨ c.kind.Binds texts value) :
    (c.above value).WellFormed schema texts maxValues := by
  unfold above
  split
  next =>
    split
    · exact .isNull true hc
    · trivial
  next hnull =>
    have hbinds := hvalue.resolve_left fun h => hnull (h ▸ rfl)
    show Condition.WellFormed schema texts maxValues (if c.nullable then _ else _)
    split
    · exact .and (.isNull true hc) (.compare .gt hc hbinds)
    · exact .compare .gt hc hbinds

/-- The test for what lies below a value is in the grammar. -/
theorem below_wellFormed (hc : schema.Tests c)
    (hvalue : value = .null ∨ c.kind.Binds texts value) :
    (c.below value).WellFormed schema texts maxValues := by
  unfold below
  split
  next => trivial
  next hnull =>
    have hbinds := hvalue.resolve_left fun h => hnull (h ▸ rfl)
    show Condition.WellFormed schema texts maxValues (if c.nullable then _ else _)
    split
    · exact .or (.isNull false hc) (.compare .lt hc hbinds)
    · exact .compare .lt hc hbinds

/-- Membership in a list within the limit is in the grammar. -/
theorem isAmong_wellFormed {values : List Value} (hc : schema.Tests c)
    (hvalues : ∀ value ∈ values, c.kind.Binds texts value) (least : 1 ≤ values.length)
    (most : values.length ≤ maxValues) : (c.isAmong values).WellFormed schema texts maxValues := by
  unfold isAmong
  split
  next harray => exact .overlaps hc harray hvalues least most
  next value _ => exact .compare .eq hc (hvalues value (List.mem_singleton_self value))
  next => exact absurd least (by decide)
  next first rest hone _ =>
    have hrest : rest ≠ [] := fun hrest => hone hrest
    exact .oneOf false hc hvalues (Nat.succ_le_succ (List.length_pos_iff.2 hrest)) most

variable {now : Instant} {p : Predicate}

/-- A compiled comparison is in the grammar. -/
theorem compare_wellFormed {op : CompareOp} {operand : Operand} (hc : schema.Tests c)
    (htexts : operand.texts ⊆ texts) (h : c.compare now op operand = .ok p) :
    p.WellFormed schema texts maxValues := by
  obtain ⟨value, hvalue, rfl⟩ := map_eq_ok.1 h
  have hbinds := (Operand.binds_toValue hvalue htexts).imp_left And.right
  have hequals : (Predicate.condition (c.equals value)).WellFormed schema texts maxValues :=
    equals_wellFormed hc hbinds
  cases op with
  | eq => exact hequals
  | neq => exact hequals.negate
  | gt => exact above_wellFormed hc hbinds
  | lte => exact (above_wellFormed hc hbinds).negate
  | lt => exact below_wellFormed hc hbinds
  | gte => exact (below_wellFormed hc hbinds).negate

/-- A compiled membership is in the grammar. -/
theorem oneOf_wellFormed {operands : List Operand} (hc : schema.Tests c)
    (htexts : operands.flatMap Operand.texts ⊆ texts)
    (h : c.oneOf now maxValues operands = .ok p) : p.WellFormed schema texts maxValues := by
  unfold oneOf at h
  split at h
  · cases h
  next hmax =>
    split at h
    next =>
      cases h
      trivial
    next hsome =>
      obtain ⟨values, hvalues, rfl⟩ := map_eq_ok.1 h
      have hgiven : ∀ operand ∈ operands.filter (!·.isNull),
          operand.isNull = false ∧ operand.texts ⊆ texts := by
        intro operand hoperand
        obtain ⟨hmem, hnull⟩ := List.mem_filter.1 hoperand
        exact ⟨by simpa using hnull, fun s hs => htexts (List.mem_flatMap.2 ⟨operand, hmem, hs⟩)⟩
      have hbinds := Operand.binds_toValues hvalues hgiven
      have hlength := (Operand.toValues_spec hvalues).1
      have hmost : values.length ≤ maxValues :=
        hlength.le.trans ((List.length_filter_le _ _).trans (Nat.not_lt.1 hmax))
      have hnull : (c.equals .null).WellFormed schema texts maxValues :=
        equals_wellFormed hc (.inl rfl)
      split
      next hpresent =>
        have hall : operands.filter (!·.isNull) = operands := by
          simpa [List.filter_eq_self] using hpresent
        rw [hall] at hlength
        have hleast : 1 ≤ values.length := by
          rw [hlength]
          exact List.length_pos_iff.2 (by simpa using hsome)
        exact isAmong_wellFormed hc hbinds hleast hmost
      next =>
        split
        next => exact hnull
        next hvalue =>
          have hleast : 1 ≤ values.length := List.length_pos_iff.2 (by simpa using hvalue)
          exact hnull.or (isAmong_wellFormed hc hbinds hleast hmost)

/-- A compiled search for a text is in the grammar. -/
theorem contains_wellFormed {needle : String} (hc : schema.Tests c) (htexts : needle ∈ texts)
    (h : c.contains needle = .ok p) : p.WellFormed schema texts maxValues := by
  unfold contains at h
  split at h
  next htext =>
    cases h
    exact .like false hc htext htexts
  next => cases h

end FilterColumn

/-! ## Places -/

/-- A way to other rows is one that a schema defines. -/
inductive Entry.DefinedIn (schema : Schema) : Entry → Prop where
  | row : Entry.DefinedIn schema .row
  | related {base : Select} {inner : Schema} (defines : schema.Defines (.related base inner)) :
      Entry.DefinedIn schema (.related base)
  | joined {join : Join} {inner : Schema} {always : Bool}
      (defines : schema.Defines (.joined join inner always)) :
      Entry.DefinedIn schema (.joined join always)

namespace Entry.DefinedIn

variable {entry : Entry} {p : Predicate}

/-- A predicate behind an entry is taken back through it within the grammar. -/
theorem enclose (hentry : entry.DefinedIn schema) (hp : p.WellFormed schema texts maxValues) :
    (entry.enclose p).WellFormed schema texts maxValues := by
  cases hentry with
  | row => exact hp
  | related defines =>
      cases p with
      | always => exact .related false defines
      | never => trivial
      | condition c => exact .restricted false defines hp
  | @joined join inner always defines =>
      cases p with
      | always =>
          cases always with
          | true => trivial
          | false => exact .requires defines
      | never => trivial
      | condition c => exact .joined defines hp

/-- A predicate behind some entries is taken back through them within the grammar. -/
theorem foldr_enclose {entries : List Entry} (hentries : ∀ entry ∈ entries, entry.DefinedIn schema)
    (hp : p.WellFormed schema texts maxValues) :
    (entries.foldr Entry.enclose p).WellFormed schema texts maxValues := by
  induction entries with
  | nil => exact hp
  | cons entry rest ih =>
      obtain ⟨hentry, hrest⟩ := List.forall_mem_cons.1 hentries
      exact hentry.enclose (ih hrest)

end Entry.DefinedIn

/-- What is defined below a field of a schema is defined in the schema. -/
theorem Schema.Defines.trans {inner : Schema} {outer field : FieldDefinition}
    (houter : schema.Defines outer) (hleads : outer.LeadsTo inner) (hfield : inner.Defines field) :
    schema.Defines field := by
  induction houter with
  | here get => exact .deeper get hleads hfield
  | deeper get leads _ ih => exact .deeper get leads (ih hleads)

/-- The fields that are visible at a place are defined in a schema. -/
def Fields.DefinedIn (schema : Schema) : Fields → Prop
  | .none => True
  | .schema inner => ∀ field, inner.Defines field → schema.Defines field
  | .wildcard column below => schema.Defines (.wildcard column below)

/-- Optional fields are defined where those that are there are. -/
theorem Fields.DefinedIn.ofOption {below : Option Schema}
    (h : ∀ inner, below = some inner → ∀ field, inner.Defines field → schema.Defines field) :
    (Fields.ofOption below).DefinedIn schema := by
  cases below with
  | none => trivial
  | some inner => exact h inner rfl

/-- The column and the fields of a place are defined in a schema. -/
structure Scope.DefinedIn (schema : Schema) (s : Scope) : Prop where
  column : ∀ c, s.column = some c → schema.Tests c
  fields : s.fields.DefinedIn schema

/-- A step is made by a definition of a schema. -/
inductive Step.DefinedIn (schema : Schema) : Step → Prop where
  | into {entry : Entry} {s : Scope} (entered : entry.DefinedIn schema)
      (place : s.DefinedIn schema) : Step.DefinedIn schema (.into entry s)
  | custom {compile : Filter → FieldPath → Except FilterError Predicate} {path : FieldPath}
      (defines : schema.Defines (.custom compile)) : Step.DefinedIn schema (.custom compile path)

/-- The step into a field that is defined is made by a definition. -/
theorem Schema.Defines.step {field : FieldDefinition} (h : schema.Defines field)
    (path : FieldPath) : (field.step path).DefinedIn schema := by
  cases field with
  | column c below =>
      refine .into .row ⟨?_, .ofOption fun inner hbelow field => h.trans hbelow⟩
      rintro _ ⟨⟩
      exact .column h
  | nested inner => exact .into .row ⟨nofun, fun field => h.trans rfl⟩
  | related base inner => exact .into (.related h) ⟨nofun, fun field => h.trans rfl⟩
  | joined join inner always => exact .into (.joined h) ⟨nofun, fun field => h.trans rfl⟩
  | wildcard column below => exact .into .row ⟨nofun, h⟩
  | custom compile => exact .custom h

/-- What a name leads to is defined in a schema, the fields passed on the way included. -/
structure Target.DefinedIn (schema : Schema) (target : Target) : Prop where
  passed : ∀ entry ∈ target.passed, entry.DefinedIn schema
  landing : ∃ entry s, target.landing = .scope entry s ∧ entry.DefinedIn schema ∧
    s.DefinedIn schema

/-- A step into a definition ends in one, where no field has a compiler of its own. -/
theorem Step.DefinedIn.land {step : Step} (h : step.DefinedIn schema)
    (hplain : ∀ compile, ¬schema.Defines (.custom compile)) : step.land.DefinedIn schema := by
  cases h with
  | @into entry s entered place =>
      exact ⟨List.forall_mem_nil _, entry, s, rfl, entered, place⟩
  | custom defines => exact absurd defines (hplain _)

namespace Scope.DefinedIn

variable {s : Scope} {target : Target}

/-- At the top all fields are those of the schema. -/
theorem ofSchema : (Scope.ofSchema schema).DefinedIn schema :=
  ⟨nofun, fun _ h => h⟩

/-- The field of a name at a place is defined in the schema. -/
theorem get? (hs : s.DefinedIn schema) {name : String} {field : FieldDefinition}
    (h : s.fields.get? name = some field) : schema.Defines field := by
  have hfields := hs.fields
  cases hkind : s.fields with
  | none | wildcard =>
      rw [hkind] at h
      cases h
  | schema inner =>
      rw [hkind] at h hfields
      exact hfields field (.here h)

/-- The first step of a name is made by a definition of the schema. -/
theorem first (hs : s.DefinedIn schema) {head : String} {step : Step}
    (h : s.first head = some step) : step.DefinedIn schema := by
  have hfields := hs.fields
  unfold Scope.first at h
  cases hkind : s.fields with
  | none => simp [hkind] at h
  | schema inner =>
      simp only [hkind, Option.map_eq_some_iff] at h
      obtain ⟨field, hget, rfl⟩ := h
      rw [hkind] at hfields
      exact (hfields field (.here hget)).step _
  | wildcard column below =>
      simp only [hkind, Option.some.injEq] at h
      rw [hkind] at hfields
      rw [← h]
      refine .into .row ⟨?_, .ofOption fun inner hbelow field => ?_⟩
      · rintro _ ⟨⟩
        exact .wildcard hfields head
      · obtain ⟨schemas, hschemas, rfl⟩ := Option.map_eq_some_iff.1 hbelow
        exact hfields.trans ⟨schemas, head, hschemas, rfl⟩

/-- The segments of a name lead to what the schema defines. -/
theorem resolve (hplain : ∀ compile, ¬schema.Defines (.custom compile)) {head : String}
    {rest : List String} (hs : s.DefinedIn schema) (h : s.resolve head rest = .ok target) :
    target.DefinedIn schema := by
  induction rest generalizing s head target with
  | nil =>
      obtain ⟨step, hstep, rfl⟩ := resolve_nil h
      exact (hs.first hstep).land hplain
  | cons next rest ih =>
      rcases resolve_cons h with ⟨field, hfield, rfl⟩ | ⟨-, hcustom | hinto⟩
      · exact ((hs.get? hfield).step _).land hplain
      · obtain ⟨compile, path, hfirst, -⟩ := hcustom
        cases hs.first hfirst with
        | custom defines => exact absurd defines (hplain compile)
      · obtain ⟨entry, inner, behind, hfirst, hbehind, rfl⟩ := hinto
        cases hs.first hfirst with
        | into entered place =>
            obtain ⟨hpassed, hlanding⟩ := ih place hbehind
            exact ⟨List.forall_mem_cons.2 ⟨entered, hpassed⟩, hlanding⟩

/-- A name leads to what the schema defines. -/
theorem follow (hplain : ∀ compile, ¬schema.Defines (.custom compile)) {name : String}
    (hs : s.DefinedIn schema) (h : s.follow name = .ok target) : target.DefinedIn schema := by
  obtain ⟨head, rest, -, hresolve⟩ := exists_segments h
  exact hs.resolve hplain hresolve

end Scope.DefinedIn

/-! ## Filters -/

namespace Filter

variable {limits : Limits} {now : Instant}

mutual

/-- At every place a filter is compiled to a predicate in the grammar, with the texts of the filter.
-/
theorem compileAt_wellFormed (hplain : ∀ compile, ¬schema.Defines (.custom compile))
    (filter : Filter) {s : Scope} {entry : Entry} {above : Nat} {p : Predicate}
    (hs : s.DefinedIn schema) (hentry : entry.DefinedIn schema) (htexts : filter.texts ⊆ texts)
    (h : compileAt limits now s entry above filter = .ok p) :
    p.WellFormed schema texts limits.maxValues := by
  match filter with
  | .all filters =>
      obtain ⟨q, hq, rfl⟩ := compileAt_all h
      exact hentry.enclose
        (compileAll_wellFormed hplain filters hs htexts (q := .always) trivial hq)
  | .any filters =>
      obtain ⟨q, hq, rfl⟩ := compileAt_any h
      exact hentry.enclose (compileAny_wellFormed hplain filters hs htexts (q := .never) trivial hq)
  | .not filter =>
      rcases compileAt_not h with ⟨base, q, rfl, hq, rfl⟩ | ⟨q, -, hq, rfl⟩
      · exact (compileAt_wellFormed hplain filter hs hentry htexts hq).negate
      · exact hentry.enclose (compileAt_wellFormed hplain filter hs .row htexts hq).negate
  | .field name filter =>
      obtain ⟨target, q, htarget, hq, rfl⟩ := compileAt_field h
      obtain ⟨hpassed, through, inner, hlanding, hthrough, hinner⟩ := hs.follow hplain htarget
      rw [hlanding, compileLanding] at hq
      have hwell := compileAt_wellFormed hplain filter hinner hthrough htexts hq
      exact hentry.enclose (Entry.DefinedIn.foldr_enclose hpassed hwell)
  | .compare op operand =>
      obtain ⟨c, q, hc, hq, rfl⟩ := compileAt_compare h
      exact hentry.enclose (FilterColumn.compare_wellFormed (hs.column c hc) htexts hq)
  | .oneOf operands =>
      obtain ⟨c, q, hc, hq, rfl⟩ := compileAt_oneOf h
      exact hentry.enclose (FilterColumn.oneOf_wellFormed (hs.column c hc) htexts hq)
  | .contains needle =>
      obtain ⟨c, q, hc, hq, rfl⟩ := compileAt_contains h
      have hneedle : needle ∈ texts := htexts (List.mem_singleton_self needle)
      exact hentry.enclose (FilterColumn.contains_wellFormed (hs.column c hc) hneedle hq)
  | .elemMatch filter =>
      obtain ⟨-, q, hq, rfl⟩ := compileAt_elemMatch h
      exact hentry.enclose (compileAt_wellFormed hplain filter hs .row htexts hq)
  | .marker => exact absurd h compileAt_marker
termination_by structural filter

/-- A conjunction of compiled filters is in the grammar if it is so far. -/
theorem compileAll_wellFormed (hplain : ∀ compile, ¬schema.Defines (.custom compile))
    (filters : List Filter) {s : Scope} {above : Nat} {p q : Predicate}
    (hs : s.DefinedIn schema) (htexts : textsAll filters ⊆ texts)
    (hq : q.WellFormed schema texts limits.maxValues)
    (h : compileAll limits now s above q filters = .ok p) :
    p.WellFormed schema texts limits.maxValues := by
  match filters with
  | [] =>
      cases h
      exact hq
  | filter :: rest =>
      obtain ⟨r, hr, h⟩ := compileAll_cons h
      obtain ⟨hfilter, hrest⟩ := List.append_subset.1 htexts
      have hwell := compileAt_wellFormed hplain filter hs .row hfilter hr
      rcases h with ⟨-, rfl⟩ | ⟨-, h⟩
      · trivial
      · exact compileAll_wellFormed hplain rest hs hrest (hq.ofPredicates .and hwell) h
termination_by structural filters

/-- A disjunction of compiled filters is in the grammar if it is so far. -/
theorem compileAny_wellFormed (hplain : ∀ compile, ¬schema.Defines (.custom compile))
    (filters : List Filter) {s : Scope} {above : Nat} {p q : Predicate}
    (hs : s.DefinedIn schema) (htexts : textsAll filters ⊆ texts)
    (hq : q.WellFormed schema texts limits.maxValues)
    (h : compileAny limits now s above q filters = .ok p) :
    p.WellFormed schema texts limits.maxValues := by
  match filters with
  | [] =>
      cases h
      exact hq
  | filter :: rest =>
      obtain ⟨r, hr, h⟩ := compileAny_cons h
      obtain ⟨hfilter, hrest⟩ := List.append_subset.1 htexts
      have hwell := compileAt_wellFormed hplain filter hs .row hfilter hr
      rcases h with ⟨-, rfl⟩ | ⟨-, h⟩
      · trivial
      · exact compileAny_wellFormed hplain rest hs hrest (hq.ofPredicates .or hwell) h
termination_by structural filters

end

/-- A filter is compiled to a well-formed condition. This holds on every schema in which no
field has a compiler of its own. -/
theorem compile_wellFormed {schema : Schema} {filter : Filter} {c : Condition}
    (hplain : ∀ compile, ¬schema.Defines (.custom compile))
    (h : filter.compile limits now schema = .ok (.condition c)) :
    c.WellFormed schema filter.texts limits.maxValues :=
  compileAt_wellFormed hplain filter (p := .condition c) .ofSchema .row (List.Subset.refl _) h

namespace Sample

/-- The title of a book, which may be unknown. -/
def bookTitle : FilterColumn := ⟨.column ⟨.own, ⟨"title", .refl true⟩⟩, .string, true⟩

/-- The tags of a book. -/
def bookTags : FilterColumn := ⟨.column ⟨.own, ⟨"tags", .refl true⟩⟩, .jsonArray, false⟩

/-- Books, with their tags and titles. -/
def books : Schema := .ofFields [("tags", .column bookTags none), ("title", .column bookTitle none)]

/-- The books on a shelf. -/
def booksOn : Select := Select.empty.fromTable ⟨⟨"books", .refl true⟩, none⟩

/-- Shelves, which are filtered by the books on them. -/
def shelves : Schema := .ofFields [("books", .related booksOn books)]

/-- A book whose title is unknown or one of two, and which is tagged red. -/
def redBook : Filter :=
  .field "books" (.all [.field "title" (.oneOf [.null, .string "Emma", .string "ULYSSES"]),
    .field "tags" (.oneOf [.string "Red"])])

/-- What the filter is compiled to on a row of books. -/
def redBookCondition : Condition :=
  .exists (booksOn.restrictBy (.all [
    .any [.isNull bookTitle.expr false,
      .oneOf bookTitle.lowerText [.string "emma", .string "ulysses"] false],
    .overlaps bookTags.expr [.string "red"]])) false

/-- No field of a book has a compiler of its own. -/
theorem books_plain : books.Each fun _ field => ∀ compile, field ≠ .custom compile :=
  .ofFields (by simp [FieldDefinition.EachBelow.column])

/-- No field of a shelf or of the books on it has a compiler of its own. -/
theorem shelves_plain (compile : Filter → FieldPath → Except FilterError Predicate) :
    ¬shelves.Defines (.custom compile) := by
  intro h
  obtain ⟨-, hne⟩ := Schema.Each.of_defines h (.singleton (by simp) (.related books_plain))
  exact hne compile rfl

end Sample

open Sample in
/-- What the filter for the red book is compiled to is in the grammar, with its three texts. -/
theorem compile_wellFormed_shelves :
    redBook.compile {} default shelves = .ok (.condition redBookCondition) ∧
      redBookCondition.WellFormed shelves ["Emma", "ULYSSES", "Red"] 1000 := by
  have hcompile : redBook.compile {} default shelves = .ok (.condition redBookCondition) := rfl
  exact ⟨hcompile, compile_wellFormed shelves_plain hcompile⟩

open Sample in
/-- An array is searched for `null`, which is no value of the column's kind, and a text with a
pattern, which is no text of the filter in lower case. -/
theorem compile_binds_beyond :
    (∀ compile, ¬books.Defines (.custom compile)) ∧
      (Filter.field "tags" (.compare .eq .null)).compile {} default books =
        .ok (.condition (.any [.arrayContains bookTags.expr .null false,
          .isNull bookTags.expr false])) ∧
      ¬bookTags.kind.Binds [] .null ∧
      (Filter.field "title" (.contains "At")).compile {} default books =
        .ok (.condition (.like bookTitle.lowerText (.string "%at%") false)) ∧
      ¬bookTitle.kind.Binds ["At"] (.string "%at%") := by
  refine ⟨fun compile h => ?_, rfl, id, rfl, ?_⟩
  · obtain ⟨-, hne⟩ := Schema.Each.of_defines h books_plain
    exact hne compile rfl
  · rintro ⟨text, htext, hpattern⟩
    rw [List.mem_singleton.1 htext] at hpattern
    revert hpattern
    decide

end Filter

end FilterSql
