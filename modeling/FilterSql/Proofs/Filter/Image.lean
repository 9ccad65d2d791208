import FilterSql.Proofs.Filter.Depth
import FilterSql.Proofs.Sort.Cursor

/-!
# What a caller can express

The filters that are read from JSON are those without markers whose fields have no operator for a
name (`Filter.read_image`). Every such filter is written as JSON by `Filter.toJson`, each construct
as an object of one member, and read back within a limit of `Filter.height`
(`Filter.read_toJson`). In the other direction nothing else is read (`Filter.templateFree_ofJson`).
-/

namespace FilterSql

/-! ## Names of members -/

/-- The name that a comparison is read from is its keyword. -/
theorem CompareOp.eq_keyword_of_ofKeyword? {name : String} {op : CompareOp}
    (h : CompareOp.ofKeyword? name = some op) : name = op.keyword := by
  unfold CompareOp.ofKeyword? at h
  repeat' split at h
  all_goals cases h
  all_goals assumption

/-- The keyword of a comparison starts with a dollar sign. -/
theorem CompareOp.head?_keyword (op : CompareOp) : op.keyword.toList.head? = some '$' := by
  cases op <;> rfl

namespace Filter

/-- A member is a field unless its name starts with a dollar sign. -/
theorem MemberKind.ofName_eq_field {name : String} :
    MemberKind.ofName name = .field ↔ name.toList.head? ≠ some '$' := by
  unfold MemberKind.ofName
  cases hop : CompareOp.ofKeyword? name with
  | some op =>
    rw [CompareOp.eq_keyword_of_ofKeyword? hop, CompareOp.head?_keyword]
    exact ⟨nofun, fun h => absurd rfl h⟩
  | none =>
    by_cases hdollar : name.toList.head? = some '$'
    · rw [hdollar]
      refine ⟨fun h => ?_, fun h => absurd rfl h⟩
      simp only [bne_self_eq_false, Bool.false_eq_true, if_false] at h
      repeat' split at h
      all_goals cases h
    · simp [hdollar]

/-- The keyword of a comparison names that comparison. -/
theorem MemberKind.ofName_keyword (op : CompareOp) :
    MemberKind.ofName op.keyword = .compare op := by
  cases op <;> rfl

end Filter

/-! ## Operands -/

/-- There is a text or a number for an instant: it is a whole number of milliseconds, or its year
has four digits. -/
def Instant.Expressible (t : Instant) : Prop :=
  (∃ millis, Instant.ofMillis? millis = some t) ∨
    0 ≤ t.toClock.date.year ∧ t.toClock.date.year ≤ 9999

/-- The JSON of an instant. -/
def Instant.toDate (t : Instant) : Json :=
  if 0 ≤ t.toClock.date.year ∧ t.toClock.date.year ≤ 9999 then .string (t.text "Z")
  else .int (t.seconds * 1000 + (t.nanos / 1000000 : Nat))

/-- The JSON of an instant is read as the instant, if there is a text or a number for it. -/
theorem Instant.date?_toDate {t : Instant} (h : t.Expressible) :
    Filter.date? (some t.toDate) = some t := by
  unfold toDate
  split
  next hyear => exact t.ofRfc3339?_text hyear.1 hyear.2 (.inl rfl)
  next hyear =>
    obtain ⟨hleap, hwhole⟩ := exists_ofMillis?_iff.1 (h.resolve_right hyear)
    have hlast : t.seconds * 1000 + (t.nanos / 1000000 : Nat) ≤ Int64.maxValue.toInt := by
      have hbound := t.le_last
      have hmax : Int64.maxValue.toInt = 9223372036854775807 := rfl
      omega
    show (if _ ≤ Int64.maxValue.toInt then _ else none) = _
    rw [if_pos hlast, t.ofMillis?_self hleap hwhole]

/-- The JSON of an instant is one that a caller may send. -/
theorem Instant.isValue_toDate (t : Instant) {depth : Nat} : Json.Readable depth t.toDate := by
  unfold toDate
  split
  · exact .string _
  · have hfirst := t.first_le
    have hlast := t.le_last
    have hnanos := t.nanos_lt
    have hmin : Int64.minValue.toInt = -9223372036854775808 := rfl
    have hsize : UInt64.size = 18446744073709551616 := rfl
    exact .int (by omega) (by omega)

/-- The values that JSON has no form for. -/
theorem Filter.magicOperand_eq_ok {members : List (String × Json)} {operand : Operand} :
    magicOperand members = .ok operand ↔
      Json.member? "$" members = some (.string "$now") ∧ operand = .now ∨
      Json.member? "$" members = some (.string "$date") ∧
        ∃ t, date? (Json.member? "value" members) = some t ∧ operand = .instant t := by
  rw [magicOperand]
  split
  next tag htag =>
    rw [htag]
    by_cases hnow : tag = "$now"
    · simp [hnow, eq_comm]
    by_cases hdate : tag = "$date"
    · simp only [if_neg hnow, if_pos hdate]
      cases date? (Json.member? "value" members) <;> simp [hdate, eq_comm]
    · simp [hnow, hdate]
  next htag =>
    have hno (tag : String) : Json.member? "$" members ≠ some (.string tag) := htag tag
    simp [hno]

/-- The object of a date is read as its instant. -/
theorem Filter.magicOperand_date {value : Json} {t : Instant} (h : date? (some value) = some t) :
    magicOperand [("$", .string "$date"), ("value", value)] = .ok (.instant t) :=
  magicOperand_eq_ok.2 (.inr ⟨rfl, t, h, rfl⟩)

namespace Operand

/-- There is JSON for an operand. -/
structure Expressible (operand : Operand) : Prop where
  finite : operand.Finite
  instant : ∀ t, operand = .instant t → t.Expressible

/-- The JSON of an operand in a filter. -/
def toFilterJson : Operand → Json
  | .null => .null
  | .bool b => .bool b
  | .int n => .int n.toInt
  | .float x => .float x
  | .string s => .string s
  | .instant t => .object [("$", .string "$date"), ("value", t.toDate)]
  | .now => .object [("$", .string "$now")]

/-- The JSON of an operand is read as the operand. -/
theorem operand_toFilterJson {operand : Operand} (h : operand.Expressible) (operator : String) :
    Filter.operand operator operand.toFilterJson = .ok operand := by
  cases operand with
  | null => rfl
  | bool b => rfl
  | int n =>
    refine (if_pos ⟨n.minValue_le_toInt, n.toInt_le⟩).trans ?_
    rw [Int64.ofInt_toInt]
  | float x => rfl
  | string s => rfl
  | instant t => exact Filter.magicOperand_date (Instant.date?_toDate (h.instant t rfl))
  | now => rfl

/-- The JSON of some operands is read as the operands. -/
theorem operands_toFilterJson {operands : List Operand} (h : ∀ o ∈ operands, o.Expressible)
    (operator : String) :
    Filter.operands operator (operands.map toFilterJson) = .ok operands := by
  induction operands with
  | nil => rfl
  | cons operand rest ih =>
    rw [List.map_cons, Filter.operands,
      operand_toFilterJson (h operand List.mem_cons_self),
      ih fun o ho => h o (List.mem_cons_of_mem _ ho)]
    rfl

/-- The JSON of a finite operand is one that a caller may send. -/
theorem readable_toFilterJson {operand : Operand} (h : operand.Finite) {depth : Nat} :
    Json.Readable (depth + 1) operand.toFilterJson := by
  cases operand with
  | null => exact .null
  | bool b => exact .bool b
  | int n => exact .int n.minValue_le_toInt (n.toInt_lt.trans (by decide))
  | float x => exact .float (h x rfl)
  | string s => exact .string s
  | instant t =>
    refine .object (by decide : ["$", "value"].Nodup) fun member hmember => ?_
    rcases List.mem_pair.1 hmember with rfl | rfl
    · exact .string _
    · exact t.isValue_toDate
  | now =>
    refine .object (List.nodup_singleton "$") fun member hmember => ?_
    obtain rfl := List.mem_singleton.1 hmember
    exact .string _

end Operand

namespace Filter

/-! ## Filters without markers -/

mutual

/-- A filter without markers, whose fields have no operator for a name and whose operands have a
property. -/
def TemplateFree (P : Operand → Prop) : Filter → Prop
  | .all filters => AllTemplateFree P filters
  | .any filters => AllTemplateFree P filters
  | .not filter => filter.TemplateFree P
  | .field name filter => name.toList.head? ≠ some '$' ∧ filter.TemplateFree P
  | .compare _ operand => P operand
  | .oneOf operands => ∀ operand ∈ operands, P operand
  | .contains _ => True
  | .elemMatch filter => filter.TemplateFree P
  | .marker => False

/-- The filters of a list are without markers. -/
def AllTemplateFree (P : Operand → Prop) : List Filter → Prop
  | [] => True
  | filter :: rest => filter.TemplateFree P ∧ AllTemplateFree P rest

end

mutual

/-- The JSON of a filter, an object of one member. There is none for a marker. -/
def toJson : Filter → Json
  | .all filters => .object [("$and", .array (toJsonAll filters))]
  | .any filters => .object [("$or", .array (toJsonAll filters))]
  | .not filter => .object [("$not", filter.toJson)]
  | .field name filter => .object [(name, filter.toJson)]
  | .compare op operand => .object [(op.keyword, operand.toFilterJson)]
  | .oneOf operands => .object [("$in", .array (operands.map Operand.toFilterJson))]
  | .contains needle => .object [("$contains", .string needle)]
  | .elemMatch filter => .object [("$elemMatch", filter.toJson)]
  | .marker => .object []

/-- The JSON of the filters of a list. -/
def toJsonAll : List Filter → List Json
  | [] => []
  | filter :: rest => filter.toJson :: toJsonAll rest

end

mutual

/-- The objects that nest in the JSON of a filter. -/
def height : Filter → Nat
  | .all filters => 1 + heightAll filters
  | .any filters => 1 + heightAll filters
  | .not filter => 1 + filter.height
  | .field _ filter => 1 + filter.height
  | .elemMatch filter => 1 + filter.height
  | .compare .. | .oneOf _ | .contains _ | .marker => 1

/-- The height of the highest filter of a list. -/
def heightAll : List Filter → Nat
  | [] => 0
  | filter :: rest => max filter.height (heightAll rest)

end

variable {max depth : Nat} {path : FieldPath} {name : String} {value : Json}

/-- An object of one member is read as the filter of the member. -/
theorem ofJson_single (hdepth : depth ≤ max) (hname : name ≠ "$") :
    ofJson max path depth (.object [(name, value)]) = ofMember max path depth name value := by
  rw [ofJson, if_neg (by omega), if_neg (by simp [isMagic, hname]), ofMembers_cons]
  cases ofMember max path depth name value <;> rfl

/-- A member that is named like a field is read as the field with its filter. -/
theorem ofMember_field (h : MemberKind.ofName name = .field) :
    ofMember max path depth name value =
      (ofJson max (path.child name) (depth + 1) value).map (.field name) := by
  simp only [ofMember, h]

/-- A member that is named like a comparison is read as the comparison with its operand. -/
theorem ofMember_compare {op : CompareOp} (h : MemberKind.ofName name = .compare op) :
    ofMember max path depth name value =
      (located path (operand name value)).map (.compare op) := by
  simp only [ofMember, h]

/-- The JSON of a filter is an object. -/
theorem exists_toJson (filter : Filter) : ∃ members, filter.toJson = .object members := by
  cases filter <;> exact ⟨_, by rw [toJson]⟩

mutual

/-- A filter is read back from its JSON. -/
theorem ofJson_toJson (filter : Filter) {path : FieldPath} {depth : Nat}
    (h : filter.TemplateFree Operand.Expressible) (hdepth : depth + filter.height ≤ max + 1) :
    ofJson max path depth filter.toJson = .ok filter := by
  match filter with
  | .all filters =>
    rw [height] at hdepth
    rw [toJson, ofJson_single (by omega) (by decide)]
    show (ofItems max path (depth + 1) (toJsonAll filters)).map _ = _
    rw [ofItems_toJsonAll filters h (by omega)]
    rfl
  | .any filters =>
    rw [height] at hdepth
    rw [toJson, ofJson_single (by omega) (by decide)]
    show (ofItems max path (depth + 1) (toJsonAll filters)).map _ = _
    rw [ofItems_toJsonAll filters h (by omega)]
    rfl
  | .not filter =>
    rw [height] at hdepth
    rw [toJson, ofJson_single (by omega) (by decide)]
    show (ofJson max path (depth + 1) filter.toJson).map _ = _
    rw [ofJson_toJson filter h (by omega)]
    rfl
  | .field name filter =>
    rw [height] at hdepth
    have hkind : MemberKind.ofName name = .field := MemberKind.ofName_eq_field.2 h.1
    have hname : name ≠ "$" := by
      rintro rfl
      exact h.1 rfl
    rw [toJson, ofJson_single (by omega) hname, ofMember_field hkind,
      ofJson_toJson filter h.2 (by omega)]
    rfl
  | .compare op operand =>
    have hname : op.keyword ≠ "$" := by cases op <;> decide
    rw [height] at hdepth
    rw [toJson, ofJson_single (by omega) hname, ofMember_compare (MemberKind.ofName_keyword op),
      Operand.operand_toFilterJson h]
    rfl
  | .oneOf operands =>
    rw [height] at hdepth
    rw [toJson, ofJson_single (by omega) (by decide)]
    show (located path (Filter.operands "$in" (operands.map Operand.toFilterJson))).map _ = _
    rw [Operand.operands_toFilterJson h]
    rfl
  | .contains needle =>
    rw [height] at hdepth
    rw [toJson, ofJson_single (by omega) (by decide)]
    rfl
  | .elemMatch filter =>
    rw [height] at hdepth
    obtain ⟨members, hmembers⟩ := filter.exists_toJson
    have hinner : ofJson max path (depth + 1) filter.toJson = .ok filter :=
      ofJson_toJson filter h (by omega)
    rw [hmembers] at hinner
    rw [toJson, ofJson_single (by omega) (by decide), hmembers]
    show (ofJson max path (depth + 1) (.object members)).map _ = _
    rw [hinner]
    rfl
  | .marker => exact h.elim
termination_by structural filter

/-- The JSON of some filters is read as the filters, within a limit of their height. -/
theorem ofItems_toJsonAll (filters : List Filter) {path : FieldPath} {depth : Nat}
    (h : AllTemplateFree Operand.Expressible filters)
    (hdepth : depth + heightAll filters ≤ max + 1) :
    ofItems max path depth (toJsonAll filters) = .ok filters := by
  match filters with
  | [] => rfl
  | filter :: rest =>
    rw [heightAll] at hdepth
    rw [toJsonAll, ofItems, ofJson_toJson filter h.1 (by omega),
      ofItems_toJsonAll rest h.2 (by omega)]
    rfl
termination_by structural filters

end

/-! ## The JSON of a filter can be held -/

/-- An object with one member may be sent if the value of the member may be. -/
theorem readable_single {depth : Nat} (h : Json.Readable depth value) :
    Json.Readable (depth + 1) (.object [(name, value)]) := by
  refine .object (List.nodup_singleton name) fun member hmember => ?_
  obtain rfl := List.mem_singleton.1 hmember
  exact h

mutual

/-- The JSON of a filter is one that a caller may send, with two levels for each object. -/
theorem readable_toJson (filter : Filter) {depth : Nat}
    (h : filter.TemplateFree Operand.Expressible)
    (hdepth : 2 * filter.height ≤ depth) : Json.Readable (depth + 1) filter.toJson := by
  match filter with
  | .all filters =>
    rw [height] at hdepth
    obtain ⟨depth, rfl⟩ := Nat.exists_eq_add_of_le' (show 2 ≤ depth by omega)
    exact readable_single (.array (readable_toJsonAll filters h (by omega)))
  | .any filters =>
    rw [height] at hdepth
    obtain ⟨depth, rfl⟩ := Nat.exists_eq_add_of_le' (show 2 ≤ depth by omega)
    exact readable_single (.array (readable_toJsonAll filters h (by omega)))
  | .not filter =>
    rw [height] at hdepth
    obtain ⟨depth, rfl⟩ := Nat.exists_eq_add_of_le' (show 1 ≤ depth by omega)
    exact readable_single (readable_toJson filter h (by omega))
  | .field name filter =>
    rw [height] at hdepth
    obtain ⟨depth, rfl⟩ := Nat.exists_eq_add_of_le' (show 1 ≤ depth by omega)
    exact readable_single (readable_toJson filter h.2 (by omega))
  | .compare op operand =>
    rw [height] at hdepth
    obtain ⟨depth, rfl⟩ := Nat.exists_eq_add_of_le' (show 1 ≤ depth by omega)
    exact readable_single (Operand.readable_toFilterJson h.finite)
  | .oneOf operands =>
    rw [height] at hdepth
    obtain ⟨depth, rfl⟩ := Nat.exists_eq_add_of_le' (show 2 ≤ depth by omega)
    refine readable_single (.array fun item hitem => ?_)
    obtain ⟨operand, hoperand, rfl⟩ := List.mem_map.1 hitem
    exact Operand.readable_toFilterJson (h operand hoperand).finite
  | .contains needle => exact readable_single (.string needle)
  | .elemMatch filter =>
    rw [height] at hdepth
    obtain ⟨depth, rfl⟩ := Nat.exists_eq_add_of_le' (show 1 ≤ depth by omega)
    exact readable_single (readable_toJson filter h (by omega))
  | .marker => exact h.elim
termination_by structural filter

/-- The JSON of each of some filters is one that a caller may send. -/
theorem readable_toJsonAll (filters : List Filter) {depth : Nat}
    (h : AllTemplateFree Operand.Expressible filters) (hdepth : 2 * heightAll filters ≤ depth) :
    ∀ item ∈ toJsonAll filters, Json.Readable (depth + 1) item := by
  match filters with
  | [] => exact nofun
  | filter :: rest =>
    rw [heightAll] at hdepth
    rw [toJsonAll]
    exact List.forall_mem_cons.2
      ⟨readable_toJson filter h.1 (by omega), readable_toJsonAll rest h.2 (by omega)⟩
termination_by structural filters

end

/-! ## Nothing else is read -/

/-- What is read at a place is what is read anywhere. -/
theorem located_eq_ok {α : Type} {x : Except FilterFault α} {a : α} :
    located path x = .ok a ↔ x = .ok a := by
  cases x with
  | ok b => exact ⟨fun h => congrArg Except.ok (Except.ok.inj h), fun h => by cases h; rfl⟩
  | error fault => exact ⟨nofun, nofun⟩

/-- The operand of an object is an instant. -/
theorem finite_magicOperand {members : List (String × Json)} {operand : Operand}
    (h : magicOperand members = .ok operand) : operand.Finite := by
  rcases magicOperand_eq_ok.1 h with ⟨-, rfl⟩ | ⟨-, t, -, rfl⟩ <;> exact nofun

/-- An operand that is read is finite. -/
theorem finite_operand {operator : String} {operand : Operand} {inside : Nat}
    (hvalue : Json.Readable inside value) (h : Filter.operand operator value = .ok operand) :
    operand.Finite := by
  cases hvalue with
  | null | bool b | string s =>
    cases h
    exact nofun
  | int first last =>
    rw [Filter.operand] at h
    split at h
    · cases h
      exact nofun
    · cases h
  | float finite =>
    cases h
    rintro x ⟨⟩
    exact finite
  | array inner => cases h
  | object names inner =>
    rw [Filter.operand] at h
    split at h
    · exact finite_magicOperand h
    · cases h

/-- Operands that are read are finite. -/
theorem finite_operands {operator : String} {items : List Json} {operands : List Operand}
    {inside : Nat} (hitems : ∀ item ∈ items, Json.Readable inside item)
    (h : Filter.operands operator items = .ok operands) : ∀ o ∈ operands, o.Finite := by
  induction items generalizing operands with
  | nil =>
    cases h
    exact List.forall_mem_nil _
  | cons item rest ih =>
    simp only [Filter.operands, bind_eq_ok, pure, Except.pure] at h
    obtain ⟨operand, hoperand, operands, hoperands, h⟩ := h
    cases h
    obtain ⟨hitem, hrest⟩ := List.forall_mem_cons.1 hitems
    exact List.forall_mem_cons.2 ⟨finite_operand hitem hoperand, ih hrest hoperands⟩

/-- A conjunction is without markers if its filters are. -/
theorem templateFree_conjunction {P : Operand → Prop} {filters : List Filter}
    (h : AllTemplateFree P filters) : (conjunction filters).TemplateFree P := by
  unfold conjunction
  split
  · exact h.1
  · exact h

/-- What a member is read as has no markers if what its value is read as has none. -/
theorem templateFree_ofMember {inside : Nat} {filter : Filter} (hdepth : depth ≤ max)
    (hvalue : Json.Readable inside value)
    (hread : ∀ {path depth filter}, ofJson max path depth value = .ok filter →
      filter.TemplateFree Operand.Finite)
    (h : ofMember max path depth name value = .ok filter) :
    filter.TemplateFree Operand.Finite := by
  cases hkind : MemberKind.ofName name with
  | field =>
    rw [ofMember_field hkind] at h
    obtain ⟨inner, hinner, rfl⟩ := map_eq_ok.1 h
    exact ⟨MemberKind.ofName_eq_field.1 hkind, hread hinner⟩
  | compare op =>
    rw [ofMember_compare hkind] at h
    obtain ⟨operand, hoperand, rfl⟩ := map_eq_ok.1 h
    exact finite_operand hvalue (located_eq_ok.1 hoperand)
  | not =>
    simp only [ofMember, hkind] at h
    obtain ⟨inner, hinner, rfl⟩ := map_eq_ok.1 h
    have hfree : inner.TemplateFree Operand.Finite := hread hinner
    exact hfree
  | and =>
    cases value with
    | array items =>
      simp only [ofMember, hkind] at h
      obtain ⟨filters, hfilters, rfl⟩ := map_eq_ok.1 h
      exact hread ((ofJson_all hdepth rfl).2 hfilters)
    | object members =>
      simp only [ofMember, hkind] at h
      obtain ⟨inner, hinner, rfl⟩ := map_eq_ok.1 h
      exact ⟨hread hinner, trivial⟩
    | null | bool _ | int _ | float _ | string _ => simp [ofMember, hkind] at h
  | or =>
    cases value with
    | array items =>
      simp only [ofMember, hkind] at h
      obtain ⟨filters, hfilters, rfl⟩ := map_eq_ok.1 h
      have hfree : (all filters).TemplateFree Operand.Finite :=
        hread ((ofJson_all hdepth rfl).2 hfilters)
      exact hfree
    | object members =>
      simp only [ofMember, hkind] at h
      obtain ⟨inner, hinner, rfl⟩ := map_eq_ok.1 h
      exact ⟨hread hinner, trivial⟩
    | null | bool _ | int _ | float _ | string _ => simp [ofMember, hkind] at h
  | oneOf =>
    cases hvalue with
    | array inner =>
      simp only [ofMember, hkind] at h
      obtain ⟨operands, hoperands, rfl⟩ := map_eq_ok.1 h
      exact finite_operands inner (located_eq_ok.1 hoperands)
    | null | bool | int | float | string | object => simp [ofMember, hkind] at h
  | contains =>
    cases value with
    | string needle =>
      simp only [ofMember, hkind] at h
      cases h
      trivial
    | null | bool _ | int _ | float _ | array _ | object _ => simp [ofMember, hkind] at h
  | elemMatch =>
    cases value with
    | array items =>
      simp only [ofMember, hkind] at h
      obtain ⟨inner, hinner, rfl⟩ := map_eq_ok.1 h
      have hfree : inner.TemplateFree Operand.Finite := hread hinner
      exact hfree
    | object members =>
      simp only [ofMember, hkind] at h
      obtain ⟨inner, hinner, rfl⟩ := map_eq_ok.1 h
      have hfree : inner.TemplateFree Operand.Finite := hread hinner
      exact hfree
    | null | bool _ | int _ | float _ | string _ => simp [ofMember, hkind] at h
  | unknown => simp [ofMember, hkind] at h

mutual

/-- A filter that is read from JSON has no markers, and no operator for a field. -/
theorem templateFree_ofJson (value : Json) {path : FieldPath} {depth inside : Nat}
    {filter : Filter} (hvalue : Json.Readable inside value)
    (h : ofJson max path depth value = .ok filter) : filter.TemplateFree Operand.Finite := by
  match value with
  | .object members =>
    rw [ofJson] at h
    split at h
    · cases h
    · split at h
      · obtain ⟨operand, hoperand, rfl⟩ := map_eq_ok.1 h
        exact finite_magicOperand (located_eq_ok.1 hoperand)
      · obtain ⟨filters, hfilters, rfl⟩ := map_eq_ok.1 h
        cases hvalue with
        | object names inner =>
          exact templateFree_conjunction
            (templateFree_ofMembers members (by omega) inner hfilters)
  | .array items =>
    rw [ofJson] at h
    split at h
    · cases h
    · obtain ⟨filters, hfilters, rfl⟩ := map_eq_ok.1 h
      cases hvalue with
      | array inner => exact templateFree_ofItems items inner hfilters
  | .null | .bool _ | .int _ | .float _ | .string _ =>
    simp only [ofJson] at h
    split at h
    · cases h
    · obtain ⟨operand, hoperand, rfl⟩ := map_eq_ok.1 h
      exact finite_operand hvalue (located_eq_ok.1 hoperand)
termination_by structural value

/-- The filters that are read from the items of an array are without markers. -/
theorem templateFree_ofItems (items : List Json) {path : FieldPath} {depth inside : Nat}
    {filters : List Filter} (hitems : ∀ item ∈ items, Json.Readable inside item)
    (h : ofItems max path depth items = .ok filters) :
    AllTemplateFree Operand.Finite filters := by
  match items with
  | [] =>
    cases h
    trivial
  | item :: rest =>
    simp only [ofItems, bind_eq_ok, pure, Except.pure] at h
    obtain ⟨filter, hfilter, filters, hfilters, h⟩ := h
    cases h
    obtain ⟨hitem, hrest⟩ := List.forall_mem_cons.1 hitems
    exact ⟨templateFree_ofJson item hitem hfilter, templateFree_ofItems rest hrest hfilters⟩
termination_by structural items

/-- The filters that are read from the members of an object are without markers. -/
theorem templateFree_ofMembers (members : List (String × Json)) {path : FieldPath}
    {depth inside : Nat} {filters : List Filter} (hdepth : depth ≤ max)
    (hmembers : ∀ member ∈ members, Json.Readable inside member.2)
    (h : ofMembers max path depth members = .ok filters) :
    AllTemplateFree Operand.Finite filters := by
  match members with
  | [] =>
    cases h
    trivial
  | (name, value) :: rest =>
    simp only [ofMembers_cons, bind_eq_ok, pure, Except.pure] at h
    obtain ⟨filter, hfilter, filters, hfilters, h⟩ := h
    cases h
    obtain ⟨hmember, hrest⟩ := List.forall_mem_cons.1 hmembers
    refine ⟨?_, templateFree_ofMembers rest hdepth hrest hfilters⟩
    exact templateFree_ofMember hdepth hmember (templateFree_ofJson value hmember) hfilter
termination_by structural members

end

/-! ## What is read -/

/-- The JSON of a filter is read as the filter, within a limit of its height. -/
theorem read_toJson {filter : Filter} (h : filter.TemplateFree Operand.Expressible) :
    read filter.height filter.toJson = .ok filter :=
  ofJson_toJson filter h (by omega)

end Filter

/-- A value that a caller may send: integers of 64 bits, finite numbers and distinct names, nested
in any way. -/
def Json.IsValue (value : Json) : Prop :=
  ∃ depth, value.Readable depth

/-- A caller expresses every filter without markers whose fields have no operator for a name and
whose operands there is JSON for, and no filter with markers, with operators for fields or with
numbers that are not finite. -/
theorem Filter.read_image (filter : Filter) :
    (filter.TemplateFree Operand.Expressible →
        ∃ value max, value.IsValue ∧ read max value = .ok filter) ∧
      (∀ value max, value.IsValue → read max value = .ok filter →
        filter.TemplateFree Operand.Finite) ∧
      ∀ text, readText text = .ok filter → filter.TemplateFree Operand.Finite := by
  refine ⟨fun h => ?_, fun value max hvalue h => ?_, fun text h => ?_⟩
  · exact ⟨filter.toJson, filter.height, ⟨_, readable_toJson filter h le_rfl⟩, read_toJson h⟩
  · obtain ⟨inside, hinside⟩ := hvalue
    exact templateFree_ofJson value hinside h
  · unfold readText at h
    split at h
    next value hvalue => exact templateFree_ofJson value (Json.readable_read? hvalue) h
    next => cases h

namespace Filter

namespace Sample

/-- The letters since 1970 that are for Ann or have no tag of two. -/
def letters : Filter :=
  .all [.field "sent" (.compare .gte (.instant .epoch)),
    .any [.field "to" (.contains "ann"),
      .not (.field "tags" (.elemMatch (.oneOf [.string "old", .now])))]]

end Sample

open Sample in
/-- A filter with an instant and with nested lists has JSON, and is read back from its text. -/
theorem read_image_letters :
    letters.TemplateFree Operand.Expressible ∧
      (∃ value max, value.IsValue ∧ read max value = .ok letters) ∧
      readText letters.toJson.text = .ok letters ∧ letters.TemplateFree Operand.Finite := by
  have hepoch : Instant.epoch.Expressible := .inl ⟨0, rfl⟩
  have hold : (Operand.string "old").Expressible := ⟨nofun, fun _ h => nomatch h⟩
  have hnow : Operand.now.Expressible := ⟨nofun, fun _ h => nomatch h⟩
  have hsent : (Operand.instant .epoch).Expressible :=
    ⟨nofun, fun _ h => Operand.instant.inj h ▸ hepoch⟩
  have hfree : letters.TemplateFree Operand.Expressible := by
    refine ⟨⟨by decide, hsent⟩, ⟨⟨by decide, trivial⟩, ⟨by decide, ?_⟩, trivial⟩, trivial⟩
    exact List.forall_mem_cons.2 ⟨hold, List.forall_mem_singleton.2 hnow⟩
  have htext : readText letters.toJson.text = .ok letters := by
    have hvalue : Json.Readable (126 + 1) letters.toJson :=
      readable_toJson letters hfree (by decide)
    rw [readText, Json.read?_text hvalue]
    exact ofJson_toJson letters hfree (by decide)
  exact ⟨hfree, (read_image letters).1 hfree, htext, (read_image letters).2.2 _ htext⟩

end Filter

end FilterSql
