import FilterSql.Proofs.Json.RoundTrip
import FilterSql.Proofs.Time.Timestamp
import FilterSql.Sql.Dialect

/-!
# JSON parameters read back

The text of a value is the compact text of its image in JSON (`Value.jsonText_eq`), so whoever reads
the parameter has the value again, as far as JSON has a form for it. Arrays nest in the text as deep
as they do in the value, and the reader gives up beyond 127 of them; `Value.readable_image_iff` says
that nothing else stands in its way.
-/

namespace FilterSql.Value

/-! ## Images -/

mutual

/-- What a value is in JSON. An instant is its Internet date and time, and a number that is not
finite is `null`. -/
def image : Value → Json
  | .null => .null
  | .bool b => .bool b
  | .int n => .int n.toInt
  | .float x => if x.isFinite then .float x else .null
  | .string s => .string s
  | .instant t => .string (t.text "+00:00")
  | .array items => .array (images items)

/-- What the values of a list are in JSON, in turn. -/
def images : List Value → List Json
  | [] => []
  | v :: rest => v.image :: images rest

end

mutual

/-- How deep arrays nest in a value. -/
def nesting : Value → Nat
  | .array items => nestingAll items + 1
  | _ => 0

/-- How deep arrays nest in the values of a list. -/
def nestingAll : List Value → Nat
  | [] => 0
  | v :: rest => max v.nesting (nestingAll rest)

end

/-- The images of a list are those of its values. -/
theorem images_eq_map (values : List Value) : images values = values.map image := by
  induction values with
  | nil => rfl
  | cons v rest ih => rw [images, ih, List.map_cons]

/-- Values nest less than a depth exactly if each of them does. -/
theorem nestingAll_lt {values : List Value} {depth : Nat} (hdepth : 0 < depth) :
    nestingAll values < depth ↔ ∀ v ∈ values, v.nesting < depth := by
  induction values with
  | nil => simpa [nestingAll] using hdepth
  | cons v rest ih => rw [nestingAll, max_lt_iff, ih, List.forall_mem_cons]

/-! ## Texts -/

/-- A number that is not finite is written as `null`. -/
theorem floatText_image (x : Binary64) :
    Json.floatText x = (if x.isFinite then Json.float x else .null).text := by
  split
  · rfl
  next hfinite =>
    rw [Json.floatText, Bool.eq_false_of_not_eq_true hfinite]
    rfl

mutual

/-- The text of a value is the text of its image. -/
theorem jsonText_eq (v : Value) : v.jsonText = v.image.text := by
  match v with
  | .null | .bool _ | .int _ | .string _ | .instant _ => rfl
  | .float x => exact floatText_image x
  | .array items => rw [jsonText, image, Json.text, jsonTexts_eq items]
termination_by structural v

/-- The texts of a list are those of its images. -/
theorem jsonTexts_eq (values : List Value) : jsonTexts values = Json.itemTexts (images values) := by
  match values with
  | [] => rfl
  | v :: rest => rw [jsonTexts, images, Json.itemTexts, jsonText_eq v, jsonTexts_eq rest]
termination_by structural values

end

/-! ## Reading -/

/-- The image of every number can be held. -/
theorem readable_floatImage (x : Binary64) {depth : Nat} :
    Json.Readable depth (if x.isFinite then .float x else .null) := by
  split
  next hfinite => exact .float hfinite
  next => exact .null

mutual

/-- The reader can hold the image of a value unless arrays nest too deep in it. -/
theorem readable_image_iff (v : Value) {depth : Nat} :
    Json.Readable depth v.image ↔ v.nesting ≤ depth := by
  match v with
  | .null => exact iff_of_true .null (Nat.zero_le depth)
  | .bool b => exact iff_of_true (.bool b) (Nat.zero_le depth)
  | .int n =>
      exact iff_of_true (.int n.minValue_le_toInt (n.toInt_lt.trans (by decide)))
        (Nat.zero_le depth)
  | .float x => exact iff_of_true (readable_floatImage x) (Nat.zero_le depth)
  | .string s => exact iff_of_true (.string s) (Nat.zero_le depth)
  | .instant t => exact iff_of_true (.string _) (Nat.zero_le depth)
  | .array items =>
      rw [image, nesting]
      cases depth with
      | zero => exact iff_of_false nofun (Nat.not_succ_le_zero _)
      | succ depth =>
          rw [Nat.succ_le_succ_iff, ← readable_images_iff items]
          constructor
          · intro h
            cases h with
            | array inside => exact inside
          · exact .array
termination_by structural v

/-- The images of a list can be held exactly if none of the values nests too deep. -/
theorem readable_images_iff (values : List Value) {depth : Nat} :
    (∀ json ∈ images values, Json.Readable depth json) ↔ nestingAll values ≤ depth := by
  match values with
  | [] => simp [images, nestingAll]
  | v :: rest =>
      rw [images, nestingAll, List.forall_mem_cons, readable_image_iff v, readable_images_iff rest,
        max_le_iff]
termination_by structural values

end

/-- A parameter is a text that is read as a value. -/
def ReadsAs (parameter : Value) (json : Json) : Prop :=
  ∃ text, parameter = .string text ∧ Json.read? text = some json

/-- The text of a value is read as its image just where it does not nest too deep. -/
theorem readsAs_jsonText_iff (v : Value) :
    ReadsAs (.string v.jsonText) v.image ↔ v.nesting ≤ Json.maxDepth := by
  rw [← readable_image_iff]
  constructor
  · rintro ⟨text, -, hread⟩
    exact Json.readable_read? hread
  · intro h
    exact ⟨_, rfl, jsonText_eq v ▸ Json.read?_text h⟩

/-- The text of a list is read as its images exactly if none of the values nests too deep. -/
theorem readsAs_jsonArray_iff (values : List Value) :
    ReadsAs (jsonArray values) (.array (values.map image)) ↔
      ∀ v ∈ values, v.nesting < Json.maxDepth := by
  rw [← images_eq_map, ← nestingAll_lt (by decide), ← Nat.succ_le_iff]
  exact readsAs_jsonText_iff (.array values)

/-- The text that is sent for a value is read as the value. A list is read as the array of the
images of its values, in their order, if arrays nest less than 127 deep in each of them. For a test
for one element MySQL is sent the image itself and Postgres the array of it alone. The image of an
instant is a text that names the instant where its year has four digits. -/
theorem parameters_read (values : List Value) :
    (ReadsAs (jsonArray values) (.array (values.map image)) ↔
      ∀ v ∈ values, v.nesting < Json.maxDepth) ∧
    (∀ v, ReadsAs (Dialect.mysql.arrayParameter v false) v.image ↔ v.nesting ≤ Json.maxDepth) ∧
    (∀ v, ReadsAs (Dialect.postgres.arrayParameter v false) (.array [v.image]) ↔
      v.nesting < Json.maxDepth) ∧
    ∀ t : Instant, ∃ s, image (.instant t) = .string s ∧
      (0 ≤ t.toClock.date.year ∧ t.toClock.date.year ≤ 9999 → Instant.ofRfc3339? s = some t) := by
  refine ⟨readsAs_jsonArray_iff values, readsAs_jsonText_iff, fun v => ?_, fun t => ?_⟩
  · exact (readsAs_jsonArray_iff [v]).trans List.forall_mem_singleton
  · exact ⟨_, rfl, fun hyear => t.ofRfc3339?_text hyear.1 hyear.2 (.inr rfl)⟩

namespace Sample

/-- A list with an array in it, and with the infinite number, which JSON has no form for. -/
def mixed : List Value :=
  [.null, .array [.string "a\"b", .int 5], .float ⟨0x7FF0000000000000⟩, .bool true]

end Sample

open Sample in
/-- The array is read back, with `null` for the infinite number. -/
theorem parameters_read_mixed :
    (∀ v ∈ mixed, v.nesting < Json.maxDepth) ∧
      ReadsAs (jsonArray mixed)
        (.array [.null, .array [.string "a\"b", .int 5], .null, .bool true]) := by
  have hshallow : ∀ v ∈ mixed, v.nesting < Json.maxDepth := by decide
  exact ⟨hshallow, (parameters_read mixed).1.2 hshallow⟩

end FilterSql.Value
