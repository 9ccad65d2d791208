import FilterSql.Proofs.Filter.Context

/-!
# Integers in filters

An integer that is written where a filter has an operand is read as the operand in the same place of
the filter, whatever else stands there. JSON keeps it an integer if it fits 64 bits with or without
a sign, and makes a floating-point number of it else, as of `-0`. The operand has to fit 64 bits
with a sign. So of the integers that do not fit, only those that fit without a sign are refused; the
others are widened before the filter sees them (`Filter.readText_integer`).
-/

namespace FilterSql

/-! ## Literals -/

namespace Json.NumberText

/-- The integer that a literal without fraction and exponent writes. -/
def integer (n : NumberText) : Int :=
  if n.negative then -(n.significant : Int) else n.significant

/-- JSON makes a floating-point number of an integer literal. -/
def IsWidened (n : NumberText) : Prop :=
  n.integer < Int64.minValue.toInt ∨ (UInt64.size : Int) ≤ n.integer ∨
    n.negative = true ∧ n.integer = 0

/-- An integer that JSON does not keep is read as a float. -/
theorem toJson?_of_isWidened {n : NumberText} (hinteger : n.isInteger = true)
    (h : n.IsWidened) : n.toJson? = n.toFloat? := by
  obtain ⟨negative, whole, fraction, exponent⟩ := n
  simp only [IsWidened, integer] at h
  simp only [toJson?, hinteger, Bool.not_true, Bool.false_eq_true, if_false]
  generalize (⟨negative, whole, fraction, exponent⟩ : NumberText).significant = digits at h ⊢
  cases negative with
  | true =>
      simp only [if_true] at h ⊢
      have hmin : Int64.minValue.toInt ≤ 0 := by decide
      have hsize : 0 < UInt64.size := by decide
      have hrange : digits = 0 ∨ -(digits : Int) < Int64.minValue.toInt := by omega
      rw [if_pos (by simpa using hrange)]
  | false =>
      simp only [Bool.false_eq_true, if_false, false_and, or_false] at h ⊢
      have hmin : Int64.minValue.toInt ≤ 0 := by decide
      rw [if_neg (by omega)]

/-- An integer that JSON keeps is read as it is. -/
theorem toJson?_of_not_isWidened {n : NumberText} (hinteger : n.isInteger = true)
    (h : ¬n.IsWidened) : n.toJson? = some (.int n.integer) := by
  obtain ⟨negative, whole, fraction, exponent⟩ := n
  simp only [IsWidened, integer, not_or, not_lt] at h
  simp only [toJson?, hinteger, integer, Bool.not_true, Bool.false_eq_true, if_false]
  generalize (⟨negative, whole, fraction, exponent⟩ : NumberText).significant = digits at h ⊢
  cases negative with
  | true =>
      simp only [if_true, true_and] at h ⊢
      have hrange : ¬(digits = 0 ∨ -(digits : Int) < Int64.minValue.toInt) := by omega
      rw [if_neg (by simpa using hrange)]
  | false =>
      simp only [Bool.false_eq_true, if_false] at h ⊢
      rw [if_pos (by omega)]

/-- What is read as a float is one. -/
theorem exists_float {n : NumberText} {value : Json} (h : n.toFloat? = some value) :
    ∃ x, value = .float x := by
  rw [toFloat?] at h
  split at h
  · exact ⟨_, (Option.some.inj h).symm⟩
  · cases h

end Json.NumberText

namespace Filter

/-! ## Places in filters -/

/-- A place for an operand in a filter. -/
inductive Place where
  | compare (op : CompareOp)
  | oneOf (before after : List Operand)
  | all (before : List Filter) (inner : Place) (after : List Filter)
  | any (before : List Filter) (inner : Place) (after : List Filter)
  | not (inner : Place)
  | field (name : String) (inner : Place)
  | elemMatch (inner : Place)

namespace Place

/-- The filter with an operand in a place. -/
def fill : Place → Operand → Filter
  | .compare op, operand => .compare op operand
  | .oneOf before after, operand => .oneOf (before ++ operand :: after)
  | .all before inner after, operand => .all (before ++ inner.fill operand :: after)
  | .any before inner after, operand => .any (before ++ inner.fill operand :: after)
  | .not inner, operand => .not (inner.fill operand)
  | .field name inner, operand => .field name (inner.fill operand)
  | .elemMatch inner, operand => .elemMatch (inner.fill operand)

/-- Filters that are equal but for the operand in one place have the same operand there. -/
theorem fill_injective (place : Place) {a b : Operand} (h : place.fill a = place.fill b) :
    a = b := by
  induction place with
  | compare op => exact (Filter.compare.inj h).2
  | oneOf before after => simpa [fill] using h
  | all before inner after ih => exact ih (by simpa [fill] using h)
  | any before inner after ih => exact ih (by simpa [fill] using h)
  | not inner ih => exact ih (by simpa [fill] using h)
  | field name inner ih => exact ih (by simpa [fill] using h)
  | elemMatch inner ih => exact ih (by simpa [fill] using h)

/-- The place behind a step into a filter. -/
def within : Frame → Place → Place
  | .all before after, inner => .all before inner after
  | .any before after, inner => .any before inner after
  | .not, inner => .not inner
  | .field name, inner => .field name inner
  | .elemMatch, inner => .elemMatch inner

/-- A place behind some steps is filled as the place, and the steps go before it. -/
theorem fill_within (context : List Frame) (inner : Place) (operand : Operand) :
    (context.foldr within inner).fill operand = Filter.fill context (inner.fill operand) := by
  induction context with
  | nil => rfl
  | cons frame rest ih =>
      cases frame <;> simp only [List.foldr_cons, within, fill, ih] <;> rfl

end Place

/-! ## Reading at a place -/

/-- What is read of a number at a place: the operand, or the fault of the operand at a field. -/
def ReadsOperand (read : Json → Except FilterError Filter) (operator : String) (path : FieldPath)
    (place : Place) : Prop :=
  ∀ value, value.IsNumber → read value = (located path (operand operator value)).map place.fill

/-- What reads a number reads it as an operand. -/
theorem Hole.exists_place {max : Nat} (hole : Hole) {value : Json} {filter : Filter}
    (h : hole.read max value = .ok filter) :
    ∃ (place : Place) (operator : String) (path : FieldPath),
      ReadsOperand (hole.read max) operator path place := by
  cases hole with
  | filter path depth =>
      have hdepth := Nat.not_lt.2 (depth_le_of_ofJson h)
      refine ⟨.compare .eq, "$eq", path, fun value hvalue => ?_⟩
      cases value with
      | int n => simp only [Hole.read, ofJson, if_neg hdepth, Place.fill]
      | float x => simp only [Hole.read, ofJson, if_neg hdepth, Place.fill]
      | _ => cases hvalue
  | compare op operator path => exact ⟨.compare op, operator, path, fun _ _ => rfl⟩
  | oneOf operator path before after =>
      exact ⟨.oneOf before after, operator, path, fun _ _ => rfl⟩

/-- A number at a place of a value is read as the operand in a place of the filter. -/
theorem readsOperand_fill {max depth : Nat} {path : FieldPath} (p : Json.Place String Json)
    (hnames : ∀ frame ∈ p, ∀ s ∈ frame.names, s ≠ "$") (first : Json) (hfirst : first.IsNumber)
    {filter : Filter} (h : ofJson max path depth (Json.fill p first) = .ok filter) :
    ∃ (place : Place) (operator : String) (path' : FieldPath),
      ReadsOperand (fun value => ofJson max path depth (Json.fill p value)) operator path'
        place := by
  obtain ⟨context, hole, hall⟩ :=
    readsPart_fill (.inl rfl) p hnames path depth first filter hfirst h
  obtain ⟨part, hpart, -⟩ := map_eq_ok.1 ((hall first hfirst).symm.trans h)
  obtain ⟨place, operator, path', hread⟩ := hole.exists_place hpart
  refine ⟨context.foldr Place.within place, operator, path', fun value hvalue => ?_⟩
  rw [hall value hvalue, hread value hvalue]
  cases located path' (operand operator value) with
  | error e => rfl
  | ok a => exact congrArg Except.ok (place.fill_within context a).symm

/-! ## Integers as operands -/

/-- The filter of a text as written. -/
def readSource (source : Json.Source) : Except FilterError Filter :=
  match Json.ofSource? Json.maxDepth source with
  | some value => read defaultMaxDepth value
  | none => .error ⟨.invalidJson, .root⟩

/-- A text is read as what is written in it. -/
theorem readText_eq {text : String} {source : Json.Source}
    (h : Json.Source.read? text.toList = some source) : readText text = readSource source := by
  rw [readText, Json.read?, h]
  rfl

/-- What is written is read as the value it stands for. -/
theorem readSource_eq {source : Json.Source} {value : Json}
    (h : Json.ofSource? Json.maxDepth source = some value) :
    readSource source = ofJson defaultMaxDepth .root 1 value := by
  rw [readSource, h]
  rfl

/-- What is read as a filter stands for a value. -/
theorem exists_ofSource? {source : Json.Source} {filter : Filter}
    (h : readSource source = .ok filter) :
    ∃ value, Json.ofSource? Json.maxDepth source = some value := by
  rw [readSource] at h
  split at h
  · next value hvalue => exact ⟨value, hvalue⟩
  · cases h

/-- A literal stands in a text where a filter has an operand, and the rest of the text is in order:
with `0` in its stead the text is a filter. No member with the same name replaces what the literal
is in, and no object around it is an operand. -/
structure IsLiteral (text : String) (p : Json.Place (List Char) Json.Source)
    (literal : Json.NumberText) : Prop where
  source : Json.Source.read? text.toList = some (Json.Source.fill p (.number literal))
  kept : ∀ frame ∈ p, frame.IsKept
  plain : ∀ frame ∈ p, ∀ raw ∈ frame.names, Json.stringOf? raw ≠ some "$"
  rest : ∃ filter, readSource (Json.Source.fill p (.number (.ofInt 0))) = .ok filter

/-- An integer is read exactly, as an operand of 64 bits with a sign, or refused. -/
def ReadsExactly (result : Except FilterError Filter) (place : Place) (operator : String)
    (path : FieldPath) (n : Int) : Prop :=
  if Int64.minValue.toInt ≤ n ∧ n ≤ Int64.maxValue.toInt then
    ∃ k : Int64, k.toInt = n ∧ result = .ok (place.fill (.int k))
  else
    result =
      .error ⟨.invalidShape operator "an integer within the signed 64-bit range", path⟩

namespace IsLiteral

variable {text : String} {p : Json.Place (List Char) Json.Source} {literal : Json.NumberText}

/-- The place of the literal in the value of the text. -/
theorem exists_fill (h : IsLiteral text p literal) :
    ∃ q : Json.Place String Json, (∀ frame ∈ q, ∀ s ∈ frame.names, s ≠ "$") ∧
      ∀ n : Json.NumberText, Json.ofSource? Json.maxDepth (Json.Source.fill p (.number n)) =
        n.toJson?.map (Json.fill q) := by
  obtain ⟨filter, hfilter⟩ := h.rest
  obtain ⟨value, hvalue⟩ := exists_ofSource? hfilter
  exact Json.ofSource?_fill h.kept
    (fun frame hframe raw hraw s hs hname => h.plain frame hframe raw hraw (hname ▸ hs)) hvalue

/-- A literal in a text that is JSON stands for a number. -/
theorem exists_toJson? (h : IsLiteral text p literal) (hjson : (Json.read? text).isSome = true) :
    ∃ value, literal.toJson? = some value := by
  obtain ⟨q, -, hfill⟩ := h.exists_fill
  rw [Json.read?, h.source] at hjson
  have hsome : (literal.toJson?.map (Json.fill q)).isSome = true := hfill literal ▸ hjson
  rw [Option.isSome_map] at hsome
  exact Option.isSome_iff_exists.1 hsome

/-- A literal is read as the operand in a place of the filter, whatever its value is. -/
theorem exists_place (h : IsLiteral text p literal) :
    ∃ (place : Place) (operator : String) (path : FieldPath),
      readSource (Json.Source.fill p (.number (.ofInt 0))) = .ok (place.fill (.int 0)) ∧
      ∀ value, literal.toJson? = some value → value.IsNumber →
        readText text = (located path (operand operator value)).map place.fill := by
  obtain ⟨filter, hfilter⟩ := h.rest
  obtain ⟨q, hplain, hfill⟩ := h.exists_fill
  have hread : ∀ n value, n.toJson? = some value →
      readSource (Json.Source.fill p (.number n)) =
        ofJson defaultMaxDepth .root 1 (Json.fill q value) := by
    intro n value hvalue
    exact readSource_eq (by rw [hfill, hvalue, Option.map_some])
  -- the number in whose stead the text is a filter tells which place of the filter it is
  have hzero := hread (.ofInt 0) (.int 0)
    (Json.NumberText.toJson?_ofInt (by decide) (by decide))
  rw [hzero] at hfilter
  obtain ⟨place, operator, path, hplace⟩ :=
    readsOperand_fill q hplain (.int 0) trivial hfilter
  refine ⟨place, operator, path, hzero.trans (hplace (.int 0) trivial), ?_⟩
  intro value hvalue hnumber
  rw [readText_eq h.source, hread literal value hvalue]
  exact hplace value hnumber

end IsLiteral

/-- An integer of JSON is read exactly or refused. -/
theorem readsExactly_int (place : Place) (operator : String) (path : FieldPath) (n : Int) :
    ReadsExactly ((located path (operand operator (.int n))).map place.fill) place operator path
      n := by
  rw [ReadsExactly, operand]
  split
  · next hrange =>
    have hmin : Int64.minValue.toInt = -2 ^ 63 := by decide
    have hmax : Int64.maxValue.toInt = 2 ^ 63 - 1 := by decide
    exact ⟨.ofInt n, Int64.toInt_ofInt_of_le (by omega) (by omega), rfl⟩
  · rfl

/-- A floating-point number is no integer that is read exactly. -/
theorem not_readsExactly_float (place : Place) (operator : String) (path : FieldPath) (n : Int)
    (x : Binary64) : ¬ReadsExactly (.ok (place.fill (.float x))) place operator path n := by
  rw [ReadsExactly]
  split
  · rintro ⟨k, -, hk⟩
    cases place.fill_injective (Except.ok.inj hk)
  · intro herror
    cases herror

/-- An integer is read exactly or refused unless JSON widens it. -/
theorem readText_integer {text : String} {p : Json.Place (List Char) Json.Source}
    {literal : Json.NumberText} (h : IsLiteral text p literal)
    (hinteger : literal.isInteger = true) (hjson : (Json.read? text).isSome = true) :
    ∃ (place : Place) (operator : String) (path : FieldPath),
      readSource (Json.Source.fill p (.number (.ofInt 0))) = .ok (place.fill (.int 0)) ∧
      (ReadsExactly (readText text) place operator path literal.integer ↔ ¬literal.IsWidened) ∧
      (literal.IsWidened → ∃ x, literal.toFloat? = some (.float x) ∧
        readText text = .ok (place.fill (.float x))) := by
  obtain ⟨value, hvalue⟩ := h.exists_toJson? hjson
  obtain ⟨place, operator, path, hzero, hread⟩ := h.exists_place
  have hwidened : literal.IsWidened → ∃ x, literal.toFloat? = some (.float x) ∧
      readText text = .ok (place.fill (.float x)) := by
    intro hwide
    rw [Json.NumberText.toJson?_of_isWidened hinteger hwide] at hvalue hread
    obtain ⟨x, rfl⟩ := Json.NumberText.exists_float hvalue
    exact ⟨x, hvalue, hread _ hvalue trivial⟩
  refine ⟨place, operator, path, hzero, ⟨fun hexact hwide => ?_, fun hnarrow => ?_⟩, hwidened⟩
  · obtain ⟨x, -, hx⟩ := hwidened hwide
    exact not_readsExactly_float place operator path literal.integer x (hx ▸ hexact)
  · rw [hread _ (Json.NumberText.toJson?_of_not_isWidened hinteger hnarrow) trivial]
    exact readsExactly_int place operator path literal.integer

namespace Sample

/-- The text `{"id": {"$in": [1, 9223372036854775808]}}`. -/
def rangeText : String := "\x7b\"id\": \x7b\"$in\": [1, 9223372036854775808]\x7d\x7d"

/-- The last item of the list. -/
def rangePlace : Json.Place (List Char) Json.Source :=
  [.member [] ['i', 'd'] [], .member [] ['$', 'i', 'n'] [], .item [.number (.ofInt 1)] []]

/-- The literal `9223372036854775808`. -/
def rangeLiteral : Json.NumberText :=
  ⟨false, "9223372036854775808".toList, none, none⟩

/-- The literal is the last item of the list. -/
theorem isLiteral_range : IsLiteral rangeText rangePlace rangeLiteral where
  source := by
    have hchars : rangeText.toList =
        ['{', '"', 'i', 'd', '"', ':', ' ', '{', '"', '$', 'i', 'n', '"', ':', ' ', '[', '1',
         ',', ' ', '9', '2', '2', '3', '3', '7', '2', '0', '3', '6', '8', '5', '4', '7', '7',
         '5', '8', '0', '8', ']', '}', '}'] := rfl
    rw [hchars]
    rfl
  kept := by simp [rangePlace, Json.Frame.IsKept]
  plain := by
    rintro frame hframe raw hraw
    simp only [rangePlace, List.mem_cons, List.not_mem_nil, or_false] at hframe
    rcases hframe with rfl | rfl | rfl <;>
      simp only [Json.Frame.names, List.map_nil, List.nil_append, List.mem_singleton,
        List.not_mem_nil] at hraw
    · rw [hraw]
      decide
    · rw [hraw]
      decide
  rest := ⟨.field "id" (.oneOf [.int 1, .int 0]), rfl⟩

/-- The text `{"id": 18446744073709551616}`. -/
def wideText : String := "\x7b\"id\": 18446744073709551616\x7d"

/-- The value of the member `id`. -/
def widePlace : Json.Place (List Char) Json.Source := [.member [] ['i', 'd'] []]

/-- The literal `18446744073709551616`. -/
def wideLiteral : Json.NumberText :=
  ⟨false, "18446744073709551616".toList, none, none⟩

/-- The literal is the operand of the comparison. -/
theorem isLiteral_wide : IsLiteral wideText widePlace wideLiteral where
  source := by
    have hchars : wideText.toList =
        ['{', '"', 'i', 'd', '"', ':', ' ', '1', '8', '4', '4', '6', '7', '4', '4', '0', '7',
         '3', '7', '0', '9', '5', '5', '1', '6', '1', '6', '}'] := rfl
    rw [hchars]
    rfl
  kept := by simp [widePlace, Json.Frame.IsKept]
  plain := by
    rintro frame hframe raw hraw
    rw [List.mem_singleton.1 hframe] at hraw
    rw [List.mem_singleton.1 hraw]
    decide
  rest := ⟨.field "id" (.compare .eq (.int 0)), rfl⟩

/-- The literal stands for a float. -/
theorem toJson?_wide : wideLiteral.toJson? =
    some (.float (Binary64.ofInt 18446744073709551616)) := by
  have hwide : wideLiteral.IsWidened := .inr (.inl (by decide))
  have hfinite : (Binary64.ofInt 18446744073709551616).isFinite = true := by decide +kernel
  have hnearest : Binary64.ofDecimal false 18446744073709551616 0 =
      Binary64.ofInt 18446744073709551616 := by decide +kernel
  have hsignificant : wideLiteral.significant = 18446744073709551616 := by decide +kernel
  rw [Json.NumberText.toJson?_of_isWidened rfl hwide, Json.NumberText.toFloat?, hsignificant]
  show (if (Binary64.ofDecimal false 18446744073709551616 0).isFinite = true then
    some (Json.float (Binary64.ofDecimal false 18446744073709551616 0)) else none) = _
  rw [hnearest, if_pos hfinite]

end Sample

open Sample in
/-- An integer that fits 64 bits without a sign is refused. -/
theorem readText_integer_range :
    IsLiteral rangeText rangePlace rangeLiteral ∧
      ∃ (place : Place) (operator : String) (path : FieldPath),
        ReadsExactly (readText rangeText) place operator path 9223372036854775808 := by
  have hjson : (Json.read? rangeText).isSome = true := by decide +kernel
  have hnarrow : ¬rangeLiteral.IsWidened := by
    rintro (h | h | ⟨-, h⟩) <;> revert h <;> decide
  obtain ⟨place, operator, path, -, hexact, -⟩ := readText_integer isLiteral_range rfl hjson
  exact ⟨isLiteral_range, place, operator, path, hexact.2 hnarrow⟩

open Sample in
/-- An integer that does not fit 64 bits becomes a float. -/
theorem readText_widens :
    IsLiteral wideText widePlace wideLiteral ∧
      readText wideText =
        .ok (.field "id" (.compare .eq (.float (Binary64.ofInt 18446744073709551616)))) ∧
      ∀ (place : Place) (operator : String) (path : FieldPath),
        ¬ReadsExactly (readText wideText) place operator path 18446744073709551616 := by
  have hvalue : Json.ofSource? Json.maxDepth
      (Json.Source.fill widePlace (.number wideLiteral)) =
      some (.object [("id", .float (Binary64.ofInt 18446744073709551616))]) := by
    have hname : Json.stringOf? ['i', 'd'] = some "id" := rfl
    simp only [widePlace, Json.Source.fill, List.nil_append, Json.maxDepth, Json.ofSource?,
      Json.ofMembers?, hname, toJson?_wide]
    rfl
  have hread : readText wideText =
      .ok (.field "id" (.compare .eq (.float (Binary64.ofInt 18446744073709551616)))) := by
    rw [readText_eq isLiteral_wide.source, readSource_eq hvalue]
    rfl
  refine ⟨isLiteral_wide, hread, fun place operator path => ?_⟩
  rw [ReadsExactly, if_neg (by decide), hread]
  intro herror
  cases herror

end Filter

end FilterSql
