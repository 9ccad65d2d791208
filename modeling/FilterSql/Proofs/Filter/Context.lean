import FilterSql.Proofs.Filter.Image
import FilterSql.Proofs.Json.Place

/-!
# Parts of a filter as they are read

A number or an object that stands somewhere in the JSON of a filter is read there as a filter or as
an operand, whatever else stands around it, and the rest of the filter does not depend on it. `Hole`
says how it is read and `Frame` what is read beside it, step by step. `readsPart_fill` is the
statement to read first: at each place of a value that is a filter there is such a hole. Members of
an object that has a member `$` are looked up by name, so the place must not lead through one.
-/

namespace FilterSql

namespace Json

/-- A number as JSON has it. -/
def IsNumber : Json → Prop
  | .int _ => True
  | .float _ => True
  | _ => False

/-- An object. -/
def IsObject : Json → Prop
  | .object _ => True
  | _ => False

end Json

namespace Filter

/-! ## Contexts -/

/-- A step of the way to a part of a filter: the connective or field that it stands in, and what
stands beside it. -/
inductive Frame where
  | all (before after : List Filter)
  | any (before after : List Filter)
  | not
  | field (name : String)
  | elemMatch

/-- The filter that a step leads into, with a part behind it. -/
def Frame.fill : Frame → Filter → Filter
  | .all before after, part => .all (before ++ part :: after)
  | .any before after, part => .any (before ++ part :: after)
  | .not, part => .not part
  | .field name, part => .field name part
  | .elemMatch, part => .elemMatch part

/-- The filter with a part behind some steps, from the outside in. -/
def fill (context : List Frame) (part : Filter) : Filter :=
  context.foldr Frame.fill part

/-- Filters that are the same behind a step are the same. -/
theorem Frame.fill_injective (frame : Frame) : Function.Injective frame.fill := by
  intro a b h
  cases frame <;> simpa [Frame.fill] using h

/-- Filters that are the same behind some steps are the same. -/
theorem fill_injective (context : List Frame) : Function.Injective (fill context) := by
  intro a b h
  induction context with
  | nil => exact h
  | cons frame rest ih => exact ih (frame.fill_injective h)

/-- Steps that are followed by others lead to where the others lead. -/
theorem fill_append (outer inner : List Frame) (part : Filter) :
    fill (outer ++ inner) part = fill outer (fill inner part) :=
  List.foldr_append

/-- The way into a conjunction; a single filter stands for itself. -/
def conjunctionFrames : List Filter → List Filter → List Frame
  | [], [] => []
  | before, after => [.all before after]

/-- A conjunction is one with each of its filters as the part. -/
theorem fill_conjunctionFrames (before : List Filter) (part : Filter) (after : List Filter) :
    conjunction (before ++ part :: after) = fill (conjunctionFrames before after) part := by
  cases before with
  | nil => cases after <;> rfl
  | cons first rest => cases rest <;> rfl

/-! ## Holes -/

/-- How a value is read at its place: as a filter a number of levels deep, or as an operand. -/
inductive Hole where
  | filter (path : FieldPath) (depth : Nat)
  | compare (op : CompareOp) (operator : String) (path : FieldPath)
  | oneOf (operator : String) (path : FieldPath) (before after : List Operand)

/-- What a value is read as. -/
def Hole.read (max : Nat) : Hole → Json → Except FilterError Filter
  | .filter path depth, value => ofJson max path depth value
  | .compare op operator path, value => (located path (operand operator value)).map (.compare op)
  | .oneOf operator path before after, value =>
    (located path (operand operator value)).map fun operand => .oneOf (before ++ operand :: after)

/-- The values of a kind are read as parts of one filter, if any of them is read. -/
def ReadsPart (max : Nat) (kind : Json → Prop) (read : Json → Except FilterError Filter) : Prop :=
  ∀ first filter, kind first → read first = .ok filter →
    ∃ (context : List Frame) (hole : Hole),
      ∀ value, kind value → read value = (hole.read max value).map (fill context)

/-- The values of a kind are read as parts of one of some filters, if any of them is read. -/
def ReadsParts (max : Nat) (kind : Json → Prop) (read : Json → Except FilterError (List Filter)) :
    Prop :=
  ∀ first filters, kind first → read first = .ok filters →
    ∃ (before : List Filter) (context : List Frame) (after : List Filter) (hole : Hole),
      ∀ value, kind value → read value =
        (hole.read max value).map fun part => before ++ fill context part :: after

variable {max depth : Nat} {path : FieldPath} {name : String} {kind : Json → Prop}

/-- What a hole reads is a part. -/
theorem readsPart_hole (hole : Hole) : ReadsPart max kind (hole.read max) := by
  refine fun _ _ _ _ => ⟨[], hole, fun value _ => ?_⟩
  cases hole.read max value <;> rfl

/-- Where nothing is read there is no part to find. -/
theorem readsPart_of_error {read : Json → Except FilterError Filter}
    (h : ∀ value, kind value → ∃ fault, read value = .error fault) : ReadsPart max kind read := by
  intro value filter hvalue hread
  obtain ⟨fault, herror⟩ := h value hvalue
  cases herror.symm.trans hread

/-- Values that are read alike are parts alike. -/
theorem ReadsPart.congr {read read' : Json → Except FilterError Filter}
    (h : ReadsPart max kind read) (heq : ∀ value, kind value → read' value = read value) :
    ReadsPart max kind read' := by
  intro first filter hfirst hread
  obtain ⟨context, hole, hall⟩ := h first filter hfirst ((heq first hfirst).symm.trans hread)
  exact ⟨context, hole, fun value hvalue => (heq value hvalue).trans (hall value hvalue)⟩

/-- A part stays a part behind further steps. -/
theorem ReadsPart.map {read : Json → Except FilterError Filter} (h : ReadsPart max kind read)
    (frames : List Frame) : ReadsPart max kind fun value => (read value).map (fill frames) := by
  intro first filter hfirst hread
  obtain ⟨inner, hinner, -⟩ := map_eq_ok.1 hread
  obtain ⟨context, hole, hall⟩ := h first inner hfirst hinner
  refine ⟨frames ++ context, hole, fun value hvalue => ?_⟩
  show (read value).map (fill frames) = _
  rw [hall value hvalue]
  cases hole.read max value with
  | error e => rfl
  | ok part => exact congrArg Except.ok (fill_append frames context part).symm

/-- A part of one of some filters is a part of the filter that is made of them. -/
theorem ReadsParts.map {read : Json → Except FilterError (List Filter)}
    (h : ReadsParts max kind read) {f : List Filter → Filter}
    (frames : List Filter → List Filter → List Frame)
    (hf : ∀ before part after, f (before ++ part :: after) = fill (frames before after) part) :
    ReadsPart max kind fun value => (read value).map f := by
  intro first filter hfirst hread
  obtain ⟨inner, hinner, -⟩ := map_eq_ok.1 hread
  obtain ⟨before, context, after, hole, hall⟩ := h first inner hfirst hinner
  refine ⟨frames before after ++ context, hole, fun value hvalue => ?_⟩
  show (read value).map f = _
  rw [hall value hvalue]
  cases hole.read max value with
  | error e => rfl
  | ok part => exact congrArg Except.ok ((hf _ _ _).trans (fill_append _ context part).symm)

/-- One of some filters is read at a place, and the others beside it. -/
theorem ReadsPart.among {read : Json → Except FilterError Filter} (h : ReadsPart max kind read)
    (first last : Except FilterError (List Filter)) :
    ReadsParts max kind fun value => do
      let before ← first
      let filter ← read value
      return before ++ filter :: (← last) := by
  intro value filters hvalue hread
  simp only [bind_eq_ok] at hread
  obtain ⟨before, rfl, filter, hfilter, after, rfl, -⟩ := hread
  obtain ⟨context, hole, hall⟩ := h value filter hvalue hfilter
  refine ⟨before, context, after, hole, fun value hvalue => ?_⟩
  show (do return before ++ (← read value) :: after) = _
  rw [hall value hvalue]
  cases hole.read max value <;> rfl

/-! ## Lists -/

/-- The items before, an item and the items behind it are read one after the other. -/
theorem ofItems_append (before : List Json) (item : Json) (after : List Json) :
    ofItems max path depth (before ++ item :: after) = do
      let filters ← ofItems max path depth before
      let filter ← ofJson max path depth item
      return filters ++ filter :: (← ofItems max path depth after) := by
  induction before with
  | nil => rfl
  | cons first rest ih => simp [ofItems, ih]

/-- The members of two lists are read one after the other. -/
theorem ofMembers_append (before after : List (String × Json)) :
    ofMembers max path depth (before ++ after) = do
      let filters ← ofMembers max path depth before
      return filters ++ (← ofMembers max path depth after) := by
  induction before with
  | nil =>
      rw [List.nil_append, ofMembers]
      exact (bind_pure _).symm
  | cons member rest ih =>
      obtain ⟨first, value⟩ := member
      simp [ofMembers_cons, ih]

/-- The members before, a member and the members behind it are read one after the other. -/
theorem ofMembers_insert (before : List (String × Json)) (value : Json)
    (after : List (String × Json)) :
    ofMembers max path depth (before ++ (name, value) :: after) = do
      let filters ← ofMembers max path depth before
      let filter ← ofMember max path depth name value
      return filters ++ filter :: (← ofMembers max path depth after) := by
  rw [ofMembers_append, ofMembers_cons]
  simp

/-- The operands before, an operand and the operands behind it are read one after the other. -/
theorem operands_append (operator : String) (before : List Json) (item : Json)
    (after : List Json) :
    operands operator (before ++ item :: after) = do
      let values ← operands operator before
      let value ← operand operator item
      return values ++ value :: (← operands operator after) := by
  induction before with
  | nil => rfl
  | cons first rest ih => simp [operands, ih]

/-- An object without a member `$` is no operand. -/
theorem isMagic_eq_false {before : List (String × Json)} {value : Json}
    {after : List (String × Json)}
    (h : ∀ s ∈ (Json.Frame.member before name after).names, s ≠ "$") :
    isMagic (before ++ (name, value) :: after) = false := by
  simp only [Json.Frame.names, List.mem_append, List.mem_map, List.mem_cons] at h
  rw [isMagic, List.any_eq_false]
  intro m hm
  rw [decide_eq_true_iff]
  rcases List.mem_append.1 hm with hm | hm
  · exact h m.1 (.inl ⟨m, hm, rfl⟩)
  · rcases List.mem_cons.1 hm with rfl | hm
    · exact h name (.inr (.inl rfl))
    · exact h m.1 (.inr (.inr ⟨m, hm, rfl⟩))

/-- What holds a value, and no member `$` beside it, is no operand. -/
theorem operand_fill_cons {operator : String} {frame : Json.Frame String Json}
    {rest : Json.Place String Json} {part : Json} (h : ∀ s ∈ frame.names, s ≠ "$") :
    operand operator (Json.fill (frame :: rest) part) =
      .error (.invalidShape operator "a scalar value") := by
  cases frame with
  | item before after => rfl
  | member before name after =>
      rw [Json.fill, operand, isMagic_eq_false h, if_neg Bool.false_ne_true]

/-- A part of an item is a part of the filters of an array. -/
theorem readsParts_items {part : Json → Json}
    (h : ReadsPart max kind fun value => ofJson max path depth (part value))
    (before after : List Json) :
    ReadsParts max kind fun value => ofItems max path depth (before ++ part value :: after) := by
  have hsplit : (fun value => ofItems max path depth (before ++ part value :: after)) = _ :=
    funext fun value => ofItems_append before (part value) after
  rw [hsplit]
  exact h.among _ _

/-- A part of a member is a part of the filters of an object. -/
theorem readsParts_members {part : Json → Json}
    (h : ReadsPart max kind fun value => ofMember max path depth name (part value))
    (before after : List (String × Json)) :
    ReadsParts max kind fun value =>
      ofMembers max path depth (before ++ (name, part value) :: after) := by
  have hsplit :
      (fun value => ofMembers max path depth (before ++ (name, part value) :: after)) = _ :=
    funext fun value => ofMembers_insert before (part value) after
  rw [hsplit]
  exact h.among _ _

/-- The items of a list of operands. -/
theorem readsPart_operands (before after : List Json) :
    ReadsPart max kind fun value =>
      (located path (operands name (before ++ value :: after))).map .oneOf := by
  intro first filter hfirst hread
  obtain ⟨values, hvalues, -⟩ := map_eq_ok.1 hread
  rw [located_eq_ok, operands_append] at hvalues
  simp only [bind_eq_ok] at hvalues
  obtain ⟨start, hstart, _, -, last, hlast, -⟩ := hvalues
  refine ⟨[], .oneOf name path start last, fun value _ => ?_⟩
  show (located path (operands name (before ++ value :: after))).map Filter.oneOf = _
  rw [operands_append, hstart, hlast, Hole.read]
  cases operand name value <;> rfl

/-- A list that holds something else than operands is not read. -/
theorem readsPart_no_operand {frame : Json.Frame String Json} {rest : Json.Place String Json}
    (h : ∀ s ∈ frame.names, s ≠ "$") (before after : List Json) :
    ReadsPart max kind fun value =>
      (located path (operands name (before ++ Json.fill (frame :: rest) value :: after))).map
        .oneOf := by
  intro first filter _ hread
  obtain ⟨values, hvalues, -⟩ := map_eq_ok.1 hread
  rw [located_eq_ok, operands_append] at hvalues
  simp only [bind_eq_ok, operand_fill_cons h] at hvalues
  obtain ⟨_, _, _, hoperand, -⟩ := hvalues
  cases hoperand

/-! ## Places -/

/-- The kinds of values whose readings are parts of filters. -/
def IsPartKind (kind : Json → Prop) : Prop :=
  kind = Json.IsNumber ∨ kind = Json.IsObject

section Member

variable {p : Json.Place String Json}

/-- A value that is a filter itself if it is an object, and nothing if it is a number. -/
theorem readsPart_object (hkind : IsPartKind kind) (frames : List Frame)
    {read : Json → Except FilterError Filter}
    (hobject : ∀ members, read (.object members) =
      (ofJson max path depth (.object members)).map (fill frames))
    (hnumber : ∀ value, value.IsNumber → ∃ fault, read value = .error fault) :
    ReadsPart max kind read := by
  rcases hkind with rfl | rfl
  · exact readsPart_of_error hnumber
  · refine ((readsPart_hole (.filter path depth)).map frames).congr fun value hvalue => ?_
    cases value with
    | object members => exact hobject members
    | _ => cases hvalue

/-- A list of filters, or one filter in its stead. -/
theorem readsPart_list (hkind : IsPartKind kind) {wrap : List Filter → Filter}
    (frame : List Filter → List Filter → Frame)
    (hwrap : ∀ before part after, wrap (before ++ part :: after) = (frame before after).fill part)
    (hread : ∀ path depth,
      ReadsPart max kind fun value => ofJson max path depth (Json.fill p value))
    (hitem : ∀ before after rest, p = .item before after :: rest →
      ∀ path depth, ReadsPart max kind fun value => ofJson max path depth (Json.fill rest value))
    (fault : FilterError) :
    ReadsPart max kind fun value =>
      match Json.fill p value with
      | .array items => (ofItems max path (depth + 1) items).map wrap
      | .object members => (ofJson max path (depth + 1) (.object members)).map (wrap [·])
      | _ => .error fault := by
  have hone : (wrap [·]) = fill [frame [] []] := funext fun part => hwrap [] part []
  cases p with
  | nil =>
      refine readsPart_object hkind [frame [] []] (fun members => by rw [← hone]; rfl) ?_
      exact fun value hvalue => ⟨fault, by cases value <;> first | rfl | exact hvalue.elim⟩
  | cons entered rest =>
      cases entered with
      | item before after =>
          exact (readsParts_items (hitem before after rest rfl path (depth + 1)) before after).map
            (fun before after => [frame before after]) hwrap
      | member before name after =>
          show ReadsPart max kind fun value =>
            (ofJson max path (depth + 1) (Json.fill (.member before name after :: rest) value)).map
              (wrap [·])
          rw [hone]
          exact (hread path (depth + 1)).map [frame [] []]

/-- A value within a member of an object is a part as soon as those further inside are. -/
theorem readsPart_member (hkind : IsPartKind kind)
    (hnames : ∀ frame ∈ p, ∀ s ∈ frame.names, s ≠ "$")
    (hread : ∀ path depth,
      ReadsPart max kind fun value => ofJson max path depth (Json.fill p value))
    (hitem : ∀ before after rest, p = .item before after :: rest →
      ∀ path depth, ReadsPart max kind fun value => ofJson max path depth (Json.fill rest value)) :
    ReadsPart max kind fun value => ofMember max path depth name (Json.fill p value) := by
  -- neither a number nor an object is a list or a text
  have hneither (value : Json) (hvalue : kind value) : value.IsNumber ∨ value.IsObject := by
    rcases hkind with rfl | rfl
    · exact .inl hvalue
    · exact .inr hvalue
  cases hmember : MemberKind.ofName name with
  | field =>
      simp only [ofMember, hmember]
      exact (hread (path.child name) (depth + 1)).map [.field name]
  | compare op =>
      simp only [ofMember, hmember]
      cases p with
      | nil => exact readsPart_hole (.compare op name path)
      | cons frame rest =>
          simp only [operand_fill_cons (List.forall_mem_cons.1 hnames).1]
          exact readsPart_of_error fun _ _ => ⟨_, rfl⟩
  | and =>
      simp only [ofMember, hmember]
      exact readsPart_list hkind .all (fun _ _ _ => rfl) hread hitem _
  | or =>
      simp only [ofMember, hmember]
      exact readsPart_list hkind .any (fun _ _ _ => rfl) hread hitem _
  | not =>
      simp only [ofMember, hmember]
      exact (hread path (depth + 1)).map [.not]
  | oneOf =>
      simp only [ofMember, hmember]
      cases p with
      | nil =>
          refine readsPart_of_error fun value hvalue => ?_
          cases value <;> first | exact ⟨_, rfl⟩ | cases hneither _ hvalue <;> contradiction
      | cons frame rest =>
          cases frame with
          | member before name after => exact readsPart_of_error fun _ _ => ⟨_, rfl⟩
          | item before after =>
              cases rest with
              | nil => exact readsPart_operands before after
              | cons frame rest =>
                  have hframe := (List.forall_mem_cons.1 (List.forall_mem_cons.1 hnames).2).1
                  exact readsPart_no_operand hframe before after
  | contains =>
      simp only [ofMember, hmember]
      cases p with
      | nil =>
          refine readsPart_of_error fun value hvalue => ?_
          cases value <;> first | exact ⟨_, rfl⟩ | cases hneither _ hvalue <;> contradiction
      | cons frame rest => cases frame <;> exact readsPart_of_error fun _ _ => ⟨_, rfl⟩
  | elemMatch =>
      simp only [ofMember, hmember]
      cases p with
      | nil =>
          refine readsPart_object hkind [.elemMatch] (fun _ => rfl) fun value hvalue => ?_
          cases value <;> first | exact ⟨_, rfl⟩ | exact hvalue.elim
      | cons frame rest =>
          cases frame <;> exact (hread path (depth + 1)).map [.elemMatch]
  | unknown =>
      simp only [ofMember, hmember]
      exact readsPart_of_error fun _ _ => ⟨_, rfl⟩

end Member

/-- A number or an object at a place of a value is read as a part of the filter. -/
theorem readsPart_fill (hkind : IsPartKind kind) (p : Json.Place String Json)
    (hnames : ∀ frame ∈ p, ∀ s ∈ frame.names, s ≠ "$") (path : FieldPath) (depth : Nat) :
    ReadsPart max kind fun value => ofJson max path depth (Json.fill p value) := by
  by_cases hdepth : max < depth
  · intro first filter _ hread
    exact absurd (depth_le_of_ofJson hread) (Nat.not_le.2 hdepth)
  match p with
  | [] => exact readsPart_hole (.filter path depth)
  | .item before after :: rest =>
      have hrest := readsPart_fill hkind rest (List.forall_mem_cons.1 hnames).2 path (depth + 1)
      simp only [Json.fill, ofJson, if_neg hdepth]
      exact (readsParts_items hrest before after).map (fun before after => [.all before after])
        fun _ _ _ => rfl
  | .member before name after :: rest =>
      obtain ⟨hframe, hinside⟩ := List.forall_mem_cons.1 hnames
      simp only [Json.fill, ofJson, if_neg hdepth, isMagic_eq_false hframe,
        if_neg Bool.false_ne_true]
      -- the items of a list of filters are read in place of the list, two steps further in
      have hmember : ReadsPart max kind fun value =>
          ofMember max path depth name (Json.fill rest value) := by
        refine readsPart_member hkind hinside (readsPart_fill hkind rest hinside) ?_
        rintro first last others rfl
        exact readsPart_fill hkind others (List.forall_mem_cons.1 hinside).2
      exact (readsParts_members hmember before after).map conjunctionFrames
        fill_conjunctionFrames
termination_by p.length

end Filter

end FilterSql
