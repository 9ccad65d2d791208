import FilterSql.Proofs.Json.RoundTrip

/-!
# Places in JSON

A place in a tree is the list of what stands beside the way to it. A number that is written at a
place of a text is read at a place of the value, and what stands beside that place does not depend
on the number (`Json.ofSource?_fill`). The place in the value can be another one than in the text:
a member that repeats a name moves to where the name stood first. A member that a later one replaces
has no place in the value.
-/

namespace FilterSql.Json

/-- What stands beside one step of the way to a place: other items of an array, or other members of
an object. -/
inductive Frame (Name Tree : Type) where
  | item (before after : List Tree)
  | member (before : List (Name × Tree)) (name : Name) (after : List (Name × Tree))

/-- A place in a tree, from the outside in. -/
abbrev Place (Name Tree : Type) := List (Frame Name Tree)

namespace Frame

variable {Name Tree : Type}

/-- The names of the members of the object on the way. -/
def names : Frame Name Tree → List Name
  | .item _ _ => []
  | .member before name after => before.map (·.1) ++ name :: after.map (·.1)

/-- No later member replaces the one on the way. -/
def IsKept : Frame (List Char) Source → Prop
  | .item _ _ => True
  | .member _ name after => ∀ other ∈ after, stringOf? other.1 ≠ stringOf? name

end Frame

/-- The text with a part at a place. -/
def Source.fill : Place (List Char) Source → Source → Source
  | [], part => part
  | .item before after :: rest, part => .array (before ++ fill rest part :: after)
  | .member before name after :: rest, part => .object (before ++ (name, fill rest part) :: after)

/-- The value with a part at a place. -/
def fill : Place String Json → Json → Json
  | [], part => part
  | .item before after :: rest, part => .array (before ++ fill rest part :: after)
  | .member before name after :: rest, part => .object (before ++ (name, fill rest part) :: after)

variable {depth : Nat}

/-! ## Lists of items and members -/

/-- The items before, an item and the items behind it are read one after the other. -/
theorem ofItems?_append (before : List Source) (item : Source) (after : List Source) :
    ofItems? depth (before ++ item :: after) = do
      let values ← ofItems? depth before
      let value ← ofSource? depth item
      return values ++ value :: (← ofItems? depth after) := by
  induction before with
  | nil => simp [ofItems?]
  | cons first rest ih => simp [ofItems?, ih, Option.bind_assoc]

/-- The members of two lists are read one after the other. -/
theorem ofMembers?_append (read : List (String × Json)) (before after : List (List Char × Source)) :
    ofMembers? depth read (before ++ after) =
      ofMembers? depth read before >>= fun read => ofMembers? depth read after := by
  induction before generalizing read with
  | nil => simp [ofMembers?]
  | cons member rest ih =>
      obtain ⟨name, value⟩ := member
      simp only [List.cons_append, ofMembers?, ih, Option.bind_eq_bind, Option.bind_assoc]

section Members

variable {P : String → Prop} {name : String}

/-- Where a member is put does not depend on its value. -/
theorem exists_put (name : String) {read : List (String × Json)} (hread : ∀ m ∈ read, P m.1) :
    ∃ before after, (∀ m ∈ before ++ after, P m.1) ∧
      ∀ value, put name value read = before ++ (name, value) :: after := by
  induction read with
  | nil => exact ⟨[], [], List.forall_mem_nil _, fun _ => rfl⟩
  | cons member rest ih =>
      obtain ⟨hmember, hrest⟩ := List.forall_mem_cons.1 hread
      by_cases hname : member.1 = name
      · exact ⟨[], rest, hrest, fun value => by rw [put, if_pos hname, List.nil_append]⟩
      · obtain ⟨before, after, hothers, hput⟩ := ih hrest
        refine ⟨member :: before, after, List.forall_mem_cons.2 ⟨hmember, hothers⟩, fun value => ?_⟩
        rw [put, if_neg hname, hput, List.cons_append]

/-- A member of another name leaves a member where it is. -/
theorem exists_put_other {other : String} (hother : other ≠ name) (hP : P other) (added : Json)
    {before after : List (String × Json)} (hread : ∀ m ∈ before ++ after, P m.1) :
    ∃ before' after', (∀ m ∈ before' ++ after', P m.1) ∧
      ∀ value, put other added (before ++ (name, value) :: after) =
        before' ++ (name, value) :: after' := by
  induction before with
  | nil =>
      rw [List.nil_append] at hread
      obtain ⟨first, last, hothers, hput⟩ := exists_put other hread
      refine ⟨[], first ++ (other, added) :: last, ?_, fun value => ?_⟩
      · rw [List.nil_append, List.forall_mem_append, List.forall_mem_cons]
        exact ⟨fun m hm => hothers m (List.mem_append_left _ hm), hP,
          fun m hm => hothers m (List.mem_append_right _ hm)⟩
      · rw [List.nil_append, put, if_neg (Ne.symm hother), hput, List.nil_append]
  | cons member rest ih =>
      obtain ⟨hmember, hrest⟩ := List.forall_mem_cons.1 hread
      by_cases hname : member.1 = other
      · refine ⟨(other, added) :: rest, after, List.forall_mem_cons.2 ⟨hP, hrest⟩, fun value => ?_⟩
        rw [List.cons_append, put, if_pos hname, List.cons_append]
      · obtain ⟨before', after', hothers, hput⟩ := ih hrest
        refine ⟨member :: before', after', List.forall_mem_cons.2 ⟨hmember, hothers⟩,
          fun value => ?_⟩
        rw [List.cons_append, put, if_neg hname, hput, List.cons_append]

/-- Members of other names leave a member where it is. -/
theorem exists_ofMembers? {later : List (List Char × Source)}
    (hlater : ∀ member ∈ later, ∀ s, stringOf? member.1 = some s → s ≠ name ∧ P s)
    {before after : List (String × Json)} (hread : ∀ m ∈ before ++ after, P m.1) {value₀ : Json}
    {members₀ : List (String × Json)}
    (h : ofMembers? depth (before ++ (name, value₀) :: after) later = some members₀) :
    ∃ before' after', (∀ m ∈ before' ++ after', P m.1) ∧
      ∀ value, ofMembers? depth (before ++ (name, value) :: after) later =
        some (before' ++ (name, value) :: after') := by
  induction later generalizing before after with
  | nil => exact ⟨before, after, hread, fun _ => rfl⟩
  | cons member rest ih =>
      obtain ⟨raw, source⟩ := member
      obtain ⟨hmember, hrest⟩ := List.forall_mem_cons.1 hlater
      simp only [ofMembers?, Option.bind_eq_bind, Option.bind_eq_some_iff] at h
      obtain ⟨other, hraw, added, hadded, h⟩ := h
      obtain ⟨hother, hP⟩ := hmember other hraw
      obtain ⟨before', after', hread', hput⟩ := exists_put_other hother hP added hread
      rw [hput] at h
      obtain ⟨first, last, hothers, hall⟩ := ih hrest hread' h
      refine ⟨first, last, hothers, fun value => ?_⟩
      rw [ofMembers?, hraw, hadded, ← hall value, ← hput value]
      rfl

/-- The names of an object are written in the text. -/
theorem names_ofMembers? {members : List (List Char × Source)}
    (hmembers : ∀ member ∈ members, ∀ s, stringOf? member.1 = some s → P s)
    {read values : List (String × Json)} (hread : ∀ m ∈ read, P m.1)
    (h : ofMembers? depth read members = some values) : ∀ m ∈ values, P m.1 := by
  induction members generalizing read with
  | nil =>
      cases h
      exact hread
  | cons member rest ih =>
      obtain ⟨raw, source⟩ := member
      obtain ⟨hmember, hrest⟩ := List.forall_mem_cons.1 hmembers
      simp only [ofMembers?, Option.bind_eq_bind, Option.bind_eq_some_iff] at h
      obtain ⟨s, hs, value, -, h⟩ := h
      refine ih hrest (fun m hm => ?_) h
      rcases mem_put hm with rfl | hm
      · exact hmember s hs
      · exact hread m hm

/-- The other members of an object are read to what stands beside a member that is kept. -/
theorem exists_beside_member {before after : List (List Char × Source)} {raw : List Char}
    {source₀ : Source} {members₀ : List (String × Json)}
    (hkept : (Frame.member before raw after).IsKept)
    (hnames : ∀ other ∈ (Frame.member before raw after).names, ∀ s, stringOf? other = some s → P s)
    (h : ofMembers? depth [] (before ++ (raw, source₀) :: after) = some members₀) :
    ∃ values name others, (∀ s ∈ (Frame.member values name others : Frame String Json).names, P s) ∧
      ∀ source, ofMembers? depth [] (before ++ (raw, source) :: after) =
        (ofSource? depth source).map fun value => values ++ (name, value) :: others := by
  simp only [ofMembers?_append, ofMembers?, Option.bind_eq_bind, Option.bind_eq_some_iff] at h
  obtain ⟨read, hread, name, hraw, value₀, -, hafter⟩ := h
  simp only [Frame.names, List.mem_append, List.mem_map, List.mem_cons] at hnames
  have hfirst : ∀ m ∈ read, P m.1 :=
    names_ofMembers? (fun m hm => hnames m.1 (.inl ⟨m, hm, rfl⟩)) (List.forall_mem_nil _) hread
  obtain ⟨first, last, hbeside, hput⟩ := exists_put name hfirst
  have hlater : ∀ m ∈ after, ∀ s, stringOf? m.1 = some s → s ≠ name ∧ P s := by
    refine fun m hm s hs => ⟨?_, hnames _ (.inr (.inr ⟨m, hm, rfl⟩)) s hs⟩
    rintro rfl
    exact hkept m hm (hs.trans hraw.symm)
  rw [hput] at hafter
  obtain ⟨values, others, hvalues, hall⟩ := exists_ofMembers? hlater hbeside hafter
  refine ⟨values, name, others, fun s hs => ?_, fun source => ?_⟩
  · simp only [Frame.names, List.mem_append, List.mem_map, List.mem_cons] at hs
    rcases hs with ⟨m, hm, rfl⟩ | rfl | ⟨m, hm, rfl⟩
    · exact hvalues m (List.mem_append_left _ hm)
    · exact hnames raw (.inr (.inl rfl)) _ hraw
    · exact hvalues m (List.mem_append_right _ hm)
  · rw [ofMembers?_append, hread]
    show ofMembers? depth read ((raw, source) :: after) = _
    rw [ofMembers?, hraw]
    cases ofSource? depth source with
    | none => rfl
    | some value =>
        show ofMembers? depth (put name value read) after = _
        rw [hput, hall]
        rfl

end Members

/-- The other items of an array are read to what stands beside an item. -/
theorem exists_beside_item {before after : List Source} {source₀ : Source} {items₀ : List Json}
    (h : ofItems? depth (before ++ source₀ :: after) = some items₀) :
    ∃ values others, ∀ source, ofItems? depth (before ++ source :: after) =
      (ofSource? depth source).map fun value => values ++ value :: others := by
  simp only [ofItems?_append, Option.bind_eq_bind, Option.bind_eq_some_iff] at h
  obtain ⟨values, hvalues, value₀, -, others, hothers, -⟩ := h
  refine ⟨values, others, fun source => ?_⟩
  rw [ofItems?_append, hvalues, hothers]
  cases ofSource? depth source <;> rfl

/-! ## Values at places -/

/-- A place in a text is filled step by step. -/
theorem Source.fill_cons (frame : Frame (List Char) Source) (rest : Place (List Char) Source)
    (part : Source) : fill (frame :: rest) part = fill [frame] (fill rest part) := by
  cases frame <;> rfl

/-- A place in a value is filled step by step. -/
theorem fill_cons (frame : Frame String Json) (rest : Place String Json) (part : Json) :
    fill (frame :: rest) part = fill [frame] (fill rest part) := by
  cases frame <;> rfl

/-- What stands beside a part is read without the part. -/
theorem exists_beside {P : String → Prop} {frame : Frame (List Char) Source} (hkept : frame.IsKept)
    (hnames : ∀ raw ∈ frame.names, ∀ s, stringOf? raw = some s → P s) {part₀ : Source}
    {value₀ : Json} (h : ofSource? (depth + 1) (Source.fill [frame] part₀) = some value₀) :
    ∃ beside : Frame String Json, (∀ s ∈ beside.names, P s) ∧
      ∀ part, ofSource? (depth + 1) (Source.fill [frame] part) =
        (ofSource? depth part).map fun value => fill [beside] value := by
  cases frame with
  | item before after =>
      obtain ⟨items₀, hitems, -⟩ := Option.map_eq_some_iff.1 h
      obtain ⟨values, others, hbeside⟩ := exists_beside_item hitems
      refine ⟨.item values others, List.forall_mem_nil _, fun part => ?_⟩
      rw [Source.fill, Source.fill, ofSource?, hbeside, Option.map_map]
      rfl
  | member before raw after =>
      obtain ⟨members₀, hmembers, -⟩ := Option.map_eq_some_iff.1 h
      obtain ⟨values, name, others, hothers, hbeside⟩ :=
        exists_beside_member hkept hnames hmembers
      refine ⟨.member values name others, hothers, fun part => ?_⟩
      rw [Source.fill, Source.fill, ofSource?, hbeside, Option.map_map]
      rfl

/-- A number that is written at a place of a text is read at a place of the value. The names beside
the place in the value are names beside the place in the text. -/
theorem ofSource?_fill {P : String → Prop} {p : Place (List Char) Source}
    (hkept : ∀ frame ∈ p, frame.IsKept)
    (hnames : ∀ frame ∈ p, ∀ raw ∈ frame.names, ∀ s, stringOf? raw = some s → P s)
    {n₀ : NumberText} {value₀ : Json}
    (h : ofSource? depth (Source.fill p (.number n₀)) = some value₀) :
    ∃ q : Place String Json, (∀ frame ∈ q, ∀ s ∈ frame.names, P s) ∧
      ∀ n : NumberText, ofSource? depth (Source.fill p (.number n)) = n.toJson?.map (fill q) := by
  induction p generalizing depth value₀ with
  | nil => exact ⟨[], List.forall_mem_nil _, fun n => by simp [Source.fill, ofSource?, fill]⟩
  | cons frame rest ih =>
      obtain ⟨hkeep, hrest⟩ := List.forall_mem_cons.1 hkept
      obtain ⟨hname, hinside⟩ := List.forall_mem_cons.1 hnames
      cases depth with
      | zero => cases frame <;> cases h
      | succ depth =>
          rw [Source.fill_cons] at h
          obtain ⟨beside, hbeside, hread⟩ := exists_beside hkeep hname h
          -- the part is read too, one level further in
          rw [hread] at h
          obtain ⟨value, hvalue, -⟩ := Option.map_eq_some_iff.1 h
          obtain ⟨q, hq, hinner⟩ := ih hrest hinside hvalue
          refine ⟨beside :: q, List.forall_mem_cons.2 ⟨hbeside, hq⟩, fun n => ?_⟩
          rw [Source.fill_cons, hread, hinner, Option.map_map]
          exact congrArg (Option.map · n.toJson?) (funext fun value => (fill_cons ..).symm)

end FilterSql.Json
