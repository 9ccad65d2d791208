import FilterSql.Proofs.Json.Escape
import FilterSql.Proofs.Json.Number

/-!
# JSON values read back

The compact text of a value is read as the value (`read?_text`), if the reader can hold it at all:
integers of 64 bits, finite floating-point numbers, members with distinct names and at most 127
nested arrays and objects (`Readable`). The reader never reads a character twice, so the length of a
text is more fuel than it needs; `Reads` says so for the text of one value, whatever stands
behind it. The reader holds no other values than these (`readable_read?`).
-/

namespace FilterSql.Json

/-- The values that the reader can hold, with at most `depth` nested arrays and objects. -/
inductive Readable : ℕ → Json → Prop
  | null {depth : ℕ} : Readable depth .null
  | bool {depth : ℕ} (b : Bool) : Readable depth (.bool b)
  | int {depth : ℕ} {n : Int} (first : Int64.minValue.toInt ≤ n) (last : n < UInt64.size) :
      Readable depth (.int n)
  | float {depth : ℕ} {x : Binary64} (finite : x.isFinite = true) : Readable depth (.float x)
  | string {depth : ℕ} (s : String) : Readable depth (.string s)
  | array {depth : ℕ} {items : List Json} (inside : ∀ item ∈ items, Readable depth item) :
      Readable (depth + 1) (.array items)
  | object {depth : ℕ} {members : List (String × Json)} (names : (members.map (·.1)).Nodup)
      (inside : ∀ member ∈ members, Readable depth member.2) :
      Readable (depth + 1) (.object members)

/-- A text that starts with what no reader passes over. -/
def Starts (s : List Char) : Prop :=
  ∃ c t, s = c :: t ∧ Source.isSpace c = false ∧ c ≠ ']'

/-- The text of a value: the reader finds a source at the head, whatever stands behind it that does
not go on with a number, and the source stands for the value. -/
structure Reads (depth : ℕ) (s : List Char) (json : Json) : Prop where
  starts : Starts s
  source : ∃ source, Json.ofSource? depth source = some json ∧
    ∀ fuel rest, s.length < fuel → NumberText.Ends rest →
      Source.value? fuel (s ++ rest) = some (source, rest)

variable {depth : ℕ}

/-- Nothing is passed over before a value. -/
theorem Starts.skip_append {s : List Char} (h : Starts s) (rest : List Char) :
    Source.skip (s ++ rest) = s ++ rest := by
  obtain ⟨c, t, rfl, hc, -⟩ := h
  simp [Source.skip, hc]

/-- Nothing is passed over before a character that is no space. -/
theorem skip_cons {c : Char} (hc : Source.isSpace c = false) (s : List Char) :
    Source.skip (c :: s) = c :: s := by
  simp [Source.skip, hc]

/-- A character that cannot stand in a number ends it. -/
theorem ends_cons {c : Char} (rest : List Char)
    (hc : c.isDigit = false ∧ c ≠ '.' ∧ c ≠ 'e' ∧ c ≠ 'E') : NumberText.Ends (c :: rest) := by
  rintro _ ⟨⟩
  exact hc

/-! ## Atoms -/

/-- The text of `null` is read back. -/
theorem reads_null : Reads depth (text .null).toList .null where
  starts := ⟨'n', _, rfl, rfl, by decide⟩
  source := by
    refine ⟨.null, rfl, fun fuel rest hfuel _ => ?_⟩
    obtain ⟨fuel, rfl⟩ := Nat.exists_eq_succ_of_ne_zero (Nat.ne_zero_of_lt hfuel)
    rfl

/-- The text of a truth value is read back. -/
theorem reads_bool (b : Bool) : Reads depth (text (.bool b)).toList (.bool b) where
  starts := by
    cases b
    · exact ⟨'f', _, rfl, rfl, by decide⟩
    · exact ⟨'t', _, rfl, rfl, by decide⟩
  source := by
    refine ⟨.bool b, rfl, fun fuel rest hfuel _ => ?_⟩
    obtain ⟨fuel, rfl⟩ := Nat.exists_eq_succ_of_ne_zero (Nat.ne_zero_of_lt hfuel)
    cases b <;> rfl

/-- The text of a string is read back. -/
theorem reads_string (s : String) : Reads depth (text (.string s)).toList (.string s) where
  starts := ⟨'"', escape s.toList ++ ['"'], by simp [text, quoted], rfl, by decide⟩
  source := by
    refine ⟨.string (escape s.toList), ?_, fun fuel rest hfuel _ => ?_⟩
    · rw [ofSource?, stringOf?_escape, Option.map_some]
    · obtain ⟨fuel, rfl⟩ := Nat.exists_eq_succ_of_ne_zero (Nat.ne_zero_of_lt hfuel)
      have htext : (text (.string s)).toList ++ rest = '"' :: (escape s.toList ++ '"' :: rest) := by
        simp [text, quoted]
      rw [htext, Source.value?, string?_escape, Option.map_some]

/-- The text of a number starts with a minus or a digit. -/
theorem NumberText.IsPlain.head {n : NumberText} (h : n.IsPlain) :
    ∃ c t, n.chars = c :: t ∧ (c = '-' ∨ c.isDigit = true) := by
  rw [NumberText.chars]
  cases n.negative with
  | true => exact ⟨'-', _, rfl, .inl rfl⟩
  | false =>
      obtain ⟨c, run, hrun⟩ := List.exists_cons_of_ne_nil h.whole_ne
      rw [hrun]
      exact ⟨c, _, rfl, .inr (h.whole c (hrun ▸ List.mem_cons_self))⟩

/-- The text of a number reads as what its digits stand for. -/
theorem reads_number {n : NumberText} {json : Json} (hplain : n.IsPlain)
    (hvalue : n.toJson? = some json) : Reads depth n.chars json where
  starts := by
    obtain ⟨c, t, hchars, hc⟩ := hplain.head
    refine ⟨c, t, hchars, ?_, ?_⟩
    · rcases hc with rfl | hc
      · rfl
      · simp only [Source.isSpace, Bool.or_eq_false_iff, decide_eq_false_iff_not]
        refine ⟨⟨⟨?_, ?_⟩, ?_⟩, ?_⟩ <;> rintro rfl <;> exact absurd hc (by decide)
    · rintro rfl
      exact absurd hc (by decide)
  source := by
    refine ⟨.number n, hvalue, fun fuel rest hfuel hrest => ?_⟩
    obtain ⟨fuel, rfl⟩ := Nat.exists_eq_succ_of_ne_zero (Nat.ne_zero_of_lt hfuel)
    obtain ⟨c, t, hchars, hc⟩ := hplain.head
    rw [Source.value?, NumberText.number?_chars hplain hrest, Option.map_some]
    -- no other value starts with a sign or a digit
    all_goals
      intro s h
      rw [hchars] at h
      obtain ⟨rfl, -⟩ := List.cons.inj h
      exact absurd hc (by decide)

/-- The text of an integer of 64 bits is read back. -/
theorem reads_int {n : Int} (hfirst : Int64.minValue.toInt ≤ n) (hlast : n < UInt64.size) :
    Reads depth (text (.int n)).toList (.int n) := by
  rw [text, NumberText.toList_intText]
  exact reads_number (NumberText.ofInt_isPlain n) (NumberText.toJson?_ofInt hfirst hlast)

/-- The text of a finite number is read back. -/
theorem reads_float {x : Binary64} (hx : x.isFinite = true) :
    Reads depth (text (.float x)).toList (.float x) := by
  rw [text, NumberText.toList_floatText hx]
  exact reads_number (NumberText.ofFloat_isPlain hx) (NumberText.toJson?_ofFloat hx)

/-! ## Arrays -/

/-- Texts with commas start with the first and a comma. -/
theorem toList_join_cons (s t : String) (rest : List String) :
    (Text.join "," (s :: t :: rest)).toList =
      s.toList ++ ',' :: (Text.join "," (t :: rest)).toList := by
  simp [Text.join]

/-- The texts of items between commas, up to the closing bracket. -/
theorem reads_items {items : List Json} (hne : items ≠ [])
    (h : ∀ item ∈ items, Reads depth item.text.toList item) :
    Starts (Text.join "," (itemTexts items)).toList ∧
      ∃ sources, ofItems? depth sources = some items ∧
        ∀ fuel rest, (Text.join "," (itemTexts items)).toList.length + 1 < fuel →
          Source.items? fuel ((Text.join "," (itemTexts items)).toList ++ ']' :: rest) =
            some (sources, rest) := by
  induction items with
  | nil => exact absurd rfl hne
  | cons item items ih =>
      obtain ⟨hstarts, source, hsource, hread⟩ := h item List.mem_cons_self
      cases items with
      | nil =>
          refine ⟨hstarts, [source], by simp [ofItems?, hsource], fun fuel rest hfuel => ?_⟩
          obtain ⟨fuel, rfl⟩ := Nat.exists_eq_succ_of_ne_zero (Nat.ne_zero_of_lt hfuel)
          have hitem := hread fuel (']' :: rest) (by simpa [itemTexts, Text.join] using hfuel)
            (ends_cons rest (by decide))
          simp only [itemTexts, Text.join, Source.items?, hitem, Option.bind_eq_bind,
            Option.bind_some, skip_cons (c := ']') rfl, Option.pure_def]
      | cons next items =>
          obtain ⟨hnext, sources, hsources, hreads⟩ :=
            ih (List.cons_ne_nil _ _) fun item hitem => h item (List.mem_cons_of_mem _ hitem)
          rw [itemTexts] at hnext hreads ⊢
          rw [itemTexts, toList_join_cons]
          generalize (Text.join "," (next.text :: itemTexts items)).toList = more at hnext hreads ⊢
          obtain ⟨c, t, htext, hc⟩ := hstarts
          refine ⟨⟨c, _, by rw [htext]; rfl, hc⟩, source :: sources, ?_, fun fuel rest hfuel => ?_⟩
          · simp [ofItems?, hsource, hsources]
          · obtain ⟨fuel, rfl⟩ := Nat.exists_eq_succ_of_ne_zero (Nat.ne_zero_of_lt hfuel)
            rw [List.length_append, List.length_cons] at hfuel
            rw [List.append_assoc, List.cons_append]
            have hitem := hread fuel (',' :: (more ++ ']' :: rest)) (by omega)
              (ends_cons _ (by decide))
            simp only [Source.items?, hitem, Option.bind_eq_bind, Option.bind_some,
              skip_cons (c := ',') rfl, hnext.skip_append, hreads fuel rest (by omega),
              Option.pure_def]

/-- A bracket that is followed by a value starts an array. -/
theorem value?_array {s : List Char} (h : Starts s) (fuel : ℕ) (rest : List Char) :
    Source.value? (fuel + 1) ('[' :: (s ++ rest)) =
      (Source.items? fuel (s ++ rest)).map fun (items, rest) => (.array items, rest) := by
  have hskip := h.skip_append rest
  obtain ⟨c, t, rfl, -, hc⟩ := h
  rw [Source.value?, hskip]
  split
  · next heq => exact absurd (List.cons.inj heq).1 hc
  · rfl

/-- The text of an array. -/
theorem reads_array {items : List Json} (h : ∀ item ∈ items, Reads depth item.text.toList item) :
    Reads (depth + 1) (text (.array items)).toList (.array items) := by
  have htext : (text (.array items)).toList =
      '[' :: ((Text.join "," (itemTexts items)).toList ++ [']']) := by
    simp [text]
  refine ⟨⟨'[', _, htext, rfl, by decide⟩, ?_⟩
  rw [htext]
  by_cases hne : items = []
  · subst hne
    refine ⟨.array [], rfl, fun fuel rest hfuel _ => ?_⟩
    obtain ⟨fuel, rfl⟩ := Nat.exists_eq_succ_of_ne_zero (Nat.ne_zero_of_lt hfuel)
    rfl
  · obtain ⟨hstarts, sources, hsources, hreads⟩ := reads_items hne h
    refine ⟨.array sources, by simp [ofSource?, hsources], fun fuel rest hfuel _ => ?_⟩
    obtain ⟨fuel, rfl⟩ := Nat.exists_eq_succ_of_ne_zero (Nat.ne_zero_of_lt hfuel)
    rw [List.length_cons, List.length_append, List.length_singleton] at hfuel
    rw [List.cons_append, List.append_assoc, value?_array hstarts, List.singleton_append,
      hreads fuel rest (by omega), Option.map_some]

/-! ## Objects -/

/-- A member with a new name is put behind the others. -/
theorem put_new {name : String} {read : List (String × Json)} (value : Json)
    (h : name ∉ read.map (·.1)) : put name value read = read ++ [(name, value)] := by
  induction read with
  | nil => rfl
  | cons member read ih =>
      rw [List.map_cons, List.mem_cons, not_or] at h
      rw [put, if_neg (Ne.symm h.1), ih h.2, List.cons_append]

/-- The text of a member behind its first quote. -/
def memberChars (member : String × Json) : List Char :=
  escape member.1.toList ++ '"' :: ':' :: member.2.text.toList

/-- The reader takes the first of several members. -/
theorem members?_cons {member : String × Json} {source : Source} {fuel : ℕ} {s : List Char}
    (hvalue : Starts member.2.text.toList)
    (hread : Source.value? fuel (member.2.text.toList ++ s) = some (source, s)) :
    Source.members? (fuel + 1) ('"' :: (memberChars member ++ s)) =
      (match Source.skip s with
        | '}' :: rest => some ([(escape member.1.toList, source)], rest)
        | ',' :: s => do
          let (members, rest) ← Source.members? fuel (Source.skip s)
          return ((escape member.1.toList, source) :: members, rest)
        | _ => none) := by
  have hliteral (c : Char) (s : List Char) : Source.literal? [c] (c :: s) = some s := by
    simp [Source.literal?]
  simp only [memberChars, List.append_assoc, List.cons_append, Source.members?, hliteral,
    Option.bind_eq_bind, Option.bind_some, string?_escape, skip_cons (c := ':') rfl,
    hvalue.skip_append, hread]
  rfl

/-- The texts of members between commas, up to the closing brace. -/
theorem reads_members {members : List (String × Json)} (hne : members ≠ [])
    (h : ∀ member ∈ members, Reads depth member.2.text.toList member.2) :
    ∃ t sources, (Text.join "," (memberTexts members)).toList = '"' :: t ∧
      (∀ read, ((read ++ members).map (·.1)).Nodup →
        ofMembers? depth read sources = some (read ++ members)) ∧
      ∀ fuel rest, t.length + 1 < fuel →
        Source.members? fuel ('"' :: (t ++ '}' :: rest)) = some (sources, rest) := by
  induction members with
  | nil => exact absurd rfl hne
  | cons member members ih =>
      obtain ⟨hstarts, source, hsource, hread⟩ := h member List.mem_cons_self
      have hput (read : List (String × Json))
          (hread : ((read ++ member :: members).map (·.1)).Nodup) :
          put member.1 member.2 read = read ++ [member] := by
        refine put_new member.2 fun hmem => ?_
        rw [List.map_append, List.nodup_append] at hread
        exact hread.2.2 _ hmem _ List.mem_cons_self rfl
      cases members with
      | nil =>
          refine ⟨memberChars member, [(escape member.1.toList, source)], ?_, ?_, ?_⟩
          · simp [memberTexts, Text.join, quoted, memberChars]
          · intro read hnames
            simp [ofMembers?, stringOf?_escape, hsource, hput read hnames]
          · intro fuel rest hfuel
            obtain ⟨fuel, rfl⟩ := Nat.exists_eq_succ_of_ne_zero (Nat.ne_zero_of_lt hfuel)
            have hlength : member.2.text.toList.length < fuel := by
              simp only [memberChars, List.length_append, List.length_cons] at hfuel
              omega
            have hmember := hread fuel ('}' :: rest) hlength (ends_cons _ (by decide))
            rw [members?_cons hstarts hmember, skip_cons rfl]
            rfl
      | cons next members =>
          obtain ⟨t, sources, htext, hsources, hreads⟩ :=
            ih (List.cons_ne_nil _ _) fun member hmember =>
              h member (List.mem_cons_of_mem _ hmember)
          refine ⟨memberChars member ++ ',' :: '"' :: t,
            (escape member.1.toList, source) :: sources, ?_, ?_, ?_⟩
          · rw [memberTexts] at htext ⊢
            rw [memberTexts, toList_join_cons, htext]
            simp [quoted, memberChars]
          · intro read hnames
            have hrest : ((read ++ [member] ++ next :: members).map (·.1)).Nodup := by
              simpa using hnames
            simp [ofMembers?, stringOf?_escape, hsource, hput read hnames,
              hsources (read ++ [member]) hrest]
          · intro fuel rest hfuel
            obtain ⟨fuel, rfl⟩ := Nat.exists_eq_succ_of_ne_zero (Nat.ne_zero_of_lt hfuel)
            rw [List.length_append, List.length_cons, List.length_cons] at hfuel
            have hlength : member.2.text.toList.length < fuel := by
              simp only [memberChars, List.length_append, List.length_cons] at hfuel
              omega
            rw [List.append_assoc, List.cons_append, List.cons_append]
            have hmember := hread fuel (',' :: '"' :: (t ++ '}' :: rest)) hlength
              (ends_cons _ (by decide))
            have hmore := hreads fuel rest (by omega)
            rw [members?_cons hstarts hmember, skip_cons rfl]
            simp only [skip_cons (c := '"') rfl, hmore]
            rfl

/-- The text of an object. -/
theorem reads_object {members : List (String × Json)} (hnames : (members.map (·.1)).Nodup)
    (h : ∀ member ∈ members, Reads depth member.2.text.toList member.2) :
    Reads (depth + 1) (text (.object members)).toList (.object members) := by
  have htext : (text (.object members)).toList =
      '{' :: ((Text.join "," (memberTexts members)).toList ++ ['}']) := by
    simp [text]
  refine ⟨⟨'{', _, htext, rfl, by decide⟩, ?_⟩
  rw [htext]
  by_cases hne : members = []
  · subst hne
    refine ⟨.object [], rfl, fun fuel rest hfuel _ => ?_⟩
    obtain ⟨fuel, rfl⟩ := Nat.exists_eq_succ_of_ne_zero (Nat.ne_zero_of_lt hfuel)
    rfl
  · obtain ⟨t, sources, hmembers, hsources, hreads⟩ := reads_members hne h
    have hvalue := hsources [] hnames
    refine ⟨.object sources, by simp [ofSource?, hvalue], fun fuel rest hfuel _ => ?_⟩
    obtain ⟨fuel, rfl⟩ := Nat.exists_eq_succ_of_ne_zero (Nat.ne_zero_of_lt hfuel)
    rw [hmembers] at hfuel ⊢
    simp only [List.length_cons, List.length_append, List.length_nil] at hfuel
    have hfirst := hreads fuel rest (by omega)
    simp only [List.cons_append, List.append_assoc, List.nil_append, Source.value?,
      skip_cons (c := '"') rfl]
    exact congrArg (Option.map _) hfirst

/-- The text of a value that the reader can hold. -/
theorem Readable.reads {json : Json} (h : Readable depth json) :
    Reads depth json.text.toList json := by
  induction h with
  | null => exact reads_null
  | bool b => exact reads_bool b
  | int first last => exact reads_int first last
  | float finite => exact reads_float finite
  | string s => exact reads_string s
  | array inside ih => exact reads_array ih
  | object names inside ih => exact reads_object names ih

/-- A text that holds one value and nothing else is read whole. -/
theorem Reads.read?_eq {s : List Char} {json : Json} (h : Reads depth s json) :
    Source.read? s >>= ofSource? depth = some json := by
  obtain ⟨hstarts, source, hsource, hread⟩ := h
  have hskip := hstarts.skip_append []
  have hread := hread (s.length + 1) [] (Nat.lt_succ_self _) nofun
  rw [List.append_nil] at hskip hread
  have hwhole : Source.read? s = some source := by
    simp only [Source.read?, hskip, hread]
    rfl
  rw [hwhole]
  exact hsource

/-- The compact text of a value reads as the value. -/
theorem read?_text {json : Json} (h : Readable maxDepth json) : read? json.text = some json := by
  rw [read?]
  exact h.reads.read?_eq

/-! ## Nothing else is read -/

/-- A number that is read as a float can be held. -/
theorem readable_toFloat? {n : NumberText} {json : Json} (h : n.toFloat? = some json) :
    Readable depth json := by
  unfold NumberText.toFloat? at h
  dsimp only at h
  split at h
  next hfinite =>
    cases h
    exact .float hfinite
  next => cases h

/-- A number that is read can be held. -/
theorem readable_toJson? {n : NumberText} {json : Json} (h : n.toJson? = some json) :
    Readable depth json := by
  have hmin : Int64.minValue.toInt < 0 := by decide
  unfold NumberText.toJson? at h
  dsimp only at h
  split at h
  · exact readable_toFloat? h
  · split at h
    · split at h
      · exact readable_toFloat? h
      next hrange =>
        cases h
        simp only [Bool.or_eq_true, decide_eq_true_eq, not_or, not_lt] at hrange
        exact .int hrange.2 (by omega)
    · split at h
      next hsize =>
        cases h
        exact .int (by omega) (by omega)
      · exact readable_toFloat? h

/-- Putting a member in keeps the names distinct and adds no other value. -/
theorem mem_put {name : String} {value : Json} {read : List (String × Json)}
    {member : String × Json} (h : member ∈ put name value read) :
    member = (name, value) ∨ member ∈ read := by
  induction read with
  | nil => exact .inl (List.mem_singleton.1 h)
  | cons first rest ih =>
    rw [put] at h
    split at h
    · rcases List.mem_cons.1 h with rfl | hrest
      · exact .inl rfl
      · exact .inr (List.mem_cons_of_mem _ hrest)
    · rcases List.mem_cons.1 h with rfl | hrest
      · exact .inr List.mem_cons_self
      · exact (ih hrest).imp_right (List.mem_cons_of_mem _)

/-- Names stay distinct when a member is put among them. -/
theorem nodup_put {name : String} {value : Json} {read : List (String × Json)}
    (h : (read.map (·.1)).Nodup) : ((put name value read).map (·.1)).Nodup := by
  induction read with
  | nil => exact List.nodup_singleton name
  | cons first rest ih =>
    obtain ⟨hfirst, hrest⟩ := List.nodup_cons.1 h
    rw [put]
    split
    next hname =>
      subst hname
      exact h
    next hname =>
      refine List.nodup_cons.2 ⟨fun hmem => ?_, ih hrest⟩
      obtain ⟨member, hmember, heq⟩ := List.mem_map.1 hmem
      rcases mem_put hmember with rfl | hmember
      · exact hname heq.symm
      · exact hfirst (List.mem_map.2 ⟨member, hmember, heq⟩)

mutual

/-- What a text is read as can be held. -/
theorem readable_ofSource? (source : Source) {depth : ℕ} {json : Json}
    (h : ofSource? depth source = some json) : Readable depth json := by
  match source with
  | .null =>
    cases h
    exact .null
  | .bool b =>
    cases h
    exact .bool b
  | .number n => exact readable_toJson? h
  | .string escaped =>
    obtain ⟨s, -, rfl⟩ := Option.map_eq_some_iff.1 h
    exact .string s
  | .array items =>
    cases depth with
    | zero => cases h
    | succ depth =>
      obtain ⟨values, hvalues, rfl⟩ := Option.map_eq_some_iff.1 h
      exact .array (readable_ofItems? items hvalues)
  | .object members =>
    cases depth with
    | zero => cases h
    | succ depth =>
      obtain ⟨values, hvalues, rfl⟩ := Option.map_eq_some_iff.1 h
      have hnone : (([] : List (String × Json)).map (·.1)).Nodup := List.nodup_nil
      obtain ⟨hnames, hinside⟩ :=
        readable_ofMembers? members hnone (List.forall_mem_nil _) hvalues
      exact .object hnames hinside
termination_by structural source

/-- The items of an array that is read can be held. -/
theorem readable_ofItems? (items : List Source) {depth : ℕ} {values : List Json}
    (h : ofItems? depth items = some values) : ∀ value ∈ values, Readable depth value := by
  match items with
  | [] =>
    cases h
    exact List.forall_mem_nil _
  | item :: rest =>
    obtain ⟨value, hvalue, h⟩ := Option.bind_eq_some_iff.1 h
    obtain ⟨values, hvalues, h⟩ := Option.bind_eq_some_iff.1 h
    cases h
    exact List.forall_mem_cons.2 ⟨readable_ofSource? item hvalue, readable_ofItems? rest hvalues⟩
termination_by structural items

/-- The members of an object that is read can be held, and have distinct names. -/
theorem readable_ofMembers? (members : List (List Char × Source)) {depth : ℕ}
    {read values : List (String × Json)} (hnames : (read.map (·.1)).Nodup)
    (hread : ∀ member ∈ read, Readable depth member.2)
    (h : ofMembers? depth read members = some values) :
    (values.map (·.1)).Nodup ∧ ∀ member ∈ values, Readable depth member.2 := by
  match members with
  | [] =>
    cases h
    exact ⟨hnames, hread⟩
  | (name, source) :: rest =>
    obtain ⟨name, -, h⟩ := Option.bind_eq_some_iff.1 h
    obtain ⟨value, hvalue, h⟩ := Option.bind_eq_some_iff.1 h
    have hput : ∀ member ∈ put name value read, Readable depth member.2 := by
      intro member hmember
      rcases mem_put hmember with rfl | hmember
      · exact readable_ofSource? source hvalue
      · exact hread member hmember
    exact readable_ofMembers? rest (nodup_put hnames) hput h
termination_by structural members

end

/-- What is read from a text can be held. -/
theorem readable_read? {text : String} {json : Json} (h : read? text = some json) :
    Readable maxDepth json := by
  obtain ⟨source, -, hsource⟩ := Option.bind_eq_some_iff.1 h
  exact readable_ofSource? source hsource

end FilterSql.Json
