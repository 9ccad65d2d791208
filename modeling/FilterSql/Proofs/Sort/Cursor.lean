import FilterSql.Proofs.Encoding.Base64Url
import FilterSql.Proofs.Json.RoundTrip
import FilterSql.Proofs.Sort.Succession
import FilterSql.Proofs.Time.Timestamp

/-!
# Tokens read back

The token of a cursor decodes to the cursor, unless it exceeds a limit (`Cursor.decode_encode_eq`):
each operand comes back with its kind (`Operand.ofJson?_toJson`), the JSON text as the object that
was written, and the octets from their base64 text. So `Cursor.decode` inverts `Cursor.encode`
within the limits (`Cursor.decode_encode`), and a page hands out the cursor of its next request
(`PageInfo.decode_nextCursor`).
-/

namespace FilterSql

/-! ## Operands -/

namespace Operand

variable {operand : Operand} {depth : ℕ}

/-- The operand is no infinity and no NaN. -/
def Finite (operand : Operand) : Prop :=
  ∀ x, operand = .float x → x.isFinite = true

/-- The content of a finite operand can be read. -/
theorem readable_content (h : operand.Finite) {content : Json}
    (hcontent : operand.content? = some content) : Json.Readable depth content := by
  cases operand with
  | null => cases hcontent
  | bool b =>
      obtain rfl := Option.some.inj hcontent
      exact .bool b
  | int n =>
      obtain rfl := Option.some.inj hcontent
      exact .int n.minValue_le_toInt (n.toInt_lt.trans (by decide))
  | float x =>
      obtain rfl := Option.some.inj hcontent
      exact .float (h x rfl)
  | string s =>
      obtain rfl := Option.some.inj hcontent
      exact .string s
  | instant t =>
      obtain rfl := Option.some.inj hcontent
      exact .string _
  | now => cases hcontent

/-- The JSON of a finite operand can be read. -/
theorem readable_toJson (h : operand.Finite) : Json.Readable (depth + 1) operand.toJson := by
  unfold toJson
  cases hcontent : operand.content? with
  | none =>
      refine .object (List.nodup_singleton "t") fun member hmember => ?_
      obtain rfl := List.mem_singleton.1 hmember
      exact .string _
  | some content =>
      refine .object (by decide : ["t", "v"].Nodup) fun member hmember => ?_
      rcases List.mem_pair.1 hmember with rfl | rfl
      · exact .string _
      · exact readable_content h hcontent

/-- An operand is read back from its JSON, as one of its own kind. -/
theorem ofJson?_toJson (operand : Operand) : ofJson? operand.toJson = some operand := by
  cases operand with
  | null => rfl
  | bool b => rfl
  | int n =>
      refine (if_pos ⟨n.minValue_le_toInt, n.toInt_le⟩).trans ?_
      rw [Int64.ofInt_toInt]
  | float x => rfl
  | string s => rfl
  | instant t =>
      simp [ofJson?, toJson, tag, content?, choice?, Json.member?, ofContent?,
        Instant.ofLenient?_text]
  | now => rfl

end Operand

/-! ## Cursors -/

namespace Cursor

variable {cursor : Cursor}

/-- No value of the cursor is an infinity or a NaN. -/
def Finite (cursor : Cursor) : Prop :=
  ∀ field ∈ cursor.fields, field.2.Finite

/-- The JSON of a finite cursor with distinct keys can be read. -/
theorem readable_toJson (hkeys : (cursor.fields.map (·.1)).Nodup) (hfinite : cursor.Finite) :
    Json.Readable Json.maxDepth cursor.toJson := by
  have hdepth : Json.maxDepth = 126 + 1 := rfl
  rw [hdepth]
  refine .object ?_ ?_
  · rwa [List.map_map]
  · intro member hmember
    obtain ⟨field, hfield, rfl⟩ := List.mem_map.1 hmember
    exact Operand.readable_toJson (hfinite field hfield)

/-- The members of the JSON are read as the fields. -/
theorem ofMembers_toJson (fields : List (String × Operand)) :
    ofMembers (fields.map fun (key, value) => (key, value.toJson)) = .ok fields := by
  induction fields with
  | nil => rfl
  | cons field fields ih =>
      rw [List.map_cons, ofMembers, Operand.ofJson?_toJson, ih]
      rfl

/-- The bytes of a text that are gathered one by one. -/
theorem toList_loop (octets : ByteArray) (i : ℕ) (read : List UInt8) :
    ByteArray.toList.loop octets i read = read.reverse ++ octets.data.toList.drop i := by
  fun_induction ByteArray.toList.loop octets i read with
  | case1 i read h ih =>
      have hlength : i < octets.data.toList.length := h
      rw [ih, List.reverse_cons, List.append_assoc, List.singleton_append,
        List.drop_eq_getElem_cons hlength, Array.getElem_toList]
      congr 2
      exact getElem!_pos octets.data i h
  | case2 i read h =>
      have hlength : octets.data.toList.length ≤ i := Nat.le_of_not_lt h
      rw [List.drop_eq_nil_of_le hlength, List.append_nil]

/-- A text is read back from its octets. -/
theorem fromUTF8?_toUTF8 (s : String) : String.fromUTF8? ⟨s.toUTF8.toList.toArray⟩ = some s := by
  have hbytes : (⟨s.toUTF8.toList.toArray⟩ : ByteArray) = s.toUTF8 := by
    rw [ByteArray.toList, toList_loop]
    rfl
  rw [hbytes, String.fromUTF8?]
  exact (dif_pos s.isValidUTF8).trans rfl

/-- The octets of a cursor hold its fields. -/
theorem members?_toJson (hkeys : (cursor.fields.map (·.1)).Nodup) (hfinite : cursor.Finite) :
    members? cursor.toJson.text.toUTF8.toList =
      some (cursor.fields.map fun (key, value) => (key, value.toJson)) := by
  rw [members?, fromUTF8?_toUTF8, Option.bind_eq_bind, Option.bind_some,
    Json.read?_text (readable_toJson hkeys hfinite)]
  rfl

/-- The token of a cursor decodes to the cursor, or exceeds a limit. -/
theorem decode_encode_eq (hkeys : (cursor.fields.map (·.1)).Nodup) (hfinite : cursor.Finite) :
    decode cursor.encode =
      if maxSize < cursor.encode.utf8ByteSize then .error .tooLarge
      else if maxFields < cursor.fields.length then .error .tooManyFields
      else .ok cursor := by
  have hoctets : Base64Url.decode? cursor.encode.toList =
      some cursor.toJson.text.toUTF8.toList := by
    rw [encode, String.toList_ofList, Base64Url.decode?_encode]
  rw [decode, hoctets]
  simp only [members?_toJson hkeys hfinite, List.length_map, ofMembers_toJson, Except.map]

/-- Within the limits a token decodes to the very cursor that it was made of. -/
theorem decode_encode (hkeys : (cursor.fields.map (·.1)).Nodup)
    (hfields : cursor.fields.length ≤ maxFields)
    (hfinite : cursor.Finite)
    (hsize : cursor.encode.utf8ByteSize ≤ maxSize) : decode cursor.encode = .ok cursor := by
  rw [decode_encode_eq hkeys hfinite, if_neg (Nat.not_lt.2 hsize), if_neg (Nat.not_lt.2 hfields)]

namespace Sample

/-- A negative zero, letters beyond ASCII, and a number. -/
def mixed : Cursor :=
  ⟨[("score", .float ⟨0x8000000000000000⟩), ("name", .string "Łada"), ("id", .int 2)]⟩

/-- The numbers of the cursor are finite. -/
theorem mixed_finite : mixed.Finite := by
  intro field hfield x hx
  simp only [mixed, List.mem_cons, List.not_mem_nil, or_false] at hfield
  obtain rfl | rfl | rfl := hfield
  · obtain rfl := Operand.float.inj hx
    decide
  · cases hx
  · cases hx

end Sample

open Sample in
/-- A cursor with a negative zero and a letter outside ASCII is decoded again. -/
theorem decode_encode_mixed :
    (mixed.fields.map (·.1)).Nodup ∧ mixed.fields.length ≤ maxFields ∧ mixed.Finite ∧
      mixed.encode.utf8ByteSize ≤ maxSize ∧ decode mixed.encode = .ok mixed := by
  have hkeys : (mixed.fields.map (·.1)).Nodup := by decide
  have hfields : mixed.fields.length ≤ maxFields := by decide
  have hsize : mixed.encode.utf8ByteSize ≤ maxSize := by decide +kernel
  exact ⟨hkeys, hfields, mixed_finite, hsize, decode_encode hkeys hfields mixed_finite hsize⟩

end Cursor

/-! ## Pages -/

variable {Row : Type} {sorts : SortSchema Row} {rows : List Row} {p : PageRequest}
  {info : PageInfo} {token : String}

/-- The token handed out with a page is that of the cursor of the next request. -/
theorem PageInfo.eq_encode (hinfo : PageInfo.ofRows sorts rows p = .ok info)
    (htoken : info.nextCursor = some token) :
    ∃ next cursor, p.next? sorts rows = .ok (some next) ∧ next.cursor = some cursor ∧
      token = cursor.encode := by
  obtain ⟨next, hnext, hinfo⟩ := bind_eq_ok.1 hinfo
  obtain rfl := Except.ok.inj hinfo
  obtain ⟨cursor, hcursor, rfl⟩ := Option.map_eq_some_iff.1 htoken
  obtain ⟨next, rfl, hcursor⟩ := Option.bind_eq_some_iff.1 hcursor
  exact ⟨next, cursor, hnext, hcursor, rfl⟩

/-- The token handed out with a page decodes to the cursor of the next request, unless it exceeds
the size of a token or the order has more keys than a token may have fields. -/
theorem PageInfo.decode_nextCursor
    (hfinite : ∀ key rule, sorts.get? key = some rule → ∀ row ∈ rows, (rule.value row).Finite)
    (hinfo : PageInfo.ofRows sorts rows p = .ok info) (htoken : info.nextCursor = some token) :
    ∃ resolved next cursor, sorts.resolve p.sort = .ok resolved ∧
      p.next? sorts rows = .ok (some next) ∧ next.cursor = some cursor ∧
      Cursor.decode token =
        if Cursor.maxSize < token.utf8ByteSize then .error .tooLarge
        else if Cursor.maxFields < resolved.length then .error .tooManyFields
        else .ok cursor := by
  obtain ⟨next, cursor, hnext, hcursor, rfl⟩ := eq_encode hinfo htoken
  obtain ⟨last, cursor', hlast, hrow, rfl⟩ := PageRequest.eq_of_next hnext
  obtain rfl := Option.some.inj hcursor
  obtain ⟨resolved, rules, hsort, hrules, rfl⟩ := PageRequest.ofRow_keys hrow
  refine ⟨resolved, _, _, hsort, hnext, rfl, ?_⟩
  have hkeys : (rules.map fun key => (key.1.key, key.2.value last)).map (·.1) =
      resolved.map (·.key) := by
    rw [← hrules.terms, List.map_map, List.map_map]
    rfl
  have hlength : resolved.length = rules.length := by
    rw [← hrules.terms, List.length_map]
  rw [hlength, Cursor.decode_encode_eq, List.length_map]
  · rw [hkeys]
    exact (SortSchema.isResolved_of_resolve hsort).once
  · intro field hfield
    obtain ⟨key, hkey, rfl⟩ := List.mem_map.1 hfield
    exact hfinite _ _ (hrules.get? key hkey) last (List.mem_of_getLast? hlast)

namespace SortSchema.Sample

/-- The position of Ada by name. -/
def atAda : Cursor :=
  ⟨[("name", .string "Ada"), ("id", .int 2)]⟩

/-- The page hands out the token of the cursor at its last row. -/
theorem byName_info : PageInfo.ofRows people [ada] byName = .ok ⟨true, some atAda.encode⟩ := rfl

/-- The values of persons are finite. -/
theorem people_finite {key : String} {rule : SortRule Person}
    (hrule : people.get? key = some rule) (p : Person) : (rule.value p).Finite := by
  intro x hx
  rcases List.mem_pair.1 (mem_rules_of_get? hrule) with h | h
  · obtain ⟨-, rfl⟩ := Prod.mk.inj h
    cases hx
  · obtain ⟨-, rfl⟩ := Prod.mk.inj h
    obtain ⟨id, _ | name⟩ := p <;> cases hx

end SortSchema.Sample

open SortSchema.Sample in
/-- The token that a page hands out is decoded as the cursor of the next request. -/
theorem PageInfo.decode_nextCursor_people :
    (∀ key rule, people.get? key = some rule → ∀ p ∈ [ada], (rule.value p).Finite) ∧
      PageInfo.ofRows people [ada] byName = .ok ⟨true, some atAda.encode⟩ ∧
      ∃ resolved next cursor, people.resolve byName.sort = .ok resolved ∧
        byName.next? people [ada] = .ok (some next) ∧ next.cursor = some cursor ∧
        Cursor.decode atAda.encode =
          if Cursor.maxSize < atAda.encode.utf8ByteSize then .error .tooLarge
          else if Cursor.maxFields < resolved.length then .error .tooManyFields
          else .ok cursor := by
  have hfinite : ∀ key rule, people.get? key = some rule → ∀ p ∈ [ada], (rule.value p).Finite :=
    fun _ _ hrule p _ => people_finite hrule p
  exact ⟨hfinite, byName_info, decode_nextCursor hfinite byName_info rfl⟩

namespace SortSchema.Sample

/-- Seventeen names of keys. -/
def letters : List String :=
  ["a", "b", "c", "d", "e", "f", "g", "h", "i", "j", "k", "l", "m", "n", "o", "p", "q"]

/-- Persons by number, under seventeen keys. -/
def wide : SortSchema Person where
  rules := letters.map fun key =>
    (key, (SortRule.ofExpr (.column ⟨.own, ⟨"id", .refl true⟩⟩) fun p => .int p.id).notNull)
  distinct := by decide
  tieBreak := "a"
  registered := by decide

/-- Each of the keys has the number of the person. -/
theorem wide_value {key : String} {rule : SortRule Person} (h : wide.get? key = some rule)
    (p : Person) : rule.value p = .int p.id := by
  obtain ⟨_, -, heq⟩ := List.mem_map.1 (mem_rules_of_get? h)
  obtain ⟨-, rfl⟩ := Prod.mk.inj heq
  rfl

/-- A page of one person by all keys. -/
def byLetters : PageRequest :=
  { PageRequest.first {} with
    sort := letters.map (⟨·, .asc⟩)
    limit := 1 }

/-- The position of Ada by all keys. -/
def atLetters : Cursor :=
  ⟨letters.map fun key => (key, .int 2)⟩

end SortSchema.Sample

open SortSchema.Sample in
/-- A page sorted by more than sixteen keys hands out a token that is refused. -/
theorem PageInfo.nextCursor_refused_wide :
    wide.Stored ∧ PageInfo.ofRows wide [ada] byLetters = .ok ⟨true, some atLetters.encode⟩ ∧
      ∀ cursor, Cursor.decode atLetters.encode ≠ .ok cursor := by
  have hfinite : atLetters.Finite := by
    intro field hfield x hx
    obtain ⟨key, -, rfl⟩ := List.mem_map.1 hfield
    cases hx
  refine ⟨fun key rule hrule p => ?_, rfl, fun cursor => ?_⟩
  · rw [wide_value hrule]
    rintro ⟨⟩
  · have hfields : Cursor.maxFields < atLetters.fields.length := by decide
    rw [Cursor.decode_encode_eq (by decide) hfinite, if_pos hfields]
    split <;> rintro ⟨⟩

end FilterSql
