import FilterSql.Proofs.Json.FixedPath

/-!
# Paths to members

A path that is sent as a parameter is read by the database, and its text was made of a key that came
with a filter. `JsonPath.steps?` reads a path as the databases do: each step takes a name as far as
it goes, a label up to the first quote without a backslash before it, or an index, and all of the
text has to be steps. `JsonPath.label?_escapeLabel` is the statement to read first: a label is read
back to its closing quote, whatever characters it holds and whatever stands behind it. So the text
of a key is one step to the member of that name (`JsonPath.forKey_selects`).
-/

namespace FilterSql

namespace JsonPath

/-! ## Reading a path -/

/-- A step of a path into a document. -/
inductive Selector where
  | member (name : String)
  | item (index : Nat)
  deriving DecidableEq

/-- The name in a label behind its first quote, with what stands behind its last one. The character
behind a backslash stands for itself. -/
def label? : List Char → Option (List Char × List Char)
  | '"' :: s => some ([], s)
  | '\\' :: c :: s => (label? s).map (Prod.map (c :: ·) id)
  | ['\\'] => none
  | c :: s => (label? s).map (Prod.map (c :: ·) id)
  | [] => none

/-- Whether a character may stand in a name without quotes. -/
def isNameChar (c : Char) : Bool :=
  c.isAlphanum || c == '_'

/-- A name without quotes, which starts with no digit, with what stands behind it. -/
def plainName? (s : List Char) : Option (List Char × List Char) :=
  if s.head?.any (fun c => c.isAlpha || c == '_') then
    some (s.takeWhile isNameChar, s.dropWhile isNameChar)
  else none

/-- The step at the head of a text, with what stands behind it. -/
def step? : List Char → Option (Selector × List Char)
  | '.' :: '"' :: s => (label? s).map (Prod.map (.member ∘ String.ofList) id)
  | '.' :: s => (plainName? s).map (Prod.map (.member ∘ String.ofList) id)
  | '[' :: s => do
    let (digits, s) ← Json.Source.digits? s
    return (.item (Json.decimalValue digits), ← Json.Source.literal? [']'] s)
  | _ => none

/-- The steps that a text is made of. Each takes at least one of the `fuel` characters. -/
def stepsWithin? : Nat → List Char → Option (List Selector)
  | _, [] => some []
  | 0, _ :: _ => none
  | fuel + 1, s => do
    let (step, rest) ← step? s
    return step :: (← stepsWithin? fuel rest)

/-- The steps of a path, which stand behind a dollar sign. -/
def steps? (path : String) : Option (List Selector) :=
  match path.toList with
  | '$' :: s => stepsWithin? s.length s
  | _ => none

example : steps? "$.shelf.\"dewey \\\"no.\\\"\"[12]" =
    some [.member "shelf", .member "dewey \"no.\"", .item 12] := rfl

end JsonPath

namespace Json

/-- The part of a document that a step leads to. -/
def select : JsonPath.Selector → Json → Option Json
  | .member name, .object members => member? name members
  | .item index, .array items => items[index]?
  | _, _ => none

/-- The part of a document that some steps lead to, one after the other. -/
def follow (steps : List JsonPath.Selector) (document : Json) : Option Json :=
  steps.foldlM (fun part step => part.select step) document

end Json

namespace JsonPath

/-! ## Reading the path of a key -/

/-- A label is read back, and ends at its closing quote. -/
theorem label?_escapeLabel (s rest : List Char) :
    label? (escapeLabel s ++ '"' :: rest) = some (s, rest) := by
  induction s with
  | nil => rfl
  | cons c s ih =>
      rw [escapeLabel, List.flatMap_cons, List.append_assoc]
      split
      next =>
        -- the character is read with the backslash before it, whatever it is
        rw [List.cons_append, List.singleton_append, label?]
        exact congrArg (Option.map (Prod.map (c :: ·) id)) ih
      next hplain =>
        rw [Bool.or_eq_true, decide_eq_true_eq, decide_eq_true_eq, not_or] at hplain
        rw [List.singleton_append, label?]
        · exact congrArg (Option.map (Prod.map (c :: ·) id)) ih
        · exact hplain.1
        · exact fun _ _ h => absurd h hplain.2
        · exact fun h => absurd h hplain.2

/-- An identifier is read as a name and leaves nothing. -/
theorem plainName?_identifier {name : List Char} (h : Identifier.IsPlain name) :
    plainName? name = some (name, []) := by
  obtain ⟨head, tail, rfl, hhead, htail, -⟩ := h
  have hstart : (head.isAlpha || head == '_') = true := by simpa using hhead
  have hall : ∀ c ∈ head :: tail, isNameChar c = true := by
    refine List.forall_mem_cons.2 ⟨?_, fun c hc => by simpa [isNameChar] using htail c hc⟩
    rcases hhead with hhead | rfl
    · simp [isNameChar, Char.isAlphanum, hhead]
    · rfl
  rw [plainName?, List.takeWhile_eq_self_iff.2 hall, List.dropWhile_eq_nil_iff.2 hall]
  exact if_pos hstart

/-- The text of a key is one step, to the member of that name. -/
theorem steps?_keyText (key : String) : steps? (keyText key) = some [.member key] := by
  have hread {s : List Char} (h : step? s = some (.member key, [])) (hs : s ≠ []) :
      stepsWithin? s.length s = some [.member key] := by
    obtain ⟨fuel, hfuel⟩ := Nat.exists_eq_succ_of_ne_zero (by simpa using hs : s.length ≠ 0)
    rw [hfuel, stepsWithin?, h]
    · simp only [Option.bind_eq_bind, Option.bind_some, stepsWithin?, Option.pure_def]
    · exact hs
  unfold keyText
  split
  next hvalid =>
    have hplain := Identifier.isValid_iff.1 hvalid
    have htext : ("$." ++ key).toList = '$' :: '.' :: key.toList := by simp
    -- an identifier does not start with a quote, so the step is no label
    have hlabel : ∀ s, key.toList = '"' :: s → False := by
      rintro s hs
      rw [hs] at hvalid
      cases hvalid
    rw [steps?, htext]
    refine hread ?_ (List.cons_ne_nil _ _)
    rw [step?.eq_2 _ hlabel, plainName?_identifier hplain]
    simp
  next =>
    have htext : ("$.\"" ++ String.ofList (escapeLabel key.toList) ++ "\"").toList =
        '$' :: '.' :: '"' :: (escapeLabel key.toList ++ ['"']) := by simp
    rw [steps?, htext]
    refine hread ?_ (List.cons_ne_nil _ _)
    rw [step?, label?_escapeLabel]
    simp

/-- A key selects the member of its name and nothing else. Its path is one value in every
language; read as a path it is all one step, which leads in every document to the member of that
name, and no other key has the same path. -/
theorem forKey_selects (key : String) :
    (∀ d, (forKey key).render d = Render.bind d (.string (forKey key).text)) ∧
    steps? (forKey key).text = some [.member key] ∧
    (∀ document : Json, (steps? (forKey key).text).bind document.follow =
      document.select (.member key)) ∧
    ∀ other, forKey other = forKey key → other = key := by
  have hsteps : steps? (forKey key).text = some [.member key] := steps?_keyText key
  refine ⟨fun d => rfl, hsteps, fun document => ?_, fun other hother => ?_⟩
  · simp [hsteps, Json.follow]
  · have htext : keyText other = keyText key := congrArg text hother
    have hnames : some [Selector.member other] = some [.member key] := by
      rw [← steps?_keyText other, ← steps?_keyText key, htext]
    simpa using hnames

end JsonPath

end FilterSql
