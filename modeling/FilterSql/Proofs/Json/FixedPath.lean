import FilterSql.Proofs.Sql.Placeholders
import FilterSql.Sql.Render
import Mathlib.Data.List.TakeWhile

/-!
# The grammar of fixed paths

Which texts are fixed paths, without the scanner: `FixedPath.Step` is a step of a path as it is
written, and `FixedPath.Step.IsPlain` says what may stand in it. `FixedPath.round?` is one round of
the scanner. `FixedPath.round?_eq_some` is the statement to read first: a round takes exactly one
step off, and a name is taken as far as it goes. The characters that the scanner looks for are in
no step but at its end, so a text has one reading as steps at most.

`Dialect.literal?` reads a string literal as the databases do. A fixed path holds no character that
means anything in quotes, so all of it is read back and the literal ends where the path does.
-/

namespace FilterSql

/-- A text of ASCII characters has one octet for each. -/
theorem Text.utf8ByteSize_of_ascii {s : List Char} (h : ∀ c ∈ s, c.val ≤ 127) :
    (String.ofList s).utf8ByteSize = s.length := by
  induction s with
  | nil => rfl
  | cons c s ih =>
      obtain ⟨hc, hs⟩ := List.forall_mem_cons.1 h
      rw [String.ofList_cons, String.utf8ByteSize_append, String.utf8ByteSize_singleton,
        Char.utf8Size_eq_one_iff.2 hc, ih hs, List.length_cons, Nat.add_comm]

/-! ## Identifiers -/

/-- A name as SQL has it: an ASCII letter or an underscore, then letters, digits and underscores,
63 octets at most. -/
def Identifier.IsPlain (name : List Char) : Prop :=
  ∃ head tail, name = head :: tail ∧ (head.isAlpha = true ∨ head = '_') ∧
    (∀ c ∈ tail, c.isAlphanum = true ∨ c = '_') ∧ (String.ofList name).utf8ByteSize ≤ 63

namespace Identifier

/-- A name starts with a letter or an underscore. -/
theorem isHead_iff {c : Char} : isHead c = true ↔ c.isAlpha = true ∨ c = '_' := by
  have hletter : c.isAlpha = (decide ('A'.val ≤ c.val ∧ c.val ≤ 'Z'.val) ||
      (decide ('a'.val ≤ c.val) && decide (c.val ≤ 'z'.val))) := rfl
  simp only [isHead, hletter, Bool.or_eq_true, Bool.and_eq_true, decide_eq_true_eq, Char.le_def]
  rw [or_comm (a := 'A'.val ≤ c.val ∧ c.val ≤ 'Z'.val)]

/-- A name goes on with letters, digits and underscores. -/
theorem isTail_iff {c : Char} : isTail c = true ↔ c.isAlphanum = true ∨ c = '_' := by
  simp only [isTail, isHead_iff, Char.isAlphanum, Char.isDigit, Bool.or_eq_true, Bool.and_eq_true,
    decide_eq_true_eq, Char.le_def, ge_iff_le]
  rw [or_right_comm]

/-- The characters of a name are in ASCII. -/
theorem isAscii_of_isTail {c : Char} (h : isTail c = true) : c.val ≤ 127 := by
  simp only [isTail, isHead, Bool.or_eq_true, Bool.and_eq_true, decide_eq_true_eq,
    Char.le_def] at h
  obtain ((⟨-, hc⟩ | ⟨-, hc⟩) | rfl) | ⟨-, hc⟩ := h
  · exact UInt32.le_trans hc (by decide)
  · exact UInt32.le_trans hc (by decide)
  · decide
  · exact UInt32.le_trans hc (by decide)

/-- The names that are checked are those of the grammar. -/
theorem isValid_iff {name : List Char} : isValid name = true ↔ IsPlain name := by
  cases name with
  | nil => simp [isValid, IsPlain]
  | cons head tail =>
      have hsize (hhead : isHead head = true) (htail : ∀ c ∈ tail, isTail c = true) :
          (String.ofList (head :: tail)).utf8ByteSize = tail.length + 1 :=
        Text.utf8ByteSize_of_ascii (List.forall_mem_cons.2
          ⟨isAscii_of_isTail (by simp [isTail, hhead]), fun c hc => isAscii_of_isTail (htail c hc)⟩)
      simp only [isValid, Bool.and_eq_true, List.all_eq_true, decide_eq_true_eq]
      constructor
      · rintro ⟨⟨hhead, htail⟩, hlength⟩
        refine ⟨head, tail, rfl, isHead_iff.1 hhead, fun c hc => isTail_iff.1 (htail c hc), ?_⟩
        rw [hsize hhead htail]
        omega
      · rintro ⟨_, _, heq, hhead, htail, hlength⟩
        cases heq
        have hhead' := isHead_iff.2 hhead
        have htail' : ∀ c ∈ tail, isTail c = true := fun c hc => isTail_iff.2 (htail c hc)
        rw [hsize hhead' htail'] at hlength
        exact ⟨⟨hhead', htail'⟩, by omega⟩

end Identifier

/-! ## Steps -/

namespace FixedPath

/-- A step of a path: a name behind a point, a label in quotes behind a point, or an index in
brackets. -/
inductive Step where
  | name (text : List Char)
  | label (text : List Char)
  | index (digits : List Char)

namespace Step

/-- The characters of a step. -/
def chars : Step → List Char
  | name text => '.' :: text
  | label text => '.' :: '"' :: (text ++ ['"'])
  | index digits => '[' :: (digits ++ [']'])

/-- Whether a step holds what may stand in a step of its kind. -/
def IsPlain : Step → Prop
  | name text => Identifier.IsPlain text
  | label text =>
    text ≠ [] ∧ ∀ c ∈ text, c ≠ '"' ∧ c ≠ '\'' ∧ c ≠ '\\' ∧ Text.isControl c = false
  | index digits => digits ≠ [] ∧ ∀ c ∈ digits, c.isDigit = true

/-- Whether a step ends where a text follows it: a name goes on to the next step. -/
def EndsBefore : Step → List Char → Prop
  | name _, behind => ∀ c, behind.head? = some c → c = '.' ∨ c = '['
  | _, _ => True

/-- Another step starts with the character that a name ends at. -/
theorem endsBefore_steps (step : Step) (steps : List Step) :
    step.EndsBefore (steps.flatMap chars) := by
  cases step with
  | label | index => trivial
  | name =>
      intro c hc
      cases steps with
      | nil => simp at hc
      | cons next _ =>
          cases next with
          | name | label => exact .inl (by simpa [chars, eq_comm] using hc)
          | index => exact .inr (by simpa [chars, eq_comm] using hc)

end Step

/-- What stands behind the first `stop` of a text, if the text before it is admitted. -/
def behind? (stop : Char) (admits : List Char → Bool) (s : List Char) : Option (List Char) :=
  match s.dropWhile (· != stop) with
  | _ :: rest => if admits (s.takeWhile (· != stop)) then some rest else none
  | [] => none

/-- One round of the scanner: the text behind the step that a text starts with. -/
def round? : List Char → Option (List Char)
  | '.' :: '"' :: s => behind? '"' (fun label => !label.isEmpty && label.all isLabelChar) s
  | '.' :: s =>
    let inName := fun c => c != '.' && c != '['
    if Identifier.isValid (s.takeWhile inName) then some (s.dropWhile inName) else none
  | '[' :: s => behind? ']' (fun index => !index.isEmpty && index.all Char.isDigit) s
  | _ => none

/-- What is read of the text behind it, as the scanner writes it. -/
theorem any_behind? (stop : Char) (admits : List Char → Bool) (s : List Char)
    (p : List Char → Bool) :
    (behind? stop admits s).any p =
      match s.dropWhile (· != stop) with
      | _ :: rest => admits (s.takeWhile (· != stop)) && p rest
      | [] => false := by
  rw [behind?]
  split
  next => split <;> simp_all
  next => rfl

/-- The scanner goes on with what one round leaves. -/
theorem areSteps_succ (fuel : Nat) {s : List Char} (hs : s ≠ []) :
    areSteps (fuel + 1) s = (round? s).any (areSteps fuel) := by
  fun_cases round? s with
  | case1 s =>
      rw [areSteps]
      exact (any_behind? '"' (fun label => !label.isEmpty && label.all isLabelChar) s _).symm
  | case2 s hlabel inName hname => simp [areSteps, inName, hname]
  | case3 s hlabel inName hname => simp [areSteps, inName, hname]
  | case4 s =>
      rw [areSteps]
      exact (any_behind? ']' (fun index => !index.isEmpty && index.all Char.isDigit) s _).symm
  | case5 s hlabel hname hindex =>
      rw [areSteps]
      · rfl
      all_goals assumption

/-- A text up to the first `stop` is the one that holds no `stop`. -/
theorem behind?_eq_some {stop : Char} {admits : List Char → Bool} {s t : List Char} :
    behind? stop admits s = some t ↔
      ∃ text, admits text = true ∧ stop ∉ text ∧ s = text ++ stop :: t := by
  have hmem (text : List Char) : stop ∉ text ↔ ∀ c ∈ text, (c != stop) = true := by
    simp only [bne_iff_ne]
    exact ⟨fun h c hc hstop => h (hstop ▸ hc), fun h hstop => h stop hstop rfl⟩
  rw [behind?]
  constructor
  · intro h
    split at h
    next head rest hdrop =>
      split at h
      next hadmits =>
        cases h
        have hhead := List.head?_dropWhile_not (· != stop) s
        rw [hdrop] at hhead
        obtain rfl : head = stop := by simpa using hhead
        refine ⟨_, hadmits, (hmem _).2 fun c hc => ?_, ?_⟩
        · exact List.mem_takeWhile_imp (p := (· != head)) hc
        · rw [← hdrop, List.takeWhile_append_dropWhile]
      next => cases h
    next => cases h
  · rintro ⟨text, hadmits, hstop, rfl⟩
    have htext := (hmem text).1 hstop
    rw [List.dropWhile_append_of_pos htext, List.takeWhile_append_of_pos htext,
      List.dropWhile_cons_of_neg (by simp), List.takeWhile_cons_of_neg (by simp), List.append_nil]
    exact if_pos hadmits

/-- The labels that are admitted are those of the grammar. -/
theorem admits_label {label : List Char} :
    (!label.isEmpty && label.all isLabelChar) = true ∧ '"' ∉ label ↔
      (Step.label label).IsPlain := by
  simp only [Step.IsPlain, isLabelChar, Bool.and_eq_true, List.all_eq_true, bne_iff_ne,
    Bool.not_eq_true', List.isEmpty_eq_false_iff]
  constructor
  · rintro ⟨⟨hne, hchars⟩, hquote⟩
    exact ⟨hne, fun c hc => ⟨fun h => hquote (h ▸ hc), (hchars c hc).1.1, (hchars c hc).1.2,
      (hchars c hc).2⟩⟩
  · rintro ⟨hne, hchars⟩
    exact ⟨⟨hne, fun c hc => ⟨⟨(hchars c hc).2.1, (hchars c hc).2.2.1⟩, (hchars c hc).2.2.2⟩⟩,
      fun h => (hchars _ h).1 rfl⟩

/-- The digits that are admitted are those of the grammar. -/
theorem admits_index {digits : List Char} :
    (!digits.isEmpty && digits.all Char.isDigit) = true ∧ ']' ∉ digits ↔
      (Step.index digits).IsPlain := by
  simp only [Step.IsPlain, Bool.and_eq_true, List.all_eq_true, Bool.not_eq_true',
    List.isEmpty_eq_false_iff]
  exact ⟨And.left, fun h => ⟨h, fun hstop => absurd (h.2 _ hstop) (by decide)⟩⟩

/-- A name is taken as far as it goes. -/
theorem round?_name {text t : List Char} (hvalid : Identifier.isValid text = true)
    (hends : (Step.name text).EndsBefore t) : round? ('.' :: (text ++ t)) = some t := by
  have htail : ∀ c ∈ text, Identifier.isTail c = true := fun c hc =>
    Identifier.isTail_of_mem ⟨String.ofList text, by simpa using hvalid⟩ c (by simpa using hc)
  have hname : ∀ c ∈ text, (c != '.' && c != '[') = true := by
    intro c hc
    rw [Bool.and_eq_true, bne_iff_ne, bne_iff_ne]
    constructor <;> rintro rfl <;> exact absurd (htail _ hc) (by decide)
  have hstop : t.takeWhile (fun c => c != '.' && c != '[') = [] ∧
      t.dropWhile (fun c => c != '.' && c != '[') = t := by
    cases t with
    | nil => exact ⟨rfl, rfl⟩
    | cons c t => obtain rfl | rfl := hends c rfl <;> exact ⟨rfl, rfl⟩
  -- a name starts with no quote, so the step is not read as a label
  have hlabel : ∀ s, text ++ t = '"' :: s → False := by
    intro s hs
    cases text with
    | nil => cases hvalid
    | cons c text =>
        cases hs
        exact absurd (htail _ List.mem_cons_self) (by decide)
  rw [round?.eq_2 _ hlabel, List.takeWhile_append_of_pos hname,
    List.dropWhile_append_of_pos hname, hstop.1, hstop.2, List.append_nil, if_pos hvalid]

/-- One round takes one step off, and a name is taken as far as it goes. -/
theorem round?_eq_some {s t : List Char} :
    round? s = some t ↔ ∃ step : Step, step.IsPlain ∧ step.EndsBefore t ∧ s = step.chars ++ t := by
  constructor
  · intro h
    fun_cases round? s with
    | case1 s =>
        rw [round?, behind?_eq_some] at h
        obtain ⟨text, hadmits, hquote, rfl⟩ := h
        exact ⟨.label text, admits_label.1 ⟨hadmits, hquote⟩, trivial, by simp [Step.chars]⟩
    | case2 s hlabel inName hname =>
        obtain rfl : s.dropWhile inName = t := by simpa [round?, inName, hname] using h
        refine ⟨.name _, Identifier.isValid_iff.1 hname, fun c hc => ?_, ?_⟩
        · have hstop := List.head?_dropWhile_not inName s
          rw [hc] at hstop
          simpa [inName, or_iff_not_imp_left] using hstop
        · rw [Step.chars, List.cons_append, List.takeWhile_append_dropWhile]
    | case3 s hlabel inName hname => simp [round?, inName, hname] at h
    | case4 s =>
        rw [round?, behind?_eq_some] at h
        obtain ⟨digits, hadmits, hstop, rfl⟩ := h
        exact ⟨.index digits, admits_index.1 ⟨hadmits, hstop⟩, trivial, by simp [Step.chars]⟩
    | case5 s hlabel hname hindex => simp [round?] at h
  · rintro ⟨step, hplain, hends, rfl⟩
    cases step with
    | name text => exact round?_name (Identifier.isValid_iff.2 hplain) hends
    | label text =>
        obtain ⟨hadmits, hquote⟩ := admits_label.2 hplain
        have htext : (Step.label text).chars ++ t = '.' :: '"' :: (text ++ '"' :: t) := by
          simp [Step.chars]
        rw [htext, round?, behind?_eq_some]
        exact ⟨text, hadmits, hquote, rfl⟩
    | index digits =>
        obtain ⟨hadmits, hstop⟩ := admits_index.2 hplain
        have htext : (Step.index digits).chars ++ t = '[' :: (digits ++ ']' :: t) := by
          simp [Step.chars]
        rw [htext, round?, behind?_eq_some]
        exact ⟨digits, hadmits, hstop, rfl⟩

/-- Every round gets ahead. -/
theorem length_of_round? {s t : List Char} (h : round? s = some t) : t.length < s.length := by
  obtain ⟨step, -, -, rfl⟩ := round?_eq_some.1 h
  cases step <;> simp [Step.chars] <;> omega

/-! ## Paths -/

/-- With a unit of fuel for each character the scanner reads exactly the texts that are made of
plain steps. -/
theorem areSteps_iff {fuel : Nat} {s : List Char} (hfuel : s.length ≤ fuel) :
    areSteps fuel s = true ↔
      ∃ steps : List Step, (∀ step ∈ steps, step.IsPlain) ∧ s = steps.flatMap Step.chars := by
  induction fuel generalizing s with
  | zero =>
      obtain rfl : s = [] := List.eq_nil_of_length_eq_zero (Nat.le_zero.1 hfuel)
      exact ⟨fun _ => ⟨[], by simp⟩, fun _ => rfl⟩
  | succ fuel ih =>
      by_cases hs : s = []
      · subst hs
        exact ⟨fun _ => ⟨[], by simp⟩, fun _ => by rw [areSteps]⟩
      rw [areSteps_succ fuel hs, Option.any_eq_true]
      constructor
      · rintro ⟨t, hround, hrest⟩
        have hlength := length_of_round? hround
        obtain ⟨step, hplain, -, rfl⟩ := round?_eq_some.1 hround
        obtain ⟨steps, hsteps, rfl⟩ := (ih (by omega)).1 hrest
        exact ⟨step :: steps, List.forall_mem_cons.2 ⟨hplain, hsteps⟩, rfl⟩
      · rintro ⟨steps, hsteps, rfl⟩
        cases steps with
        | nil => exact absurd rfl hs
        | cons step steps =>
            obtain ⟨hplain, hsteps⟩ := List.forall_mem_cons.1 hsteps
            have hround : round? ((step :: steps).flatMap Step.chars) =
                some (steps.flatMap Step.chars) :=
              round?_eq_some.2 ⟨step, hplain, step.endsBefore_steps steps, rfl⟩
            have hlength := length_of_round? hround
            exact ⟨_, hround, (ih (by omega)).2 ⟨steps, hsteps, rfl⟩⟩

/-- The fuel never runs out: behind each round there is enough of it for what is left. -/
theorem areSteps_length {s : List Char} (hs : s ≠ []) :
    areSteps s.length s = (round? s).any fun t => areSteps t.length t := by
  obtain ⟨fuel, hfuel⟩ := Nat.exists_eq_succ_of_ne_zero (by simpa using hs : s.length ≠ 0)
  rw [hfuel, areSteps_succ fuel hs]
  cases hround : round? s with
  | none => rfl
  | some t =>
      have hlength := length_of_round? hround
      have hleft : areSteps fuel t = true ↔ areSteps t.length t = true := by
        rw [areSteps_iff (by omega), areSteps_iff le_rfl]
      exact Bool.eq_iff_iff.2 hleft

end FixedPath

/-! ## String literals -/

namespace Dialect

/-- Whether a backslash escapes in a literal. -/
def escapes : Dialect → Bool
  | mysql => true
  | _ => false

/-- What a character behind a backslash stands for in a MySQL literal. -/
def escaped : Char → List Char
  | '0' => ['\x00']
  | 'b' => ['\x08']
  | 'n' => ['\n']
  | 'r' => ['\x0d']
  | 't' => ['\t']
  | 'Z' => ['\x1a']
  | '%' => ['\\', '%']
  | '_' => ['\\', '_']
  | c => [c]

/-- The content of a string literal behind its first quote, and what stands behind its last one.
A quote is doubled in a literal. -/
def literalBehind? (d : Dialect) : List Char → Option (List Char × List Char)
  | [] => none
  | c :: s =>
    if c = '\'' then
      match s with
      | '\'' :: s => (d.literalBehind? s).map (Prod.map (['\''] ++ ·) id)
      | _ => some ([], s)
    else if c = '\\' ∧ d.escapes = true then
      match s with
      | [] => none
      | c :: s => (d.literalBehind? s).map (Prod.map (escaped c ++ ·) id)
    else (d.literalBehind? s).map (Prod.map ([c] ++ ·) id)

/-- The content of the string literal that a text starts with, and what stands behind it. -/
def literal? (d : Dialect) : List Char → Option (List Char × List Char)
  | '\'' :: s => d.literalBehind? s
  | _ => none

/-- A text without quotes and backslashes is read as it is, up to the quote behind it. -/
theorem literalBehind?_inert (d : Dialect) {s behind : List Char}
    (hs : ∀ c ∈ s, c ≠ '\'' ∧ c ≠ '\\') (hbehind : behind.head? ≠ some '\'') :
    d.literalBehind? (s ++ '\'' :: behind) = some (s, behind) := by
  induction s with
  | nil =>
      rw [List.nil_append, literalBehind?.eq_def]
      dsimp only
      rw [if_pos rfl]
      split
      · exact absurd rfl hbehind
      · rfl
  | cons c s ih =>
      obtain ⟨⟨hquote, hslash⟩, hs⟩ := List.forall_mem_cons.1 hs
      rw [List.cons_append, literalBehind?.eq_def]
      dsimp only
      rw [if_neg hquote, if_neg fun h => hslash h.1, ih hs]
      rfl

end Dialect

/-! ## The grammar -/

namespace FixedPath

/-- A text is a fixed path exactly if it has 256 octets at most and is a dollar sign with plain
steps behind it. The scanner ends on every text: each round leaves less, and the fuel it is given
never runs out before the text does. A fixed path in its quotes is one string literal of its own
characters in every language, whatever stands behind it but a quote. -/
theorem isValid_grammar (text : String) :
    (isValid text = true ↔
      text.utf8ByteSize ≤ 256 ∧
        ∃ steps : List Step, (∀ step ∈ steps, step.IsPlain) ∧
          text.toList = '$' :: steps.flatMap Step.chars) ∧
    (∀ s t, round? s = some t → t.length < s.length) ∧
    (∀ s, s ≠ [] → areSteps s.length s = (round? s).any fun t => areSteps t.length t) ∧
    ∀ (h : isValid text = true) (d : Dialect),
      (JsonPath.fixed ⟨text, h⟩).render d = pure ("'" ++ text ++ "'") ∧
      ∀ behind : List Char, behind.head? ≠ some '\'' →
        d.literal? (("'" ++ text ++ "'").toList ++ behind) = some (text.toList, behind) := by
  refine ⟨?_, fun s t => length_of_round?, fun s => areSteps_length, fun h d => ⟨rfl, ?_⟩⟩
  · rw [isValid, Bool.and_eq_true, decide_eq_true_eq]
    refine and_congr_right fun _ => ?_
    split
    next steps htext =>
      rw [htext, areSteps_iff le_rfl]
      simp only [List.cons.injEq, true_and]
    next hdollar =>
      refine ⟨fun h => absurd h Bool.false_ne_true, ?_⟩
      rintro ⟨steps, -, htext⟩
      exact absurd htext (hdollar _)
  · intro behind hbehind
    have htext : ("'" ++ text ++ "'").toList ++ behind =
        '\'' :: (text.toList ++ '\'' :: behind) := by simp
    rw [htext]
    exact d.literalBehind?_inert (FixedPath.inert ⟨text, h⟩) hbehind

/-- A path with a step of each kind is read so. -/
theorem isValid_grammar_shelf :
    let text := "$.shelf.\"dewey no.\"[12]"
    isValid text = true ∧
      Dialect.mysql.literal? (("'" ++ text ++ "'").toList ++ [')']) =
        some (text.toList, [')']) := by
  have hvalid : isValid "$.shelf.\"dewey no.\"[12]" = true := by decide
  exact ⟨hvalid, ((isValid_grammar _).2.2.2 hvalid .mysql).2 [')'] (by decide)⟩

example : isValid "$.a' OR 1=1" = false := by decide

end FixedPath

end FilterSql
