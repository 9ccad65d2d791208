/-!
# White space and control characters

The two character classes of the Unicode standard that the library reads: `White_Space`, which
surrounds the parts of a sort specification and the items of a lenient timestamp, and the control
characters (general category `Cc`), which a JSON path label may not contain. Trimming is stated on
lists of characters; `trim_eq_nil_iff` says that only a blank text trims to nothing.
-/

namespace FilterSql.Text

/-- The characters with the property `White_Space`. -/
def isBlank (c : Char) : Bool :=
  let n := c.toNat
  (9 ≤ n && n ≤ 13) || n == 32 || n == 0x85 || n == 0xA0 || n == 0x1680 ||
    (0x2000 ≤ n && n ≤ 0x200A) || n == 0x2028 || n == 0x2029 || n == 0x202F ||
    n == 0x205F || n == 0x3000

/-- The control characters: the two blocks of 32 codes below the space and from U+0080, and
U+007F. -/
def isControl (c : Char) : Bool :=
  c.toNat < 0x20 || (0x7F ≤ c.toNat && c.toNat < 0xA0)

/-- A text without its leading white space. -/
def trimStart (s : List Char) : List Char :=
  s.dropWhile isBlank

/-- A text without its trailing white space. -/
def trimEnd (s : List Char) : List Char :=
  (s.reverse.dropWhile isBlank).reverse

/-- A text without the white space around it. -/
def trim (s : List Char) : List Char :=
  trimEnd (trimStart s)

/-- The parts of a text between the occurrences of a separator, at least one. -/
def splitOn (separator : Char) : List Char → List (List Char)
  | [] => [[]]
  | c :: rest =>
    if c = separator then [] :: splitOn separator rest
    else
      match splitOn separator rest with
      | [] => [[c]]
      | part :: parts => (c :: part) :: parts

/-- Texts with a separator between each two neighbours. -/
def join (separator : String) : List String → String
  | [] => ""
  | [s] => s
  | s :: rest => s ++ separator ++ join separator rest

/-- Splitting gives at least one part. -/
theorem splitOn_ne_nil (separator : Char) (s : List Char) : splitOn separator s ≠ [] := by
  cases s with
  | nil => simp [splitOn]
  | cons c rest =>
    by_cases h : c = separator
    · simp [splitOn, h]
    · simp only [splitOn, h, if_false]
      split <;> simp

/-- Everything is skipped exactly if all of it is to be skipped. -/
theorem dropWhile_eq_nil_iff (p : Char → Bool) (s : List Char) :
    s.dropWhile p = [] ↔ ∀ c ∈ s, p c = true := by
  induction s with
  | nil => simp
  | cons c rest ih =>
    by_cases h : p c = true
    · simp [h, ih]
    · simp [h]

/-- Only a text of white space trims to the empty text. -/
theorem trim_eq_nil_iff (s : List Char) : trim s = [] ↔ ∀ c ∈ s, isBlank c = true := by
  have key : ∀ t : List Char, trimEnd t = [] ↔ ∀ c ∈ t, isBlank c = true := fun t => by
    simp only [trimEnd, List.reverse_eq_nil_iff, dropWhile_eq_nil_iff, List.mem_reverse]
  rw [trim, key]
  constructor
  · intro h
    induction s with
    | nil => simp
    | cons c rest ih =>
      by_cases hc : isBlank c = true
      · simp only [trimStart, List.dropWhile_cons, hc, if_true] at h ih
        simpa [hc] using ih h
      · simp only [trimStart, List.dropWhile_cons, hc] at h
        simpa using h
  · intro h c hc
    exact h c ((List.dropWhile_sublist _).subset hc)

end FilterSql.Text
