import FilterSql.Proofs.Sql.Placeholders

/-!
# The tokens of a text

How a reader takes SQL text apart: words, single marks, and the characters in quotes.
`Dialect.tokens_append` reads two texts that stand side by side one after the other, unless a word
goes on from one into the other.

`Dialect.Nests` says that a text closes its quotes and its parentheses, and that reserved words
stand in parentheses only. Texts are put together as `Dialect.Shows` puts them together:
`Dialect.Stops` adds that no word can go on behind the text, and a literal text stands between two
others if it starts and ends with a mark or a blank.
-/

namespace FilterSql

/-- Where a reader of a text is: outside of quotes, within them, or behind a backslash within
them. -/
inductive Mode where
  | plain
  | quoted (quote : Char)
  | escaped (quote : Char)
  deriving DecidableEq

/-- What a reader takes a text apart into. -/
inductive Token where
  | word (chars : List Char)
  | quoted (char : Char)
  | mark (char : Char)
  deriving DecidableEq

namespace Token

/-- Whether a character may stand in a word. -/
def isWordChar (c : Char) : Bool :=
  c.isAlphanum || c == '_' || c == '$' || 128 ≤ c.toNat

/-- Whether a token is a word, in upper or lower case. -/
def isWord (name : String) : Token → Bool
  | .word chars => chars.map Char.toLower == name.toList.map Char.toLower
  | _ => false

/-- A character is put before the word that the tokens start with. -/
def extend (c : Char) : List Token → List Token
  | .word chars :: rest => .word (c :: chars) :: rest
  | tokens => .word [c] :: tokens

end Token

/-- Whether a text starts with a character of a word. -/
def startsInWord (s : List Char) : Bool :=
  s.head?.any Token.isWordChar

/-- Whether a text ends with a character of a word. -/
def endsInWord (s : List Char) : Bool :=
  s.getLast?.any Token.isWordChar

/-- A text ends as its last part does. -/
theorem endsInWord_append {s t : List Char} (ht : t ≠ []) :
    endsInWord (s ++ t) = endsInWord t := by
  rw [endsInWord, List.getLast?_append, List.getLast?_eq_some_getLast ht, Option.some_or,
    endsInWord, List.getLast?_eq_some_getLast ht]

/-- The words that may stand in parentheses only. -/
inductive Reserved where
  | nothing
  | connectives
  | operators
  deriving DecidableEq

namespace Reserved

/-- The list of the reserved words. -/
def words : Reserved → List String
  | nothing => []
  | connectives => ["AND", "OR"]
  | operators => ["AND", "OR", "NOT"]

/-- Whether a token is a reserved word. -/
def holds (r : Reserved) (t : Token) : Bool :=
  r.words.any t.isWord

/-- All words that are reserved in the first way are reserved in the second one. -/
instance : LE Reserved where
  le r r' := ∀ t, r.holds t = true → r'.holds t = true

/-- The number of parentheses that are open behind a token, if it may stand where it does. -/
def step (r : Reserved) (depth : Nat) (t : Token) : Option Nat :=
  if t = .mark '(' then some (depth + 1)
  else if t = .mark ')' then
    match depth with
    | 0 => none
    | depth + 1 => some depth
  else if depth = 0 ∧ r.holds t then none
  else some depth

/-- The number of parentheses that are open behind a list of tokens. -/
def depth (r : Reserved) (start : Nat) (tokens : List Token) : Option Nat :=
  tokens.foldlM r.step start

variable {r r' : Reserved} {i j k : Nat} {t : Token} {ts us : List Token}

/-- Parentheses are counted through two lists of tokens one after the other. -/
theorem depth_append :
    r.depth i (ts ++ us) = (r.depth i ts).bind fun j => r.depth j us :=
  List.foldlM_append

/-- Parentheses are counted token by token. -/
theorem depth_cons : r.depth i (t :: ts) = (r.step i t).bind fun j => r.depth j ts :=
  List.foldlM_cons

/-- What a single token does to the open parentheses. -/
theorem step_eq_some : r.step i t = some j ↔
    (t = .mark '(' ∧ j = i + 1) ∨ (t = .mark ')' ∧ i = j + 1) ∨
      ((t ≠ .mark '(' ∧ t ≠ .mark ')') ∧ (i = 0 → r.holds t = false) ∧ j = i) := by
  unfold step
  split
  next hopen => simpa [hopen] using eq_comm
  next hopen =>
    split
    next hclose => cases i <;> simp [hclose]
    next hclose =>
      split
      next hheld => simp [hopen, hclose, hheld]
      next hheld =>
        have hfree : i = 0 → r.holds t = false := by simpa using hheld
        simpa [hopen, hclose, and_iff_right hfree] using eq_comm

/-- A token that is neither a parenthesis nor reserved leaves the count as it is. -/
theorem step_of_free (hopen : t ≠ .mark '(') (hclose : t ≠ .mark ')')
    (hfree : r.holds t = false) : r.step i t = some i :=
  step_eq_some.2 (.inr (.inr ⟨⟨hopen, hclose⟩, fun _ => hfree, rfl⟩))

/-- What nests nests where fewer words are reserved. -/
theorem depth_mono (hr : r ≤ r') (h : r'.depth i ts = some j) : r.depth i ts = some j := by
  induction ts generalizing i with
  | nil => exact h
  | cons t ts ih =>
      rw [depth_cons, Option.bind_eq_some_iff] at h ⊢
      obtain ⟨k, hstep, hrest⟩ := h
      refine ⟨k, ?_, ih hrest⟩
      rw [step_eq_some] at hstep ⊢
      refine hstep.imp id (.imp id fun ⟨hmark, hfree, hk⟩ => ⟨hmark, fun hi => ?_, hk⟩)
      exact Bool.eq_false_iff.2 fun ht => absurd (hr t ht) (by simp [hfree hi])

/-- Within one more pair of parentheses every word may stand. -/
theorem depth_lift (h : r.depth i ts = some j) : r'.depth (i + 1) ts = some (j + 1) := by
  induction ts generalizing i with
  | nil =>
      cases h
      rfl
  | cons t ts ih =>
      rw [depth_cons, Option.bind_eq_some_iff] at h ⊢
      obtain ⟨k, hstep, hrest⟩ := h
      refine ⟨k + 1, ?_, ih hrest⟩
      rw [step_eq_some] at hstep ⊢
      obtain ⟨hopen, rfl⟩ | ⟨hclose, rfl⟩ | ⟨hmark, -, rfl⟩ := hstep
      · exact .inl ⟨hopen, rfl⟩
      · exact .inr (.inl ⟨hclose, rfl⟩)
      · exact .inr (.inr ⟨hmark, fun hi => absurd hi (Nat.succ_ne_zero _), rfl⟩)

/-- Where no word is reserved every other list reserves more. -/
theorem nothing_le (r : Reserved) : nothing ≤ r := fun _ h => nomatch h

/-- The operators are all the words that are ever reserved. -/
theorem le_operators (r : Reserved) : r ≤ operators := by
  intro t h
  cases r with
  | nothing => cases h
  | operators => exact h
  | connectives =>
      simp only [holds, words, List.any_cons, List.any_nil, Bool.or_false, Bool.or_eq_true] at h ⊢
      exact h.imp id .inl

end Reserved

namespace Dialect

/-- The place of a reader behind a character. Only MySQL takes the backslash as an escape, and not
in the quotes of a name. -/
def next (d : Dialect) : Mode → Char → Mode
  | .plain, c => if c = '\'' ∨ c = '"' ∨ c = '\x60' then .quoted c else .plain
  | .quoted quote, c =>
    if c = quote then .plain
    else if c = '\\' ∧ d = mysql ∧ quote ≠ '\x60' then .escaped quote
    else .quoted quote
  | .escaped quote, _ => .quoted quote

/-- The place of a reader behind a text. -/
def modeAfter (d : Dialect) (m : Mode) (s : List Char) : Mode :=
  s.foldl d.next m

/-- The tokens of a text; blanks separate words and are left out. -/
def tokens (d : Dialect) : Mode → List Char → List Token
  | _, [] => []
  | m, c :: rest =>
    let behind := d.tokens (d.next m c) rest
    if m = .plain ∧ d.next m c = .plain then
      if Token.isWordChar c then
        if startsInWord rest then Token.extend c behind else .word [c] :: behind
      else if Text.isBlank c then behind
      else .mark c :: behind
    else .quoted c :: behind

/-- A text closes its quotes, leads from a number of open parentheses to another one, and holds the
reserved words in parentheses only. -/
structure Nests (d : Dialect) (r : Reserved) (text : String) (i j : Nat) : Prop where
  closed : d.modeAfter .plain text.toList = .plain
  depth : r.depth i (d.tokens .plain text.toList) = some j

/-- A text that nests, behind which no word goes on. -/
structure Stops (d : Dialect) (r : Reserved) (text : String) (i j : Nat) : Prop
    extends d.Nests r text i j where
  apart : endsInWord text.toList = false

/-- Whether a text nests in every language. -/
def isNested (r : Reserved) (i j : Nat) (text : String) : Bool :=
  every.all fun d =>
    d.modeAfter .plain text.toList = .plain && r.depth i (d.tokens .plain text.toList) == some j

/-- Whether a text nests and can start another one. -/
def isHead (r : Reserved) (i j : Nat) (text : String) : Bool :=
  isNested r i j text && !endsInWord text.toList

/-- Whether a text nests and can end another one. -/
def isTail (r : Reserved) (i j : Nat) (text : String) : Bool :=
  isNested r i j text && !startsInWord text.toList

/-- Whether a text nests and can stand between two others. -/
def isBetween (r : Reserved) (i j : Nat) (text : String) : Bool :=
  isHead r i j text && !startsInWord text.toList && !text.toList.isEmpty

variable {d : Dialect} {r r' : Reserved} {s t : String} {i j k : Nat}

/-! ## Reading tokens -/

/-- The place behind two texts is that behind the second, from behind the first. -/
theorem modeAfter_append (m : Mode) (s t : List Char) :
    d.modeAfter m (s ++ t) = d.modeAfter (d.modeAfter m s) t :=
  List.foldl_append

/-- A character of a word is no quote. -/
theorem next_plain_of_isWordChar {c : Char} (h : Token.isWordChar c = true) :
    d.next .plain c = .plain := by
  rw [next, if_neg]
  rintro (rfl | rfl | rfl) <;> exact absurd h (by decide)

/-- What starts with a character of a word is read as a word. -/
theorem tokens_startsInWord {s : List Char} (h : startsInWord s = true) :
    ∃ chars rest, d.tokens .plain s = .word chars :: rest := by
  cases s with
  | nil => simp [startsInWord] at h
  | cons c s =>
      have hc : Token.isWordChar c = true := by simpa [startsInWord] using h
      rw [tokens, next_plain_of_isWordChar hc, if_pos ⟨rfl, rfl⟩, if_pos hc]
      split
      · cases d.tokens .plain s with
        | nil => exact ⟨_, _, rfl⟩
        | cons token rest => cases token <;> exact ⟨_, _, rfl⟩
      · exact ⟨_, _, rfl⟩

/-- Two texts are read one after the other, unless a word goes on from one into the other. -/
theorem tokens_append {s t : List Char} (h : endsInWord s = false ∨ startsInWord t = false)
    (m : Mode) : d.tokens m (s ++ t) = d.tokens m s ++ d.tokens (d.modeAfter m s) t := by
  induction s generalizing m with
  | nil => rfl
  | cons c s ih =>
      have hrest : endsInWord s = false ∨ startsInWord t = false := by
        cases s with
        | nil => exact .inl rfl
        | cons c' s => simpa [endsInWord] using h
      have hnext : d.modeAfter m (c :: s) = d.modeAfter (d.next m c) s := rfl
      rw [List.cons_append, tokens, tokens, ih hrest, hnext]
      split
      next hplain =>
        split
        next hc =>
          have hstart : startsInWord (s ++ t) = startsInWord s := by
            cases s with
            | cons c' s => rfl
            | nil => simpa [endsInWord, startsInWord, hc] using h
          rw [hstart]
          split
          next hs =>
            obtain ⟨chars, rest, htokens⟩ := d.tokens_startsInWord hs
            rw [hplain.2, htokens]
            rfl
          next => rfl
        next => split <;> rfl
      next => rfl

/-- A run of word characters is one word. -/
theorem tokens_word {s : List Char} (hs : s ≠ []) (h : ∀ c ∈ s, Token.isWordChar c = true) :
    d.modeAfter .plain s = .plain ∧ d.tokens .plain s = [.word s] := by
  induction s with
  | nil => exact absurd rfl hs
  | cons c s ih =>
      obtain ⟨hc, hs'⟩ := List.forall_mem_cons.1 h
      have hnext := d.next_plain_of_isWordChar hc
      have hmode : d.modeAfter .plain (c :: s) = d.modeAfter .plain s := by
        rw [modeAfter, List.foldl_cons, hnext]
        rfl
      rw [hmode, tokens, hnext, if_pos ⟨rfl, rfl⟩, if_pos hc]
      cases s with
      | nil => exact ⟨rfl, rfl⟩
      | cons c' s =>
          have hstart : startsInWord (c' :: s) = true := by
            simpa [startsInWord] using hs' c' List.mem_cons_self
          obtain ⟨hplain, hword⟩ := ih (by simp) hs'
          rw [if_pos hstart, hword]
          exact ⟨hplain, rfl⟩

/-! ## Pieces of text -/

/-- The empty text nests. -/
theorem nests_empty : d.Nests r "" i i := ⟨rfl, rfl⟩

/-- These are all dialects. -/
theorem mem_every (d : Dialect) : d ∈ every := by
  cases d <;> simp [every]

/-- A text that nests in all dialects nests in each. -/
theorem isNested_nests (h : isNested r i j s = true) : d.Nests r s i j := by
  have hread := List.all_eq_true.1 h d d.mem_every
  rw [Bool.and_eq_true, decide_eq_true_iff, beq_iff_eq] at hread
  exact ⟨hread.1, hread.2⟩

/-- A text that nests with more reserved words nests with fewer. -/
theorem Nests.mono (h : d.Nests r' s i j) (hr : r ≤ r') : d.Nests r s i j :=
  ⟨h.closed, Reserved.depth_mono hr h.depth⟩

/-- A text that nests does so within more parentheses. -/
theorem Nests.lift (h : d.Nests r s i j) : d.Nests r s (i + 1) (j + 1) :=
  ⟨h.closed, Reserved.depth_lift h.depth⟩

/-- Within one more pair of parentheses nothing is reserved. -/
theorem Nests.inside (h : d.Nests .nothing s i j) : d.Nests r s (i + 1) (j + 1) :=
  ⟨h.closed, Reserved.depth_lift h.depth⟩

/-- A literal head nests in each dialect, and no word goes on behind it. -/
theorem isHead_stops (hr : r ≤ r') (h : isHead r' i j s = true) : d.Stops r s i j := by
  rw [isHead, Bool.and_eq_true, Bool.not_eq_true'] at h
  exact ⟨(isNested_nests h.1).mono hr, h.2⟩

/-- Two texts that nest do so side by side, unless a word goes on from one into the other. -/
theorem nests_append (hs : d.Nests r s i j) (ht : d.Nests r t j k)
    (hseam : endsInWord s.toList = false ∨ startsInWord t.toList = false) :
    d.Nests r (s ++ t) i k where
  closed := by rw [String.toList_append, modeAfter_append, hs.closed, ht.closed]
  depth := by
    rw [String.toList_append, tokens_append hseam, hs.closed, Reserved.depth_append, hs.depth,
      Option.bind_some, ht.depth]

/-- A text may stand behind one that stops. -/
theorem Stops.append (hs : d.Stops r s i j) (ht : d.Nests r t j k) : d.Nests r (s ++ t) i k :=
  nests_append hs.toNests ht (.inl hs.apart)

/-- Behind a text that stops another one may stop. -/
theorem Stops.append_stops (hs : d.Stops r s i j) (ht : d.Stops r t j k) :
    d.Stops r (s ++ t) i k where
  toNests := hs.append ht.toNests
  apart := by
    cases htext : t.toList with
    | nil => simpa [htext] using hs.apart
    | cons c rest =>
        rw [String.toList_append, endsInWord_append (by simp [htext])]
        exact ht.apart

/-- A literal tail may stand behind a text that nests. -/
theorem Nests.finish_of_le (hs : d.Nests r s i j) (hr : r ≤ r') (ht : isTail r' j k t = true) :
    d.Nests r (s ++ t) i k := by
  rw [isTail, Bool.and_eq_true, Bool.not_eq_true'] at ht
  exact nests_append hs ((isNested_nests ht.1).mono hr) (.inr ht.2)

/-- A literal between two texts stops the one before it. -/
theorem Nests.close_of_le (hs : d.Nests r s i j) (hr : r ≤ r')
    (ht : isBetween r' j k t = true) : d.Stops r (s ++ t) i k := by
  simp only [isBetween, Bool.and_eq_true, Bool.not_eq_true'] at ht
  obtain ⟨⟨hhead, hstart⟩, hne⟩ := ht
  have hstops : d.Stops r t j k := isHead_stops hr hhead
  refine ⟨nests_append hs hstops.toNests (.inr hstart), ?_⟩
  rw [String.toList_append, endsInWord_append (by simpa using hne)]
  exact hstops.apart

/-- A text behind a literal one. -/
theorem Nests.after (ht : d.Nests r t j k) (hs : isHead .operators i j s = true) :
    d.Nests r (s ++ t) i k :=
  (isHead_stops r.le_operators hs).append ht

/-- A text before the literal one that ends it. -/
theorem Nests.finish (hs : d.Nests r s i j) (ht : isTail .operators j k t = true) :
    d.Nests r (s ++ t) i k :=
  hs.finish_of_le r.le_operators ht

/-- A text before a literal one behind which another text can stand. -/
theorem Nests.close (hs : d.Nests r s i j) (ht : isBetween .operators j k t = true) :
    d.Stops r (s ++ t) i k :=
  hs.close_of_le r.le_operators ht

variable {before between behind : String}

/-- A text between two literal ones. -/
theorem Nests.wrap (hs : d.Nests r s j j) (hbefore : isHead .operators i j before = true)
    (hbehind : isTail .operators j k behind = true) : d.Nests r (before ++ s ++ behind) i k :=
  (hs.after hbefore).finish hbehind

/-- Two texts between literal ones, as the arguments of a function stand. -/
theorem Nests.call (hs : d.Nests r s i i) (ht : d.Nests r t j j)
    (hbefore : isHead .operators 0 i before = true)
    (hbetween : isBetween .operators i j between = true)
    (hbehind : isTail .operators j 0 behind = true) :
    d.Nests r (before ++ s ++ between ++ t ++ behind) 0 0 :=
  (((hs.after hbefore).close hbetween).append ht).finish hbehind

end Dialect

end FilterSql
