import FilterSql.Proofs.Sql.Tokens
import FilterSql.Proofs.Sql.Truth
import Mathlib.Data.List.Forall2

/-!
# Reading a condition

A reader of SQL text that takes a condition apart into its tests: parentheses group, `NOT` binds
tighter than `AND`, and `AND` tighter than `OR`. `Dialect.read?` gives the formula that a text is
read as; its atoms are the tokens of the tests.

The tokens are first gathered into items, where what stands in parentheses is one item
(`Dialect.gather`), and the items of each pair of parentheses are then split at the connectives.
`Dialect.Gathers` says which items a text is read as; `Dialect.gathers_append` and
`Dialect.Gathers.enclose` put such texts together. Items without a connective are one operand
(`Dialect.readItems_operand`), and a text of operands with one connective between them is split into
the operands again (`Dialect.gathers_join`, `Dialect.readItems_split`).
-/

namespace FilterSql

/-- The two connectives. -/
inductive Connective where
  | and
  | or
  deriving DecidableEq

namespace Connective

/-- The word that a connective is written as. -/
def word : Connective → String
  | and => "AND"
  | or => "OR"

/-- A connective between two operands. -/
def separator : Connective → String
  | and => " AND "
  | or => " OR "

/-- What a connective makes of two truth values. -/
def apply : Connective → Truth → Truth → Truth
  | and => Truth.and
  | or => Truth.or

/-- What a connective makes of no operands. -/
def unit : Connective → Bool
  | and => true
  | or => false

/-- No operands behind a connective change nothing. -/
theorem apply_unit (c : Connective) (t : Truth) : c.apply t (.ofBool c.unit) = t := by
  cases c
  exacts [Truth.and_holds t, Truth.or_fails t]

/-- No operands before a connective change nothing. -/
theorem unit_apply (c : Connective) (t : Truth) : c.apply (.ofBool c.unit) t = t := by
  cases c
  exacts [Truth.holds_and t, Truth.fails_or t]

/-- Both connectives are associative. -/
theorem apply_assoc (c : Connective) (t u v : Truth) :
    c.apply (c.apply t u) v = c.apply t (c.apply u v) := by
  cases c
  exacts [Truth.and_assoc t u v, Truth.or_assoc t u v]

end Connective

/-- A boolean expression over atoms. -/
inductive Formula (α : Type) where
  | const (value : Bool)
  | atom (a : α)
  | not (f : Formula α)
  | join (c : Connective) (f g : Formula α)

namespace Formula

variable {α β : Type}

/-- The atoms of a formula, from left to right. -/
def atoms : Formula α → List α
  | const _ => []
  | atom a => [a]
  | not f => f.atoms
  | join _ f g => f.atoms ++ g.atoms

/-- The truth value of a formula. Each atom has a truth value of its own, by its place among the
atoms, and the first one has the place `start`. -/
def eval (v : Nat → Truth) (start : Nat) : Formula α → Truth
  | const value => .ofBool value
  | atom _ => v start
  | not f => (f.eval v start).not
  | join c f g => c.apply (f.eval v start) (g.eval v (start + f.atoms.length))

/-- Operands with a connective between them. -/
def joinAll (c : Connective) : List (Formula α) → Formula α
  | [] => const c.unit
  | [f] => f
  | f :: fs => join c f (joinAll c fs)

/-- Two formulas come to the same under every assignment, and their atoms are related in turn. -/
structure Matches (related : α → β → Prop) (f : Formula α) (e : Formula β) : Prop where
  atoms : List.Forall₂ related f.atoms e.atoms
  eval : ∀ v start, e.eval v start = f.eval v start

end Formula

/-- A token outside of parentheses, or all that stands in a pair of parentheses and what it is read
as. -/
inductive Item where
  | token (t : Token)
  | group (tokens : List Token) (inside : Formula (List Token))

namespace Item

/-- Whether an item is a word, in upper or lower case. -/
def isWord (name : String) : Item → Bool
  | token t => t.isWord name
  | group _ _ => false

/-- The tokens of an item. -/
def tokens : Item → List Token
  | token t => [t]
  | group tokens _ => .mark '(' :: (tokens ++ [.mark ')'])

/-- An item is no reserved word. -/
def Free (r : Reserved) (item : Item) : Prop :=
  ∀ name ∈ r.words, item.isWord name = false

end Item

/-- The items of a level, and those before each parenthesis that is open around it. -/
abbrev Levels := List Item × List (List Item)

namespace Dialect

/-- The truth value that a word stands for. -/
def constant? (d : Dialect) (t : Token) : Option Bool :=
  if t.isWord (d.boolText true) then some true
  else if t.isWord (d.boolText false) then some false
  else none

/-- Whether tokens start with a `NOT` of their own and not with the start of a test in the
negative. -/
def isNegation : List Token → Bool
  | t :: u :: _ => t.isWord "NOT" && !(u.isWord "IN" || u.isWord "LIKE")
  | _ => false

/-- What items without a connective and without a `NOT` before them are read as. -/
def readTest (d : Dialect) : List Item → Formula (List Token)
  | [.group _ inside] => inside
  | [.token t] => match d.constant? t with
    | some value => .const value
    | none => .atom [t]
  | items => .atom (items.flatMap Item.tokens)

/-- What items without a connective are read as. -/
def readOperand (d : Dialect) : List Item → Formula (List Token)
  | [] => d.readTest []
  | item :: rest =>
    if isNegation ((item :: rest).flatMap Item.tokens) then .not (d.readOperand rest)
    else d.readTest (item :: rest)

/-- What items are read as if they are split at a connective. -/
def split (c : Connective) (read : List Item → Formula (List Token)) (items : List Item) :
    Formula (List Token) :=
  .joinAll c ((items.splitOnP (·.isWord c.word)).map read)

/-- What items are read as: `AND` binds tighter than `OR`. -/
def readItems (d : Dialect) (items : List Item) : Formula (List Token) :=
  split .or (split .and d.readOperand) items

/-- Takes one more token in. -/
def put (d : Dialect) : Levels → Token → Option Levels
  | (items, outer), t =>
    if t = .mark '(' then some ([], items :: outer)
    else if t = .mark ')' then
      match outer with
      | [] => none
      | before :: outer =>
        some (before ++ [.group (items.flatMap Item.tokens) (d.readItems items)], outer)
    else some (items ++ [.token t], outer)

/-- Takes tokens in, one after the other. -/
def gather (d : Dialect) (levels : Levels) (tokens : List Token) : Option Levels :=
  tokens.foldlM d.put levels

/-- What a text is read as, if it closes its quotes and its parentheses. -/
def read? (d : Dialect) (text : String) : Option (Formula (List Token)) :=
  if d.modeAfter .plain text.toList = .plain then
    match d.gather ([], []) (d.tokens .plain text.toList) with
    | some (items, []) => some (d.readItems items)
    | _ => none
  else none

/-- A text closes its quotes and its parentheses, and is read as some items. -/
structure Gathers (d : Dialect) (text : String) (items : List Item) : Prop where
  closed : d.modeAfter .plain text.toList = .plain
  gather : d.gather ([], []) (d.tokens .plain text.toList) = some (items, [])

end Dialect

/-! ## Formulas -/

namespace Formula

variable {α β : Type} {related : α → β → Prop}

/-- The atoms of a list are those of the first formula and then those of the rest. -/
theorem atoms_joinAll_cons (c : Connective) (f : Formula α) (fs : List (Formula α)) :
    (joinAll c (f :: fs)).atoms = f.atoms ++ (joinAll c fs).atoms := by
  cases fs with
  | nil => simp [joinAll, atoms]
  | cons g fs => rfl

/-- A list comes to what the connective makes of the first formula and the rest. -/
theorem eval_joinAll_cons (c : Connective) (f : Formula α) (fs : List (Formula α))
    (v : Nat → Truth) (start : Nat) : (joinAll c (f :: fs)).eval v start =
      c.apply (f.eval v start) ((joinAll c fs).eval v (start + f.atoms.length)) := by
  cases fs with
  | nil => exact (c.apply_unit _).symm
  | cons g fs => rfl

/-- The atoms of two lists are those of the first and then those of the second. -/
theorem atoms_joinAll_append (c : Connective) (fs gs : List (Formula α)) :
    (joinAll c (fs ++ gs)).atoms = (joinAll c fs).atoms ++ (joinAll c gs).atoms := by
  induction fs with
  | nil => rfl
  | cons f fs ih =>
      rw [List.cons_append, atoms_joinAll_cons, ih, atoms_joinAll_cons, List.append_assoc]

/-- Two lists come to what the connective makes of the two. -/
theorem eval_joinAll_append (c : Connective) (fs gs : List (Formula α)) (v : Nat → Truth)
    (start : Nat) : (joinAll c (fs ++ gs)).eval v start =
      c.apply ((joinAll c fs).eval v start)
        ((joinAll c gs).eval v (start + (joinAll c fs).atoms.length)) := by
  induction fs generalizing start with
  | nil => exact (c.unit_apply _).symm
  | cons f fs ih =>
      rw [List.cons_append, eval_joinAll_cons, ih, eval_joinAll_cons, atoms_joinAll_cons,
        List.length_append, Nat.add_assoc, c.apply_assoc]

/-- The same constant matches itself. -/
theorem Matches.const (value : Bool) : Matches related (.const value) (.const value) :=
  ⟨.nil, fun _ _ => rfl⟩

/-- Atoms match if they are related. -/
theorem Matches.atom {a : α} {b : β} (h : related a b) : Matches related (.atom a) (.atom b) :=
  ⟨.cons h .nil, fun _ _ => rfl⟩

/-- Negations of formulas that match do so too. -/
theorem Matches.not {f : Formula α} {e : Formula β} (h : Matches related f e) :
    Matches related f.not e.not :=
  ⟨h.atoms, fun v start => congrArg Truth.not (h.eval v start)⟩

/-- A list of operands is matched in two parts. -/
theorem Matches.joinAll_append {c : Connective} {f : Formula α} {fs : List (Formula α)}
    {es es' : List (Formula β)} (h : Matches related f (joinAll c es))
    (h' : Matches related (joinAll c fs) (joinAll c es')) :
    Matches related (joinAll c (f :: fs)) (joinAll c (es ++ es')) where
  atoms := by
    rw [atoms_joinAll_cons, atoms_joinAll_append]
    exact List.rel_append h.atoms h'.atoms
  eval v start := by
    rw [eval_joinAll_cons, eval_joinAll_append, h.eval, h'.eval, h.atoms.length_eq]

end Formula

/-! ## Gathering items -/

namespace Levels

/-- Levels on top of others: the lowest level goes on with the items of the one it stands on. -/
def above (base : List Item) (outer : List (List Item)) : List Item → List (List Item) → Levels
  | items, [] => (base ++ items, outer)
  | items, before :: rest =>
    (items, (above base outer before rest).1 :: (above base outer before rest).2)

/-- The tokens that were taken in so far. -/
def tokens : List Item → List (List Item) → List Token
  | items, [] => items.flatMap Item.tokens
  | items, before :: rest => tokens before rest ++ .mark '(' :: items.flatMap Item.tokens

/-- The items of the lowest level have a property, and a number of parentheses are open on top of
it. -/
inductive Keeps (p : Item → Prop) : Nat → List Item → List (List Item) → Prop where
  | lowest {items : List Item} (h : ∀ item ∈ items, p item) : Keeps p 0 items []
  | inner {depth : Nat} {before : List Item} {outer : List (List Item)} (items : List Item)
      (h : Keeps p depth before outer) : Keeps p (depth + 1) items (before :: outer)

variable {base items : List Item} {outer rest : List (List Item)} {item : Item}
  {p : Item → Prop} {depth : Nat}

/-- One more item on the top level. -/
theorem above_snoc : above base outer (items ++ [item]) rest =
    ((above base outer items rest).1 ++ [item], (above base outer items rest).2) := by
  cases rest with
  | nil => simp [above]
  | cons before rest => rfl

/-- One more item adds its tokens. -/
theorem tokens_snoc : tokens (items ++ [item]) rest = tokens items rest ++ item.tokens := by
  cases rest <;> simp [tokens]

/-- The items keep the property with one more, which has to have it on the lowest level alone. -/
theorem Keeps.snoc (h : Keeps p depth items rest) (hitem : depth = 0 → p item) :
    Keeps p depth (items ++ [item]) rest := by
  cases h with
  | lowest h => exact .lowest (by simpa [or_imp, forall_and] using ⟨h, hitem rfl⟩)
  | inner _ h => exact .inner _ h

end Levels

namespace Dialect

variable {d : Dialect} {r : Reserved} {s t : String} {items items' more : List Item}
  {outer outer' : List (List Item)} {token : Token} {ts us : List Token}

/-- Tokens are taken in list after list. -/
theorem gather_append (levels : Levels) : d.gather levels (ts ++ us) =
    (d.gather levels ts).bind fun levels => d.gather levels us :=
  List.foldlM_append

/-- Tokens are taken in one after the other. -/
theorem gather_cons (levels : Levels) : d.gather levels (token :: ts) =
    (d.put levels token).bind fun levels => d.gather levels ts :=
  List.foldlM_cons

/-- What can happen to the levels when a token is taken in. -/
theorem put_cases (h : d.put (items, outer) token = some (items', outer')) :
    (token = .mark '(' ∧ items' = [] ∧ outer' = items :: outer) ∨
      (token = .mark ')' ∧ ∃ before, outer = before :: outer' ∧
        items' = before ++ [.group (items.flatMap Item.tokens) (d.readItems items)]) ∨
      ((token ≠ .mark '(' ∧ token ≠ .mark ')') ∧ items' = items ++ [.token token] ∧
        outer' = outer) := by
  simp only [put] at h
  split at h
  next hopen =>
    cases h
    exact .inl ⟨hopen, rfl, rfl⟩
  next hopen =>
    split at h
    next hclose =>
      cases outer with
      | nil => cases h
      | cons before outer =>
          cases h
          exact .inr (.inl ⟨hclose, before, rfl, rfl⟩)
    next hclose =>
      cases h
      exact .inr (.inr ⟨⟨hopen, hclose⟩, rfl, rfl⟩)

/-- A step on the top levels is a step of the whole. -/
theorem put_above (base : List Item) (lower : List (List Item))
    (h : d.put (items, outer) token = some (items', outer')) :
    d.put (Levels.above base lower items outer) token =
      some (Levels.above base lower items' outer') := by
  obtain ⟨rfl, rfl, rfl⟩ | ⟨rfl, before, rfl, rfl⟩ | ⟨⟨hopen, hclose⟩, rfl, rfl⟩ := put_cases h
  · rfl
  · rw [Levels.above_snoc]
    rfl
  · simp only [Levels.above_snoc, put, if_neg hopen, if_neg hclose]

/-- What is read on top of other levels leaves them as they are. -/
theorem gather_above (base : List Item) (lower : List (List Item))
    (h : d.gather (items, outer) ts = some (items', outer')) :
    d.gather (Levels.above base lower items outer) ts =
      some (Levels.above base lower items' outer') := by
  induction ts generalizing items outer with
  | nil =>
      cases h
      rfl
  | cons token ts ih =>
      rw [gather_cons, Option.bind_eq_some_iff] at h ⊢
      obtain ⟨⟨mid, rest⟩, hput, hgather⟩ := h
      exact ⟨_, put_above base lower hput, ih hgather⟩

/-- All tokens are kept. -/
theorem gather_tokens (h : d.gather (items, outer) ts = some (items', outer')) :
    Levels.tokens items' outer' = Levels.tokens items outer ++ ts := by
  induction ts generalizing items outer with
  | nil =>
      cases h
      exact (List.append_nil _).symm
  | cons token ts ih =>
      rw [gather_cons, Option.bind_eq_some_iff] at h
      obtain ⟨⟨mid, rest⟩, hput, hgather⟩ := h
      rw [ih hgather, List.append_cons]
      congr 1
      obtain ⟨rfl, rfl, rfl⟩ | ⟨rfl, before, rfl, rfl⟩ | ⟨-, rfl, rfl⟩ := put_cases hput
      · rfl
      · rw [Levels.tokens_snoc]
        simp [Levels.tokens, Item.tokens]
      · exact Levels.tokens_snoc

/-- A token that may stand where it does is taken in, and reserved words only come to stand in
parentheses. -/
theorem put_of_step {i j : Nat} (h : r.step i token = some j)
    (hlevels : Levels.Keeps (Item.Free r) i items outer) :
    ∃ items' outer', d.put (items, outer) token = some (items', outer') ∧
      Levels.Keeps (Item.Free r) j items' outer' := by
  obtain ⟨rfl, rfl⟩ | ⟨rfl, rfl⟩ | ⟨⟨hopen, hclose⟩, hfree, rfl⟩ := Reserved.step_eq_some.1 h
  · exact ⟨_, _, rfl, hlevels.inner []⟩
  · cases hlevels with
    | inner _ hbefore => exact ⟨_, _, rfl, hbefore.snoc fun _ _ _ => rfl⟩
  · have hput : d.put (items, outer) token = some (items ++ [.token token], outer) := by
      simp only [put, if_neg hopen, if_neg hclose]
    refine ⟨_, _, hput, hlevels.snoc fun hi name hname => ?_⟩
    exact Bool.eq_false_iff.2 (List.any_eq_false.1 (hfree hi) name hname)

/-- Where the depth of the tokens is followed, they are taken in and no reserved word stands
outside. -/
theorem gather_of_depth {i j : Nat} (h : r.depth i ts = some j)
    (hlevels : Levels.Keeps (Item.Free r) i items outer) :
    ∃ items' outer', d.gather (items, outer) ts = some (items', outer') ∧
      Levels.Keeps (Item.Free r) j items' outer' := by
  induction ts generalizing i items outer with
  | nil =>
      cases h
      exact ⟨items, outer, rfl, hlevels⟩
  | cons token ts ih =>
      rw [Reserved.depth_cons, Option.bind_eq_some_iff] at h
      obtain ⟨k, hstep, hrest⟩ := h
      obtain ⟨mid, rest, hput, hmid⟩ := put_of_step (d := d) hstep hlevels
      obtain ⟨items', outer', hgather, hkeeps⟩ := ih hrest hmid
      exact ⟨items', outer', by rw [gather_cons, hput, Option.bind_some, hgather], hkeeps⟩

/-- What nests is read as items, and no reserved word is among them. -/
theorem gather_of_nested (h : r.depth 0 ts = some 0) :
    ∃ items, d.gather ([], []) ts = some (items, []) ∧ ∀ item ∈ items, item.Free r := by
  have hnone : Levels.Keeps (Item.Free r) 0 [] [] := .lowest (by simp)
  obtain ⟨items, outer, hgather, hkeeps⟩ := gather_of_depth (d := d) h hnone
  cases hkeeps with
  | lowest hitems => exact ⟨items, hgather, hitems⟩

/-- A text that nests is read as items without the reserved words. -/
theorem Nests.gathers (h : d.Nests r s 0 0) :
    ∃ items, d.Gathers s items ∧ ∀ item ∈ items, item.Free r := by
  obtain ⟨items, hgather, hitems⟩ := gather_of_nested (d := d) h.depth
  exact ⟨items, ⟨h.closed, hgather⟩, hitems⟩

/-- A token between two lists of tokens that nest is one of the items. -/
theorem Gathers.token_mem (h : d.Gathers s items)
    (htokens : d.tokens .plain s.toList = ts ++ token :: us) (hts : r.depth 0 ts = some 0)
    (htoken : token ≠ .mark '(' ∧ token ≠ .mark ')') (hus : r.depth 0 us = some 0) :
    .token token ∈ items := by
  obtain ⟨before, hbefore, -⟩ := gather_of_nested (d := d) hts
  obtain ⟨after, hafter, -⟩ := gather_of_nested (d := d) hus
  have hput : d.put (before, []) token = some (before ++ [.token token], []) := by
    simp only [put, if_neg htoken.1, if_neg htoken.2]
  have hall := gather_above (before ++ [.token token]) [] hafter
  have hgather := h.gather
  simp only [Levels.above, List.append_nil] at hall
  rw [htokens, gather_append, hbefore, Option.bind_some, gather_cons, hput, Option.bind_some,
    hall] at hgather
  cases hgather
  simp

/-- The items of a text hold its tokens. -/
theorem Gathers.tokens (h : d.Gathers s items) :
    items.flatMap Item.tokens = d.tokens .plain s.toList := by
  simpa [Levels.tokens] using gather_tokens h.gather

/-- Two texts are read one after the other, unless a word goes on from one into the other. -/
theorem gathers_append (hs : d.Gathers s items) (ht : d.Gathers t more)
    (hseam : endsInWord s.toList = false ∨ startsInWord t.toList = false) :
    d.Gathers (s ++ t) (items ++ more) where
  closed := by rw [String.toList_append, modeAfter_append, hs.closed, ht.closed]
  gather := by
    have hmore := gather_above items [] ht.gather
    simp only [Levels.above, List.append_nil] at hmore
    rw [String.toList_append, tokens_append hseam, hs.closed, gather_append, hs.gather,
      Option.bind_some, hmore]

/-- A text in parentheses is one item. -/
theorem Gathers.enclose (h : d.Gathers s items) : d.Gathers ("(" ++ s ++ ")")
    [.group (items.flatMap Item.tokens) (d.readItems items)] where
  closed := by
    rw [String.toList_append, String.toList_append, modeAfter_append, modeAfter_append]
    change d.modeAfter (d.modeAfter .plain s.toList) [')'] = .plain
    rw [h.closed]
    rfl
  gather := by
    have hopening : d.put ([], []) (.mark '(') = some ([], [[]]) := rfl
    have hinside : d.gather ([], [[]]) (d.tokens .plain s.toList) = some (items, [[]]) :=
      gather_above [] [[]] h.gather
    have htokens : d.tokens .plain ("(" ++ s ++ ")").toList =
        .mark '(' :: (d.tokens .plain s.toList ++ [.mark ')']) := by
      rw [String.append_assoc, String.toList_append, tokens_append (.inl rfl), String.toList_append,
        tokens_append (.inr rfl)]
      change _ :: (_ ++ d.tokens (d.modeAfter .plain s.toList) [')']) = _
      rw [h.closed]
      rfl
    have hclosing : d.put (items, [[]]) (.mark ')') =
        some ([.group (items.flatMap Item.tokens) (d.readItems items)], []) := rfl
    rw [htokens, gather_cons, hopening, Option.bind_some, gather_append, hinside, Option.bind_some,
      gather_cons, hclosing]
    rfl

/-! ## Operands -/

/-- An item without the connectives is neither of them. -/
theorem isWord_of_free {item : Item} (h : item.Free .connectives) (c : Connective) :
    item.isWord c.word = false := by
  cases c
  exacts [h "AND" (by decide), h "OR" (by decide)]

/-- Items without a connective are not split at it. -/
theorem split_operand {c : Connective} {read : List Item → Formula (List Token)}
    (h : ∀ item ∈ items, item.isWord c.word = false) : split c read items = read items := by
  rw [split, List.splitOnP_eq_singleton h]
  rfl

/-- Items without a connective are one operand. -/
theorem readItems_operand (h : ∀ item ∈ items, item.Free .connectives) :
    d.readItems items = d.readOperand items := by
  rw [readItems, split_operand fun item hitem => isWord_of_free (h item hitem) .or,
    split_operand fun item hitem => isWord_of_free (h item hitem) .and]

/-- Items with one connective between operands. -/
theorem readItems_split {c : Connective} {operands : List (List Item)}
    (hsplit : items.splitOnP (·.isWord c.word) = operands)
    (hfree : ∀ operand ∈ operands, ∀ item ∈ operand, item.Free .connectives)
    (hother : ∀ item ∈ items, ∀ c', c' ≠ c → item.isWord c'.word = false) :
    d.readItems items = .joinAll c (operands.map d.readOperand) := by
  cases c with
  | and =>
      have hor : ∀ item ∈ items, item.isWord Connective.or.word = false :=
        fun item hitem => hother item hitem .or (by decide)
      rw [readItems, split_operand hor, split, hsplit]
  | or =>
      have hoperands : operands.map (split .and d.readOperand) = operands.map d.readOperand :=
        List.map_congr_left fun operand hoperand =>
          split_operand fun item hitem => isWord_of_free (hfree operand hoperand item hitem) .and
      rw [readItems, split, hsplit, hoperands]

example : mysql.read? "a OR b AND NOT (c OR d)" =
    some (.join .or (.atom [.word ['a']]) (.join .and (.atom [.word ['b']])
      (.not (.join .or (.atom [.word ['c']]) (.atom [.word ['d']]))))) := rfl

/-- A separator is one token, which is the word of its connective alone. -/
theorem gathers_separator (c : Connective) :
    ∃ token, d.Gathers c.separator [.token token] ∧ ∀ c', token.isWord c'.word = (c' == c) := by
  cases c
  · refine ⟨.word ['A', 'N', 'D'], ?_, fun c' => by cases c' <;> rfl⟩
    cases d <;> exact ⟨rfl, rfl⟩
  · refine ⟨.word ['O', 'R'], ?_, fun c' => by cases c' <;> rfl⟩
    cases d <;> exact ⟨rfl, rfl⟩

/-- A text of operands with a connective between them is split into them again. -/
theorem gathers_join {c : Connective} {text : String} {texts : List String}
    {operand : List Item} {operands : List (List Item)}
    (hall : List.Forall₂ d.Gathers (text :: texts) (operand :: operands))
    (hfree : ∀ operand' ∈ operand :: operands, ∀ item ∈ operand', item.Free .connectives) :
    ∃ items, d.Gathers (Text.join c.separator (text :: texts)) items ∧
      items.splitOnP (·.isWord c.word) = operand :: operands ∧
      ∀ item ∈ items, ∀ c', c' ≠ c → item.isWord c'.word = false := by
  induction texts generalizing text operand operands with
  | nil =>
      cases hall with
      | cons htext hrest =>
          cases hrest
          have hword : ∀ item ∈ operand, ∀ c', item.isWord (Connective.word c') = false :=
            fun item hitem => isWord_of_free (hfree operand List.mem_cons_self item hitem)
          exact ⟨operand, htext, List.splitOnP_eq_singleton fun item hitem => hword item hitem c,
            fun item hitem c' _ => hword item hitem c'⟩
  | cons next texts ih =>
      cases hall with
      | @cons _ _ _ operands htext hrest =>
          rw [List.forall_mem_cons] at hfree
          obtain ⟨hfirst, hfree⟩ := hfree
          have hword : ∀ item ∈ operand, ∀ c', item.isWord (Connective.word c') = false :=
            fun item hitem => isWord_of_free (hfirst item hitem)
          cases operands with
          | nil => cases hrest
          | cons operand' operands =>
              obtain ⟨items, hgathers, hsplit, hother⟩ := ih hrest hfree
              obtain ⟨token, hseparator, htoken⟩ := d.gathers_separator c
              have hstart : startsInWord c.separator.toList = false := by cases c <;> decide
              have hend : endsInWord (text ++ c.separator).toList = false := by
                rw [String.toList_append, endsInWord_append (by cases c <;> decide)]
                cases c <;> decide
              refine ⟨operand ++ .token token :: items, ?_, ?_, ?_⟩
              · rw [List.append_cons]
                exact gathers_append (gathers_append htext hseparator (.inr hstart)) hgathers
                  (.inl hend)
              · rw [List.splitOnP_append_cons _ _ (by simp [Item.isWord, htoken]),
                  List.splitOnP_eq_singleton fun item hitem => hword item hitem c, hsplit]
                rfl
              · intro item hitem c' hc'
                rw [List.mem_append, List.mem_cons] at hitem
                rcases hitem with hitem | rfl | hitem
                · exact hword item hitem c'
                · simp [Item.isWord, htoken, hc']
                · exact hother item hitem c' hc'

/-- A `NOT` before other items. -/
theorem gathers_not (h : d.Gathers s items) :
    d.Gathers ("NOT " ++ s) (.token (.word ['N', 'O', 'T']) :: items) := by
  have hnot : d.Gathers "NOT " [.token (.word ['N', 'O', 'T'])] := by
    cases d <;> exact ⟨rfl, rfl⟩
  exact gathers_append hnot h (.inl (by decide))

/-- What stands in parentheses is read as what is inside. -/
theorem readOperand_group (f : Formula (List Token)) : d.readOperand [.group ts f] = f := by
  rw [readOperand, if_neg]
  · rfl
  · cases ts <;> simp [Item.tokens, isNegation, Token.isWord]

/-- A `NOT` before an operand negates it. -/
theorem readOperand_not (h : isNegation ((.token token :: items).flatMap Item.tokens) = true) :
    d.readOperand (.token token :: items) = .not (d.readOperand items) := by
  rw [readOperand, if_pos h]

/-- Items are one test if a token among them is no truth value and no `NOT` stands before
them. -/
theorem readOperand_test (hnot : isNegation (items.flatMap Item.tokens) = false)
    (htoken : .token token ∈ items) (hvalue : d.constant? token = none) :
    d.readOperand items = .atom (items.flatMap Item.tokens) := by
  obtain ⟨item, rest, rfl⟩ := List.exists_cons_of_ne_nil (List.ne_nil_of_mem htoken)
  rw [readOperand, if_neg (Bool.eq_false_iff.1 hnot)]
  cases rest with
  | cons next rest => cases item <;> rfl
  | nil =>
      obtain rfl : .token token = item := by simpa using htoken
      rw [readTest, hvalue]
      rfl

/-- A truth value is read as one. -/
theorem gathers_boolText (b : Bool) : ∃ items, d.Gathers (d.boolText b) items ∧
    (∀ item ∈ items, item.Free .connectives) ∧ d.readOperand items = .const b := by
  have hfree : ∀ item ∈ [Item.token (.word (d.boolText b).toList)], item.Free .connectives := by
    intro item hitem name hname
    obtain rfl := List.mem_singleton.1 hitem
    revert name
    cases d <;> cases b <;> decide
  refine ⟨_, ?_, hfree, ?_⟩ <;> cases d <;> cases b
  all_goals first | exact ⟨rfl, rfl⟩ | rfl

end Dialect

end FilterSql
