/-!
# Results and look-ups

What a computation in steps gives where it succeeds, when two computations end alike
(`SameOutcome`), and what is found in a list of named things. Schemas of filters and of orders are
such lists, and both are read in `Except`.
-/

namespace FilterSql

/-- A computation in two parts succeeds where both parts do. -/
theorem bind_eq_ok {ε α β : Type} {x : Except ε α} {f : α → Except ε β} {b : β} :
    (x >>= f) = .ok b ↔ ∃ a, x = .ok a ∧ f a = .ok b := by
  cases x <;> simp [bind, Except.bind]

/-- A result that is mapped succeeds where the result does. -/
theorem map_eq_ok {ε α β : Type} {x : Except ε α} {f : α → β} {b : β} :
    x.map f = .ok b ↔ ∃ a, x = .ok a ∧ f a = b := by
  cases x <;> simp [Except.map]

/-- A result with its error mapped succeeds where the result does. -/
theorem mapError_eq_ok {ε δ α : Type} {x : Except ε α} {f : ε → δ} {a : α} :
    x.mapError f = .ok a ↔ x = .ok a := by
  cases x with
  | error e => exact ⟨nofun, nofun⟩
  | ok a' =>
    change Except.ok a' = .ok a ↔ _
    rw [Except.ok.injEq, Except.ok.injEq]

/-- Two computations both give results, of which something holds, or both the same error. -/
inductive SameOutcome {ε α β : Type} (R : α → β → Prop) : Except ε α → Except ε β → Prop where
  | ok {a : α} {b : β} (h : R a b) : SameOutcome R (.ok a) (.ok b)
  | error (e : ε) : SameOutcome R (.error e) (.error e)

namespace SameOutcome

variable {ε α β γ δ : Type} {R : α → β → Prop} {x : Except ε α} {y : Except ε β}

/-- Two successes have the same outcome if they are related. -/
@[simp] theorem ok_ok {a : α} {b : β} :
    SameOutcome R (.ok a : Except ε α) (.ok b) ↔ R a b :=
  ⟨fun h => by cases h; assumption, .ok⟩

/-- Two failures have the same outcome if their errors are equal. -/
@[simp] theorem error_error {e e' : ε} : SameOutcome R (.error e) (.error e') ↔ e = e' :=
  ⟨fun h => by cases h; rfl, fun h => h ▸ .error e⟩

/-- A success and a failure do not have the same outcome. -/
@[simp] theorem not_ok_error {a : α} {e : ε} : ¬SameOutcome R (.ok a) (.error e) := nofun

/-- A failure and a success do not have the same outcome. -/
@[simp] theorem not_error_ok {b : β} {e : ε} : ¬SameOutcome R (.error e) (.ok b) := nofun

/-- The relation may be replaced by a weaker one. -/
theorem imp {S : α → β → Prop} (h : SameOutcome R x y) (hRS : ∀ a b, R a b → S a b) :
    SameOutcome S x y := by
  cases h with
  | ok hab => exact .ok (hRS _ _ hab)
  | error e => exact .error e

/-- The results may change places. -/
theorem symm (h : SameOutcome R x y) : SameOutcome (fun b a => R a b) y x := by
  cases h with
  | ok hab => exact .ok hab
  | error e => exact .error e

/-- Results that have the outcome of one result have that of each other. -/
theorem trans {S : β → γ → Prop} {z : Except ε γ} (h : SameOutcome R x y)
    (h' : SameOutcome S y z) : SameOutcome (fun a c => ∃ b, R a b ∧ S b c) x z := by
  cases h with
  | ok hab =>
    cases h' with
    | ok hbc => exact .ok ⟨_, hab, hbc⟩
  | error e =>
    cases h'
    exact .error e

/-- Two pairs of steps in turn have the same outcome if they do one by one. -/
theorem bind {S : γ → δ → Prop} {f : α → Except ε γ} {g : β → Except ε δ}
    (h : SameOutcome R x y) (hf : ∀ a b, R a b → SameOutcome S (f a) (g b)) :
    SameOutcome S (x >>= f) (y >>= g) := by
  cases h with
  | ok hab => exact hf _ _ hab
  | error e => exact .error e

end SameOutcome

section LookUp

variable {α : Type} {entries : List (String × α)} {name : String} {value : α}

/-- What is found under a name stands under it in the list. -/
theorem mem_of_find?_name (h : (entries.find? (·.1 = name)).map (·.2) = some value) :
    (name, value) ∈ entries := by
  obtain ⟨entry, hfind, rfl⟩ := Option.map_eq_some_iff.1 h
  have hname : entry.1 = name := by simpa using List.find?_some hfind
  exact hname ▸ List.mem_of_find?_eq_some hfind

/-- Something is found under every name of the list. -/
theorem exists_find?_name (h : name ∈ entries.map (·.1)) :
    ∃ value, (entries.find? (·.1 = name)).map (·.2) = some value := by
  obtain ⟨entry, hentry, rfl⟩ := List.mem_map.1 h
  have hfind : (entries.find? (·.1 = entry.1)).isSome := by
    rw [List.find?_isSome]
    exact ⟨entry, hentry, by simp⟩
  obtain ⟨found, hfound⟩ := Option.isSome_iff_exists.1 hfind
  exact ⟨found.2, by rw [hfound, Option.map_some]⟩

end LookUp

end FilterSql
