import FilterSql.Sort.Stable
import Mathlib.Data.List.Sort

/-!
# Sorted rows

`stableSort_perm` says that sorting loses and repeats nothing. `stableSort_filter` is what paging
rests on: where the comparison puts every two of the rows in a strict order, sorting the rows that
meet a test gives the sorted rows that meet it. The comparison is asked to be an order on the rows
that are sorted only, since rows of other tables may not be comparable.
-/

namespace FilterSql

variable {α : Type} {compare : α → α → Ordering}

/-- A comparison that puts every two items of a class in a strict order. -/
structure StrictOn (compare : α → α → Ordering) (items : α → Prop) : Prop where
  /-- No two items each come before the other. -/
  asymm {a b : α} : items a → items b → compare a b = .lt → compare b a ≠ .lt
  trans {a b c : α} : items a → items b → items c →
    compare a b = .lt → compare b c = .lt → compare a c = .lt
  /-- Of two different items one comes before the other. -/
  total {a b : α} : items a → items b → a ≠ b → compare a b = .lt ∨ compare b a = .lt

/-- Every item comes before the items behind it. -/
abbrev Ascending (compare : α → α → Ordering) (l : List α) : Prop :=
  l.Pairwise fun a b => compare a b = .lt

/-- What is strictly ordered is so in part. -/
theorem StrictOn.mono {items fewer : α → Prop} (h : StrictOn compare items)
    (hsub : ∀ a, fewer a → items a) : StrictOn compare fewer where
  asymm ha hb := h.asymm (hsub _ ha) (hsub _ hb)
  trans ha hb hc := h.trans (hsub _ ha) (hsub _ hb) (hsub _ hc)
  total ha hb := h.total (hsub _ ha) (hsub _ hb)

/-! ## Sorting keeps the items -/

/-- Putting an item back adds it and loses none. -/
theorem putBack_perm (item : α) (l : List α) : (putBack compare item l).Perm (item :: l) := by
  induction l with
  | nil => exact List.Perm.refl _
  | cons last before ih =>
      unfold putBack
      split
      · exact (ih.cons last).trans (List.Perm.swap item last before)
      · exact List.Perm.refl _

/-- Putting items back one by one loses none. -/
theorem foldl_putBack_perm (l done : List α) :
    (l.foldl (fun sorted item => putBack compare item sorted) done).Perm (l ++ done) := by
  induction l generalizing done with
  | nil => exact List.Perm.refl _
  | cons item l ih =>
      have hput : (l ++ putBack compare item done).Perm (l ++ item :: done) :=
        (putBack_perm item done).append_left l
      exact (ih _).trans (hput.trans List.perm_middle)

/-- Sorting only changes the order of the items. -/
theorem stableSort_perm (l : List α) : (stableSort compare l).Perm l := by
  have hfold := @foldl_putBack_perm α compare l []
  rw [List.append_nil] at hfold
  exact (List.reverse_perm _).trans hfold

/-- A sorted list is as long as before. -/
@[simp] theorem length_stableSort (l : List α) : (stableSort compare l).length = l.length :=
  (stableSort_perm l).length_eq

/-- A sorted list has the same members. -/
@[simp] theorem mem_stableSort {a : α} {l : List α} : a ∈ stableSort compare l ↔ a ∈ l :=
  (stableSort_perm l).mem_iff

/-- A sorted list is empty if it was before. -/
@[simp] theorem stableSort_isEmpty (l : List α) :
    (stableSort compare l).isEmpty = l.isEmpty := by
  rw [Bool.eq_iff_iff, List.isEmpty_iff, List.isEmpty_iff]
  constructor
  · intro h
    have hperm := @stableSort_perm α compare l
    rw [h] at hperm
    exact hperm.nil_eq.symm
  · rintro rfl
    rfl

/-- An item is put back alike before and after the items are mapped. -/
theorem putBack_map {β : Type} (f : β → α) (item : β) (l : List β) :
    putBack compare (f item) (l.map f) =
      (putBack (fun a b => compare (f a) (f b)) item l).map f := by
  induction l with
  | nil => rfl
  | cons last before ih =>
      simp only [List.map_cons, putBack, ih]
      split <;> rfl

/-- Items may be replaced by what they are compared by before or after they are sorted. -/
theorem stableSort_map {β : Type} (f : β → α) (l : List β) :
    stableSort compare (l.map f) = (stableSort (fun a b => compare (f a) (f b)) l).map f := by
  -- the fold is compared from any items that are put in already
  have hfold : ∀ done : List β,
      (l.map f).foldl (fun sorted item => putBack compare item sorted) (done.map f) =
        (l.foldl (fun sorted item =>
          putBack (fun a b => compare (f a) (f b)) item sorted) done).map f := by
    induction l with
    | nil => exact fun done => rfl
    | cons item l ih =>
        intro done
        simp only [List.map_cons, List.foldl_cons, putBack_map]
        exact ih _
  unfold stableSort
  rw [List.map_reverse, ← hfold []]
  rfl

/-! ## Sorting sorts -/

/-- A list that is sorted backwards stays so when an item is put in. -/
theorem putBack_descending {item : α} {l : List α}
    (h : StrictOn compare (· ∈ item :: l)) (hfresh : item ∉ l)
    (hl : Ascending (fun a b => compare b a) l) :
    Ascending (fun a b => compare b a) (putBack compare item l) := by
  induction l with
  | nil => exact List.pairwise_singleton _ _
  | cons last before ih =>
      obtain ⟨hlast, hbefore⟩ := List.pairwise_cons.1 hl
      have hitem : item ∈ item :: last :: before := by simp
      have hmid : last ∈ item :: last :: before := by simp
      obtain ⟨hne, hfresh⟩ := not_or.1 (mt List.mem_cons.2 hfresh)
      unfold putBack
      split
      next hlt =>
        refine List.pairwise_cons.2 ⟨fun b hb => ?_, ih (h.mono ?_) hfresh hbefore⟩
        · rcases List.mem_cons.1 ((putBack_perm item before).mem_iff.1 hb) with rfl | hb
          · exact hlt
          · exact hlast b hb
        · intro a ha
          rcases List.mem_cons.1 ha with rfl | ha
          · exact hitem
          · simp [ha]
      next hlt =>
        -- of two different items one comes first, here the one that is in the list already
        have hgt : compare last item = .lt := (h.total hitem hmid hne).resolve_left hlt
        refine List.pairwise_cons.2 ⟨fun b hb => ?_, hl⟩
        rcases List.mem_cons.1 hb with rfl | hb'
        · exact hgt
        · exact h.trans (by simp [hb']) hmid hitem (hlast b hb') hgt

/-- The rows that are put in one after the other are sorted backwards. -/
theorem foldl_putBack_descending {l done : List α} (hnodup : (l ++ done).Nodup)
    (h : StrictOn compare (· ∈ l ++ done))
    (hdone : Ascending (fun a b => compare b a) done) :
    Ascending (fun a b => compare b a)
      (l.foldl (fun sorted item => putBack compare item sorted) done) := by
  induction l generalizing done with
  | nil => exact hdone
  | cons item l ih =>
      have hperm : (l ++ putBack compare item done).Perm (item :: l ++ done) :=
        ((putBack_perm item done).append_left l).trans List.perm_middle
      refine ih (hperm.nodup_iff.2 hnodup) (h.mono fun a ha => hperm.mem_iff.1 ha) ?_
      refine putBack_descending (h.mono ?_) ?_ hdone
      · intro a ha
        rcases List.mem_cons.1 ha with rfl | ha
        · simp
        · simp [ha]
      · exact fun hmem => (List.nodup_cons.1 hnodup).1 (List.mem_append_right l hmem)

/-- Rows in a strict order are sorted by it. -/
theorem stableSort_ascending {l : List α} (hnodup : l.Nodup) (h : StrictOn compare (· ∈ l)) :
    Ascending compare (stableSort compare l) := by
  refine List.pairwise_reverse.2 (foldl_putBack_descending ?_ ?_ List.Pairwise.nil)
  · simpa using hnodup
  · simpa using h

/-- There is only one way to put rows into a strict order. -/
theorem Ascending.eq_of_perm {l m : List α} (h : StrictOn compare (· ∈ l))
    (hl : Ascending compare l) (hm : Ascending compare m) (hperm : l.Perm m) : l = m := by
  refine List.Perm.eq_of_pairwise (fun a b ha hb hab hba => ?_) hl hm hperm
  exact absurd hba (h.asymm ha (hperm.mem_iff.2 hb) hab)

/-- Sorting after choosing gives what choosing after sorting gives. -/
theorem stableSort_filter {l : List α} (hnodup : l.Nodup) (h : StrictOn compare (· ∈ l))
    (p : α → Bool) : stableSort compare (l.filter p) = (stableSort compare l).filter p := by
  have hsub : ∀ a, a ∈ l.filter p → a ∈ l := fun a ha => List.mem_of_mem_filter ha
  refine Ascending.eq_of_perm (h.mono fun a ha => hsub a (mem_stableSort.1 ha)) ?_ ?_ ?_
  · exact stableSort_ascending (hnodup.filter p) (h.mono hsub)
  · exact (stableSort_ascending hnodup h).filter p
  · exact (stableSort_perm _).trans ((stableSort_perm l).filter p).symm

/-- In sorted rows, those behind a row are those that it comes before. -/
theorem Ascending.filter_after {before after : List α} {row : α}
    (h : StrictOn compare (· ∈ before ++ row :: after))
    (hl : Ascending compare (before ++ row :: after)) :
    (before ++ row :: after).filter (fun a => compare row a = .lt) = after := by
  obtain ⟨-, hafter, hcross⟩ := List.pairwise_append.1 hl
  have hrow : row ∈ before ++ row :: after := by simp
  have hnone : before.filter (fun a => decide (compare row a = .lt)) = [] := by
    refine List.filter_eq_nil_iff.2 fun a ha => ?_
    have hlt := hcross a ha row (by simp)
    simpa using h.asymm (by simp [ha]) hrow hlt
  have hself : compare row row ≠ .lt := fun hlt => h.asymm hrow hrow hlt hlt
  have hall : after.filter (fun a => decide (compare row a = .lt)) = after := by
    refine List.filter_eq_self.2 fun a ha => ?_
    simpa using (List.pairwise_cons.1 hafter).1 a ha
  rw [List.filter_append, hnone, List.filter_cons, hall]
  simp [hself]

end FilterSql
