import Mathlib

/-!
# Package `sort`

`sort.Sort` is not stable, so its result is not determined by its input when two
elements compare equal. A `Sorting` is any procedure that keeps what is documented:
the result is a permutation, and for a strict weak order it is sorted.
-/

namespace GoJump.Go

/-- `less` is a strict weak order. -/
structure StrictWeak {α : Type} (less : α → α → Bool) : Prop where
  asymm : ∀ a b, less a b = true → less b a = false
  negTrans : ∀ a b c, less a b = false → less b c = false → less a c = false

/-- An implementation of `sort.Sort` for elements of type `α`. -/
structure Sorting (α : Type) where
  sort : (α → α → Bool) → List α → List α
  perm : ∀ less l, (sort less l).Perm l
  sorted : ∀ less l, StrictWeak less → (sort less l).Pairwise fun a b => less b a = false

/-- Insertion sort is one. -/
def insertionSorting (α : Type) : Sorting α where
  sort less := List.insertionSort fun a b => less b a = false
  perm _ _ := List.perm_insertionSort _ _
  sorted less l h := by
    have htotal : ∀ a b, less b a = false ∨ less a b = false := by
      intro a b
      by_cases hab : less b a = true
      · exact Or.inr (h.asymm b a hab)
      · exact Or.inl (by simpa using hab)
    have : Std.Total fun a b => less b a = false := ⟨htotal⟩
    have : IsTrans α fun a b => less b a = false :=
      ⟨fun a b c hab hbc => h.negTrans c b a hbc hab⟩
    exact List.pairwise_insertionSort _ l

/-! ## Orderings that are not strict

The documentation of `sort.Interface` asks less of `Less` than a strict weak order: on the
elements that are sorted it must be transitive, and so must its negation. An ordering that
holds of equal elements too, such as `≤`, is one of these. -/

/-- On the elements of `l`, `less` describes a transitive ordering. -/
structure TransitiveOrdering {α : Type} (less : α → α → Bool) (l : List α) : Prop where
  trans : ∀ a ∈ l, ∀ b ∈ l, ∀ c ∈ l, less a b = true → less b c = true → less a c = true
  negTrans : ∀ a ∈ l, ∀ b ∈ l, ∀ c ∈ l, less a b = false → less b c = false → less a c = false

/-- `a` may stand before `b`. -/
def MayPrecede {α : Type} (less : α → α → Bool) (a b : α) : Prop :=
  less a b = true ∨ less b a = false

/-- The procedure sorts by every transitive ordering. -/
def Sorting.Documented {α : Type} (sorting : Sorting α) : Prop :=
  ∀ less l, TransitiveOrdering less l → (sorting.sort less l).Pairwise (MayPrecede less)

section Insertion

variable {α : Type} {less : α → α → Bool} {m : List α}

theorem TransitiveOrdering.mayPrecede_trans (h : TransitiveOrdering less m) {a b c : α}
    (ha : a ∈ m) (hb : b ∈ m) (hc : c ∈ m) (hab : MayPrecede less a b)
    (hbc : MayPrecede less b c) : MayPrecede less a c := by
  unfold MayPrecede at *
  by_contra hac
  obtain ⟨hac, hca⟩ := not_or.mp hac
  rw [Bool.not_eq_true] at hac
  rw [Bool.not_eq_false] at hca
  rcases hab with hab | hba <;> rcases hbc with hbc | hcb
  · simp [h.trans a ha b hb c hc hab hbc] at hac
  · simp [h.trans c hc a ha b hb hca hab] at hcb
  · simp [h.trans b hb c hc a ha hbc hca] at hba
  · simp [h.negTrans c hc b hb a ha hcb hba] at hca

theorem pairwise_orderedInsert (h : TransitiveOrdering less m) {a : α} (ha : a ∈ m) {l : List α}
    (hm : ∀ b ∈ l, b ∈ m) (hl : l.Pairwise (MayPrecede less)) :
    (l.orderedInsert (fun a b => less b a = false) a).Pairwise (MayPrecede less) := by
  induction l with
  | nil => exact List.pairwise_singleton _ a
  | cons b l ih =>
    obtain ⟨hb, hrest⟩ := List.pairwise_cons.mp hl
    obtain ⟨hbm, hlm⟩ := List.forall_mem_cons.mp hm
    rw [List.orderedInsert]
    split_ifs with hab
    · refine List.pairwise_cons.mpr ⟨fun c hc => ?_, hl⟩
      rcases List.mem_cons.mp hc with rfl | hc
      · exact Or.inr hab
      · exact h.mayPrecede_trans ha hbm (hlm c hc) (Or.inr hab) (hb c hc)
    · refine List.pairwise_cons.mpr ⟨fun c hc => ?_, ih hlm hrest⟩
      rcases (List.mem_orderedInsert _).mp hc with rfl | hc
      · exact Or.inl (by simpa using hab)
      · exact hb c hc

theorem pairwise_insertionSort (h : TransitiveOrdering less m) {l : List α} (hm : ∀ b ∈ l, b ∈ m) :
    (l.insertionSort fun a b => less b a = false).Pairwise (MayPrecede less) := by
  induction l with
  | nil => exact List.Pairwise.nil
  | cons a l ih =>
    obtain ⟨ha, hl⟩ := List.forall_mem_cons.mp hm
    apply pairwise_orderedInsert h ha _ (ih hl)
    exact fun b hb => hl b ((List.mem_insertionSort _).mp hb)

end Insertion

theorem insertionSorting_documented (α : Type) : (insertionSorting α).Documented := by
  intro less l h
  exact pairwise_insertionSort h fun _ hb => hb

/-! ## Distinct elements -/

/-- On the elements of `l`, `less` is a strict total order as far as different elements are
    compared. -/
structure TotalOnDistinct {α : Type} (less : α → α → Bool) (l : List α) : Prop where
  total : ∀ a ∈ l, ∀ b ∈ l, a ≠ b → less a b = !less b a
  trans : ∀ a ∈ l, ∀ b ∈ l, ∀ c ∈ l, a ≠ b → b ≠ c → a ≠ c →
    less a b = true → less b c = true → less a c = true

/-- The procedure puts distinct elements in order. -/
def Sorting.OrdersDistinct {α : Type} (sorting : Sorting α) : Prop :=
  ∀ less l, l.Nodup → TotalOnDistinct less l → (sorting.sort less l).Pairwise fun a b =>
    less a b = true

theorem TotalOnDistinct.transitiveOrdering {α : Type} {less : α → α → Bool} {l : List α}
    (h : TotalOnDistinct less l) : TransitiveOrdering less l where
  trans a ha b hb c hc hab hbc := by
    by_cases hne : a = b
    · exact hne ▸ hbc
    by_cases hne' : b = c
    · exact hne' ▸ hab
    by_cases hne'' : a = c
    · -- the two comparisons would contradict each other
      subst hne''
      simp [h.total a ha b hb hne, hbc] at hab
    · exact h.trans a ha b hb c hc hne hne' hne'' hab hbc
  negTrans a ha b hb c hc hab hbc := by
    by_cases hne : a = b
    · exact hne ▸ hbc
    by_cases hne' : b = c
    · exact hne' ▸ hab
    have hba : less b a = true := by simpa [hab] using h.total a ha b hb hne
    have hcb : less c b = true := by simpa [hbc] using h.total b hb c hc hne'
    by_cases hne'' : a = c
    · subst hne''
      simp [hba] at hbc
    · rw [h.total a ha c hc hne'', h.trans c hc b hb a ha (Ne.symm hne') (Ne.symm hne)
        (Ne.symm hne'') hcb hba]
      rfl

/-- What is documented covers distinct elements. -/
theorem Sorting.Documented.ordersDistinct {α : Type} {sorting : Sorting α}
    (h : sorting.Documented) : sorting.OrdersDistinct := by
  intro less l hnodup htotal
  have hperm := sorting.perm less l
  have hnodup' : (sorting.sort less l).Nodup := hperm.nodup_iff.mpr hnodup
  refine ((h less l htotal.transitiveOrdering).and hnodup').imp_of_mem ?_
  rintro a b ha hb ⟨hab, hne⟩
  rcases hab with hab | hba
  · exact hab
  · rw [htotal.total a (hperm.mem_iff.mp ha) b (hperm.mem_iff.mp hb) hne, hba]
    rfl

end GoJump.Go
