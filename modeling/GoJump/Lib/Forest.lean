import Mathlib

/-!
# Forests of pointers

A forest that is built in memory: cells are numbered in the order in which they are
allocated, `roots` lists the pointers to the trees and `subs p` those to the subtrees of
cell `p`. `unfold` follows the pointers, and `Arranged` says that every cell is
referred to exactly once, by a cell allocated before it or by the list of roots.

* `flatten_unfold`: an arranged forest contains every cell exactly once.
* `childOf_unfold_iff`, `roots_unfold`: the cells stand where the pointers say.
-/

namespace GoJump.Lib

/-- A forest: its first tree, as value and subtrees, and the other trees. -/
inductive Forest (α : Type*)
  | nil
  | cons (value : α) (subs rest : Forest α)
  deriving DecidableEq

namespace Forest

variable {α β : Type*}

/-- All values, each before those below it. -/
def flatten : Forest α → List α
  | nil => []
  | cons value subs rest => value :: (subs.flatten ++ rest.flatten)

/-- The values at the roots. -/
def roots : Forest α → List α
  | nil => []
  | cons value _ rest => value :: rest.roots

/-- `c` stands directly under `p`. -/
def ChildOf (p c : α) : Forest α → Prop
  | nil => False
  | cons value subs rest => (value = p ∧ c ∈ subs.roots) ∨ subs.ChildOf p c ∨ rest.ChildOf p c

/-- The same forest with other values. -/
def map (f : α → β) : Forest α → Forest β
  | nil => nil
  | cons value subs rest => cons (f value) (subs.map f) (rest.map f)

theorem flatten_map (f : α → β) (t : Forest α) : (t.map f).flatten = t.flatten.map f := by
  induction t with
  | nil => rfl
  | cons value subs rest ihs ihr => simp [map, flatten, ihs, ihr]

/-! ## Following pointers -/

/-- The trees at the given pointers, to the depth `fuel`. -/
def unfold (value : ℕ → α) (subs : ℕ → List ℕ) : ℕ → List ℕ → Forest α
  | 0, _ => nil
  | fuel + 1, ptrs =>
    ptrs.foldr (fun p rest => cons (value p) (unfold value subs fuel (subs p)) rest) nil

variable {value : ℕ → α} {subs : ℕ → List ℕ}

@[simp] theorem unfold_nil (fuel : ℕ) : unfold value subs fuel [] = nil := by
  cases fuel <;> rfl

theorem unfold_cons (fuel p : ℕ) (ptrs : List ℕ) :
    unfold value subs (fuel + 1) (p :: ptrs) =
      cons (value p) (unfold value subs fuel (subs p)) (unfold value subs (fuel + 1) ptrs) := rfl

theorem map_unfold (f : α → β) (fuel : ℕ) (ptrs : List ℕ) :
    (unfold value subs fuel ptrs).map f = unfold (f ∘ value) subs fuel ptrs := by
  induction fuel generalizing ptrs with
  | zero => rfl
  | succ fuel ih =>
    induction ptrs with
    | nil => rfl
    | cons p ptrs ihp => rw [unfold_cons, unfold_cons, map, ih, ihp]; rfl

theorem roots_unfold (fuel : ℕ) (ptrs : List ℕ) :
    (unfold value subs (fuel + 1) ptrs).roots = ptrs.map value := by
  induction ptrs with
  | nil => rfl
  | cons p ptrs ih => rw [unfold_cons, roots, ih, List.map_cons]

/-- The pointers that are followed. -/
def preorder (subs : ℕ → List ℕ) (fuel : ℕ) (ptrs : List ℕ) : List ℕ :=
  (unfold id subs fuel ptrs).flatten

theorem flatten_unfold_eq_map (fuel : ℕ) (ptrs : List ℕ) :
    (unfold value subs fuel ptrs).flatten = (preorder subs fuel ptrs).map value := by
  rw [preorder, ← flatten_map, map_unfold]
  rfl

theorem preorder_cons (fuel p : ℕ) (ptrs : List ℕ) :
    preorder subs (fuel + 1) (p :: ptrs) =
      p :: (preorder subs fuel (subs p) ++ preorder subs (fuel + 1) ptrs) := rfl

/-- A cell is shown under another one exactly if that one is followed and points to it;
    the pointers of the deepest cells are not followed. -/
theorem childOf_unfold (fuel : ℕ) (ptrs : List ℕ) (a b : α) :
    (unfold value subs (fuel + 1) ptrs).ChildOf a b ↔
      ∃ p ∈ preorder subs fuel ptrs, value p = a ∧ ∃ c ∈ subs p, value c = b := by
  induction fuel generalizing ptrs with
  | zero =>
    induction ptrs with
    | nil => simp [ChildOf, preorder, unfold, flatten]
    | cons p ptrs ih =>
      rw [unfold_cons, ChildOf, ih]
      simp [unfold, roots, ChildOf, preorder, flatten]
  | succ fuel ih =>
    induction ptrs with
    | nil => simp [ChildOf, preorder, flatten]
    | cons p ptrs ihp =>
      rw [unfold_cons, ChildOf, ihp, ih, roots_unfold, preorder_cons]
      simp only [List.mem_map, List.mem_cons, List.mem_append]
      constructor
      · rintro (⟨hp, hc⟩ | ⟨q, hq, h⟩ | ⟨q, hq, h⟩)
        · exact ⟨p, Or.inl rfl, hp, hc⟩
        · exact ⟨q, Or.inr (Or.inl hq), h⟩
        · exact ⟨q, Or.inr (Or.inr hq), h⟩
      · rintro ⟨q, rfl | hq | hq, h⟩
        · exact Or.inl h
        · exact Or.inr (Or.inl ⟨q, hq, h⟩)
        · exact Or.inr (Or.inr ⟨q, hq, h⟩)

/-! ## Arranged forests -/

/-- Every one of the `n` cells is referred to exactly once, and only cells allocated later
    stand below a cell. -/
structure Arranged (n : ℕ) (ptrs : List ℕ) (subs : ℕ → List ℕ) : Prop where
  perm : (ptrs ++ (List.range n).flatMap subs).Perm (List.range n)
  later : ∀ p, ∀ c ∈ subs p, p < c

theorem Arranged.lt_of_mem {n : ℕ} {ptrs : List ℕ} (h : Arranged n ptrs subs) {p : ℕ}
    (hp : p ∈ ptrs) : p < n :=
  List.mem_range.mp (h.perm.mem_iff.mp (List.mem_append_left _ hp))

theorem Arranged.sub_lt {n : ℕ} {ptrs : List ℕ} (h : Arranged n ptrs subs) {p c : ℕ} (hp : p < n)
    (hc : c ∈ subs p) : c < n :=
  List.mem_range.mp (h.perm.mem_iff.mp (List.mem_append_right _
    (List.mem_flatMap.mpr ⟨p, List.mem_range.mpr hp, hc⟩)))

/-- Another order of the subtrees. -/
theorem Arranged.congr {n : ℕ} {ptrs : List ℕ} {subs' : ℕ → List ℕ} (h : Arranged n ptrs subs)
    (hperm : ∀ p, (subs' p).Perm (subs p)) : Arranged n ptrs subs' where
  perm := ((List.Perm.refl ptrs).append
    (List.Perm.flatMap_left _ fun p _ => hperm p)).trans h.perm
  later p c hc := h.later p c ((hperm p).mem_iff.mp hc)

/-- The roots are the cells that no cell points to. -/
theorem Arranged.mem_roots_iff {n : ℕ} {ptrs : List ℕ} (h : Arranged n ptrs subs) (c : ℕ) :
    c ∈ ptrs ↔ c < n ∧ ∀ p < n, c ∉ subs p := by
  have hnodup := h.perm.nodup_iff.mpr List.nodup_range
  rw [List.nodup_append] at hnodup
  constructor
  · intro hc
    refine ⟨h.lt_of_mem hc, fun p hp hsub => ?_⟩
    exact hnodup.2.2 c hc c (List.mem_flatMap.mpr ⟨p, List.mem_range.mpr hp, hsub⟩) rfl
  · rintro ⟨hc, hnot⟩
    rcases List.mem_append.mp (h.perm.mem_iff.mpr (List.mem_range.mpr hc)) with hroot | hsub
    · exact hroot
    · obtain ⟨p, hp, hsub⟩ := List.mem_flatMap.mp hsub
      exact absurd hsub (hnot p (List.mem_range.mp hp))

/-! ### Adding a cell -/

theorem flatMap_range_succ (n : ℕ) (subs : ℕ → List ℕ) (h : subs n = []) :
    (List.range (n + 1)).flatMap subs = (List.range n).flatMap subs := by
  rw [List.range_succ, List.flatMap_append, List.flatMap_singleton, h, List.append_nil]

/-- A new cell as a root. -/
theorem Arranged.addRoot {n : ℕ} {ptrs : List ℕ} (h : Arranged n ptrs subs) (hn : subs n = []) :
    Arranged (n + 1) (ptrs ++ [n]) subs where
  perm := by
    rw [flatMap_range_succ n subs hn, List.range_succ, List.append_assoc]
    exact (List.perm_append_comm.append_left ptrs).trans
      (by rw [← List.append_assoc]; exact h.perm.append_right [n])
  later := h.later

theorem flatMap_update_of_notMem {l : List ℕ} {p : ℕ} (hp : p ∉ l) (cs : List ℕ) :
    l.flatMap (Function.update subs p cs) = l.flatMap subs := by
  apply List.flatMap_congr
  intro q hq
  have hne : q ≠ p := by
    rintro rfl
    exact hp hq
  rw [Function.update_of_ne hne]

theorem perm_flatMap_update {n p : ℕ} (hp : p < n) (c : ℕ) :
    ((List.range n).flatMap (Function.update subs p (subs p ++ [c]))).Perm
      ((List.range n).flatMap subs ++ [c]) := by
  obtain ⟨a, b, hab⟩ := List.append_of_mem (List.mem_range.mpr hp)
  have hnodup : (a ++ p :: b).Nodup := hab ▸ List.nodup_range
  have hnot : p ∉ a ++ b := (List.nodup_middle.mp hnodup).notMem
  rw [List.mem_append, not_or] at hnot
  rw [hab, List.flatMap_append, List.flatMap_cons, List.flatMap_append, List.flatMap_cons,
    flatMap_update_of_notMem hnot.1, flatMap_update_of_notMem hnot.2, Function.update_self]
  simp only [List.append_assoc]
  exact (List.perm_append_comm.append_left (subs p)).append_left (a.flatMap subs)

/-- A new cell under an older one. -/
theorem Arranged.addSub {n p : ℕ} {ptrs : List ℕ} (h : Arranged n ptrs subs) (hn : subs n = [])
    (hp : p < n) : Arranged (n + 1) ptrs (Function.update subs p (subs p ++ [n])) where
  perm := by
    rw [flatMap_range_succ n _ (by rw [Function.update_of_ne (Nat.ne_of_gt hp), hn]),
      List.range_succ]
    calc (ptrs ++ (List.range n).flatMap (Function.update subs p (subs p ++ [n]))).Perm
          (ptrs ++ ((List.range n).flatMap subs ++ [n])) :=
            (perm_flatMap_update hp n).append_left ptrs
      _ = ptrs ++ (List.range n).flatMap subs ++ [n] := (List.append_assoc _ _ _).symm
      (ptrs ++ (List.range n).flatMap subs ++ [n]).Perm (List.range n ++ [n]) :=
            h.perm.append_right [n]
  later q c hc := by
    by_cases hq : q = p
    · subst hq
      rw [Function.update_self] at hc
      rcases List.mem_append.mp hc with hc | hc
      · exact h.later q c hc
      · rw [List.mem_singleton.mp hc]
        exact hp
    · rw [Function.update_of_ne hq] at hc
      exact h.later q c hc

/-! ### Every cell once -/

/-- One level more shows the pointers themselves and all subtrees of what was shown. -/
theorem count_preorder_succ (fuel : ℕ) (ptrs : List ℕ) (i : ℕ) :
    (preorder subs (fuel + 1) ptrs).count i =
      ptrs.count i + ((preorder subs fuel ptrs).flatMap subs).count i := by
  induction fuel generalizing ptrs with
  | zero =>
    induction ptrs with
    | nil => rfl
    | cons p ptrs ih =>
      rw [preorder_cons, List.count_cons, List.count_append, ih]
      simp [preorder, unfold, flatten, List.count_cons]
  | succ fuel ih =>
    induction ptrs with
    | nil => simp [preorder, flatten]
    | cons p ptrs ihp =>
      rw [preorder_cons, preorder_cons, List.count_cons, List.count_append, ihp, ih,
        List.flatMap_cons, List.flatMap_append, List.count_append, List.count_append,
        List.count_cons]
      omega

/-- Depth `n` is enough for `n` cells. -/
theorem Arranged.preorder_stable {n : ℕ} {ptrs : List ℕ} (h : Arranged n ptrs subs) (fuel : ℕ) :
    ∀ ps : List ℕ, (∀ p ∈ ps, p < n ∧ n ≤ p + fuel) →
      preorder subs (fuel + 1) ps = preorder subs fuel ps := by
  induction fuel with
  | zero =>
    intro ps hps
    cases ps with
    | nil => rfl
    | cons p ps =>
      have := hps p List.mem_cons_self
      omega
  | succ fuel ih =>
    intro ps hps
    induction ps with
    | nil => simp [preorder]
    | cons p ps ihp =>
      obtain ⟨hp, hrest⟩ := List.forall_mem_cons.mp hps
      have hsubs : ∀ c ∈ subs p, c < n ∧ n ≤ c + fuel := by
        intro c hc
        have := h.later p c hc
        exact ⟨h.sub_lt hp.1 hc, by omega⟩
      rw [preorder_cons, preorder_cons, ih _ hsubs, ihp hrest]

/-- What refers to `i` are cells before it. -/
theorem count_flatMap_filter (hlater : ∀ p, ∀ c ∈ subs p, p < c) (l : List ℕ) (i : ℕ) :
    (l.flatMap subs).count i = ((l.filter (· < i)).flatMap subs).count i := by
  induction l with
  | nil => rfl
  | cons p l ih =>
    rw [List.flatMap_cons, List.count_append, ih, List.filter_cons]
    split_ifs with hp
    · rw [List.flatMap_cons, List.count_append]
    · rw [List.count_eq_zero.mpr fun hi => hp (decide_eq_true (hlater p i hi)), Nat.zero_add]

/-- The forest determines how often each cell is reached, from the first one on. -/
theorem Arranged.preorder_perm {n : ℕ} {ptrs : List ℕ} (h : Arranged n ptrs subs) :
    (preorder subs n ptrs).Perm (List.range n) := by
  have hstable : preorder subs (n + 1) ptrs = preorder subs n ptrs :=
    h.preorder_stable n ptrs fun p hp => ⟨h.lt_of_mem hp, by omega⟩
  rw [List.perm_iff_count]
  intro i
  induction i using Nat.strong_induction_on with
  | _ i ih =>
    -- both sides count the references to `i`, which come from cells before it
    have hfilter :
        ((preorder subs n ptrs).filter (· < i)).Perm ((List.range n).filter (· < i)) := by
      rw [List.perm_iff_count]
      intro j
      by_cases hj : j < i
      · rw [List.count_filter (by simpa using hj), List.count_filter (by simpa using hj), ih j hj]
      · rw [List.count_eq_zero.mpr (by simp [hj]), List.count_eq_zero.mpr (by simp [hj])]
    calc (preorder subs n ptrs).count i
        = (preorder subs (n + 1) ptrs).count i := by rw [hstable]
      _ = ptrs.count i + ((preorder subs n ptrs).flatMap subs).count i :=
          count_preorder_succ n ptrs i
      _ = ptrs.count i + ((List.range n).flatMap subs).count i := by
          rw [count_flatMap_filter h.later, count_flatMap_filter h.later (List.range n),
            (hfilter.flatMap_right subs).count_eq]
      _ = (List.range n).count i := by rw [← List.count_append, h.perm.count_eq]

/-- An arranged forest contains every cell exactly once. -/
theorem Arranged.flatten_unfold {n : ℕ} {ptrs : List ℕ} (h : Arranged n ptrs subs)
    (value : ℕ → α) :
    (unfold value subs (n + 1) ptrs).flatten.Perm ((List.range n).map value) := by
  rw [flatten_unfold_eq_map,
    h.preorder_stable n ptrs fun p hp => ⟨h.lt_of_mem hp, by omega⟩]
  exact h.preorder_perm.map value

/-- And every cell stands where the pointers to it are. -/
theorem Arranged.childOf_unfold_iff {n : ℕ} {ptrs : List ℕ} (h : Arranged n ptrs subs)
    (value : ℕ → α) (a b : α) :
    (unfold value subs (n + 1) ptrs).ChildOf a b ↔
      ∃ p < n, value p = a ∧ ∃ c ∈ subs p, value c = b := by
  rw [childOf_unfold]
  simp only [h.preorder_perm.mem_iff, List.mem_range]

end Forest

end GoJump.Lib
