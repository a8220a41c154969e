import Mathlib

/-!
# Spreading a budget over counters

Counters are moved by one unit at a time towards a target: in each round every counter
that may still move gets one step, in an order that may differ from round to round, until
the budget is used up or no counter may move. A step is a function on numbers, which
adds the unit where that does not leave the range of the machine's integers.

* `give_spec`: a round serves the first counters of the order, as far as the budget goes.
* `spread_spec`: the rounds end; every counter keeps what a permitted step keeps; and the
  sum has changed by the whole budget, or no counter may move any more.
-/

namespace GoJump.Lib

variable {κ : Type*} [DecidableEq κ]

/-- One round over these counters. -/
def give (bump : ℤ → ℤ) : List κ → ℕ → (κ → ℤ) → (κ → ℤ) × ℕ
  | [], budget, w => (w, budget)
  | k :: ks, budget, w =>
    let w := Function.update w k (bump (w k))
    if budget - 1 = 0 then (w, 0) else give bump ks (budget - 1) w

/-- Rounds over the counters that may move. -/
def spread (can : κ → ℤ → Bool) (bump : ℤ → ℤ) (orders : ℕ → List κ) :
    ℕ → ℕ → ℕ → (κ → ℤ) → Option (κ → ℤ)
  | 0, _, _, _ => none
  | fuel + 1, round, budget, w =>
    if budget = 0 then some w
    else
      let ks := (orders round).filter fun k => can k (w k)
      if ks = [] then some w
      else
        let (w, budget) := give bump ks budget w
        spread can bump orders fuel (round + 1) budget w

/-- The counters after one step of those in `served`. -/
def stepped (bump : ℤ → ℤ) (served : List κ) (w : κ → ℤ) (k : κ) : ℤ :=
  if k ∈ served then bump (w k) else w k

/-- A round serves the first counters of the order: all of them, or as many as the budget
    has. -/
theorem give_spec (bump : ℤ → ℤ) {ks : List κ} (hnodup : ks.Nodup) {budget : ℕ} (hpos : 0 < budget)
    (w : κ → ℤ) :
    ∃ served, served <+: ks ∧ served.length ≤ budget ∧ (ks ≠ [] → served ≠ []) ∧
      give bump ks budget w = (stepped bump served w, budget - served.length) := by
  induction ks generalizing budget w with
  | nil =>
    refine ⟨[], List.prefix_rfl, Nat.zero_le _, fun h => absurd rfl h, ?_⟩
    have hw : stepped bump [] w = w := funext fun k => if_neg List.not_mem_nil
    rw [give, hw, List.length_nil, Nat.sub_zero]
  | cons k ks ih =>
    obtain ⟨hk, hks⟩ := List.nodup_cons.mp hnodup
    rw [give]
    by_cases hlast : budget - 1 = 0
    · refine ⟨[k], ⟨ks, rfl⟩, hpos, fun _ => List.cons_ne_nil _ _, ?_⟩
      have hbudget : budget - [k].length = 0 := hlast
      rw [if_pos hlast, hbudget]
      congr 1
      funext j
      by_cases hj : j = k
      · subst hj
        simp [stepped]
      · simp [stepped, hj]
    · obtain ⟨served, hpre, hlen, -, hgive⟩ :=
        ih hks (show 0 < budget - 1 by omega) (Function.update w k (bump (w k)))
      refine ⟨k :: served, List.cons_prefix_cons.mpr ⟨rfl, hpre⟩, by rw [List.length_cons]; omega,
        fun _ => List.cons_ne_nil _ _, ?_⟩
      rw [if_neg hlast, hgive]
      have hbudget : budget - 1 - served.length = budget - (k :: served).length := by
        rw [List.length_cons]
        omega
      rw [hbudget]
      congr 1
      funext j
      by_cases hj : j = k
      · subst hj
        have hnot : j ∉ served := fun h => hk (hpre.subset h)
        simp [stepped, hnot]
      · simp [stepped, hj]

/-- A round changes the sum by a unit for each counter that is served. -/
theorem sum_stepped {bump : ℤ → ℤ} {step : ℤ} {s : Finset κ} {served : List κ}
    (hnodup : served.Nodup) (hsub : ∀ k ∈ served, k ∈ s) {w : κ → ℤ}
    (hbump : ∀ k ∈ served, bump (w k) = w k + step) :
    ∑ k ∈ s, stepped bump served w k = ∑ k ∈ s, w k + step * served.length := by
  have hterm : ∀ k, stepped bump served w k = w k + if k ∈ served.toFinset then step else 0 := by
    intro k
    by_cases hk : k ∈ served
    · simp [stepped, hk, hbump k hk]
    · simp [stepped, hk]
  have hinter : s ∩ served.toFinset = served.toFinset :=
    Finset.inter_eq_right.mpr fun k hk => hsub k (List.mem_toFinset.mp hk)
  calc ∑ k ∈ s, stepped bump served w k
      = ∑ k ∈ s, (w k + if k ∈ served.toFinset then step else 0) :=
        Finset.sum_congr rfl fun k _ => hterm k
    _ = ∑ k ∈ s, w k + ∑ k ∈ s ∩ served.toFinset, step := by
        rw [Finset.sum_add_distrib, Finset.sum_ite_mem]
    _ = ∑ k ∈ s, w k + step * served.length := by
        rw [hinter, Finset.sum_const, List.toFinset_card_of_nodup hnodup, nsmul_eq_mul]
        ring

section Rounds

variable {can : κ → ℤ → Bool} {bump : ℤ → ℤ} {step : ℤ} {orders : ℕ → List κ} {s : Finset κ}

/-- The rounds end within the budget. Let `P` hold of the counters with the budget that is
    left, such that a permitted step adds its unit and keeps `P`. Then `P` holds of each
    counter at the end, and the budget has been used up or no counter may move. -/
theorem spread_spec {P : ℕ → κ → ℤ → Prop}
    (hP : ∀ b k v, can k v = true → P (b + 1) k v → bump v = v + step ∧ P b k (v + step))
    (hmono : ∀ {b b' k v}, b' ≤ b → P b k v → P b' k v)
    (hnodup : ∀ i, (orders i).Nodup) (horders : ∀ i, (orders i).toFinset = s) {fuel budget : ℕ}
    (hfuel : budget < fuel) (round : ℕ) {w : κ → ℤ} (hw : ∀ k ∈ s, P budget k (w k)) :
    ∃ w' used, spread can bump orders fuel round budget w = some w' ∧ used ≤ budget ∧
      (∀ k ∈ s, P 0 k (w' k)) ∧ ∑ k ∈ s, w' k = ∑ k ∈ s, w k + step * used ∧
      (used = budget ∨ ∀ k ∈ s, can k (w' k) = false) := by
  induction fuel generalizing round budget w with
  | zero => omega
  | succ fuel ih =>
    rw [spread]
    by_cases hbudget : budget = 0
    · rw [if_pos hbudget]
      exact ⟨w, 0, rfl, Nat.zero_le _, fun k hk => hmono (Nat.zero_le _) (hw k hk), by simp,
        Or.inl hbudget.symm⟩
    rw [if_neg hbudget]
    dsimp only
    have hmem : ∀ k, k ∈ orders round ↔ k ∈ s := fun k => by
      rw [← horders round, List.mem_toFinset]
    by_cases hnil : (orders round).filter (fun k => can k (w k)) = []
    · rw [if_pos hnil]
      refine ⟨w, 0, rfl, Nat.zero_le _, fun k hk => hmono (Nat.zero_le _) (hw k hk), by simp,
        Or.inr fun k hk => ?_⟩
      by_contra hcan
      have hin : k ∈ (orders round).filter fun k => can k (w k) :=
        List.mem_filter.mpr ⟨(hmem k).mpr hk, by simpa using hcan⟩
      rw [hnil] at hin
      cases hin
    rw [if_neg hnil]
    obtain ⟨served, hpre, hlen, hne, hgive⟩ := give_spec bump
      ((hnodup round).filter fun k => can k (w k)) (Nat.pos_of_ne_zero hbudget) w
    have hserved : ∀ k ∈ served, k ∈ s ∧ can k (w k) = true := by
      intro k hk
      obtain ⟨horder, hcan⟩ := List.mem_filter.mp (hpre.subset hk)
      exact ⟨(hmem k).mp horder, hcan⟩
    have hposl := List.length_pos_of_ne_nil (hne hnil)
    have hstep : ∀ k ∈ served,
        bump (w k) = w k + step ∧ P (budget - 1) k (w k + step) := by
      intro k hk
      obtain ⟨hmem, hcan⟩ := hserved k hk
      exact hP (budget - 1) k (w k) hcan (by rw [Nat.sub_add_cancel (by omega)]; exact hw k hmem)
    have hkeep : ∀ k ∈ s, P (budget - served.length) k (stepped bump served w k) := by
      intro k hk
      unfold stepped
      split_ifs with hin
      · rw [(hstep k hin).1]
        exact hmono (by omega) (hstep k hin).2
      · exact hmono (Nat.sub_le _ _) (hw k hk)
    have hsum := sum_stepped (((hnodup round).filter _).sublist hpre.sublist)
      (fun k hk => (hserved k hk).1) (fun k hk => (hstep k hk).1)
    obtain ⟨w', used, hrun, hused, hall, hsum', hend⟩ :=
      ih (show budget - served.length < fuel by omega) (round + 1) hkeep
    refine ⟨w', served.length + used, ?_, by omega, hall, ?_, ?_⟩
    · rw [hgive]
      exact hrun
    · rw [hsum', hsum]
      push_cast
      ring
    · rcases hend with hend | hend
      · exact Or.inl (by omega)
      · exact Or.inr hend

end Rounds

end GoJump.Lib
