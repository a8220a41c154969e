import Mathlib

/-!
# Bisection

The search for the largest number up to a bound at which a test succeeds, for a test that
succeeds up to some number and fails from there on. The midpoint is rounded up, so that the
interval gets shorter in both cases. The test may fault (`none`), and the search with it.

`bisect_eq`: with fuel for the length of the interval, the search returns that number, and
the test is only made inside the interval.
-/

namespace GoJump.Lib

/-- The loop on the interval from `low` to `high`, at most `fuel` rounds of it. -/
def bisect (test : ℕ → Option Bool) : ℕ → ℕ → ℕ → Option ℕ
  | 0, _, _ => none
  | fuel + 1, low, high =>
    if low < high then
      let mid := (high - low + 1) / 2 + low
      match test mid with
      | none => none
      | some true => bisect test fuel mid high
      | some false => bisect test fuel low (mid - 1)
    else some low

/-- The test succeeds exactly up to `n`, wherever it is made above `low` and up to `high`. -/
theorem bisect_eq {test : ℕ → Option Bool} {n fuel low high : ℕ}
    (htest : ∀ k, low < k → k ≤ high → test k = some (decide (k ≤ n))) (hlow : low ≤ n)
    (hhigh : n ≤ high) (hfuel : high - low < fuel) : bisect test fuel low high = some n := by
  induction fuel generalizing low high with
  | zero => omega
  | succ fuel ih =>
    rw [bisect]
    by_cases hlt : low < high
    · rw [if_pos hlt]
      dsimp only
      have hmid : low < (high - low + 1) / 2 + low ∧ (high - low + 1) / 2 + low ≤ high := by omega
      generalize (high - low + 1) / 2 + low = mid at hmid ⊢
      rw [htest mid hmid.1 hmid.2]
      by_cases hle : mid ≤ n
      · rw [decide_eq_true hle]
        exact ih (fun k h1 h2 => htest k (by omega) h2) hle hhigh (by omega)
      · rw [decide_eq_false hle]
        exact ih (fun k h1 h2 => htest k h1 (by omega)) hlow (by omega) (by omega)
    · rw [if_neg hlt]
      congr 1
      omega

end GoJump.Lib
