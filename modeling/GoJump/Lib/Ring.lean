import Mathlib

/-!
# Rings

A ring has a fixed number of slots and the index of the slot that was written last; the next
element goes to the next slot, around the end. Going back from the head one finds the
elements in the order in which they were written, the last one first, as many as there are
slots.

* `back_succ`, `back_ne`: going back from the next head.
* `RingHolds.write`: one more element.
-/

namespace GoJump.Lib

variable {α : Type*}

/-- The slot `n` steps back from the head, around the beginning. -/
def back (size head n : ℕ) : ℕ := if n ≤ head then head - n else head + size - n

/-- The next head is the next slot, or the first one. -/
theorem next_head {size head : ℕ} (hhead : head < size) :
    (head + 1) % size = head + 1 ∧ head + 1 < size ∨ (head + 1) % size = 0 ∧ head + 1 = size := by
  rcases Nat.lt_or_eq_of_le (show head + 1 ≤ size from hhead) with hlt | heq
  · exact Or.inl ⟨Nat.mod_eq_of_lt hlt, hlt⟩
  · exact Or.inr ⟨by rw [heq, Nat.mod_self], heq⟩

/-- One step back from the next head is the head. -/
theorem back_succ {size head n : ℕ} (hhead : head < size) (hn : n + 1 < size) :
    back size ((head + 1) % size) (n + 1) = back size head n := by
  have hnext := next_head hhead
  unfold back
  split_ifs <;> omega

/-- Less than a whole turn back is another slot. -/
theorem back_ne {size head n : ℕ} (hhead : head < size) (hn : n + 1 < size) :
    back size head n ≠ (head + 1) % size := by
  have hnext := next_head hhead
  unfold back
  split_ifs <;> omega

/-- Going back from the head, the slots hold these elements. -/
def RingHolds (slots : List α) (head : ℕ) (recent : List α) : Prop :=
  ∀ n, n < recent.length → n < slots.length → slots[back slots.length head n]? = recent[n]?

theorem ringHolds_nil (slots : List α) (head : ℕ) : RingHolds slots head [] :=
  fun n hn => absurd hn (Nat.not_lt_zero n)

/-- The next element is written into the next slot, where the oldest one may have been. -/
theorem RingHolds.write {slots : List α} {head : ℕ} {recent : List α}
    (h : RingHolds slots head recent) (hhead : head < slots.length) (a : α) :
    RingHolds (slots.set ((head + 1) % slots.length) a) ((head + 1) % slots.length)
      (a :: recent) := by
  intro n hn hslots
  rw [List.length_set] at hslots ⊢
  cases n with
  | zero =>
    have hlt : (head + 1) % slots.length < slots.length := Nat.mod_lt _ (by omega)
    rw [back, if_pos (Nat.zero_le _), Nat.sub_zero, List.getElem?_set_self hlt]
    rfl
  | succ n =>
    rw [back_succ hhead hslots, List.getElem?_set_ne (back_ne hhead hslots).symm,
      List.getElem?_cons_succ]
    exact h n (Nat.lt_of_succ_lt_succ hn) (Nat.lt_of_succ_lt hslots)

end GoJump.Lib
