import GoJump.Lib.Fallible

/-!
# Slices

A slice is a part of an array: its elements, and behind them what the array has up to the
capacity. Taking a part of a slice may go beyond its length, into the capacity; every other
index has to be within the length. What Go answers with a panic is `none`.

* `Slice.insert_spec`: an element is inserted by moving those behind it in place.
* `Slice.delete_spec`: elements are deleted by moving those behind them in place.
-/

namespace GoJump.Go

open GoJump.Lib

variable {α : Type}

/-- The array from the first element of the slice up to its capacity, and the length. -/
structure Slice (α : Type) where
  array : List α
  len : ℕ
  len_le : len ≤ array.length

namespace Slice

/-- The elements. -/
def elems (s : Slice α) : List α := s.array.take s.len

/-- A new slice of these elements. -/
def ofList (l : List α) : Slice α := ⟨l, l.length, le_rfl⟩

/-- `s[:n]`, up to the capacity. -/
def upTo (s : Slice α) (n : ℕ) : Option (Slice α) :=
  if h : n ≤ s.array.length then some ⟨s.array, n, h⟩ else none

/-- The elements of `s[i:]`. -/
def after (s : Slice α) (i : ℕ) : Option (List α) :=
  if i ≤ s.len then some (s.elems.drop i) else none

/-- `copy(s[dst:], s[src:])`: as many elements as there are in both. -/
def copyWithin (s : Slice α) (dst src : ℕ) : Option (Slice α) :=
  if h : dst ≤ s.len ∧ src ≤ s.len then
    let n := min (s.len - dst) (s.len - src)
    some {
      array := s.array.take dst ++ ((s.array.drop src).take n ++ s.array.drop (dst + n))
      len := s.len
      len_le := by
        have := s.len_le
        simp only [List.length_append, List.length_take, List.length_drop]
        omega }
  else none

/-- `s[i] = a`. -/
def set (s : Slice α) (i : ℕ) (a : α) : Option (Slice α) :=
  if i < s.len then
    some ⟨s.array.set i a, s.len, by rw [List.length_set]; exact s.len_le⟩
  else none

/-- A copy of the slice in a new array with the given capacity, `zero` behind it. -/
def grow (s : Slice α) (zero : α) (cap : ℕ) : Slice α where
  array := s.elems ++ List.replicate (cap - s.len) zero
  len := s.len
  len_le := by
    have := s.len_le
    rw [List.length_append, elems, List.length_take]
    omega

@[simp] theorem length_elems (s : Slice α) : s.elems.length = s.len := by
  rw [elems, List.length_take, min_eq_left s.len_le]

@[simp] theorem elems_ofList (l : List α) : (ofList l).elems = l := List.take_length

@[simp] theorem len_ofList (l : List α) : (ofList l).len = l.length := rfl

@[simp] theorem elems_grow (s : Slice α) (zero : α) (cap : ℕ) : (s.grow zero cap).elems = s.elems :=
  List.take_left' s.length_elems

/-- `s[:n]` within the length. -/
theorem upTo_spec {s : Slice α} {n : ℕ} (h : n ≤ s.len) :
    Returns (s.upTo n) fun s' => s'.elems = s.elems.take n := by
  refine ⟨⟨s.array, n, h.trans s.len_le⟩, dif_pos _, ?_⟩
  show s.array.take n = (s.array.take s.len).take n
  rw [List.take_take, min_eq_left h]

/-- `s[:len(s)+1]`: the next element of the array comes with it. -/
theorem upTo_succ_spec {s : Slice α} (h : s.len < s.array.length) :
    Returns (s.upTo (s.len + 1)) fun s' => ∃ a, s'.elems = s.elems ++ [a] := by
  refine ⟨⟨s.array, s.len + 1, h⟩, dif_pos _, s.array[s.len], ?_⟩
  show s.array.take (s.len + 1) = s.array.take s.len ++ [s.array[s.len]]
  rw [List.take_add_one, List.getElem?_eq_getElem h]
  rfl

theorem copyWithin_spec {s : Slice α} {dst src : ℕ} (hdst : dst ≤ s.len) (hsrc : src ≤ s.len) :
    Returns (s.copyWithin dst src) fun s' =>
      s'.elems = s.elems.take dst ++ ((s.elems.drop src).take (s.len - dst) ++
        s.elems.drop (dst + (s.len - src))) := by
  obtain ⟨tail, harray⟩ : s.elems <+: s.array := List.take_prefix _ _
  have hlen := s.length_elems
  refine ⟨_, dif_pos ⟨hdst, hsrc⟩, ?_⟩
  show (s.array.take dst ++ ((s.array.drop src).take (min (s.len - dst) (s.len - src)) ++
    s.array.drop (dst + min (s.len - dst) (s.len - src)))).take s.len = _
  generalize s.elems = e at harray hlen ⊢
  have hcopied : (s.array.drop src).take (min (s.len - dst) (s.len - src)) =
      (e.drop src).take (s.len - dst) := by
    rw [← harray, List.drop_append_of_le_length (by omega),
      List.take_append_of_le_length (by rw [List.length_drop]; omega)]
    rcases Nat.le_total (s.len - dst) (s.len - src) with hle | hle
    · rw [min_eq_left hle]
    · rw [min_eq_right hle, List.take_of_length_le (by rw [List.length_drop]; omega),
        List.take_of_length_le (by rw [List.length_drop]; omega)]
  have hkept : s.array.drop (dst + min (s.len - dst) (s.len - src)) =
      e.drop (dst + (s.len - src)) ++ tail := by
    rw [← harray, List.drop_append_of_le_length (by omega)]
    rcases Nat.le_total (s.len - dst) (s.len - src) with hle | hle
    · rw [List.drop_eq_nil_of_le (by omega), List.drop_eq_nil_of_le (by omega)]
    · rw [min_eq_right hle]
  have hfirst : s.array.take dst = e.take dst := by
    rw [← harray, List.take_append_of_le_length (by omega)]
  rw [hfirst, hcopied, hkept, ← List.append_assoc, ← List.append_assoc, List.take_left',
    List.append_assoc]
  simp only [List.length_append, List.length_take, List.length_drop]
  omega

theorem after_spec {s : Slice α} {i : ℕ} (h : i ≤ s.len) : s.after i = some (s.elems.drop i) :=
  if_pos h

theorem set_spec {s : Slice α} {i : ℕ} (h : i < s.len) (a : α) :
    Returns (s.set i a) fun s' => s'.elems = s.elems.set i a :=
  ⟨_, if_pos h, List.take_set⟩

/-- A full slice gets a new array with more room. -/
def withRoom (s : Slice α) (zero : α) : Slice α :=
  if s.len = s.array.length then s.grow zero (2 * (1 + s.len)) else s

theorem elems_withRoom (s : Slice α) (zero : α) : (s.withRoom zero).elems = s.elems := by
  unfold withRoom
  split_ifs
  · exact s.elems_grow zero _
  · rfl

theorem len_withRoom_lt (s : Slice α) (zero : α) :
    (s.withRoom zero).len < (s.withRoom zero).array.length := by
  have hle := s.len_le
  unfold withRoom
  split_ifs with hfull
  · show s.len < (s.elems ++ List.replicate _ zero).length
    rw [List.length_append, length_elems, List.length_replicate]
    omega
  · omega

/-- An element inserted at `i`: the slice is made longer by one, what is behind `i` moves,
    and the element is written to its place. -/
def insert (s : Slice α) (zero : α) (i : ℕ) (a : α) : Option (Slice α) := do
  let s := s.withRoom zero
  let s ← s.upTo (s.len + 1)
  let s ← s.copyWithin (i + 1) i
  s.set i a

theorem insert_spec {s : Slice α} {i : ℕ} (h : i ≤ s.len) (zero a : α) :
    Returns (s.insert zero i a) fun s' => s'.elems = s.elems.take i ++ a :: s.elems.drop i := by
  refine (upTo_succ_spec (s.len_withRoom_lt zero)).bind fun s₁ h₁ => ?_
  obtain ⟨b, h₁⟩ := h₁
  rw [elems_withRoom] at h₁
  have hlen₁ : s₁.len = s.len + 1 := by
    rw [← s₁.length_elems, h₁, List.length_append, length_elems, List.length_singleton]
  refine (copyWithin_spec (by omega) (by omega)).bind fun s₂ h₂ => ?_
  have hlen₂ : s₂.len = s.len + 1 := by
    rw [← s₂.length_elems, h₂]
    simp only [List.length_append, List.length_take, List.length_drop, length_elems]
    omega
  refine (set_spec (by omega) a).mono fun s₃ h₃ => ?_
  have hi : i < (s.elems ++ [b]).length := by
    rw [List.length_append, length_elems, List.length_singleton]
    omega
  have hfirst : (s.elems ++ [b]).take (i + 1) = s.elems.take i ++ [(s.elems ++ [b])[i]] := by
    rw [List.take_add_one, List.take_append_of_le_length (by rw [length_elems]; exact h),
      List.getElem?_eq_getElem hi]
    rfl
  have hmoved : ((s.elems ++ [b]).drop i).take (s.len + 1 - (i + 1)) = s.elems.drop i := by
    rw [List.drop_append_of_le_length (by rw [length_elems]; exact h),
      List.take_left' (by rw [List.length_drop, length_elems]; omega)]
  have hkept : (s.elems ++ [b]).drop (i + 1 + (s.len + 1 - i)) = [] := by
    apply List.drop_eq_nil_of_le
    rw [List.length_append, length_elems, List.length_singleton]
    omega
  have htake : (s.elems.take i).length = i := by rw [List.length_take, length_elems, min_eq_left h]
  rw [h₃, h₂, h₁, hlen₁, hfirst, hmoved, hkept, List.append_nil, List.append_assoc,
    List.set_append_right i a htake.le, htake, Nat.sub_self]
  rfl

/-- The `n` elements from `i` on deleted: what is behind them moves, and the slice is cut. -/
def delete (s : Slice α) (i n : ℕ) : Option (Slice α) := do
  let s ← s.copyWithin i (n + i)
  s.upTo (s.len - n)

theorem delete_spec {s : Slice α} {i n : ℕ} (h : i + n ≤ s.len) :
    Returns (s.delete i n) fun s' => s'.elems = s.elems.take i ++ s.elems.drop (i + n) := by
  refine (copyWithin_spec (by omega) (by omega)).bind fun s₁ h₁ => ?_
  have hlen₁ : s₁.len = s.len := by
    rw [← s₁.length_elems, h₁]
    simp only [List.length_append, List.length_take, List.length_drop, length_elems]
    omega
  refine (upTo_spec (Nat.sub_le _ _)).mono fun s₂ h₂ => ?_
  have hmoved : (s.elems.drop (n + i)).take (s.len - i) = s.elems.drop (i + n) := by
    rw [Nat.add_comm n i, List.take_of_length_le (by rw [List.length_drop, length_elems]; omega)]
  rw [h₂, h₁, hlen₁, hmoved, ← List.append_assoc, List.take_left']
  rw [List.length_append, List.length_take, List.length_drop, length_elems]
  omega

end Slice

end GoJump.Go
