import Mathlib

/-!
# Joining strings with a separator

`[a].intercalate L` joins the members of `L` with the separator `a` between
them. The members may contain `a` themselves, so the join loses where one ends
and the next begins. What it keeps is the row of pieces obtained by splitting
every member at `a`.

* `intercalate_eq_iff`: two lists have the same join iff they have the same
  pieces.
* `intercalate_determines_iff`: the join tells two lists apart iff, should
  they have the same pieces, their members have as many pieces each.
-/

namespace GoJump.Lib

variable {α : Type*} [BEq α] [LawfulBEq α]

/-- The members of `L` cut at `a`, in one row. -/
def pieces (a : α) (L : List (List α)) : List (List α) := L.flatMap (List.splitOn a)

/-- How many pieces each member has. -/
def pieceCounts (a : α) (L : List (List α)) : List ℕ := L.map fun l => (l.splitOn a).length

theorem splitOn_intercalate_eq_pieces (a : α) {L : List (List α)} (h : L ≠ []) :
    ([a].intercalate L).splitOn a = pieces a L := by
  induction L with
  | nil => exact absurd rfl h
  | cons l L ih =>
    cases L with
    | nil => simp [pieces]
    | cons l' L =>
      have hjoin : [a].intercalate (l :: l' :: L) = l ++ a :: [a].intercalate (l' :: L) := by
        rw [List.intercalate_cons_cons, List.append_assoc, List.singleton_append]
      have hsplit : (l ++ a :: [a].intercalate (l' :: L)).splitOn a =
          l.splitOn a ++ ([a].intercalate (l' :: L)).splitOn a :=
        List.splitOnP_append_cons _ _ (beq_self_eq_true a)
      rw [hjoin, hsplit, ih (List.cons_ne_nil _ _)]
      rfl

theorem splitOn_injective (a : α) :
    Function.Injective (List.splitOn a : List α → List (List α)) := by
  have hback : ∀ l : List α, [a].intercalate (l.splitOn a) = l :=
    fun _ => List.intercalate_splitOn a
  intro l m h
  rw [← hback l, h, hback m]

theorem intercalate_eq_iff (a : α) {L M : List (List α)} (hL : L ≠ []) (hM : M ≠ []) :
    [a].intercalate L = [a].intercalate M ↔ pieces a L = pieces a M := by
  rw [← splitOn_intercalate_eq_pieces a hL, ← splitOn_intercalate_eq_pieces a hM,
    (splitOn_injective a).eq_iff]

/-- A list is known from its pieces and how many belong to each member. -/
theorem eq_iff_pieces (a : α) {L M : List (List α)} :
    L = M ↔ pieces a L = pieces a M ∧ pieceCounts a L = pieceCounts a M := by
  rw [← (List.map_injective_iff.mpr (splitOn_injective a)).eq_iff, List.eq_iff_flatten_eq]
  simp only [pieces, pieceCounts, List.flatMap, List.map_map, Function.comp_def]

theorem intercalate_determines_iff (a : α) {L M : List (List α)} (hL : L ≠ []) (hM : M ≠ []) :
    ([a].intercalate L = [a].intercalate M → L = M) ↔
      (pieces a L = pieces a M → pieceCounts a L = pieceCounts a M) := by
  rw [intercalate_eq_iff a hL hM]
  constructor
  · intro h hp
    rw [h hp]
  · intro h hp
    exact (eq_iff_pieces a).mpr ⟨hp, h hp⟩

end GoJump.Lib
