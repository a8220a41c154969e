import Mathlib

/-!
# Tables

Rows are a list, a query is a filter, and a scan of the result into one variable leaves the
last row. `IsLast` says which one that is. When no two rows have the same key, a query by
key returns the one row that has it.
-/

namespace GoJump.Lib

variable {ρ κ : Type*} [DecidableEq κ] {key : ρ → κ}

theorem filter_key_eq {rows : List ρ} (hn : (rows.map key).Nodup) {r : ρ} (hr : r ∈ rows) :
    (rows.filter fun s => key s = key r) = [r] := by
  induction rows with
  | nil => simp at hr
  | cons s rows ih =>
    rw [List.map_cons, List.nodup_cons] at hn
    obtain ⟨hnot, hn⟩ := hn
    rcases List.mem_cons.mp hr with rfl | hr
    · rw [List.filter_cons_of_pos (by simp), List.filter_eq_nil_iff.mpr]
      intro x hx heq
      exact hnot (List.mem_map.mpr ⟨x, hx, by simpa using heq⟩)
    · rw [List.filter_cons_of_neg, ih hn hr]
      intro heq
      exact hnot (List.mem_map.mpr ⟨r, hr, by simpa using (Eq.symm (by simpa using heq))⟩)

/-- The last row with the key, if there is one, is the only one. -/
theorem getLast?_filter_key {rows : List ρ} (hn : (rows.map key).Nodup) {k : κ} {r : ρ} :
    (rows.filter fun s => key s = k).getLast? = some r ↔ r ∈ rows ∧ key r = k := by
  constructor
  · intro h
    have hmem := List.mem_of_getLast? h
    simpa [List.mem_filter] using hmem
  · rintro ⟨hr, rfl⟩
    rw [filter_key_eq hn hr]
    rfl

/-! ## The last row with a property -/

/-- `row` is in `rows` and has the property, and none that follows it has. -/
def IsLast (p : ρ → Prop) (rows : List ρ) (row : ρ) : Prop :=
  ∃ earlier later, rows = earlier ++ row :: later ∧ p row ∧ ∀ r ∈ later, ¬ p r

section IsLast

variable {p : ρ → Prop} {rows : List ρ} {row : ρ}

theorem IsLast.mem (h : IsLast p rows row) : row ∈ rows := by
  obtain ⟨earlier, later, rfl, -⟩ := h
  exact List.mem_append_right _ List.mem_cons_self

theorem IsLast.prop (h : IsLast p rows row) : p row := by
  obtain ⟨earlier, later, -, hp, -⟩ := h
  exact hp

variable [DecidablePred p]

theorem getLast?_filter_eq_some : (rows.filter p).getLast? = some row ↔ IsLast p rows row := by
  rw [List.getLast?_eq_head?_reverse, ← List.filter_reverse, List.head?_filter,
    List.find?_eq_some_iff_append]
  constructor
  · rintro ⟨hp, later, earlier, hrows, hlater⟩
    refine ⟨earlier.reverse, later.reverse, ?_, by simpa using hp, fun r hr => ?_⟩
    · rw [← List.reverse_reverse rows, hrows]
      simp
    · simpa using hlater r (List.mem_reverse.mp hr)
  · rintro ⟨earlier, later, rfl, hp, hlater⟩
    refine ⟨by simpa using hp, later.reverse, earlier.reverse, by simp, fun r hr => ?_⟩
    simpa using hlater r (List.mem_reverse.mp hr)

/-- A row other than the initial value is left by a scan exactly if it is the last one. -/
theorem getLastD_filter_eq {init : ρ} (hne : init ≠ row) :
    (rows.filter p).getLastD init = row ↔ IsLast p rows row := by
  rw [← getLast?_filter_eq_some, List.getLastD_eq_getLast?]
  cases (rows.filter p).getLast? with
  | none => simp [hne]
  | some r => simp

end IsLast

end GoJump.Lib
