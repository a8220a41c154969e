import Mathlib

/-!
# Logs of insertions and removals

A log records, in order, what was put into a collection and what was taken out
of it; a removal takes out several elements at once. `Live log x` says that the
last thing the log did to `x` was to put it in. A model keeps such a log beside
its state to say what the state stands for.

* `live_append_add`, `live_append_remove`: what one more entry changes.
* `Justified`: only live elements are ever removed.
* `not_removed_of_single`: if the log put in one element with a property, and it
  is live, then nothing with that property was ever removed.
-/

namespace GoJump.Lib

variable {ι : Type*}

inductive LogEntry (ι : Type*)
  | add (x : ι)
  | remove (gone : Set ι)

open LogEntry

/-- `x` was put in and has not been removed since. -/
def Live (log : List (LogEntry ι)) (x : ι) : Prop :=
  ∃ pre post, log = pre ++ add x :: post ∧ ∀ gone, remove gone ∈ post → x ∉ gone

theorem not_live_nil (x : ι) : ¬ Live [] x := by
  rintro ⟨pre, post, h, _⟩
  simp at h

theorem Live.add_mem {log : List (LogEntry ι)} {x : ι} (h : Live log x) : add x ∈ log := by
  obtain ⟨pre, post, rfl, _⟩ := h
  simp

/-- The way an entry at the end of a log lies in a split of it. -/
theorem snoc_eq_append_cons {α : Type*} {l pre post : List α} {a b : α}
    (h : l ++ [b] = pre ++ a :: post) :
    (post = [] ∧ l = pre ∧ b = a) ∨ ∃ post', post = post' ++ [b] ∧ l = pre ++ a :: post' := by
  rcases List.append_eq_append_iff.mp h with ⟨mid, rfl, hb⟩ | ⟨mid, rfl, ha⟩
  · have hmid : mid = [] := List.eq_nil_of_length_eq_zero (by
      have := congrArg List.length hb
      simp only [List.length_append, List.length_cons, List.length_nil] at this
      omega)
    subst hmid
    obtain ⟨rfl, rfl⟩ := List.cons.inj hb
    exact Or.inl ⟨rfl, by simp, rfl⟩
  · cases mid with
    | nil =>
      obtain ⟨rfl, rfl⟩ := List.cons.inj ha
      exact Or.inl ⟨rfl, by simp, rfl⟩
    | cons m mid =>
      obtain ⟨rfl, rfl⟩ := List.cons.inj ha
      exact Or.inr ⟨mid, rfl, rfl⟩

theorem live_append_add {log : List (LogEntry ι)} {x y : ι} :
    Live (log ++ [add y]) x ↔ x = y ∨ Live log x := by
  constructor
  · rintro ⟨pre, post, h, hgone⟩
    rcases snoc_eq_append_cons h with ⟨_, _, hy⟩ | ⟨post', rfl, rfl⟩
    · exact Or.inl (LogEntry.add.inj hy).symm
    · exact Or.inr ⟨pre, post', rfl, fun g hg => hgone g (List.mem_append_left _ hg)⟩
  · rintro (rfl | ⟨pre, post, rfl, hgone⟩)
    · exact ⟨log, [], rfl, fun g hg => absurd hg List.not_mem_nil⟩
    · refine ⟨pre, post ++ [add y], by simp, fun g hg => hgone g ?_⟩
      simpa using hg

theorem live_append_remove {log : List (LogEntry ι)} {x : ι} {gone : Set ι} :
    Live (log ++ [remove gone]) x ↔ Live log x ∧ x ∉ gone := by
  constructor
  · rintro ⟨pre, post, h, hgone⟩
    rcases snoc_eq_append_cons h with ⟨_, _, hy⟩ | ⟨post', rfl, rfl⟩
    · cases hy
    · exact ⟨⟨pre, post', rfl, fun g hg => hgone g (List.mem_append_left _ hg)⟩,
        hgone gone (by simp)⟩
  · rintro ⟨⟨pre, post, rfl, hgone⟩, hx⟩
    refine ⟨pre, post ++ [remove gone], by simp, fun g hg => ?_⟩
    rcases List.mem_append.mp hg with hg | hg
    · exact hgone g hg
    · rw [LogEntry.remove.inj (List.mem_singleton.mp hg)]
      exact hx

/-- Every removal takes out elements that were live then. -/
def Justified (log : List (LogEntry ι)) : Prop :=
  ∀ pre gone post, log = pre ++ remove gone :: post → ∀ x ∈ gone, Live pre x

theorem justified_nil : Justified ([] : List (LogEntry ι)) := by
  intro pre gone post h
  simp at h

theorem Justified.append_add {log : List (LogEntry ι)} (h : Justified log) (y : ι) :
    Justified (log ++ [add y]) := by
  intro pre gone post heq
  rcases snoc_eq_append_cons heq with ⟨_, _, hy⟩ | ⟨post', _, hlog⟩
  · cases hy
  · exact h pre gone post' hlog

theorem Justified.append_remove {log : List (LogEntry ι)} {gone : Set ι} (h : Justified log)
    (hgone : ∀ x ∈ gone, Live log x) : Justified (log ++ [remove gone]) := by
  intro pre g post heq
  rcases snoc_eq_append_cons heq with ⟨_, rfl, hy⟩ | ⟨post', _, hlog⟩
  · rw [← LogEntry.remove.inj hy]
    exact hgone
  · exact h pre g post' hlog

/-- The elements a log has put in. -/
def added (log : List (LogEntry ι)) : List ι :=
  log.filterMap fun e => match e with
    | add x => some x
    | remove _ => none

theorem mem_added {log : List (LogEntry ι)} {x : ι} : x ∈ added log ↔ add x ∈ log := by
  unfold added
  rw [List.mem_filterMap]
  constructor
  · rintro ⟨e, he, hx⟩
    cases e with
    | add y => cases hx; exact he
    | remove gone => cases hx
  · intro h
    exact ⟨add x, h, rfl⟩

/-- If `x` is live and the log has put in no other element with the property
    `p`, then no element with that property was ever removed. -/
theorem not_removed_of_single {log : List (LogEntry ι)} (hj : Justified log) {p : ι → Bool} {x : ι}
    (hx : Live log x) (hpx : p x = true) (hone : (added log).countP p ≤ 1) :
    ∀ gone, remove gone ∈ log → ∀ y ∈ gone, p y ≠ true := by
  obtain ⟨pre, post, rfl, hsince⟩ := hx
  have hsplit : added (pre ++ add x :: post) = added pre ++ x :: added post := by
    simp [added]
  rw [hsplit, List.countP_append, List.countP_cons_of_pos hpx] at hone
  have hpre : ∀ z, p z = true → add z ∉ pre := by
    intro z hz hmem
    have := List.countP_pos_iff.mpr ⟨z, mem_added.mpr hmem, hz⟩
    omega
  have hpost : ∀ z, p z = true → add z ∉ post := by
    intro z hz hmem
    have := List.countP_pos_iff.mpr ⟨z, mem_added.mpr hmem, hz⟩
    omega
  intro gone hg y hy hpy
  rcases List.mem_append.mp hg with hg | hg
  · obtain ⟨p1, p2, rfl⟩ := List.append_of_mem hg
    have := (hj p1 gone (p2 ++ add x :: post) (by simp) y hy).add_mem
    exact hpre y hpy (List.mem_append_left _ this)
  · rcases List.mem_cons.mp hg with hg | hg
    · cases hg
    · obtain ⟨p1, p2, rfl⟩ := List.append_of_mem hg
      have hmem := (hj (pre ++ add x :: p1) gone p2 (by simp) y hy).add_mem
      rcases List.mem_append.mp hmem with hmem | hmem
      · exact hpre y hpy hmem
      · rcases List.mem_cons.mp hmem with heq | hmem
        · rw [LogEntry.add.inj heq] at hy
          exact hsince gone hg hy
        · exact hpost y hpy (List.mem_append_left _ hmem)

end GoJump.Lib
