import GoJump.Lib.Run

/-!
# Interleavings of processes over a shared state

A `Pool` is a shared state together with a list of processes. An action `(i, a)`
lets process `i` take one atomic step; `a` is the outcome of what the process
does not control (a random value, a database error, which ready case a `select`
takes). A step may start further processes, which join the end of the pool, so
a run of `step exec` is one interleaving of all of them.

* `PoolInv`: an invariant in three parts, on the shared state, on each process
  against the shared state, and on each pair of processes.
* `PoolInv.step`: the proof rule for it. The obligations speak of one process
  step and of the processes that stand still, never of the pool.
* `run_descends`: without new processes, each one goes through its own stages.
* `run_barrier`: what a process that waits for others has seen the end of.
* `countP_step`: how one step changes the number of processes in a phase.
-/

namespace GoJump.Lib

/-- What one atomic step of a process does: the shared state after it, where
    the process stands then, and the processes it has started. -/
structure Effect (σ π : Type*) where
  shared : σ
  proc : π
  spawned : List π := []

/-- A shared state and the processes that run over it. -/
structure Pool (σ π : Type*) where
  shared : σ
  procs : List π

namespace Pool

variable {σ π α : Type*}

/-- Process `i` takes a step with outcome `a`. -/
def step (exec : σ → π → α → Option (Effect σ π)) (c : Pool σ π) (l : ℕ × α) :
    Option (Pool σ π) :=
  match c.procs[l.1]? with
  | none => none
  | some p =>
    (exec c.shared p l.2).map fun e => ⟨e.shared, c.procs.set l.1 e.proc ++ e.spawned⟩

variable {exec : σ → π → α → Option (Effect σ π)} {c c' : Pool σ π} {i : ℕ} {a : α}

theorem step_cases (h : step exec c (i, a) = some c') :
    ∃ p e, c.procs[i]? = some p ∧ exec c.shared p a = some e ∧ c'.shared = e.shared ∧
      c'.procs = c.procs.set i e.proc ++ e.spawned := by
  unfold step at h
  split at h
  · cases h
  · rename_i p hp
    obtain ⟨e, he, rfl⟩ := Option.map_eq_some_iff.mp h
    exact ⟨p, e, hp, he, rfl, rfl⟩

theorem step_of_exec {p : π} {e : Effect σ π} (hp : c.procs[i]? = some p)
    (he : exec c.shared p a = some e) :
    step exec c (i, a) = some ⟨e.shared, c.procs.set i e.proc ++ e.spawned⟩ := by
  unfold step
  dsimp only
  rw [hp]
  dsimp only
  rw [he, Option.map_some]

/-- The processes of the pool after a step: the one that moved, one that stood
    still, or one that was started. -/
theorem getElem?_after {l : List π} {p' q : π} {new : List π} {j : ℕ} (hi : i < l.length)
    (h : (l.set i p' ++ new)[j]? = some q) :
    (j = i ∧ q = p') ∨ (j ≠ i ∧ l[j]? = some q) ∨ (l.length ≤ j ∧ q ∈ new) := by
  rcases Nat.lt_or_ge j l.length with hj | hj
  · rw [List.getElem?_append_left (by simpa using hj), List.getElem?_set] at h
    split_ifs at h with hij
    · subst hij
      exact Or.inl ⟨rfl, (Option.some.inj h).symm⟩
    · exact Or.inr (Or.inl ⟨fun e => hij e.symm, h⟩)
  · rw [List.getElem?_append_right (by simpa using hj)] at h
    exact Or.inr (Or.inr ⟨hj, List.mem_of_getElem? h⟩)

/-- The scheduled process is where its step left it. -/
theorem getElem?_self {p q : π} {new : List π} {l : List π} (h : l[i]? = some q) :
    (l.set i p ++ new)[i]? = some p := by
  have hi : i < l.length := (List.getElem?_eq_some_iff.mp h).1
  rw [List.getElem?_append_left (by simpa using hi), List.getElem?_set, if_pos rfl, if_pos hi]

/-- What a step does to the process at place `j`: it moves, or it stands still. -/
theorem step_at {j : ℕ} {q : π} (h : step exec c (i, a) = some c') (hq : c.procs[j]? = some q) :
    (j = i ∧ ∃ e, exec c.shared q a = some e ∧ c'.shared = e.shared ∧ c'.procs[j]? = some e.proc) ∨
      (j ≠ i ∧ c'.procs[j]? = some q) := by
  obtain ⟨p, e, hp, he, hsh, hpr⟩ := step_cases h
  rw [hpr]
  by_cases hij : j = i
  · subst hij
    rw [hp] at hq
    cases hq
    exact Or.inl ⟨rfl, e, he, hsh, getElem?_self hp⟩
  · have hj : j < c.procs.length := (List.getElem?_eq_some_iff.mp hq).1
    refine Or.inr ⟨hij, ?_⟩
    rw [List.getElem?_append_left (by simpa using hj), List.getElem?_set_ne (Ne.symm hij), hq]

/-- How a step changes the number of processes that satisfy `f`. -/
theorem countP_step (f : π → Bool) {l : List π} {p : π} (p' : π) (new : List π)
    (h : l[i]? = some p) :
    (l.set i p' ++ new).countP f + (if f p then 1 else 0) =
      l.countP f + (if f p' then 1 else 0) + new.countP f := by
  obtain ⟨hi, rfl⟩ := List.getElem?_eq_some_iff.mp h
  have hpos : f l[i] = true → 0 < l.countP f := fun hf =>
    List.countP_pos_iff.mpr ⟨l[i], List.getElem_mem hi, hf⟩
  rw [List.countP_append, List.countP_set hi]
  by_cases h1 : f l[i] = true
  · have := hpos h1
    simp only [h1, if_true]
    omega
  · simp only [h1, Bool.false_eq_true, if_false]
    omega

/-- An invariant of a pool: `I` of the shared state, `P` of every process and
    `R` of every two processes. -/
structure PoolInv (I : σ → Prop) (P : σ → π → Prop) (R : σ → π → π → Prop) (c : Pool σ π) :
    Prop where
  shared : I c.shared
  each : ∀ (i : ℕ) p, c.procs[i]? = some p → P c.shared p
  pair : ∀ (i j : ℕ) p q, i ≠ j → c.procs[i]? = some p → c.procs[j]? = some q → R c.shared p q

/-- A condition on a step that compares the process taking it with each other
    process of the pool. -/
def Guard (G : σ → π → α → π → Prop) (c : Pool σ π) (l : ℕ × α) : Prop :=
  ∀ p ∈ c.procs[l.1]?, ∀ q ∈ c.procs.eraseIdx l.1, G c.shared p l.2 q

instance (G : σ → π → α → π → Prop) [∀ s p a q, Decidable (G s p a q)] (c : Pool σ π) (l : ℕ × α) :
    Decidable (Guard G c l) :=
  inferInstanceAs (Decidable (∀ p ∈ c.procs[l.1]?, ∀ q ∈ c.procs.eraseIdx l.1, G c.shared p l.2 q))

variable {I : σ → Prop} {P : σ → π → Prop} {R : σ → π → π → Prop} {G : σ → π → α → π → Prop}

/-- The proof rule for `PoolInv`. A step of process `p` must establish `I` and
    its own `P` (`hself`), keep `P` of a process `q` that stands still and relate
    it to the new `p` (`hother`), keep `R` between two that stand still (`hrest`),
    and start only processes that `R` relates to every other one (`hspawn`). -/
theorem PoolInv.step (hsymm : ∀ s p q, R s p q → R s q p)
    (hself : ∀ s p a e, I s → P s p → exec s p a = some e → I e.shared ∧ P e.shared e.proc)
    (hother : ∀ s p a e q, I s → P s p → P s q → R s p q → G s p a q → exec s p a = some e →
      P e.shared q ∧ R e.shared e.proc q)
    (hrest : ∀ s p a e q r, I s → P s p → P s q → P s r → R s q r → exec s p a = some e →
      R e.shared q r)
    (hspawn : ∀ s p a e n, I s → P s p → exec s p a = some e → n ∈ e.spawned →
      P e.shared n ∧ ∀ q, R e.shared q n)
    (hinv : PoolInv I P R c) (hG : Guard G c (i, a)) (h : step exec c (i, a) = some c') :
    PoolInv I P R c' := by
  obtain ⟨p, e, hp, he, hsh, hpr⟩ := step_cases h
  have hi : i < c.procs.length := (List.getElem?_eq_some_iff.mp hp).1
  have hIP := hself _ p a e hinv.shared (hinv.each i p hp) he
  -- what a process that stands still satisfies after the step
  have hstill : ∀ (j : ℕ) q, j ≠ i → c.procs[j]? = some q → P e.shared q ∧ R e.shared e.proc q :=
    fun j q hj hq => hother _ p a e q hinv.shared (hinv.each i p hp) (hinv.each j q hq)
      (hinv.pair i j p q (Ne.symm hj) hp hq)
      (hG p hp q (List.mem_eraseIdx_iff_getElem?.mpr ⟨j, hj, hq⟩)) he
  have hnew : ∀ n ∈ e.spawned, P e.shared n ∧ ∀ q, R e.shared q n :=
    fun n hn => hspawn _ p a e n hinv.shared (hinv.each i p hp) he hn
  refine ⟨hsh ▸ hIP.1, ?_, ?_⟩
  · intro j q hq
    rw [hpr] at hq
    rw [hsh]
    rcases getElem?_after hi hq with ⟨_, rfl⟩ | ⟨hj, hq⟩ | ⟨_, hq⟩
    · exact hIP.2
    · exact (hstill j q hj hq).1
    · exact (hnew q hq).1
  · intro j k q r hjk hq hr
    rw [hpr] at hq hr
    rw [hsh]
    rcases getElem?_after hi hr with ⟨hk, rfl⟩ | ⟨hk, hr'⟩ | ⟨_, hr'⟩
    · rcases getElem?_after hi hq with ⟨hj, rfl⟩ | ⟨hj, hq'⟩ | ⟨_, hq'⟩
      · exact absurd (hj.trans hk.symm) hjk
      · exact hsymm _ _ _ (hstill j q hj hq').2
      · exact hsymm _ _ _ ((hnew q hq').2 _)
    · rcases getElem?_after hi hq with ⟨hj, rfl⟩ | ⟨hj, hq'⟩ | ⟨_, hq'⟩
      · exact (hstill k r hk hr').2
      · exact hrest _ p a e q r hinv.shared (hinv.each i p hp) (hinv.each j q hq')
          (hinv.each k r hr') (hinv.pair j k q r hjk hq' hr') he
      · exact hsymm _ _ _ ((hnew q hq').2 r)
    · exact (hnew r hr').2 q

/-- Every process of `c` is a stage of the process that stood at its place in
    `c₀`. -/
def Descends (Stage : π → π → Prop) (c₀ c : Pool σ π) : Prop :=
  ∀ (i : ℕ) p, c.procs[i]? = some p → ∃ p₀, c₀.procs[i]? = some p₀ ∧ Stage p₀ p

/-- In a system that starts no processes, each one goes through the stages of
    what it was at first. -/
theorem run_descends {Stage : π → π → Prop} {c₀ : Pool σ π} {as : List (ℕ × α)}
    (hrefl : ∀ p, Stage p p)
    (hstep : ∀ s p₀ p a e, Stage p₀ p → exec s p a = some e → Stage p₀ e.proc ∧ e.spawned = [])
    (h : run (step exec) c₀ as = some c) : Descends Stage c₀ c := by
  refine run_inv' (fun c l c' hc h => ?_) (fun i p hp => ⟨p, hp, hrefl p⟩) h
  obtain ⟨j, a⟩ := l
  obtain ⟨p, e, hp, he, _, hpr⟩ := step_cases h
  obtain ⟨p₀, hp₀, hst⟩ := hc j p hp
  obtain ⟨hst', hnone⟩ := hstep _ p₀ p a e hst he
  intro i q hq
  rw [hpr] at hq
  rcases getElem?_after (List.getElem?_eq_some_iff.mp hp).1 hq with ⟨rfl, rfl⟩ | ⟨_, hq⟩ | ⟨_, hq⟩
  · exact ⟨p₀, hp₀, hst'⟩
  · exact hc i q hq
  · rw [hnone] at hq
    exact absurd hq List.not_mem_nil

/-- Process `i` is busy or has ended, and it has ended if process `j` is past the barrier. -/
def Barrier (past busy ended : π → Prop) (i j : ℕ) (c : Pool σ π) : Prop :=
  ∃ w p, c.procs[j]? = some w ∧ c.procs[i]? = some p ∧ (busy p ∨ ended p) ∧ (past w → ended p)

section Barrier

variable {past busy ended : π → Prop} {j : ℕ}
  (hbusy : ∀ s p a e, exec s p a = some e → busy p → busy e.proc ∨ ended e.proc)
  (hended : ∀ s p a e, exec s p a = some e → ended p → ended e.proc)

include hbusy hended

theorem Barrier.step {l : ℕ × α} (hc : Barrier past busy ended i j c)
    (hpast : ∀ p e, exec c.shared p l.2 = some e → ¬ past p → past e.proc →
      ∀ q ∈ c.procs, ¬ busy q)
    (h : step exec c l = some c') : Barrier past busy ended i j c' := by
  obtain ⟨k, a⟩ := l
  obtain ⟨w, p, hw, hp, hor, himp⟩ := hc
  -- process `i` after the step, whichever process takes it
  have hp' : ∃ p', c'.procs[i]? = some p' ∧ (busy p' ∨ ended p') ∧ (ended p → ended p') := by
    rcases step_at h hp with ⟨_, e, he, _, hp'⟩ | ⟨_, hp'⟩
    · refine ⟨e.proc, hp', ?_, hended _ p a e he⟩
      rcases hor with hb | ho
      · exact hbusy _ p a e he hb
      · exact Or.inr (hended _ p a e he ho)
    · exact ⟨p, hp', hor, id⟩
  obtain ⟨p', hp', hor', hkeep⟩ := hp'
  rcases step_at h hw with ⟨_, e, he, _, hw'⟩ | ⟨_, hw'⟩
  · refine ⟨e.proc, p', hw', hp', hor', fun hpast' => ?_⟩
    by_cases hpw : past w
    · exact hkeep (himp hpw)
    · have hfree := hpast w e he hpw hpast' p (List.mem_of_getElem? hp)
      exact hkeep (hor.resolve_left hfree)
  · exact ⟨w, p', hw', hp', hor', fun hpw => hkeep (himp hpw)⟩

/-- The proof rule for a barrier: a process gets past it only while no process is `busy`,
    and a busy process stays so until it has `ended` for good. When process `j` is past the
    barrier, the processes that were busy before it was have ended. -/
theorem run_barrier {Inv : Pool σ π → Prop} {as : List (ℕ × α)} {c₀ : Pool σ π} {p₀ w₀ w : π}
    (hinv : ∀ c l c', Inv c → Pool.step exec c l = some c' → Inv c')
    (hpast : ∀ c p a e, Inv c → exec c.shared p a = some e → ¬ past p → past e.proc →
      ∀ q ∈ c.procs, ¬ busy q)
    (h₀ : Inv c₀) (hw₀ : c₀.procs[j]? = some w₀) (hnot : ¬ past w₀)
    (h : run (Pool.step exec) c₀ as = some c) (hw : c.procs[j]? = some w) (hpw : past w)
    (hp₀ : c₀.procs[i]? = some p₀) (hb : busy p₀) : ∃ p, c.procs[i]? = some p ∧ ended p := by
  have hstep : ∀ c l c', Inv c ∧ Barrier past busy ended i j c → Pool.step exec c l = some c' →
      Inv c' ∧ Barrier past busy ended i j c' := fun c l c' hc h =>
    ⟨hinv c l c' hc.1 h,
      hc.2.step hbusy hended (fun p e => hpast c p l.2 e hc.1) h⟩
  obtain ⟨_, v, p, hv, hp, _, himp⟩ := run_inv' hstep
    ⟨h₀, w₀, p₀, hw₀, hp₀, Or.inl hb, fun hpw => absurd hpw hnot⟩ h
  rw [hw] at hv
  cases hv
  exact ⟨p, hp, himp hpw⟩

end Barrier

end Pool

end GoJump.Lib
