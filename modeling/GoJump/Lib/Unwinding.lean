import GoJump.Lib.Fallible

/-!
# Two runs that differ in hidden events

A system takes events one after the other until one of them ends the run. Some events are
hidden: two runs are to be compared whose visible events are the same. It is enough to
compare single steps: a hidden event in one of the runs keeps the states alike, and so does
the same visible event in both, or it ends both.

* `Unwinds.runUntil`: what the conditions on single steps say about runs.
* `runUntil_simulates`: the same events in two systems.
-/

namespace GoJump.Lib

variable {σ ε : Type}

/-- The state after the events, up to the one that ends the run, and whether one does. -/
def runUntil (step : σ → ε → Option (σ × Bool)) : σ → List ε → Option (σ × Bool)
  | s, [] => some (s, false)
  | s, e :: es => do
    let (s, ended) ← step s e
    if ended then return (s, true) else runUntil step s es

/-- Two systems take the same events, in states in `R` while the runs go on and in `Q` when they
    end: where the steps of the first one can be taken in the second one, so can its runs. -/
theorem runUntil_simulates {τ : Type} {step : σ → ε → Option (σ × Bool)}
    {step' : τ → ε → Option (τ × Bool)} {R Q : σ → τ → Prop} (hweak : ∀ s t, R s t → Q s t)
    (hstep : ∀ s t e r, R s t → step s e = some r →
      Returns (step' t e) fun r' => r'.2 = r.2 ∧ Q r.1 r'.1 ∧ (r.2 = false → R r.1 r'.1))
    {s : σ} {t : τ} (hR : R s t) {es : List ε} {r : σ × Bool} (hrun : runUntil step s es = some r) :
    Returns (runUntil step' t es) fun r' => r'.2 = r.2 ∧ Q r.1 r'.1 := by
  induction es generalizing s t with
  | nil =>
    cases hrun
    exact returns_some ⟨rfl, hweak s t hR⟩
  | cons e es ih =>
    obtain ⟨⟨s₁, ended⟩, hs₁, hrest⟩ := Option.bind_eq_some_iff.mp hrun
    refine (hstep s t e _ hR hs₁).bind ?_
    rintro ⟨t₁, ended'⟩ ⟨rfl, hQ₁, hR₁⟩
    cases ended' with
    | true =>
      cases hrest
      exact returns_some ⟨rfl, hQ₁⟩
    | false => exact ih (hR₁ rfl) hrest

/-- Two runs that both go on, in states in `R`, or have both ended, in states in `Q`. -/
structure Alike (R Q : σ → σ → Prop) (r r' : σ × Bool) : Prop where
  ended_eq : r'.2 = r.2
  going : r.2 = false → R r.1 r'.1
  finished : r.2 = true → Q r.1 r'.1

theorem Alike.go {R Q : σ → σ → Prop} {s t : σ} (h : R s t) : Alike R Q (s, false) (t, false) :=
  ⟨rfl, fun _ => h, fun hended => absurd hended Bool.false_ne_true⟩

theorem Alike.stop {R Q : σ → σ → Prop} {s t : σ} (h : Q s t) : Alike R Q (s, true) (t, true) :=
  ⟨rfl, fun hgo => absurd hgo.symm Bool.false_ne_true, fun _ => h⟩

/-- The conditions on single steps. -/
structure Unwinds (step : σ → ε → Option (σ × Bool)) (visible : ε → Bool) (Allowed : ε → Prop)
    (R Q : σ → σ → Prop) : Prop where
  symm : ∀ {s t}, R s t → R t s
  hidden_step : ∀ {s t e}, R s t → visible e = false →
    Returns (step s e) fun r => r.2 = false ∧ R r.1 t
  visible_step : ∀ {s t e}, R s t → visible e = true → Allowed e →
    Returns₂ (step s e) (step t e) (Alike R Q)

variable {step : σ → ε → Option (σ × Bool)} {visible : ε → Bool} {Allowed : ε → Prop}
  {R Q : σ → σ → Prop}

/-- Hidden events in one of the runs. -/
theorem Unwinds.runUntil_hidden (h : Unwinds step visible Allowed R Q) {s t : σ} (hR : R s t)
    {hid : List ε} (hhid : ∀ e ∈ hid, ¬ visible e = true) (rest : List ε) :
    ∃ t', R s t' ∧ runUntil step t (hid ++ rest) = runUntil step t' rest := by
  induction hid generalizing t with
  | nil => exact ⟨t, hR, rfl⟩
  | cons e hid ih =>
    obtain ⟨he, hhid⟩ := List.forall_mem_cons.mp hhid
    obtain ⟨⟨t₁, ended⟩, hstep, hended, hR₁⟩ :=
      h.hidden_step (h.symm hR) (Bool.eq_false_iff.mpr he)
    obtain ⟨t₂, hR₂, hrun⟩ := ih (h.symm hR₁) hhid
    refine ⟨t₂, hR₂, ?_⟩
    rw [← hrun, List.cons_append, runUntil, hstep]
    dsimp only at hended
    rw [hended]
    rfl

/-- Two runs with the same visible events. -/
theorem Unwinds.runUntil (h : Unwinds step visible Allowed R Q) {s t : σ} (hR : R s t)
    {es es' : List ε} (heq : es.filter visible = es'.filter visible)
    (hall : ∀ e ∈ es.filter visible, Allowed e) :
    Returns₂ (Lib.runUntil step s es) (Lib.runUntil step t es') (Alike R Q) := by
  induction es generalizing s t es' with
  | nil =>
    have hhid := List.filter_eq_nil_iff.mp heq.symm
    obtain ⟨t', hR', hrun⟩ := h.runUntil_hidden hR hhid []
    rw [List.append_nil] at hrun
    rw [hrun]
    exact returns₂_some (Alike.go hR')
  | cons e es ih =>
    by_cases he : visible e = true
    · -- the other run comes to the same event
      rw [List.filter_cons_of_pos he] at heq hall
      obtain ⟨hallow, hall⟩ := List.forall_mem_cons.mp hall
      obtain ⟨hid, es₂, rfl, hhid, -, hrest⟩ := List.filter_eq_cons_iff.mp heq.symm
      obtain ⟨t₁, hR₁, hrun⟩ := h.runUntil_hidden hR hhid (e :: es₂)
      rw [hrun]
      refine (h.visible_step hR₁ he hallow).bind ?_
      rintro ⟨s₂, ended⟩ ⟨t₂, ended'⟩ ⟨hended, hgoing, hfinished⟩
      dsimp only at hended hgoing hfinished
      subst hended
      cases ended' with
      | true => exact returns₂_some (Alike.stop (hfinished rfl))
      | false => exact ih (hgoing rfl) hrest.symm hall
    · rw [List.filter_cons_of_neg he] at heq hall
      obtain ⟨⟨s₁, ended⟩, hstep, hended, hR₁⟩ := h.hidden_step hR (Bool.eq_false_iff.mpr he)
      rw [Lib.runUntil, hstep]
      dsimp only at hended
      subst hended
      exact ih hR₁ heq hall

end GoJump.Lib
