import GoJump.Lib.Fallible

/-!
# Runs of a transition function

A system is a transition function `step : σ → α → Option σ`: `step s a` is the
state after action `a`, or `none` when `a` is not enabled in `s`. `run` takes a
whole list of actions, `Meets G` says that every action of a run is taken in a
state where the condition `G` allows it.

* `run_inv`: what every allowed step preserves holds in every state reached.
* `run_history`: the same for what relates the state to the actions taken so far.
* `meets_iff_states`: when `G` is what a step needs to keep a property, a run is allowed
  exactly if every state on it has the property.
* `run_returns`: steps that are enabled under an invariant and keep it.
* `run_rel`: a reflexive and transitive relation that every step respects
  relates the first and the last state of a run.
* `runOut_simulates`: for steps with outputs, a simulation of one step is one of runs.
-/

namespace GoJump.Lib

variable {σ α : Type*}

/-- The state reached from `s` by the actions `as`, taken in order. -/
def run (step : σ → α → Option σ) : σ → List α → Option σ
  | s, [] => some s
  | s, a :: as => (step s a).bind fun s' => run step s' as

/-- Every action of `as`, taken from `s`, satisfies `G` in the state before it. -/
def Meets (step : σ → α → Option σ) (G : σ → α → Prop) : σ → List α → Prop
  | _, [] => True
  | s, a :: as => G s a ∧ ∀ s' ∈ step s a, Meets step G s' as

instance decidableMeets (step : σ → α → Option σ) (G : σ → α → Prop) [∀ s a, Decidable (G s a)] :
    ∀ s as, Decidable (Meets step G s as)
  | _, [] => inferInstanceAs (Decidable True)
  | s, a :: as =>
    have : DecidablePred fun s' => Meets step G s' as := fun s' => decidableMeets step G s' as
    inferInstanceAs (Decidable (G s a ∧ ∀ s' ∈ step s a, Meets step G s' as))

variable {step : σ → α → Option σ} {G : σ → α → Prop}

theorem run_cons (s : σ) (a : α) (as : List α) :
    run step s (a :: as) = (step s a).bind fun s' => run step s' as := rfl

theorem run_cons_eq_some {s s'' : σ} {a : α} {as : List α} :
    run step s (a :: as) = some s'' ↔ ∃ s', step s a = some s' ∧ run step s' as = some s'' := by
  rw [run_cons, Option.bind_eq_some_iff]

theorem meets_true (s : σ) (as : List α) : Meets step (fun _ _ => True) s as := by
  induction as generalizing s with
  | nil => trivial
  | cons a as ih => exact ⟨trivial, fun s' _ => ih s'⟩

/-- The invariant rule: what every allowed step preserves, every allowed run
    preserves. -/
theorem run_inv {Inv : σ → Prop}
    (hstep : ∀ s a s', Inv s → G s a → step s a = some s' → Inv s') :
    ∀ (as : List α) (s s' : σ), Inv s → Meets step G s as → run step s as = some s' → Inv s' := by
  intro as
  induction as with
  | nil => intro s s' hs _ hr; cases hr; exact hs
  | cons a as ih =>
    intro s s'' hs hm hr
    obtain ⟨s', h1, h2⟩ := run_cons_eq_some.mp hr
    exact ih s' s'' (hstep s a s' hs hm.1 h1) (hm.2 s' h1) h2

/-- The same without a condition on the steps. -/
theorem run_inv' {Inv : σ → Prop} (hstep : ∀ s a s', Inv s → step s a = some s' → Inv s')
    {as : List α} {s s' : σ} (hs : Inv s) (hr : run step s as = some s') : Inv s' :=
  run_inv (G := fun _ _ => True) (fun s a s' h _ => hstep s a s' h) as s s' hs (meets_true s as) hr

theorem run_append (s : σ) (as bs : List α) :
    run step s (as ++ bs) = (run step s as).bind fun s' => run step s' bs := by
  induction as generalizing s with
  | nil => rfl
  | cons a as ih =>
    rw [List.cons_append, run_cons, run_cons, Option.bind_assoc]
    exact congrArg _ (funext ih)

/-- The invariant rule for a property of the state and of all that was done before. -/
theorem run_history {s₀ : σ} {Inv : List α → σ → Prop} (h₀ : Inv [] s₀)
    (hstep : ∀ as s a s', run step s₀ as = some s → Inv as s → step s a = some s' →
      Inv (as ++ [a]) s')
    (as : List α) : ∀ s, run step s₀ as = some s → Inv as s := by
  induction as using List.reverseRecOn with
  | nil =>
    intro s hr
    cases hr
    exact h₀
  | append_singleton as a ih =>
    intro s' hr
    rw [run_append] at hr
    obtain ⟨s, hs, hlast⟩ := Option.bind_eq_some_iff.mp hr
    obtain ⟨t, ht, hnil⟩ := run_cons_eq_some.mp hlast
    cases hnil
    exact hstep as s a s' hs (ih s hs) ht

/-- The states of a run, the first one included. -/
def states (step : σ → α → Option σ) : σ → List α → List σ
  | s, [] => [s]
  | s, a :: as =>
    s :: match step s a with
      | none => []
      | some s' => states step s' as

theorem mem_states_of_run {as : List α} {s s' : σ} (h : run step s as = some s') :
    s' ∈ states step s as := by
  induction as generalizing s with
  | nil =>
    cases h
    exact List.mem_singleton_self _
  | cons a as ih =>
    obtain ⟨t, hstep, hrun⟩ := run_cons_eq_some.mp h
    rw [states, hstep]
    exact List.mem_cons_of_mem _ (ih hrun)

/-- What every step keeps holds in all states of a run. -/
theorem forall_mem_states {Inv : σ → Prop} (hstep : ∀ s a s', Inv s → step s a = some s' → Inv s')
    {s : σ} (hs : Inv s) (as : List α) : ∀ t ∈ states step s as, Inv t := by
  induction as generalizing s with
  | nil => exact List.forall_mem_singleton.mpr hs
  | cons a as ih =>
    refine List.forall_mem_cons.mpr ⟨hs, ?_⟩
    cases ha : step s a with
    | none => exact fun t ht => by cases ht
    | some s' => exact ih (hstep s a s' hs ha)

/-- Steps that are enabled in every state with an invariant, and keep it. -/
theorem run_returns {σ α : Type} {step : σ → α → Option σ} {Inv : σ → Prop}
    (hstep : ∀ s a, Inv s → Returns (step s a) Inv)
    {s : σ} (hs : Inv s) (as : List α) : Returns (run step s as) Inv := by
  induction as generalizing s with
  | nil => exact returns_some hs
  | cons a as ih => exact (hstep s a hs).bind fun s' hs' => ih hs'

/-- A run of steps that are always enabled. -/
theorem run_some (f : σ → α → σ) (s : σ) (as : List α) :
    run (fun s a => some (f s a)) s as = some (as.foldl f s) := by
  induction as generalizing s with
  | nil => rfl
  | cons a as ih => exact ih (f s a)

/-- When allowed steps keep an invariant that implies `P`, and only allowed steps lead to
    states with `P`, the allowed runs are those with `P` in every state. -/
theorem meets_iff_states {Inv P : σ → Prop} (hP : ∀ s, Inv s → P s)
    (hstep : ∀ s a s', Inv s → G s a → step s a = some s' → Inv s')
    (hconv : ∀ s a s', Inv s → step s a = some s' → P s' → G s a) :
    ∀ (as : List α) (s s' : σ), Inv s → run step s as = some s' →
      (Meets step G s as ↔ ∀ t ∈ states step s as, P t) := by
  intro as
  induction as with
  | nil =>
    intro s s' hs _
    simp [Meets, states, hP s hs]
  | cons a as ih =>
    intro s s'' hs hr
    obtain ⟨s', h1, h2⟩ := run_cons_eq_some.mp hr
    have hfirst : s' ∈ states step s' as := by cases as <;> exact List.mem_cons_self
    simp only [Meets, states, h1, Option.mem_def, Option.some.injEq, forall_eq', List.mem_cons,
      forall_eq_or_imp]
    constructor
    · rintro ⟨hG, hm⟩
      exact ⟨hP s hs, (ih s' s'' (hstep s a s' hs hG h1) h2).mp hm⟩
    · rintro ⟨_, hall⟩
      have hG : G s a := hconv s a s' hs h1 (hall s' hfirst)
      exact ⟨hG, (ih s' s'' (hstep s a s' hs hG h1) h2).mpr hall⟩

/-- A relation every step respects relates the ends of a run. -/
theorem run_rel {R : σ → σ → Prop} (hrefl : ∀ s, R s s) (htrans : ∀ s t u, R s t → R t u → R s u)
    (hstep : ∀ s a s', step s a = some s' → R s s') :
    ∀ (as : List α) (s s' : σ), run step s as = some s' → R s s' := by
  intro as
  induction as with
  | nil => intro s s' hr; cases hr; exact hrefl s
  | cons a as ih =>
    intro s s'' hr
    obtain ⟨s', h1, h2⟩ := run_cons_eq_some.mp hr
    exact htrans _ _ _ (hstep s a s' h1) (ih s' s'' h2)

/-! ## Steps with outputs -/

section Outputs

variable {σ τ α β γ : Type}

/-- The state reached by the inputs, and the outputs on the way. -/
def runOut (step : σ → α → Option (σ × Option β)) : σ → List α → Option (σ × List β)
  | s, [] => some (s, [])
  | s, a :: as => do
    let (s, out) ← step s a
    let (s, outs) ← runOut step s as
    return (s, out.toList ++ outs)

/-- Where the abstract system goes on, the concrete one returns with the same outputs, in a
    state that simulates the abstract one. -/
theorem runOut_simulates {step : σ → α → Option (σ × Option β)}
    {step' : τ → α → Option (τ × Option γ)} {R : σ → τ → Prop} {f : γ → β}
    (hstep : ∀ s t a t' out, R s t → step' t a = some (t', out) →
      Returns (step s a) fun r => R r.1 t' ∧ r.2 = out.map f)
    (as : List α) {s : σ} {t t' : τ} {outs : List γ} (hR : R s t)
    (hrun : runOut step' t as = some (t', outs)) :
    Returns (runOut step s as) fun r => R r.1 t' ∧ r.2 = outs.map f := by
  induction as generalizing s t outs with
  | nil =>
    cases hrun
    exact returns_some ⟨hR, rfl⟩
  | cons a as ih =>
    obtain ⟨⟨t₁, out⟩, h₁, hrun⟩ := Option.bind_eq_some_iff.mp hrun
    obtain ⟨⟨t₂, outs₂⟩, h₂, hrun⟩ := Option.bind_eq_some_iff.mp hrun
    cases hrun
    refine (hstep s t a t₁ out hR h₁).bind ?_
    rintro ⟨s₁, out₁⟩ ⟨hR₁, rfl⟩
    refine (ih hR₁ h₂).bind ?_
    rintro ⟨s₂, outs₂'⟩ ⟨hR₂, rfl⟩
    refine returns_some ⟨hR₂, ?_⟩
    cases out <;> simp

end Outputs

end GoJump.Lib
