import Mathlib

/-!
# Programs that may fail

When a computation in `Except` returns a value, so did each of its parts. These
lemmas take a program apart along its text, without unfolding the monad.

`Returns x P` is the other direction, for `Option`: the program returns, and its value has
the property `P`. It is proved along the text of the program too. `Returns₂ x y R` is the
same for two programs at once, with their values in the relation `R`.
-/

namespace GoJump.Lib

variable {ε α β : Type*}

theorem ok_bind_iff {α β : Type} {x : Except ε α} {f : α → Except ε β} {b : β} :
    (x >>= f) = .ok b ↔ ∃ a, x = .ok a ∧ f a = .ok b := by
  constructor
  · intro h
    match x, h with
    | .ok a, h => exact ⟨a, rfl, h⟩
  · rintro ⟨a, rfl, h⟩
    exact h

theorem ok_map_iff {x : Except ε α} {f : α → β} {b : β} :
    x.map f = .ok b ↔ ∃ a, x = .ok a ∧ f a = b := by
  cases x with
  | error e => simp [Except.map]
  | ok a => simp [Except.map]

theorem ok_mapError_iff {ε' : Type*} {x : Except ε α} {f : ε → ε'} {a : α} :
    x.mapError f = .ok a ↔ x = .ok a := by
  cases x with
  | error e => simp [Except.mapError]
  | ok a => simp [Except.mapError]

theorem ok_pure_iff {a b : α} : (pure a : Except ε α) = .ok b ↔ a = b := by
  simp [pure, Except.pure]

/-- A test that throws, followed by the rest; `if c then throw e` in a `do` block
    is elaborated to this form. -/
theorem ok_throw_if_iff {γ α : Type} {c : Prop} [Decidable c] {e : ε} {f : γ → Except ε α}
    {x : Except ε α} {b : α} :
    (if c then throw e >>= f else x) = .ok b ↔ ¬ c ∧ x = .ok b := by
  by_cases h : c
  · simp [h, throw, throwThe, MonadExceptOf.throw, bind, Except.bind]
  · simp [h]

/-! ## Programs that return -/

/-- The program returns a value with the property. -/
def Returns (x : Option α) (P : α → Prop) : Prop := ∃ a, x = some a ∧ P a

section Returns

variable {α β : Type} {x : Option α} {P P' : α → Prop} {Q : β → Prop}

theorem returns_some {a : α} (h : P a) : Returns (some a) P := ⟨a, rfl, h⟩

theorem Returns.mono (h : Returns x P) (himp : ∀ a, P a → P' a) : Returns x P' := by
  obtain ⟨a, ha, hP⟩ := h
  exact ⟨a, ha, himp a hP⟩

/-- One program after the other. -/
theorem Returns.bind {f : α → Option β} (h : Returns x P) (hf : ∀ a, P a → Returns (f a) Q) :
    Returns (x >>= f) Q := by
  obtain ⟨a, rfl, hP⟩ := h
  exact hf a hP

theorem Returns.map {f : α → β} (h : Returns x P) (hf : ∀ a, P a → Q (f a)) :
    Returns (x.map f) Q := by
  obtain ⟨a, rfl, hP⟩ := h
  exact ⟨f a, rfl, hf a hP⟩

theorem Returns.ite {c : Prop} [Decidable c] {y : Option α} (h : c → Returns x P)
    (h' : ¬ c → Returns y P) :
    Returns (if c then x else y) P := by
  by_cases hc : c
  · rw [if_pos hc]
    exact h hc
  · rw [if_neg hc]
    exact h' hc

/-- Two things that are known of a program. -/
theorem Returns.and (h : Returns x P) (h' : Returns x P') : Returns x fun a => P a ∧ P' a := by
  obtain ⟨a, rfl, hP⟩ := h
  obtain ⟨a', heq, hP'⟩ := h'
  cases heq
  exact ⟨a, rfl, hP, hP'⟩

end Returns

/-! ## Two programs that return -/

/-- Both programs return, with values in the relation. -/
def Returns₂ {β : Type*} (x : Option α) (y : Option β) (R : α → β → Prop) : Prop :=
  ∃ a b, x = some a ∧ y = some b ∧ R a b

section Returns₂

variable {α β γ δ : Type} {x : Option α} {y : Option β} {R R' : α → β → Prop} {Q : γ → δ → Prop}

theorem returns₂_some {a : α} {b : β} (h : R a b) : Returns₂ (some a) (some b) R :=
  ⟨a, b, rfl, rfl, h⟩

theorem Returns₂.mono (h : Returns₂ x y R) (himp : ∀ a b, R a b → R' a b) : Returns₂ x y R' := by
  obtain ⟨a, b, ha, hb, hR⟩ := h
  exact ⟨a, b, ha, hb, himp a b hR⟩

theorem Returns₂.bind {f : α → Option γ} {g : β → Option δ} (h : Returns₂ x y R)
    (hf : ∀ a b, R a b → Returns₂ (f a) (g b) Q) : Returns₂ (x >>= f) (y >>= g) Q := by
  obtain ⟨a, b, rfl, rfl, hR⟩ := h
  exact hf a b hR

theorem Returns₂.map {f : α → γ} {g : β → δ} (h : Returns₂ x y R)
    (hf : ∀ a b, R a b → Q (f a) (g b)) : Returns₂ (x.map f) (y.map g) Q := by
  obtain ⟨a, b, rfl, rfl, hR⟩ := h
  exact ⟨f a, g b, rfl, rfl, hf a b hR⟩

/-- The same test in both. -/
theorem Returns₂.ite {c c' : Prop} [Decidable c] [Decidable c'] {x' : Option α} {y' : Option β}
    (hc : c' ↔ c) (h : c → Returns₂ x y R) (h' : ¬ c → Returns₂ x' y' R) :
    Returns₂ (if c then x else x') (if c' then y else y') R := by
  by_cases hif : c
  · rw [if_pos hif, if_pos (hc.mpr hif)]
    exact h hif
  · rw [if_neg hif, if_neg (mt hc.mp hif)]
    exact h' hif

/-- Two programs that begin with the same one. -/
theorem Returns.bind₂ {P : α → Prop} {f : α → Option γ} {g : α → Option δ} (h : Returns x P)
    (hf : ∀ a, P a → Returns₂ (f a) (g a) Q) : Returns₂ (x >>= f) (x >>= g) Q := by
  obtain ⟨a, rfl, hP⟩ := h
  exact hf a hP

/-- What is known of the first program by itself. -/
theorem Returns₂.and_left {P : α → Prop} (h : Returns₂ x y R) (hP : Returns x P) :
    Returns₂ x y fun a b => R a b ∧ P a := by
  obtain ⟨a, b, rfl, hb, hR⟩ := h
  obtain ⟨a', ha', hP⟩ := hP
  cases ha'
  exact ⟨a, b, rfl, hb, hR, hP⟩

/-- Two programs, each by itself. -/
theorem Returns.both {P : α → Prop} {P' : β → Prop} (hx : Returns x P) (hy : Returns y P')
    (h : ∀ a b, P a → P' b → R a b) : Returns₂ x y R := by
  obtain ⟨a, ha, hP⟩ := hx
  obtain ⟨b, hb, hP'⟩ := hy
  exact ⟨a, b, ha, hb, h a b hP hP'⟩

end Returns₂

end GoJump.Lib
