import Mathlib

/-!
# Programs that leave a trace

`Traced ε α` is a computation that performs the events of a list and then either
returns or faults (`none`). It is a monad, so a sequential program can be written
as it stands in its source, and what it did is the list `events`.

`Preceded A B tr`: in `tr`, every event in `B` comes after one in `A`.

* `preceded_append`: how the order of events composes.
* `Preceded.of_not_mem`: nothing to show where no event is in `B`.
-/

namespace GoJump.Lib

variable {ε α β : Type}

/-- The events performed, and the result unless the program faulted. -/
structure Traced (ε α : Type) where
  events : List ε
  result : Option α

namespace Traced

instance : Monad (Traced ε) where
  pure a := ⟨[], some a⟩
  bind x f :=
    match x.result with
    | some a => ⟨x.events ++ (f a).events, (f a).result⟩
    | none => ⟨x.events, none⟩

/-- Perform one event. -/
def emit (e : ε) : Traced ε Unit := ⟨[e], some ()⟩

/-- A fault: nothing after it is executed. -/
def fault : Traced ε α := ⟨[], none⟩

/-- A deferred event: performed when the program ends, also after a fault. -/
def deferred (e : ε) (x : Traced ε α) : Traced ε α := ⟨x.events ++ [e], x.result⟩

@[simp] theorem events_pure (a : α) : (pure a : Traced ε α).events = [] := rfl

@[simp] theorem events_emit (e : ε) : (emit e).events = [e] := rfl

@[simp] theorem result_emit (e : ε) : (emit e).result = some () := rfl

@[simp] theorem events_fault : (fault : Traced ε α).events = [] := rfl

theorem events_bind (x : Traced ε α) (f : α → Traced ε β) :
    (x >>= f).events = x.events ++ (x.result.elim [] fun a => (f a).events) := by
  obtain ⟨es, r⟩ := x
  cases r with
  | none => exact (List.append_nil es).symm
  | some a => rfl

/-- A continuation that performs no events adds none. -/
theorem events_bind_silent {x : Traced ε α} {f : α → Traced ε β} (h : ∀ a, (f a).events = []) :
    (x >>= f).events = x.events := by
  rw [events_bind]
  cases x.result with
  | none => simp
  | some a => simp [h a]

@[simp] theorem events_emit_bind (e : ε) (f : Unit → Traced ε β) :
    (emit e >>= f).events = e :: (f ()).events := rfl

end Traced

/-- Every event in `B` comes after an event in `A`. -/
def Preceded (A B : ε → Prop) (tr : List ε) : Prop :=
  ∀ pre e post, tr = pre ++ e :: post → B e → ∃ a ∈ pre, A a

variable {A B : ε → Prop}

theorem Preceded.of_not_mem {tr : List ε} (h : ∀ e ∈ tr, ¬ B e) : Preceded A B tr := by
  intro pre e post heq hB
  exact absurd hB (h e (by rw [heq]; simp))

theorem preceded_cons {e : ε} {tr : List ε} (he : ¬ B e) (h : A e ∨ Preceded A B tr) :
    Preceded A B (e :: tr) := by
  intro pre e' post heq hB
  cases pre with
  | nil =>
    rw [List.nil_append, List.cons.injEq] at heq
    rw [heq.1] at he
    exact absurd hB he
  | cons p pre =>
    rw [List.cons_append, List.cons.injEq] at heq
    obtain ⟨rfl, heq⟩ := heq
    rcases h with hA | h
    · exact ⟨e, List.mem_cons_self, hA⟩
    · obtain ⟨a, ha, hA⟩ := h pre e' post heq hB
      exact ⟨a, List.mem_cons_of_mem _ ha, hA⟩

/-- A part of the program without events in `B`, then the rest. -/
theorem preceded_append {xs ys : List ε} (hx : ∀ e ∈ xs, ¬ B e)
    (h : Preceded A B ys) : Preceded A B (xs ++ ys) := by
  induction xs with
  | nil => exact h
  | cons x xs ih =>
    rw [List.cons_append]
    exact preceded_cons (hx x List.mem_cons_self)
      (Or.inr (ih fun e he => hx e (List.mem_cons_of_mem _ he)))

/-- An event in `B` with nothing in `A` before it. -/
theorem not_preceded_of_mem {xs ys : List ε} {e : ε} (he : e ∈ xs) (hB : B e)
    (hA : ∀ a ∈ xs, ¬ A a) : ¬ Preceded A B (xs ++ ys) := by
  intro h
  obtain ⟨pre, post, rfl⟩ := List.append_of_mem he
  obtain ⟨a, ha, hAa⟩ := h pre e (post ++ ys) (by simp) hB
  exact hA a (List.mem_append_left _ ha) hAa

end GoJump.Lib
