import Mathlib.Data.List.Basic

/-!
# Buffered channels

A channel with room for `cap` values, its buffer a queue. `send` and `recv` are the
operations when they can go on at once, and `none` when the caller has to wait; what is
received after a channel was closed and emptied is the end, `none`.

* `send_eq_some`, `recv_eq_value`, `recv_eq_end`: what an operation that goes on has
  found, and what it leaves.
* `recv_of_full`: a receiver does not wait at a full channel.
-/

namespace GoJump.Lib

/-- A channel of `α` with room for `cap` values. -/
structure Chan (α : Type*) (cap : ℕ) where
  buf : List α
  closed : Bool
  length_le : buf.length ≤ cap

variable {α : Type*} {cap : ℕ}

namespace Chan

def make : Chan α cap := ⟨[], false, Nat.zero_le cap⟩

/-- There is no room: who sends has to wait. -/
def Full (c : Chan α cap) : Prop := c.buf.length = cap

instance (c : Chan α cap) : Decidable c.Full := inferInstanceAs (Decidable (_ = _))

/-- To send on a closed channel is a fault, which no sender here runs into. -/
def send (c : Chan α cap) (a : α) : Option (Chan α cap) :=
  if h : c.closed = false ∧ c.buf.length < cap then
    some ⟨c.buf ++ [a], c.closed, by rw [List.length_append]; exact h.2⟩
  else none

def recv : Chan α cap → Option (Option α × Chan α cap)
  | ⟨a :: buf, closed, h⟩ => some (some a, ⟨buf, closed, Nat.le_of_succ_le h⟩)
  | ⟨[], true, h⟩ => some (none, ⟨[], true, h⟩)
  | ⟨[], false, _⟩ => none

def close (c : Chan α cap) : Chan α cap := { c with closed := true }

theorem send_eq_some {c c' : Chan α cap} {a : α} (h : c.send a = some c') :
    c.closed = false ∧ c.buf.length < cap ∧ c'.buf = c.buf ++ [a] ∧ c'.closed = c.closed := by
  unfold send at h
  split_ifs at h with hroom
  cases h
  exact ⟨hroom.1, hroom.2, rfl, rfl⟩

theorem not_full_of_send {c c' : Chan α cap} {a : α} (h : c.send a = some c') : ¬ c.Full :=
  Nat.ne_of_lt (send_eq_some h).2.1

theorem recv_eq_value {c c' : Chan α cap} {a : α} (h : c.recv = some (some a, c')) :
    c.buf = a :: c'.buf ∧ c'.closed = c.closed := by
  obtain ⟨buf, closed, hle⟩ := c
  cases buf with
  | nil => cases closed <;> cases h
  | cons b buf =>
    cases h
    exact ⟨rfl, rfl⟩

theorem recv_eq_end {c c' : Chan α cap} (h : c.recv = some (none, c')) :
    c.buf = [] ∧ c.closed = true ∧ c' = c := by
  obtain ⟨buf, closed, hle⟩ := c
  cases buf with
  | nil =>
    cases closed with
    | false => cases h
    | true =>
      cases h
      exact ⟨rfl, rfl, rfl⟩
  | cons b buf => cases h

theorem send_of_room {c : Chan α cap} (hopen : c.closed = false) (hroom : c.buf.length < cap)
    (a : α) :
    ∃ c', c.send a = some c' ∧ c'.buf = c.buf ++ [a] := by
  rw [send, dif_pos ⟨hopen, hroom⟩]
  exact ⟨_, rfl, rfl⟩

theorem recv_of_cons {c : Chan α cap} {a : α} {l : List α} (h : c.buf = a :: l) :
    ∃ c', c.recv = some (some a, c') ∧ c'.buf = l := by
  obtain ⟨buf, closed, hle⟩ := c
  cases h
  exact ⟨_, rfl, rfl⟩

theorem recv_of_full {c : Chan α (cap + 1)} (h : c.Full) :
    ∃ a c', c.recv = some (some a, c') ∧ ¬ c'.Full := by
  obtain ⟨buf, closed, hle⟩ := c
  cases buf with
  | nil => cases h
  | cons a buf =>
    refine ⟨a, _, rfl, ?_⟩
    intro hfull
    have hlen : buf.length + 1 = cap + 1 := h
    have hlen' : buf.length = cap + 1 := hfull
    omega

end Chan

end GoJump.Lib
