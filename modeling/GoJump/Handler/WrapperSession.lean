import GoJump.Go.Strings

/-!
# The session as a pipe

Model of `WrapperSession` (`pkg/handler/wrapperSession.go` lines 34–87): `readLoop`
copies the input of the SSH session into an `io.Pipe`, `Read` reads from the pipe, and
`Close` closes the pipe and puts a new one in its place. `Read` and `readLoop` hold the
read lock while they are in the pipe and `Close` takes the write lock for the exchange,
so whoever is in a pipe is in the present one. A pipe has no buffer: a write is over
when its bytes were read or the pipe is closed.
-/

namespace GoJump.Handler

open GoJump.Go

/-- Where `readLoop` stands. -/
inductive ReadLoop
  /-- `w.Sess.Read(buf)` -/
  | sessRead
  /-- `w.mux.RLock()` before the write -/
  | lockWrite (chunk : GoString) (err : Bool)
  /-- `w.inWriter.Write`, with the bytes that were not read yet; the read lock is held -/
  | pipeWrite (rest : GoString) (err : Bool)
  /-- `w.mux.RLock()` after the loop -/
  | lockClose
  /-- `close(w.closed)` -/
  | closeClosed
  | finished
  deriving DecidableEq

/-- The end of a round of the loop. -/
def ReadLoop.next (err : Bool) : ReadLoop := if err then .lockClose else .sessRead

structure WrapperSession where
  /-- the present pipe is closed -/
  shut : Bool
  /-- `initReadPip` waits for the write lock; nobody gets a read lock then -/
  locking : Bool
  loop : ReadLoop
  deriving DecidableEq

/-- `w.closed` is closed: it is the last thing `readLoop` does. -/
def WrapperSession.closed (w : WrapperSession) : Bool := decide (w.loop = .finished)

/-- What `readLoop` does next. -/
inductive LoopAct
  /-- `w.Sess.Read` returns -/
  | sessRead (chunk : GoString) (err : Bool)
  | lockWrite
  /-- the write returns because the pipe is closed -/
  | writeFails
  /-- both ends of the pipe are closed, under the read lock -/
  | closePipe
  | closeClosed
  deriving DecidableEq

/-- A step of `readLoop` (lines 34–54). -/
def WrapperSession.loopStep (w : WrapperSession) : LoopAct → Option WrapperSession
  | .sessRead chunk err =>
    match w.loop with
    | .sessRead =>
      some { w with loop := if 0 < chunk.length then .lockWrite chunk err else .next err }
    | _ => none
  | .lockWrite =>
    match w.loop with
    | .lockWrite chunk err =>
      if w.locking then none else some { w with loop := .pipeWrite chunk err }
    | _ => none
  | .writeFails =>
    match w.loop with
    | .pipeWrite _ err => if w.shut then some { w with loop := .next err } else none
    | _ => none
  | .closePipe =>
    match w.loop with
    | .lockClose => if w.locking then none else some { w with shut := true, loop := .closeClosed }
    | _ => none
  | .closeClosed =>
    match w.loop with
    | .closeClosed => some { w with loop := .finished }
    | _ => none

/-- A read of at most `size` bytes from the pipe, for who holds the read lock: it gets
    what `readLoop` is writing. -/
def WrapperSession.pipeRead (w : WrapperSession) (size : ℕ) : Option (GoString × WrapperSession) :=
  match w.loop with
  | .pipeWrite rest err =>
    if w.shut then none
    else some (rest.take size,
      { w with loop := if rest.length ≤ size then .next err else .pipeWrite (rest.drop size) err })
  | _ => none

/-- `Close` up to the lock (lines 67–74), when `w.closed` is not closed. -/
def WrapperSession.closeEnds (w : WrapperSession) : WrapperSession := { w with shut := true }

/-- `initReadPip` asks for the write lock. -/
def WrapperSession.lock (w : WrapperSession) : WrapperSession := { w with locking := true }

/-- `initReadPip` has the write lock, when nobody has a read lock (lines 83–87). -/
def WrapperSession.initReadPip (w : WrapperSession) : Option WrapperSession :=
  match w.loop with
  | .pipeWrite _ _ => none
  | _ => some { w with shut := false, locking := false }

/-! ## What a step does -/

variable {w w' : WrapperSession}

/-- What a step of `readLoop` has found, and what it leaves. -/
inductive LoopStep (w : WrapperSession) : LoopAct → WrapperSession → Prop
  | sessRead (chunk : GoString) (err : Bool) (hl : w.loop = .sessRead) :
      LoopStep w (.sessRead chunk err)
        { w with loop := if 0 < chunk.length then .lockWrite chunk err else .next err }
  | lockWrite (chunk : GoString) (err : Bool) (hl : w.loop = .lockWrite chunk err)
      (hk : w.locking = false) : LoopStep w .lockWrite { w with loop := .pipeWrite chunk err }
  | writeFails (rest : GoString) (err : Bool) (hl : w.loop = .pipeWrite rest err)
      (hs : w.shut = true) : LoopStep w .writeFails { w with loop := .next err }
  | closePipe (hl : w.loop = .lockClose) (hk : w.locking = false) :
      LoopStep w .closePipe { w with shut := true, loop := .closeClosed }
  | closeClosed (hl : w.loop = .closeClosed) : LoopStep w .closeClosed { w with loop := .finished }

theorem WrapperSession.loopStep_eq_some {a : LoopAct} (h : w.loopStep a = some w') :
    LoopStep w a w' := by
  cases a with
  | sessRead chunk err =>
    simp only [loopStep] at h
    split at h
    · rename_i hl
      cases h
      exact .sessRead chunk err hl
    · cases h
  | lockWrite =>
    simp only [loopStep] at h
    split at h
    · rename_i chunk err hl
      split_ifs at h with hk
      cases h
      exact .lockWrite chunk err hl (Bool.eq_false_iff.mpr hk)
    · cases h
  | writeFails =>
    simp only [loopStep] at h
    split at h
    · rename_i rest err hl
      split_ifs at h with hs
      cases h
      exact .writeFails rest err hl hs
    · cases h
  | closePipe =>
    simp only [loopStep] at h
    split at h
    · rename_i hl
      split_ifs at h with hk
      cases h
      exact .closePipe hl (Bool.eq_false_iff.mpr hk)
    · cases h
  | closeClosed =>
    simp only [loopStep] at h
    split at h
    · rename_i hl
      cases h
      exact .closeClosed hl
    · cases h

/-- `readLoop` opens no pipe. -/
theorem LoopStep.shut {a : LoopAct} (hstep : LoopStep w a w') (h : w.shut = true) :
    w'.shut = true := by
  cases hstep with
  | closePipe => rfl
  | sessRead | lockWrite | writeFails | closeClosed => exact h

theorem WrapperSession.pipeRead_eq_some {size : ℕ} {chunk : GoString}
    (h : w.pipeRead size = some (chunk, w')) :
    ∃ rest err, w.loop = .pipeWrite rest err ∧ w.shut = false ∧ chunk = rest.take size ∧
      w' = { w with
        loop := if rest.length ≤ size then .next err else .pipeWrite (rest.drop size) err } := by
  unfold pipeRead at h
  split at h
  · rename_i rest err hl
    cases hs : w.shut with
    | true =>
      rw [if_pos hs] at h
      cases h
    | false =>
      rw [if_neg (by rw [hs]; decide)] at h
      cases h
      exact ⟨rest, err, hl, rfl, rfl, by rw [hs]⟩
  · cases h

theorem WrapperSession.initReadPip_eq_some (h : w.initReadPip = some w') :
    w' = { w with shut := false, locking := false } ∧ ∀ rest err, w.loop ≠ .pipeWrite rest err := by
  unfold initReadPip at h
  split at h
  · cases h
  · rename_i hl
    cases h
    exact ⟨rfl, hl⟩

/-! ## The end of the input -/

/-- `readLoop` will write nothing any more. -/
def WrapperSession.InputOver (w : WrapperSession) : Prop :=
  match w.loop with
  | .pipeWrite _ err => err = true ∧ w.shut = true
  | .lockClose | .closeClosed | .finished => True
  | .sessRead | .lockWrite _ _ => False

instance (w : WrapperSession) : Decidable w.InputOver := by
  unfold WrapperSession.InputOver
  split <;> infer_instance

/-- The session has input to come, and `Read` gets it. -/
def WrapperSession.Connected (w : WrapperSession) : Prop :=
  w.shut = false ∧
    match w.loop with
    | .sessRead => True
    | .lockWrite _ err | .pipeWrite _ err => err = false
    | .lockClose | .closeClosed | .finished => False

instance (w : WrapperSession) : Decidable w.Connected := by
  unfold WrapperSession.Connected
  split <;> infer_instance

theorem WrapperSession.inputOver_of_closed (h : w.closed = true) : w.InputOver := by
  have hfin : w.loop = .finished := of_decide_eq_true h
  simp only [InputOver, hfin]

theorem WrapperSession.Connected.not_closed (h : w.Connected) : w.closed = false := by
  obtain ⟨shut, locking, loop⟩ := w
  cases loop with
  | finished => exact absurd h.2 (fun hf => hf)
  | _ => rfl

theorem WrapperSession.InputOver.pipeRead (h : w.InputOver) (size : ℕ) :
    w.pipeRead size = none := by
  obtain ⟨shut, locking, loop⟩ := w
  cases loop with
  | pipeWrite rest err =>
    have hshut : shut = true := h.2
    subst hshut
    rfl
  | _ => rfl

theorem WrapperSession.InputOver.loopStep (h : w.InputOver) {a : LoopAct}
    (hstep : LoopStep w a w') : w'.InputOver := by
  cases hstep with
  | sessRead chunk err hl | lockWrite chunk err hl _ => simp only [InputOver, hl] at h
  | writeFails rest err hl _ =>
    simp only [InputOver, hl] at h
    rw [h.1]
    exact trivial
  | closePipe hl _ | closeClosed hl => exact trivial

theorem WrapperSession.Connected.loopStep (h : w.Connected) {a : LoopAct}
    (ha : ∀ chunk, a ≠ .sessRead chunk true) (hstep : LoopStep w a w') : w'.Connected := by
  obtain ⟨hshut, hloop⟩ := h
  refine ⟨?_, ?_⟩
  · cases hstep with
    | closePipe hl _ => simp only [hl] at hloop
    | _ => exact hshut
  · cases hstep with
    | sessRead chunk err hl =>
      cases err with
      | true => exact absurd rfl (ha chunk)
      | false =>
        dsimp only
        split_ifs <;> trivial
    | lockWrite chunk err hl _ =>
      simp only [hl] at hloop
      exact hloop
    | writeFails rest err hl hs => exact absurd hs (by rw [hshut]; decide)
    | closePipe hl _ | closeClosed hl => simp only [hl] at hloop

theorem WrapperSession.Connected.pipeRead (h : w.Connected) {size : ℕ} {chunk : GoString}
    (hread : w.pipeRead size = some (chunk, w')) : w'.Connected := by
  obtain ⟨rest, err, hl, _, _, rfl⟩ := pipeRead_eq_some hread
  obtain ⟨hshut, hloop⟩ := h
  simp only [hl] at hloop
  subst hloop
  refine ⟨hshut, ?_⟩
  dsimp only
  split_ifs <;> trivial

theorem WrapperSession.InputOver.initReadPip (h : w.InputOver)
    (hinit : w.initReadPip = some w') : w'.InputOver := by
  obtain ⟨rfl, hl⟩ := initReadPip_eq_some hinit
  obtain ⟨shut, locking, loop⟩ := w
  cases loop with
  | pipeWrite rest err => exact absurd rfl (hl rest err)
  | sessRead | lockWrite chunk err => exact h
  | lockClose | closeClosed | finished => exact trivial

end GoJump.Handler
