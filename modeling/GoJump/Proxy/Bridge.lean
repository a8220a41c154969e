import GoJump.Lib.Run
import GoJump.Lib.Chan
import GoJump.Handler.WrapperSession
import GoJump.Model.Records

/-!
# The bridge between user and server

Model of `SwitchSession.Bridge` (`pkg/proxy/switchManager.go` lines 54–191): the `select`
loop, the reader of the server's output and the reader of the user's input, with the
`WrapperSession` that the input comes from. A case of the `select` runs to its end in one
step, since nobody else sees what it writes; everything between two operations on a
channel, a lock or the pipe may be interleaved with the other goroutines.

* `last_chunk_lost`: the server's last output is in `srvChan` when the loop takes
  `exitSignal` and returns.
* `output_kept_iff`: while the user stays connected and nothing else ends the session, the
  whole output has been written and recorded, in order, exactly if the loop has taken
  `exitSignal` only with `srvChan` empty.
-/

namespace GoJump.Proxy.Bridge

open GoJump.Go GoJump.Lib GoJump.Handler GoJump.Model

/-! ## The goroutines -/

/-- Where the server reader stands (lines 77–107). -/
inductive SrvReader
  /-- `srvConn.Read(buf)` -/
  | read
  /-- the `select` between `srvChan <- buf[:nr]` and `<-done` -/
  | send (chunk : GoString) (err : Bool)
  /-- `exitSignal <- struct` -/
  | exit
  /-- `close(srvChan)` -/
  | close
  | finished
  deriving DecidableEq

def SrvReader.next (err : Bool) : SrvReader := if err then .exit else .read

/-- After `srvConn.Read` has returned. -/
def SrvReader.got (chunk : GoString) (err : Bool) : SrvReader :=
  if 0 < chunk.length then .send chunk err else .next err

/-- Where the user reader stands (lines 109–123). -/
inductive UserReader
  /-- `userConn.Read(buf)`, which first looks at `w.closed` -/
  | read
  /-- `w.mux.RLock()` of that `Read` -/
  | rlock
  /-- `w.outReader.Read(p)`; the read lock is held -/
  | pipeRead
  /-- `userChan <- buf[:nr]` -/
  | send (chunk : GoString) (err : Bool)
  /-- `exitSignal <- struct` -/
  | exit
  | finished
  deriving DecidableEq

def UserReader.next (err : Bool) : UserReader := if err then .exit else .read

/-- After `userConn.Read` has returned. -/
def UserReader.got (chunk : GoString) (err : Bool) : UserReader :=
  if 0 < chunk.length then .send chunk err else .next err

/-- Where `Bridge` itself stands: in its loop, in a deferred call, or back. -/
inductive Main
  | select
  /-- `close(done)` -/
  | closeDone
  /-- `userConn.Close()`, which first looks at `w.closed` -/
  | closeUser
  /-- `w.inWriter.Close()` and `w.outReader.Close()` -/
  | closeEnds
  /-- `w.mux.Lock()` of `initReadPip` -/
  | lock
  /-- `initReadPip` waits for the lock -/
  | initReadPip
  /-- `srvConn.Close()` and `replayRecorder.End()` -/
  | closeSrv
  | returned
  deriving DecidableEq

/-- What `Bridge` reads of its session and server. -/
structure SwitchSession where
  /-- in minutes -/
  maxIdleTime : ℤ
  expireInfo : ExpireInfo

structure State where
  main : Main
  srv : SrvReader
  user : UserReader
  srvChan : Chan GoString 1
  userChan : Chan GoString 1
  exitSignal : Chan Unit 1
  /-- `done` is closed -/
  done : Bool
  /-- in nanoseconds -/
  lastActiveTime : ℤ
  wrapper : WrapperSession
  /-- what `srvConn.Read` has delivered -/
  srvRead : List GoString
  /-- what `userConn.Read` has delivered to the user reader -/
  userRead : List GoString
  /-- what was passed to `replayRecorder.Record` -/
  recorded : List GoString
  /-- what was written to `userConn` -/
  written : List GoString
  /-- what was written to `srvConn` -/
  forwarded : List GoString

/-- `Bridge` at the time `now`, on a session in any state. -/
def start (now : ℤ) (w : WrapperSession) : State :=
  ⟨.select, .read, .read, .make, .make, .make, false, now, w, [], [], [], [], []⟩

inductive SrvAct
  /-- `srvConn.Read` returns -/
  | read (chunk : GoString) (err : Bool)
  | send
  /-- the `select` takes `<-done` -/
  | done
  | exit
  | close
  deriving DecidableEq

inductive UserAct
  /-- `Read` looks at `w.closed` -/
  | check
  | rlock
  /-- the pipe gives what `readLoop` writes -/
  | read
  /-- the pipe is closed -/
  | fails
  | send
  | exit
  deriving DecidableEq

/-- A case of the `select`, with the time where it is read. -/
inductive Case
  | tick (now : ℤ)
  /-- `s.ctx.Done()` -/
  | terminate
  | winCh (now : ℤ) (ok : Bool)
  | srvChan (now : ℤ)
  | userChan (now : ℤ)
  | keepAlive
  /-- `userConn.Context().Done()` -/
  | userDone
  | exitSignal
  deriving DecidableEq

inductive Act
  | srv (a : SrvAct)
  | user (a : UserAct)
  | loop (a : LoopAct)
  | select (case : Case)
  /-- the next deferred call of `Bridge` -/
  | deferred
  /-- who reads the session's input after `Bridge` gets at most `size` bytes of it -/
  | menu (size : ℕ)
  deriving DecidableEq

def srvStep (s : State) : SrvAct → Option State
  | .read chunk err =>
    match s.srv with
    | .read =>
      some { s with
        srv := .got chunk err
        srvRead := if 0 < chunk.length then s.srvRead ++ [chunk] else s.srvRead }
    | _ => none
  | .send =>
    match s.srv with
    | .send chunk err =>
      (s.srvChan.send chunk).map fun ch => { s with srvChan := ch, srv := .next err }
    | _ => none
  | .done =>
    match s.srv with
    | .send _ _ => if s.done then some { s with srv := .exit } else none
    | _ => none
  | .exit =>
    match s.srv with
    | .exit => (s.exitSignal.send ()).map fun ch => { s with exitSignal := ch, srv := .close }
    | _ => none
  | .close =>
    match s.srv with
    | .close => some { s with srvChan := s.srvChan.close, srv := .finished }
    | _ => none

def userStep (s : State) : UserAct → Option State
  | .check =>
    match s.user with
    | .read => some { s with user := if s.wrapper.closed then .got [] true else .rlock }
    | _ => none
  | .rlock =>
    match s.user with
    | .rlock => if s.wrapper.locking then none else some { s with user := .pipeRead }
    | _ => none
  | .read =>
    match s.user with
    | .pipeRead =>
      (s.wrapper.pipeRead 1024).map fun r =>
        { s with wrapper := r.2, user := .got r.1 false, userRead := s.userRead ++ [r.1] }
    | _ => none
  | .fails =>
    match s.user with
    | .pipeRead => if s.wrapper.shut then some { s with user := .got [] true } else none
    | _ => none
  | .send =>
    match s.user with
    | .send chunk err =>
      (s.userChan.send chunk).map fun ch => { s with userChan := ch, user := .next err }
    | _ => none
  | .exit =>
    match s.user with
    | .exit => (s.exitSignal.send ()).map fun ch => { s with exitSignal := ch, user := .finished }
    | _ => none

/-- The session is idle for too long, or its permission has expired (lines 131–140). -/
def SwitchSession.Fires (c : SwitchSession) (s : State) (now : ℤ) : Prop :=
  s.lastActiveTime + c.maxIdleTime * (60 * 10 ^ 9) < now ∨
    c.expireInfo.isExpired (now / 10 ^ 9) = true

instance (c : SwitchSession) (s : State) (now : ℤ) : Decidable (c.Fires s now) :=
  inferInstanceAs (Decidable (_ ∨ _))

/-- The loop is left; the deferred calls follow. -/
def State.leave (s : State) : State := { s with main := .closeDone }

/-- A round of the loop (lines 128–190). Neither a window change nor a keep-alive is seen
    by the other goroutines. -/
def selectStep (c : SwitchSession) (s : State) : Case → Option State
  | .tick now => some (if c.Fires s now then s.leave else s)
  | .terminate => some s.leave
  | .winCh now ok => some (if ok then { s with lastActiveTime := now } else s.leave)
  | .srvChan now =>
    s.srvChan.recv.map fun
      | (none, _) => s.leave
      | (some p, ch) =>
        { s with srvChan := ch, recorded := s.recorded ++ [p], written := s.written ++ [p],
                 lastActiveTime := now }
  | .userChan now =>
    s.userChan.recv.map fun
      | (none, _) => s.leave
      | (some p, ch) =>
        { s with userChan := ch, forwarded := s.forwarded ++ [p], lastActiveTime := now }
  | .keepAlive => some s
  | .userDone => some s.leave
  | .exitSignal => s.exitSignal.recv.map fun r => { s with exitSignal := r.2, main := .closeDone }

/-- The deferred calls (lines 63–68) with `WrapperSession.Close` in its steps. -/
def deferredStep (s : State) : Option State :=
  match s.main with
  | .closeDone => some { s with done := true, main := .closeUser }
  | .closeUser => some { s with main := if s.wrapper.closed then .closeSrv else .closeEnds }
  | .closeEnds => some { s with wrapper := s.wrapper.closeEnds, main := .lock }
  | .lock => some { s with wrapper := s.wrapper.lock, main := .initReadPip }
  | .initReadPip =>
    -- the user reader has the read lock while it is in the pipe
    if s.user = .pipeRead then none
    else s.wrapper.initReadPip.map fun w => { s with wrapper := w, main := .closeSrv }
  | .closeSrv => some { s with main := .returned }
  | .select | .returned => none

/-- One step of any party. -/
def step (c : SwitchSession) (s : State) : Act → Option State
  | .srv a => srvStep s a
  | .user a => userStep s a
  | .loop a => (s.wrapper.loopStep a).map fun w => { s with wrapper := w }
  | .select case => if s.main = .select then selectStep c s case else none
  | .deferred => deferredStep s
  | .menu size =>
    if s.main = .returned then (s.wrapper.pipeRead size).map fun r => { s with wrapper := r.2 }
    else none

/-! ## What a step does -/

/-- The case makes `Bridge` return, and is not `exitSignal`. -/
def Leaves (c : SwitchSession) (s : State) : Case → Prop
  | .tick now => c.Fires s now
  | .terminate | .userDone => True
  | .winCh _ ok => ok = false
  | .srvChan _ => s.srvChan.buf = [] ∧ s.srvChan.closed = true
  | .userChan _ => s.userChan.buf = [] ∧ s.userChan.closed = true
  | .keepAlive | .exitSignal => False

instance (c : SwitchSession) (s : State) (case : Case) : Decidable (Leaves c s case) := by
  unfold Leaves
  split <;> infer_instance

/-- What a step has found, and what it leaves. -/
inductive Step (c : SwitchSession) (s : State) : Act → State → Prop
  | srvRead (chunk : GoString) (err : Bool) (h : s.srv = .read) :
      Step c s (.srv (.read chunk err)) { s with
        srv := .got chunk err
        srvRead := if 0 < chunk.length then s.srvRead ++ [chunk] else s.srvRead }
  | srvSend (chunk : GoString) (err : Bool) (ch : Chan GoString 1) (h : s.srv = .send chunk err)
      (hsend : s.srvChan.send chunk = some ch) :
      Step c s (.srv .send) { s with srvChan := ch, srv := .next err }
  | srvDone (chunk : GoString) (err : Bool) (h : s.srv = .send chunk err) (hdone : s.done = true) :
      Step c s (.srv .done) { s with srv := .exit }
  | srvExit (ch : Chan Unit 1) (h : s.srv = .exit) (hsend : s.exitSignal.send () = some ch) :
      Step c s (.srv .exit) { s with exitSignal := ch, srv := .close }
  | srvClose (h : s.srv = .close) :
      Step c s (.srv .close) { s with srvChan := s.srvChan.close, srv := .finished }
  | userCheck (h : s.user = .read) :
      Step c s (.user .check) { s with user := if s.wrapper.closed then .exit else .rlock }
  | userLock (h : s.user = .rlock) (hk : s.wrapper.locking = false) :
      Step c s (.user .rlock) { s with user := .pipeRead }
  | userRead (chunk : GoString) (w : WrapperSession) (h : s.user = .pipeRead)
      (hread : s.wrapper.pipeRead 1024 = some (chunk, w)) :
      Step c s (.user .read) { s with
        wrapper := w, user := .got chunk false, userRead := s.userRead ++ [chunk] }
  | userFails (h : s.user = .pipeRead) (hs : s.wrapper.shut = true) :
      Step c s (.user .fails) { s with user := .exit }
  | userSend (chunk : GoString) (err : Bool) (ch : Chan GoString 1) (h : s.user = .send chunk err)
      (hsend : s.userChan.send chunk = some ch) :
      Step c s (.user .send) { s with userChan := ch, user := .next err }
  | userExit (ch : Chan Unit 1) (h : s.user = .exit) (hsend : s.exitSignal.send () = some ch) :
      Step c s (.user .exit) { s with exitSignal := ch, user := .finished }
  | loop (a : LoopAct) (w : WrapperSession) (hloop : LoopStep s.wrapper a w) :
      Step c s (.loop a) { s with wrapper := w }
  | stay (case : Case) (t : ℤ) (hm : s.main = .select) (hc : case ≠ .exitSignal) :
      Step c s (.select case) { s with lastActiveTime := t }
  | leave (case : Case) (hm : s.main = .select) (hc : Leaves c s case) :
      Step c s (.select case) s.leave
  | recvSrv (now : ℤ) (p : GoString) (ch : Chan GoString 1) (hm : s.main = .select)
      (hrecv : s.srvChan.recv = some (some p, ch)) :
      Step c s (.select (.srvChan now)) { s with
        srvChan := ch, recorded := s.recorded ++ [p], written := s.written ++ [p]
        lastActiveTime := now }
  | recvUser (now : ℤ) (p : GoString) (ch : Chan GoString 1) (hm : s.main = .select)
      (hrecv : s.userChan.recv = some (some p, ch)) :
      Step c s (.select (.userChan now)) { s with
        userChan := ch, forwarded := s.forwarded ++ [p], lastActiveTime := now }
  | recvExit (o : Option Unit) (ch : Chan Unit 1) (hm : s.main = .select)
      (hrecv : s.exitSignal.recv = some (o, ch)) :
      Step c s (.select .exitSignal) { s with exitSignal := ch, main := .closeDone }
  | closeDone (hm : s.main = .closeDone) :
      Step c s .deferred { s with done := true, main := .closeUser }
  | closeUser (hm : s.main = .closeUser) :
      Step c s .deferred { s with main := if s.wrapper.closed then .closeSrv else .closeEnds }
  | closeEnds (hm : s.main = .closeEnds) :
      Step c s .deferred { s with wrapper := s.wrapper.closeEnds, main := .lock }
  | lock (hm : s.main = .lock) :
      Step c s .deferred { s with wrapper := s.wrapper.lock, main := .initReadPip }
  | initReadPip (w : WrapperSession) (hm : s.main = .initReadPip) (hu : s.user ≠ .pipeRead)
      (hinit : s.wrapper.initReadPip = some w) :
      Step c s .deferred { s with wrapper := w, main := .closeSrv }
  | closeSrv (hm : s.main = .closeSrv) : Step c s .deferred { s with main := .returned }
  | menu (size : ℕ) (chunk : GoString) (w : WrapperSession) (hm : s.main = .returned)
      (hread : s.wrapper.pipeRead size = some (chunk, w)) :
      Step c s (.menu size) { s with wrapper := w }

variable {c : SwitchSession} {s s' : State}

theorem srvStep_eq_some {a : SrvAct} (h : srvStep s a = some s') : Step c s (.srv a) s' := by
  cases a with
  | read chunk err =>
    simp only [srvStep] at h
    split at h
    · rename_i hs
      cases h
      exact .srvRead chunk err hs
    · cases h
  | send =>
    simp only [srvStep] at h
    split at h
    · rename_i chunk err hs
      obtain ⟨ch, hsend, rfl⟩ := Option.map_eq_some_iff.mp h
      exact .srvSend chunk err ch hs hsend
    · cases h
  | done =>
    simp only [srvStep] at h
    split at h
    · rename_i chunk err hs
      split_ifs at h with hdone
      cases h
      exact .srvDone chunk err hs hdone
    · cases h
  | exit =>
    simp only [srvStep] at h
    split at h
    · rename_i hs
      obtain ⟨ch, hsend, rfl⟩ := Option.map_eq_some_iff.mp h
      exact .srvExit ch hs hsend
    · cases h
  | close =>
    simp only [srvStep] at h
    split at h
    · rename_i hs
      cases h
      exact .srvClose hs
    · cases h

theorem userStep_eq_some {a : UserAct} (h : userStep s a = some s') : Step c s (.user a) s' := by
  cases a with
  | check =>
    simp only [userStep] at h
    split at h
    · rename_i hu
      cases h
      exact .userCheck hu
    · cases h
  | rlock =>
    simp only [userStep] at h
    split at h
    · rename_i hu
      split_ifs at h with hk
      cases h
      exact .userLock hu (Bool.eq_false_iff.mpr hk)
    · cases h
  | read =>
    simp only [userStep] at h
    split at h
    · rename_i hu
      obtain ⟨r, hread, rfl⟩ := Option.map_eq_some_iff.mp h
      exact .userRead r.1 r.2 hu hread
    · cases h
  | fails =>
    simp only [userStep] at h
    split at h
    · rename_i hu
      split_ifs at h with hs
      cases h
      exact .userFails hu hs
    · cases h
  | send =>
    simp only [userStep] at h
    split at h
    · rename_i chunk err hu
      obtain ⟨ch, hsend, rfl⟩ := Option.map_eq_some_iff.mp h
      exact .userSend chunk err ch hu hsend
    · cases h
  | exit =>
    simp only [userStep] at h
    split at h
    · rename_i hu
      obtain ⟨ch, hsend, rfl⟩ := Option.map_eq_some_iff.mp h
      exact .userExit ch hu hsend
    · cases h

theorem selectStep_eq_some {case : Case} (hm : s.main = .select)
    (h : selectStep c s case = some s') : Step c s (.select case) s' := by
  cases case with
  | tick now =>
    simp only [selectStep, Option.some.injEq] at h
    subst h
    split_ifs with hf
    · exact .leave _ hm hf
    · exact .stay _ s.lastActiveTime hm nofun
  | terminate =>
    cases h
    exact .leave _ hm trivial
  | winCh now ok =>
    cases h
    cases ok with
    | true => exact .stay _ now hm nofun
    | false => exact .leave _ hm rfl
  | srvChan now =>
    obtain ⟨⟨o, ch⟩, hrecv, rfl⟩ := Option.map_eq_some_iff.mp h
    cases o with
    | none =>
      have hend := Chan.recv_eq_end hrecv
      exact .leave _ hm ⟨hend.1, hend.2.1⟩
    | some p => exact .recvSrv now p ch hm hrecv
  | userChan now =>
    obtain ⟨⟨o, ch⟩, hrecv, rfl⟩ := Option.map_eq_some_iff.mp h
    cases o with
    | none =>
      have hend := Chan.recv_eq_end hrecv
      exact .leave _ hm ⟨hend.1, hend.2.1⟩
    | some p => exact .recvUser now p ch hm hrecv
  | keepAlive =>
    cases h
    exact .stay _ s.lastActiveTime hm nofun
  | userDone =>
    cases h
    exact .leave _ hm trivial
  | exitSignal =>
    obtain ⟨⟨o, ch⟩, hrecv, rfl⟩ := Option.map_eq_some_iff.mp h
    exact .recvExit o ch hm hrecv

theorem deferredStep_eq_some (h : deferredStep s = some s') : Step c s .deferred s' := by
  cases hm : s.main with
  | select | returned =>
    simp only [deferredStep, hm] at h
    cases h
  | closeDone =>
    simp only [deferredStep, hm, Option.some.injEq] at h
    subst h
    exact .closeDone hm
  | closeUser =>
    simp only [deferredStep, hm, Option.some.injEq] at h
    subst h
    exact .closeUser hm
  | closeEnds =>
    simp only [deferredStep, hm, Option.some.injEq] at h
    subst h
    exact .closeEnds hm
  | lock =>
    simp only [deferredStep, hm, Option.some.injEq] at h
    subst h
    exact .lock hm
  | initReadPip =>
    simp only [deferredStep, hm] at h
    split_ifs at h with hu
    obtain ⟨w, hinit, rfl⟩ := Option.map_eq_some_iff.mp h
    exact .initReadPip w hm hu hinit
  | closeSrv =>
    simp only [deferredStep, hm, Option.some.injEq] at h
    subst h
    exact .closeSrv hm

theorem step_eq_some {a : Act} (h : step c s a = some s') : Step c s a s' := by
  cases a with
  | srv a => exact srvStep_eq_some h
  | user a => exact userStep_eq_some h
  | loop a =>
    obtain ⟨w, hloop, rfl⟩ := Option.map_eq_some_iff.mp h
    exact .loop a w (WrapperSession.loopStep_eq_some hloop)
  | select case =>
    simp only [step] at h
    split_ifs at h with hm
    exact selectStep_eq_some hm h
  | deferred => exact deferredStep_eq_some h
  | menu size =>
    simp only [step] at h
    split_ifs at h with hm
    obtain ⟨r, hread, rfl⟩ := Option.map_eq_some_iff.mp h
    exact .menu size r.1 r.2 hm hread

/-! ## The user stays connected -/

/-- The user stays connected while the loop runs, and nothing but the server's end or the
    signal of a reader makes `Bridge` return. -/
def Quiet (c : SwitchSession) (s : State) : Act → Prop
  | .select (.tick now) => ¬ c.Fires s now
  | .select .terminate | .select .userDone => False
  | .select (.winCh _ ok) => ok = true
  | .loop (.sessRead _ err) => s.main = .select → err = false
  | _ => True

instance (c : SwitchSession) (s : State) (a : Act) : Decidable (Quiet c s a) := by
  unfold Quiet
  split <;> infer_instance

/-- The reader has seen no error. -/
def UserReader.inLoop : UserReader → Bool
  | read | rlock | pipeRead | send _ false => true
  | send _ true | exit | finished => false

theorem UserReader.inLoop_got (chunk : GoString) : (got chunk false).inLoop = true := by
  unfold got
  split_ifs <;> rfl

/-- While the loop runs, the user reader does and its input is open. -/
def Attended (s : State) : Prop :=
  s.main = .select → s.user.inLoop = true ∧ s.wrapper.Connected

theorem step_attended {a : Act} (h : Attended s) (hQ : Quiet c s a) (hstep : Step c s a s') :
    Attended s' := by
  cases hstep with
  | srvRead | srvSend | srvDone | srvExit | srvClose | stay | recvSrv | recvUser => exact h
  | userCheck hu =>
    intro hm
    obtain ⟨_, hw⟩ := h hm
    refine ⟨?_, hw⟩
    dsimp only
    rw [hw.not_closed]
    rfl
  | userLock hu hk => exact fun hm => ⟨rfl, (h hm).2⟩
  | userRead chunk w hu hread =>
    exact fun hm => ⟨UserReader.inLoop_got chunk, (h hm).2.pipeRead hread⟩
  | userFails hu hs =>
    intro hm
    have hopen : s.wrapper.shut = false := (h hm).2.1
    rw [hopen] at hs
    cases hs
  | userSend chunk err ch hu hsend =>
    intro hm
    obtain ⟨hin, hw⟩ := h hm
    rw [hu] at hin
    cases err with
    | true => cases hin
    | false => exact ⟨rfl, hw⟩
  | userExit ch hu hsend =>
    intro hm
    have hin := (h hm).1
    rw [hu] at hin
    cases hin
  | loop a w hloop =>
    intro hm
    obtain ⟨hin, hw⟩ := h hm
    refine ⟨hin, hw.loopStep ?_ hloop⟩
    rintro chunk rfl
    cases hQ hm
  | leave | recvExit | closeDone | closeEnds | lock | initReadPip | closeSrv => exact nofun
  | closeUser hm =>
    intro hm'
    dsimp only at hm'
    split_ifs at hm'
  | menu size chunk w hm hread =>
    intro hm'
    exact absurd (hm.symm.trans hm') nofun

/-! ## The server's output -/

/-- What the server reader has read and not sent yet. -/
def SrvReader.pending : SrvReader → List GoString
  | send chunk _ => [chunk]
  | read | exit | close | finished => []

/-- The server reader has raised `exitSignal`. -/
def SrvReader.signalled : SrvReader → Bool
  | close | finished => true
  | read | send _ _ | exit => false

theorem SrvReader.pending_next (err : Bool) : (next err).pending = [] := by
  cases err <;> rfl

theorem SrvReader.pending_got (chunk : GoString) (err : Bool) :
    (got chunk err).pending = if 0 < chunk.length then [chunk] else [] := by
  unfold got
  split_ifs
  · rfl
  · exact pending_next err

/-- Nobody but the server reader ends the session: what it has read is on its way in
    order, and only behind its signal the loop is left. -/
structure Flow (s : State) : Prop where
  kept : s.srvRead = s.written ++ s.srvChan.buf ++ s.srv.pending
  recorded : s.recorded = s.written
  nonempty : ∀ chunk ∈ s.srvChan.buf ++ s.srv.pending, 0 < chunk.length
  srvClosed : s.srvChan.closed = true → s.srv = .finished
  userOpen : s.userChan.closed = false
  exitOpen : s.exitSignal.closed = false
  signal : s.main = .select → s.exitSignal.buf ≠ [] → s.srv.signalled = true
  left : s.main ≠ .select → s.srv.signalled = true
  done : s.done = true → s.main ≠ .select

/-- A server reader that has not raised its signal finds the loop running, nothing in
    `exitSignal` and `srvChan` open. -/
theorem Flow.early (h : Flow s) (hs : s.srv.signalled = false) :
    s.main = .select ∧ s.exitSignal.buf = [] ∧ s.srvChan.closed = false := by
  have hm : s.main = .select := by
    by_contra hm
    rw [h.left hm] at hs
    cases hs
  refine ⟨hm, ?_, ?_⟩
  · by_contra hbuf
    rw [h.signal hm hbuf] at hs
    cases hs
  · rw [Bool.eq_false_iff]
    intro hcl
    rw [h.srvClosed hcl] at hs
    cases hs

/-- The server reader before its signal: what it has read is still on its way. -/
theorem Flow.before_signal (h : Flow s) (hs : s.srv.signalled = false) {ch : Chan GoString 1}
    {srv : SrvReader} {srvRead : List GoString} (hcl : ch.closed = s.srvChan.closed)
    (kept : srvRead = s.written ++ ch.buf ++ srv.pending)
    (nonempty : ∀ chunk ∈ ch.buf ++ srv.pending, 0 < chunk.length) :
    Flow { s with srvChan := ch, srv := srv, srvRead := srvRead } := by
  obtain ⟨hm, hbuf, hopen⟩ := h.early hs
  refine { h with kept := kept, nonempty := nonempty, srvClosed := ?_, signal := ?_, left := ?_ }
  · intro hcl'
    rw [show ch.closed = true from hcl', hopen] at hcl
    cases hcl
  · exact fun _ hne => absurd hbuf hne
  · exact fun hm' => absurd hm hm'

/-- The server reader from its signal on: all it has read is in `srvChan` or further. -/
theorem Flow.after_signal (h : Flow s) (hp : s.srv.pending = []) {ch : Chan GoString 1}
    {exit : Chan Unit 1} {srv : SrvReader} (hbuf : ch.buf = s.srvChan.buf)
    (hcl : ch.closed = true → srv = .finished) (hopen : exit.closed = s.exitSignal.closed)
    (hp' : srv.pending = []) (hsig : srv.signalled = true) :
    Flow { s with srvChan := ch, exitSignal := exit, srv := srv } := by
  have hkept := h.kept
  have hall := h.nonempty
  rw [hp, ← hbuf, ← hp'] at hkept hall
  exact { h with
    kept := hkept, nonempty := hall, srvClosed := hcl, exitOpen := hopen.trans h.exitOpen
    signal := fun _ _ => hsig, left := fun _ => hsig }

theorem Flow.srvStep {a : SrvAct} (h : Flow s) (hstep : Step c s (.srv a) s') : Flow s' := by
  cases hstep with
  | srvRead chunk err hs =>
    have hsig : s.srv.signalled = false := by rw [hs]; rfl
    have hp : s.srv.pending = [] := by rw [hs]; rfl
    apply h.before_signal hsig rfl
    · rw [SrvReader.pending_got, h.kept, hp]
      split_ifs <;> simp
    · rw [SrvReader.pending_got]
      have hbuf := (List.forall_mem_append.mp h.nonempty).1
      refine List.forall_mem_append.mpr ⟨hbuf, ?_⟩
      split_ifs with hlen
      · exact List.forall_mem_singleton.mpr hlen
      · exact nofun
  | srvSend chunk err ch hs hsend =>
    have hsig : s.srv.signalled = false := by rw [hs]; rfl
    have hp : s.srv.pending = [chunk] := by rw [hs]; rfl
    obtain ⟨_, _, hbuf, hcl⟩ := Chan.send_eq_some hsend
    apply h.before_signal hsig hcl
    · rw [SrvReader.pending_next, h.kept, hp, hbuf, List.append_nil, List.append_assoc]
    · have hall := h.nonempty
      rw [hp, ← hbuf] at hall
      rw [SrvReader.pending_next, List.append_nil]
      exact hall
  | srvDone chunk err hs hdone =>
    have hm : s.main = .select := (h.early (by rw [hs]; rfl)).1
    exact absurd hm (h.done hdone)
  | srvExit ch hs hsend =>
    have hopen : s.srvChan.closed = false := (h.early (by rw [hs]; rfl)).2.2
    apply h.after_signal (by rw [hs]; rfl) rfl
    · intro hcl
      rw [hopen] at hcl
      cases hcl
    · exact (Chan.send_eq_some hsend).2.2.2
    · rfl
    · rfl
  | srvClose hs => exact h.after_signal (by rw [hs]; rfl) rfl (fun _ => rfl) rfl rfl rfl

/-- In a quiet session the loop is left behind `exitSignal` or at the end of `srvChan`. -/
theorem Flow.finished_of_leaves (h : Flow s) {case : Case} (hQ : Quiet c s (.select case))
    (hl : Leaves c s case) : s.srvChan.buf = [] ∧ s.srv = .finished := by
  cases case with
  | tick now => exact absurd hl hQ
  | terminate | userDone => exact hQ.elim
  | winCh now ok => cases Eq.trans (Eq.symm hQ) hl
  | srvChan now => exact ⟨hl.1, h.srvClosed hl.2⟩
  | userChan now => cases Eq.trans (Eq.symm h.userOpen) hl.2
  | keepAlive | exitSignal => exact hl.elim

theorem Flow.selectStep {case : Case} (h : Flow s) (hQ : Quiet c s (.select case))
    (hstep : Step c s (.select case) s') : Flow s' := by
  cases hstep with
  | stay => exact { h with }
  | leave case hm hl =>
    have hfin := (h.finished_of_leaves hQ hl).2
    refine { h with signal := nofun, left := fun _ => ?_, done := fun _ => nofun }
    show s.srv.signalled = true
    rw [hfin]
    rfl
  | recvSrv now p ch hm hrecv =>
    obtain ⟨hbuf, hcl⟩ := Chan.recv_eq_value hrecv
    refine { h with kept := ?_, recorded := ?_, nonempty := ?_, srvClosed := ?_ }
    · show s.srvRead = s.written ++ [p] ++ ch.buf ++ s.srv.pending
      rw [h.kept, hbuf]
      simp
    · show s.recorded ++ [p] = s.written ++ [p]
      rw [h.recorded]
    · have hall := h.nonempty
      rw [hbuf, List.cons_append] at hall
      exact (List.forall_mem_cons.mp hall).2
    · exact fun hcl' => h.srvClosed (hcl.symm.trans hcl')
  | recvUser now p ch hm hrecv =>
    exact { h with userOpen := (Chan.recv_eq_value hrecv).2.trans h.userOpen }
  | recvExit o ch hm hrecv =>
    cases o with
    | none => cases Eq.trans (Eq.symm h.exitOpen) (Chan.recv_eq_end hrecv).2.1
    | some u =>
      obtain ⟨hbuf, hcl⟩ := Chan.recv_eq_value hrecv
      have hsig : s.srv.signalled = true := h.signal hm (by rw [hbuf]; exact List.cons_ne_nil _ _)
      exact { h with
        exitOpen := hcl.trans h.exitOpen, signal := fun _ _ => hsig, left := fun _ => hsig
        done := fun _ => nofun }

/-- The deferred calls neither start nor end in the loop. -/
theorem Step.deferred_main (hstep : Step c s .deferred s') :
    s.main ≠ .select ∧ s'.main ≠ .select := by
  cases hstep with
  | closeUser hm =>
    refine ⟨by rw [hm]; exact nofun, ?_⟩
    dsimp only
    split_ifs <;> exact nofun
  | closeDone hm | closeEnds hm | lock hm | initReadPip w hm _ _ | closeSrv hm =>
    exact ⟨by rw [hm]; exact nofun, nofun⟩

theorem Flow.deferredStep (h : Flow s) (hstep : Step c s .deferred s') : Flow s' := by
  obtain ⟨hm, hm'⟩ := hstep.deferred_main
  have hsig : s.srv.signalled = true := h.left hm
  cases hstep with
  | closeDone | closeUser | closeEnds | lock | initReadPip | closeSrv =>
    exact { h with signal := fun _ _ => hsig, left := fun _ => hsig, done := fun _ => hm' }

theorem step_flow {a : Act} (h : Flow s) (hA : Attended s) (hQ : Quiet c s a)
    (hstep : Step c s a s') : Flow s' := by
  cases a with
  | srv a => exact h.srvStep hstep
  | select case => exact h.selectStep hQ hstep
  | deferred => exact h.deferredStep hstep
  | loop a =>
    cases hstep
    exact { h with }
  | menu size =>
    cases hstep
    exact { h with }
  | user a =>
    cases hstep with
    | userCheck | userLock | userRead | userFails => exact { h with }
    | userSend chunk err ch hu hsend =>
      exact { h with userOpen := (Chan.send_eq_some hsend).2.2.2.trans h.userOpen }
    | userExit ch hu hsend =>
      -- while the loop runs, the user reader has no reason to give a signal
      refine { h with
        exitOpen := (Chan.send_eq_some hsend).2.2.2.trans h.exitOpen, signal := fun hm _ => ?_ }
      have hin := (hA hm).1
      rw [hu] at hin
      cases hin

/-! ## What is left in `srvChan` -/

/-- `exitSignal` is taken only when no output waits in `srvChan`. -/
def Drained (s : State) (a : Act) : Prop := a = .select .exitSignal → s.srvChan.buf = []

instance (s : State) (a : Act) : Decidable (Drained s a) := inferInstanceAs (Decidable (_ → _))

/-- A `select` runs only in the loop. -/
theorem Step.select_main {case : Case} (hstep : Step c s (.select case) s') : s.main = .select := by
  cases hstep with
  | stay _ _ hm | leave _ hm | recvSrv _ _ _ hm | recvUser _ _ _ hm | recvExit _ _ hm => exact hm

/-- Once the loop is left, the buffer of `srvChan` stays as it is. -/
theorem step_of_left {a : Act} (h : Flow s) (hm : s.main ≠ .select) (hstep : Step c s a s') :
    Drained s a ∧ s'.main ≠ .select ∧ s'.srvChan.buf = s.srvChan.buf := by
  have hsig : s.srv.signalled = true := h.left hm
  cases a with
  | select case => exact absurd hstep.select_main hm
  | deferred =>
    refine ⟨nofun, hstep.deferred_main.2, ?_⟩
    cases hstep <;> rfl
  | user a =>
    cases hstep <;> exact ⟨nofun, hm, rfl⟩
  | loop a =>
    cases hstep
    exact ⟨nofun, hm, rfl⟩
  | menu size =>
    cases hstep
    exact ⟨nofun, hm, rfl⟩
  | srv a =>
    cases hstep with
    | srvSend chunk err ch hs hsend =>
      rw [hs] at hsig
      cases hsig
    | srvRead | srvDone | srvExit | srvClose => exact ⟨nofun, hm, rfl⟩

/-- The step that leaves the loop is drained exactly if it leaves nothing in `srvChan`. -/
theorem step_leaving {a : Act} (h : Flow s) (hQ : Quiet c s a) (hm : s.main = .select)
    (hstep : Step c s a s') (hm' : s'.main ≠ .select) : Drained s a ↔ s'.srvChan.buf = [] := by
  cases hstep with
  | leave case _ hl =>
    have hnil := (h.finished_of_leaves hQ hl).1
    exact iff_of_true (fun _ => hnil) hnil
  | recvExit o ch _ hrecv => exact ⟨fun hd => hd rfl, fun hnil _ => hnil⟩
  | closeDone hd | closeUser hd | closeEnds hd | lock hd | initReadPip _ hd | closeSrv hd =>
    rw [hd] at hm
    cases hm
  | srvRead | srvSend | srvDone | srvExit | srvClose | userCheck | userLock | userRead | userFails
  | userSend | userExit | loop | stay | recvSrv | recvUser | menu => exact absurd hm hm'

/-- A step that stays in the loop has not taken `exitSignal`. -/
theorem drained_of_select {a : Act} (hstep : Step c s a s') (hm' : s'.main = .select) :
    Drained s a := by
  rintro rfl
  cases hstep with
  | stay _ _ _ hc => exact absurd rfl hc
  | leave | recvExit => cases hm'

theorem run_of_left (as : List Act) : ∀ s s' : State, Flow s → Attended s → s.main ≠ .select →
    Meets (step c) (Quiet c) s as → run (step c) s as = some s' →
    Meets (step c) Drained s as ∧ s'.srvChan.buf = s.srvChan.buf := by
  induction as with
  | nil =>
    intro s s' _ _ _ _ hrun
    cases hrun
    exact ⟨trivial, rfl⟩
  | cons a as ih =>
    intro s s'' h hA hm hQ hrun
    obtain ⟨s', h1, h2⟩ := run_cons_eq_some.mp hrun
    have hstep := step_eq_some h1
    obtain ⟨hd, hm', hbuf⟩ := step_of_left h hm hstep
    obtain ⟨hmeets, hbuf'⟩ := ih s' s'' (step_flow h hA hQ.1 hstep) (step_attended hA hQ.1 hstep)
      hm' (hQ.2 s' h1) h2
    refine ⟨⟨hd, fun t ht => ?_⟩, hbuf'.trans hbuf⟩
    cases h1.symm.trans ht
    exact hmeets

/-- A session that is over has left nothing in `srvChan` exactly if it was drained. -/
theorem drained_iff (as : List Act) : ∀ s s' : State, Flow s → Attended s → s.main = .select →
    Meets (step c) (Quiet c) s as → run (step c) s as = some s' → s'.main ≠ .select →
    (Meets (step c) Drained s as ↔ s'.srvChan.buf = []) := by
  induction as with
  | nil =>
    intro s s' _ _ hm _ hrun hm'
    cases hrun
    exact absurd hm hm'
  | cons a as ih =>
    intro s s'' h hA hm hQ hrun hm''
    obtain ⟨s', h1, h2⟩ := run_cons_eq_some.mp hrun
    have hstep := step_eq_some h1
    have h' : Flow s' := step_flow h hA hQ.1 hstep
    have hA' : Attended s' := step_attended hA hQ.1 hstep
    have hrest : Meets (step c) Drained s (a :: as) ↔
        Drained s a ∧ Meets (step c) Drained s' as := by
      show (Drained s a ∧ ∀ t ∈ step c s a, _) ↔ _
      simp only [h1, Option.mem_def, Option.some.injEq, forall_eq']
    rw [hrest]
    by_cases hm' : s'.main = .select
    · have hd : Drained s a := drained_of_select hstep hm'
      rw [ih s' s'' h' hA' hm' (hQ.2 s' h1) h2 hm'']
      exact and_iff_right hd
    · obtain ⟨hmeets, hbuf⟩ := run_of_left as s' s'' h' hA' hm' (hQ.2 s' h1) h2
      rw [hbuf, ← step_leaving h hQ.1 hm hstep hm']
      exact and_iff_left hmeets

theorem flow_start (now : ℤ) (w : WrapperSession) : Flow (start now w) where
  kept := rfl
  recorded := rfl
  nonempty := nofun
  srvClosed := nofun
  userOpen := rfl
  exitOpen := rfl
  signal _ h := absurd rfl h
  left h := absurd rfl h
  done := nofun

theorem run_flow {as : List Act} {s₀ : State} (h : Flow s₀) (hA : Attended s₀)
    (hQ : Meets (step c) (Quiet c) s₀ as) (hrun : run (step c) s₀ as = some s) : Flow s := by
  have hstep : ∀ s a s', Flow s ∧ Attended s → Quiet c s a → step c s a = some s' →
      Flow s' ∧ Attended s' := by
    intro s a s' hinv hQ h1
    have hstep := step_eq_some h1
    exact ⟨step_flow hinv.1 hinv.2 hQ hstep, step_attended hinv.2 hQ hstep⟩
  exact (run_inv hstep as s₀ s ⟨h, hA⟩ hQ hrun).1

/-- Whatever the server sends and however the goroutines take turns, while the user stays
    connected and no idle, expiry or terminate event ends the session: when `Bridge` has
    returned, every byte that was read from the server has been written to the user and
    recorded, in order, exactly if `exitSignal` was taken only with `srvChan` empty. -/
theorem output_kept_iff (c : SwitchSession) (now : ℤ) (w : WrapperSession) (hw : w.Connected)
    (as : List Act) (s : State) (hrun : run (step c) (start now w) as = some s)
    (hQ : Meets (step c) (Quiet c) (start now w) as) (hret : s.main = .returned) :
    (s.written.flatten = s.srvRead.flatten ∧ s.recorded.flatten = s.srvRead.flatten) ↔
      Meets (step c) Drained (start now w) as := by
  have h₀ := flow_start now w
  have hA₀ : Attended (start now w) := fun _ => ⟨rfl, hw⟩
  have hm : s.main ≠ .select := by
    rw [hret]
    exact nofun
  have h : Flow s := run_flow h₀ hA₀ hQ hrun
  have hp : s.srv.pending = [] := by
    have hsig := h.left hm
    cases hs : s.srv with
    | close | finished => rfl
    | read | send chunk err | exit =>
      rw [hs] at hsig
      cases hsig
  have hbuf : s.srvChan.buf.flatten = [] ↔ s.srvChan.buf = [] := by
    rw [List.flatten_eq_nil_iff]
    constructor
    · intro hall
      refine List.eq_nil_iff_forall_not_mem.mpr fun chunk hmem => ?_
      have hlen := h.nonempty chunk (List.mem_append_left _ hmem)
      rw [hall chunk hmem] at hlen
      cases hlen
    · intro hnil chunk hmem
      rw [hnil] at hmem
      cases hmem
  rw [drained_iff as _ s h₀ hA₀ rfl hQ hrun hm, h.recorded, and_self, h.kept, hp, List.append_nil,
    List.flatten_append, ← hbuf]
  exact List.self_eq_append_right

/-- Half an hour of idle time, and a permission that does not expire. -/
def halfHour : SwitchSession := ⟨30, ⟨0⟩⟩

/-- A session that waits for input. -/
def waiting : WrapperSession := ⟨false, false, .sessRead⟩

/-- The deferred calls of `Bridge` on an open session. -/
def closing : List Act := List.replicate 6 .deferred

/-- The server says goodbye, and the loop takes `exitSignal` first. -/
def lostRun : List Act :=
  [.srv (.read (str "bye") true), .srv .send, .srv .exit, .select .exitSignal] ++ closing

theorem last_chunk_lost :
    ∃ s, run (step halfHour) (start 0 waiting) lostRun = some s ∧
      Meets (step halfHour) (Quiet halfHour) (start 0 waiting) lostRun ∧ s.main = .returned ∧
      s.srvRead = [str "bye"] ∧ s.written = [] ∧ s.recorded = [] :=
  ⟨_, rfl, by decide, rfl, rfl, rfl, rfl⟩

/-- The loop takes the chunk first. -/
def keptRun : List Act :=
  [.srv (.read (str "bye") true), .srv .send, .srv .exit, .select (.srvChan 1),
    .select .exitSignal] ++ closing

theorem output_kept_iff_bye :
    ∃ s, run (step halfHour) (start 0 waiting) keptRun = some s ∧ s.srvRead = [str "bye"] ∧
      s.written.flatten = s.srvRead.flatten ∧ s.recorded.flatten = s.srvRead.flatten :=
  ⟨_, rfl, rfl, (output_kept_iff halfHour 0 waiting (by decide) keptRun _ rfl (by decide) rfl).mpr
    (by decide)⟩

end GoJump.Proxy.Bridge
