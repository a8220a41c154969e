import Mathlib.Data.Finset.Basic
import GoJump.Lib.Pool
import GoJump.Go.Strings

/-!
# Serving and shutting down

Model of the registries of `pkg/ssh/server.go`: `Serve` (lines 223–260), `HandleConn`
(lines 262–307), `Shutdown` (lines 197–216), `Close` (lines 179–190) and what they share
(lines 377–449). A run of `Pool.step exec` is one interleaving of any number of these
calls with the connections that `Serve` has accepted.

What a function does while it holds `srv.mu` is one step. `Accept` does not take the lock,
but a `Serve` whose `Accept` fails takes it next, in `getDoneChan`, so a failure in the
middle of `Shutdown` can as well come after it. A call of `Shutdown` and the goroutine it
starts are one process.

* `serve_stops`: a `Serve` whose listener `Shutdown` or `Close` has closed returns
  `ErrServerClosed` after at most six steps of its own, and accepts nothing before that.
* `early_shutdown_lost`: on a server with one `Serve`, whatever `Shutdown` and `Close` do
  before its `trackListener` leaves no trace.
* `shutdown_drains`: a `Shutdown` that has waited to the end has outlived every `Serve` and
  every connection that was tracked while it waited for them.
-/

namespace GoJump.Ssh.Server

open GoJump.Go GoJump.Lib

/-! ## The server -/

/-- What `Accept` returns as its error. -/
inductive NetErr
  /-- `net.ErrClosed`: the listener has been closed -/
  | errClosed
  | other (text : GoString) (temporary : Bool)
  deriving DecidableEq

/-- `ne.Temporary()`. -/
def NetErr.isTemporary : NetErr → Bool
  | errClosed => false
  | other _ temporary => temporary

/-- What `Serve` returns. -/
inductive ServeErr
  | errServerClosed
  /-- the error of `ensureHostSigner` -/
  | hostSigner (text : GoString)
  | accept (e : NetErr)
  deriving DecidableEq

/-- `srv.doneChan` and the channels made for it so far, `true` once closed. -/
structure DoneChan where
  chan : Option ℕ := none
  made : List Bool := []
  chan_made : ∀ ch ∈ chan, ch < made.length := by simp
  deriving DecidableEq

namespace DoneChan

/-- Whether `<-ch` is ready. -/
def isClosed (d : DoneChan) (ch : ℕ) : Bool :=
  d.made.getD ch false

/-- `getDoneChanLocked` (lines 384–389). -/
def get (d : DoneChan) : ℕ × DoneChan :=
  match d.chan with
  | some ch => (ch, d)
  | none =>
    (d.made.length,
      { chan := some d.made.length, made := d.made ++ [false], chan_made := by simp })

/-- `closeDoneChanLocked` (lines 391–401). -/
def close (d : DoneChan) : DoneChan :=
  let ch := d.get.1
  let d := d.get.2
  if d.isClosed ch then d
  else { d with made := d.made.set ch true, chan_made := by simpa using d.chan_made }

/-- `srv.doneChan = nil`. -/
def reset (d : DoneChan) : DoneChan :=
  { d with chan := none, chan_made := by simp }

end DoneChan

/-- The fields of `Server` under `mu`, the listeners closed so far, and how many connections
    have been accepted. -/
structure Registry where
  listeners : Finset ℕ := ∅
  conns : Finset ℕ := ∅
  listenerWg : ℤ := 0
  connWg : ℤ := 0
  doneChan : DoneChan := {}
  closed : Finset ℕ := ∅
  accepted : ℕ := 0
  deriving DecidableEq

namespace Registry

/-- One round of the loop of `closeListenersLocked`. -/
def closeListener (closeErr : ℕ → Option GoString) (acc : Option GoString × Registry) (ln : ℕ) :
    Option GoString × Registry :=
  let (err, s) := acc
  let s := { s with closed := insert ln s.closed }
  let err := if (closeErr ln).isSome ∧ err.isNone then closeErr ln else err
  (err, { s with listeners := s.listeners.erase ln })

/-- `closeListenersLocked` (lines 403–412), where `range` takes the map in the order `order`
    and `closeErr` is what the listeners' `Close` returns. -/
def closeListenersLocked (s : Registry) (order : List ℕ) (closeErr : ℕ → Option GoString) :
    Option GoString × Registry :=
  order.foldl (closeListener closeErr) (none, s)

/-- `trackListener` (lines 414–433). -/
def trackListener (s : Registry) (ln : ℕ) (add : Bool) : Registry :=
  if add then
    let s := if s.listeners.card = 0 ∧ s.conns.card = 0 then { s with doneChan := s.doneChan.reset }
      else s
    { s with listeners := insert ln s.listeners, listenerWg := s.listenerWg + 1 }
  else { s with listeners := s.listeners.erase ln, listenerWg := s.listenerWg - 1 }

/-- `trackConn` (lines 435–449). -/
def trackConn (s : Registry) (c : ℕ) (add : Bool) : Registry :=
  if add then { s with conns := insert c s.conns, connWg := s.connWg + 1 }
  else { s with conns := s.conns.erase c, connWg := s.connWg - 1 }

end Registry

/-- `tempDelay` after one more temporary error, in milliseconds (lines 245–252). -/
def backOff (tempDelay : ℕ) : ℕ :=
  let tempDelay := if tempDelay = 0 then 5 else tempDelay * 2
  if tempDelay > 1000 then 1000 else tempDelay

/-- Where a call of `Serve` stands. -/
inductive ServeStage
  /-- before `trackListener(l, true)` -/
  | called
  /-- in `l.Accept()` -/
  | accepting (tempDelay : ℕ)
  /-- `Accept` has failed, `getDoneChan` comes next -/
  | failed (e : NetErr) (tempDelay : ℕ)
  /-- at the `select` on the channel it was given -/
  | polling (e : NetErr) (ch : ℕ) (tempDelay : ℕ)
  | sleeping (tempDelay : ℕ)
  /-- the deferred `trackListener(l, false)` comes next -/
  | leaving (r : ServeErr)
  /-- the deferred `l.Close()` comes next -/
  | closing (r : ServeErr)
  | returned (r : ServeErr)
  deriving DecidableEq

/-- Where a call of `HandleConn` stands. -/
inductive ConnStage
  /-- in `gossh.NewServerConn` -/
  | handshake
  /-- in its loop over `chans` -/
  | serving
  /-- the deferred `trackConn(sshConn, false)` comes next -/
  | leaving
  | ended
  deriving DecidableEq

/-- Where the goroutine of `Shutdown` stands. -/
inductive Waiter
  /-- in `listenerWg.Wait()` -/
  | listeners
  /-- in `connWg.Wait()` -/
  | conns
  /-- past the send on `finished` -/
  | finished
  deriving DecidableEq

/-- Where a call of `Shutdown` stands. -/
inductive ShutdownStage
  | called
  | waiting (lnerr : Option GoString) (waiter : Waiter)
  /-- returned `lnerr` -/
  | returned (lnerr : Option GoString)
  /-- returned `ctx.Err()` -/
  | expired
  deriving DecidableEq

/-- The calls that run over the server. -/
inductive Proc
  | serve (l : ℕ) (stage : ServeStage)
  | conn (c : ℕ) (stage : ConnStage)
  | shutdown (stage : ShutdownStage)
  /-- `Close`, with what it returned -/
  | close (err : Option (Option GoString))
  deriving DecidableEq

/-- What a process meets. -/
inductive Act
  /-- the error of `ensureHostSigner` -/
  | ready (err : Option GoString)
  | accepted
  | acceptFailed (e : NetErr)
  | getDoneChan
  | select
  | wake
  /-- whether `NewServerConn` succeeds -/
  | handshake (ok : Bool)
  /-- `chans` has been closed -/
  | hangup
  | deferred
  /-- the section of `Shutdown` or `Close` under `mu` -/
  | lock (order : List ℕ) (closeErr : ℕ → Option GoString)
  /-- a `Wait` returns -/
  | waited
  /-- the `select` of `Shutdown` takes `<-finished` -/
  | finished
  /-- or `<-ctx.Done()` -/
  | ctxDone

/-- The order in which `range` takes the keys of a map: each one once. -/
def IsOrder (order : List ℕ) (keys : Finset ℕ) : Prop :=
  order.Nodup ∧ order.toFinset = keys

instance (order : List ℕ) (keys : Finset ℕ) : Decidable (IsOrder order keys) :=
  inferInstanceAs (Decidable (order.Nodup ∧ order.toFinset = keys))

/-- One step of `Serve(l)`. -/
def execServe (s : Registry) (l : ℕ) (stage : ServeStage) (a : Act) :
    Option (Effect Registry Proc) :=
  match stage, a with
  | .called, .ready none =>
    some { shared := s.trackListener l true, proc := .serve l (.accepting 0) }
  | .called, .ready (some err) =>
    some { shared := s, proc := .serve l (.closing (.hostSigner err)) }
  | .accepting tempDelay, .accepted =>
    if l ∈ s.closed then none
    else some {
      shared := { s with accepted := s.accepted + 1 }
      proc := .serve l (.accepting tempDelay)
      spawned := [.conn s.accepted .handshake] }
  | .accepting tempDelay, .acceptFailed e =>
    -- a closed listener fails with `net.ErrClosed`, and no other one does
    if e = .errClosed ↔ l ∈ s.closed then
      some { shared := s, proc := .serve l (.failed e tempDelay) }
    else none
  | .failed e tempDelay, .getDoneChan =>
    some {
      shared := { s with doneChan := s.doneChan.get.2 }
      proc := .serve l (.polling e s.doneChan.get.1 tempDelay) }
  | .polling e ch tempDelay, .select =>
    if s.doneChan.isClosed ch then
      some { shared := s, proc := .serve l (.leaving .errServerClosed) }
    else if e.isTemporary then
      some { shared := s, proc := .serve l (.sleeping (backOff tempDelay)) }
    else some { shared := s, proc := .serve l (.leaving (.accept e)) }
  | .sleeping tempDelay, .wake =>
    some { shared := s, proc := .serve l (.accepting tempDelay) }
  | .leaving r, .deferred =>
    some { shared := s.trackListener l false, proc := .serve l (.closing r) }
  | .closing r, .deferred =>
    some { shared := { s with closed := insert l s.closed }, proc := .serve l (.returned r) }
  | _, _ => none

/-- One step of `HandleConn` for the connection `c`. -/
def execConn (s : Registry) (c : ℕ) (stage : ConnStage) (a : Act) :
    Option (Effect Registry Proc) :=
  match stage, a with
  | .handshake, .handshake true =>
    some { shared := s.trackConn c true, proc := .conn c .serving }
  | .handshake, .handshake false => some { shared := s, proc := .conn c .ended }
  | .serving, .hangup => some { shared := s, proc := .conn c .leaving }
  | .leaving, .deferred => some { shared := s.trackConn c false, proc := .conn c .ended }
  | _, _ => none

/-- One step of `Shutdown`, or of the goroutine it has started. -/
def execShutdown (s : Registry) (stage : ShutdownStage) (a : Act) :
    Option (Effect Registry Proc) :=
  match stage, a with
  | .called, .lock order closeErr =>
    if IsOrder order s.listeners then
      let closed := s.closeListenersLocked order closeErr
      some {
        shared := { closed.2 with doneChan := closed.2.doneChan.close }
        proc := .shutdown (.waiting closed.1 .listeners) }
    else none
  | .waiting lnerr .listeners, .waited =>
    if s.listenerWg = 0 then some { shared := s, proc := .shutdown (.waiting lnerr .conns) }
    else none
  | .waiting lnerr .conns, .waited =>
    if s.connWg = 0 then some { shared := s, proc := .shutdown (.waiting lnerr .finished) }
    else none
  | .waiting lnerr .finished, .finished =>
    some { shared := s, proc := .shutdown (.returned lnerr) }
  | .waiting _ _, .ctxDone => some { shared := s, proc := .shutdown .expired }
  | _, _ => none

/-- `Close`, which closes the connections too; that a closed connection ends shows in its
    own process. -/
def execClose (s : Registry) (err : Option (Option GoString)) (a : Act) :
    Option (Effect Registry Proc) :=
  match err, a with
  | none, .lock order closeErr =>
    if IsOrder order s.listeners then
      let s := { s with doneChan := s.doneChan.close }
      let closed := s.closeListenersLocked order closeErr
      some { shared := { closed.2 with conns := ∅ }, proc := .close (some closed.1) }
    else none
  | _, _ => none

/-- One step of a process. -/
def exec (s : Registry) (p : Proc) (a : Act) : Option (Effect Registry Proc) :=
  match p with
  | .serve l stage => execServe s l stage a
  | .conn c stage => execConn s c stage a
  | .shutdown stage => execShutdown s stage a
  | .close err => execClose s err a

/-- A server on which the calls `ps` are made. -/
def start (ps : List Proc) : Pool Registry Proc :=
  ⟨{}, ps⟩

/-! ## The sections under the lock -/

namespace DoneChan

variable {d : DoneChan} {ch : ℕ}

/-- The done channel has been closed. -/
def closed (d : DoneChan) : Bool :=
  d.chan.elim false d.isClosed

theorem get_of_some (h : d.chan = some ch) : d.get = (ch, d) := by
  rw [get, h]

theorem get_chan (d : DoneChan) : d.get.2.chan = some d.get.1 := by
  unfold get
  split
  · assumption
  · rfl

theorem get_isClosed (d : DoneChan) : d.get.2.isClosed d.get.1 = d.closed := by
  unfold get closed
  cases d.chan <;> simp [isClosed]

theorem get_closed (d : DoneChan) : d.get.2.closed = d.closed := by
  rw [closed, get_chan, Option.elim_some, get_isClosed]

theorem close_chan (d : DoneChan) : d.close.chan = some d.get.1 := by
  unfold close
  dsimp only
  split_ifs
  · exact d.get_chan
  · exact d.get_chan

theorem close_closed (d : DoneChan) : d.close.closed = true := by
  have hlt := d.get.2.chan_made _ d.get_chan
  rw [closed, close_chan, Option.elim_some]
  unfold close
  dsimp only
  split_ifs with h
  · exact h
  · simp [isClosed, hlt]

end DoneChan

namespace Registry

/-- The server after `Shutdown` has had the lock. -/
def shut (s : Registry) : Registry :=
  { s with
    listeners := ∅, closed := s.closed ∪ s.listeners, doneChan := s.doneChan.close }

theorem closeListenersLocked_snd (s : Registry) (order : List ℕ) (closeErr : ℕ → Option GoString) :
    (s.closeListenersLocked order closeErr).2 = { s with
      listeners := s.listeners \ order.toFinset, closed := s.closed ∪ order.toFinset } := by
  have key : ∀ (order : List ℕ) err (s : Registry),
      (order.foldl (closeListener closeErr) (err, s)).2 = { s with
        listeners := s.listeners \ order.toFinset, closed := s.closed ∪ order.toFinset } := by
    intro order
    induction order with
    | nil => intro err s; simp
    | cons ln order ih =>
      intro err s
      rw [List.foldl_cons, closeListener, ih]
      congr 1
      · ext x
        simp only [List.toFinset_cons, Finset.mem_sdiff, Finset.mem_erase, Finset.mem_insert]
        tauto
      · ext x
        simp only [List.toFinset_cons, Finset.mem_union, Finset.mem_insert]
        tauto
  exact key order none s

theorem trackListener_true (s : Registry) (ln : ℕ) :
    s.trackListener ln true = { s with
      doneChan := if s.listeners = ∅ ∧ s.conns = ∅ then s.doneChan.reset else s.doneChan
      listeners := insert ln s.listeners, listenerWg := s.listenerWg + 1 } := by
  simp only [trackListener, if_true, Finset.card_eq_zero]
  split_ifs <;> rfl

end Registry

variable {s : Registry} {p : Proc} {a : Act} {e : Effect Registry Proc}

theorem execServe_proc {l : ℕ} {stage : ServeStage} (h : execServe s l stage a = some e) :
    ∃ stage', e.proc = .serve l stage' := by
  unfold execServe at h
  split at h
  all_goals (try split_ifs at h) <;> cases h
  all_goals exact ⟨_, rfl⟩

theorem execConn_proc {c : ℕ} {stage : ConnStage} (h : execConn s c stage a = some e) :
    ∃ stage', e.proc = .conn c stage' := by
  unfold execConn at h
  split at h
  all_goals cases h
  all_goals exact ⟨_, rfl⟩

/-- A step of `Shutdown` takes the lock, passes a `Wait` whose counter is zero, or returns. -/
theorem execShutdown_cases {stage : ShutdownStage} (h : execShutdown s stage a = some e) :
    e.spawned = [] ∧ ∃ stage', e.proc = .shutdown stage' ∧
      ((stage = .called ∧ e.shared = s.shut ∧ ∃ lnerr, stage' = .waiting lnerr .listeners) ∨
      e.shared = s ∧
        ((∃ lnerr, stage = .waiting lnerr .listeners ∧ s.listenerWg = 0 ∧
          stage' = .waiting lnerr .conns) ∨
        (∃ lnerr, stage = .waiting lnerr .conns ∧ s.connWg = 0 ∧
          stage' = .waiting lnerr .finished) ∨
        (∃ lnerr, stage = .waiting lnerr .finished ∧ stage' = .returned lnerr) ∨
        stage' = .expired)) := by
  unfold execShutdown at h
  split at h
  · split_ifs at h with ho
    cases h
    refine ⟨rfl, _, rfl, Or.inl ⟨rfl, ?_, _, rfl⟩⟩
    dsimp only
    rw [Registry.closeListenersLocked_snd, ho.2, Finset.sdiff_self]
    rfl
  · split_ifs at h with hwg
    cases h
    exact ⟨rfl, _, rfl, Or.inr ⟨rfl, Or.inl ⟨_, rfl, hwg, rfl⟩⟩⟩
  · split_ifs at h with hwg
    cases h
    exact ⟨rfl, _, rfl, Or.inr ⟨rfl, Or.inr (Or.inl ⟨_, rfl, hwg, rfl⟩)⟩⟩
  · cases h
    exact ⟨rfl, _, rfl, Or.inr ⟨rfl, Or.inr (Or.inr (Or.inl ⟨_, rfl, rfl⟩))⟩⟩
  · cases h
    exact ⟨rfl, _, rfl, Or.inr ⟨rfl, Or.inr (Or.inr (Or.inr rfl))⟩⟩
  · cases h

theorem execClose_cases {err : Option (Option GoString)} (h : execClose s err a = some e) :
    e.spawned = [] ∧ (∃ err', e.proc = .close err') ∧ e.shared = { s.shut with conns := ∅ } := by
  unfold execClose at h
  split at h
  · split_ifs at h with ho
    cases h
    refine ⟨rfl, ⟨_, rfl⟩, ?_⟩
    dsimp only
    rw [Registry.closeListenersLocked_snd, ho.2, Finset.sdiff_self]
    rfl
  · cases h

/-! ## What is waited for -/

/-- The calls of `Serve` that `listenerWg` counts. -/
def Proc.listening : Proc → Bool
  | .serve _ (.accepting _) | .serve _ (.failed _ _) | .serve _ (.polling _ _ _)
  | .serve _ (.sleeping _) | .serve _ (.leaving _) => true
  | _ => false

/-- The connections that `connWg` counts. -/
def Proc.connected : Proc → Bool
  | .conn _ .serving | .conn _ .leaving => true
  | _ => false

/-- The calls of `Serve` that have been taken off `listenerWg`. -/
def Proc.unlistened : Proc → Bool
  | .serve _ (.closing _) | .serve _ (.returned _) => true
  | _ => false

/-- The connections that have ended. -/
def Proc.disconnected : Proc → Bool
  | .conn _ .ended => true
  | _ => false

/-- The wait groups count the processes they are there for. -/
structure Counted (c : Pool Registry Proc) : Prop where
  listenerWg : c.shared.listenerWg = c.procs.countP Proc.listening
  connWg : c.shared.connWg = c.procs.countP Proc.connected

/-- How one step moves the wait groups. -/
theorem exec_counts (h : exec s p a = some e) :
    (e.shared.listenerWg + (if p.listening then 1 else 0) =
      s.listenerWg + (if e.proc.listening then 1 else 0) ∧ e.spawned.countP Proc.listening = 0) ∧
    (e.shared.connWg + (if p.connected then 1 else 0) =
      s.connWg + (if e.proc.connected then 1 else 0) ∧ e.spawned.countP Proc.connected = 0) := by
  cases p with
  | serve l stage =>
    change execServe s l stage a = some e at h
    unfold execServe at h
    split at h
    all_goals (try split_ifs at h) <;> cases h
    all_goals simp [Proc.listening, Proc.connected, Registry.trackListener_true]
    simp [Registry.trackListener]
  | conn c stage =>
    change execConn s c stage a = some e at h
    unfold execConn at h
    split at h <;> cases h <;> simp [Proc.listening, Proc.connected, Registry.trackConn]
  | shutdown stage =>
    obtain ⟨hsp, stage', hp, ⟨_, hs, _⟩ | ⟨hs, _⟩⟩ := execShutdown_cases h
    all_goals simp [hsp, hp, hs, Proc.listening, Proc.connected, Registry.shut]
  | close err =>
    obtain ⟨hsp, ⟨err', hp⟩, hs⟩ := execClose_cases h
    simp [hsp, hp, hs, Proc.listening, Proc.connected, Registry.shut]

theorem Counted.step {c c' : Pool Registry Proc} {l : ℕ × Act} (hc : Counted c)
    (h : Pool.step exec c l = some c') : Counted c' := by
  obtain ⟨i, a⟩ := l
  obtain ⟨p, e, hp, he, hsh, hpr⟩ := Pool.step_cases h
  obtain ⟨⟨hl, hl₀⟩, hc', hc₀⟩ := exec_counts he
  have hl' := Pool.countP_step Proc.listening e.proc e.spawned hp
  have hc'' := Pool.countP_step Proc.connected e.proc e.spawned hp
  have h1 := hc.listenerWg
  have h2 := hc.connWg
  constructor <;> rw [hsh, hpr]
  · split_ifs at hl hl' <;> omega
  · split_ifs at hc' hc'' <;> omega

/-- A call that has not begun. -/
def Proc.isCall : Proc → Bool
  | .serve _ .called | .shutdown .called | .close none => true
  | _ => false

theorem counted_start {ps : List Proc} (hps : ∀ p ∈ ps, p.isCall) : Counted (start ps) := by
  have hnone : ∀ f : Proc → Bool, (∀ p, p.isCall → f p = false) → ps.countP f = 0 := by
    intro f hf
    rw [List.countP_eq_zero]
    intro p hp
    rw [hf p (hps p hp)]
    exact Bool.false_ne_true
  refine ⟨congrArg Nat.cast (hnone _ ?_).symm, congrArg Nat.cast (hnone _ ?_).symm⟩
  all_goals
    intro p hp
    unfold Proc.isCall at hp
    split at hp
    · rfl
    · rfl
    · rfl
    · cases hp

/-- A `Shutdown` that is past `listenerWg.Wait()`. -/
def Proc.pastListeners : Proc → Bool
  | .shutdown (.waiting _ .conns) | .shutdown (.waiting _ .finished) | .shutdown (.returned _) =>
    true
  | _ => false

/-- A `Shutdown` that is past `connWg.Wait()`. -/
def Proc.pastConns : Proc → Bool
  | .shutdown (.waiting _ .finished) | .shutdown (.returned _) => true
  | _ => false

/-- A `Serve` that is tracked stays so until it is taken off, and is not tracked again. -/
theorem exec_listening (h : exec s p a = some e) :
    (p.listening → e.proc.listening ∨ e.proc.unlistened) ∧ (p.unlistened → e.proc.unlistened) := by
  cases p with
  | serve l stage =>
    change execServe s l stage a = some e at h
    unfold execServe at h
    split at h
    all_goals (try split_ifs at h) <;> cases h
    all_goals simp [Proc.listening, Proc.unlistened]
  | conn | shutdown | close => exact ⟨nofun, nofun⟩

/-- The same for a connection. -/
theorem exec_connected (h : exec s p a = some e) :
    (p.connected → e.proc.connected ∨ e.proc.disconnected) ∧
      (p.disconnected → e.proc.disconnected) := by
  cases p with
  | conn c stage =>
    change execConn s c stage a = some e at h
    unfold execConn at h
    split at h
    all_goals cases h
    all_goals simp [Proc.connected, Proc.disconnected]
  | serve | shutdown | close => exact ⟨nofun, nofun⟩

/-- No step leads past a `Wait` while its counter is not zero. -/
theorem exec_past (h : exec s p a = some e) :
    (¬ p.pastListeners → e.proc.pastListeners → s.listenerWg = 0) ∧
      (¬ p.pastConns → e.proc.pastConns → s.connWg = 0) := by
  cases p with
  | shutdown stage =>
    obtain ⟨_, stage', hp, h⟩ := execShutdown_cases h
    rw [hp]
    rcases h with ⟨rfl, _, lnerr, rfl⟩ | ⟨_, ⟨lnerr, rfl, hwg, rfl⟩ | ⟨lnerr, rfl, hwg, rfl⟩ |
      ⟨lnerr, rfl, rfl⟩ | rfl⟩
    all_goals simp_all [Proc.pastListeners, Proc.pastConns]
  | serve l stage =>
    obtain ⟨stage', hp⟩ := execServe_proc h
    rw [hp]
    exact ⟨nofun, nofun⟩
  | conn c stage =>
    obtain ⟨stage', hp⟩ := execConn_proc h
    rw [hp]
    exact ⟨nofun, nofun⟩
  | close err =>
    obtain ⟨_, ⟨err', hp⟩, _⟩ := execClose_cases h
    rw [hp]
    exact ⟨nofun, nofun⟩

theorem not_of_countP {f : Proc → Bool} {l : List Proc} (h : (l.countP f : ℤ) = 0) :
    ∀ q ∈ l, ¬ f q :=
  List.countP_eq_zero.mp (Int.ofNat_eq_zero.mp h)

section Drain

variable {ps : List Proc} {as bs : List (ℕ × Act)} {c c' : Pool Registry Proc} {j : ℕ}
  {lnerr : Option GoString}

theorem shutdown_drains {w : Proc} (hps : ∀ p ∈ ps, p.isCall)
    (h : run (Pool.step exec) (start ps) as = some c) (hw : c.procs[j]? = some w)
    (h' : run (Pool.step exec) c bs = some c')
    (hret : c'.procs[j]? = some (.shutdown (.returned lnerr))) :
    ∀ (i : ℕ) p, c.procs[i]? = some p →
      (¬ w.pastListeners → p.listening → ∃ p', c'.procs[i]? = some p' ∧ p'.unlistened) ∧
      (¬ w.pastConns → p.connected → ∃ p', c'.procs[i]? = some p' ∧ p'.disconnected) := by
  have hstep : ∀ c l c', Counted c → Pool.step exec c l = some c' → Counted c' :=
    fun c l c' hc => hc.step
  have hc : Counted c := run_inv' hstep (counted_start hps) h
  -- both waits are barriers, since the wait groups count
  have hlisteners : ∀ (c : Pool Registry Proc) p a e, Counted c → exec c.shared p a = some e →
      ¬ p.pastListeners → e.proc.pastListeners → ∀ q ∈ c.procs, ¬ q.listening :=
    fun c p a e hc he hn hpast => not_of_countP (hc.listenerWg ▸ (exec_past he).1 hn hpast)
  have hconns : ∀ (c : Pool Registry Proc) p a e, Counted c → exec c.shared p a = some e →
      ¬ p.pastConns → e.proc.pastConns → ∀ q ∈ c.procs, ¬ q.connected :=
    fun c p a e hc he hn hpast => not_of_countP (hc.connWg ▸ (exec_past he).2 hn hpast)
  intro i p hp
  constructor
  · intro hnot hl
    exact Pool.run_barrier (fun s p a e he => (exec_listening he).1)
      (fun s p a e he => (exec_listening he).2) hstep hlisteners hc hw hnot h' hret rfl hp hl
  · intro hnot hl
    exact Pool.run_barrier (fun s p a e he => (exec_connected he).1)
      (fun s p a e he => (exec_connected he).2) hstep hconns hc hw hnot h' hret rfl hp hl

/-- A `Serve` accepts a connection, which is tracked when `Shutdown` begins. -/
def connectedFirst : List (ℕ × Act) :=
  [(0, .ready none), (0, .accepted), (2, .handshake true)]

/-- `Shutdown` closes the listener and waits for both. -/
def shutdownWaits : List (ℕ × Act) :=
  [(1, .lock [7] fun _ => none), (0, .acceptFailed .errClosed), (0, .getDoneChan), (0, .select),
    (0, .deferred), (1, .waited), (2, .hangup), (2, .deferred), (1, .waited), (1, .finished)]

theorem shutdown_drains_waits :
    ∃ c c', run (Pool.step exec) (start [.serve 7 .called, .shutdown .called]) connectedFirst =
        some c ∧ run (Pool.step exec) c shutdownWaits = some c' ∧
      (∃ p, c'.procs[0]? = some p ∧ p.unlistened) ∧
      ∃ p, c'.procs[2]? = some p ∧ p.disconnected := by
  have h : run (Pool.step exec) (start [.serve 7 .called, .shutdown .called]) connectedFirst =
    some _ := rfl
  have hdrain := shutdown_drains (by decide) h (j := 1) rfl
    (show run (Pool.step exec) _ shutdownWaits = some _ from rfl) rfl
  exact ⟨_, _, h, rfl, (hdrain 0 _ rfl).1 (by decide) rfl, (hdrain 2 _ rfl).2 (by decide) rfl⟩

end Drain

/-! ## What one `Serve` does -/

/-- A `Serve` on `l` in its loop: `l` has been closed exactly if the done channel has, and
    until then it is among the listeners. -/
structure Attended (s : Registry) (l : ℕ) : Prop where
  closed_iff : l ∈ s.closed ↔ s.doneChan.closed = true
  tracked : l ∈ s.closed ∨ l ∈ s.listeners

theorem Attended.of_eq {s' : Registry} {l : ℕ} (h : Attended s l) (h1 : s'.closed = s.closed)
    (h2 : s'.listeners = s.listeners) (h3 : s'.doneChan.closed = s.doneChan.closed) :
    Attended s' l :=
  ⟨by rw [h1, h3]; exact h.closed_iff, by rw [h1, h2]; exact h.tracked⟩

/-- What holds of a `Serve` on `l` that is the only one. -/
def ServeInv (s : Registry) (l : ℕ) : ServeStage → Prop
  | .called => s.listeners = ∅ ∧ s.conns = ∅ ∧ l ∉ s.closed ∧ s.accepted = 0
  | .accepting _ | .sleeping _ => Attended s l
  | .failed e _ => Attended s l ∧ (e = .errClosed → l ∈ s.closed)
  | .polling e ch _ =>
    Attended s l ∧ (e = .errClosed → l ∈ s.closed) ∧ s.doneChan.chan = some ch
  | .leaving r | .closing r | .returned r =>
    (r = .errServerClosed → l ∈ s.closed) ∧ r ≠ .accept .errClosed

/-- The invariant of one process. -/
def ProcInv (s : Registry) : Proc → Prop
  | .serve l stage => ServeInv s l stage
  | .conn c _ => c < s.accepted
  | _ => True

def Proc.isServe : Proc → Bool
  | .serve _ _ => true
  | _ => false

/-- Two processes are not both a `Serve`. -/
def Apart (_ : Registry) (p q : Proc) : Prop :=
  ¬ (p.isServe ∧ q.isServe)

/-- `Shutdown` and `Close` keep what holds of a `Serve`. -/
theorem ServeInv.shut {l : ℕ} {stage : ServeStage} {conns : Finset ℕ} (h : ServeInv s l stage)
    (hconns : conns ⊆ s.conns) : ServeInv { s.shut with conns := conns } l stage := by
  have hmono : l ∈ s.closed → l ∈ s.closed ∪ s.listeners := Finset.mem_union_left _
  have hatt : Attended s l → Attended { s.shut with conns := conns } l := fun h =>
    have hl : l ∈ s.closed ∪ s.listeners := Finset.mem_union.mpr h.tracked
    ⟨iff_of_true hl s.doneChan.close_closed, Or.inl hl⟩
  cases stage with
  | called =>
    obtain ⟨h1, h2, h3, h4⟩ := h
    refine ⟨rfl, Finset.subset_empty.mp (h2 ▸ hconns), ?_, h4⟩
    simpa [Registry.shut, h1] using h3
  | accepting | sleeping => exact hatt h
  | failed e d => exact ⟨hatt h.1, fun he => hmono (h.2 he)⟩
  | polling e ch d =>
    refine ⟨hatt h.1, fun he => hmono (h.2.1 he), ?_⟩
    change s.doneChan.close.chan = some ch
    rw [DoneChan.close_chan, DoneChan.get_of_some h.2.2]
  | leaving r | closing r | returned r => exact ⟨fun hr => hmono (h.1 hr), h.2⟩

/-- So do the connections, which a `Serve` that has not begun does not have. -/
theorem ServeInv.trackConn {l k : ℕ} {stage : ServeStage} (add : Bool) (h : ServeInv s l stage)
    (hk : k < s.accepted) : ServeInv (s.trackConn k add) l stage := by
  have hcl : (s.trackConn k add).closed = s.closed := by cases add <;> rfl
  have hd : (s.trackConn k add).doneChan = s.doneChan := by cases add <;> rfl
  have hatt : Attended s l → Attended (s.trackConn k add) l := fun h =>
    h.of_eq hcl (by cases add <;> rfl) (by rw [hd])
  cases stage with
  | called =>
    have := h.2.2.2
    omega
  | accepting | sleeping => exact hatt h
  | failed e d => exact ⟨hatt h.1, hcl ▸ h.2⟩
  | polling e ch d => exact ⟨hatt h.1, hcl ▸ h.2.1, hd ▸ h.2.2⟩
  | leaving r | closing r | returned r => exact ⟨hcl ▸ h.1, h.2⟩

/-- What a step of a process other than `Serve` leaves as it is. -/
structure Aside (s : Registry) (e : Effect Registry Proc) : Prop where
  spawned : e.spawned = []
  inv : ProcInv e.shared e.proc
  accepted : e.shared.accepted = s.accepted
  closed : s.closed ⊆ e.shared.closed
  serve : ∀ l stage, ServeInv s l stage → ServeInv e.shared l stage

theorem exec_aside (hp : p.isServe = false) (hi : ProcInv s p) (h : exec s p a = some e) :
    Aside s e := by
  cases p with
  | serve => cases hp
  | conn k st =>
    change k < s.accepted at hi
    change execConn s k st a = some e at h
    have hkeep : ∀ add, (s.trackConn k add).accepted = s.accepted ∧
        s.closed ⊆ (s.trackConn k add).closed := by
      intro add
      cases add <;> exact ⟨rfl, Finset.Subset.refl _⟩
    unfold execConn at h
    split at h
    · cases h
      exact ⟨rfl, hi, (hkeep true).1, (hkeep true).2, fun _ _ h => h.trackConn true hi⟩
    · cases h
      exact ⟨rfl, hi, rfl, Finset.Subset.refl _, fun _ _ => id⟩
    · cases h
      exact ⟨rfl, hi, rfl, Finset.Subset.refl _, fun _ _ => id⟩
    · cases h
      exact ⟨rfl, hi, (hkeep false).1, (hkeep false).2, fun _ _ h => h.trackConn false hi⟩
    · cases h
  | shutdown st =>
    obtain ⟨hsp, st', hpr, hs⟩ := execShutdown_cases h
    have hinv : ProcInv e.shared e.proc := by
      rw [hpr]
      trivial
    rcases hs with ⟨_, hs, _⟩ | ⟨hs, _⟩
    · refine ⟨hsp, hinv, ?_, ?_, ?_⟩ <;> rw [hs]
      · rfl
      · exact Finset.subset_union_left
      · exact fun _ _ h => h.shut (Finset.Subset.refl _)
    · refine ⟨hsp, hinv, ?_, ?_, ?_⟩ <;> rw [hs]
      exact fun _ _ => id
  | close err =>
    obtain ⟨hsp, ⟨err', hpr⟩, hs⟩ := execClose_cases h
    have hinv : ProcInv e.shared e.proc := by
      rw [hpr]
      trivial
    refine ⟨hsp, hinv, ?_, ?_, ?_⟩ <;> rw [hs]
    · rfl
    · exact Finset.subset_union_left
    · exact fun _ _ h => h.shut (Finset.empty_subset _)

/-- What a `Serve` does to itself. -/
theorem execServe_inv {l : ℕ} {stage : ServeStage} (hi : ServeInv s l stage)
    (h : execServe s l stage a = some e) :
    s.closed ⊆ e.shared.closed ∧ ∃ stage', e.proc = .serve l stage' ∧ ServeInv e.shared l stage' ∧
      ((e.shared.accepted = s.accepted ∧ e.spawned = []) ∨
        (l ∉ s.closed ∧ e.shared.accepted = s.accepted + 1 ∧
          e.spawned = [.conn s.accepted .handshake])) := by
  unfold execServe at h
  split at h
  · cases h
    obtain ⟨h1, h2, h3, h4⟩ := hi
    rw [Registry.trackListener_true, if_pos ⟨h1, h2⟩]
    refine ⟨Finset.Subset.refl _, _, rfl, ⟨iff_of_false h3 ?_, Or.inr ?_⟩, Or.inl ⟨rfl, rfl⟩⟩
    · exact Bool.false_ne_true
    · exact Finset.mem_insert_self l _
  · cases h
    exact ⟨Finset.Subset.refl _, _, rfl, ⟨nofun, nofun⟩, Or.inl ⟨rfl, rfl⟩⟩
  · split_ifs at h with hl
    cases h
    exact ⟨Finset.Subset.refl _, _, rfl, Attended.of_eq hi rfl rfl rfl, Or.inr ⟨hl, rfl, rfl⟩⟩
  · split_ifs at h with hl
    cases h
    exact ⟨Finset.Subset.refl _, _, rfl, ⟨hi, hl.mp⟩, Or.inl ⟨rfl, rfl⟩⟩
  · cases h
    exact ⟨Finset.Subset.refl _, _, rfl, ⟨hi.1.of_eq rfl rfl (DoneChan.get_closed _), hi.2,
      DoneChan.get_chan _⟩, Or.inl ⟨rfl, rfl⟩⟩
  · rename_i err ch tempDelay
    obtain ⟨hatt, he, hch⟩ := hi
    -- the channel it was given is still the done channel of the server
    have hdone : s.doneChan.closed = s.doneChan.isClosed ch := by
      rw [DoneChan.closed, hch, Option.elim_some]
    split_ifs at h with hclosed htemp
    · cases h
      exact ⟨Finset.Subset.refl _, _, rfl,
        ⟨fun _ => hatt.closed_iff.mpr (hdone.trans hclosed), nofun⟩, Or.inl ⟨rfl, rfl⟩⟩
    · cases h
      exact ⟨Finset.Subset.refl _, _, rfl, hatt, Or.inl ⟨rfl, rfl⟩⟩
    · cases h
      refine ⟨Finset.Subset.refl _, _, rfl, ⟨nofun, ?_⟩, Or.inl ⟨rfl, rfl⟩⟩
      intro hr
      cases hr
      exact hclosed (hdone.symm.trans (hatt.closed_iff.mp (he rfl)))
  · cases h
    exact ⟨Finset.Subset.refl _, _, rfl, hi, Or.inl ⟨rfl, rfl⟩⟩
  · cases h
    exact ⟨Finset.Subset.refl _, _, rfl, hi, Or.inl ⟨rfl, rfl⟩⟩
  · cases h
    exact ⟨Finset.subset_insert _ _, _, rfl,
      ⟨fun _ => Finset.mem_insert_self l _, hi.2⟩, Or.inl ⟨rfl, rfl⟩⟩
  · cases h

/-- The invariant of a server with one `Serve`. -/
abbrev Inv (c : Pool Registry Proc) : Prop :=
  Pool.PoolInv (fun _ => True) ProcInv Apart c

section OneServe

variable {c c' : Pool Registry Proc} {l : ℕ} {stage : ServeStage}

theorem exec_isServe (h : exec s p a = some e) : e.proc.isServe = p.isServe := by
  cases p with
  | serve l stage =>
    obtain ⟨stage', hp⟩ := execServe_proc h
    rw [hp]
    rfl
  | conn c stage =>
    obtain ⟨stage', hp⟩ := execConn_proc h
    rw [hp]
    rfl
  | shutdown stage =>
    obtain ⟨_, stage', hp, _⟩ := execShutdown_cases h
    rw [hp]
    rfl
  | close err =>
    obtain ⟨_, ⟨err', hp⟩, _⟩ := execClose_cases h
    rw [hp]
    rfl

theorem exec_accepted_le (hi : ProcInv s p) (h : exec s p a = some e) :
    s.accepted ≤ e.shared.accepted := by
  cases p with
  | serve l stage =>
    obtain ⟨_, stage', _, _, ⟨hacc, _⟩ | ⟨_, hacc, _⟩⟩ := execServe_inv hi h <;> omega
  | conn | shutdown | close => exact (exec_aside rfl hi h).accepted.ge

theorem Inv.step {x : ℕ × Act} (hc : Inv c) (h : Pool.step exec c x = some c') : Inv c' := by
  obtain ⟨i, a⟩ := x
  refine Pool.PoolInv.step (G := fun _ _ _ _ => True) ?_ ?_ ?_ ?_ ?_ hc
    (fun _ _ _ _ => trivial) h
  · exact fun s p q hpq hqp => hpq ⟨hqp.2, hqp.1⟩
  · intro s p a e _ hp he
    refine ⟨trivial, ?_⟩
    cases p with
    | serve l stage =>
      obtain ⟨_, stage', hpr, hinv, _⟩ := execServe_inv hp he
      rw [hpr]
      exact hinv
    | conn | shutdown | close => exact (exec_aside rfl hp he).inv
  · intro s p a e q _ hp hq hpq _ he
    refine ⟨?_, ?_⟩
    · cases q with
      | serve l stage =>
        have hps : p.isServe = false := Bool.eq_false_iff.mpr fun hs => hpq ⟨hs, rfl⟩
        exact (exec_aside hps hp he).serve l stage hq
      | conn k st => exact lt_of_lt_of_le hq (exec_accepted_le hp he)
      | shutdown | close => trivial
    · intro hb
      rw [exec_isServe he] at hb
      exact hpq hb
  · exact fun _ _ _ _ _ _ _ _ _ _ hqr _ => hqr
  · intro s p a e n _ hp he hn
    cases p with
    | serve l stage =>
      obtain ⟨_, _, _, _, ⟨_, hsp⟩ | ⟨_, hacc, hsp⟩⟩ := execServe_inv hp he
      · rw [hsp] at hn
        cases hn
      · rw [hsp] at hn
        cases List.mem_singleton.mp hn
        refine ⟨?_, fun q hb => nomatch hb.2⟩
        change s.accepted < e.shared.accepted
        omega
    | conn | shutdown | close =>
      rw [(exec_aside rfl hp he).spawned] at hn
      cases hn

/-- One `Serve` beside any number of `Shutdown` and `Close` calls. -/
def withClosers (l : ℕ) (closers : List Proc) : Pool Registry Proc :=
  start (.serve l .called :: closers)

def Proc.isCloser : Proc → Bool
  | .shutdown .called | .close none => true
  | _ => false

theorem inv_start {closers : List Proc} (hcl : ∀ p ∈ closers, p.isCloser) :
    Inv (withClosers l closers) := by
  have hother : ∀ (i : ℕ) p, i ≠ 0 → (withClosers l closers).procs[i]? = some p →
      p.isServe = false ∧ ProcInv {} p := by
    intro i p hi hp
    obtain ⟨k, rfl⟩ := Nat.exists_eq_succ_of_ne_zero hi
    have hp := hcl p (List.mem_of_getElem? hp)
    unfold Proc.isCloser at hp
    split at hp
    · exact ⟨rfl, trivial⟩
    · exact ⟨rfl, trivial⟩
    · cases hp
  refine ⟨trivial, ?_, ?_⟩
  · intro i p hp
    by_cases hi : i = 0
    · subst hi
      cases hp
      exact ⟨rfl, rfl, Finset.notMem_empty l, rfl⟩
    · exact (hother i p hi hp).2
  · intro i j p q hij hp hq hpq
    by_cases hi : i = 0
    · rw [(hother j q (fun hj => hij (hi.trans hj.symm)) hq).1] at hpq
      cases hpq.2
    · rw [(hother i p hi hp).1] at hpq
      cases hpq.1

/-- In its loop. -/
def ServeStage.looping : ServeStage → Bool
  | .accepting _ | .failed _ _ | .polling _ _ _ | .sleeping _ => true
  | _ => false

/-- In its loop, or about to return `ErrServerClosed`. -/
def ServeStage.Stopping : ServeStage → Prop
  | .called => False
  | .leaving r | .closing r | .returned r => r = .errServerClosed
  | _ => True

/-- The steps a `Serve` still takes once its listener has been closed. -/
def ServeStage.remaining : ServeStage → ℕ
  | .called => 7
  | .sleeping _ => 6
  | .accepting _ => 5
  | .failed _ _ => 4
  | .polling _ _ _ => 3
  | .leaving _ => 2
  | .closing _ => 1
  | .returned _ => 0

theorem ServeStage.stopping_of_looping (h : stage.looping) :
    stage.Stopping ∧ stage.remaining ≤ 6 := by
  cases stage with
  | accepting | failed | polling | sleeping => exact ⟨trivial, Nat.le_of_ble_eq_true rfl⟩
  | called | leaving | closing | returned => cases h

theorem execServe_stopping (hi : ServeInv s l stage) (hst : stage.Stopping) (hl : l ∈ s.closed)
    (h : execServe s l stage a = some e) :
    ∃ stage', e.proc = .serve l stage' ∧ stage'.Stopping ∧
      stage'.remaining + 1 = stage.remaining := by
  unfold execServe at h
  split at h
  · exact hst.elim
  · exact hst.elim
  · rw [if_pos hl] at h
    cases h
  · split_ifs at h
    cases h
    exact ⟨_, rfl, trivial, rfl⟩
  · cases h
    exact ⟨_, rfl, trivial, rfl⟩
  · obtain ⟨hatt, _, hch⟩ := hi
    have hdone := hatt.closed_iff.mp hl
    rw [DoneChan.closed, hch, Option.elim_some] at hdone
    rw [if_pos hdone] at h
    cases h
    exact ⟨_, rfl, rfl, rfl⟩
  · cases h
    exact ⟨_, rfl, trivial, rfl⟩
  · cases h
    exact ⟨_, rfl, hst, rfl⟩
  · cases h
    exact ⟨_, rfl, hst, rfl⟩
  · cases h

/-- What a `Serve` does with a closed listener, beside whatever the others do. -/
structure Stops (c : Pool Registry Proc) (l n k : ℕ) : Prop where
  inv : Inv c
  closed : l ∈ c.shared.closed
  accepted : c.shared.accepted = n
  serve : ∃ stage, c.procs[0]? = some (.serve l stage) ∧ stage.Stopping ∧ stage.remaining = k

theorem Stops.step {n k i : ℕ} (hc : Stops c l n k) (h : Pool.step exec c (i, a) = some c') :
    ∃ k', Stops c' l n k' ∧ (if i = 0 then 1 else 0) + k' = k := by
  obtain ⟨hinv, hcl, hacc, stage, hp, hst, hk⟩ := hc
  have hsi : ServeInv c.shared l stage := hinv.each 0 _ hp
  have hinv' : Inv c' := hinv.step h
  obtain ⟨p, e, hpi, he, hsh, _⟩ := Pool.step_cases h
  rcases Pool.step_at h hp with ⟨hi, e', he', hsh', hp'⟩ | ⟨hi, hp'⟩
  · obtain ⟨stage', hpr, hst', hrem⟩ := execServe_stopping hsi hst hcl he'
    obtain ⟨hsub, _, _, _, hacc'⟩ := execServe_inv hsi he'
    -- a closed listener accepts nothing
    have hacc' : e'.shared.accepted = c.shared.accepted :=
      hacc'.elim (·.1) fun hopen => absurd hcl hopen.1
    refine ⟨stage'.remaining,
      ⟨hinv', hsh' ▸ hsub hcl, by rw [hsh', hacc', hacc], stage', ?_, hst', rfl⟩, ?_⟩
    · rw [hp', hpr]
    · rw [if_pos hi.symm]
      omega
  · have hps : p.isServe = false :=
      Bool.eq_false_iff.mpr fun hs => hinv.pair 0 i _ p hi hp hpi ⟨rfl, hs⟩
    have haside := exec_aside hps (hinv.each i p hpi) he
    refine ⟨k, ⟨hinv', hsh ▸ haside.closed hcl, by rw [hsh, haside.accepted, hacc], stage, hp', hst,
      hk⟩, ?_⟩
    rw [if_neg (Ne.symm hi)]
    omega

theorem execServe_enabled (s : Registry) (l : ℕ) {stage : ServeStage}
    (h : 0 < stage.remaining) : ∃ a, (execServe s l stage a).isSome := by
  cases stage with
  | called => exact ⟨.ready none, rfl⟩
  | accepting d =>
    by_cases hl : l ∈ s.closed
    · refine ⟨.acceptFailed .errClosed, ?_⟩
      simp [execServe, hl]
    · refine ⟨.accepted, ?_⟩
      simp [execServe, hl]
  | failed e d => exact ⟨.getDoneChan, rfl⟩
  | polling e ch d =>
    refine ⟨.select, ?_⟩
    unfold execServe
    dsimp only
    split_ifs <;> rfl
  | sleeping d => exact ⟨.wake, rfl⟩
  | leaving r => exact ⟨.deferred, rfl⟩
  | closing r => exact ⟨.deferred, rfl⟩
  | returned r => cases h

/-- The steps of process `0` in a run. -/
def ownSteps (bs : List (ℕ × Act)) : ℕ :=
  bs.countP (·.1 == 0)

theorem Stops.run {n k : ℕ} {bs : List (ℕ × Act)} (hc : Stops c l n k)
    (h : run (Pool.step exec) c bs = some c') : ∃ k', Stops c' l n k' ∧ ownSteps bs + k' = k := by
  induction bs generalizing c k with
  | nil =>
    cases h
    exact ⟨k, hc, Nat.zero_add k⟩
  | cons x bs ih =>
    obtain ⟨i, a⟩ := x
    obtain ⟨c₁, hstep, hrun⟩ := run_cons_eq_some.mp h
    obtain ⟨k₁, hc₁, hk₁⟩ := hc.step hstep
    obtain ⟨k', hc', hk'⟩ := ih hc₁ hrun
    refine ⟨k', hc', ?_⟩
    rw [ownSteps, List.countP_cons]
    rw [ownSteps] at hk'
    by_cases hi : i = 0
    · rw [if_pos hi] at hk₁
      rw [if_pos (beq_iff_eq.mpr hi)]
      omega
    · rw [if_neg hi] at hk₁
      rw [if_neg (fun h => hi (beq_iff_eq.mp h))]
      omega

variable {closers : List Proc} {as bs : List (ℕ × Act)}

/-- `ServeStage.looping` bounds `remaining` by six, so a `Serve` whose listener was closed
    has returned after six steps of its own, and it is never stuck before. -/
theorem serve_stops (hcl : ∀ p ∈ closers, p.isCloser)
    (h : run (Pool.step exec) (withClosers l closers) as = some c)
    (hp : c.procs[0]? = some (.serve l stage)) (hloop : stage.looping)
    (hclosed : l ∈ c.shared.closed) (h' : run (Pool.step exec) c bs = some c') :
    c'.shared.accepted = c.shared.accepted ∧
    ∃ stage', c'.procs[0]? = some (.serve l stage') ∧
      ownSteps bs + stage'.remaining = stage.remaining ∧ stage.remaining ≤ 6 ∧
      (stage'.remaining = 0 → stage' = .returned .errServerClosed) ∧
      (0 < stage'.remaining → ∃ a, (Pool.step exec c' (0, a)).isSome) := by
  have hinv : Inv c := run_inv' (fun _ _ _ hc => hc.step) (inv_start hcl) h
  have hst := ServeStage.stopping_of_looping hloop
  obtain ⟨k', hstops, hk'⟩ := Stops.run ⟨hinv, hclosed, rfl, stage, hp, hst.1, rfl⟩ h'
  obtain ⟨stage', hp', hst', rfl⟩ := hstops.serve
  refine ⟨hstops.accepted, stage', hp', hk', hst.2, ?_, ?_⟩
  · intro h0
    cases stage' with
    | returned r => rw [show r = _ from hst']
    | _ => cases h0
  · intro hpos
    obtain ⟨a, ha⟩ := execServe_enabled c'.shared l hpos
    obtain ⟨e, he⟩ := Option.isSome_iff_exists.mp ha
    exact ⟨a, by rw [Pool.step_of_exec hp' he]; rfl⟩

/-- A `Serve` accepts a connection, and `Shutdown` closes its listener. -/
def closedWhileServing : List (ℕ × Act) :=
  [(0, .ready none), (0, .accepted), (1, .lock [7] fun _ => none)]

/-- What the `Serve` does then, while the connection finishes its handshake. -/
def servesOut : List (ℕ × Act) :=
  [(0, .acceptFailed .errClosed), (2, .handshake true), (0, .getDoneChan), (0, .select),
    (0, .deferred), (0, .deferred)]

theorem serve_stops_servesOut :
    ∃ c c', run (Pool.step exec) (withClosers 7 [.shutdown .called]) closedWhileServing = some c ∧
      run (Pool.step exec) c servesOut = some c' ∧ c'.shared.accepted = c.shared.accepted ∧
      c'.procs[0]? = some (.serve 7 (.returned .errServerClosed)) := by
  have h : run (Pool.step exec) (withClosers 7 [.shutdown .called]) closedWhileServing = some _ :=
    rfl
  obtain ⟨hacc, stage', hp, hsteps, _, hret, _⟩ :=
    serve_stops (by decide) h rfl rfl (by decide)
      (show run (Pool.step exec) _ servesOut = some _ from rfl)
  have h0 : stage'.remaining = 0 := Nat.add_left_cancel hsteps
  rw [hret h0] at hp
  exact ⟨_, _, h, rfl, hacc, hp⟩

/-- On a server with one `Serve`: whatever calls of `Shutdown` and `Close` did before its
    `trackListener`, it begins with an open listener and an open done channel. -/
theorem early_shutdown_lost (hcl : ∀ p ∈ closers, p.isCloser)
    (h : run (Pool.step exec) (withClosers l closers) as = some c)
    (hp : c.procs[0]? = some (.serve l .called)) :
    ∃ c', Pool.step exec c (0, .ready none) = some c' ∧
      c'.procs[0]? = some (.serve l (.accepting 0)) ∧ c'.shared.doneChan.closed = false ∧
      (Pool.step exec c' (0, .accepted)).isSome := by
  have hinv : Inv c := run_inv' (fun _ _ _ hc => hc.step) (inv_start hcl) h
  obtain ⟨h1, h2, h3, _⟩ : ServeInv c.shared l .called := hinv.each 0 _ hp
  have hp' : (c.procs.set 0 (.serve l (.accepting 0)) ++ [])[0]? = some (.serve l (.accepting 0)) :=
    Pool.getElem?_self hp
  refine ⟨_, Pool.step_of_exec hp rfl, hp', ?_, ?_⟩
  · rw [Registry.trackListener_true, if_pos ⟨h1, h2⟩]
    rfl
  · have hopen : l ∉ (c.shared.trackListener l true).closed := by
      rw [Registry.trackListener_true]
      exact h3
    rw [Pool.step_of_exec hp' (if_neg hopen)]
    rfl

/-- A `Shutdown` that has nothing to wait for. -/
def shutdownFirst : List (ℕ × Act) :=
  [(1, .lock [] fun _ => none), (1, .waited), (1, .waited), (1, .finished)]

theorem early_shutdown_lost_returned :
    ∃ c c', run (Pool.step exec) (withClosers 7 [.shutdown .called]) shutdownFirst = some c ∧
      c.procs[1]? = some (.shutdown (.returned none)) ∧
      Pool.step exec c (0, .ready none) = some c' ∧
      (Pool.step exec c' (0, .accepted)).isSome := by
  have h : run (Pool.step exec) (withClosers 7 [.shutdown .called]) shutdownFirst = some _ := rfl
  obtain ⟨c', hstep, _, _, haccept⟩ := early_shutdown_lost (by decide) h rfl
  exact ⟨_, c', h, rfl, hstep, haccept⟩

end OneServe

end GoJump.Ssh.Server
