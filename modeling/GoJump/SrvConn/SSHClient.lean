import GoJump.Lib.Pool

/-!
# Sessions of an SSH client

Model of `AcquireSession` and `ReleaseSession` (`pkg/srvconn/ssh.go` lines 347–367) with
the three callers that pair them: `getSSHConn` (`pkg/proxy/server.go` lines 357–382),
`getCacheSSHConn` (lines 433–458) and `proxyVscodeShell` (`pkg/server/sshHandler.go`
lines 193–247). Every `atomic.AddInt32` and every section under the client's `Mutex` is
one step, so a run of `Pool.step exec` is one interleaving of any number of callers on
any clients. `refCount` is an `int32`.

A session is a pointer that nothing else has while it is in use; here it is a number that
no session had before. `acquired` and `released` are not in the code: they list the
sessions `AcquireSession` has returned and those `ReleaseSession` has counted down.

* `refCount_wraps`: the count of 2³¹ acquisitions in progress is negative.
* `refCount_exact`: `refCount` is the number of sessions acquired and not released plus
  the acquisitions in progress, as an `int32`; no session is released twice; and a
  client that nobody uses has count 0 and an empty map.
-/

namespace GoJump.SrvConn.SSHClient

open GoJump.Lib

/-! ## The callers -/

/-- The functions that acquire sessions. -/
inductive Caller
  | getSSHConn
  | getCacheSSHConn
  | proxyVscodeShell
  deriving DecidableEq

/-- Where a goroutine stands. -/
inductive SessProc (Client : Type*)
  /-- `AcquireSession` has been called -/
  | acquireSession (caller : Caller) (client : Client)
  /-- `refCount` is raised, `NewSession` runs -/
  | newSession (caller : Caller) (client : Client)
  /-- `NewSession` has failed, `refCount` is still raised -/
  | failed (client : Client)
  /-- `NewSession` has returned `sess`, which is not in `traceSessionMap` yet -/
  | trace (caller : Caller) (client : Client) (sess : ℕ)
  /-- `AcquireSession` has returned `sess` -/
  | acquired (caller : Caller) (client : Client) (sess : ℕ)
  /-- the shell runs: `sess.Wait()`, or the loop of `proxyVscodeShell` -/
  | live (client : Client) (sess : ℕ)
  /-- `ReleaseSession` has been called -/
  | releaseSession (client : Client) (sess : ℕ)
  /-- `refCount` is lowered, `sess` still in `traceSessionMap` -/
  | untrace (client : Client) (sess : ℕ)
  | returned
  deriving DecidableEq

variable {Client : Type*} [DecidableEq Client]

/-- The fields `refCount` and `traceSessionMap` of all clients; the time stored with a
    session is never read. -/
structure Clients (Client : Type*) where
  refCount : Client → BitVec 32
  traceSessionMap : Client → Finset ℕ
  sessions : ℕ
  acquired : List (Client × ℕ)
  released : List (Client × ℕ)

/-- New clients. -/
def Clients.init : Clients Client := ⟨fun _ => 0, fun _ => ∅, 0, [], []⟩

/-- `atomic.AddInt32(&s.refCount, delta)`. -/
def Clients.addRefCount (s : Clients Client) (client : Client) (delta : BitVec 32) :
    Clients Client :=
  { s with refCount := Function.update s.refCount client (s.refCount client + delta) }

/-- `s.traceSessionMap[sess] = time.Now()`. -/
def Clients.insertTrace (s : Clients Client) (client : Client) (sess : ℕ) : Clients Client :=
  { s with traceSessionMap :=
      Function.update s.traceSessionMap client (insert sess (s.traceSessionMap client)) }

/-- `delete(s.traceSessionMap, sess)`. -/
def Clients.deleteTrace (s : Clients Client) (client : Client) (sess : ℕ) : Clients Client :=
  { s with traceSessionMap :=
      Function.update s.traceSessionMap client ((s.traceSessionMap client).erase sess) }

/-- What a caller does with a session it has got. `getSSHConn` and `getCacheSSHConn`
    release it if `NewSSHConnection` fails and otherwise return, leaving a goroutine
    behind that waits for its end; `proxyVscodeShell` keeps it until it returns. -/
def use (s : Clients Client) (caller : Caller) (client : Client) (sess : ℕ) (ok : Bool) :
    Effect (Clients Client) (SessProc Client) :=
  if ok then
    match caller with
    | .getSSHConn | .getCacheSSHConn =>
      { shared := s, proc := .returned, spawned := [.live client sess] }
    | .proxyVscodeShell => { shared := s, proc := .live client sess }
  else { shared := s, proc := .releaseSession client sess }

/-- One atomic step; `ok` says whether `NewSession`, or what the caller does with the
    session before the shell runs, succeeds. -/
def exec (s : Clients Client) (p : SessProc Client) (ok : Bool) :
    Option (Effect (Clients Client) (SessProc Client)) :=
  match p with
  | .acquireSession caller client =>
    some { shared := s.addRefCount client 1, proc := .newSession caller client }
  | .newSession caller client =>
    if ok then
      some { shared := { s with sessions := s.sessions + 1 },
             proc := .trace caller client s.sessions }
    else some { shared := s, proc := .failed client }
  | .failed client => some { shared := s.addRefCount client (-1), proc := .returned }
  | .trace caller client sess =>
    some { shared := { s.insertTrace client sess with acquired := s.acquired ++ [(client, sess)] },
           proc := .acquired caller client sess }
  | .acquired caller client sess => some (use s caller client sess ok)
  | .live client sess => some { shared := s, proc := .releaseSession client sess }
  | .releaseSession client sess =>
    some { shared :=
             { s.addRefCount client (-1) with released := s.released ++ [(client, sess)] },
           proc := .untrace client sess }
  | .untrace client sess => some { shared := s.deleteTrace client sess, proc := .returned }
  | .returned => none

/-- Any number of callers on any clients. -/
def start (calls : List (Caller × Client)) : Pool (Clients Client) (SessProc Client) :=
  ⟨.init, calls.map fun x => .acquireSession x.1 x.2⟩

/-! ## What the count should be -/

/-- Sessions of the client that were acquired and not released. -/
def Clients.unreleased (s : Clients Client) (client : Client) : ℕ :=
  s.acquired.countP (·.1 = client) - s.released.countP (·.1 = client)

omit [DecidableEq Client] in
/-- The client on which an acquisition is in progress. -/
def SessProc.acquiring : SessProc Client → Option Client
  | newSession _ client | failed client | trace _ client _ => some client
  | _ => none

/-- The client, between the start of `AcquireSession` and the end of `ReleaseSession`. -/
def SessProc.uses : SessProc Client → Option Client
  | newSession _ client | failed client | trace _ client _ | acquired _ client _ |
    live client _ | releaseSession client _ | untrace client _ => some client
  | acquireSession _ _ | returned => none

/-! ## Steps -/

/-- The session the goroutine has to release. -/
def SessProc.held : SessProc Client → Option (Client × ℕ)
  | acquired _ client sess | live client sess | releaseSession client sess => some (client, sess)
  | _ => none

/-- The client of that session, or of the acquisition in progress. -/
def SessProc.counted : SessProc Client → Option Client
  | newSession _ client | failed client | trace _ client _ | acquired _ client _ |
    live client _ | releaseSession client _ => some client
  | _ => none

/-- The session the goroutine is about to put into `traceSessionMap`. -/
def SessProc.tracing : SessProc Client → Option (Client × ℕ)
  | trace _ client sess => some (client, sess)
  | _ => none

/-- The session the goroutine has in `traceSessionMap`. -/
def SessProc.traced : SessProc Client → Option (Client × ℕ)
  | acquired _ client sess | live client sess | releaseSession client sess |
    untrace client sess => some (client, sess)
  | _ => none

omit [DecidableEq Client] in
/-- Who is counted for a client uses it, -/
theorem SessProc.uses_of_counted {q : SessProc Client} {client : Client}
    (h : q.counted = some client) : q.uses = some client := by
  cases q with
  | newSession | failed | trace | acquired | live | releaseSession => exact h
  | acquireSession | untrace | returned => cases h

omit [DecidableEq Client] in
/-- and who will remove a session of it does. -/
theorem SessProc.uses_of_traced {q : SessProc Client} {client : Client} {sess : ℕ}
    (h : q.traced = some (client, sess)) : q.uses = some client := by
  cases q with
  | acquired | live | releaseSession | untrace =>
    cases h
    rfl
  | acquireSession | newSession | failed | trace | returned => cases h

/-- The steps of `exec`. -/
inductive SessStep (s : Clients Client) :
    SessProc Client → Effect (Clients Client) (SessProc Client) → Prop
  | count (caller : Caller) (client : Client) :
    SessStep s (.acquireSession caller client)
      { shared := s.addRefCount client 1, proc := .newSession caller client }
  | create (caller : Caller) (client : Client) :
    SessStep s (.newSession caller client)
      { shared := { s with sessions := s.sessions + 1 }, proc := .trace caller client s.sessions }
  | fail (caller : Caller) (client : Client) :
    SessStep s (.newSession caller client) { shared := s, proc := .failed client }
  | uncount (client : Client) :
    SessStep s (.failed client) { shared := s.addRefCount client (-1), proc := .returned }
  | trace (caller : Caller) (client : Client) (sess : ℕ) :
    SessStep s (.trace caller client sess)
      { shared := { s.insertTrace client sess with acquired := s.acquired ++ [(client, sess)] }
        proc := .acquired caller client sess }
  | leave (caller : Caller) (client : Client) (sess : ℕ) :
    SessStep s (.acquired caller client sess)
      { shared := s, proc := .returned, spawned := [.live client sess] }
  | stay (caller : Caller) (client : Client) (sess : ℕ) :
    SessStep s (.acquired caller client sess) { shared := s, proc := .live client sess }
  | giveUp (caller : Caller) (client : Client) (sess : ℕ) :
    SessStep s (.acquired caller client sess) { shared := s, proc := .releaseSession client sess }
  | ended (client : Client) (sess : ℕ) :
    SessStep s (.live client sess) { shared := s, proc := .releaseSession client sess }
  | release (client : Client) (sess : ℕ) :
    SessStep s (.releaseSession client sess)
      { shared := { s.addRefCount client (-1) with released := s.released ++ [(client, sess)] }
        proc := .untrace client sess }
  | untrace (client : Client) (sess : ℕ) :
    SessStep s (.untrace client sess)
      { shared := s.deleteTrace client sess, proc := .returned }

variable {s : Clients Client} {p : SessProc Client} {e : Effect (Clients Client) (SessProc Client)}

theorem sessStep_of_exec {ok : Bool} (h : exec s p ok = some e) : SessStep s p e := by
  cases p with
  | acquireSession caller client =>
    cases h
    exact .count caller client
  | newSession caller client =>
    simp only [exec] at h
    split_ifs at h
    · cases h
      exact .create caller client
    · cases h
      exact .fail caller client
  | failed client =>
    cases h
    exact .uncount client
  | trace caller client sess =>
    cases h
    exact .trace caller client sess
  | acquired caller client sess =>
    simp only [exec, use] at h
    cases ok with
    | false =>
      cases h
      exact .giveUp caller client sess
    | true =>
      cases caller with
      | getSSHConn | getCacheSSHConn =>
        cases h
        exact .leave _ client sess
      | proxyVscodeShell =>
        cases h
        exact .stay _ client sess
  | live client sess =>
    cases h
    exact .ended client sess
  | releaseSession client sess =>
    cases h
    exact .release client sess
  | untrace client sess =>
    cases h
    exact .untrace client sess
  | returned => cases h

/-- Sessions held come from `acquired` and go to `released`. -/
theorem SessStep.ledger (h : SessStep s p e) (f : Client × ℕ → Bool) :
    (if e.proc.held.any f then 1 else 0) + e.spawned.countP (fun q => q.held.any f) +
        e.shared.released.countP f + s.acquired.countP f =
      (if p.held.any f then 1 else 0) + s.released.countP f + e.shared.acquired.countP f := by
  cases h with
  | trace _ client sess | release client sess =>
    by_cases hf : f (client, sess) = true
    · simp only [SessProc.held, Clients.insertTrace, Clients.addRefCount, List.countP_append,
        List.countP_singleton, List.countP_nil, Option.any_some, Option.any_none, hf,
        Bool.false_eq_true, if_false, if_true]
      omega
    · simp [SessProc.held, Clients.insertTrace, Clients.addRefCount, hf]
  | leave _ client sess =>
    -- the session goes over to the goroutine that was started
    by_cases hf : f (client, sess) = true
    · simp [SessProc.held, hf]
    · simp [SessProc.held, hf]
  | stay | giveUp | ended | count | create | fail | uncount | untrace => rfl

/-- A session enters `acquired` through the hands of one goroutine, which got it new. -/
theorem SessStep.fresh (h : SessStep s p e) (x : Client × ℕ) :
    (if e.proc.tracing = some x then 1 else 0) + e.spawned.countP (fun q => q.tracing = some x) +
        e.shared.acquired.count x + (if e.shared.sessions ≤ x.2 then 1 else 0) ≤
      (if p.tracing = some x then 1 else 0) + s.acquired.count x +
        (if s.sessions ≤ x.2 then 1 else 0) := by
  cases h with
  | create _ client =>
    by_cases hx : (client, s.sessions) = x
    · subst hx
      simp [SessProc.tracing, Nat.add_comm]
    · simp only [SessProc.tracing, Option.some.injEq, hx, reduceCtorEq, if_false, List.countP_nil]
      split_ifs <;> omega
  | trace _ client sess =>
    by_cases hs : s.sessions ≤ x.2 <;> by_cases hx : (client, sess) = x <;>
      simp [SessProc.tracing, Clients.insertTrace, hs, hx, Nat.add_comm]
  | count | fail | uncount | leave | stay | giveUp | ended | release | untrace => exact le_refl _

/-- `refCount` follows the goroutines counted. -/
theorem SessStep.refCount (h : SessStep s p e) (client : Client) :
    e.shared.refCount client + BitVec.ofNat 32 (if p.counted = some client then 1 else 0) =
      s.refCount client + BitVec.ofNat 32 ((if e.proc.counted = some client then 1 else 0) +
        e.spawned.countP (fun q => q.counted = some client)) := by
  cases h with
  | count _ c | uncount c | release c _ =>
    by_cases hc : c = client
    · subst hc
      simp [SessProc.counted, Clients.addRefCount, add_assoc]
    · simp [SessProc.counted, Clients.addRefCount, hc, Function.update_of_ne (Ne.symm hc)]
  | leave _ c _ =>
    by_cases hc : c = client
    · simp [SessProc.counted, hc]
    · simp [SessProc.counted, hc]
  | create | fail | trace | stay | giveUp | ended | untrace => rfl

/-- What stands in `traceSessionMap` has a goroutine that will remove it. -/
theorem SessStep.mapped (h : SessStep s p e) {x : Client × ℕ}
    (hx : x.2 ∈ e.shared.traceSessionMap x.1) :
    x.2 ∈ s.traceSessionMap x.1 ∧ (if p.traced = some x then 1 else 0) ≤
        (if e.proc.traced = some x then 1 else 0) +
          e.spawned.countP (fun q => q.traced = some x) ∨
      e.proc.traced = some x := by
  cases h with
  | trace _ client sess =>
    by_cases hc : (client, sess) = x
    · exact Or.inr (congrArg some hc)
    · left
      refine ⟨?_, by simp [SessProc.traced]⟩
      obtain ⟨c, n⟩ := x
      simp only [Clients.insertTrace, Function.update_apply] at hx
      split_ifs at hx with heq
      · subst heq
        rcases Finset.mem_insert.mp hx with rfl | hx
        · exact absurd rfl hc
        · exact hx
      · exact hx
  | untrace client sess =>
    left
    obtain ⟨c, n⟩ := x
    simp only [Clients.deleteTrace, Function.update_apply] at hx
    split_ifs at hx with heq
    · subst heq
      obtain ⟨hne, hmem⟩ := Finset.mem_erase.mp hx
      exact ⟨hmem, by simp [SessProc.traced, Ne.symm hne]⟩
    · exact ⟨hx, by simp [SessProc.traced, Ne.symm heq]⟩
  | leave _ client sess =>
    exact Or.inl ⟨hx, by simp [SessProc.traced]⟩
  | count | create | fail | uncount | stay | giveUp | ended | release =>
    exact Or.inl ⟨hx, le_refl _⟩

/-! ## Runs -/

/-- What every interleaving keeps. -/
structure SessInv (c : Pool (Clients Client) (SessProc Client)) : Prop where
  refCount : ∀ client, c.shared.refCount client =
    BitVec.ofNat 32 (c.procs.countP fun q => q.counted = some client)
  ledger : ∀ f, c.procs.countP (fun q => q.held.any f) + c.shared.released.countP f =
    c.shared.acquired.countP f
  fresh : ∀ x, c.procs.countP (fun q => q.tracing = some x) + c.shared.acquired.count x +
    (if c.shared.sessions ≤ x.2 then 1 else 0) ≤ 1
  mapped : ∀ x, x.2 ∈ c.shared.traceSessionMap x.1 →
    0 < c.procs.countP fun q => q.traced = some x

theorem start_inv (calls : List (Caller × Client)) : SessInv (start calls) := by
  have hzero : ∀ f : SessProc Client → Bool, (∀ caller client, f (.acquireSession caller client) =
      false) → (start calls).procs.countP f = 0 := by
    intro f hf
    rw [List.countP_eq_zero]
    intro p hp
    obtain ⟨x, _, rfl⟩ := List.mem_map.mp hp
    simp [hf]
  refine ⟨fun client => ?_, fun f => ?_, fun x => ?_, fun x hx => ?_⟩
  · rw [hzero _ fun _ _ => by simp [SessProc.counted]]
    rfl
  · rw [hzero _ fun _ _ => by simp [SessProc.held]]
    rfl
  · rw [hzero _ fun _ _ => by simp [SessProc.tracing]]
    simp [start, Clients.init]
  · exact absurd hx (Finset.notMem_empty _)

theorem step_inv {c c' : Pool (Clients Client) (SessProc Client)} {l : ℕ × Bool}
    (hinv : SessInv c) (h : Pool.step exec c l = some c') : SessInv c' := by
  obtain ⟨p, e, hp, he, hsh, hpr⟩ := Pool.step_cases h
  have hstep := sessStep_of_exec he
  rw [show c' = ⟨e.shared, c.procs.set l.1 e.proc ++ e.spawned⟩ by rw [← hsh, ← hpr]]
  refine ⟨fun client => ?_, fun f => ?_, fun x => ?_, fun x hx => ?_⟩
  · have hcount := Pool.countP_step (fun q => q.counted = some client) e.proc e.spawned hp
    have href := hstep.refCount client
    rw [hinv.refCount client] at href
    simp only [decide_eq_true_eq] at hcount
    apply add_right_cancel
    rw [href, ← BitVec.ofNat_add, ← BitVec.ofNat_add, hcount, Nat.add_assoc]
  · have hcount := Pool.countP_step (fun q => q.held.any f) e.proc e.spawned hp
    have hled := hstep.ledger f
    have := hinv.ledger f
    dsimp only
    omega
  · have hcount := Pool.countP_step (fun q => q.tracing = some x) e.proc e.spawned hp
    have hfr := hstep.fresh x
    have := hinv.fresh x
    simp only [decide_eq_true_eq] at hcount
    dsimp only
    omega
  · have hcount := Pool.countP_step (fun q => q.traced = some x) e.proc e.spawned hp
    simp only [decide_eq_true_eq] at hcount
    rcases hstep.mapped hx with ⟨hmem, hle⟩ | hnew
    · have := hinv.mapped x hmem
      dsimp only
      omega
    · rw [if_pos hnew] at hcount
      dsimp only
      split_ifs at hcount with hold
      · have : 0 < c.procs.countP fun q => q.traced = some x :=
          List.countP_pos_iff.mpr ⟨p, List.mem_of_getElem? hp, decide_eq_true hold⟩
        omega
      · omega

theorem countP_counted (client : Client) (procs : List (SessProc Client)) :
    procs.countP (fun q => q.counted = some client) =
      procs.countP (fun q => q.held.any (·.1 = client)) +
        procs.countP (fun q => q.acquiring = some client) := by
  induction procs with
  | nil => rfl
  | cons p procs ih =>
    have hp : (if p.counted = some client then 1 else 0) =
        (if p.held.any (·.1 = client) then 1 else 0) +
          (if p.acquiring = some client then 1 else 0) := by
      cases p <;> simp [SessProc.counted, SessProc.held, SessProc.acquiring]
    simp only [List.countP_cons, ih, decide_eq_true_eq, hp]
    omega

theorem run_sessInv {calls : List (Caller × Client)} {as : List (ℕ × Bool)}
    {c : Pool (Clients Client) (SessProc Client)}
    (hrun : run (Pool.step exec) (start calls) as = some c) : SessInv c :=
  run_inv' (fun _ _ _ hinv h => step_inv hinv h) (start_inv calls) hrun

theorem SessInv.unreleased {c : Pool (Clients Client) (SessProc Client)} (hinv : SessInv c)
    (client : Client) :
    c.shared.unreleased client = c.procs.countP fun q => q.held.any (·.1 = client) := by
  have := hinv.ledger (·.1 = client)
  unfold Clients.unreleased
  omega

/-! ## The count of all callers -/

/-- `n` further callers of `AcquireSession` on client 0 raise `refCount`. -/
theorem acquiring_run (n k : ℕ) (s : Clients ℕ) :
    ∃ as c, run (Pool.step exec) ⟨s, List.replicate k (.newSession .getCacheSSHConn 0) ++
        List.replicate n (.acquireSession .getCacheSSHConn 0)⟩ as = some c ∧
      c.procs = List.replicate (k + n) (.newSession .getCacheSSHConn 0) := by
  induction n generalizing k s with
  | zero => exact ⟨[], _, rfl, by simp⟩
  | succ n ih =>
    obtain ⟨as, c, hrun, hprocs⟩ := ih (k + 1) (s.addRefCount 0 1)
    refine ⟨(k, true) :: as, c, ?_, by rw [hprocs, Nat.add_right_comm, Nat.add_assoc]⟩
    rw [run_cons_eq_some]
    refine ⟨_, ?_, hrun⟩
    rw [List.replicate_succ' (n := k)]
    simp [Pool.step, exec, List.replicate_succ]

/-- With 2³¹ acquisitions in progress `refCount` is negative. -/
theorem refCount_wraps :
    ∃ (calls : List (Caller × ℕ)) (as : List (ℕ × Bool)) (c : Pool (Clients ℕ) (SessProc ℕ)),
      run (Pool.step exec) (start calls) as = some c ∧
      (c.shared.refCount 0).toInt < 0 := by
  obtain ⟨as, c, hrun, hprocs⟩ := acquiring_run (2 ^ 31) 0 .init
  have hrun' : run (Pool.step exec) (start (List.replicate (2 ^ 31) (.getCacheSSHConn, 0))) as =
      some c := by
    rw [← hrun, start, List.map_replicate, List.replicate_zero, List.nil_append]
  refine ⟨_, as, c, hrun', ?_⟩
  have hcount : c.procs.countP (fun q => q.counted = some 0) = 2 ^ 31 := by
    rw [hprocs, List.countP_replicate, if_pos (by simp [SessProc.counted]), Nat.zero_add]
  rw [(run_sessInv hrun').refCount 0, hcount]
  decide

/-- Any number of callers on any clients, in any interleaving and whatever fails:
    `refCount` is the number of sessions acquired and not yet released plus the
    acquisitions in progress, as an `int32`, so equal to it and not negative while that
    number is below 2³¹. A session is released at most once, and only after it was
    acquired. When nobody is between the start of `AcquireSession` and the end of
    `ReleaseSession` on a client, its count is 0 and its `traceSessionMap` empty. -/
theorem refCount_exact (calls : List (Caller × Client)) (as : List (ℕ × Bool))
    (c : Pool (Clients Client) (SessProc Client))
    (hrun : run (Pool.step exec) (start calls) as = some c) :
    (∀ client,
      let n := c.shared.unreleased client + c.procs.countP fun q => q.acquiring = some client
      c.shared.refCount client = BitVec.ofNat 32 n ∧
      (n < 2 ^ 31 → (c.shared.refCount client).toInt = n ∧
        0 ≤ (c.shared.refCount client).toInt)) ∧
    c.shared.released.Nodup ∧ c.shared.released ⊆ c.shared.acquired ∧
    ∀ client, (∀ q ∈ c.procs, q.uses ≠ some client) →
      c.shared.refCount client = 0 ∧ c.shared.traceSessionMap client = ∅ := by
  have hinv := run_sessInv hrun
  have hcount : ∀ x, c.shared.released.count x ≤ c.shared.acquired.count x := by
    intro x
    have := hinv.ledger (· == x)
    exact Nat.le_trans (Nat.le_add_left _ _) (Nat.le_of_eq this)
  refine ⟨fun client => ?_, ?_, ?_, ?_⟩
  · intro n
    have href : c.shared.refCount client = BitVec.ofNat 32 n := by
      rw [hinv.refCount client, countP_counted, ← hinv.unreleased client]
    refine ⟨href, fun hn => ?_⟩
    have hint : (c.shared.refCount client).toInt = n := by
      rw [href, BitVec.toInt_ofNat']
      exact Int.bmod_eq_of_le (by omega) (by omega)
    exact ⟨hint, by omega⟩
  · rw [List.nodup_iff_count_le_one]
    intro x
    have := hinv.fresh x
    have := hcount x
    omega
  · intro x hx
    have := List.count_pos_iff.mpr hx
    have := hcount x
    exact List.count_pos_iff.mp (by omega)
  · intro client huse
    constructor
    · rw [hinv.refCount client, List.countP_eq_zero.mpr]
      · rfl
      · intro q hq hc
        exact huse q hq (SessProc.uses_of_counted (of_decide_eq_true hc))
    · rw [Finset.eq_empty_iff_forall_notMem]
      intro sess hmem
      obtain ⟨q, hq, ht⟩ := List.countP_pos_iff.mp (hinv.mapped (client, sess) hmem)
      exact huse q hq (SessProc.uses_of_traced (of_decide_eq_true ht))

/-- One caller has a shell on client 0 and has returned, another is in `NewSession`. -/
def sharedRun : List (ℕ × Bool) := [(0, true), (1, true), (0, true), (0, true), (0, true)]

theorem refCount_exact_shared :
    ∃ c, run (Pool.step exec) (start [(.getSSHConn, 0), (.proxyVscodeShell, 0)]) sharedRun =
        some c ∧
      c.procs = [.returned, .newSession .proxyVscodeShell 0, .live 0 0] ∧
      (c.shared.refCount 0).toInt = 2 :=
  ⟨_, rfl, rfl, ((refCount_exact [(.getSSHConn, 0), (.proxyVscodeShell, 0)] sharedRun _ rfl).1
    0).2 (by decide) |>.1⟩

end GoJump.SrvConn.SSHClient
