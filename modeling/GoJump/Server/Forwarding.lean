import GoJump.Lib.Pool
import GoJump.Model.Records
import GoJump.Server.Vscode

/-!
# VS Code requests and port forwarding

Model of `pkg/server/vscode.go` lines 10–38 and of the part of `proxyVscodeShell` that
registers a request, waits, and withdraws it (`pkg/server/sshHandler.go` lines 193–247).
`vscodeClients` is keyed by the id of the SSH connection, and one connection can carry
several sessions. The three functions of `vscode.go` hold the lock of the server, so
each is one step, and a run of `Pool.step exec` is one interleaving of any number of
`proxyVscodeShell` runs.

* `forwarding_withdrawn`: a session that ends takes the entry of another one with it.
* `forwarding_iff`: along a run the registry is right in every state exactly if
  requests are withdrawn only while no other run on the connection is active.
-/

namespace GoJump.Server.Forwarding

open GoJump.Go GoJump.Lib GoJump.Model GoJump.Server

variable {Client : Type}

/-! ## The registry and its users -/

/-- `vscodeReq` (`pkg/server/vscode.go` lines 10–16). -/
structure VscodeReq (Client : Type) where
  reqId : GoString
  user : User
  client : Client
  expireInfo : ExpireInfo
  deriving DecidableEq

/-- The map `vscodeClients` of the server. -/
structure Registry (Client : Type) where
  vscodeClients : GoString → Option (VscodeReq Client)

/-- `getVSCodeReq` (lines 18–22). -/
def Registry.getVSCodeReq (s : Registry Client) (reqId : GoString) : Option (VscodeReq Client) :=
  s.vscodeClients reqId

/-- `addVSCodeReq` (lines 24–30). -/
def Registry.addVSCodeReq (s : Registry Client) (vsReq : VscodeReq Client) : Registry Client :=
  ⟨Function.update s.vscodeClients vsReq.reqId (some vsReq)⟩

/-- `deleteVSCodeReq` (lines 32–38). -/
def Registry.deleteVSCodeReq (s : Registry Client) (vsReq : VscodeReq Client) : Registry Client :=
  ⟨Function.update s.vscodeClients vsReq.reqId none⟩

/-- `DirectTCPIPChannelHandler` up to its `Dial` (`pkg/server/sshHandler.go` lines
    120–131): the client a forwarding request is sent through, if it is not rejected. -/
def directTCPIPChannelHandler (s : Registry Client) (ctxID : Option GoString) : Option Client :=
  ctxID.bind fun reqId => (s.getVSCodeReq reqId).map (·.client)

/-- Where a run of `proxyVscodeShell` stands. -/
inductive ShellProc (Client : Type)
  /-- before `addVSCodeReq` -/
  | opening (vsReq : VscodeReq Client)
  /-- in its loop -/
  | looping (vsReq : VscodeReq Client)
  /-- the loop has returned, the deferred `deleteVSCodeReq` comes next -/
  | leaving (vsReq : VscodeReq Client)
  | returned
  deriving DecidableEq

/-- What a run meets. -/
inductive ShellAct
  /-- whether session, pipes and shell could be had -/
  | opened (ok : Bool)
  /-- what the `select` of the loop receives -/
  | received (event : ShellEvent)
  | deferred
  deriving DecidableEq

/-- One step of a run. -/
def exec (s : Registry Client) (p : ShellProc Client) (a : ShellAct) :
    Option (Effect (Registry Client) (ShellProc Client)) :=
  match p, a with
  | .opening vsReq, .opened ok =>
    if ok then some { shared := s.addVSCodeReq vsReq, proc := .looping vsReq }
    else some { shared := s, proc := .returned }
  | .looping vsReq, .received .sessionDone => some { shared := s, proc := .leaving vsReq }
  | .looping vsReq, .received .timeout => some { shared := s, proc := .leaving vsReq }
  | .looping vsReq, .received (.tick now) =>
    if vsReq.expireInfo.isExpired now then some { shared := s, proc := .leaving vsReq }
    else some { shared := s, proc := .looping vsReq }
  | .leaving vsReq, .deferred =>
    some { shared := s.deleteVSCodeReq vsReq, proc := .returned }
  | _, _ => none

/-- Any number of runs on an empty registry. -/
def start (reqs : List (VscodeReq Client)) : Pool (Registry Client) (ShellProc Client) :=
  ⟨⟨fun _ => none⟩, reqs.map .opening⟩

/-! ## The property -/

/-- The request of a run that is active: it has been added and not yet deleted. -/
def ShellProc.active : ShellProc Client → Option (VscodeReq Client)
  | looping vsReq | leaving vsReq => some vsReq
  | _ => none

/-- The requests of the active runs. -/
def active (c : Pool (Registry Client) (ShellProc Client)) : Set (VscodeReq Client) :=
  {vsReq | ∃ (i : ℕ) (p : ShellProc Client), c.procs[i]? = some p ∧ p.active = some vsReq}

/-- For every connection `id`, `getVSCodeReq(id)` is one of the active requests on it,
    and `nil` only if there is none. -/
def Registered (s : Registry Client) (active : Set (VscodeReq Client)) : Prop :=
  ∀ id, match s.getVSCodeReq id with
    | some vsReq => vsReq.reqId = id ∧ vsReq ∈ active
    | none => ∀ vsReq ∈ active, vsReq.reqId ≠ id

/-- The condition on a step of `p`, for each other run `q`: when `p` deletes its request,
    `q` is not active on the same connection. -/
def LeavesAlone (_ : Registry Client) (p : ShellProc Client) (_ : ShellAct) (q : ShellProc Client) :
    Prop :=
  match p with
  | .leaving vsReq => ∀ other ∈ q.active, other.reqId ≠ vsReq.reqId
  | _ => True

instance (s : Registry Client) (p : ShellProc Client) (a : ShellAct) (q : ShellProc Client) :
    Decidable (LeavesAlone s p a q) := by
  unfold LeavesAlone
  split <;> infer_instance

/-- Two sessions of one connection. -/
def twoSessions : List (VscodeReq ℕ) :=
  [⟨str "conn", default, 1, ⟨0⟩⟩, ⟨str "conn", default, 2, ⟨0⟩⟩]

/-- Both are opened, then the first one times out. -/
def firstEnds : List (ℕ × ShellAct) :=
  [(0, .opened true), (1, .opened true), (0, .received .timeout), (0, .deferred)]

theorem forwarding_withdrawn :
    ∃ c, run (Pool.step exec) (start twoSessions) firstEnds = some c ∧
      c.procs[1]? = some (.looping ⟨str "conn", default, 2, ⟨0⟩⟩) ∧
      c.shared.getVSCodeReq (str "conn") = none ∧ ¬ Registered c.shared (active c) := by
  refine ⟨_, rfl, rfl, rfl, fun h => ?_⟩
  exact h (str "conn") ⟨str "conn", default, 2, ⟨0⟩⟩ ⟨1, _, rfl, rfl⟩ rfl

/-! ## The registry against the active requests -/

theorem Registered.add {s : Registry Client} {active : Set (VscodeReq Client)}
    (h : Registered s active) (vsReq : VscodeReq Client) :
    Registered (s.addVSCodeReq vsReq) (insert vsReq active) := by
  intro id
  by_cases hid : id = vsReq.reqId
  · subst hid
    simp [Registry.addVSCodeReq, Registry.getVSCodeReq]
  · have hget : (s.addVSCodeReq vsReq).getVSCodeReq id = s.getVSCodeReq id := by
      simp [Registry.addVSCodeReq, Registry.getVSCodeReq, hid]
    have hold := h id
    rw [hget]
    cases hs : s.getVSCodeReq id with
    | some found =>
      rw [hs] at hold
      exact ⟨hold.1, Set.mem_insert_of_mem _ hold.2⟩
    | none =>
      rw [hs] at hold
      rintro other (rfl | hmem)
      · exact Ne.symm hid
      · exact hold other hmem

/-- Deleting the entry of a request is right exactly if no other one on the same
    connection is left. -/
theorem Registered.delete_iff {s : Registry Client} {active : Set (VscodeReq Client)}
    {vsReq : VscodeReq Client} (h : Registered s (insert vsReq active)) :
    Registered (s.deleteVSCodeReq vsReq) active ↔
      ∀ other ∈ active, other.reqId ≠ vsReq.reqId := by
  have hself : (s.deleteVSCodeReq vsReq).getVSCodeReq vsReq.reqId = none := by
    simp [Registry.deleteVSCodeReq, Registry.getVSCodeReq]
  constructor
  · intro hreg
    have := hreg vsReq.reqId
    rw [hself] at this
    exact this
  · intro halone id
    by_cases hid : id = vsReq.reqId
    · subst hid
      rw [hself]
      exact halone
    · have hget : (s.deleteVSCodeReq vsReq).getVSCodeReq id = s.getVSCodeReq id := by
        simp [Registry.deleteVSCodeReq, Registry.getVSCodeReq, hid]
      have hold := h id
      rw [hget]
      cases hs : s.getVSCodeReq id with
      | some found =>
        rw [hs] at hold
        obtain ⟨hfound, rfl | hmem⟩ := hold
        · exact absurd hfound.symm hid
        · exact ⟨hfound, hmem⟩
      | none =>
        rw [hs] at hold
        exact fun other hmem => hold other (Set.mem_insert_of_mem _ hmem)

/-- A forwarding request goes through the client of an active session, and is rejected
    only if there is none. -/
theorem Registered.forwards {s : Registry Client} {active : Set (VscodeReq Client)}
    (h : Registered s active) (id : GoString) :
    match directTCPIPChannelHandler s (some id) with
    | some client => ∃ vsReq ∈ active, vsReq.reqId = id ∧ vsReq.client = client
    | none => ∀ vsReq ∈ active, vsReq.reqId ≠ id := by
  have := h id
  unfold directTCPIPChannelHandler
  dsimp only [Option.bind_some]
  cases hs : s.getVSCodeReq id with
  | some vsReq =>
    rw [hs] at this
    exact ⟨vsReq, this.2, this.1, rfl⟩
  | none =>
    rw [hs] at this
    exact this

/-! ## Steps -/

/-- A step adds a request, deletes one, or changes neither the registry nor what is
    active. -/
theorem exec_cases {s : Registry Client} {p : ShellProc Client} {a : ShellAct}
    {e : Effect (Registry Client) (ShellProc Client)} (h : exec s p a = some e) :
    e.spawned = [] ∧
    ((∃ vsReq, p = .opening vsReq ∧ e.shared = s.addVSCodeReq vsReq ∧ e.proc.active = some vsReq) ∨
    (∃ vsReq, p = .leaving vsReq ∧ e.shared = s.deleteVSCodeReq vsReq ∧ e.proc.active = none) ∨
    ((∀ vsReq, p ≠ .leaving vsReq) ∧ e.shared = s ∧ e.proc.active = p.active)) := by
  cases p with
  | opening vsReq =>
    cases a with
    | opened ok =>
      simp only [exec] at h
      split_ifs at h
      · cases h
        exact ⟨rfl, .inl ⟨vsReq, rfl, rfl, rfl⟩⟩
      · cases h
        exact ⟨rfl, .inr (.inr ⟨nofun, rfl, rfl⟩)⟩
    | received event => cases h
    | deferred => cases h
  | looping vsReq =>
    cases a with
    | opened ok => cases h
    | received event =>
      cases event with
      | sessionDone | timeout =>
        cases h
        exact ⟨rfl, .inr (.inr ⟨nofun, rfl, rfl⟩)⟩
      | tick now =>
        simp only [exec] at h
        split_ifs at h <;> cases h <;> exact ⟨rfl, .inr (.inr ⟨nofun, rfl, rfl⟩)⟩
    | deferred => cases h
  | leaving vsReq =>
    cases a with
    | opened ok => cases h
    | received event => cases h
    | deferred =>
      cases h
      exact ⟨rfl, .inr (.inl ⟨vsReq, rfl, rfl, rfl⟩)⟩
  | returned => cases h

/-- The requests of the active runs other than run `i`. -/
def others (c : Pool (Registry Client) (ShellProc Client)) (i : ℕ) : Set (VscodeReq Client) :=
  {vsReq | ∃ (j : ℕ) (q : ShellProc Client),
    j ≠ i ∧ c.procs[j]? = some q ∧ q.active = some vsReq}

theorem active_eq {c : Pool (Registry Client) (ShellProc Client)} {i : ℕ} {p : ShellProc Client}
    (hp : c.procs[i]? = some p) : active c = {vsReq | p.active = some vsReq} ∪ others c i := by
  ext vsReq
  constructor
  · rintro ⟨j, q, hq, hact⟩
    by_cases hj : j = i
    · subst hj
      cases hp.symm.trans hq
      exact Or.inl hact
    · exact Or.inr ⟨j, q, hj, hq, hact⟩
  · rintro (hact | ⟨j, q, _, hq, hact⟩)
    · exact ⟨i, p, hp, hact⟩
    · exact ⟨j, q, hq, hact⟩

theorem others_step {c c' : Pool (Registry Client) (ShellProc Client)} {i : ℕ}
    {p : ShellProc Client} (hpr : c'.procs = c.procs.set i p ++ []) : others c' i = others c i := by
  ext vsReq
  apply exists_congr
  intro j
  apply exists_congr
  intro q
  apply and_congr_right
  intro hj
  rw [hpr, List.append_nil, List.getElem?_set_ne (Ne.symm hj)]

theorem guard_leaving {c : Pool (Registry Client) (ShellProc Client)} {i : ℕ} {a : ShellAct}
    {vsReq : VscodeReq Client} (hp : c.procs[i]? = some (.leaving vsReq)) :
    Pool.Guard LeavesAlone c (i, a) ↔ ∀ other ∈ others c i, other.reqId ≠ vsReq.reqId := by
  unfold Pool.Guard
  simp only [hp, Option.mem_def, Option.some.injEq, forall_eq', LeavesAlone]
  constructor
  · rintro h other ⟨j, q, hj, hq, hact⟩
    exact h q (List.mem_eraseIdx_iff_getElem?.mpr ⟨j, hj, hq⟩) other hact
  · intro h q hq other hact
    obtain ⟨j, hj, hjq⟩ := List.mem_eraseIdx_iff_getElem?.mp hq
    exact h other ⟨j, q, hj, hjq, hact⟩

theorem guard_other {c : Pool (Registry Client) (ShellProc Client)} {i : ℕ} {a : ShellAct}
    {p : ShellProc Client} (hp : c.procs[i]? = some p) (hne : ∀ vsReq, p ≠ .leaving vsReq) :
    Pool.Guard LeavesAlone c (i, a) := by
  intro p' hp' q _
  cases hp.symm.trans hp'
  cases p with
  | leaving vsReq => exact absurd rfl (hne vsReq)
  | opening vsReq => trivial
  | looping vsReq => trivial
  | returned => trivial

/-- From a state in which the registry is right, a step leads to one in which it is right
    exactly if it does not delete the entry of an active run. -/
theorem step_registered_iff {c c' : Pool (Registry Client) (ShellProc Client)}
    {l : ℕ × ShellAct} (hreg : Registered c.shared (active c))
    (h : Pool.step exec c l = some c') :
    Pool.Guard LeavesAlone c l ↔ Registered c'.shared (active c') := by
  obtain ⟨i, a⟩ := l
  obtain ⟨p, e, hp, he, hsh, hpr⟩ := Pool.step_cases h
  obtain ⟨hnone, hcases⟩ := exec_cases he
  rw [hnone] at hpr
  have hi : c'.procs[i]? = some e.proc := by
    rw [hpr]
    exact Pool.getElem?_self hp
  rw [active_eq hp] at hreg
  rw [hsh, active_eq hi, others_step hpr]
  rcases hcases with ⟨vsReq, rfl, hs, hact⟩ | ⟨vsReq, rfl, hs, hact⟩ | ⟨hne, hs, hact⟩
  · refine iff_of_true (guard_other hp nofun) ?_
    have hset : {r | some vsReq = some r} ∪ others c i =
        insert vsReq ({r | (ShellProc.opening vsReq).active = some r} ∪ others c i) := by
      ext r
      simp [ShellProc.active, eq_comm]
    rw [hs, hact, hset]
    exact hreg.add vsReq
  · have hset : {r | (ShellProc.leaving vsReq).active = some r} ∪ others c i =
        insert vsReq (others c i) := by
      ext r
      simp [ShellProc.active, eq_comm]
    have hset' : {r : VscodeReq Client | none = some r} ∪ others c i = others c i := by
      ext r
      simp
    rw [hset] at hreg
    rw [hs, hact, hset', guard_leaving hp, hreg.delete_iff]
  · rw [hs, hact]
    exact iff_of_true (guard_other hp hne) hreg

theorem start_registered (reqs : List (VscodeReq Client)) :
    Registered (start reqs).shared (active (start reqs)) := by
  rintro id vsReq ⟨i, p, hp, hact⟩
  obtain ⟨r, _, rfl⟩ := List.mem_map.mp (List.mem_of_getElem? hp)
  cases hact

/-- Any number of runs, on the same or different connections, started and ended in any
    order: `getVSCodeReq` is right in every state of the interleaving exactly if every
    request is deleted while no other run on its connection is active. -/
theorem forwarding_iff (reqs : List (VscodeReq Client)) (as : List (ℕ × ShellAct))
    (c : Pool (Registry Client) (ShellProc Client))
    (hrun : run (Pool.step exec) (start reqs) as = some c) :
    (∀ t ∈ states (Pool.step exec) (start reqs) as, Registered t.shared (active t)) ↔
      Meets (Pool.step exec) (Pool.Guard LeavesAlone) (start reqs) as :=
  (meets_iff_states (fun _ hreg => hreg)
    (fun _ _ _ hreg hG h => (step_registered_iff hreg h).mp hG)
    (fun _ _ _ hreg h => (step_registered_iff hreg h).mpr) as _ c (start_registered reqs) hrun).symm

/-- The second session of the connection is opened after the first one has ended. -/
def inTurn : List (ℕ × ShellAct) :=
  [(0, .opened true), (0, .received .timeout), (0, .deferred), (1, .opened true)]

theorem forwarding_iff_inTurn :
    ∃ c, run (Pool.step exec) (start twoSessions) inTurn = some c ∧
      ∀ t ∈ states (Pool.step exec) (start twoSessions) inTurn, Registered t.shared (active t) :=
  ⟨_, rfl, (forwarding_iff twoSessions inTurn _ rfl).mpr (by decide)⟩

end GoJump.Server.Forwarding
