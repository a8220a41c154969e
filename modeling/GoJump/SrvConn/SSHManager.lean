import GoJump.Go.Strings
import GoJump.Lib.Log
import GoJump.Lib.Pool

/-!
# The SSH client cache

Model of `SSHManager` (`pkg/srvconn/ssh.go` lines 19–163). One goroutine, `run`,
owns the map and serves requests over unbuffered channels: a send and its
receive are one step of the caller and the manager together, possible only while
`run` stands at its `select`. After a request `run` stands at
`s.resultChan <- foundClient` until some caller receives. All callers share
`reqChan` and `resultChan`.

An `*SSHClient` is a pointer, so the type of clients is left open. What the
manager reads of a client, its `RefCount()`, changes under other goroutines at
any time: the readings are part of the action, as are the clock and the order in
which a `range` visits a map. `log` is not in the code; it records what was
stored and what a recycle closed and removed.

* `cache_protocol`: a call gets the answer computed for its own key; the answer is
  a client live under that key, and `nil` only when there is none.
* `least_referenced_iff`: the client taken from an entry is one with the most
  references, so it is one with the fewest only when all have the same number.
-/

namespace GoJump.SrvConn.SSHManager

open GoJump.Go GoJump.Lib

variable {Client : Type*}

/-- One round of the loop of `GetClient` (lines 33–38) over the visited client and
    two readings of its reference count. -/
def getClientStep (acc : Option Client × ℕ) (v : Client × ℕ × ℕ) : Option Client × ℕ :=
  if acc.2 ≤ v.2.1 then (some v.1, v.2.2) else acc

/-- `GetClient()` for a `range` that makes these visits. -/
def getClient (visits : List (Client × ℕ × ℕ)) : Option Client :=
  (visits.foldl getClientStep (none, 0)).1

theorem foldl_getClientStep (visits : List (Client × ℕ × ℕ)) (c : Client) (n : ℕ) :
    ∃ c', (visits.foldl getClientStep (some c, n)).1 = some c' ∧
      (c' = c ∨ c' ∈ visits.map Prod.fst) := by
  induction visits generalizing c n with
  | nil => exact ⟨c, rfl, Or.inl rfl⟩
  | cons v visits ih =>
    rw [List.foldl_cons, getClientStep]
    split_ifs
    · obtain ⟨c', h, hc⟩ := ih v.1 v.2.2
      refine ⟨c', h, Or.inr ?_⟩
      rcases hc with rfl | hc
      · simp
      · exact List.mem_cons_of_mem _ hc
    · obtain ⟨c', h, hc⟩ := ih c n
      exact ⟨c', h, hc.imp_right (List.mem_cons_of_mem _)⟩

/-- The first client visited is taken, whatever its count, so `GetClient` finds
    one in every entry that is not empty. -/
theorem getClient_mem {visits : List (Client × ℕ × ℕ)} (h : visits ≠ []) :
    ∃ c, getClient visits = some c ∧ c ∈ visits.map Prod.fst := by
  obtain ⟨v, rest, rfl⟩ := List.exists_cons_of_ne_nil h
  obtain ⟨c, hc, hmem⟩ := foldl_getClientStep rest v.1 v.2.2
  refine ⟨c, ?_, ?_⟩
  · rw [getClient, List.foldl_cons, getClientStep, if_pos (Nat.zero_le _)]
    exact hc
  · rcases hmem with rfl | hmem
    · simp
    · exact List.mem_cons_of_mem _ hmem

/-! ## Which client is taken -/

section Select

variable (refs : Client → ℕ)

/-- A visit of a client whose reference count does not change during the loop. -/
def steadyVisit (c : Client) : Client × ℕ × ℕ := (c, refs c, refs c)

/-- The client selected so far has the largest count of those visited. -/
theorem foldl_steadyVisit (order : List Client) (c : Client) :
    ∃ c', (order.map (steadyVisit refs)).foldl getClientStep (some c, refs c) = (some c', refs c') ∧
      c' ∈ c :: order ∧ ∀ d ∈ c :: order, refs d ≤ refs c' := by
  induction order generalizing c with
  | nil => exact ⟨c, rfl, by simp, by simp⟩
  | cons e order ih =>
    rw [List.map_cons, List.foldl_cons]
    by_cases hle : refs c ≤ refs e
    · have hstep : getClientStep (some c, refs c) (steadyVisit refs e) = (some e, refs e) :=
        if_pos hle
      obtain ⟨c', heq, hmem, hmax⟩ := ih e
      rw [hstep]
      refine ⟨c', heq, List.mem_cons_of_mem c hmem, List.forall_mem_cons.mpr ⟨?_, hmax⟩⟩
      exact hle.trans (hmax e (by simp))
    · have hstep : getClientStep (some c, refs c) (steadyVisit refs e) = (some c, refs c) :=
        if_neg hle
      obtain ⟨c', heq, hmem, hmax⟩ := ih c
      have hc := hmax c (by simp)
      rw [hstep]
      refine ⟨c', heq, ?_, ?_⟩
      · rcases List.mem_cons.mp hmem with rfl | hmem
        · simp
        · exact List.mem_cons_of_mem _ (List.mem_cons_of_mem _ hmem)
      · intro d hd
        rcases List.mem_cons.mp hd with rfl | hd
        · exact hc
        rcases List.mem_cons.mp hd with rfl | hd
        · omega
        · exact hmax d (List.mem_cons_of_mem c hd)

/-- The comparison `refCount <= clientItem.RefCount()` keeps the larger count: `GetClient`
    takes a client with the most references. -/
theorem getClient_steadyVisit {order : List Client} (h : order ≠ []) :
    ∃ c ∈ order, getClient (order.map (steadyVisit refs)) = some c ∧
      ∀ d ∈ order, refs d ≤ refs c := by
  obtain ⟨c, rest, rfl⟩ := List.exists_cons_of_ne_nil h
  obtain ⟨c', heq, hmem, hmax⟩ := foldl_steadyVisit refs rest c
  refine ⟨c', hmem, ?_, hmax⟩
  have hfirst : getClientStep (none, 0) (steadyVisit refs c) = (some c, refs c) :=
    if_pos (Nat.zero_le _)
  rw [getClient, List.map_cons, List.foldl_cons, hfirst, heq]

variable [DecidableEq Client]

/-- For every entry that is not empty, all reference counts and every order in which the
    `range` visits its clients: the client that is taken has the fewest references exactly if
    all clients of the entry have the same number. -/
theorem least_referenced_iff {entry : Finset Client} (hne : entry.Nonempty) {order : List Client}
    (horder : order.toFinset = entry) :
    (∃ c ∈ entry, getClient (order.map (steadyVisit refs)) = some c ∧
        ∀ d ∈ entry, refs c ≤ refs d) ↔
      ∀ c ∈ entry, ∀ d ∈ entry, refs c = refs d := by
  subst horder
  simp only [List.mem_toFinset]
  have hne' : order ≠ [] := by
    rintro rfl
    simp at hne
  obtain ⟨c, hc, heq, hmax⟩ := getClient_steadyVisit refs hne'
  constructor
  · rintro ⟨c', hc', heq', hmin⟩
    obtain rfl : c = c' := Option.some.inj (heq.symm.trans heq')
    intro d hd e he
    have hd' := Nat.le_antisymm (hmin d hd) (hmax d hd)
    have he' := Nat.le_antisymm (hmin e he) (hmax e he)
    exact hd'.symm.trans he'
  · intro hall
    exact ⟨c, hc, heq, fun d hd => (hall c hc d hd).le⟩

/-- Two clients with three sessions each: either is one with the fewest. -/
theorem least_referenced_of_equal :
    ∃ c ∈ ({1, 2} : Finset ℕ), getClient ([2, 1].map (steadyVisit fun _ => 3)) = some c ∧
      ∀ d ∈ ({1, 2} : Finset ℕ), 3 ≤ 3 :=
  (least_referenced_iff (fun _ => 3) (by decide)
    (show [2, 1].toFinset = ({1, 2} : Finset ℕ) by decide)).mpr fun _ _ _ _ => rfl

end Select

/-- Of an idle client and one with five sessions the latter is taken, in both orders. -/
theorem most_referenced_taken :
    getClient ([1, 2].map (steadyVisit fun c => if c = 1 then 0 else 5)) = some 2 ∧
      getClient ([2, 1].map (steadyVisit fun c => if c = 1 then 0 else 5)) = some 2 := by
  decide

/-! ## The manager -/

/-- `time.Minute` in nanoseconds. -/
def minute : ℕ := 60 * 10 ^ 9

/-- Where `run` stands. -/
inductive Phase (Client : Type*)
  /-- at the `select` -/
  | selecting
  /-- at `s.resultChan <- foundClient`, for the request `reqKey` -/
  | replying (reqKey : GoString) (foundClient : Option Client)

/-- The local variables of `run`. A `UserSSHClient` is the set of clients that are
    keys of its map; the time stored with each is never read. -/
structure Manager (Client : Type*) where
  data : GoString → Option (Finset Client)
  latestVisited : ℕ
  phase : Phase Client
  log : List (LogEntry (GoString × Client))

variable [DecidableEq Client]

/-- `recycleClients` of the entry of `key`, followed by the test on `Count()`
    (lines 100–103). -/
def recycleEntry (refs : GoString → Client → ℕ) (key : GoString) (entry : Finset Client) :
    Option (Finset Client) :=
  let remain := entry.filter fun c => ¬ refs key c ≤ 0
  if remain.card = 0 then none else some remain

/-- The clients a recycle closes. -/
def recycled (m : Manager Client) (refs : GoString → Client → ℕ) : Set (GoString × Client) :=
  {x | (∃ entry, m.data x.1 = some entry ∧ x.2 ∈ entry) ∧ refs x.1 x.2 ≤ 0}

/-- The case of `tick.C` (lines 92–113). -/
def Manager.tick (m : Manager Client) (now : ℕ) (refs : GoString → Client → ℕ) : Manager Client :=
  if m.latestVisited + minute < now then
    { m with
      data := fun key => (m.data key).bind (recycleEntry refs key)
      log := m.log ++ [.remove (recycled m refs)] }
  else m

/-- The case of `storeChan` (lines 134–148). -/
def Manager.store (m : Manager Client) (key : GoString) (client : Client) (now : ℕ) :
    Manager Client :=
  { m with
    data := Function.update m.data key (some (insert client ((m.data key).getD ∅)))
    latestVisited := now
    log := m.log ++ [.add (key, client)] }

/-- What `run` answers to a request (lines 114–121). The visits must go over the
    entry of the key, each client once. -/
def Manager.found (m : Manager Client) (key : GoString) (visits : List (Client × ℕ × ℕ)) :
    Option (Option Client) :=
  match m.data key with
  | none => some none
  | some entry =>
    if (visits.map Prod.fst).Nodup ∧ (visits.map Prod.fst).toFinset = entry then
      some (getClient visits)
    else none

inductive CacheProc (Client : Type*)
  | addClientCache (key : GoString) (client : Client)
  | added
  /-- `getClientFromCache(key)` before its send -/
  | getClientFromCache (key : GoString)
  /-- `getClientFromCache(key)` before its receive -/
  | awaiting (key : GoString)
  /-- it has returned; `log` is the log then -/
  | returned (key : GoString) (client : Option Client) (log : List (LogEntry (GoString × Client)))
  | ticker

inductive CacheAct (Client : Type*)
  | store (now : ℕ)
  | request (visits : List (Client × ℕ × ℕ))
  | receive (now : ℕ)
  | tick (now : ℕ) (refs : GoString → Client → ℕ)

/-- One rendezvous with the manager. -/
def exec (m : Manager Client) (p : CacheProc Client) (a : CacheAct Client) :
    Option (Effect (Manager Client) (CacheProc Client)) :=
  match m.phase, p, a with
  | .selecting, .addClientCache key client, .store now =>
    some { shared := m.store key client now, proc := .added }
  | .selecting, .getClientFromCache key, .request visits =>
    (m.found key visits).map fun ans =>
      { shared := { m with phase := .replying key ans }, proc := .awaiting key }
  | .replying _ ans, .awaiting key, .receive now =>
    some { shared := { m with phase := .selecting, latestVisited := now },
           proc := .returned key ans m.log }
  | .selecting, .ticker, .tick now refs => some { shared := m.tick now refs, proc := .ticker }
  | _, _, _ => none

/-- A call of one of the two methods. -/
inductive CacheCall (Client : Type*)
  | addClientCache (key : GoString) (client : Client)
  | getClientFromCache (key : GoString)

def CacheCall.proc : CacheCall Client → CacheProc Client
  | addClientCache key client => .addClientCache key client
  | getClientFromCache key => .getClientFromCache key

/-- `newSSHManager()` at time `now` and any number of callers. -/
def start (now : ℕ) (calls : List (CacheCall Client)) : Pool (Manager Client) (CacheProc Client) :=
  ⟨⟨fun _ => none, now, .selecting, []⟩, .ticker :: calls.map CacheCall.proc⟩

/-! ## What the map holds -/

/-- `c` is in the entry of `key`. -/
def Manager.Holds (m : Manager Client) (key : GoString) (c : Client) : Prop :=
  ∃ entry, m.data key = some entry ∧ c ∈ entry

/-- The answer to a request for `key` when the log was `log`. -/
def AnswerFor (log : List (LogEntry (GoString × Client))) (key : GoString) : Option Client → Prop
  | some c => Live log (key, c)
  | none => ∀ c, ¬ Live log (key, c)

/-- The map holds what is live, without empty entries, and an answer under way is
    right. -/
structure ManagerInv (m : Manager Client) : Prop where
  nonempty : ∀ key entry, m.data key = some entry → entry.Nonempty
  live : ∀ key c, m.Holds key c ↔ Live m.log (key, c)
  justified : Justified m.log
  reply : ∀ key ans, m.phase = .replying key ans → AnswerFor m.log key ans

theorem holds_store (m : Manager Client) (key key' : GoString) (client c : Client) (now : ℕ) :
    (m.store key client now).Holds key' c ↔ (key', c) = (key, client) ∨ m.Holds key' c := by
  unfold Manager.Holds Manager.store
  by_cases hk : key' = key
  · subst hk
    simp only [Function.update_self, Option.some.injEq, exists_eq_left', Finset.mem_insert,
      Prod.mk.injEq, true_and]
    cases hd : m.data key' with
    | none => simp
    | some entry => simp
  · simp only [Function.update_of_ne hk, Prod.mk.injEq, hk, false_and, false_or]

theorem ManagerInv.store {m : Manager Client} (h : ManagerInv m) (hphase : m.phase = .selecting)
    (key : GoString) (client : Client) (now : ℕ) : ManagerInv (m.store key client now) := by
  refine ⟨?_, ?_, h.justified.append_add _, ?_⟩
  · intro key' entry hd
    by_cases hk : key' = key
    · subst hk
      simp only [Manager.store, Function.update_self, Option.some.injEq] at hd
      rw [← hd]
      exact Finset.insert_nonempty _ _
    · simp only [Manager.store, Function.update_of_ne hk] at hd
      exact h.nonempty key' entry hd
  · intro key' c
    rw [holds_store, h.live key' c]
    exact live_append_add.symm
  · intro key' ans hr
    have : (m.store key client now).phase = m.phase := rfl
    rw [this, hphase] at hr
    cases hr

omit [DecidableEq Client] in
theorem recycleEntry_eq_some {refs : GoString → Client → ℕ} {key : GoString}
    {entry remain : Finset Client} :
    recycleEntry refs key entry = some remain ↔
      remain = entry.filter (fun c => ¬ refs key c ≤ 0) ∧ remain.Nonempty := by
  unfold recycleEntry
  dsimp only
  split_ifs with hcard
  · simp only [false_iff, not_and]
    rintro rfl
    rw [Finset.not_nonempty_iff_eq_empty]
    exact Finset.card_eq_zero.mp hcard
  · rw [Option.some.injEq]
    constructor
    · rintro rfl
      exact ⟨rfl, Finset.card_pos.mp (Nat.pos_of_ne_zero hcard)⟩
    · rintro ⟨rfl, _⟩
      rfl

omit [DecidableEq Client] in
/-- After a recycle the map holds what it held and the recycle did not close. -/
theorem holds_recycle (m : Manager Client) (refs : GoString → Client → ℕ) (key : GoString)
    (c : Client) :
    (∃ remain, (m.data key).bind (recycleEntry refs key) = some remain ∧ c ∈ remain) ↔
      m.Holds key c ∧ (key, c) ∉ recycled m refs := by
  simp only [Option.bind_eq_some_iff, recycleEntry_eq_some]
  constructor
  · rintro ⟨remain, ⟨entry, hd, rfl, _⟩, hc⟩
    obtain ⟨hmem, href⟩ := Finset.mem_filter.mp hc
    exact ⟨⟨entry, hd, hmem⟩, fun hrec => href hrec.2⟩
  · rintro ⟨⟨entry, hd, hmem⟩, hrec⟩
    have hc : c ∈ entry.filter fun c => ¬ refs key c ≤ 0 :=
      Finset.mem_filter.mpr ⟨hmem, fun href => hrec ⟨⟨entry, hd, hmem⟩, href⟩⟩
    exact ⟨_, ⟨entry, hd, rfl, ⟨c, hc⟩⟩, hc⟩

omit [DecidableEq Client] in
theorem ManagerInv.tick {m : Manager Client} (h : ManagerInv m) (hphase : m.phase = .selecting)
    (now : ℕ) (refs : GoString → Client → ℕ) : ManagerInv (m.tick now refs) := by
  unfold Manager.tick
  split_ifs
  · refine ⟨?_, ?_, h.justified.append_remove ?_, ?_⟩
    · intro key remain hd
      obtain ⟨entry, _, hr⟩ := Option.bind_eq_some_iff.mp hd
      exact (recycleEntry_eq_some.mp hr).2
    · intro key c
      rw [live_append_remove, ← h.live key c]
      exact holds_recycle m refs key c
    · rintro ⟨key, c⟩ ⟨hheld, _⟩
      exact (h.live key c).mp hheld
    · intro key ans hr
      rw [hphase] at hr
      cases hr
  · exact h

/-- What `run` finds for a key is right for that key. -/
theorem ManagerInv.found {m : Manager Client} (h : ManagerInv m) {key : GoString}
    {visits : List (Client × ℕ × ℕ)} {ans : Option Client} (hf : m.found key visits = some ans) :
    AnswerFor m.log key ans := by
  unfold Manager.found at hf
  cases hd : m.data key with
  | none =>
    rw [hd] at hf
    cases hf
    intro c hlive
    obtain ⟨entry, hentry, _⟩ := (h.live key c).mpr hlive
    rw [hd] at hentry
    cases hentry
  | some entry =>
    rw [hd] at hf
    dsimp only at hf
    split_ifs at hf with hv
    have hne : visits ≠ [] := by
      rintro rfl
      obtain ⟨c, hc⟩ := h.nonempty key entry hd
      rw [← hv.2] at hc
      simp at hc
    obtain ⟨c, hget, hmem⟩ := getClient_mem hne
    rw [hget] at hf
    cases hf
    refine (h.live key c).mp ⟨entry, hd, ?_⟩
    rw [← hv.2]
    exact List.mem_toFinset.mpr hmem

/-! ## What the callers get -/

def CacheProc.awaits : CacheProc Client → Bool
  | awaiting _ => true
  | _ => false

/-- A caller that awaits an answer is the one the manager is answering; one that
    has returned got the right answer for the log then. -/
def ProcInv (m : Manager Client) : CacheProc Client → Prop
  | .awaiting key => ∃ ans, m.phase = .replying key ans
  | .returned key ans log => log <+: m.log ∧ Justified log ∧ AnswerFor log key ans
  | _ => True

/-- What one rendezvous does. -/
inductive CacheStep (m : Manager Client) :
    CacheProc Client → Manager Client → CacheProc Client → Prop
  | store (key : GoString) (client : Client) (now : ℕ) (h : m.phase = .selecting) :
      CacheStep m (.addClientCache key client) (m.store key client now) .added
  | request (key : GoString) (visits : List (Client × ℕ × ℕ)) (ans : Option Client)
      (h : m.phase = .selecting) (hf : m.found key visits = some ans) :
      CacheStep m (.getClientFromCache key) { m with phase := .replying key ans } (.awaiting key)
  | receive (reqKey key : GoString) (ans : Option Client) (now : ℕ)
      (h : m.phase = .replying reqKey ans) :
      CacheStep m (.awaiting key) { m with phase := .selecting, latestVisited := now }
        (.returned key ans m.log)
  | tick (now : ℕ) (refs : GoString → Client → ℕ) (h : m.phase = .selecting) :
      CacheStep m .ticker (m.tick now refs) .ticker

theorem cacheStep_of_exec {m : Manager Client} {p : CacheProc Client} {a : CacheAct Client}
    {e : Effect (Manager Client) (CacheProc Client)} (h : exec m p a = some e) :
    CacheStep m p e.shared e.proc ∧ e.spawned = [] := by
  unfold exec at h
  split at h
  · rename_i hphase
    cases h
    exact ⟨.store _ _ _ hphase, rfl⟩
  · rename_i hphase
    obtain ⟨ans, hf, rfl⟩ := Option.map_eq_some_iff.mp h
    exact ⟨.request _ _ ans hphase hf, rfl⟩
  · rename_i hphase
    cases h
    exact ⟨.receive _ _ _ _ hphase, rfl⟩
  · rename_i hphase
    cases h
    exact ⟨.tick _ _ hphase, rfl⟩
  · cases h

theorem CacheStep.log_prefix {m m' : Manager Client} {p q : CacheProc Client}
    (h : CacheStep m p m' q) : m.log <+: m'.log := by
  cases h with
  | store key client now h => exact List.prefix_append _ _
  | request | receive => exact List.prefix_refl _
  | tick now refs h =>
    unfold Manager.tick
    split_ifs
    · exact List.prefix_append _ _
    · exact List.prefix_refl _

theorem CacheStep.managerInv {m m' : Manager Client} {p q : CacheProc Client}
    (h : CacheStep m p m' q) (hI : ManagerInv m) : ManagerInv m' := by
  cases h with
  | store key client now h => exact hI.store h key client now
  | request key visits ans h hf =>
    refine ⟨hI.nonempty, hI.live, hI.justified, fun key' ans' hr => ?_⟩
    cases hr
    exact hI.found hf
  | receive reqKey key ans now h =>
    refine ⟨hI.nonempty, hI.live, hI.justified, fun key' ans' hr => ?_⟩
    cases hr
  | tick now refs h => exact hI.tick h now refs

theorem CacheStep.procInv {m m' : Manager Client} {p q : CacheProc Client}
    (h : CacheStep m p m' q) (hI : ManagerInv m) (hp : ProcInv m p) : ProcInv m' q := by
  cases h with
  | store | tick => trivial
  | request key visits ans h hf => exact ⟨ans, rfl⟩
  | receive reqKey key ans now h =>
    obtain ⟨ans', h'⟩ := hp
    rw [h] at h'
    cases h'
    exact ⟨List.prefix_refl _, hI.justified, hI.reply _ _ h⟩

/-- A caller that stands still keeps its answer: while one awaits, only it can
    meet the manager. -/
theorem CacheStep.other {m m' : Manager Client} {p q r : CacheProc Client}
    (h : CacheStep m p m' q) (hr : ProcInv m r) (hpr : ¬ (p.awaits ∧ r.awaits)) :
    ProcInv m' r ∧ ¬ (q.awaits ∧ r.awaits) := by
  have hlog := h.log_prefix
  cases r with
  | awaiting key =>
    obtain ⟨ans, hphase⟩ := hr
    cases h with
    | store _ _ _ h | request _ _ _ h _ | tick _ _ h =>
      rw [hphase] at h
      cases h
    | receive => exact absurd ⟨rfl, rfl⟩ hpr
  | returned key ans log =>
    exact ⟨⟨hr.1.trans hlog, hr.2⟩, fun h => absurd h.2 Bool.false_ne_true⟩
  | addClientCache | added | getClientFromCache | ticker =>
    exact ⟨trivial, fun h => absurd h.2 Bool.false_ne_true⟩

def CacheInv : Pool (Manager Client) (CacheProc Client) → Prop :=
  Pool.PoolInv ManagerInv ProcInv fun _ p q => ¬ (p.awaits ∧ q.awaits)

theorem step_inv {c c' : Pool (Manager Client) (CacheProc Client)} {l : ℕ × CacheAct Client}
    (hinv : CacheInv c) (h : Pool.step exec c l = some c') : CacheInv c' := by
  refine Pool.PoolInv.step (G := fun _ _ _ _ => True) ?_ ?_ ?_ ?_ ?_ hinv
    (fun _ _ _ _ => trivial) h
  · intro m p q hpq hqp
    exact hpq ⟨hqp.2, hqp.1⟩
  · intro m p a e hI hp he
    have hstep := (cacheStep_of_exec he).1
    exact ⟨hstep.managerInv hI, hstep.procInv hI hp⟩
  · intro m p a e q _ _ hq hpq _ he
    exact (cacheStep_of_exec he).1.other hq hpq
  · intro m p a e q r _ _ _ _ hqr _
    exact hqr
  · intro m p a e n _ _ he hn
    rw [(cacheStep_of_exec he).2] at hn
    exact absurd hn List.not_mem_nil

omit [DecidableEq Client] in
theorem start_inv (now : ℕ) (calls : List (CacheCall Client)) : CacheInv (start now calls) := by
  have hproc : ∀ p ∈ (start now calls).procs, p.awaits = false ∧
      ProcInv (start now calls).shared p := by
    intro p hp
    rcases List.mem_cons.mp hp with rfl | hp
    · exact ⟨rfl, trivial⟩
    · obtain ⟨call, _, rfl⟩ := List.mem_map.mp hp
      cases call with
      | addClientCache key client => exact ⟨rfl, trivial⟩
      | getClientFromCache key => exact ⟨rfl, trivial⟩
  refine ⟨⟨?_, ?_, justified_nil, ?_⟩, ?_, ?_⟩
  · intro key entry h
    cases h
  · intro key c
    constructor
    · rintro ⟨entry, h, _⟩
      cases h
    · intro h
      exact absurd h (not_live_nil _)
  · intro key ans h
    cases h
  · intro i p hp
    exact (hproc p (List.mem_of_getElem? hp)).2
  · intro i j p q _ hp _ h
    rw [(hproc p (List.mem_of_getElem? hp)).1] at h
    exact Bool.false_ne_true h.1

/-- The client cache, for any callers and any interleaving with the recycles. At
    most one call awaits an answer. The manager is then answering that call, for
    its key, and the call can receive. What a call has received was right for its
    key at that time: a client stored under the key and not closed and removed
    since, or `nil` if there was none. A client that was stored only once has
    then never been closed, under any key. -/
theorem cache_protocol (now : ℕ) (calls : List (CacheCall Client))
    (acts : List (ℕ × CacheAct Client)) (c : Pool (Manager Client) (CacheProc Client))
    (hrun : run (Pool.step exec) (start now calls) acts = some c) :
    (∀ (i j : ℕ) key key', c.procs[i]? = some (.awaiting key) →
      c.procs[j]? = some (.awaiting key') → i = j) ∧
    (∀ (i : ℕ) key, c.procs[i]? = some (.awaiting key) → ∀ t, ∃ ans c',
      c.shared.phase = .replying key ans ∧ Pool.step exec c (i, .receive t) = some c' ∧
        c'.procs[i]? = some (.returned key ans c.shared.log)) ∧
    (∀ (i : ℕ) key ans log, c.procs[i]? = some (.returned key ans log) →
      log <+: c.shared.log ∧ AnswerFor log key ans ∧
        ∀ client, ans = some client → (added log).countP (fun x => x.2 = client) ≤ 1 →
          ∀ gone, .remove gone ∈ log → ∀ key', (key', client) ∉ gone) := by
  have hinv : CacheInv c := run_inv' (fun _ _ _ h hs => step_inv h hs) (start_inv now calls) hrun
  refine ⟨?_, ?_, ?_⟩
  · intro i j key key' hi hj
    by_contra hne
    exact hinv.pair i j _ _ hne hi hj ⟨rfl, rfl⟩
  · intro i key hi t
    obtain ⟨ans, hphase⟩ := hinv.each i _ hi
    refine ⟨ans, ⟨{ c.shared with phase := .selecting, latestVisited := t },
      c.procs.set i (.returned key ans c.shared.log) ++ []⟩, hphase, ?_, Pool.getElem?_self hi⟩
    simp only [Pool.step, hi, exec, hphase, Option.map_some]
  · intro i key ans log hi
    obtain ⟨hpre, hjust, hans⟩ := hinv.each i _ hi
    refine ⟨hpre, hans, ?_⟩
    rintro client rfl hone gone hgone key' hmem
    exact not_removed_of_single hjust hans (by simp) hone gone hgone (key', client) hmem (by simp)

/-- A client is stored and found under its key; another key finds nothing; then
    the idle client is recycled. -/
def reuseRun : List (ℕ × CacheAct ℕ) :=
  [(1, .store 1), (2, .request [(7, 0, 0)]), (2, .receive 2), (3, .request []), (3, .receive 3),
    (0, .tick (minute + 4) fun _ _ => 0)]

def reuseCalls : List (CacheCall ℕ) :=
  [.addClientCache (str "k") 7, .getClientFromCache (str "k"), .getClientFromCache (str "z")]

theorem cache_protocol_reuseRun :
    ∃ c log, run (Pool.step exec) (start 0 reuseCalls) reuseRun = some c ∧
      c.procs[2]? = some (.returned (str "k") (some 7) log) ∧
      c.procs[3]? = some (.returned (str "z") none log) ∧ c.shared.data (str "k") = none ∧
      AnswerFor log (str "k") (some 7) ∧ AnswerFor log (str "z") none :=
  ⟨_, _, rfl, rfl, rfl, rfl,
    ((cache_protocol 0 reuseCalls reuseRun _ rfl).2.2 2 (str "k") (some 7) _ rfl).2.1,
    ((cache_protocol 0 reuseCalls reuseRun _ rfl).2.2 3 (str "z") none _ rfl).2.1⟩

/-! ## Calls and what they store -/

/-- The key a `getClientFromCache` call asks for, wherever it stands. -/
def CacheProc.lookupKey : CacheProc Client → Option GoString
  | getClientFromCache key => some key
  | awaiting key => some key
  | returned key _ _ => some key
  | addClientCache _ _ | added | ticker => none

/-- A call asks for one key throughout. -/
theorem lookupKey_descends {now : ℕ} {calls : List (CacheCall Client)}
    {acts : List (ℕ × CacheAct Client)} {c : Pool (Manager Client) (CacheProc Client)}
    (hrun : run (Pool.step exec) (start now calls) acts = some c) :
    Pool.Descends (fun p₀ p => p.lookupKey = p₀.lookupKey) (start now calls) c := by
  refine Pool.run_descends (fun _ => rfl) (fun m p₀ p a e hst he => ?_) hrun
  obtain ⟨hstep, hnone⟩ := cacheStep_of_exec he
  refine ⟨?_, hnone⟩
  rw [← hst]
  generalize e.shared = m', e.proc = q at hstep
  cases hstep <;> rfl

/-- Everything that has been stored was stored by one of the calls. -/
def StoredBy (calls : List (CacheCall Client)) (m : Manager Client) : Prop :=
  ∀ key client, .add (key, client) ∈ m.log → CacheCall.addClientCache key client ∈ calls

/-- A process that is about to store is one of the calls. -/
def AddsFrom (calls : List (CacheCall Client)) (p : CacheProc Client) : Prop :=
  ∀ key client, p = .addClientCache key client → CacheCall.addClientCache key client ∈ calls

omit [DecidableEq Client] in
theorem start_addsFrom (now : ℕ) (calls : List (CacheCall Client)) :
    ∀ p ∈ (start now calls).procs, AddsFrom calls p := by
  rintro p hp key client rfl
  rcases List.mem_cons.mp hp with heq | hmem
  · cases heq
  · obtain ⟨call, hcall, heq⟩ := List.mem_map.mp hmem
    cases call with
    | addClientCache key' client' =>
      cases heq
      exact hcall
    | getClientFromCache key' => cases heq

theorem CacheStep.storedBy {calls : List (CacheCall Client)} {m m' : Manager Client}
    {p q : CacheProc Client} (h : CacheStep m p m' q) (hm : StoredBy calls m)
    (hp : AddsFrom calls p) : StoredBy calls m' ∧ AddsFrom calls q := by
  cases h with
  | store key client now h =>
    refine ⟨fun key' client' hmem => ?_, fun key' client' hq => by cases hq⟩
    rcases List.mem_append.mp hmem with hmem | hmem
    · exact hm key' client' hmem
    · cases List.mem_singleton.mp hmem
      exact hp key client rfl
  | request | receive => exact ⟨hm, fun key' client' hq => by cases hq⟩
  | tick now refs h =>
    refine ⟨fun key' client' hmem => hm key' client' ?_, fun key' client' hq => by cases hq⟩
    unfold Manager.tick at hmem
    split_ifs at hmem
    · simpa using hmem
    · exact hmem

/-- Whatever the log has put in, a call has stored. -/
theorem stored_of_added {now : ℕ} {calls : List (CacheCall Client)}
    {acts : List (ℕ × CacheAct Client)} {c : Pool (Manager Client) (CacheProc Client)}
    (hrun : run (Pool.step exec) (start now calls) acts = some c) {key : GoString}
    {client : Client} (h : .add (key, client) ∈ c.shared.log) :
    CacheCall.addClientCache key client ∈ calls := by
  have hinv : Pool.PoolInv (StoredBy calls) (fun _ => AddsFrom calls) (fun _ _ _ => True) c := by
    refine run_inv' (fun c l c' hc h => ?_) ⟨?_, ?_, fun _ _ _ _ _ _ _ => trivial⟩ hrun
    · refine Pool.PoolInv.step (G := fun _ _ _ _ => True) (fun _ _ _ _ => trivial) ?_ ?_
        (fun _ _ _ _ _ _ _ _ _ _ _ _ => trivial) ?_ hc (fun _ _ _ _ => trivial) h
      · intro m p a e hm hp he
        exact (cacheStep_of_exec he).1.storedBy hm hp
      · intro m p a e q _ _ hq _ _ _
        exact ⟨hq, trivial⟩
      · intro m p a e n _ _ he hn
        rw [(cacheStep_of_exec he).2] at hn
        exact absurd hn List.not_mem_nil
    · intro key client hmem
      exact absurd hmem List.not_mem_nil
    · intro i p hp
      exact start_addsFrom now calls p (List.mem_of_getElem? hp)
  exact hinv.shared key client h

end GoJump.SrvConn.SSHManager
