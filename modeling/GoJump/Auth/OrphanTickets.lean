import GoJump.Auth.LoginConfirm

/-!
# Tickets that nobody waits for

The ticket of a login is in the table before `getReviewers` is asked, and an error there
ends `validateLoginConfirm` (`pkg/core/auth.go` lines 39–49, `pkg/proxy/loginConfirm.go`
lines 15–23). On the runs of `Auth.LoginConfirm`:

* `orphan_ticket`: the query of the reviewers fails, and the ticket stays pending.
* `no_orphans_iff`: when every pending ticket of a run has a login that waits for it.
-/

namespace GoJump.Auth.LoginConfirm

open GoJump.Go GoJump.Lib

/-- No login that has returned has left its ticket pending. -/
def Settled (c : Pool TicketStore TicketProc) : Prop :=
  ∀ (i : ℕ) res id, c.procs[i]? = some (.returned res) → res.ticketId = some id →
    c.shared.table.hits id = false

/-- The login has inserted this ticket and has not returned. -/
def TicketProc.WaitsFor (id : GoString) : TicketProc → Prop
  | reviewers id' => id' = id
  | waiting id' => id' = id
  | needConfirm _ | insert _ | returned _ | admin _ | adminDone => False

/-- Every pending ticket that is not one of the older ones has a login that waits for it. -/
def Awaited (old : TicketTable) (c : Pool TicketStore TicketProc) : Prop :=
  ∀ id, c.shared.table.hits id = true → id ∈ old.rows.map LoginTicket.ticketId ∨
    ∃ p ∈ c.procs, p.WaitsFor id

/-- The ticket of a login that returns because a statement fails: the query of the
    reviewers, or the update that closes the ticket. -/
def givesUp : TicketProc → Outcome → Option GoString
  | .reviewers id, .fails => some id
  | .waiting id, .done false _ => some id
  | _, _ => none

/-- The condition on a statement: such a ticket has been decided before. -/
def FailsDecided (s : TicketStore) (p : TicketProc) (a : Outcome) : Prop :=
  ∀ id ∈ givesUp p a, s.table.hits id = false

def FailsDecidedAt (c : Pool TicketStore TicketProc) (l : ℕ × Outcome) : Prop :=
  ∀ p ∈ c.procs[l.1]?, FailsDecided c.shared p l.2

instance (c : Pool TicketStore TicketProc) (l : ℕ × Outcome) : Decidable (FailsDecidedAt c l) :=
  inferInstanceAs (Decidable (∀ p ∈ c.procs[l.1]?, ∀ id ∈ givesUp p l.2,
    c.shared.table.hits id = false))

/-! ## One statement -/

/-- A decided ticket stays decided. -/
theorem StoreStep.hits_eq_false {s s' : TicketStore} (h : StoreStep s s') {id : GoString}
    {r : LoginTicket} (hr : s.table.select id = some r) (hid : s.table.hits id = false) :
    s'.table.hits id = false := by
  have hne : r.state ≠ .pending := by
    intro hp
    rw [TicketTable.hits_iff.mpr ⟨r, hr, hp⟩] at hid
    cases hid
  rw [← Bool.not_eq_true, TicketTable.hits_iff]
  rintro ⟨r', hr', hp⟩
  rw [(h.final id r hr hne).1] at hr'
  cases hr'
  exact hne hp

/-- A login keeps its ticket. -/
theorem exec_keeps {s : TicketStore} {p : TicketProc} {a : Outcome}
    {e : Effect TicketStore TicketProc} (h : exec s p a = some e) {id : GoString}
    (hid : p.ticketId = some id) : e.proc.ticketId = some id := by
  cases p with
  | needConfirm | insert | admin | adminDone => cases hid
  | returned res => cases h
  | reviewers id' =>
    cases a with
    | fails | applies => cases h; exact hid
    | needs | inserts | done => cases h
  | waiting id' =>
    cases a with
    | fails => cases h; exact hid
    | applies date => cases h; exact (poll_ticketId s id').trans hid
    | done applied date => cases applied <;> (cases h; exact hid)
    | needs | inserts => cases h

/-- The tickets after a statement are those before it, and that of its login. -/
theorem ProcStep.rows {s s' : TicketStore} {p q : TicketProc} (h : ProcStep s p s' q)
    {r : LoginTicket} (hr : r ∈ s'.table.rows) :
    r.ticketId ∈ s.table.rows.map LoginTicket.ticketId ∨ q.ticketId = some r.ticketId := by
  have hupdate : ∀ d date, r ∈ (s.updateTicketState d date).table.rows →
      r.ticketId ∈ s.table.rows.map LoginTicket.ticketId := by
    intro d date hr
    obtain ⟨r₀, hr₀, rfl⟩ := List.mem_map.mp hr
    rw [TicketTable.decideRow_ticketId]
    exact List.mem_map_of_mem hr₀
  cases h with
  | noTicket | read => exact Or.inl (List.mem_map_of_mem hr)
  | insert r' hr' hfresh =>
    rcases List.mem_append.mp hr with hr | hr
    · exact Or.inl (List.mem_map_of_mem hr)
    · rw [List.mem_singleton.mp hr]
      exact Or.inr rfl
  | cancel id date => exact Or.inl (hupdate _ date hr)
  | admin d date => exact Or.inl (hupdate d date hr)

/-- The ticket of a login that was told a decision is decided. -/
theorem ProcInv.hits_eq_false {s : TicketStore} {p : TicketProc} (h : ProcInv s p)
    (htold : ∀ r, p.Told r → r.state ≠ .pending) {id : GoString} (hid : p.ticketId = some id) :
    s.table.hits id = false := by
  obtain ⟨r, hr, _, ht⟩ := h id hid
  rw [← Bool.not_eq_true, TicketTable.hits_iff]
  rintro ⟨r', hr', hp⟩
  rw [hr] at hr'
  cases hr'
  exact htold r ht hp

/-- The process has not returned with a pending ticket. -/
def TicketProc.NotLeft (s : TicketStore) (p : TicketProc) : Prop :=
  ∀ res id, p = .returned res → res.ticketId = some id → s.table.hits id = false

/-- What the login has returned. -/
def TicketProc.result : TicketProc → Option ConfirmResult
  | returned res => some res
  | needConfirm _ | insert _ | reviewers _ | waiting _ | admin _ | adminDone => none

theorem notLeft_of_not_returned {s : TicketStore} {p : TicketProc} (h : p.result = none) :
    p.NotLeft s := by
  intro res id hres _
  rw [hres] at h
  cases h

theorem notLeft_of_none {s : TicketStore} {res : ConfirmResult} (h : res.ticketId = none) :
    (TicketProc.returned res).NotLeft s := by
  rintro res' id hres hid
  cases hres
  rw [h] at hid
  cases hid

theorem notLeft_of_told {s : TicketStore} {res : ConfirmResult}
    (h : ProcInv s (.returned res))
    (htold : ∀ r, (TicketProc.returned res).Told r → r.state ≠ .pending) :
    (TicketProc.returned res).NotLeft s := by
  rintro res' id hres hid
  cases hres
  exact h.hits_eq_false htold hid

theorem notLeft_iff {s : TicketStore} {res : ConfirmResult} {id : GoString}
    (h : res.ticketId = some id) :
    (TicketProc.returned res).NotLeft s ↔ s.table.hits id = false := by
  constructor
  · intro hleft
    exact hleft res id rfl h
  · rintro hid res' id' hres hid'
    cases hres
    rw [h] at hid'
    cases hid'
    exact hid

/-- What a poll returns is decided. -/
theorem notLeft_poll {s : TicketStore} {id : GoString} (h : ProcInv s (poll s id)) :
    (poll s id).NotLeft s := by
  revert h
  unfold poll
  split
  · exact fun _ => notLeft_of_not_returned rfl
  · exact fun h => notLeft_of_told h fun r ht hp => by simp [TicketProc.Told, hp] at ht
  · exact fun h => notLeft_of_told h fun r ht hp => by simp [TicketProc.Told, hp] at ht
  · exact fun h => notLeft_of_told h fun r ht hp => by simp [TicketProc.Told, hp] at ht
  · exact fun _ => notLeft_of_not_returned rfl

theorem failsDecided_of_none {s : TicketStore} {p : TicketProc} {a : Outcome}
    (h : givesUp p a = none) : FailsDecided s p a := by
  intro id hid
  rw [h] at hid
  cases hid

theorem notLeft_iff_failsDecided {s : TicketStore} {p : TicketProc} {a : Outcome}
    {res : ConfirmResult} {id : GoString} (hres : res.ticketId = some id)
    (h : givesUp p a = some id) :
    (TicketProc.returned res).NotLeft s ↔ FailsDecided s p a := by
  rw [notLeft_iff hres, FailsDecided, h]
  simp

/-- A statement leaves no pending ticket behind exactly under the condition. -/
theorem exec_notLeft_iff {s : TicketStore} {p : TicketProc} {a : Outcome}
    {e : Effect TicketStore TicketProc} (h : exec s p a = some e) (hinv : ProcInv e.shared e.proc) :
    e.proc.NotLeft e.shared ↔ FailsDecided s p a := by
  cases p with
  | needConfirm req =>
    cases a with
    | fails => cases h; exact iff_of_true (notLeft_of_none rfl) (failsDecided_of_none rfl)
    | needs need =>
      cases h
      cases need with
      | true => exact iff_of_true (notLeft_of_not_returned rfl) (failsDecided_of_none rfl)
      | false => exact iff_of_true (notLeft_of_none rfl) (failsDecided_of_none rfl)
    | inserts | applies | done => cases h
  | insert req =>
    cases a with
    | fails => cases h; exact iff_of_true (notLeft_of_none rfl) (failsDecided_of_none rfl)
    | inserts id date =>
      simp only [exec] at h
      split_ifs at h
      cases h
      exact iff_of_true (notLeft_of_not_returned rfl) (failsDecided_of_none rfl)
    | needs | applies | done => cases h
  | reviewers id =>
    cases a with
    | fails => cases h; exact notLeft_iff_failsDecided rfl rfl
    | applies date =>
      cases h
      exact iff_of_true (notLeft_of_not_returned rfl) (failsDecided_of_none rfl)
    | needs | inserts | done => cases h
  | waiting id =>
    cases a with
    | fails => cases h; exact iff_of_true (notLeft_of_not_returned rfl) (failsDecided_of_none rfl)
    | applies date => cases h; exact iff_of_true (notLeft_poll hinv) (failsDecided_of_none rfl)
    | done applied date =>
      cases applied with
      | true =>
        cases h
        exact iff_of_true (notLeft_of_told hinv fun r ht => ht) (failsDecided_of_none rfl)
      | false => cases h; exact notLeft_iff_failsDecided rfl rfl
    | needs | inserts => cases h
  | returned res => cases h
  | admin cmd =>
    cases a with
    | fails | applies =>
      cases h
      exact iff_of_true (notLeft_of_not_returned rfl) (failsDecided_of_none rfl)
    | needs | inserts | done => cases h
  | adminDone => cases h

/-! ## Runs -/

/-- Every ticket that is not one of the older ones belongs to a login of the pool. -/
def Owned (old : TicketTable) (c : Pool TicketStore TicketProc) : Prop :=
  ∀ r ∈ c.shared.table.rows, r.ticketId ∈ old.rows.map LoginTicket.ticketId ∨
    ∃ p ∈ c.procs, p.ticketId = some r.ticketId

/-- The invariant of the runs that leave no ticket behind. -/
structure OrphanInv (old : TicketTable) (c : Pool TicketStore TicketProc) : Prop where
  tickets : TicketInv c
  owned : Owned old c
  settled : Settled c

theorem Owned.step {old : TicketTable} {c c' : Pool TicketStore TicketProc} {l : ℕ × Outcome}
    (h : Owned old c) (hstep : Pool.step exec c l = some c') : Owned old c' := by
  obtain ⟨i, a⟩ := l
  obtain ⟨p, e, hp, he, hsh, hpr⟩ := Pool.step_cases hstep
  have hself : e.proc ∈ c'.procs := by
    rw [hpr]
    exact List.mem_of_getElem? (Pool.getElem?_self hp)
  intro r hr
  rw [hsh] at hr
  rcases (procStep_of_exec he).1.rows hr with hold | hnew
  · obtain ⟨r₀, hr₀, hid⟩ := List.mem_map.mp hold
    rw [← hid]
    rcases h r₀ hr₀ with hold | ⟨q, hq, hqid⟩
    · exact Or.inl hold
    · right
      obtain ⟨j, hj⟩ := List.mem_iff_getElem?.mp hq
      by_cases hij : i = j
      · subst hij
        rw [hp] at hj
        cases hj
        exact ⟨e.proc, hself, exec_keeps he hqid⟩
      · refine ⟨q, ?_, hqid⟩
        rw [hpr]
        apply List.mem_append_left
        exact List.mem_of_getElem? (by rw [List.getElem?_set_ne hij]; exact hj)
  · exact Or.inr ⟨e.proc, hself, hnew⟩

/-- The logins that stand still leave nothing behind either. -/
theorem Settled.step_iff {c c' : Pool TicketStore TicketProc} {l : ℕ × Outcome}
    (hinv : TicketInv c) (hsettled : Settled c) (hstep : Pool.step exec c l = some c') :
    Settled c' ↔ FailsDecidedAt c l := by
  have hinv' := step_inv hinv hstep
  obtain ⟨i, a⟩ := l
  obtain ⟨p, e, hp, he, hsh, hpr⟩ := Pool.step_cases hstep
  have hself : c'.procs[i]? = some e.proc := by
    rw [hpr]
    exact Pool.getElem?_self hp
  have hproc := hinv'.each i e.proc hself
  rw [hsh] at hproc
  have hiff := exec_notLeft_iff he hproc
  have hat : FailsDecidedAt c (i, a) ↔ FailsDecided c.shared p a := by
    unfold FailsDecidedAt
    dsimp only
    rw [hp]
    simp
  rw [hat, ← hiff]
  constructor
  · intro h res id hres hid
    rw [← hsh]
    exact h i res id (by rw [hself, hres]) hid
  · intro h j res id hj hid
    rw [hpr] at hj
    rw [hsh]
    rcases Pool.getElem?_after (List.getElem?_eq_some_iff.mp hp).1 hj with ⟨_, heq⟩ | ⟨_, hold⟩ |
      ⟨_, hnew⟩
    · exact h res id heq.symm hid
    · obtain ⟨r, hr, _⟩ := hinv.each j _ hold id hid
      exact (procStep_of_exec he).1.storeStep.hits_eq_false hr (hsettled j res id hold hid)
    · rw [(procStep_of_exec he).2] at hnew
      exact absurd hnew List.not_mem_nil

/-- When no login has left its ticket behind, the pending tickets have logins that wait. -/
theorem OrphanInv.awaited {old : TicketTable} {c : Pool TicketStore TicketProc}
    (h : OrphanInv old c) : Awaited old c := by
  intro id hid
  obtain ⟨r, hr, _⟩ := TicketTable.hits_iff.mp hid
  obtain ⟨hmem, rfl⟩ := TicketTable.select_eq_some.mp hr
  rcases h.owned r hmem with hold | ⟨p, hp, hpid⟩
  · exact Or.inl hold
  · refine Or.inr ⟨p, hp, ?_⟩
    cases p with
    | reviewers id' | waiting id' => exact Option.some.inj hpid
    | needConfirm | insert | admin | adminDone => cases hpid
    | returned res =>
      obtain ⟨i, hi⟩ := List.mem_iff_getElem?.mp hp
      rw [h.settled i res _ hi hpid] at hid
      cases hid

/-- For any older tickets, logins and administrators and any run of their statements: in
    every state of the run the logins that have returned have left no pending ticket, and
    every pending ticket of the run has a login that waits for it, exactly if the query of
    the reviewers and the closing update fail only when the ticket has been decided. -/
theorem no_orphans_iff (old : TicketTable) (logins : List LoginRequest)
    (admins : List AdminCommand) (acts : List (ℕ × Outcome)) (c : Pool TicketStore TicketProc)
    (hrun : run (Pool.step exec) (start old logins admins) acts = some c) :
    (∀ t ∈ states (Pool.step exec) (start old logins admins) acts, Settled t ∧ Awaited old t) ↔
      Meets (Pool.step exec) FailsDecidedAt (start old logins admins) acts := by
  have hstart : OrphanInv old (start old logins admins) := by
    refine ⟨start_inv old logins admins, fun r hr => Or.inl (List.mem_map_of_mem hr), ?_⟩
    intro i res id hi hid
    rcases List.mem_append.mp (List.mem_of_getElem? hi) with h | h
    · obtain ⟨req, _, hreq⟩ := List.mem_map.mp h
      cases hreq
    · obtain ⟨cmd, _, hcmd⟩ := List.mem_map.mp h
      cases hcmd
  have hholds : ∀ t, OrphanInv old t → Settled t ∧ Awaited old t :=
    fun t ht => ⟨ht.settled, ht.awaited⟩
  have hstep : ∀ t l t', OrphanInv old t → FailsDecidedAt t l →
      Pool.step exec t l = some t' → OrphanInv old t' := fun t l t' ht hG h =>
    ⟨step_inv ht.tickets h, ht.owned.step h, (Settled.step_iff ht.tickets ht.settled h).mpr hG⟩
  have hconv : ∀ t l t', OrphanInv old t → Pool.step exec t l = some t' →
      Settled t' ∧ Awaited old t' → FailsDecidedAt t l := fun t l t' ht h hP =>
    (Settled.step_iff ht.tickets ht.settled h).mp hP.1
  exact (meets_iff_states hholds hstep hconv acts _ c hstart hrun).symm

/-- A login whose query of the reviewers fails: `validateLoginConfirm` returns, and the
    ticket is pending. -/
theorem orphan_ticket :
    ∃ c, run (Pool.step exec)
        (start ⟨[], List.nodup_nil⟩ [⟨str "ann", str "web", str "root"⟩] [])
        [(0, .needs true), (0, .inserts (str "t0") []), (0, .fails)] = some c ∧
      c.procs = [.returned (.error (some (str "t0")))] ∧
      c.shared.table.hits (str "t0") = true :=
  ⟨_, rfl, by decide, by decide⟩

theorem no_orphans_approveRun :
    ∃ c, run (Pool.step exec) approveStart approveRun = some c ∧
      ∀ t ∈ states (Pool.step exec) approveStart approveRun,
        Settled t ∧ Awaited ⟨[], List.nodup_nil⟩ t :=
  ⟨_, rfl, (no_orphans_iff _ _ _ approveRun _ (rfl : run _ approveStart _ = _)).mpr (by decide)⟩

end GoJump.Auth.LoginConfirm
