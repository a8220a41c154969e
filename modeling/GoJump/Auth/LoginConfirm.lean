import GoJump.Go.Strings
import GoJump.Lib.Pool
import GoJump.Lib.Table

/-!
# The login-ticket protocol

A login on an asset whose grant has `NeedConfirm` set inserts a ticket into
`LOGINTICKET` and waits until an administrator has approved or rejected it, or
until the user cancels. Modelled here:

* `CheckIfNeedAssetLoginConfirm`, `CheckConfirmStatusByRequestInfo`,
  `CancelConfirmByRequestInfo` and `UpdateTicketState` (`pkg/core/auth.go` lines
  15–78), each SQL statement as one atomic step that may fail;
* `CheckIsNeedLoginConfirm`, `waitConfirmFinish` and `cancelConfirm`
  (`pkg/auth/loginConfirm.go` lines 39–108) and the result of
  `validateLoginConfirm` (`pkg/proxy/loginConfirm.go` lines 14–93);
* `updateTicketState` of the administrator's console (`pkg/handler/admin.go`
  lines 68–78).

A run of `Pool.step exec` is one interleaving of the statements of any number of
logins and administrators on a table with arbitrary older tickets. `decisions`
lists the updates that changed a row; it is not in the code.

`ticket_protocol`: a ticket leaves `pending` at most once and is final then; a
login is told what the decision was; after a successful cancel the ticket is
decided; and an approval lets one login through.
-/

namespace GoJump.Auth.LoginConfirm

open GoJump.Go GoJump.Lib

/-! ## The table `LOGINTICKET` -/

/-- The column `state` (`pkg/model/ticket.go` lines 8–13). `other` is any other
    text; `other []` is what `QueryTwoField` leaves when no row matches. -/
inductive TicketState
  | pending
  | approved
  | rejected
  | closed
  | other (text : GoString)
  deriving DecidableEq

/-- A row of `LOGINTICKET` (`model.LoginTicket`). -/
structure LoginTicket where
  ticketId : GoString
  state : TicketState
  approver : GoString
  applicationDate : GoString
  approveDate : GoString
  username : GoString
  assetName : GoString
  sysUsername : GoString
  deriving DecidableEq

/-- The table: ticket ids are fresh when they are inserted, so no two rows share
    one. -/
structure TicketTable where
  rows : List LoginTicket
  nodup : (rows.map LoginTicket.ticketId).Nodup

namespace TicketTable

/-- The row a `SELECT ... WHERE ticketid = ?` leaves in its destination: the last
    one that matches. -/
def select (t : TicketTable) (id : GoString) : Option LoginTicket :=
  (t.rows.filter fun r => r.ticketId = id).getLast?

/-- `INSERT INTO LOGINTICKET VALUES ?`. -/
def insert (t : TicketTable) (r : LoginTicket) (h : r.ticketId ∉ t.rows.map LoginTicket.ticketId) :
    TicketTable where
  rows := t.rows ++ [r]
  nodup := by
    rw [List.map_append, List.nodup_append]
    refine ⟨t.nodup, by simp, ?_⟩
    intro a ha b hb
    simp only [List.map_cons, List.map_nil, List.mem_singleton] at hb
    subst hb
    rintro rfl
    exact h ha

/-- The assignment of `UpdateTicketState` to one row (`pkg/core/auth.go` lines 73–78):
    `SET state = ?, approver = ?, approvedate = ? WHERE ticketid = ? AND state = 'pending'`. -/
def decideRow (id : GoString) (state : TicketState) (user date : GoString) (r : LoginTicket) :
    LoginTicket :=
  if r.ticketId = id ∧ r.state = .pending then
    { r with state := state, approver := user, approveDate := date }
  else r

@[simp] theorem decideRow_ticketId (id : GoString) (state : TicketState) (user date : GoString)
    (r : LoginTicket) : (decideRow id state user date r).ticketId = r.ticketId := by
  unfold decideRow
  split_ifs <;> rfl

/-- `UpdateTicketState(ticketId, state, user)` at time `date`. -/
def update (t : TicketTable) (id : GoString) (state : TicketState) (user date : GoString) :
    TicketTable where
  rows := t.rows.map (decideRow id state user date)
  nodup := by
    have : (t.rows.map (decideRow id state user date)).map LoginTicket.ticketId =
        t.rows.map LoginTicket.ticketId := by
      simp [Function.comp_def]
    rw [this]
    exact t.nodup

/-- The update matches a row. -/
def hits (t : TicketTable) (id : GoString) : Bool :=
  t.rows.any fun r => r.ticketId = id ∧ r.state = .pending

/-- The row with a given id is unique. -/
theorem select_eq_some {t : TicketTable} {id : GoString} {r : LoginTicket} :
    t.select id = some r ↔ r ∈ t.rows ∧ r.ticketId = id :=
  getLast?_filter_key t.nodup

theorem select_eq_none {t : TicketTable} {id : GoString} :
    t.select id = none ↔ id ∉ t.rows.map LoginTicket.ticketId := by
  rw [select, List.getLast?_eq_none_iff, List.filter_eq_nil_iff, List.mem_map]
  constructor
  · rintro h ⟨r, hr, rfl⟩
    exact h r hr (by simp)
  · intro h r hr heq
    exact h ⟨r, hr, by simpa using heq⟩

theorem hits_iff {t : TicketTable} {id : GoString} :
    t.hits id = true ↔ ∃ r, t.select id = some r ∧ r.state = .pending := by
  simp only [hits, List.any_eq_true, decide_eq_true_eq, select_eq_some, and_assoc]

theorem select_update (t : TicketTable) (id : GoString) (state : TicketState)
    (user date id' : GoString) :
    (t.update id state user date).select id' =
      (t.select id').map (decideRow id state user date) := by
  unfold select update
  simp only [List.filter_map, Function.comp_def, decideRow_ticketId, List.getLast?_map]

theorem select_insert_self (t : TicketTable) (r : LoginTicket)
    (h : r.ticketId ∉ t.rows.map LoginTicket.ticketId) :
    (t.insert r h).select r.ticketId = some r :=
  select_eq_some.mpr ⟨by simp [insert], rfl⟩

theorem select_insert_of_some {t : TicketTable} {r s : LoginTicket} {id : GoString}
    (h : r.ticketId ∉ t.rows.map LoginTicket.ticketId) (hs : t.select id = some s) :
    (t.insert r h).select id = some s := by
  obtain ⟨h1, h2⟩ := select_eq_some.mp hs
  exact select_eq_some.mpr ⟨by simp [insert, h1], h2⟩

end TicketTable

/-! ## Logins and administrators -/

/-- An update that changed a row: by an administrator, or by a login that closed
    its own ticket. -/
inductive Decision
  | decide (admin ticketId : GoString) (approve : Bool)
  | close (ticketId : GoString)
  deriving DecidableEq

def Decision.ticketId : Decision → GoString
  | decide _ id _ => id
  | close id => id

/-- The state it writes: the console's `approve` and `reject`
    (`pkg/handler/admin.go` lines 48–53), or `CancelConfirmByRequestInfo`. -/
def Decision.state : Decision → TicketState
  | decide _ _ approve => if approve then .approved else .rejected
  | close _ => .closed

/-- The approver it writes. -/
def Decision.user : Decision → GoString
  | decide admin _ _ => admin
  | close _ => []

/-- The row carries what the decision wrote. -/
def Decision.Wrote (d : Decision) (r : LoginTicket) : Prop :=
  r.ticketId = d.ticketId ∧ r.state = d.state ∧ r.approver = d.user

structure TicketStore where
  table : TicketTable
  decisions : List Decision

/-- `UpdateTicketState` with the arguments of `d`. -/
def TicketStore.updateTicketState (s : TicketStore) (d : Decision) (date : GoString) :
    TicketStore where
  table := s.table.update d.ticketId d.state d.user date
  decisions := if s.table.hits d.ticketId then s.decisions ++ [d] else s.decisions

/-- What `validateLoginConfirm` was called for. -/
structure LoginRequest where
  username : GoString
  assetName : GoString
  sysUsername : GoString
  deriving DecidableEq

/-- How `validateLoginConfirm` ended. The ticket id is the one the call has
    inserted. -/
inductive ConfirmResult
  /-- `CheckIsNeedLoginConfirm` returned an error -/
  | error (ticketId : Option GoString)
  | notNeeded
  /-- `StatusApprove`, with `GetApprover()` -/
  | approve (ticketId approver : GoString)
  /-- `StatusReject`, with `GetApprover()` -/
  | reject (ticketId approver : GoString)
  /-- `StatusCancel`; `updated` is false when the cancel update failed -/
  | cancel (ticketId : GoString) (updated : Bool)
  deriving DecidableEq

/-- The value `validateLoginConfirm` returns. -/
def ConfirmResult.success : ConfirmResult → Bool
  | notNeeded => true
  | approve _ _ => true
  | error _ | reject _ _ | cancel _ _ => false

def ConfirmResult.ticketId : ConfirmResult → Option GoString
  | error id => id
  | notNeeded => none
  | approve id _ | reject id _ | cancel id _ => some id

/-- A command of the administrator's console. -/
structure AdminCommand where
  username : GoString
  ticketId : GoString
  approve : Bool
  deriving DecidableEq

inductive TicketProc
  /-- a login: the `SELECT needconfirm` comes next -/
  | needConfirm (req : LoginRequest)
  /-- a login: the `INSERT` comes next -/
  | insert (req : LoginRequest)
  /-- a login: `getReviewers` comes next -/
  | reviewers (ticketId : GoString)
  /-- a login in `waitConfirmFinish` -/
  | waiting (ticketId : GoString)
  | returned (res : ConfirmResult)
  | admin (cmd : AdminCommand)
  | adminDone
  deriving DecidableEq

/-- The outcome of a statement; `done` is the case of `ctx.Done()`, whose update
    is applied or fails. -/
inductive Outcome
  | fails
  | needs (need : Bool)
  | inserts (ticketId date : GoString)
  | applies (date : GoString)
  | done (applied : Bool) (date : GoString)
  deriving DecidableEq

/-- `CheckConfirmStatusByRequestInfo`: state and approver of the row. -/
def TicketStore.confirmStatus (s : TicketStore) (id : GoString) : TicketState × GoString :=
  match s.table.select id with
  | some r => (r.state, r.approver)
  | none => (.other [], [])

/-- One round of `waitConfirmFinish` whose `SELECT` succeeded. -/
def poll (s : TicketStore) (id : GoString) : TicketProc :=
  match s.confirmStatus id with
  | (.pending, _) => .waiting id
  | (.approved, approver) => .returned (.approve id approver)
  | (.rejected, approver) | (.closed, approver) => .returned (.reject id approver)
  | (.other _, _) => .waiting id

/-- One atomic statement. -/
def exec (s : TicketStore) (p : TicketProc) (a : Outcome) :
    Option (Effect TicketStore TicketProc) :=
  match p, a with
  | .needConfirm _, .fails => some { shared := s, proc := .returned (.error none) }
  | .needConfirm req, .needs need =>
    some { shared := s, proc := if need then .insert req else .returned .notNeeded }
  | .insert _, .fails => some { shared := s, proc := .returned (.error none) }
  | .insert req, .inserts id date =>
    if h : id ∈ s.table.rows.map LoginTicket.ticketId then none
    else
      some { shared := { s with table := s.table.insert ⟨id, .pending, [], date, [], req.username,
                                  req.assetName, req.sysUsername⟩ h },
             proc := .reviewers id }
  | .reviewers id, .fails => some { shared := s, proc := .returned (.error (some id)) }
  | .reviewers id, .applies _ => some { shared := s, proc := .waiting id }
  | .waiting id, .fails => some { shared := s, proc := .waiting id }
  | .waiting id, .applies _ => some { shared := s, proc := poll s id }
  | .waiting id, .done true date =>
    some { shared := s.updateTicketState (.close id) date,
           proc := .returned (.cancel id true) }
  | .waiting id, .done false _ => some { shared := s, proc := .returned (.cancel id false) }
  | .admin _, .fails => some { shared := s, proc := .adminDone }
  | .admin cmd, .applies date =>
    some { shared := s.updateTicketState (.decide cmd.username cmd.ticketId cmd.approve) date,
           proc := .adminDone }
  | _, _ => none

/-- Any number of logins and administrators on a table of older tickets. -/
def start (old : TicketTable) (logins : List LoginRequest) (admins : List AdminCommand) :
    Pool TicketStore TicketProc :=
  ⟨⟨old, []⟩, logins.map .needConfirm ++ admins.map .admin⟩

/-! ## What a statement does to the store -/

/-- Every statement reads only, inserts a fresh pending ticket, or is a
    conditional update. -/
inductive StoreStep (s : TicketStore) : TicketStore → Prop
  | read : StoreStep s s
  | insert (r : LoginTicket) (hr : r.state = .pending)
      (h : r.ticketId ∉ s.table.rows.map LoginTicket.ticketId) :
      StoreStep s { s with table := s.table.insert r h }
  | update (d : Decision) (date : GoString) : StoreStep s (s.updateTicketState d date)

theorem Decision.state_ne_pending (d : Decision) : d.state ≠ .pending := by
  cases d with
  | decide admin id approve => cases approve <;> simp [state]
  | close id => simp [state]

theorem StoreStep.decisions_subset {s s' : TicketStore} (h : StoreStep s s') {d : Decision}
    (hd : d ∈ s.decisions) : d ∈ s'.decisions := by
  cases h with
  | read => exact hd
  | insert r hr hfresh => exact hd
  | update d' date =>
    unfold TicketStore.updateTicketState
    split_ifs
    · exact List.mem_append_left _ hd
    · exact hd

/-- A row stays as it is, or it was pending and a decision has been written. -/
theorem StoreStep.select {s s' : TicketStore} (h : StoreStep s s') {id : GoString}
    {r : LoginTicket} (hr : s.table.select id = some r) :
    ∃ r', s'.table.select id = some r' ∧
      (r' = r ∨ r.state = .pending ∧ ∃ d ∈ s'.decisions, d.Wrote r') := by
  cases h with
  | read => exact ⟨r, hr, Or.inl rfl⟩
  | insert t ht hfresh => exact ⟨r, TicketTable.select_insert_of_some hfresh hr, Or.inl rfl⟩
  | update d date =>
    refine ⟨_, by
      rw [TicketStore.updateTicketState, TicketTable.select_update, hr, Option.map_some], ?_⟩
    have hid := (TicketTable.select_eq_some.mp hr).2
    unfold TicketTable.decideRow
    split_ifs with hc
    · have hhit : s.table.hits d.ticketId = true :=
        TicketTable.hits_iff.mpr ⟨r, by rw [← hc.1, hid]; exact hr, hc.2⟩
      refine Or.inr ⟨hc.2, d, ?_, hc.1, rfl, rfl⟩
      simp [TicketStore.updateTicketState, hhit]
    · exact Or.inl rfl

/-- A new decision is about a ticket that was pending. -/
theorem StoreStep.decisions_cases {s s' : TicketStore} (h : StoreStep s s') :
    s'.decisions = s.decisions ∨
      ∃ d r r', s'.decisions = s.decisions ++ [d] ∧ s.table.select d.ticketId = some r ∧
        r.state = .pending ∧ s'.table.select d.ticketId = some r' ∧ d.Wrote r' := by
  cases h with
  | read => exact Or.inl rfl
  | insert r hr hfresh => exact Or.inl rfl
  | update d date =>
    by_cases hhit : s.table.hits d.ticketId = true
    · obtain ⟨r, hr, hp⟩ := TicketTable.hits_iff.mp hhit
      have hid := (TicketTable.select_eq_some.mp hr).2
      refine Or.inr ⟨d, r, _, by simp [TicketStore.updateTicketState, hhit], hr, hp, by
        rw [TicketStore.updateTicketState, TicketTable.select_update, hr, Option.map_some], ?_⟩
      rw [TicketTable.decideRow, if_pos ⟨hid, hp⟩]
      exact ⟨hid, rfl, rfl⟩
    · exact Or.inl (by simp [TicketStore.updateTicketState, hhit])

/-- No ticket has two decisions, and the row of a decided ticket is what the
    decision wrote. -/
structure StoreInv (s : TicketStore) : Prop where
  nodup : (s.decisions.map Decision.ticketId).Nodup
  wrote : ∀ d ∈ s.decisions, ∃ r, s.table.select d.ticketId = some r ∧ d.Wrote r

theorem Decision.Wrote.ne_pending {d : Decision} {r : LoginTicket} (h : d.Wrote r) :
    r.state ≠ .pending := by
  rw [h.2.1]
  exact d.state_ne_pending

theorem StoreStep.inv {s s' : TicketStore} (h : StoreStep s s') (hinv : StoreInv s) :
    StoreInv s' := by
  have hold : ∀ d ∈ s.decisions, ∃ r, s'.table.select d.ticketId = some r ∧ d.Wrote r := by
    intro d hd
    obtain ⟨r, hr, hw⟩ := hinv.wrote d hd
    obtain ⟨r', hr', rfl | ⟨hp, _⟩⟩ := h.select hr
    · exact ⟨r', hr', hw⟩
    · exact absurd hp hw.ne_pending
  rcases h.decisions_cases with heq | ⟨d, r, r', heq, hr, hp, hr', hw⟩
  · exact ⟨heq ▸ hinv.nodup, heq ▸ hold⟩
  · refine ⟨?_, ?_⟩
    · rw [heq, List.map_append, List.map_singleton, List.nodup_append]
      refine ⟨hinv.nodup, List.nodup_singleton _, ?_⟩
      intro id hid id' hid'
      rw [List.mem_singleton.mp hid']
      rintro rfl
      -- a ticket with an earlier decision is not pending any more
      obtain ⟨d₀, hd₀, hd₀id⟩ := List.mem_map.mp hid
      obtain ⟨r₀, hr₀, hw₀⟩ := hinv.wrote d₀ hd₀
      rw [hd₀id, hr] at hr₀
      cases hr₀
      exact hw₀.ne_pending hp
    · rw [heq]
      intro d₁ hd₁
      rcases List.mem_append.mp hd₁ with hd₁ | hd₁
      · exact hold d₁ hd₁
      · rw [List.mem_singleton.mp hd₁]
        exact ⟨r', hr', hw⟩

/-- Decided tickets are final: between `s` and `s'` their rows have not changed
    and no decision about them has been made. -/
def Final (s s' : TicketStore) : Prop :=
  ∀ id r, s.table.select id = some r → r.state ≠ .pending →
    s'.table.select id = some r ∧ ∀ d ∈ s'.decisions, d.ticketId = id → d ∈ s.decisions

theorem Final.refl (s : TicketStore) : Final s s :=
  fun _ _ hr _ => ⟨hr, fun _ hd _ => hd⟩

theorem Final.trans {s t u : TicketStore} (h₁ : Final s t) (h₂ : Final t u) : Final s u := by
  intro id r hr hp
  obtain ⟨ht, hdt⟩ := h₁ id r hr hp
  obtain ⟨hu, hdu⟩ := h₂ id r ht hp
  exact ⟨hu, fun d hd hid => hdt d (hdu d hd hid) hid⟩

theorem StoreStep.final {s s' : TicketStore} (h : StoreStep s s') : Final s s' := by
  intro id r hr hp
  refine ⟨?_, ?_⟩
  · obtain ⟨r', hr', rfl | ⟨hp', _⟩⟩ := h.select hr
    · exact hr'
    · exact absurd hp' hp
  · intro d hd hid
    rcases h.decisions_cases with heq | ⟨d', r', _, heq, hr', hp', _, _⟩
    · exact heq ▸ hd
    · rw [heq] at hd
      rcases List.mem_append.mp hd with hd | hd
      · exact hd
      · rw [List.mem_singleton.mp hd] at hid
        rw [hid, hr] at hr'
        cases hr'
        exact absurd hp' hp

/-! ## What a login is told -/

/-- The ticket a login has inserted. -/
def TicketProc.ticketId : TicketProc → Option GoString
  | reviewers id => some id
  | waiting id => some id
  | returned res => res.ticketId
  | needConfirm _ | insert _ | admin _ | adminDone => none

/-- What the row of its ticket must be for a login that has returned. -/
def TicketProc.Told : TicketProc → LoginTicket → Prop
  | returned (.approve _ approver), r => r.state = .approved ∧ r.approver = approver
  | returned (.reject _ approver), r =>
    (r.state = .rejected ∨ r.state = .closed) ∧ r.approver = approver
  | returned (.cancel _ true), r => r.state ≠ .pending
  | _, _ => True

theorem TicketProc.told_of_pending {p : TicketProc} {r : LoginTicket} (h : p.Told r)
    (hp : r.state = .pending) (r' : LoginTicket) : p.Told r' := by
  unfold Told at h
  split at h
  · simp [hp] at h
  · simp [hp] at h
  · exact absurd hp h
  · unfold Told
    split <;> simp_all

/-- A login's ticket is in the table; it is pending or decided in this run, and
    the login was told so. -/
def ProcInv (s : TicketStore) (p : TicketProc) : Prop :=
  ∀ id, p.ticketId = some id → ∃ r, s.table.select id = some r ∧
    (r.state = .pending ∨ ∃ d ∈ s.decisions, d.Wrote r) ∧ p.Told r

theorem ProcInv.storeStep {s s' : TicketStore} {p : TicketProc} (hp : ProcInv s p)
    (h : StoreStep s s') : ProcInv s' p := by
  intro id hid
  obtain ⟨r, hr, hwhy, htold⟩ := hp id hid
  obtain ⟨r', hr', rfl | ⟨hpend, hd⟩⟩ := h.select hr
  · refine ⟨r', hr', ?_, htold⟩
    rcases hwhy with hpend | ⟨d, hd, hw⟩
    · exact Or.inl hpend
    · exact Or.inr ⟨d, h.decisions_subset hd, hw⟩
  · exact ⟨r', hr', Or.inr hd, TicketProc.told_of_pending htold hpend r'⟩

theorem poll_ticketId (s : TicketStore) (id : GoString) : (poll s id).ticketId = some id := by
  unfold poll
  split <;> rfl

/-- A poll returns only what it has read. -/
theorem poll_told {s : TicketStore} {id : GoString} {r : LoginTicket}
    (hr : s.table.select id = some r) : (poll s id).Told r := by
  obtain ⟨tid, state, approver⟩ := r
  unfold poll TicketStore.confirmStatus
  rw [hr]
  cases state with
  | pending => trivial
  | approved => exact ⟨rfl, rfl⟩
  | rejected => exact ⟨Or.inl rfl, rfl⟩
  | closed => exact ⟨Or.inr rfl, rfl⟩
  | other text => trivial

/-- What one statement does to the store and to the process that issues it. -/
inductive ProcStep (s : TicketStore) : TicketProc → TicketStore → TicketProc → Prop
  | noTicket {p q : TicketProc} (hq : q.ticketId = none) : ProcStep s p s q
  | insert {p : TicketProc} (r : LoginTicket) (hr : r.state = .pending)
      (h : r.ticketId ∉ s.table.rows.map LoginTicket.ticketId) :
      ProcStep s p { s with table := s.table.insert r h } (.reviewers r.ticketId)
  | read {p q : TicketProc} (heq : q.ticketId = p.ticketId)
      (htold : ∀ id r, p.ticketId = some id → s.table.select id = some r → q.Told r) :
      ProcStep s p s q
  | cancel (id date : GoString) :
      ProcStep s (.waiting id) (s.updateTicketState (.close id) date) (.returned (.cancel id true))
  | admin {p : TicketProc} (d : Decision) (date : GoString) :
      ProcStep s p (s.updateTicketState d date) .adminDone

theorem procStep_of_exec {s : TicketStore} {p : TicketProc} {a : Outcome}
    {e : Effect TicketStore TicketProc} (h : exec s p a = some e) :
    ProcStep s p e.shared e.proc ∧ e.spawned = [] := by
  cases p with
  | needConfirm req =>
    cases a with
    | fails => cases h; exact ⟨.noTicket rfl, rfl⟩
    | needs need => cases h; cases need <;> exact ⟨.noTicket rfl, rfl⟩
    | inserts | applies | done => cases h
  | insert req =>
    cases a with
    | fails => cases h; exact ⟨.noTicket rfl, rfl⟩
    | inserts id date =>
      simp only [exec] at h
      split_ifs at h with hid
      cases h
      exact ⟨.insert _ rfl hid, rfl⟩
    | needs | applies | done => cases h
  | reviewers id =>
    cases a with
    | fails => cases h; exact ⟨.read rfl fun _ _ _ _ => trivial, rfl⟩
    | applies date => cases h; exact ⟨.read rfl fun _ _ _ _ => trivial, rfl⟩
    | needs | inserts | done => cases h
  | waiting id =>
    cases a with
    | fails => cases h; exact ⟨.read rfl fun _ _ _ _ => trivial, rfl⟩
    | applies date =>
      cases h
      refine ⟨.read (poll_ticketId s id) fun id' r hid hr => ?_, rfl⟩
      cases hid
      exact poll_told hr
    | done applied date =>
      cases applied with
      | true => cases h; exact ⟨.cancel id date, rfl⟩
      | false => cases h; exact ⟨.read rfl fun _ _ _ _ => trivial, rfl⟩
    | needs | inserts => cases h
  | returned res => cases h
  | admin cmd =>
    cases a with
    | fails => cases h; exact ⟨.noTicket rfl, rfl⟩
    | applies date => cases h; exact ⟨.admin _ date, rfl⟩
    | needs | inserts | done => cases h
  | adminDone => cases h

theorem ProcStep.storeStep {s s' : TicketStore} {p q : TicketProc} (h : ProcStep s p s' q) :
    StoreStep s s' := by
  cases h with
  | noTicket | read => exact StoreStep.read
  | insert r hr hfresh => exact StoreStep.insert r hr hfresh
  | cancel id date => exact StoreStep.update _ _
  | admin d date => exact StoreStep.update _ _

/-- A process keeps its ticket, or gets one that no row had. -/
theorem ProcStep.ticketId {s s' : TicketStore} {p q : TicketProc} (h : ProcStep s p s' q)
    {id : GoString} (hid : q.ticketId = some id) :
    p.ticketId = some id ∨ s.table.select id = none := by
  cases h with
  | noTicket hq => rw [hq] at hid; cases hid
  | insert r hr hfresh => cases hid; exact Or.inr (TicketTable.select_eq_none.mpr hfresh)
  | read heq htold => exact Or.inl (heq ▸ hid)
  | cancel id' date => exact Or.inl hid
  | admin d date => cases hid

theorem ProcStep.procInv {s s' : TicketStore} {p q : TicketProc} (h : ProcStep s p s' q)
    (hp : ProcInv s p) : ProcInv s' q := by
  have hstep := h.storeStep
  intro id hid
  cases h with
  | noTicket hq => rw [hq] at hid; cases hid
  | insert r hr hfresh =>
    cases hid
    exact ⟨r, TicketTable.select_insert_self _ _ hfresh, Or.inl hr, trivial⟩
  | read heq htold =>
    rw [heq] at hid
    obtain ⟨r, hr, hwhy, _⟩ := hp id hid
    exact ⟨r, hr, hwhy, htold id r hid hr⟩
  | cancel id' date =>
    cases hid
    obtain ⟨r, hr, _⟩ := hp id rfl
    obtain ⟨r', hr', hwhy', _⟩ := hp.storeStep hstep id rfl
    refine ⟨r', hr', hwhy', ?_⟩
    -- the cancel update leaves no pending row behind
    rw [TicketStore.updateTicketState, TicketTable.select_update, hr, Option.map_some] at hr'
    cases hr'
    unfold TicketTable.decideRow
    split_ifs with hc
    · simp [TicketProc.Told, Decision.state]
    · intro hpend
      exact hc ⟨(TicketTable.select_eq_some.mp hr).2, hpend⟩
  | admin d date => cases hid

/-! ## The protocol -/

/-- The invariant of every configuration: no two logins hold the same ticket. -/
def TicketInv : Pool TicketStore TicketProc → Prop :=
  Pool.PoolInv StoreInv ProcInv fun _ p q => ∀ id, p.ticketId = some id → q.ticketId ≠ some id

theorem start_inv (old : TicketTable) (logins : List LoginRequest) (admins : List AdminCommand) :
    TicketInv (start old logins admins) := by
  have hnone : ∀ p ∈ (start old logins admins).procs, p.ticketId = none := by
    intro p hp
    rcases List.mem_append.mp hp with hp | hp
    · obtain ⟨req, _, rfl⟩ := List.mem_map.mp hp
      rfl
    · obtain ⟨cmd, _, rfl⟩ := List.mem_map.mp hp
      rfl
  refine ⟨⟨List.nodup_nil, fun d hd => absurd hd List.not_mem_nil⟩, ?_, ?_⟩
  · intro i p hp id hid
    rw [hnone p (List.mem_of_getElem? hp)] at hid
    cases hid
  · intro i j p q _ hp _ id hid
    rw [hnone p (List.mem_of_getElem? hp)] at hid
    cases hid

theorem step_inv {c c' : Pool TicketStore TicketProc} {l : ℕ × Outcome} (hinv : TicketInv c)
    (h : Pool.step exec c l = some c') : TicketInv c' := by
  refine Pool.PoolInv.step (G := fun _ _ _ _ => True) ?_ ?_ ?_ ?_ ?_ hinv
    (fun _ _ _ _ => trivial) h
  · intro s p q hpq id hq hp
    exact hpq id hp hq
  · intro s p a e hI hp he
    have hstep := (procStep_of_exec he).1
    exact ⟨hstep.storeStep.inv hI, hstep.procInv hp⟩
  · intro s p a e q _ hp hq hpq _ he
    have hstep := (procStep_of_exec he).1
    refine ⟨hq.storeStep hstep.storeStep, fun id hid hqid => ?_⟩
    -- a fresh ticket is nobody's: the tickets of the others are in the table
    rcases hstep.ticketId hid with hpid | hnone
    · exact hpq id hpid hqid
    · obtain ⟨r, hr, _⟩ := hq id hqid
      rw [hnone] at hr
      cases hr
  · intro s p a e q r _ _ _ _ hqr _
    exact hqr
  · intro s p a e n _ _ he hn
    rw [(procStep_of_exec he).2] at hn
    exact absurd hn List.not_mem_nil

theorem step_final {c c' : Pool TicketStore TicketProc} {l : ℕ × Outcome}
    (h : Pool.step exec c l = some c') : Final c.shared c'.shared := by
  obtain ⟨p, e, _, he, hsh, _⟩ := Pool.step_cases h
  rw [hsh]
  exact (procStep_of_exec he).1.storeStep.final

/-- The login-ticket protocol, for any older tickets, any logins and
    administrators and any order of their statements. Decided tickets are final
    and have one decision; `StatusApprove` means that the ticket is approved, by
    the administrator `GetApprover` names; `StatusReject` means that it is
    rejected or closed; after a cancel whose update succeeded it is not pending;
    and no two logins are let through on one ticket. -/
theorem ticket_protocol (old : TicketTable) (logins : List LoginRequest)
    (admins : List AdminCommand) (acts : List (ℕ × Outcome)) (c : Pool TicketStore TicketProc)
    (hrun : run (Pool.step exec) (start old logins admins) acts = some c) :
    (c.shared.decisions.map Decision.ticketId).Nodup ∧
    (∀ acts' c', run (Pool.step exec) c acts' = some c' → Final c.shared c'.shared) ∧
    (∀ (i : ℕ) id approver, c.procs[i]? = some (.returned (.approve id approver)) →
      ∃ r, c.shared.table.select id = some r ∧ r.state = .approved ∧ r.approver = approver ∧
        Decision.decide approver id true ∈ c.shared.decisions) ∧
    (∀ (i : ℕ) id approver, c.procs[i]? = some (.returned (.reject id approver)) →
      ∃ r, c.shared.table.select id = some r ∧ (r.state = .rejected ∨ r.state = .closed)) ∧
    (∀ (i : ℕ) id, c.procs[i]? = some (.returned (.cancel id true)) →
      ∃ r, c.shared.table.select id = some r ∧ r.state ≠ .pending) ∧
    (∀ (i j : ℕ) id a b, c.procs[i]? = some (.returned (.approve id a)) →
      c.procs[j]? = some (.returned (.approve id b)) → i = j) := by
  have hinv : TicketInv c := run_inv' (fun _ _ _ h hs => step_inv h hs)
    (start_inv old logins admins) hrun
  refine ⟨hinv.shared.nodup, ?_, ?_, ?_, ?_, ?_⟩
  · intro acts' c' h
    exact run_rel (R := fun c c' => Final c.shared c'.shared) (fun _ => Final.refl _)
      (fun _ _ _ => Final.trans) (fun _ _ _ hs => step_final hs) acts' c c' h
  · intro i id approver hp
    obtain ⟨r, hr, hwhy, hst, hap⟩ := hinv.each i _ hp id rfl
    refine ⟨r, hr, hst, hap, ?_⟩
    rcases hwhy with hpend | ⟨d, hd, hid, hdst, hdap⟩
    · rw [hst] at hpend
      cases hpend
    · rw [(TicketTable.select_eq_some.mp hr).2] at hid
      rw [hst] at hdst
      rw [hap] at hdap
      cases d with
      | decide admin id' approve =>
        cases approve with
        | true => cases hid; cases hdap; exact hd
        | false => cases hdst
      | close id' => cases hdst
  · intro i id approver hp
    obtain ⟨r, hr, _, hst, _⟩ := hinv.each i _ hp id rfl
    exact ⟨r, hr, hst⟩
  · intro i id hp
    obtain ⟨r, hr, _, hst⟩ := hinv.each i _ hp id rfl
    exact ⟨r, hr, hst⟩
  · intro i j id a b hi hj
    by_contra hne
    exact hinv.pair i j _ _ hne hi hj id rfl rfl

/-- Two logins wait; an administrator approves the ticket of the first, then the
    second cancels and a late approval of its ticket comes to nothing. -/
def approveRun : List (ℕ × Outcome) :=
  [(0, .needs true), (1, .needs true), (0, .inserts (str "t0") []), (1, .inserts (str "t1") []),
    (0, .applies []), (1, .applies []), (0, .applies []), (2, .applies []), (0, .applies []),
    (1, .done true []), (3, .applies [])]

def approveStart : Pool TicketStore TicketProc :=
  start ⟨[], List.nodup_nil⟩
    [⟨str "ann", str "web", str "root"⟩, ⟨str "bob", str "web", str "root"⟩]
    [⟨str "admin", str "t0", true⟩, ⟨str "admin", str "t1", true⟩]

theorem ticket_protocol_approveRun :
    ∃ c, run (Pool.step exec) approveStart approveRun = some c ∧
      c.procs = [.returned (.approve (str "t0") (str "admin")),
        .returned (.cancel (str "t1") true), .adminDone, .adminDone] ∧
      (c.shared.decisions.map Decision.ticketId).Nodup :=
  ⟨_, rfl, by decide, (ticket_protocol _ _ _ approveRun _ (rfl : run _ approveStart _ = _)).1⟩

end GoJump.Auth.LoginConfirm
