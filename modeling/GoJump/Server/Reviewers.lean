import GoJump.Auth.LoginConfirm
import GoJump.Handler.IdleCheck

/-!
# Reviewers and administrators

The reviewers that a waiting login is told are the users with the role `admin`
(`getReviewers`, `pkg/core/auth.go` lines 80–86). The console in which tickets are decided
is given to the user with the name `admin` (`SessionHandler`, `pkg/server/sshHandler.go`
lines 67–114); its `approve` and `reject` write that name into the ticket
(`pkg/handler/admin.go` lines 48–53, 68–78). Here sessions with and without a console run
over the ticket table of `Auth.LoginConfirm`.

* `decided_by_stranger`: a user named `admin` without the role decides a ticket, and one
  with the role and another name gets no console.
* `only_reviewers_decide_iff`: when the two are the same.
-/

namespace GoJump.Server.Reviewers

open GoJump.Go GoJump.Lib GoJump.Model
open GoJump.Auth.LoginConfirm
open GoJump.Handler (parseAdmin)

/-! ## Sessions -/

/-- The fields of a row of `USER` that sessions and `getReviewers` read. -/
structure UserRow extends User where
  role : GoString
  deriving DecidableEq

/-- `getReviewers` when the query succeeds. -/
def getReviewers (users : List UserRow) : List GoString :=
  (users.filter fun u => u.role = str "admin").map fun u => u.username

/-- What `SessionHandler` finds: the user that authentication has left in the context, who
    is a row of the table, the parts of a direct login, and a terminal. -/
structure Session (users : List UserRow) where
  user : Option UserRow
  directLogin : Bool
  isPty : Bool
  mem : ∀ u ∈ user, u ∈ users

/-- What `SessionHandler` starts. -/
inductive Started
  /-- `NewDirectHandler` and `Proxy` -/
  | directHandler (user : UserRow)
  | adminSystem (user : UserRow)
  | dispatch (user : UserRow)
  | proxyVscode (user : UserRow)
  | nothing
  deriving DecidableEq

/-- `SessionHandler`. -/
def sessionHandler {users : List UserRow} (enableLocalPortForward : Bool) (sess : Session users) :
    Started :=
  match sess.user with
  | none => .nothing
  | some user =>
    if user.id = [] then .nothing
    else if sess.isPty then
      if sess.directLogin then .directHandler user
      else if user.username = str "admin" then .adminSystem user
      else .dispatch user
    else if !enableLocalPortForward then .nothing
    else if sess.directLogin then .proxyVscode user
    else .nothing

/-- The user logs in interactively. -/
def Session.Interactive {users : List UserRow} (sess : Session users) (u : UserRow) : Prop :=
  sess.user = some u ∧ u.id ≠ [] ∧ sess.isPty = true ∧ sess.directLogin = false

/-! ## The server -/

/-- Where a session stands. -/
inductive ServerProc (users : List UserRow)
  | session (sess : Session users)
  /-- the loop of `AdminSystem` -/
  | console (user : UserRow)
  /-- a handler that may log in to an asset -/
  | handler (user : UserRow)
  /-- `validateLoginConfirm` of a handler -/
  | login (user : UserRow) (p : TicketProc)
  | ended

/-- What a session does next, with what it does not control. -/
inductive ServerAct
  | start (enableLocalPortForward : Bool)
  /-- the console reads a line; an update is applied or fails -/
  | line (line : GoString) (applied : Bool) (date : GoString)
  /-- `validateLoginConfirm` is called -/
  | confirm (assetName sysUsername : GoString)
  /-- a statement of `validateLoginConfirm` -/
  | statement (a : Outcome)
  /-- `validateLoginConfirm` has returned -/
  | proceed
  | close

variable {users : List UserRow}

/-- The session after `SessionHandler` has chosen. -/
def Started.proc : Started → ServerProc users
  | adminSystem user => .console user
  | directHandler user | dispatch user | proxyVscode user => .handler user
  | nothing => .ended

/-- A line of the console. The commands that only read leave the tickets alone; an index
    out of range ends the session with the program. -/
def consoleLine (s : TicketStore) (user : UserRow) (line : GoString) (applied : Bool)
    (date : GoString) : Effect TicketStore (ServerProc users) :=
  match parseAdmin line with
  | .updateTicketState id approved =>
    { shared := if applied then s.updateTicketState (.decide user.username id approved) date else s
      proc := .console user }
  | .quit | .outOfRange => { shared := s, proc := .ended }
  | .nothing | .help | .listTable _ | .genOTPassword _ => { shared := s, proc := .console user }

/-- One step of a session. -/
def serverExec (s : TicketStore) (p : ServerProc users) (a : ServerAct) :
    Option (Effect TicketStore (ServerProc users)) :=
  match p, a with
  | .session sess, .start fwd => some { shared := s, proc := (sessionHandler fwd sess).proc }
  | .console user, .line line applied date => some (consoleLine s user line applied date)
  | .handler user, .confirm assetName sysUsername =>
    some { shared := s, proc := .login user (.needConfirm ⟨user.username, assetName, sysUsername⟩) }
  | .login user p, .statement a =>
    (exec s p a).map fun e => { shared := e.shared, proc := .login user e.proc }
  | .login user (.returned _), .proceed => some { shared := s, proc := .handler user }
  | .console _, .close | .handler _, .close => some { shared := s, proc := .ended }
  | _, _ => none

/-- Any number of sessions on a table of older tickets. -/
def serverStart (old : TicketTable) (sessions : List (Session users)) :
    Pool TicketStore (ServerProc users) :=
  ⟨⟨old, []⟩, sessions.map .session⟩

/-- Every ticket that has become approved or rejected carries a reviewer as its approver. -/
def OnlyReviewers (users : List UserRow) (old : TicketTable)
    (c : Pool TicketStore (ServerProc users)) : Prop :=
  ∀ id r, c.shared.table.select id = some r → r.state = .approved ∨ r.state = .rejected →
    old.select id = some r ∨ r.approver ∈ getReviewers users

/-- Every reviewer who logs in interactively is given the console. -/
def ReviewersGetConsole (sessions : List (Session users)) : Prop :=
  ∀ sess ∈ sessions, ∀ u, sess.Interactive u → u.username ∈ getReviewers users →
    ∀ fwd, sessionHandler fwd sess = .adminSystem u

/-- The condition on the users who log in interactively: the name is `admin` exactly if a
    row with that name has the role. -/
def NamedByRole (sessions : List (Session users)) : Prop :=
  ∀ sess ∈ sessions, ∀ u, sess.Interactive u →
    (u.username = str "admin" ↔ u.username ∈ getReviewers users)

/-! ## One step -/

/-- Who gets the console. -/
theorem sessionHandler_eq_adminSystem {fwd : Bool} {sess : Session users} {u : UserRow} :
    sessionHandler fwd sess = .adminSystem u ↔ sess.Interactive u ∧ u.username = str "admin" := by
  unfold sessionHandler Session.Interactive
  constructor
  · intro h
    split at h
    · cases h
    · rename_i user huser
      split_ifs at h with hid hpty hdirect hname
      cases h
      exact ⟨⟨huser, hid, hpty, by simpa using hdirect⟩, hname⟩
  · rintro ⟨⟨huser, hid, hpty, hdirect⟩, hname⟩
    rw [huser]
    dsimp only
    rw [if_neg hid, if_pos hpty, if_neg (by simp [hdirect]), if_pos hname]

/-- The process is one of a login, not of an administrator. -/
def IsLogin : TicketProc → Prop
  | .needConfirm _ | .insert _ | .reviewers _ | .waiting _ | .returned _ => True
  | .admin _ | .adminDone => False

/-- What the statements of a login do to the store: nothing, a new pending ticket, or the
    closing of one. -/
inductive LoginStep (s : TicketStore) : TicketStore → Prop
  | read : LoginStep s s
  | insert (r : LoginTicket) (hr : r.state = .pending)
      (h : r.ticketId ∉ s.table.rows.map LoginTicket.ticketId) :
      LoginStep s { s with table := s.table.insert r h }
  | close (id date : GoString) : LoginStep s (s.updateTicketState (.close id) date)

theorem isLogin_poll (s : TicketStore) (id : GoString) : IsLogin (poll s id) := by
  unfold poll
  split <;> trivial

theorem loginStep_of_exec {s : TicketStore} {p : TicketProc} {a : Outcome}
    {e : Effect TicketStore TicketProc} (hp : IsLogin p) (h : exec s p a = some e) :
    IsLogin e.proc ∧ LoginStep s e.shared := by
  cases p with
  | needConfirm req =>
    cases a with
    | fails => cases h; exact ⟨trivial, .read⟩
    | needs need => cases h; cases need <;> exact ⟨trivial, .read⟩
    | inserts | applies | done => cases h
  | insert req =>
    cases a with
    | fails => cases h; exact ⟨trivial, .read⟩
    | inserts id date =>
      simp only [exec] at h
      split_ifs at h with hid
      cases h
      exact ⟨trivial, .insert _ rfl hid⟩
    | needs | applies | done => cases h
  | reviewers id =>
    cases a with
    | fails | applies => cases h; exact ⟨trivial, .read⟩
    | needs | inserts | done => cases h
  | waiting id =>
    cases a with
    | fails => cases h; exact ⟨trivial, .read⟩
    | applies date => cases h; exact ⟨isLogin_poll s id, .read⟩
    | done applied date =>
      cases applied with
      | true => cases h; exact ⟨trivial, .close id date⟩
      | false => cases h; exact ⟨trivial, .read⟩
    | needs | inserts => cases h
  | returned res => cases h
  | admin | adminDone => cases hp

/-- Every decided ticket was so before, or a reviewer has decided it. -/
def TableInv (users : List UserRow) (old : TicketTable) (s : TicketStore) : Prop :=
  ∀ id r, s.table.select id = some r → r.state = .approved ∨ r.state = .rejected →
    old.select id = some r ∨ r.approver ∈ getReviewers users

/-- An update keeps that if it writes a reviewer, or neither of the two states. -/
theorem TableInv.update {old : TicketTable} {s : TicketStore} (h : TableInv users old s)
    (d : Decision) (date : GoString)
    (hd : d.user ∈ getReviewers users ∨ (d.state ≠ .approved ∧ d.state ≠ .rejected)) :
    TableInv users old (s.updateTicketState d date) := by
  intro id r hr hstate
  rw [TicketStore.updateTicketState, TicketTable.select_update] at hr
  obtain ⟨r₀, hr₀, rfl⟩ := Option.map_eq_some_iff.mp hr
  unfold TicketTable.decideRow at hstate ⊢
  split_ifs at hstate ⊢ with hc
  · rcases hd with hd | ⟨h1, h2⟩
    · exact Or.inr hd
    · rcases hstate with hstate | hstate
      · exact absurd hstate h1
      · exact absurd hstate h2
  · exact h id r₀ hr₀ hstate

theorem TableInv.loginStep {old : TicketTable} {s s' : TicketStore} (h : TableInv users old s)
    (hstep : LoginStep s s') : TableInv users old s' := by
  cases hstep with
  | read => exact h
  | insert t ht hfresh =>
    intro id r hr hstate
    obtain ⟨hmem, rfl⟩ := TicketTable.select_eq_some.mp hr
    rcases List.mem_append.mp hmem with hmem | hmem
    · exact h r.ticketId r (TicketTable.select_eq_some.mpr ⟨hmem, rfl⟩) hstate
    · rw [List.mem_singleton.mp hmem, ht] at hstate
      rcases hstate with hstate | hstate <;> cases hstate
  | close id date =>
    exact h.update _ date (Or.inr ⟨by simp [Decision.state], by simp [Decision.state]⟩)

/-- A console belongs to a reviewer, and a login is none of an administrator. -/
def SessionInv (sessions : List (Session users)) : ServerProc users → Prop
  | .session sess => sess ∈ sessions
  | .console user => user.username ∈ getReviewers users
  | .login _ p => IsLogin p
  | .handler _ | .ended => True

theorem consoleLine_inv {old : TicketTable} {sessions : List (Session users)} {s : TicketStore}
    {user : UserRow} (h : TableInv users old s) (huser : user.username ∈ getReviewers users)
    (line : GoString) (applied : Bool) (date : GoString) :
    let e : Effect TicketStore (ServerProc users) := consoleLine s user line applied date
    TableInv users old e.shared ∧ SessionInv sessions e.proc ∧ e.spawned = [] := by
  unfold consoleLine
  dsimp only
  split
  · cases applied with
    | true => exact ⟨h.update _ date (Or.inl huser), huser, rfl⟩
    | false => exact ⟨h, huser, rfl⟩
  · exact ⟨h, trivial, rfl⟩
  · exact ⟨h, trivial, rfl⟩
  · exact ⟨h, huser, rfl⟩
  · exact ⟨h, huser, rfl⟩
  · exact ⟨h, huser, rfl⟩
  · exact ⟨h, huser, rfl⟩

theorem serverExec_statement (s : TicketStore) (user : UserRow) (p : TicketProc) (a : Outcome) :
    serverExec s (.login user p : ServerProc users) (.statement a) =
      (exec s p a).map fun e => { shared := e.shared, proc := .login user e.proc } := by
  cases p <;> rfl

theorem serverExec_inv {old : TicketTable} {sessions : List (Session users)}
    (hnamed : NamedByRole sessions) {s : TicketStore} {p : ServerProc users} {a : ServerAct}
    {e : Effect TicketStore (ServerProc users)} (hs : TableInv users old s)
    (hp : SessionInv sessions p) (h : serverExec s p a = some e) :
    TableInv users old e.shared ∧ SessionInv sessions e.proc ∧ e.spawned = [] := by
  cases p with
  | session sess =>
    cases a with
    | start fwd =>
      cases h
      refine ⟨hs, ?_, rfl⟩
      cases hstarted : sessionHandler fwd sess with
      | adminSystem user =>
        obtain ⟨hint, hname⟩ := sessionHandler_eq_adminSystem.mp hstarted
        exact (hnamed sess hp user hint).mp hname
      | directHandler | dispatch | proxyVscode | nothing => trivial
    | line | confirm | statement | proceed | close => cases h
  | console user =>
    cases a with
    | line line applied date => cases h; exact consoleLine_inv hs hp line applied date
    | close => cases h; exact ⟨hs, trivial, rfl⟩
    | start | confirm | statement | proceed => cases h
  | handler user =>
    cases a with
    | confirm assetName sysUsername => cases h; exact ⟨hs, trivial, rfl⟩
    | close => cases h; exact ⟨hs, trivial, rfl⟩
    | start | line | statement | proceed => cases h
  | login user q =>
    cases a with
    | statement a =>
      rw [serverExec_statement] at h
      obtain ⟨e', he', rfl⟩ := Option.map_eq_some_iff.mp h
      obtain ⟨hlogin, hstep⟩ := loginStep_of_exec hp he'
      exact ⟨hs.loginStep hstep, hlogin, rfl⟩
    | proceed =>
      cases q with
      | returned res => cases h; exact ⟨hs, trivial, rfl⟩
      | needConfirm | insert | reviewers | waiting | admin | adminDone => cases h
    | start | line | confirm | close => cases q <;> cases h
  | ended => cases h

/-! ## Runs -/

/-- When the names follow the roles, no run writes another approver. -/
theorem onlyReviewers_run {old : TicketTable} {sessions : List (Session users)}
    (hnamed : NamedByRole sessions) {acts : List (ℕ × ServerAct)}
    {c : Pool TicketStore (ServerProc users)}
    (hrun : run (Pool.step serverExec) (serverStart old sessions) acts = some c) :
    OnlyReviewers users old c := by
  have hstart : TableInv users old (serverStart old sessions).shared ∧
      ∀ p ∈ (serverStart old sessions).procs, SessionInv sessions p := by
    refine ⟨fun id r hr _ => Or.inl hr, fun p hp => ?_⟩
    obtain ⟨sess, hsess, rfl⟩ := List.mem_map.mp hp
    exact hsess
  have hstep : ∀ (c : Pool TicketStore (ServerProc users)) l c',
      (TableInv users old c.shared ∧ ∀ p ∈ c.procs, SessionInv sessions p) →
      Pool.step serverExec c l = some c' →
      TableInv users old c'.shared ∧ ∀ p ∈ c'.procs, SessionInv sessions p := by
    rintro c ⟨i, a⟩ c' ⟨hs, hprocs⟩ h
    obtain ⟨p, e, hp, he, hsh, hpr⟩ := Pool.step_cases h
    obtain ⟨hs', hp', hnone⟩ := serverExec_inv hnamed hs (hprocs p (List.mem_of_getElem? hp)) he
    rw [hsh, hpr, hnone, List.append_nil]
    refine ⟨hs', fun q hq => ?_⟩
    rcases List.mem_or_eq_of_mem_set hq with hq | rfl
    · exact hprocs q hq
    · exact hp'
  exact (run_inv' hstep hstart hrun).1

/-- A table with one pending ticket. -/
def pendingTable (id : GoString) : TicketTable :=
  ⟨[⟨id, .pending, [], [], [], [], [], []⟩], List.nodup_singleton _⟩

/-- The user of a console approves the pending ticket. -/
theorem run_approve {sessions : List (Session users)} {i : ℕ} {sess : Session users}
    {u : UserRow} (hi : sessions[i]? = some sess)
    (hconsole : sessionHandler true sess = .adminSystem u) :
    ∃ c, run (Pool.step serverExec) (serverStart (pendingTable (str "t")) sessions)
        [(i, .start true), (i, .line (str "approve t") true [])] = some c ∧
      c.shared.table.select (str "t") =
        some ⟨str "t", .approved, u.username, [], [], [], [], []⟩ := by
  have hproc : (serverStart (pendingTable (str "t")) sessions).procs[i]? =
      some (.session sess) := by
    rw [serverStart, List.getElem?_map, hi]
    rfl
  have hchoose : serverExec (serverStart (pendingTable (str "t")) sessions).shared (.session sess)
      (.start true) = some { shared := ⟨pendingTable (str "t"), []⟩, proc := .console u } := by
    rw [serverExec, hconsole]
    rfl
  have happrove : ∀ s : TicketStore, serverExec s (.console u : ServerProc users)
      (.line (str "approve t") true []) =
        some { shared := s.updateTicketState (.decide u.username (str "t") true) [],
               proc := .console u } := fun s => rfl
  refine ⟨_, run_cons_eq_some.mpr ⟨_, Pool.step_of_exec hproc hchoose, run_cons_eq_some.mpr
    ⟨_, Pool.step_of_exec (Pool.getElem?_self hproc) (happrove _), rfl⟩⟩, rfl⟩

/-- For every `USER` table and every sessions of its users: in every run of the server, on
    any older tickets, the approver of each ticket that has become approved or rejected is
    a reviewer, and every reviewer who logs in interactively gets the console, exactly if
    the users who log in interactively are named `admin` when they are reviewers and only
    then. -/
theorem only_reviewers_decide_iff (users : List UserRow) (sessions : List (Session users)) :
    ((∀ old acts c, run (Pool.step serverExec) (serverStart old sessions) acts = some c →
        OnlyReviewers users old c) ∧ ReviewersGetConsole sessions) ↔ NamedByRole sessions := by
  constructor
  · rintro ⟨hruns, hconsole⟩ sess hsess u hint
    constructor
    · intro hname
      obtain ⟨i, hi⟩ := List.mem_iff_getElem?.mp hsess
      obtain ⟨c, hrun, hrow⟩ := run_approve hi
        (sessionHandler_eq_adminSystem.mpr ⟨hint, hname⟩)
      rcases hruns _ _ c hrun _ _ hrow (Or.inl rfl) with hold | hmem
      · cases hold
      · exact hmem
    · intro hrev
      exact (sessionHandler_eq_adminSystem.mp (hconsole sess hsess u hint hrev true)).2
  · intro hnamed
    refine ⟨fun old acts c hrun => onlyReviewers_run hnamed hrun, ?_⟩
    intro sess hsess u hint hrev fwd
    exact sessionHandler_eq_adminSystem.mpr ⟨hint, (hnamed sess hsess u hint).mpr hrev⟩

/-! ### A name without the role, and the role without the name -/

def plainAdmin : UserRow := ⟨⟨str "1", str "admin", []⟩, str "user"⟩

def roleAdmin : UserRow := ⟨⟨str "2", str "carol", []⟩, str "admin"⟩

/-- An interactive session of a user of the table. -/
def interactive {users : List UserRow} (u : UserRow) (hu : u ∈ users) : Session users :=
  ⟨some u, false, true, fun _ hv => Option.mem_some_iff.mp hv ▸ hu⟩

theorem decided_by_stranger :
    let sessions : List (Session [plainAdmin, roleAdmin]) :=
      [interactive plainAdmin (by decide), interactive roleAdmin (by decide)]
    getReviewers [plainAdmin, roleAdmin] = [str "carol"] ∧
    (∃ c, run (Pool.step serverExec) (serverStart (pendingTable (str "t")) sessions)
        [(0, .start true), (0, .line (str "approve t") true [])] = some c ∧
      ∃ r, c.shared.table.select (str "t") = some r ∧ r.state = .approved ∧
        r.approver = str "admin") ∧
    ∀ sess ∈ sessions, sess.Interactive roleAdmin →
      sessionHandler true sess = .dispatch roleAdmin := by
  refine ⟨by decide, ⟨_, rfl, _, rfl, by decide, by decide⟩, ?_⟩
  intro sess hsess hint
  rcases List.mem_pair.mp hsess with rfl | rfl
  · cases hint.1
  · rfl

end GoJump.Server.Reviewers
