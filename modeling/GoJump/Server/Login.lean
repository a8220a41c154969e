import GoJump.Auth.UserAuth
import GoJump.Lib.Run

/-!
# From the requests of a client to a user

Model of the way from the requests of a client to the user of its connection: the callbacks
of `config` and `HandleConn` (`pkg/ssh/server.go` lines 116–164, 262–307), `applyConnMetadata`
(`pkg/ssh/context.go` lines 110–120), `PasswordAuth` and `PublicKeyAuth`
(`pkg/server/sshHandler.go` lines 40–61).

Each request of a client has a name of its own. `NewServerConn` asks the callbacks, and returns
after one of them has granted a request; `conn.User()` is the name of that request. It keeps
answers for public keys, so that the callback may have been asked some time before.

* `run_loginInv`: the user of the connection was authenticated by one of its requests, under
  the name and from the address of its first one.
-/

namespace GoJump.Server

open GoJump.Go GoJump.Lib GoJump.Model
open GoJump.Auth.UserAuth
open GoJump.Core.LoginLimit (AuthResult userIsBlocked userIsBlocked_eq_false)
open GoJump.Core.Otp (OtpStore)

/-! ## The callbacks -/

/-- What `gossh.ConnMetadata` tells of a request; `remoteAddr` is the host. -/
structure ConnMetadata where
  user : GoString
  sessionID : GoString
  remoteAddr : GoString
  deriving DecidableEq

/-- `hex.EncodeToString`. -/
def encodeToString (src : GoString) : GoString :=
  let digit (n : UInt8) : UInt8 := if n < 10 then 48 + n else 87 + n
  src.flatMap fun b => [digit (b / 16), digit (b % 16)]

/-- The context of a connection to which metadata was applied, with the value that the
    handlers leave under `ctxID`. -/
structure Context extends SSHContext where
  sessionID : GoString
  ctxID : Option GoString
  deriving DecidableEq

/-- `applyConnMetadata`: later metadata changes nothing. -/
def applyConnMetadata (ctx : Option Context) (conn : ConnMetadata) : Context :=
  match ctx with
  | some ctx => ctx
  | none => ⟨⟨conn.user, conn.remoteAddr, none, none, none⟩, encodeToString conn.sessionID, none⟩

/-- The fields of `model.TerminalConfig` that `PasswordAuth` and `PublicKeyAuth` read. -/
structure AuthConfig where
  passwordAuth : Bool
  publicKeyAuth : Bool
  deriving DecidableEq

def AuthConfig.enables (conf : AuthConfig) : Attempt → Bool
  | .password _ => conf.passwordAuth
  | .publicKey _ => conf.publicKeyAuth

/-- `PasswordAuth` and `PublicKeyAuth`. -/
def authHandler (env : AuthEnv) (conf : AuthConfig) (input : AttemptInput) (core : CoreState)
    (ctx : Context) : Bool × CoreState × Context :=
  let ctx := { ctx with ctxID := some ctx.sessionID }
  if conf.enables input.attempt then
    let r := sshPasswordAndPublicKeyAuth env input core ctx.toSSHContext
    (r.1, r.2.1, { ctx with toSSHContext := r.2.2 })
  else (false, core, ctx)

/-! ## The connection -/

structure Login where
  core : CoreState
  ctx : Option Context
  /-- the names of the requests that a callback has granted -/
  granted : List GoString
  /-- `conn.User()`, once `NewServerConn` has returned -/
  connUser : Option GoString

def Login.new (core : CoreState) : Login := ⟨core, none, [], none⟩

inductive LoginAct
  /-- a callback is asked about a request -/
  | request (conn : ConnMetadata) (conf : AuthConfig) (input : AttemptInput)
  /-- `NewServerConn` returns -/
  | accept (name : GoString)

/-- After its return `NewServerConn` asks no callback. -/
def loginStep (env : AuthEnv) (s : Login) : LoginAct → Option Login
  | .request conn conf input =>
    if s.connUser = none then
      let r := authHandler env conf input (input.others s.core) (applyConnMetadata s.ctx conn)
      some { s with
        core := r.2.1, ctx := some r.2.2
        granted := if r.1 then s.granted ++ [conn.user] else s.granted }
    else none
  | .accept name =>
    if s.connUser = none ∧ name ∈ s.granted then some { s with connUser := some name } else none

/-- The metadata of the first request. -/
def firstRequest : List LoginAct → Option ConnMetadata
  | [] => none
  | .request conn _ _ :: _ => some conn
  | .accept _ :: acts => firstRequest acts

theorem firstRequest_append (as bs : List LoginAct) :
    firstRequest (as ++ bs) = (firstRequest as).or (firstRequest bs) := by
  induction as with
  | nil => rfl
  | cons a as ih =>
    cases a with
    | request conn conf input => rfl
    | accept name => exact ih

/-! ## Who is authenticated -/

/-- The database with the same tables in which every query succeeds. -/
def noFailures (db : AuthDB) : AuthDB :=
  { db with userFails := fun _ => none, secretFails := fun _ => none }

theorem getUser_noFailures {db : AuthDB} {name : GoString} {u : UserRow}
    (h : db.getUser name = .ok u) :
    (noFailures db).getUser name = .ok u := by
  unfold AuthDB.getUser at h
  cases hfails : db.userFails name with
  | some err =>
    rw [hfails] at h
    cases h
  | none =>
    rw [hfails] at h
    exact h

theorem checkSecret_noFailures {env : AuthEnv} {db : AuthDB} {u : UserRow} {pass pubKey : GoString}
    (h : checkSecret env db u pass pubKey = true) :
    checkSecret env (noFailures db) u pass pubKey = true := by
  unfold checkSecret AuthDB.getSecret at h
  cases hfails : db.secretFails u.id with
  | some err =>
    rw [hfails] at h
    cases h
  | none =>
    rw [hfails] at h
    exact h

/-- Nobody is authenticated by a query that fails. -/
theorem userAuthenticate_noFailures {env : AuthEnv} {db : AuthDB} {otp : OtpStore}
    {name pass pubKey : GoString} {u : UserRow}
    (h : (userAuthenticate env db otp name pass pubKey).1 = some u) :
    (userAuthenticate env (noFailures db) otp name pass pubKey).1 = some u := by
  unfold userAuthenticate at h ⊢
  cases hget : db.getUser name with
  | error err =>
    rw [hget] at h
    cases h
  | ok v =>
    rw [hget] at h
    rw [getUser_noFailures hget]
    dsimp only at h ⊢
    by_cases hactive : v.isActive = false
    · rw [if_pos hactive] at h
      cases h
    rw [if_neg hactive] at h ⊢
    by_cases hotp : v.otpLevel = 1
    · rw [if_pos hotp] at h ⊢
      exact h
    rw [if_neg hotp] at h ⊢
    by_cases hcheck : checkSecret env db v pass pubKey = true
    · rw [if_pos (checkSecret_noFailures hcheck)]
      rw [if_pos hcheck] at h
      exact h
    · rw [if_neg hcheck] at h
      cases h

/-- What makes an attempt be accepted, and for whom. -/
structure Authenticates (env : AuthEnv) (core : CoreState) (login addr : GoString)
    (input : AttemptInput) (u : UserRow) : Prop where
  notBlocked : core.limit.count (loginName login) < env.maxTryLogin
  mem : ∃ row ∈ input.db.user, row.structScan = u
  name : u.username = loginName login
  active : u.isActive = true
  verifies : Verifies env core.otp.otpassword input.db u input.attempt
  admits : u.Admits addr input.now

theorem authenticates_of_success {env : AuthEnv} {core : CoreState} {login addr : GoString}
    {input : AttemptInput} {r : (UserRow × AuthResult) × OtpStore}
    (hr : authenticate env input.db core ⟨input.attempt.args.1, input.attempt.args.2, addr⟩
      input.now
      (loginName login) = r) (hsuccess : r.1.2 = .authSuccess) :
    Authenticates env core login addr input r.1.1 := by
  unfold authenticate at hr
  by_cases hblock : userIsBlocked env.maxTryLogin core.limit (loginName login) = true
  · rw [if_pos hblock] at hr
    rw [← hr] at hsuccess
    cases hsuccess
  rw [if_neg hblock] at hr
  rcases hauth : userAuthenticate env input.db core.otp (loginName login) input.attempt.args.1
    input.attempt.args.2 with ⟨_ | u, otp⟩
  · rw [hauth] at hr
    rw [← hr] at hsuccess
    cases hsuccess
  rw [hauth] at hr
  dsimp only at hr
  split_ifs at hr with hlist hexpired
  · rw [← hr] at hsuccess
    cases hsuccess
  · rw [← hr] at hsuccess
    cases hsuccess
  · rw [← hr]
    have hqueries : (noFailures input.db).QueriesSucceed := ⟨fun _ => rfl, fun _ => rfl⟩
    obtain ⟨⟨row, hrow, hname, rfl⟩, hactive, hverifies⟩ :=
      (userAuthenticate_fst env hqueries core.otp (loginName login) input.attempt u).mp
        (userAuthenticate_noFailures (congrArg Prod.fst hauth))
    have hadmits := (admits_iff (structScan_addrWhiteList_ne row)).mpr
      ⟨Bool.eq_false_iff.mpr hlist, hexpired⟩
    exact ⟨userIsBlocked_eq_false.mp (Bool.eq_false_iff.mpr hblock), ⟨row, hrow, rfl⟩, hname,
      hactive, hverifies, hadmits⟩

/-- What an attempt leaves in the context. -/
theorem sshPasswordAndPublicKeyAuth_ctx (env : AuthEnv) (input : AttemptInput) (core : CoreState)
    (ctx : SSHContext) :
    let r := sshPasswordAndPublicKeyAuth env input core ctx
    r.2.2.user = ctx.user ∧ r.2.2.remoteAddr = ctx.remoteAddr ∧
    r.2.2.directLoginFormat = (parseUserFormatBySeparator ctx.user).or ctx.directLoginFormat ∧
    ((r.1 = false ∧ r.2.2.authUser = ctx.authUser) ∨
      (r.1 = true ∧ ∃ u, r.2.2.authUser = some u ∧
        Authenticates env core ctx.user ctx.remoteAddr input u)) := by
  intro r
  have hr : r = authAnswer core { ctx with
      directLoginFormat := parseUserFormatBySeparator ctx.user <|> ctx.directLoginFormat
      client := some ⟨input.attempt.args.1, input.attempt.args.2, ctx.remoteAddr⟩ }
      (loginName ctx.user)
      (authenticate env input.db core ⟨input.attempt.args.1, input.attempt.args.2, ctx.remoteAddr⟩
        input.now (loginName ctx.user)) := rfl
  have hformat : (parseUserFormatBySeparator ctx.user <|> ctx.directLoginFormat) =
      (parseUserFormatBySeparator ctx.user).or ctx.directLoginFormat := Option.orElse_eq_or
  rw [hr]
  generalize hres :
    authenticate env input.db core ⟨input.attempt.args.1, input.attempt.args.2, ctx.remoteAddr⟩
      input.now (loginName ctx.user) = res
  unfold authAnswer
  cases hresult : res.1.2 with
  | authSuccess =>
    exact ⟨rfl, rfl, hformat, .inr ⟨rfl, res.1.1, rfl, authenticates_of_success hres hresult⟩⟩
  | authFailed => exact ⟨rfl, rfl, hformat, .inl ⟨rfl, rfl⟩⟩
  | authBlock => exact ⟨rfl, rfl, hformat, .inl ⟨rfl, rfl⟩⟩

theorem authHandler_ctx (env : AuthEnv) (conf : AuthConfig) (input : AttemptInput)
    (core : CoreState) (ctx : Context) :
    let r := authHandler env conf input core ctx
    r.2.2.user = ctx.user ∧ r.2.2.remoteAddr = ctx.remoteAddr ∧ r.2.2.sessionID = ctx.sessionID ∧
    r.2.2.ctxID = some ctx.sessionID ∧
    ((r.1 = false ∧ r.2.2.authUser = ctx.authUser ∧
        (r.2.2.directLoginFormat = ctx.directLoginFormat ∨
          r.2.2.directLoginFormat = (parseUserFormatBySeparator ctx.user).or
            ctx.directLoginFormat)) ∨
      (r.1 = true ∧ conf.enables input.attempt = true ∧
        r.2.2.directLoginFormat = (parseUserFormatBySeparator ctx.user).or ctx.directLoginFormat ∧
        ∃ u, r.2.2.authUser = some u ∧
          Authenticates env core ctx.user ctx.remoteAddr input u)) := by
  intro r
  have hr : r = if conf.enables input.attempt = true then
      ((sshPasswordAndPublicKeyAuth env input core ctx.toSSHContext).1,
        (sshPasswordAndPublicKeyAuth env input core ctx.toSSHContext).2.1,
        ⟨(sshPasswordAndPublicKeyAuth env input core ctx.toSSHContext).2.2, ctx.sessionID,
          some ctx.sessionID⟩)
      else (false, core, { ctx with ctxID := some ctx.sessionID }) := rfl
  obtain ⟨huser, haddr, hformat, hcases⟩ :=
    sshPasswordAndPublicKeyAuth_ctx env input core ctx.toSSHContext
  rw [hr]
  split_ifs with henabled
  · refine ⟨huser, haddr, rfl, rfl, ?_⟩
    rcases hcases with ⟨hfalse, hsame⟩ | ⟨htrue, hauth⟩
    · exact .inl ⟨hfalse, hsame, .inr hformat⟩
    · exact .inr ⟨htrue, henabled, hformat, hauth⟩
  · exact ⟨rfl, rfl, rfl, rfl, .inl ⟨rfl, rfl, .inl rfl⟩⟩

/-! ## The user of a connection -/

/-- One of the requests has authenticated `u`, in the state that it found. -/
def AuthenticatedBy (env : AuthEnv) (core : CoreState) (acts : List LoginAct)
    (login addr : GoString) (u : UserRow) : Prop :=
  ∃ pre conn conf input post s, acts = pre ++ LoginAct.request conn conf input :: post ∧
    run (loginStep env) (.new core) pre = some s ∧ conf.enables input.attempt = true ∧
    Authenticates env (input.others s.core) login addr input u

theorem AuthenticatedBy.append {env : AuthEnv} {core : CoreState} {acts : List LoginAct}
    {login addr : GoString} {u : UserRow} (h : AuthenticatedBy env core acts login addr u)
    (more : List LoginAct) : AuthenticatedBy env core (acts ++ more) login addr u := by
  obtain ⟨pre, conn, conf, input, post, s, rfl, hrest⟩ := h
  exact ⟨pre, conn, conf, input, post ++ more, s, by rw [List.append_assoc, List.cons_append],
    hrest⟩

/-- What the requests have left of a connection. -/
structure LoginInv (env : AuthEnv) (core : CoreState) (acts : List LoginAct) (s : Login) :
    Prop where
  /-- name, address and session are those of the first request -/
  first : (s.ctx.map fun ctx => (ctx.user, ctx.remoteAddr, ctx.sessionID)) =
    (firstRequest acts).map fun conn => (conn.user, conn.remoteAddr, encodeToString conn.sessionID)
  ctxID : ∀ ctx ∈ s.ctx, ctx.ctxID = some ctx.sessionID
  format : ∀ ctx ∈ s.ctx, ctx.directLoginFormat = none ∨
    ctx.directLoginFormat = parseUserFormatBySeparator ctx.user
  user : ∀ ctx ∈ s.ctx, ∀ u ∈ ctx.authUser, AuthenticatedBy env core acts ctx.user ctx.remoteAddr u
  granted : s.granted ≠ [] → ∃ ctx ∈ s.ctx, ctx.authUser.isSome = true ∧
    ctx.directLoginFormat = parseUserFormatBySeparator ctx.user
  connUser : ∀ name ∈ s.connUser, name ∈ s.granted

theorem or_of_none_or_eq {α : Type} {x y : Option α} (h : y = none ∨ y = x) : x.or y = x := by
  rcases h with rfl | rfl
  · exact Option.or_none
  · exact Option.or_self

theorem loginInv_new (env : AuthEnv) (core : CoreState) : LoginInv env core [] (.new core) where
  first := rfl
  ctxID := nofun
  format := nofun
  user := nofun
  granted h := absurd rfl h
  connUser := nofun

section Step

variable {env : AuthEnv} {core : CoreState} {acts : List LoginAct} {s s' : Login}

/-- The context after `applyConnMetadata`. -/
theorem LoginInv.applied (h : LoginInv env core acts s) (conn : ConnMetadata) (conf : AuthConfig)
    (input : AttemptInput) :
    let ctx := applyConnMetadata s.ctx conn
    some (ctx.user, ctx.remoteAddr, ctx.sessionID) =
      ((firstRequest (acts ++ [.request conn conf input])).map
      fun conn => (conn.user, conn.remoteAddr, encodeToString conn.sessionID)) ∧
    (ctx.directLoginFormat = none ∨ ctx.directLoginFormat = parseUserFormatBySeparator ctx.user) ∧
    (∀ u ∈ ctx.authUser, AuthenticatedBy env core acts ctx.user ctx.remoteAddr u) ∧
    (s.granted ≠ [] → ctx.authUser.isSome = true ∧
      ctx.directLoginFormat = parseUserFormatBySeparator ctx.user) := by
  have hfirst := h.first
  rw [firstRequest_append]
  rcases hctx : s.ctx with _ | ctx
  · rw [hctx] at hfirst
    rw [Option.map_eq_none_iff.mp hfirst.symm]
    refine ⟨rfl, .inl rfl, nofun, fun hne => ?_⟩
    obtain ⟨ctx, hmem, -⟩ := h.granted hne
    rw [hctx] at hmem
    cases hmem
  · rw [hctx] at hfirst
    obtain ⟨first, hsome, hvalues⟩ := Option.map_eq_some_iff.mp hfirst.symm
    rw [hsome]
    refine ⟨congrArg some hvalues.symm, h.format ctx hctx, h.user ctx hctx, fun hne => ?_⟩
    obtain ⟨ctx', hmem, hgranted⟩ := h.granted hne
    rw [hctx] at hmem
    cases hmem
    exact hgranted

theorem LoginInv.request (hrun : run (loginStep env) (.new core) acts = some s)
    (h : LoginInv env core acts s) {conn : ConnMetadata} {conf : AuthConfig} {input : AttemptInput}
    (hstep : loginStep env s (.request conn conf input) = some s') :
    LoginInv env core (acts ++ [.request conn conf input]) s' := by
  obtain ⟨hnone, hstep⟩ := Option.ite_none_right_eq_some.mp hstep
  obtain ⟨hfirst, hformat, huser, hgranted⟩ := h.applied conn conf input
  obtain ⟨hname, haddr, hid, hctxID, hcases⟩ :=
    authHandler_ctx env conf input (input.others s.core) (applyConnMetadata s.ctx conn)
  generalize applyConnMetadata s.ctx conn = ctx at *
  generalize authHandler env conf input (input.others s.core) ctx = r at *
  cases hstep
  have hor := or_of_none_or_eq hformat
  refine ⟨?_, ?_, ?_, ?_, ?_, ?_⟩
  · show some (r.2.2.user, r.2.2.remoteAddr, r.2.2.sessionID) = _
    rw [hname, haddr, hid]
    exact hfirst
  · rintro _ ⟨⟩
    rw [hctxID, hid]
  · rintro _ ⟨⟩
    rw [hname]
    rcases hcases with ⟨-, -, hsame | hset⟩ | ⟨-, -, hset, -⟩
    · rw [hsame]
      exact hformat
    · exact .inr (hset.trans hor)
    · exact .inr (hset.trans hor)
  · rintro _ ⟨⟩ u hu
    rw [hname, haddr]
    rcases hcases with ⟨-, hsame, -⟩ | ⟨-, henabled, -, v, hv, hauth⟩
    · rw [hsame] at hu
      exact (huser u hu).append _
    · rw [hv] at hu
      cases hu
      exact ⟨acts, conn, conf, input, [], s, rfl, hrun, henabled, hauth⟩
  · intro hne
    refine ⟨_, rfl, ?_⟩
    rw [hname]
    rcases hcases with ⟨hrefused, hsame, hset⟩ | ⟨-, -, hset, v, hv, -⟩
    · dsimp only at hne
      rw [hrefused] at hne
      obtain ⟨hsome, hformat⟩ := hgranted hne
      rw [hsame]
      refine ⟨hsome, ?_⟩
      rcases hset with hset | hset
      · exact hset.trans hformat
      · exact hset.trans hor
    · exact ⟨by rw [hv]; rfl, hset.trans hor⟩
  · intro name hmem
    cases hnone.symm.trans hmem

theorem LoginInv.accept (h : LoginInv env core acts s) {name : GoString}
    (hstep : loginStep env s (.accept name) = some s') :
    LoginInv env core (acts ++ [.accept name]) s' := by
  obtain ⟨⟨-, hgranted⟩, hstep⟩ := Option.ite_none_right_eq_some.mp hstep
  cases hstep
  refine { h with first := ?_, user := ?_, connUser := ?_ }
  · rw [firstRequest_append]
    exact h.first.trans (congrArg _ Option.or_none.symm)
  · exact fun ctx hctx u hu => (h.user ctx hctx u hu).append _
  · rintro _ ⟨⟩
    exact hgranted

end Step

theorem run_loginInv (env : AuthEnv) (core : CoreState) : ∀ acts s,
    run (loginStep env) (.new core) acts = some s → LoginInv env core acts s := by
  apply run_history
  · exact loginInv_new env core
  · intro acts s a s' hrun h hstep
    cases a with
    | request conn conf input => exact h.request hrun hstep
    | accept name => exact h.accept hstep

end GoJump.Server
