import GoJump.Auth.LoginConfirm
import GoJump.Core.Queries
import GoJump.Lib.Trace
import GoJump.SrvConn.ReuseKey

/-!
# `Server.Proxy`

Model of `NewServer` and `Server.Proxy` (`pkg/proxy/server.go` lines 28–198) with
what they call on the way to a shell on the asset: `checkRequiredAuth`,
`getCacheSSHConn`, `CheckPermissionExpired`, `checkLoginConfirm`, `getServerConn`,
`getSSHConn` (lines 225–459) and `NewSSHConnection` (`pkg/srvconn/connSsh.go` lines
10–53). A run is a `Traced` program over a `World`: what the user types, what the
cache answers and which network operations succeed.

* `shell_before_checks`: with `ReuseConnection` set and a cached client, the shell
  is started before the expiry of the grant and the login ticket are looked at.
* `shell_after_checks_iff`: that is the only way; in every other run a shell is
  started only after both checks have passed.
-/

namespace GoJump.Proxy

open GoJump.Go GoJump.Lib GoJump.Model GoJump.Core GoJump.Auth.LoginConfirm
open GoJump.SrvConn.ReuseKey

/-- `ConnectionOptions`: whom to connect where, and as whom. -/
structure ConnectionOptions where
  user : User
  asset : Asset
  systemUser : SystemUser
  deriving DecidableEq

/-- The key `getSSHConn` and `getCacheSSHConn` compute (lines 320–321, 427–428). -/
def ConnectionOptions.reuseKey (opts : ConnectionOptions) : GoString :=
  makeReuseSSHClientKey
    ⟨opts.user.id, opts.asset.id, opts.systemUser.id, opts.asset.ip, opts.systemUser.username⟩

structure Server where
  connOpts : ConnectionOptions
  /-- `nil` when the query in `NewServer` has failed -/
  expireInfo : Option ExpireInfo
  deriving DecidableEq

/-- `IsSupportedProtocol` (`pkg/srvconn/conn.go` lines 17–22). -/
def isSupportedProtocol (p : GoString) : Except GoString Unit :=
  if p ≠ protocolSSH then .error (str "unsupported protocol") else .ok ()

theorem isSupportedProtocol_eq_ok {p : GoString} :
    isSupportedProtocol p = .ok () ↔ p = protocolSSH := by
  unfold isSupportedProtocol
  split_ifs with h
  · simpa using h
  · simpa using h

/-- `NewServer` (lines 28–107). -/
def newServer (cs : Casing) (db : DB) (opts : ConnectionOptions) : Except GoString Server := do
  match isSupportedProtocol opts.systemUser.protocol with
  | .error err => throw (str "the protocols are not matched: " ++ err)
  | .ok () =>
    match db.getTerminalConfig with
    | .error err => throw (str "get terminal config error: " ++ err)
    | .ok _ =>
      if opts.asset.isSupportProtocol cs opts.systemUser.protocol then
        return ⟨opts, (db.queryAssetUserExpire opts.user.id opts.asset.id).toOption⟩
      else
        throw (str "the protocols are not matched: System user <" ++ opts.systemUser.username ++
          str "> and asset <" ++ opts.asset.hostname ++ str "> protocol are inconsistent.")

/-! ## The world of a run -/

/-- Which steps of opening a shell on a client succeed. -/
structure SessionOutcome where
  acquireSession : Bool
  requestPty : Bool
  stdinPipe : Bool
  stdoutPipe : Bool
  shell : Bool
  deriving DecidableEq

/-- All of them. -/
def SessionOutcome.opens (o : SessionOutcome) : Bool :=
  o.acquireSession && o.requestPty && o.stdinPipe && o.stdoutPipe && o.shell

structure World (Client : Type) where
  /-- `config.GetConf().ReuseConnection` -/
  reuseConnection : Bool
  /-- the lines typed at the prompt `username: `, then the connection ends -/
  usernameLines : List GoString
  /-- the line typed at the password prompt, if it can be read -/
  passwordLine : Option GoString
  /-- the answers of `GetClientFromCache` -/
  cache : GoString → Option Client
  cachedSession : SessionOutcome
  /-- the time at which the expiry is checked, in seconds -/
  now : ℤ
  /-- how `validateLoginConfirm` ends -/
  confirm : ConfirmResult
  createSession : Bool
  /-- `NewSSHClient` -/
  dial : Option Client
  dialledSession : SessionOutcome

/-- What a run does. -/
inductive Event (Client : Type)
  | lookedUp (key : GoString)
  | expiryChecked (expired : Bool)
  | confirmChecked (ok : Bool)
  | sessionCreated
  | dialled (client : Client)
  | addedToCache (key : GoString) (client : Client)
  | shellStarted (client : Client)
  | sessionFailed
  | sessionSuccess
  | sessionDisconnected
  deriving DecidableEq

variable {Client : Type}

/-- `AcquireSession` and `NewSSHConnection` on it; the shell is the last step. -/
def newSSHConnection (o : SessionOutcome) (client : Client) : Traced (Event Client) Bool := do
  if !o.acquireSession then
    return false
  if !o.requestPty then
    return false
  if !o.stdinPipe then
    return false
  if !o.stdoutPipe then
    return false
  if !o.shell then
    return false
  .emit (.shellStarted client)
  return true

/-- `getUsernameIfNeed` (lines 259–278): the first line that is not blank. -/
def getUsernameIfNeed (lines : List GoString) (opts : ConnectionOptions) :
    Option ConnectionOptions :=
  if opts.systemUser.username = [] then
    ((lines.map trimSpace).find? (· ≠ [])).map fun username =>
      { opts with systemUser := { opts.systemUser with username := username } }
  else some opts

/-- `getAuthPasswordIfNeed` (lines 280–298). -/
def getAuthPasswordIfNeed (line : Option GoString) (opts : ConnectionOptions) :
    Option ConnectionOptions :=
  if opts.systemUser.password = [] then
    line.map fun password =>
      { opts with systemUser := { opts.systemUser with password := password } }
  else some opts

/-- `checkReuseSSHClient` (lines 417–424). -/
def checkReuseSSHClient (w : World Client) (opts : ConnectionOptions) : Bool :=
  w.reuseConnection &&
    (decide (opts.asset.platform = str "Linux") && decide (opts.systemUser.protocol = protocolSSH))

/-- `getCacheSSHConn` (lines 426–459). -/
def getCacheSSHConn (w : World Client) (opts : ConnectionOptions) :
    Traced (Event Client) (Option Client) := do
  .emit (.lookedUp opts.reuseKey)
  match w.cache opts.reuseKey with
  | none => return none
  | some client =>
    if ← newSSHConnection w.cachedSession client then
      return some client
    else
      return none

/-- Why `checkRequiredAuth` fails. -/
inductive AuthError
  | username
  | password
  | noAuthInfo
  deriving DecidableEq

/-- The cached connection, looked for only if reuse is possible (lines 237–244). -/
def cachedConn (w : World Client) (opts : ConnectionOptions) :
    Traced (Event Client) (Option Client) :=
  if checkReuseSSHClient w opts then getCacheSSHConn w opts else pure none

/-- `checkRequiredAuth` once the login name is known (lines 237–252): the options
    with what the user has typed, and the cached connection if there is one. -/
def reuseOrAskPassword (w : World Client) (opts : ConnectionOptions) :
    Traced (Event Client) (Except AuthError (ConnectionOptions × Option Client)) := do
  let cacheConn ← cachedConn w opts
  if cacheConn.isSome then
    return .ok (opts, cacheConn)
  if opts.systemUser.privateKey = [] then
    match getAuthPasswordIfNeed w.passwordLine opts with
    | none => return .error .password
    | some opts => return .ok (opts, none)
  return .ok (opts, none)

/-- `checkRequiredAuth` (lines 229–257). -/
def checkRequiredAuth (w : World Client) (opts : ConnectionOptions) :
    Traced (Event Client) (Except AuthError (ConnectionOptions × Option Client)) :=
  if opts.systemUser.protocol = protocolSSH then
    match getUsernameIfNeed w.usernameLines opts with
    | none => pure (.error .username)
    | some opts => reuseOrAskPassword w opts
  else pure (.error .noAuthInfo)

/-- `getSSHConn` (lines 318–384). -/
def getSSHConn (w : World Client) (opts : ConnectionOptions) :
    Traced (Event Client) (Option Client) := do
  match w.dial with
  | none => return none
  | some client =>
    .emit (.dialled client)
    .emit (.addedToCache opts.reuseKey client)
    if ← newSSHConnection w.dialledSession client then
      return some client
    else
      return none

/-- `getServerConn` (lines 300–316). -/
def getServerConn (w : World Client) (opts : ConnectionOptions) (cacheConn : Option Client) :
    Traced (Event Client) (Option Client) :=
  match cacheConn with
  | some client => pure (some client)
  | none => if opts.systemUser.protocol = protocolSSH then getSSHConn w opts else pure none

/-- `sendConnectErrorMsg` (lines 212–223): `password[:2]` is out of range for a
    password of one byte. -/
def sendConnectErrorMsg (opts : ConnectionOptions) : Traced (Event Client) Unit :=
  if opts.systemUser.password ≠ [] ∧ opts.systemUser.password.length < 2 then .fault else pure ()

/-- `Proxy` from `getServerConn` on (lines 179–197), without the bridge. -/
def connect (w : World Client) (opts : ConnectionOptions) (cacheConn : Option Client) :
    Traced (Event Client) Unit := do
  match ← getServerConn w opts cacheConn with
  | none =>
    sendConnectErrorMsg opts
    .emit .sessionFailed
  | some _ => .emit .sessionSuccess

/-- `Proxy` after `checkRequiredAuth` (lines 138–197). `IsExpired` of a missing
    `expireInfo` is a nil dereference. -/
def afterAuth (w : World Client) (expireInfo : Option ExpireInfo) (opts : ConnectionOptions)
    (cacheConn : Option Client) : Traced (Event Client) Unit := do
  match expireInfo with
  | none => .fault
  | some info =>
    .emit (.expiryChecked (info.isExpired w.now))
    if info.isExpired w.now then
      return
    .emit (.confirmChecked w.confirm.success)
    if !w.confirm.success then
      return
    if !w.createSession then
      return
    .emit .sessionCreated
    .deferred .sessionDisconnected (connect w opts cacheConn)

/-- `Server.Proxy` (lines 133–198). -/
def Server.proxy (s : Server) (w : World Client) : Traced (Event Client) Unit := do
  match ← checkRequiredAuth w s.connOpts with
  | .error _ => return
  | .ok (opts, cacheConn) => afterAuth w s.expireInfo opts cacheConn

/-! ## The order of checks and shell -/

/-- The event is the start of a shell. -/
def Event.IsShell (e : Event Client) : Prop := ∃ client, e = .shellStarted client

/-- Every shell is started after the grant was found not expired and
    `checkLoginConfirm` has returned `true`. -/
def Gated (tr : List (Event Client)) : Prop :=
  Preceded (· = .expiryChecked false) Event.IsShell tr ∧
    Preceded (· = .confirmChecked true) Event.IsShell tr

/-- The conditions under which `checkRequiredAuth` starts a shell itself: a login
    name is known or typed, reuse is configured, the platform is `Linux`, the cache
    has a client for the key, and a shell opens on it. -/
def ReusesShell (w : World Client) (opts : ConnectionOptions) : Prop :=
  opts.systemUser.protocol = protocolSSH ∧
  ∃ opts', getUsernameIfNeed w.usernameLines opts = some opts' ∧ w.reuseConnection = true ∧
    opts'.asset.platform = str "Linux" ∧ (w.cache opts'.reuseKey).isSome ∧
    w.cachedSession.opens = true

theorem newSSHConnection_eq (o : SessionOutcome) (client : Client) :
    newSSHConnection o client =
      ⟨if o.opens then [.shellStarted client] else [], some o.opens⟩ := by
  obtain ⟨a, b, c, d, e⟩ := o
  cases a <;> cases b <;> cases c <;> cases d <;> cases e <;> rfl

theorem getCacheSSHConn_none {w : World Client} {opts : ConnectionOptions}
    (h : w.cache opts.reuseKey = none) :
    getCacheSSHConn w opts = ⟨[.lookedUp opts.reuseKey], some none⟩ := by
  unfold getCacheSSHConn
  rw [h]
  rfl

theorem getCacheSSHConn_some {w : World Client} {opts : ConnectionOptions} {client : Client}
    (h : w.cache opts.reuseKey = some client) :
    getCacheSSHConn w opts =
      if w.cachedSession.opens then
        ⟨[.lookedUp opts.reuseKey, .shellStarted client], some (some client)⟩
      else ⟨[.lookedUp opts.reuseKey], some none⟩ := by
  unfold getCacheSSHConn
  rw [h]
  dsimp only
  rw [newSSHConnection_eq]
  split_ifs with ho
  · rw [ho]
    rfl
  · rw [Bool.not_eq_true] at ho
    rw [ho]
    rfl

theorem getUsernameIfNeed_protocol {lines : List GoString} {opts opts' : ConnectionOptions}
    (h : getUsernameIfNeed lines opts = some opts') :
    opts'.systemUser.protocol = opts.systemUser.protocol := by
  unfold getUsernameIfNeed at h
  split_ifs at h with hn
  · obtain ⟨username, _, rfl⟩ := Option.map_eq_some_iff.mp h
    rfl
  · cases h
    rfl

/-- After the lookup `checkRequiredAuth` only asks the user. -/
theorem reuseOrAskPassword_events (w : World Client) (opts : ConnectionOptions) :
    (reuseOrAskPassword w opts).events = (cachedConn w opts).events := by
  unfold reuseOrAskPassword
  apply Traced.events_bind_silent
  intro cacheConn
  split_ifs
  · rfl
  · cases getAuthPasswordIfNeed w.passwordLine opts <;> rfl
  · rfl

/-- What `checkRequiredAuth` does: nothing, or a lookup, or a lookup and a shell on
    the client found; the last exactly under `ReusesShell`. -/
theorem checkRequiredAuth_events (w : World Client) (opts : ConnectionOptions) :
    ((checkRequiredAuth w opts).events = [] ∨
      ∃ key, (checkRequiredAuth w opts).events = [.lookedUp key]) ∧ ¬ ReusesShell w opts ∨
    (∃ key client, (checkRequiredAuth w opts).events = [.lookedUp key, .shellStarted client]) ∧
      ReusesShell w opts := by
  unfold checkRequiredAuth ReusesShell
  by_cases hp : opts.systemUser.protocol = protocolSSH
  swap
  · simp [hp]
  cases hu : getUsernameIfNeed w.usernameLines opts with
  | none => simp [hp]
  | some opts' =>
    have hp' := (getUsernameIfNeed_protocol hu).trans hp
    simp only [hp, if_true, reuseOrAskPassword_events, true_and, Option.some.injEq,
      exists_eq_left']
    by_cases hr : w.reuseConnection = true ∧ opts'.asset.platform = str "Linux"
    swap
    · have hreuse : ¬ checkReuseSSHClient w opts' = true := by
        simpa [checkReuseSSHClient, hp'] using hr
      rw [cachedConn, if_neg hreuse]
      exact Or.inl ⟨Or.inl rfl, fun h => hr ⟨h.1, h.2.1⟩⟩
    obtain ⟨hr, hl⟩ := hr
    have hreuse : checkReuseSSHClient w opts' = true := by
      simp [checkReuseSSHClient, hp', hr, hl]
    rw [cachedConn, if_pos hreuse]
    simp only [hr, hl, true_and]
    cases hc : w.cache opts'.reuseKey with
    | none =>
      rw [getCacheSSHConn_none hc]
      exact Or.inl ⟨Or.inr ⟨_, rfl⟩, by simp⟩
    | some client =>
      rw [getCacheSSHConn_some hc]
      split_ifs with ho
      · exact Or.inr ⟨⟨_, client, rfl⟩, by simp [ho]⟩
      · exact Or.inl ⟨Or.inr ⟨_, rfl⟩, by simp [ho]⟩

/-- The events after `checkRequiredAuth`, in order. -/
theorem afterAuth_events (w : World Client) (info : ExpireInfo) (opts : ConnectionOptions)
    (cacheConn : Option Client) :
    (afterAuth w (some info) opts cacheConn).events =
      .expiryChecked (info.isExpired w.now) ::
        if info.isExpired w.now then []
        else .confirmChecked w.confirm.success ::
          if w.confirm.success && w.createSession then
            .sessionCreated :: ((connect w opts cacheConn).events ++ [.sessionDisconnected])
          else [] := by
  simp only [afterAuth, Traced.events_emit_bind]
  cases info.isExpired w.now with
  | true => rfl
  | false =>
    cases w.confirm.success with
    | false => rfl
    | true => cases w.createSession <;> rfl

theorem gated_nil : Gated ([] : List (Event Client)) :=
  ⟨.of_not_mem (by simp), .of_not_mem (by simp)⟩

/-- After `checkRequiredAuth` both checks come before any shell. -/
theorem afterAuth_gated (w : World Client) (expireInfo : Option ExpireInfo)
    (opts : ConnectionOptions) (cacheConn : Option Client) :
    Gated (afterAuth w expireInfo opts cacheConn).events := by
  cases expireInfo with
  | none => exact gated_nil
  | some info =>
    have hshell : ∀ b, ¬ (Event.expiryChecked b : Event Client).IsShell := by
      rintro b ⟨client, h⟩
      cases h
    have hshell' : ∀ b, ¬ (Event.confirmChecked b : Event Client).IsShell := by
      rintro b ⟨client, h⟩
      cases h
    rw [afterAuth_events]
    cases info.isExpired w.now with
    | true =>
      exact ⟨preceded_cons (hshell _) (Or.inr gated_nil.1),
        preceded_cons (hshell _) (Or.inr gated_nil.2)⟩
    | false =>
      refine ⟨preceded_cons (hshell _) (Or.inl rfl), preceded_cons (hshell _) (Or.inr ?_)⟩
      cases w.confirm.success with
      | false => exact preceded_cons (hshell' _) (Or.inr gated_nil.2)
      | true => exact preceded_cons (hshell' _) (Or.inl rfl)

theorem proxy_events (s : Server) (w : World Client) :
    ∃ rest, (s.proxy w).events = (checkRequiredAuth w s.connOpts).events ++ rest ∧ Gated rest := by
  unfold Server.proxy
  rw [Traced.events_bind]
  refine ⟨_, rfl, ?_⟩
  cases (checkRequiredAuth w s.connOpts).result with
  | none => exact gated_nil
  | some r =>
    cases r with
    | error err => exact gated_nil
    | ok r => exact afterAuth_gated w s.expireInfo r.1 r.2

/-- Connecting checks nothing any more. -/
theorem connect_events {w : World Client} {opts : ConnectionOptions} {cacheConn : Option Client}
    {b : Bool} : .expiryChecked b ∉ (connect w opts cacheConn).events := by
  have hmsg : (sendConnectErrorMsg opts : Traced (Event Client) Unit).events = [] := by
    unfold sendConnectErrorMsg
    split_ifs <;> rfl
  have hconn : .expiryChecked b ∉ (getServerConn w opts cacheConn).events := by
    unfold getServerConn
    cases cacheConn with
    | some client => simp
    | none =>
      dsimp only
      split_ifs
      · unfold getSSHConn
        cases w.dial with
        | none => simp
        | some client =>
          dsimp only
          rw [newSSHConnection_eq]
          cases w.dialledSession.opens <;> simp [bind, pure]
      · simp
  unfold connect
  rw [Traced.events_bind, List.mem_append, not_or]
  refine ⟨hconn, ?_⟩
  cases (getServerConn w opts cacheConn).result with
  | none => simp
  | some r =>
    cases r with
    | none =>
      simp only [Option.elim_some, Traced.events_bind, hmsg, List.nil_append]
      cases (sendConnectErrorMsg opts : Traced (Event Client) Unit).result <;> simp
    | some client => simp

/-- The expiry that a run has checked is that of the server, at the time `now`. -/
theorem expiryChecked_of_mem {s : Server} {w : World Client} {b : Bool}
    (h : .expiryChecked b ∈ (s.proxy w).events) :
    ∃ info, s.expireInfo = some info ∧ info.isExpired w.now = b := by
  have hauth : .expiryChecked b ∉ (checkRequiredAuth w s.connOpts).events := by
    rcases checkRequiredAuth_events w s.connOpts with
      ⟨hev | ⟨key, hev⟩, _⟩ | ⟨⟨key, client, hev⟩, _⟩ <;> simp [hev]
  unfold Server.proxy at h
  rw [Traced.events_bind, List.mem_append] at h
  rcases h with h | h
  · exact absurd h hauth
  cases hr : (checkRequiredAuth w s.connOpts).result with
  | none => simp [hr] at h
  | some r =>
    rw [hr, Option.elim_some] at h
    cases r with
    | error err => simp at h
    | ok r =>
      cases hinfo : s.expireInfo with
      | none => simp [hinfo, afterAuth] at h
      | some info =>
        refine ⟨info, rfl, ?_⟩
        rw [hinfo, afterAuth_events] at h
        rcases List.mem_cons.mp h with h | h
        · exact (Event.expiryChecked.inj h).symm
        · exfalso
          split_ifs at h
          · simp at h
          · simp [connect_events] at h
          · simp at h

theorem gated_of_not_reusesShell {s : Server} {w : World Client}
    (h : ¬ ReusesShell w s.connOpts) : Gated (s.proxy w).events := by
  obtain ⟨rest, heq, hrest⟩ := proxy_events s w
  have hsilent : ∀ e ∈ (checkRequiredAuth w s.connOpts).events, ¬ e.IsShell := by
    rintro e he ⟨client, rfl⟩
    rcases checkRequiredAuth_events w s.connOpts with ⟨hev | ⟨key, hev⟩, _⟩ | ⟨_, hyes⟩
    · simp [hev] at he
    · simp [hev] at he
    · exact h hyes
  rw [heq]
  exact ⟨preceded_append hsilent hrest.1, preceded_append hsilent hrest.2⟩

/-- For every server, every content of the cache and every outcome of the
    operations of a run: each shell is started after the expiry check has passed
    and `checkLoginConfirm` has returned `true`, exactly when `checkRequiredAuth`
    does not start one on a cached client. -/
theorem shell_after_checks_iff (s : Server) (w : World Client) :
    Gated (s.proxy w).events ↔ ¬ ReusesShell w s.connOpts := by
  refine ⟨fun hg hreuse => ?_, gated_of_not_reusesShell⟩
  obtain ⟨rest, heq, _⟩ := proxy_events s w
  rcases checkRequiredAuth_events w s.connOpts with ⟨_, hno⟩ | ⟨⟨key, client, hev⟩, _⟩
  · exact hno hreuse
  · -- the shell is there, and nothing before it is a check
    rw [heq] at hg
    exact not_preceded_of_mem (e := .shellStarted client) (by simp [hev]) ⟨client, rfl⟩
      (by simp [hev]) hg.1

/-- A grant that has expired and an asset whose client is cached under the key. -/
def expiredServer : Server where
  connOpts := {
    user := ⟨str "u", str "bob", []⟩
    asset := { (default : Asset) with id := str "a", ip := str "10.0.0.1", platform := str "Linux" }
    systemUser := { (default : SystemUser) with
      id := str "s", username := str "root", protocol := str "ssh" } }
  expireInfo := some ⟨1⟩

def reuseWorld : World ℕ where
  reuseConnection := true
  usernameLines := []
  passwordLine := none
  cache := fun key => if key = str "u_a_s_10.0.0.1_root" then some 7 else none
  cachedSession := ⟨true, true, true, true, true⟩
  now := 2
  confirm := .notNeeded
  createSession := true
  dial := none
  dialledSession := ⟨true, true, true, true, true⟩

theorem shell_before_checks :
    (expiredServer.proxy reuseWorld).events =
      [.lookedUp (str "u_a_s_10.0.0.1_root"), .shellStarted 7, .expiryChecked true] ∧
    ¬ Gated (expiredServer.proxy reuseWorld).events := by
  have hev : (expiredServer.proxy reuseWorld).events =
      [.lookedUp (str "u_a_s_10.0.0.1_root"), .shellStarted 7, .expiryChecked true] := by
    decide
  refine ⟨hev, fun hg => ?_⟩
  rw [hev] at hg
  obtain ⟨a, ha, hA⟩ := hg.1 [.lookedUp (str "u_a_s_10.0.0.1_root")] (.shellStarted 7)
    [.expiryChecked true] rfl ⟨7, rfl⟩
  rw [List.mem_singleton.mp ha] at hA
  cases hA

end GoJump.Proxy
