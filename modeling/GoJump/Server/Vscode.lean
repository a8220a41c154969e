import GoJump.Proxy.Server

/-!
# VS Code login

Model of `proxyVscode` and `proxyVscodeShell` (`pkg/server/sshHandler.go` lines
157–247), the second way to a shell on an asset. It finds asset and system user
as a direct login does, asks for the grant's expiry and its VS Code permission,
and connects to the port that the asset's entries give for the protocol of the system
user (`BuildSSHClientOptions`, `pkg/srvconn/ssh.go` lines 389–410). The expiry is looked at
on later ticks only; `NeedConfirm`, and whether the protocol is one of the program, not at
all.

* `TerminalGates`: what a terminal login has checked before its shell
  (`terminal_gates`).
* `vscode_without_gates`: a VS Code login to which none of it applies.
* `vscode_gates_iff`: a VS Code login obeys the gates exactly when it does not
  reach the shell or the rows it has found happen to satisfy them.
-/

namespace GoJump.Server

open GoJump.Go GoJump.Lib GoJump.Model GoJump.Core GoJump.Proxy

variable {Client : Type}

/-! ## The gates of a terminal login -/

/-- What `NewServer` and `Server.Proxy` require before they connect: the protocol is
    supported by the program and by the asset, the grant is not expired at `now`, and
    if it has `NeedConfirm` set then `checkLoginConfirm` has returned `true`. -/
structure TerminalGates (cs : Casing) (db : DB) (opts : ConnectionOptions) (now : ℤ)
    (tr : List (Event Client)) : Prop where
  supported : isSupportedProtocol opts.systemUser.protocol = .ok ()
  protocol : opts.asset.isSupportProtocol cs opts.systemUser.protocol = true
  notExpired : (ExpireInfo.mk
    (((db.grant opts.user.id opts.asset.id).map (·.expireAt)).getD 0)).isExpired now = false
  confirmed : ((db.grant opts.user.id opts.asset.id).map (·.needConfirm)).getD true = true →
    .confirmChecked true ∈ tr

theorem newServer_eq_ok {cs : Casing} {db : DB} {opts : ConnectionOptions} {s : Server}
    (h : newServer cs db opts = .ok s) :
    isSupportedProtocol opts.systemUser.protocol = .ok () ∧
    opts.asset.isSupportProtocol cs opts.systemUser.protocol = true ∧
    s = ⟨opts, (db.queryAssetUserExpire opts.user.id opts.asset.id).toOption⟩ := by
  unfold newServer at h
  cases hsup : isSupportedProtocol opts.systemUser.protocol with
  | error err => rw [hsup] at h; cases h
  | ok u =>
    rw [hsup] at h
    cases hconf : db.getTerminalConfig with
    | error err => rw [hconf] at h; cases h
    | ok conf =>
      rw [hconf] at h
      dsimp only at h
      split_ifs at h with hpro
      exact ⟨rfl, hpro, (ok_pure_iff.mp h).symm⟩

/-- A terminal login that has not been given a cached client starts its shell only
    behind the gates. -/
theorem terminal_gates {cs : Casing} {db : DB} {opts : ConnectionOptions} {s : Server}
    {w : World Client} (hs : newServer cs db opts = .ok s) (hw : ¬ ReusesShell w opts)
    {client : Client} (hshell : .shellStarted client ∈ (s.proxy w).events) :
    TerminalGates cs db opts w.now (s.proxy w).events := by
  obtain ⟨hsup, hpro, hserver⟩ := newServer_eq_ok hs
  have hopts : s.connOpts = opts := by rw [hserver]
  rw [← hopts] at hw
  obtain ⟨hexp, hconf⟩ := gated_of_not_reusesShell hw
  obtain ⟨pre, post, heq⟩ := List.append_of_mem hshell
  have hmem : ∀ e ∈ pre, e ∈ (s.proxy w).events := fun e he =>
    heq ▸ List.mem_append_left _ he
  obtain ⟨_, hin, rfl⟩ := hexp pre _ post heq ⟨client, rfl⟩
  obtain ⟨_, hin', rfl⟩ := hconf pre _ post heq ⟨client, rfl⟩
  obtain ⟨info, hinfo, hnot⟩ := expiryChecked_of_mem (hmem _ hin)
  refine ⟨hsup, hpro, ?_, fun _ => hmem _ hin'⟩
  rw [hserver] at hinfo
  cases hq : db.queryAssetUserExpire opts.user.id opts.asset.id with
  | error err =>
    rw [hq] at hinfo
    cases hinfo
  | ok e =>
    rw [hq] at hinfo
    cases hinfo
    rw [(DB.queryAssetUserExpire_eq_ok.mp hq).2]
    exact hnot

/-! ## `proxyVscode` -/

/-- What `proxyVscodeShell` meets in its `select` (lines 229–246). -/
inductive ShellEvent
  | sessionDone
  | timeout
  | tick (now : ℤ)
  deriving DecidableEq

/-- The world of a VS Code login; an operation has its error text, if it fails. -/
structure VscodeWorld (Client : Type) where
  ctxID : Option GoString
  /-- `NewSSHClient`, for the port of the options -/
  dial : ℤ → Except GoString Client
  /-- there are no other ports to connect to -/
  dial_port : ∀ port client, dial port = .ok client → 1 ≤ port ∧ port ≤ 65535
  acquireSession : Option GoString
  stdoutPipe : Option GoString
  stdinPipe : Option GoString
  shell : Option GoString
  /-- the time at which the shell is started, in seconds -/
  now : ℤ
  loop : List ShellEvent

/-- The loop at the end of `proxyVscodeShell`. -/
def shellLoop (expireInfo : ExpireInfo) : List ShellEvent → Traced (Event Client) Unit
  | [] => pure ()
  | .sessionDone :: _ => pure ()
  | .timeout :: _ => pure ()
  | .tick now :: rest => do
    .emit (.expiryChecked (expireInfo.isExpired now))
    if expireInfo.isExpired now then
      return
    shellLoop expireInfo rest

/-- `proxyVscodeShell` (lines 193–247). -/
def proxyVscodeShell (w : VscodeWorld Client) (expireInfo : ExpireInfo) (client : Client) :
    Traced (Event Client) (Except GoString Unit) := do
  if let some err := w.acquireSession then
    return .error (str "get SSH session failed: " ++ err)
  if let some err := w.stdoutPipe then
    return .error (str "get SSH session StdoutPipe failed: " ++ err)
  if let some err := w.stdinPipe then
    return .error (str "get SSH session StdinPipe failed: " ++ err)
  if let some err := w.shell then
    return .error (str "get SSH session shell failed: " ++ err)
  .emit (.shellStarted client)
  shellLoop expireInfo w.loop
  return .ok ()

/-- The queries of `proxyVscode` (lines 158–177): the asset and system user to
    connect to and the expiry to watch, or nothing if the user has no VS Code
    permission. -/
def vscodeTarget (db : DB) (user : User) (login : DirectLogin) (ctxID : Option GoString) :
    Except GoString (Option (Asset × SystemUser × ExpireInfo)) := do
  let (asset, sysUser) ← db.queryDirectLoginInfo user.id login
  if ctxID.isNone then
    throw (str "not found ctxID")
  let expireInfo ← (db.queryAssetUserExpire user.id asset.id).mapError
    (str "get asset expire info err: " ++ ·)
  let vscodePerm ← (db.queryAssetUserVscodePerm user.id asset.id).mapError
    (str "get asset expire info err: " ++ ·)
  return if vscodePerm then some (asset, sysUser, expireInfo) else none

/-- `proxyVscode` (lines 157–191). -/
def proxyVscode (cs : Casing) (db : DB) (user : User) (login : DirectLogin)
    (w : VscodeWorld Client) :
    Traced (Event Client) (Except GoString Unit) :=
  match vscodeTarget db user login w.ctxID with
  | .error err => pure (.error err)
  | .ok none => pure (.ok ())
  | .ok (some (asset, sysUser, expireInfo)) =>
    match w.dial (asset.protocolPort cs sysUser.protocol) with
    | .error err => pure (.error (str "get SSH Client failed: " ++ err))
    | .ok client => do
      .emit (.dialled client)
      proxyVscodeShell w expireInfo client

/-! ## A VS Code login and the gates -/

/-- A shell that is started is behind the gates of a terminal login to the asset and
    system user that were found. -/
def ObeysGates (cs : Casing) (db : DB) (user : User) (login : DirectLogin)
    (w : VscodeWorld Client) : Prop :=
  ∀ asset sysUser client, db.queryDirectLoginInfo user.id login = .ok (asset, sysUser) →
    .shellStarted client ∈ (proxyVscode cs db user login w).events →
    TerminalGates cs db ⟨user, asset, sysUser⟩ w.now (proxyVscode cs db user login w).events

/-- Everything `proxyVscode` asks for on the way to its shell: no query or operation
    fails, the connection to the port of the asset included, and the grant permits VS
    Code. -/
def ReachesShell (cs : Casing) (db : DB) (user : User) (asset : Asset) (sysUser : SystemUser)
    (w : VscodeWorld Client) : Prop :=
  w.ctxID.isSome ∧ db.fails (.expireAt user.id asset.id) = none ∧
  db.fails (.enableVscode user.id asset.id) = none ∧
  ((db.grant user.id asset.id).map (·.enableVscode)).getD false = true ∧
  (w.dial (asset.protocolPort cs sysUser.protocol)).isOk = true ∧
  w.acquireSession = none ∧ w.stdoutPipe = none ∧ w.stdinPipe = none ∧ w.shell = none

theorem vscodeTarget_eq_ok {db : DB} {user : User} {login : DirectLogin} {ctxID : Option GoString}
    {asset : Asset} {sysUser : SystemUser}
    (h : db.queryDirectLoginInfo user.id login = .ok (asset, sysUser))
    {t : Asset × SystemUser × ExpireInfo} :
    vscodeTarget db user login ctxID = .ok (some t) ↔
      ctxID.isSome ∧ db.fails (.expireAt user.id asset.id) = none ∧
      db.fails (.enableVscode user.id asset.id) = none ∧
      ((db.grant user.id asset.id).map (·.enableVscode)).getD false = true ∧
      (asset, sysUser, ⟨((db.grant user.id asset.id).map (·.expireAt)).getD 0⟩) = t := by
  unfold vscodeTarget
  simp only [ok_bind_iff, h, Except.ok.injEq, exists_eq_left', ok_throw_if_iff, ok_mapError_iff,
    DB.queryAssetUserExpire_eq_ok, DB.queryAssetUserVscodePerm_eq_ok, ok_pure_iff, and_assoc,
    exists_and_left]
  constructor
  · rintro ⟨hctx, h1, h2, ht⟩
    split_ifs at ht with hperm
    exact ⟨by simpa [Option.isSome_iff_ne_none] using hctx, h1, h2, hperm, Option.some.inj ht⟩
  · rintro ⟨hctx, h1, h2, hperm, rfl⟩
    exact ⟨by simpa [Option.isSome_iff_ne_none] using hctx, h1, h2, if_pos hperm⟩

/-- The loop starts no shell and confirms nothing. -/
theorem shellLoop_events (expireInfo : ExpireInfo) (l : List ShellEvent) :
    ∀ e ∈ (shellLoop expireInfo l : Traced (Event Client) Unit).events,
      ∃ b, e = .expiryChecked b := by
  induction l with
  | nil => simp [shellLoop]
  | cons ev l ih =>
    cases ev with
    | sessionDone => simp [shellLoop]
    | timeout => simp [shellLoop]
    | tick now =>
      intro e he
      simp only [shellLoop, Traced.events_emit_bind, List.mem_cons] at he
      rcases he with rfl | he
      · exact ⟨_, rfl⟩
      · split_ifs at he
        · simp at he
        · exact ih e he

theorem proxyVscodeShell_events (w : VscodeWorld Client) (expireInfo : ExpireInfo)
    (client : Client) :
    (proxyVscodeShell w expireInfo client).events =
      if w.acquireSession = none ∧ w.stdoutPipe = none ∧ w.stdinPipe = none ∧ w.shell = none then
        .shellStarted client :: (shellLoop expireInfo w.loop).events
      else [] := by
  unfold proxyVscodeShell
  cases w.acquireSession with
  | some err => simp
  | none =>
    cases w.stdoutPipe with
    | some err => simp
    | none =>
      cases w.stdinPipe with
      | some err => simp
      | none =>
        cases w.shell with
        | some err => simp
        | none => simp [Traced.events_bind_silent]

/-- When the shell is started, and that nothing is ever confirmed. -/
theorem proxyVscode_events (cs : Casing) {db : DB} {user : User} {login : DirectLogin}
    {w : VscodeWorld Client} {asset : Asset} {sysUser : SystemUser}
    (h : db.queryDirectLoginInfo user.id login = .ok (asset, sysUser)) :
    ((∃ client, .shellStarted client ∈ (proxyVscode cs db user login w).events) ↔
      ReachesShell cs db user asset sysUser w) ∧
    .confirmChecked true ∉ (proxyVscode cs db user login w).events := by
  have hloop : ∀ info,
      .confirmChecked true ∉ (shellLoop info w.loop : Traced (Event Client) Unit).events := by
    intro info hmem
    obtain ⟨b, hb⟩ := shellLoop_events info w.loop _ hmem
    cases hb
  have htarget := fun t => @vscodeTarget_eq_ok db user login w.ctxID asset sysUser h t
  unfold proxyVscode ReachesShell
  split
  · rename_i err herr
    refine ⟨⟨by simp, fun hr => ?_⟩, by simp⟩
    have := (htarget _).mpr ⟨hr.1, hr.2.1, hr.2.2.1, hr.2.2.2.1, rfl⟩
    rw [herr] at this
    cases this
  · rename_i hnone
    refine ⟨⟨by simp, fun hr => ?_⟩, by simp⟩
    have := (htarget _).mpr ⟨hr.1, hr.2.1, hr.2.2.1, hr.2.2.2.1, rfl⟩
    rw [hnone] at this
    cases this
  · rename_i a su info hsome
    obtain ⟨h1, h2, h3, h4, heq⟩ := (htarget _).mp hsome
    obtain ⟨rfl, rfl⟩ : asset = a ∧ sysUser = su := by
      rw [Prod.mk.injEq, Prod.mk.injEq] at heq
      exact ⟨heq.1, heq.2.1⟩
    cases hd : w.dial (asset.protocolPort cs sysUser.protocol) with
    | error err => simp [Except.isOk, Except.toBool]
    | ok client =>
      simp only [Traced.events_emit_bind, List.mem_cons, reduceCtorEq, false_or,
        proxyVscodeShell_events, h1, h2, h3, h4, true_and]
      split_ifs with ho
      · refine ⟨⟨fun _ => ⟨rfl, ho⟩, fun _ => ⟨client, List.mem_cons_self⟩⟩, ?_⟩
        simpa using hloop info
      · refine ⟨⟨fun ⟨_, hc⟩ => absurd hc List.not_mem_nil, fun hr => absurd hr.2 ho⟩,
          List.not_mem_nil⟩

/-- Without a confirmation, the gates are conditions on the rows alone. -/
theorem terminalGates_iff {cs : Casing} {db : DB} (opts : ConnectionOptions) {now : ℤ}
    {tr : List (Event Client)} {g : AssetUserInfo}
    (hg : db.grant opts.user.id opts.asset.id = some g) (htr : .confirmChecked true ∉ tr) :
    TerminalGates cs db opts now tr ↔
      opts.systemUser.protocol = protocolSSH ∧ opts.asset.isSupportProtocol cs protocolSSH = true ∧
        (g.expireAt = 0 ∨ now ≤ g.expireAt) ∧ g.needConfirm = false := by
  constructor
  · intro h
    have hssh := isSupportedProtocol_eq_ok.mp h.supported
    have hexp := h.notExpired
    have hconf := h.confirmed
    simp only [hg, Option.map_some, Option.getD_some] at hexp hconf
    refine ⟨hssh, hssh ▸ h.protocol, ExpireInfo.isExpired_eq_false.mp hexp, ?_⟩
    by_contra hne
    exact htr (hconf (by simpa using hne))
  · rintro ⟨hssh, hpro, hexp, hconf⟩
    refine ⟨isSupportedProtocol_eq_ok.mpr hssh, by rw [hssh]; exact hpro, ?_, ?_⟩
    · simpa only [hg, Option.map_some, Option.getD_some] using ExpireInfo.isExpired_eq_false.mpr
        hexp
    · simp [hg, hconf]

/-- For every database, user, direct login and time: a VS Code login obeys the gates
    of a terminal login exactly when, should it reach its shell, the rows it has
    found satisfy them by themselves: the protocol is `ssh` and the asset lists it,
    the grant has not expired, and it does not ask for confirmation. -/
theorem vscode_gates_iff (cs : Casing) (db : DB) (user : User) (login : DirectLogin)
    (w : VscodeWorld Client) :
    ObeysGates cs db user login w ↔
      ∀ asset sysUser g, db.queryDirectLoginInfo user.id login = .ok (asset, sysUser) →
        db.grant user.id asset.id = some g → ReachesShell cs db user asset sysUser w →
        sysUser.protocol = protocolSSH ∧ asset.isSupportProtocol cs protocolSSH = true ∧
          (g.expireAt = 0 ∨ w.now ≤ g.expireAt) ∧ g.needConfirm = false := by
  unfold ObeysGates
  constructor
  · intro h asset sysUser g hlogin hg hreach
    obtain ⟨hshell, hnoconf⟩ := proxyVscode_events cs (w := w) hlogin
    obtain ⟨client, hmem⟩ := hshell.mpr hreach
    exact (terminalGates_iff ⟨user, asset, sysUser⟩ hg hnoconf).mp
      (h asset sysUser client hlogin hmem)
  · intro h asset sysUser client hlogin hmem
    obtain ⟨hshell, hnoconf⟩ := proxyVscode_events cs (w := w) hlogin
    have hreach := hshell.mp ⟨client, hmem⟩
    obtain ⟨g, hg, _⟩ : ∃ g, db.grant user.id asset.id = some g ∧ g.enableVscode = true := by
      have hperm := hreach.2.2.2.1
      cases hgr : db.grant user.id asset.id with
      | none => simp [hgr] at hperm
      | some g => exact ⟨g, rfl, by simpa [hgr] using hperm⟩
    exact (terminalGates_iff ⟨user, asset, sysUser⟩ hg hnoconf).mpr
      (h asset sysUser g hlogin hg hreach)

/-- An asset whose only entry is for telnet, and a grant that has expired and asks for
    confirmation. -/
def telnetAsset : Asset :=
  { (default : Asset) with
    id := str "a", name := str "web", ip := str "10.0.0.7", protocols := [str "telnet/22"],
    isActive := true }

def telnetUser : SystemUser :=
  { (default : SystemUser) with
    id := str "s", username := str "root", protocol := str "telnet", password := str "secret" }

def expiredDB : DB where
  asset := [telnetAsset]
  node := []
  systemUser := [telnetUser]
  assetUserInfo := [⟨str "u", str "a", 1, [str "s"], true, true⟩]
  terminalConf := []
  fails := fun _ => none

/-- On the asset an SSH server listens on port 22, and nothing else does. -/
def dial22 (port : ℤ) : Except GoString ℕ :=
  if port = 22 then .ok 7 else .error (str "connection refused")

theorem dial22_port (port : ℤ) (client : ℕ) (h : dial22 port = .ok client) :
    1 ≤ port ∧ port ≤ 65535 := by
  unfold dial22 at h
  split_ifs at h with hport
  omega

def vscodeWorld : VscodeWorld ℕ where
  ctxID := some (str "c")
  dial := dial22
  dial_port := dial22_port
  acquireSession := none
  stdoutPipe := none
  stdinPipe := none
  shell := none
  now := 2
  loop := []

theorem vscode_without_gates :
    (proxyVscode asciiCasing expiredDB ⟨str "u", str "bob", []⟩ ⟨str "web", str "root"⟩
      vscodeWorld).events = [.dialled 7, .shellStarted 7] ∧
    ¬ ObeysGates asciiCasing expiredDB ⟨str "u", str "bob", []⟩ ⟨str "web", str "root"⟩
      vscodeWorld := by
  have hev : (proxyVscode asciiCasing expiredDB ⟨str "u", str "bob", []⟩
      ⟨str "web", str "root"⟩ vscodeWorld).events = [.dialled 7, .shellStarted 7] := by
    decide
  refine ⟨hev, fun h => ?_⟩
  have hgates := h telnetAsset telnetUser 7 (by rfl) (by rw [hev]; simp)
  exact absurd hgates.notExpired (by decide)

end GoJump.Server
