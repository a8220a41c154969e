import GoJump.Handler.Listed
import GoJump.Server.Login
import GoJump.Server.Vscode

/-!
# From a connection to a shell

Model of `SessionHandler` (`pkg/server/sshHandler.go` lines 67–114) over the models of what
it calls: a session of a connection is a direct login, the console of the administrator, the
interactive menu or a VS Code login. A session makes visits to assets: the direct login and the
VS Code login one, the menu one for each line that logs in. Between any two queries the
database may change.

* `shell_policy`: what lies behind every shell that is started on an asset.
* `exit_row_names_request`: whom `InteractiveLog` names when a session ends.
-/

namespace GoJump.Server

open GoJump.Go GoJump.Lib GoJump.Model GoJump.Core GoJump.Proxy GoJump.Handler
open GoJump.Auth.UserAuth

variable {Client : Type}

/-! ## Sessions -/

/-- What a login to an asset meets: the database in which asset and system user are looked
    up, the lines typed to choose a system user, the database that `NewServer` asks, and the
    world of `Server.Proxy`. -/
structure AssetLogin (Client : Type) where
  lookup : DB
  choice : List GoString
  server : DB
  world : World Client

/-- A line of the menu, with what a login meets if the line leads to one. -/
structure MenuLine (Client : Type) where
  env : DispatchEnv
  line : GoString
  login : AssetLogin Client

structure SessionInput (Client : Type) where
  cs : Casing
  isPty : Bool
  enableLocalPortForward : Bool
  terminalConf : TerminalConfig
  /-- what the interactive handler finds when it is made -/
  env : DispatchEnv
  login : AssetLogin Client
  lines : List (MenuLine Client)
  vscode : VscodeWorld Client

/-- A login to an asset that has got as far as a server or a client for it. -/
inductive Visit (Client : Type)
  | terminal (interactive : Bool) (cs : Casing) (opts : ConnectionOptions)
    (login : AssetLogin Client)
      (srv : Proxy.Server)
  | vscode (cs : Casing) (opts : ConnectionOptions) (names : DirectLogin) (db : DB)
      (w : VscodeWorld Client)

def Visit.opts : Visit Client → ConnectionOptions
  | terminal _ _ opts _ _ | vscode _ opts _ _ _ => opts

/-- The database in which asset and system user were found. -/
def Visit.lookup : Visit Client → DB
  | terminal _ _ _ login _ => login.lookup
  | vscode _ _ _ db _ => db

def Visit.events : Visit Client → List (Event Client)
  | terminal _ _ _ login srv => (srv.proxy login.world).events
  | vscode cs opts names db w => (proxyVscode cs db opts.user names w).events

/-- `NewServer` and `Server.Proxy`. -/
def newVisit (interactive : Bool) (cs : Casing) (opts : ConnectionOptions)
    (login : AssetLogin Client) :
    List (Visit Client) :=
  match newServer cs login.server opts with
  | .error _ => []
  | .ok srv => [.terminal interactive cs opts login srv]

/-- The names of a direct login. -/
def directNames (format : LoginFormat) : DirectLogin := ⟨format.asset, format.sysuser⟩

/-- `NewDirectHandler` and `DirectHandler.Proxy`. -/
def directVisits (cs : Casing) (user : User) (format : LoginFormat) (login : AssetLogin Client) :
    List (Visit Client) :=
  match newDirectHandler login.lookup user (directNames format) with
  | .error _ => []
  | .ok (asset, sysUser) => newVisit false cs ⟨user, asset, sysUser⟩ login

/-- `UserSelectHandler.Proxy`, for an operation that calls it. -/
def outcomeVisits (cs : Casing) (user : User) (login : AssetLogin Client) :
    Outcome → List (Visit Client)
  | .proxied item =>
    match proxyTarget cs login.lookup user item.id login.choice with
    | none => []
    | some (asset, sysUser) => newVisit true cs ⟨user, asset, sysUser⟩ login
  | .displayed _ | .noTable => []

/-- The loop of `Dispatch`. -/
def menuVisits : Interactive → List (MenuLine Client) → List (Visit Client)
  | _, [] => []
  | st, input :: rest =>
    if st.running then
      outcomeVisits input.env.cs st.user input.login (dispatch input.env st input.line).2 ++
        menuVisits (dispatch input.env st input.line).1 rest
    else []

/-- What `Dispatch` does before its loop: with just one asset it logs in to it. -/
def startOutcome (env : DispatchEnv) (user : User) (conf : TerminalConfig) : Outcome :=
  match env.db.getAllUserPermsAssets user.nodeIDs with
  | .error _ => .noTable
  | .ok (items, _) =>
    if items.length = 1 then
      (searchOrProxy ⟨env.height, conf, env.sorting⟩ (freshHandler items) []).2
    else .noTable

/-- `NewInteractiveHandler` and `Dispatch`. -/
def interactiveVisits (user : User) (input : SessionInput Client) : List (Visit Client) :=
  outcomeVisits input.env.cs user input.login (startOutcome input.env user input.terminalConf) ++
    menuVisits (startDispatch input.env user input.terminalConf) input.lines

/-- `proxyVscode`. -/
def vscodeVisits (cs : Casing) (user : User) (format : LoginFormat) (db : DB)
    (w : VscodeWorld Client) : List (Visit Client) :=
  match db.queryDirectLoginInfo user.id (directNames format) with
  | .error _ => []
  | .ok (asset, sysUser) => [.vscode cs ⟨user, asset, sysUser⟩ (directNames format) db w]

/-- What a session does. -/
structure Session (Client : Type) where
  visits : List (Visit Client)
  /-- the users in the rows `exit terminal` of `USERLOG` -/
  exitRows : List GoString
  /-- what `SessionHandler` writes to the session itself -/
  said : GoString

/-- `SessionHandler` (lines 67–114) for a user whom the context has. -/
def userSession (ctx : Context) (connUser : GoString) (user : User) (input : SessionInput Client) :
    Session Client :=
  if input.isPty then
    match ctx.directLoginFormat with
    | some format => ⟨directVisits input.cs user format input.login, [], []⟩
    | none =>
      -- the console of the administrator logs in to no asset
      if user.username = str "admin" then ⟨[], [connUser], []⟩
      else ⟨interactiveVisits user input, [connUser], []⟩
  else if !input.enableLocalPortForward then ⟨[], [], str "No PTY requested.\n"⟩
  else
    match ctx.directLoginFormat with
    | some format =>
      ⟨vscodeVisits input.cs user format input.login.lookup
        { input.vscode with ctxID := ctx.ctxID }, [], []⟩
    | none => ⟨[], [], []⟩

def sessionHandler (ctx : Context) (connUser : GoString) (input : SessionInput Client) :
    Session Client :=
  match ctx.authUser with
  | some u =>
    if u.id = [] then ⟨[], [], str "Not auth user.\n"⟩ else userSession ctx connUser u.toUser input
  | none => ⟨[], [], str "Not auth user.\n"⟩

/-- A session of the connection; there is none before `NewServerConn` has returned. -/
def Login.session (s : Login) (input : SessionInput Client) : Session Client :=
  match s.connUser, s.ctx with
  | some connUser, some ctx => sessionHandler ctx connUser input
  | _, _ => ⟨[], [], []⟩

/-! ## What lies behind a visit -/

/-- The user is granted the system user on the asset. -/
structure Granted (db : DB) (opts : ConnectionOptions) : Prop where
  asset : opts.asset ∈ db.asset
  systemUser : opts.systemUser ∈ db.systemUser
  grant : ∃ g, db.grant opts.user.id opts.asset.id = some g ∧ opts.systemUser.id ∈ g.sysUserId

/-- What a visit has checked before its shell. A terminal login that gets a cached client has
    looked at the protocols only, a VS Code login at its own permission only. -/
def Visit.Gated : Visit Client → Prop
  | terminal _ cs opts login srv =>
    opts.systemUser.protocol = protocolSSH ∧ opts.asset.isSupportProtocol cs protocolSSH = true ∧
      (¬ ReusesShell login.world opts →
        TerminalGates cs login.server opts login.world.now (srv.proxy login.world).events)
  | vscode _ opts _ db _ =>
    ∃ g, db.grant opts.user.id opts.asset.id = some g ∧ g.enableVscode = true

/-- Why the visit is to this asset as this system user: the menu has offered the active asset
    from one of the databases, or the login has named both. -/
def Visit.Chosen (dbs : List DB) (login : GoString) : Visit Client → Prop
  | terminal true _ opts _ _ =>
    opts.asset.isActive = true ∧ ∃ db ∈ dbs, InUserNode db opts.user opts.asset.id
  | terminal false _ opts _ _ | vscode _ opts _ _ _ =>
    ∃ format, parseUserFormatBySeparator login = some format ∧ opts.asset.name = format.asset ∧
      opts.systemUser.username = format.sysuser

/-- The databases that the menu has its assets from. -/
def SessionInput.dbs (input : SessionInput Client) : List DB :=
  input.env.db :: input.lines.map (·.env.db)

/-- A visit of the user, at whatever time. -/
structure Permitted (user : User) (dbs : List DB) (login : GoString) (v : Visit Client) : Prop where
  user_eq : v.opts.user = user
  granted : Granted v.lookup v.opts
  gated : ∀ client, .shellStarted client ∈ v.events → v.Gated
  chosen : v.Chosen dbs login

section Visits

variable {cs : Casing} {user : User} {dbs : List DB} {name : GoString} {login : AssetLogin Client}
    {v : Visit Client}

theorem granted_of_mem {db : DB} {asset : Asset} {systemUsers : List SystemUser}
    {sysUser : SystemUser} (hasset : asset ∈ db.asset)
    (h : db.getSystemUsersByUserIdAndAssetId user.id asset.id = .ok systemUsers)
    (hmem : sysUser ∈ systemUsers) :
    Granted db ⟨user, asset, sysUser⟩ := by
  obtain ⟨-, hquery⟩ := DB.getSystemUsersByUserIdAndAssetId_eq_ok.mp h
  obtain ⟨-, rfl⟩ := DB.query_eq_ok.mp hquery
  obtain ⟨hrow, hid⟩ := List.mem_filter.mp hmem
  refine ⟨hasset, hrow, ?_⟩
  show ∃ g, db.grant user.id asset.id = some g ∧ sysUser.id ∈ g.sysUserId
  cases hgrant : db.grant user.id asset.id with
  | none =>
    rw [hgrant] at hid
    exact absurd (of_decide_eq_true hid) List.not_mem_nil
  | some g =>
    rw [hgrant] at hid
    exact ⟨g, rfl, of_decide_eq_true hid⟩

theorem newVisit_permitted {interactive : Bool} {opts : ConnectionOptions}
    (huser : opts.user = user) (hgranted : Granted login.lookup opts)
    (hchosen : ∀ srv, (Visit.terminal interactive cs opts login srv).Chosen dbs name)
    (h : v ∈ newVisit interactive cs opts login) : Permitted user dbs name v := by
  unfold newVisit at h
  cases hserver : newServer cs login.server opts with
  | error err =>
    rw [hserver] at h
    cases h
  | ok srv =>
    rw [hserver] at h
    cases List.mem_singleton.mp h
    refine ⟨huser, hgranted, fun client hshell => ?_, hchosen srv⟩
    obtain ⟨hsupported, hprotocol, -⟩ := newServer_eq_ok hserver
    have hssh := isSupportedProtocol_eq_ok.mp hsupported
    rw [hssh] at hprotocol
    exact ⟨hssh, hprotocol, fun hreuse => terminal_gates hserver hreuse hshell⟩

/-- A direct login has found the asset and the granted system user that it names. -/
theorem direct_granted {db : DB} {format : LoginFormat} {asset : Asset} {sysUser : SystemUser}
    (h : db.queryDirectLoginInfo user.id (directNames format) = .ok (asset, sysUser)) :
    Granted db ⟨user, asset, sysUser⟩ ∧ asset.name = format.asset ∧
      sysUser.username = format.sysuser := by
  obtain ⟨hname, hid, systemUsers, hsystem, hsysUser, hsysId⟩ := DB.queryDirectLoginInfo_eq_ok.mp h
  obtain ⟨-, hlast⟩ := DB.getAssetByName_eq_ok.mp hname
  have hasset : asset ∈ db.asset ∧ asset.name = format.asset := by
    rcases DB.getLastD_mem_or_eq (db.asset.filter fun a => a.name = (directNames format).asset)
      default with hmem | hdef
    · rw [hlast] at hmem
      obtain ⟨hmem, heq⟩ := List.mem_filter.mp hmem
      exact ⟨hmem, of_decide_eq_true heq⟩
    · rw [← hlast, hdef] at hid
      exact absurd rfl hid
  have hsys : sysUser ∈ systemUsers ∧ sysUser.username = format.sysuser := by
    rcases DB.getLastD_mem_or_eq
      (systemUsers.filter fun v => v.username = (directNames format).sysuser) default
      with hmem | hdef
    · rw [← hsysUser] at hmem
      obtain ⟨hmem, heq⟩ := List.mem_filter.mp hmem
      exact ⟨hmem, of_decide_eq_true heq⟩
    · rw [hsysUser, hdef] at hsysId
      exact absurd rfl hsysId
  exact ⟨granted_of_mem hasset.1 hsystem hsys.1, hasset.2, hsys.2⟩

theorem directVisits_permitted {format : LoginFormat}
    (hname : parseUserFormatBySeparator name = some format)
    (h : v ∈ directVisits cs user format login) : Permitted user dbs name v := by
  unfold directVisits newDirectHandler at h
  cases hfound : login.lookup.queryDirectLoginInfo user.id (directNames format) with
  | error err =>
    rw [hfound] at h
    cases h
  | ok r =>
    rw [hfound] at h
    obtain ⟨hgranted, hasset, hsys⟩ := direct_granted hfound
    refine newVisit_permitted rfl hgranted (fun _ => ?_) h
    exact ⟨format, hname, hasset, hsys⟩

theorem vscodeVisits_permitted {format : LoginFormat} {db : DB} {w : VscodeWorld Client}
    (hname : parseUserFormatBySeparator name = some format)
    (h : v ∈ vscodeVisits cs user format db w) :
    Permitted user dbs name v := by
  unfold vscodeVisits at h
  cases hfound : db.queryDirectLoginInfo user.id (directNames format) with
  | error err =>
    rw [hfound] at h
    cases h
  | ok r =>
    rw [hfound] at h
    obtain ⟨hgranted, hasset, hsys⟩ := direct_granted hfound
    cases List.mem_singleton.mp h
    refine ⟨rfl, hgranted, fun client hshell => ?_, ⟨format, hname, hasset, hsys⟩⟩
    have hreach := (proxyVscode_events cs hfound).1.mp ⟨client, hshell⟩
    have hperm := hreach.2.2.2.1
    show ∃ g, db.grant user.id r.1.id = some g ∧ g.enableVscode = true
    cases hgrant : db.grant user.id r.1.id with
    | none =>
      rw [hgrant] at hperm
      cases hperm
    | some g =>
      rw [hgrant] at hperm
      exact ⟨g, rfl, hperm⟩

/-- The asset is in a node of the user in one of the databases. -/
def Offers (dbs : List DB) (user : User) (item : AssetItem) : Prop :=
  ∃ db ∈ dbs, InUserNode db user item.id

theorem offers_of_perms {db : DB} (hdb : db ∈ dbs) {items : List AssetItem} {nodes : List Node}
    (h : db.getAllUserPermsAssets user.nodeIDs = .ok (items, nodes)) :
    ∀ item ∈ items, Offers dbs user item := by
  obtain ⟨-, -, heq⟩ := getAllUserPermsAssets_eq_ok.mp h
  obtain ⟨rfl, -⟩ := Prod.mk.inj heq
  intro item hitem
  obtain ⟨a, ha, rfl⟩ := List.mem_map.mp hitem
  exact ⟨db, hdb, mem_permittedIds.mp (of_decide_eq_true (List.mem_filter.mp ha).2)⟩

theorem outcomeVisits_permitted {outcome : Outcome}
    (hoffers : ∀ item, outcome = .proxied item → Offers dbs user item)
    (h : v ∈ outcomeVisits cs user login outcome) : Permitted user dbs name v := by
  cases outcome with
  | displayed table | noTable => cases h
  | proxied item =>
    unfold outcomeVisits at h
    dsimp only at h
    cases htarget : proxyTarget cs login.lookup user item.id login.choice with
    | none =>
      rw [htarget] at h
      cases h
    | some r =>
      rw [htarget] at h
      obtain ⟨hget, hid, hactive, systemUsers, hsystem, hchoose⟩ := proxyTarget_eq_some.mp htarget
      obtain ⟨-, hlast⟩ := (getAssetById_iff hid).mp hget
      obtain ⟨db, hdb, hnode⟩ := hoffers item rfl
      refine newVisit_permitted rfl
        (granted_of_mem hlast.mem hsystem (chooseSystemUser_mem hchoose)) (fun _ => ?_) h
      exact ⟨hactive, db, hdb, by rw [hlast.prop]; exact hnode⟩

theorem menuVisits_permitted (lines : List (MenuLine Client)) : ∀ st : Interactive, st.user = user →
    Listed (Offers dbs user) st.select → (∀ input ∈ lines, input.env.db ∈ dbs) →
      v ∈ menuVisits st lines →
    Permitted user dbs name v := by
  induction lines with
  | nil => exact fun _ _ _ _ h => absurd h List.not_mem_nil
  | cons input rest ih =>
    intro st huser hlisted hdbs h
    rw [menuVisits] at h
    split_ifs at h
    · obtain ⟨hlisted', huser', hproxied⟩ := dispatch_listed input.env input.line hlisted (by
        rw [huser]
        exact fun items nodes hperms => offers_of_perms (hdbs input List.mem_cons_self) hperms)
      rcases List.mem_append.mp h with h | h
      · rw [huser] at h
        exact outcomeVisits_permitted hproxied h
      · exact ih _ (huser'.trans huser) hlisted' (fun i hi => hdbs i (List.mem_cons_of_mem _ hi)) h
    · cases h

theorem startDispatch_listed {P : AssetItem → Prop} (env : DispatchEnv) (conf : TerminalConfig)
    (hdb : ∀ items nodes, env.db.getAllUserPermsAssets user.nodeIDs = .ok (items, nodes) →
      ∀ item ∈ items, P item) :
    Listed P (startDispatch env user conf).select ∧ (startDispatch env user conf).user = user := by
  unfold startDispatch
  cases hall : env.db.getAllUserPermsAssets user.nodeIDs with
  | error err => exact ⟨⟨nofun, nofun⟩, rfl⟩
  | ok r =>
    have hfresh : Listed P (freshHandler r.1) := ⟨hdb r.1 r.2 hall, nofun⟩
    dsimp only
    split_ifs
    · exact ⟨(searchOrProxy_listed _ hfresh []).1, rfl⟩
    · exact ⟨hfresh, rfl⟩

theorem startOutcome_listed {P : AssetItem → Prop} (env : DispatchEnv) (conf : TerminalConfig)
    (hdb : ∀ items nodes, env.db.getAllUserPermsAssets user.nodeIDs = .ok (items, nodes) →
      ∀ item ∈ items, P item)
    (item : AssetItem) (h : startOutcome env user conf = .proxied item) : P item := by
  unfold startOutcome at h
  cases hall : env.db.getAllUserPermsAssets user.nodeIDs with
  | error err =>
    rw [hall] at h
    cases h
  | ok r =>
    rw [hall] at h
    have hfresh : Listed P (freshHandler r.1) := ⟨hdb r.1 r.2 hall, nofun⟩
    dsimp only at h
    split_ifs at h
    exact (searchOrProxy_listed _ hfresh []).2 item h

theorem interactiveVisits_permitted {input : SessionInput Client}
    (h : v ∈ interactiveVisits user input) :
    Permitted user input.dbs name v := by
  have hdb : ∀ items nodes, input.env.db.getAllUserPermsAssets user.nodeIDs = .ok (items, nodes) →
      ∀ item ∈ items, Offers input.dbs user item :=
    fun items nodes hall => offers_of_perms List.mem_cons_self hall
  rcases List.mem_append.mp h with h | h
  · exact outcomeVisits_permitted (startOutcome_listed input.env input.terminalConf hdb) h
  · obtain ⟨hlisted, huser⟩ := startDispatch_listed input.env input.terminalConf hdb
    refine menuVisits_permitted input.lines _ huser hlisted (fun line hline => ?_) h
    exact List.mem_cons_of_mem _ (List.mem_map_of_mem hline)

theorem userSession_permitted {ctx : Context} {connUser : GoString} {input : SessionInput Client}
    (hformat : ctx.directLoginFormat = parseUserFormatBySeparator name)
    (h : v ∈ (userSession ctx connUser user input).visits) : Permitted user input.dbs name v := by
  unfold userSession at h
  cases hsome : ctx.directLoginFormat with
  | some format =>
    rw [hsome] at h hformat
    dsimp only at h
    split_ifs at h
    · exact directVisits_permitted hformat.symm h
    · cases h
    · exact vscodeVisits_permitted hformat.symm h
  | none =>
    rw [hsome] at h
    dsimp only at h
    split_ifs at h
    · cases h
    · exact interactiveVisits_permitted h
    · cases h
    · cases h

end Visits

/-! ## The connection and its sessions -/

theorem mem_session_visits {s : Login} {input : SessionInput Client} {v : Visit Client}
    (h : v ∈ (s.session input).visits) :
    ∃ name ctx u, s.connUser = some name ∧ s.ctx = some ctx ∧ ctx.authUser = some u ∧ u.id ≠ [] ∧
      v ∈ (userSession ctx name u.toUser input).visits := by
  unfold Login.session at h
  split at h
  · rename_i name ctx hname hctx
    unfold sessionHandler at h
    cases hu : ctx.authUser with
    | none =>
      rw [hu] at h
      cases h
    | some u =>
      rw [hu] at h
      dsimp only at h
      split_ifs at h with hid
      · cases h
      · exact ⟨name, ctx, u, hname, hctx, hu, hid, h⟩
  · cases h

/-- Behind every shell on an asset, whatever a client sends before and in its session, and
    whatever becomes of the database in between: one of the requests of the connection has
    authenticated a user, by the name and address of the first request; the shell is for this
    user; the user is granted the system user on the asset; what the kind of the visit checks
    has been checked; and the asset was offered by the menu or named by the first request. -/
theorem shell_policy (env : AuthEnv) (core : CoreState) (acts : List LoginAct) (s : Login)
    (h : run (loginStep env) (.new core) acts = some s) (input : SessionInput Client)
    (v : Visit Client)
    (hv : v ∈ (s.session input).visits) (client : Client)
    (hshell : .shellStarted client ∈ v.events) :
    ∃ first u, firstRequest acts = some first ∧
      AuthenticatedBy env core acts first.user first.remoteAddr u ∧ v.opts.user = u.toUser ∧
      Granted v.lookup v.opts ∧ v.Gated ∧ v.Chosen input.dbs first.user := by
  have hinv := run_loginInv env core acts s h
  obtain ⟨name, ctx, u, hname, hctx, hu, -, hmem⟩ := mem_session_visits hv
  have hgranted := hinv.granted (List.ne_nil_of_mem (hinv.connUser name hname))
  have hfirst := hinv.first
  rw [hctx] at hgranted hfirst
  obtain ⟨_, ⟨⟩, -, hformat⟩ := hgranted
  obtain ⟨first, hsome, hvalues⟩ := Option.map_eq_some_iff.mp hfirst.symm
  obtain ⟨huser, haddr, -⟩ : first.user = ctx.user ∧ first.remoteAddr = ctx.remoteAddr ∧ _ := by
    simpa only [Prod.mk.injEq] using hvalues
  have hpermitted : Permitted u.toUser input.dbs first.user v :=
    userSession_permitted (by rw [hformat, huser]) hmem
  refine ⟨first, u, hsome, ?_, hpermitted.user_eq, hpermitted.granted,
    hpermitted.gated client hshell, hpermitted.chosen⟩
  rw [huser, haddr]
  exact hinv.user ctx hctx u hu

/-- Bob's asset, with a system user and a grant for Bob. -/
def webDB : DB where
  asset := [{ (default : Asset) with
    id := str "a", name := str "web", protocols := [str "ssh/22"] }]
  node := []
  systemUser := [{ (default : SystemUser) with
    id := str "s", username := str "root", protocol := protocolSSH, password := str "toor" }]
  assetUserInfo := [⟨str "1", str "a", 0, [str "s"], false, false⟩]
  terminalConf := []
  fails := fun _ => none

/-- Nothing is cached, and the dial succeeds. -/
def dialWorld : World ℕ where
  reuseConnection := false
  usernameLines := []
  passwordLine := none
  cache := fun _ => none
  cachedSession := ⟨true, true, true, true, true⟩
  now := 2
  confirm := .notNeeded
  createSession := true
  dial := some 7
  dialledSession := ⟨true, true, true, true, true⟩

def webLogin : AssetLogin ℕ := ⟨webDB, [], webDB, dialWorld⟩

/-- A session with a terminal in which nothing is typed. -/
def ptySession : SessionInput ℕ :=
  ⟨asciiCasing, true, false, pageOf20,
    ⟨asciiCasing, 24, insertionSorting AssetItem, insertionSorting Node, webDB⟩,
    webLogin, [], vscodeWorld⟩

/-- The metadata of a request from Bob's address. -/
def from10 (user : String) : ConnMetadata := ⟨str user, [1, 171], str "10.0.0.1"⟩

/-- Both methods are enabled. -/
def bothEnabled : AuthConfig := ⟨true, true⟩

/-- A direct login of Bob. -/
def bobDirect : List LoginAct :=
  [.request (from10 "bob@root@web") bothEnabled (bobTries (str "secret")),
    .accept (str "bob@root@web")]

theorem shell_policy_direct : ∃ s v,
    run (loginStep plainEnv) (.new ⟨.init, .init⟩) bobDirect = some s ∧
      (s.session ptySession).visits = [v] ∧
    .shellStarted 7 ∈ v.events ∧ v.Gated := by
  obtain ⟨first, u, -, -, -, -, hgated, -⟩ :=
    shell_policy plainEnv ⟨.init, .init⟩ bobDirect _ rfl ptySession _
    (List.mem_singleton_self _) 7 (by decide)
  exact ⟨_, _, rfl, rfl, by decide, hgated⟩

/-! ## The rows of a session's end -/

/-- The same request under another name. -/
def renamed (name : GoString) : LoginAct → LoginAct
  | .request conn conf input => .request { conn with user := name } conf input
  | .accept _ => .accept name

/-- The connections differ in the names under which requests were granted. -/
structure Renames (name : GoString) (s s' : Login) : Prop where
  core : s'.core = s.core
  ctx : s'.ctx = s.ctx
  started : s.ctx.isSome = true
  granted : s'.granted = s.granted.map fun _ => name
  connUser : s'.connUser = s.connUser.map fun _ => name

/-- The metadata of a later request is not looked at. -/
theorem loginStep_later (env : AuthEnv) {s : Login} {ctx : Context} (hnone : s.connUser = none)
    (hctx : s.ctx = some ctx) (conn : ConnMetadata) (conf : AuthConfig) (input : AttemptInput) :
    let r := authHandler env conf input (input.others s.core) ctx
    loginStep env s (.request conn conf input) = some { s with
      core := r.2.1, ctx := some r.2.2
      granted := if r.1 then s.granted ++ [conn.user] else s.granted } := by
  intro r
  show (if s.connUser = none then _ else none) = _
  rw [if_pos hnone, hctx]
  rfl

theorem Renames.step {env : AuthEnv} {name : GoString} {s s' t : Login} {a : LoginAct}
    (h : Renames name s s') (hstep : loginStep env s a = some t) :
    ∃ t', loginStep env s' (renamed name a) = some t' ∧ Renames name t t' := by
  obtain ⟨ctx, hctx⟩ := Option.isSome_iff_exists.mp h.started
  cases a with
  | request conn conf input =>
    obtain ⟨hnone, -⟩ := Option.ite_none_right_eq_some.mp hstep
    have hnone' : s'.connUser = none := by
      rw [h.connUser, hnone]
      rfl
    rw [loginStep_later env hnone hctx] at hstep
    cases hstep
    refine ⟨_, loginStep_later env hnone' (h.ctx.trans hctx) _ conf input, ?_, ?_, rfl, ?_,
      h.connUser⟩
    · rw [h.core]
    · rw [h.core]
    · rw [h.core]
      dsimp only
      split_ifs
      · rw [h.granted, List.map_append]
        rfl
      · exact h.granted
  | accept n =>
    obtain ⟨⟨hnone, hmem⟩, hstep⟩ := Option.ite_none_right_eq_some.mp hstep
    cases hstep
    have hnone' : s'.connUser = none := by
      rw [h.connUser, hnone]
      rfl
    have hmem' : name ∈ s'.granted := by
      rw [h.granted]
      exact List.mem_map.mpr ⟨n, hmem, rfl⟩
    exact ⟨_, if_pos ⟨hnone', hmem'⟩, h.core, h.ctx, h.started, h.granted, rfl⟩

theorem Renames.run {env : AuthEnv} {name : GoString} (acts : List LoginAct) : ∀ {s s' t : Login},
    Renames name s s' → run (loginStep env) s acts = some t →
    ∃ t', run (loginStep env) s' (acts.map (renamed name)) = some t' ∧ Renames name t t' := by
  induction acts with
  | nil =>
    intro s s' t h hrun
    cases hrun
    exact ⟨s', rfl, h⟩
  | cons a acts ih =>
    intro s s' t h hrun
    obtain ⟨u, hstep, hrun⟩ := run_cons_eq_some.mp hrun
    obtain ⟨u', hstep', hu⟩ := h.step hstep
    obtain ⟨t', hrun', ht⟩ := ih hu hrun
    exact ⟨t', run_cons_eq_some.mpr ⟨u', hstep', hrun'⟩, ht⟩

/-- The name of the accepted request is read for the row at the end only. -/
theorem userSession_connUser (ctx : Context) (connUser name : GoString) (user : User)
    (input : SessionInput Client) :
    (userSession ctx name user input).visits = (userSession ctx connUser user input).visits ∧
    (userSession ctx name user input).said = (userSession ctx connUser user input).said ∧
    (userSession ctx name user input).exitRows =
      (userSession ctx connUser user input).exitRows.map fun _ => name := by
  unfold userSession
  cases ctx.directLoginFormat with
  | some format =>
    dsimp only
    split_ifs <;> exact ⟨rfl, rfl, rfl⟩
  | none =>
    dsimp only
    split_ifs <;> exact ⟨rfl, rfl, rfl⟩

theorem Renames.session {name : GoString} {s s' : Login} (h : Renames name s s')
    (input : SessionInput Client) :
    (s'.session input).visits = (s.session input).visits ∧
      (s'.session input).said = (s.session input).said ∧
    (s'.session input).exitRows = (s.session input).exitRows.map fun _ => name := by
  unfold Login.session
  rw [h.connUser, h.ctx]
  cases s.connUser with
  | none => exact ⟨rfl, rfl, rfl⟩
  | some connUser =>
    cases s.ctx with
    | none => exact ⟨rfl, rfl, rfl⟩
    | some ctx =>
      show (sessionHandler ctx name input).visits = (sessionHandler ctx connUser input).visits ∧
        (sessionHandler ctx name input).said = (sessionHandler ctx connUser input).said ∧
        (sessionHandler ctx name input).exitRows =
        (sessionHandler ctx connUser input).exitRows.map fun _ => name
      unfold sessionHandler
      cases ctx.authUser with
      | none => exact ⟨rfl, rfl, rfl⟩
      | some u =>
        dsimp only
        split_ifs
        · exact ⟨rfl, rfl, rfl⟩
        · exact userSession_connUser ctx connUser name u.toUser input

/-- Once the first request of a connection was refused, the later ones may carry any name:
    they are answered as before, for the user of the first name, and every session is the same,
    except that the row `exit terminal` is for that other name. -/
theorem exit_row_names_request (env : AuthEnv) (core : CoreState) (first : ConnMetadata)
    (conf : AuthConfig) (input₁ : AttemptInput) (s₁ : Login)
    (h₁ : loginStep env (.new core) (.request first conf input₁) = some s₁)
    (hrefused : s₁.granted = []) (later : List LoginAct) (s : Login)
    (h : run (loginStep env) s₁ later = some s) (name : GoString) :
    ∃ s', run (loginStep env) (.new core)
        (.request first conf input₁ :: later.map (renamed name)) = some s' ∧
      s'.ctx = s.ctx ∧ ∀ input : SessionInput Client,
        (s'.session input).visits = (s.session input).visits ∧
        (s'.session input).said = (s.session input).said ∧
        (s'.session input).exitRows = (s.session input).exitRows.map fun _ => name := by
  have hsame : Renames name s₁ s₁ := by
    cases h₁
    refine ⟨rfl, rfl, rfl, ?_, rfl⟩
    rw [hrefused]
    rfl
  obtain ⟨s', hrun, hs'⟩ := hsame.run later h
  exact ⟨s', run_cons_eq_some.mpr ⟨s₁, h₁, hrun⟩, hs'.ctx, hs'.session⟩

theorem exit_row_names_request_alice : ∃ s u,
    run (loginStep plainEnv) (.new ⟨.init, .init⟩)
      [.request (from10 "bob") bothEnabled (bobTries (str "guess")),
        .request (from10 "alice") bothEnabled (bobTries (str "secret")),
        .accept (str "alice")] = some s ∧
    s.ctx.bind (·.authUser) = some u ∧ u.username = str "bob" ∧
    (s.session ptySession).exitRows = [str "alice"] := by
  obtain ⟨s, hrun, hctx, hsession⟩ :=
    exit_row_names_request plainEnv ⟨.init, .init⟩ (from10 "bob") bothEnabled
      (bobTries (str "guess")) _ rfl rfl
      [.request (from10 "bob") bothEnabled (bobTries (str "secret")), .accept (str "bob")] _ rfl
      (str "alice")
  exact ⟨s, _, hrun, congrArg (Option.bind · (·.authUser)) hctx, rfl, (hsession ptySession).2.2⟩

end GoJump.Server
