import GoJump.Core.LoginLimit
import GoJump.Core.Otp
import GoJump.Lib.Table
import GoJump.Model.Records

/-!
# Authentication

Model of `SSHPasswordAndPublicKeyAuth` (`pkg/auth/ssh.go` lines 21–72),
`UserAuthClient.Authenticate` (`pkg/auth/userAuth.go` lines 26–56), `UserAuthenticate`
and `GetUser` (`pkg/core/user.go` lines 14–55) and the two comparisons
(`pkg/core/utils.go` lines 11–22, 58–65). The attempts on one SSH connection share the
context of the connection, in which the first one leaves a `UserAuthClient` that every
later one changes. Before each attempt the database may be another one, and other
connections and timers may have changed the counters and the one-time passwords.

* `Accepts`: what an attempt needs to be accepted, from the tables, the counter, the
  stored one-time passwords and the attempt itself.
* `auth_decision`: after any attempts on the connection, the next one is accepted
  exactly then, and it is counted exactly if it is neither accepted nor blocked.
-/

namespace GoJump.Auth.UserAuth

open GoJump.Go GoJump.Lib GoJump.Model
open GoJump.Core.LoginLimit (LimitState AuthResult userIsBlocked userIsBlocked_eq_false
  toNat_count_limitTryLogin)
open GoJump.Core.Otp (OtpStore)

/-! ## Tables -/

/-- The fields of `model.User` (`pkg/model/user.go` lines 6–15) that a login reads. -/
structure UserRow extends User where
  expireAt : ℤ
  otpLevel : ℤ
  isActive : Bool
  /-- `none` when the row has no list -/
  addrWhiteList : Option (List GoString)
  deriving DecidableEq, Inhabited

/-- The fields of `model.UserSecret` (lines 21–26) that a login reads. -/
structure UserSecret where
  userID : GoString
  password : GoString
  authorizedKeys : List GoString
  deriving DecidableEq, Inhabited

/-- The tables `USER` and `USERSECRET`, and the queries that fail with an error.
    Usernames are unique and user ids not empty in the one, user ids unique in the
    other. -/
structure AuthDB where
  user : List UserRow
  userSecret : List UserSecret
  userFails : GoString → Option GoString
  secretFails : GoString → Option GoString
  username_nodup : (user.map fun u => u.username).Nodup
  userId_ne : ∀ u ∈ user, u.id ≠ []
  userID_nodup : (userSecret.map fun s => s.userID).Nodup

/-- No query of an authentication fails. -/
def AuthDB.QueriesSucceed (db : AuthDB) : Prop :=
  (∀ name, db.userFails name = none) ∧ ∀ id, db.secretFails id = none

/-- What `StructScan` makes of a row: an empty list is read back as `nil`. -/
def UserRow.structScan (u : UserRow) : UserRow :=
  { u with addrWhiteList := u.addrWhiteList.filter (· ≠ []) }

/-- `GetUser` (`pkg/core/user.go` lines 45–55). -/
def AuthDB.getUser (db : AuthDB) (name : GoString) : Except GoString UserRow :=
  match db.userFails name with
  | some err => .error err
  | none =>
    let rows := db.user.filter fun u => u.username = name
    let user := (rows.getLast?.map UserRow.structScan).getD default
    if user.id = [] then .error (str "querying user: " ++ name ++ str " failed") else .ok user

/-- The query of `USERSECRET` (lines 29–38). -/
def AuthDB.getSecret (db : AuthDB) (userID : GoString) : Option UserSecret :=
  match db.secretFails userID with
  | some _ => none
  | none =>
    let sec := ((db.userSecret.filter fun s => s.userID = userID).getLast?).getD default
    if sec.userID = [] then none else some sec

/-! ## The decision as the code takes it -/

/-- `doPublicKeyMatch` (`pkg/core/utils.go` lines 11–22); 32 is the space. -/
def doPublicKeyMatch (authKeys : List GoString) (currPubkey : GoString) : Bool :=
  authKeys.any fun v =>
    match split v 32 with
    | _ :: keyInfo :: _ => decide (keyInfo = currPubkey)
    | _ => false

/-- What does not change during a run of the program: `MaxTryLogin`, and
    `bcrypt.CompareHashAndPassword`. -/
structure AuthEnv where
  maxTryLogin : UInt64
  compareHashAndPassword : GoString → GoString → Bool

/-- `doPasswordsMatch` (lines 58–65). -/
def doPasswordsMatch (env : AuthEnv) (hashedPassword currPassword : GoString) : Bool :=
  if currPassword = [] then false else env.compareHashAndPassword hashedPassword currPassword

/-- `verifyOTP` (`pkg/core/otp.go` lines 41–57) when no other goroutine comes in
    between. -/
def verifyOTP (s : OtpStore) (name inputPass : GoString) : Bool × OtpStore :=
  if inputPass = [] then (false, s)
  else
    match s.otpassword name with
    | none => (false, s)
    | some pass => if pass = inputPass then (true, s.delete name) else (false, s)

/-- `UserAuthenticate` once the user is known not to use one-time passwords (lines
    29–42). -/
def checkSecret (env : AuthEnv) (db : AuthDB) (user : UserRow) (pass pubKey : GoString) : Bool :=
  match db.getSecret user.id with
  | none => false
  | some sec =>
    if pubKey ≠ [] then doPublicKeyMatch sec.authorizedKeys pubKey
    else doPasswordsMatch env sec.password pass

/-- `UserAuthenticate` (lines 14–43): the user, if the credential verifies. -/
def userAuthenticate (env : AuthEnv) (db : AuthDB) (otp : OtpStore)
    (username pass pubKey : GoString) : Option UserRow × OtpStore :=
  match db.getUser username with
  | .error _ => (none, otp)
  | .ok user =>
    if user.isActive = false then (none, otp)
    else if user.otpLevel = 1 then
      let r := verifyOTP otp user.username pass
      (if r.1 then some user else none, r.2)
    else (if checkSecret env db user pass pubKey then some user else none, otp)

/-- `model.UserClient`; its `Username` is never set. -/
structure UserClient where
  password : GoString
  publicKey : GoString
  remoteAddr : GoString
  deriving DecidableEq, Inhabited

/-- What all connections share. -/
structure CoreState where
  limit : LimitState
  otp : OtpStore

/-- `Authenticate` (`pkg/auth/userAuth.go` lines 26–56). -/
def authenticate (env : AuthEnv) (db : AuthDB) (core : CoreState) (client : UserClient) (now : ℤ)
    (username : GoString) : (UserRow × AuthResult) × OtpStore :=
  if userIsBlocked env.maxTryLogin core.limit username then ((default, .authBlock), core.otp)
  else
    match userAuthenticate env db core.otp username client.password client.publicKey with
    | (none, otp) => ((default, .authFailed), otp)
    | (some user, otp) =>
      if (user.addrWhiteList.any fun l => !l.contains client.remoteAddr) then
        ((default, .authFailed), otp)
      else if user.expireAt ≠ 0 ∧ user.expireAt < now then ((default, .authFailed), otp)
      else ((user, .authSuccess), otp)

/-! ## The attempts of a connection -/

/-- The three parts of a login `user@sysuser@asset`. -/
structure LoginFormat where
  username : GoString
  sysuser : GoString
  asset : GoString
  deriving DecidableEq

/-- `parseUserFormatBySeparator` (`pkg/auth/ssh.go` lines 61–72); 64 is the at sign. -/
def parseUserFormatBySeparator (s : GoString) : Option LoginFormat :=
  match split s 64 with
  | [username, sysuser, asset] => some ⟨username, sysuser, asset⟩
  | _ => none

/-- The context of a connection: `ctx.User()` and the host of `ctx.RemoteAddr()`, and the
    values that attempts leave in it. -/
structure SSHContext where
  user : GoString
  remoteAddr : GoString
  directLoginFormat : Option LoginFormat
  client : Option UserClient
  authUser : Option UserRow
  deriving DecidableEq

/-- An attempt, as `PasswordAuth` and `PublicKeyAuth` make it
    (`pkg/server/sshHandler.go` lines 40–61). -/
inductive Attempt
  | password (password : GoString)
  | publicKey (publicKey : GoString)
  deriving DecidableEq

/-- The arguments `password` and `publicKey` of the attempt. -/
def Attempt.args : Attempt → GoString × GoString
  | password p => (p, [])
  | publicKey k => ([], k)

/-- An attempt with what it finds: the database, the clock, and what others have done to
    the shared state since the last one. -/
structure AttemptInput where
  db : AuthDB
  now : ℤ
  others : CoreState → CoreState
  attempt : Attempt

/-- The switch on what `Authenticate` returned (lines 44–57): the answer, the shared state
    and the context after it. -/
def authAnswer (core : CoreState) (ctx : SSHContext) (username : GoString)
    (r : (UserRow × AuthResult) × OtpStore) : Bool × CoreState × SSHContext :=
  match r.1.2 with
  | .authSuccess => (true, { core with otp := r.2 }, { ctx with authUser := some r.1.1 })
  | .authFailed => (false, ⟨core.limit.limitTryLogin username, r.2⟩, ctx)
  | .authBlock => (false, { core with otp := r.2 }, ctx)

/-- `SSHPasswordAndPublicKeyAuth` (lines 21–59). -/
def sshPasswordAndPublicKeyAuth (env : AuthEnv) (input : AttemptInput) (core : CoreState)
    (ctx : SSHContext) : Bool × CoreState × SSHContext :=
  let (password, publicKey) := input.attempt.args
  let parsed := parseUserFormatBySeparator ctx.user
  let username := (parsed.map (·.username)).getD ctx.user
  let ctx := { ctx with directLoginFormat := parsed <|> ctx.directLoginFormat }
  -- the client of an earlier attempt is taken from the context and changed
  let client := { ctx.client.getD default with
    password := password, publicKey := publicKey, remoteAddr := ctx.remoteAddr }
  let ctx := { ctx with client := some client }
  authAnswer core ctx username (authenticate env input.db core client input.now username)

/-- The shared state and the context of the connection. -/
structure Connection where
  core : CoreState
  ctx : SSHContext

/-- One attempt, after what others have done. -/
def attemptStep (env : AuthEnv) (c : Connection) (input : AttemptInput) : Option Connection :=
  let r := sshPasswordAndPublicKeyAuth env input (input.others c.core) c.ctx
  some ⟨r.2.1, r.2.2⟩

/-- A new connection with this `ctx.User()` from this address. -/
def newConnection (login addr : GoString) (core : CoreState) : Connection :=
  ⟨core, ⟨login, addr, none, none, none⟩⟩

/-! ## What an attempt needs -/

/-- The username of a login. -/
def loginName (login : GoString) : GoString :=
  ((parseUserFormatBySeparator login).map (·.username)).getD login

/-- The credential of the attempt verifies for the user: the stored one-time password
    for `OTPLevel` 1; otherwise the second field of an authorized key, or the hash of
    the password. -/
def Verifies (env : AuthEnv) (otpassword : GoString → Option GoString) (db : AuthDB) (u : UserRow) :
    Attempt → Prop
  | .password p => p ≠ [] ∧
    if u.otpLevel = 1 then otpassword u.username = some p
    else ∃ sec ∈ db.userSecret, sec.userID = u.id ∧
      env.compareHashAndPassword sec.password p = true
  | .publicKey k => k ≠ [] ∧ u.otpLevel ≠ 1 ∧
    ∃ sec ∈ db.userSecret, sec.userID = u.id ∧
      ∃ entry ∈ sec.authorizedKeys, (split entry 32)[1]? = some k

/-- The user may log in from this address at this time; an empty white list is none. -/
def UserRow.Admits (u : UserRow) (addr : GoString) (now : ℤ) : Prop :=
  (∀ l, u.addrWhiteList = some l → l ≠ [] → addr ∈ l) ∧ (u.expireAt = 0 ∨ now ≤ u.expireAt)

/-- What an attempt needs to be accepted; `count` and `otpassword` are the only things
    that earlier attempts can have changed. -/
def Accepts (env : AuthEnv) (count : UInt64) (otpassword : GoString → Option GoString)
    (login addr : GoString) (input : AttemptInput) : Prop :=
  count < env.maxTryLogin ∧
  ∃ u ∈ input.db.user, u.username = loginName login ∧ u.isActive = true ∧
    Verifies env otpassword input.db u input.attempt ∧ u.Admits addr input.now

/-! ## The functions against what an attempt needs -/

theorem getUser_eq_ok {db : AuthDB} (hq : db.QueriesSucceed) {name : GoString} {u : UserRow} :
    db.getUser name = .ok u ↔ ∃ row ∈ db.user, row.username = name ∧ row.structScan = u := by
  have hlast : ∀ row, (db.user.filter fun v => v.username = name).getLast? = some row ↔
      row ∈ db.user ∧ row.username = name :=
    fun row => getLast?_filter_key db.username_nodup
  simp only [← and_assoc, ← hlast]
  unfold AuthDB.getUser
  rw [hq.1 name]
  dsimp only
  cases hl : (db.user.filter fun v => v.username = name).getLast? with
  | none => simp [default, instInhabitedUserRow.default, instInhabitedUser.default]
  | some v =>
    have hid : v.structScan.id ≠ [] := db.userId_ne v ((hlast v).mp hl).1
    simp [hid]

theorem getSecret_eq_some {db : AuthDB} (hq : db.QueriesSucceed) {userID : GoString}
    (hid : userID ≠ []) {sec : UserSecret} :
    db.getSecret userID = some sec ↔ sec ∈ db.userSecret ∧ sec.userID = userID := by
  unfold AuthDB.getSecret
  rw [hq.2 userID, ← getLast?_filter_key db.userID_nodup]
  dsimp only
  cases hl : (db.userSecret.filter fun v => v.userID = userID).getLast? with
  | none => simp [default, instInhabitedUserSecret.default]
  | some v =>
    have hv : v.userID = userID := (getLast?_filter_key db.userID_nodup |>.mp hl).2
    simp [hv, hid]

theorem doPublicKeyMatch_iff {authKeys : List GoString} {key : GoString} :
    doPublicKeyMatch authKeys key = true ↔
      ∃ entry ∈ authKeys, (split entry 32)[1]? = some key := by
  unfold doPublicKeyMatch
  rw [List.any_eq_true]
  apply exists_congr
  intro entry
  apply and_congr_right
  intro _
  split
  · rename_i heq
    simp [heq]
  · rename_i hno
    match hs : split entry 32 with
    | [] => simp
    | [a] => simp
    | a :: b :: rest => exact absurd hs (hno a b rest)

theorem verifyOTP_fst {s : OtpStore} {name inputPass : GoString} :
    (verifyOTP s name inputPass).1 = true ↔
      inputPass ≠ [] ∧ s.otpassword name = some inputPass := by
  unfold verifyOTP
  split_ifs with h
  · simp [h]
  · cases hs : s.otpassword name with
    | none => simp
    | some pass =>
      dsimp only
      split_ifs with heq
      · simp [h, heq]
      · simp [heq]

/-- It is the run of a `verifyOTP` goroutine that is alone. -/
theorem verifyOTP_run (s : OtpStore) (name inputPass : GoString) :
    ∃ as, run (Pool.step GoJump.Core.Otp.exec) ⟨s, [.verifyOTP name inputPass]⟩ as =
      some ⟨(verifyOTP s name inputPass).2,
        [if (verifyOTP s name inputPass).1 then .accepted (s.generation name) else .refused]⟩ := by
  by_cases h : inputPass = []
  · exact ⟨[(0, none)], by simp [run, Pool.step, GoJump.Core.Otp.exec, verifyOTP, h]⟩
  · cases hs : s.otpassword name with
    | none => exact ⟨[(0, none)], by simp [run, Pool.step, GoJump.Core.Otp.exec, verifyOTP, h, hs]⟩
    | some pass =>
      by_cases heq : pass = inputPass
      · exact ⟨[(0, none), (0, none), (0, none)],
          by simp [run, Pool.step, GoJump.Core.Otp.exec, verifyOTP, h, hs, heq]⟩
      · exact ⟨[(0, none), (0, none)],
          by simp [run, Pool.step, GoJump.Core.Otp.exec, verifyOTP, h, hs, heq]⟩

theorem checkSecret_iff (env : AuthEnv) {db : AuthDB} (hq : db.QueriesSucceed) {u : UserRow}
    (hid : u.id ≠ []) (hotp : u.otpLevel ≠ 1) (otpassword : GoString → Option GoString)
    (a : Attempt) :
    checkSecret env db u a.args.1 a.args.2 = true ↔ Verifies env otpassword db u a := by
  have hsec : ∀ sec, db.getSecret u.id = some sec ↔ sec ∈ db.userSecret ∧ sec.userID = u.id :=
    fun sec => getSecret_eq_some hq hid
  have hcheck : checkSecret env db u a.args.1 a.args.2 = true ↔
      ∃ sec, db.getSecret u.id = some sec ∧ (if a.args.2 ≠ [] then
        doPublicKeyMatch sec.authorizedKeys a.args.2
        else doPasswordsMatch env sec.password a.args.1) = true := by
    unfold checkSecret
    cases db.getSecret u.id with
    | none => simp
    | some sec => simp
  rw [hcheck]
  cases a with
  | password p =>
    simp only [Attempt.args, ne_eq, not_true_eq_false, if_false, Verifies, if_neg hotp, hsec,
      doPasswordsMatch]
    by_cases hp : p = []
    · simp [hp]
    · simp [hp, and_assoc]
  | publicKey k =>
    simp only [Attempt.args, Verifies, hsec]
    by_cases hk : k = []
    · simp [hk, doPasswordsMatch]
    · simp [hk, hotp, doPublicKeyMatch_iff, and_assoc]

theorem userAuthenticate_fst (env : AuthEnv) {db : AuthDB} (hq : db.QueriesSucceed)
    (otp : OtpStore) (name : GoString) (a : Attempt) (u : UserRow) :
    (userAuthenticate env db otp name a.args.1 a.args.2).1 = some u ↔
      (∃ row ∈ db.user, row.username = name ∧ row.structScan = u) ∧ u.isActive = true ∧
        Verifies env otp.otpassword db u a := by
  rw [← getUser_eq_ok hq]
  unfold userAuthenticate
  cases hget : db.getUser name with
  | error err => simp
  | ok v =>
    have hid : v.id ≠ [] := by
      obtain ⟨row, hrow, -, rfl⟩ := (getUser_eq_ok hq).mp hget
      exact db.userId_ne row hrow
    simp only [Except.ok.injEq]
    by_cases hact : v.isActive = false
    · rw [if_pos hact]
      constructor
      · intro h
        cases h
      · rintro ⟨rfl, h, _⟩
        rw [hact] at h
        cases h
    rw [if_neg hact]
    rw [Bool.not_eq_false] at hact
    have key : ∀ b : Bool, (b = true ↔ Verifies env otp.otpassword db v a) →
        ((if b then some v else none) = some u ↔
          v = u ∧ u.isActive = true ∧ Verifies env otp.otpassword db u a) := by
      intro b hb
      by_cases hok : b = true
      · rw [if_pos hok, Option.some.injEq]
        constructor
        · rintro rfl
          exact ⟨rfl, hact, hb.mp hok⟩
        · exact fun h => h.1
      · rw [if_neg hok]
        constructor
        · intro h
          cases h
        · rintro ⟨rfl, _, h⟩
          exact absurd (hb.mpr h) hok
    by_cases hotp : v.otpLevel = 1
    · rw [if_pos hotp]
      apply key
      rw [verifyOTP_fst]
      cases a with
      | password p => simp [Attempt.args, Verifies, hotp]
      | publicKey k => simp [Attempt.args, Verifies, hotp]
    · rw [if_neg hotp]
      exact key _ (checkSecret_iff env hq hid hotp otp.otpassword a)

theorem structScan_addrWhiteList_ne (u : UserRow) : u.structScan.addrWhiteList ≠ some [] := by
  simp [UserRow.structScan, Option.filter_eq_some_iff]

theorem admits_structScan {u : UserRow} {addr : GoString} {now : ℤ} :
    u.structScan.Admits addr now ↔ u.Admits addr now := by
  unfold UserRow.Admits
  apply and_congr_left'
  simp [UserRow.structScan, Option.filter_eq_some_iff]

theorem admits_iff {u : UserRow} (hlist : u.addrWhiteList ≠ some []) {addr : GoString} {now : ℤ} :
    u.Admits addr now ↔ (u.addrWhiteList.any fun l => !l.contains addr) = false ∧
      ¬ (u.expireAt ≠ 0 ∧ u.expireAt < now) := by
  unfold UserRow.Admits
  apply and_congr
  · cases hl : u.addrWhiteList with
    | none => simp
    | some l =>
      have hne : l ≠ [] := fun h => hlist (h ▸ hl)
      simp [hne]
  · constructor
    · omega
    · omega

/-- When `Authenticate` blocks and when it succeeds. -/
theorem authenticate_result (env : AuthEnv) {db : AuthDB} (hq : db.QueriesSucceed)
    (core : CoreState) (addr : GoString) (now : ℤ) (name : GoString) (a : Attempt) :
    let res := (authenticate env db core ⟨a.args.1, a.args.2, addr⟩ now name).1.2
    (res = .authBlock ↔ userIsBlocked env.maxTryLogin core.limit name = true) ∧
    (res = .authSuccess ↔ userIsBlocked env.maxTryLogin core.limit name = false ∧
      ∃ u ∈ db.user, u.username = name ∧ u.isActive = true ∧
        Verifies env core.otp.otpassword db u a ∧ u.Admits addr now) := by
  have hauth : (∃ u ∈ db.user, u.username = name ∧ u.isActive = true ∧
      Verifies env core.otp.otpassword db u a ∧ u.Admits addr now) ↔
      ∃ u, (userAuthenticate env db core.otp name a.args.1 a.args.2).1 = some u ∧
        u.Admits addr now := by
    simp only [userAuthenticate_fst env hq]
    constructor
    · rintro ⟨row, hrow, hname, hact, hver, hadm⟩
      exact ⟨row.structScan, ⟨⟨row, hrow, hname, rfl⟩, hact, hver⟩, admits_structScan.mpr hadm⟩
    · rintro ⟨_, ⟨⟨row, hrow, hname, rfl⟩, hact, hver⟩, hadm⟩
      exact ⟨row, hrow, hname, hact, hver, admits_structScan.mp hadm⟩
  rw [hauth]
  unfold authenticate
  dsimp only
  by_cases hblk : userIsBlocked env.maxTryLogin core.limit name = true
  · simp [hblk]
  rw [if_neg hblk]
  rw [Bool.not_eq_true] at hblk
  simp only [hblk, Bool.false_eq_true, iff_false, true_and]
  rcases hres : userAuthenticate env db core.otp name a.args.1 a.args.2 with ⟨_ | u, otp⟩
  · simp
  · have hne : u.addrWhiteList ≠ some [] := by
      obtain ⟨⟨row, -, -, rfl⟩, -⟩ :=
        (userAuthenticate_fst env hq core.otp name a u).mp (congrArg Prod.fst hres)
      exact structScan_addrWhiteList_ne row
    simp only [Option.some.injEq, exists_eq_left', admits_iff hne]
    split_ifs with hlist hexp
    · refine ⟨nofun, iff_of_false nofun ?_⟩
      intro h
      rw [hlist] at h
      cases h.1
    · exact ⟨nofun, iff_of_false nofun fun h => h.2 hexp⟩
    · rw [Bool.not_eq_true] at hlist
      exact ⟨nofun, iff_of_true rfl ⟨hlist, hexp⟩⟩

/-- The client an attempt hands to `Authenticate` has nothing of an earlier attempt. -/
theorem sshPasswordAndPublicKeyAuth_eq (env : AuthEnv) (input : AttemptInput) (core : CoreState)
    (ctx : SSHContext) :
    let r := authenticate env input.db core
      ⟨input.attempt.args.1, input.attempt.args.2, ctx.remoteAddr⟩ input.now (loginName ctx.user)
    (sshPasswordAndPublicKeyAuth env input core ctx).1 = decide (r.1.2 = .authSuccess) ∧
    (sshPasswordAndPublicKeyAuth env input core ctx).2.1.limit =
      (if r.1.2 = .authFailed then core.limit.limitTryLogin (loginName ctx.user) else core.limit) ∧
    (sshPasswordAndPublicKeyAuth env input core ctx).2.2.user = ctx.user ∧
    (sshPasswordAndPublicKeyAuth env input core ctx).2.2.remoteAddr = ctx.remoteAddr := by
  intro r
  have hr : sshPasswordAndPublicKeyAuth env input core ctx = authAnswer core { ctx with
      directLoginFormat := parseUserFormatBySeparator ctx.user <|> ctx.directLoginFormat
      client := some ⟨input.attempt.args.1, input.attempt.args.2, ctx.remoteAddr⟩ }
      (loginName ctx.user) r := rfl
  rw [hr]
  unfold authAnswer
  cases r.1.2 with
  | authFailed => exact ⟨rfl, rfl, rfl, rfl⟩
  | authBlock => exact ⟨rfl, rfl, rfl, rfl⟩
  | authSuccess => exact ⟨rfl, rfl, rfl, rfl⟩

/-- An attempt leaves user and address of the connection alone. -/
theorem run_ctx {env : AuthEnv} {login addr : GoString} {core : CoreState}
    {inputs : List AttemptInput} {c : Connection}
    (hrun : run (attemptStep env) (newConnection login addr core) inputs = some c) :
    c.ctx.user = login ∧ c.ctx.remoteAddr = addr := by
  have hstep : ∀ c input c', (c.ctx.user = login ∧ c.ctx.remoteAddr = addr) →
      attemptStep env c input = some c' → c'.ctx.user = login ∧ c'.ctx.remoteAddr = addr := by
    intro c input c' hc h
    obtain ⟨_, _, huser, haddr⟩ :=
      sshPasswordAndPublicKeyAuth_eq env input (input.others c.core) c.ctx
    cases h
    exact ⟨huser.trans hc.1, haddr.trans hc.2⟩
  exact run_inv' hstep ⟨rfl, rfl⟩ hrun

theorem sshPasswordAndPublicKeyAuth_fst (env : AuthEnv) {input : AttemptInput}
    (hq : input.db.QueriesSucceed) (core : CoreState) (ctx : SSHContext) :
    (sshPasswordAndPublicKeyAuth env input core ctx).1 = true ↔
      Accepts env (core.limit.count (loginName ctx.user)) core.otp.otpassword ctx.user
        ctx.remoteAddr input := by
  rw [(sshPasswordAndPublicKeyAuth_eq env input core ctx).1, decide_eq_true_eq,
    (authenticate_result env hq core ctx.remoteAddr input.now _ input.attempt).2,
    userIsBlocked_eq_false]
  rfl

/-- After any sequence of attempts on a connection, with whatever databases, clocks and
    doings of others, the next attempt is accepted exactly if `Accepts` holds of the
    counter and the one-time passwords it finds; two histories that leave the same
    counter of the username and the same one-time passwords make no difference; and the
    attempt adds one to the counter of its username exactly if it is neither accepted
    nor blocked. -/
theorem auth_decision (env : AuthEnv) (login addr : GoString) (core₀ : CoreState)
    (inputs : List AttemptInput) (c : Connection)
    (hrun : run (attemptStep env) (newConnection login addr core₀) inputs = some c)
    (input : AttemptInput) (hq : input.db.QueriesSucceed) :
    let core := input.others c.core
    let r := sshPasswordAndPublicKeyAuth env input core c.ctx
    (r.1 = true ↔ Accepts env (core.limit.count (loginName login)) core.otp.otpassword login addr
      input) ∧
    (∀ core₀' inputs' c',
      run (attemptStep env) (newConnection login addr core₀') inputs' = some c' →
      (input.others c'.core).limit.count (loginName login) = core.limit.count (loginName login) →
      (input.others c'.core).otp.otpassword = core.otp.otpassword →
      (sshPasswordAndPublicKeyAuth env input (input.others c'.core) c'.ctx).1 = r.1) ∧
    (∀ user, (r.2.1.limit.count user).toNat = (core.limit.count user).toNat +
      if loginName login = user ∧ r.1 = false ∧
        userIsBlocked env.maxTryLogin core.limit (loginName login) = false then 1 else 0) := by
  intro core r
  obtain ⟨huser, haddr⟩ := run_ctx hrun
  have hfst : r.1 = true ↔ Accepts env (core.limit.count (loginName login)) core.otp.otpassword
      login addr input := by
    rw [← huser, ← haddr]
    exact sshPasswordAndPublicKeyAuth_fst env hq core c.ctx
  refine ⟨hfst, ?_, ?_⟩
  · intro core₀' inputs' c' hrun' hcount hotp
    obtain ⟨huser', haddr'⟩ := run_ctx hrun'
    rw [Bool.eq_iff_iff, hfst, sshPasswordAndPublicKeyAuth_fst env hq, huser', haddr', hcount, hotp]
  · intro user
    obtain ⟨hres, hlimit, _, _⟩ := sshPasswordAndPublicKeyAuth_eq env input core c.ctx
    have hblock := (authenticate_result env hq core c.ctx.remoteAddr input.now
      (loginName c.ctx.user) input.attempt).1
    rw [huser] at hres hlimit hblock
    have hr : r.1 = _ := hres
    have hl : r.2.1.limit = _ := hlimit
    rw [hr, hl]
    generalize (authenticate env input.db core _ input.now (loginName login)).1.2 = res at hblock
    cases res with
    | authFailed =>
      have hno : userIsBlocked env.maxTryLogin core.limit (loginName login) = false := by
        rw [← Bool.not_eq_true, ← hblock]
        simp
      have hroom : loginName login = user → (core.limit.count user).toNat + 1 < 2 ^ 64 := by
        rintro rfl
        have hbelow := UInt64.lt_iff_toNat_lt.mp (userIsBlocked_eq_false.mp hno)
        have hmax := env.maxTryLogin.toNat_lt
        omega
      rw [if_pos rfl, toNat_count_limitTryLogin hroom]
      simp [hno]
    | authBlock => simp [hblock.mp rfl]
    | authSuccess => simp

/-- Three attempts are allowed, and the hash of a password is the password. -/
def plainEnv : AuthEnv := ⟨3, fun hash pass => decide (hash = pass)⟩

/-- Bob, who may log in from one address until 100, and his password. -/
def bobDB : AuthDB where
  user := [{ (default : UserRow) with
    id := str "1", username := str "bob", expireAt := 100, isActive := true,
    addrWhiteList := some [str "10.0.0.1"] }]
  userSecret := [⟨str "1", str "secret", []⟩]
  userFails := fun _ => none
  secretFails := fun _ => none
  username_nodup := by decide
  userId_ne := by decide
  userID_nodup := by decide

/-- An attempt of bob at time 50, which nobody disturbs. -/
def bobTries (password : GoString) : AttemptInput := ⟨bobDB, 50, id, .password password⟩

/-- After a wrong password, which is counted, the right one is accepted. -/
theorem auth_decision_second_try :
    ∃ c, run (attemptStep plainEnv) (newConnection (str "bob@root@web") (str "10.0.0.1")
        ⟨.init, .init⟩) [bobTries (str "guess")] = some c ∧
      c.core.limit.count (str "bob") = 1 ∧ (bobTries (str "secret")).db.QueriesSucceed ∧
      Accepts plainEnv 1 c.core.otp.otpassword (str "bob@root@web") (str "10.0.0.1")
        (bobTries (str "secret")) := by
  refine ⟨_, rfl, rfl, ⟨fun _ => rfl, fun _ => rfl⟩, ?_⟩
  exact (auth_decision plainEnv (str "bob@root@web") (str "10.0.0.1") ⟨.init, .init⟩
    [bobTries (str "guess")] _ rfl (bobTries (str "secret"))
    ⟨fun _ => rfl, fun _ => rfl⟩).1.mp (by decide)

end GoJump.Auth.UserAuth
