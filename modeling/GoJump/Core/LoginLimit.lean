import GoJump.Go.Strings
import GoJump.Lib.Pool

/-!
# The brute-force limit

Model of `LimitTryLogin` and `UserIsBlocked` (`pkg/core/auth.go` lines 141–165)
and of the order in which a login uses them: `Authenticate`
(`pkg/auth/userAuth.go` lines 26–56) asks `UserIsBlocked` first and then checks
the credential, and `SSHPasswordAndPublicKeyAuth` (`pkg/auth/ssh.go` lines
44–56) calls `LimitTryLogin` after a failed check. The read, the check and the
increment are separate steps; `loginLock` makes each access to the map
`tryLoginCount` atomic. The first increment of a window starts a timer, whose
expiry deletes the entry: the reset. The counts and `MaxTryLogin` are `uint64`.

`failures` and `limitCalls` are not in the code. They count the failed
credential checks and the `LimitTryLogin` calls of a username since its last
reset.

* `limit_exceeded`: with `MaxTryLogin = 1`, two logins that both read the counter
  before either has incremented it make two failed checks in one window.
* `failures_le`: in every run in which a login is let past `UserIsBlocked` only
  while the counter plus the logins under way is below `MaxTryLogin`, no window
  has more than `MaxTryLogin` failed checks.
* `count_wraps`: after 2⁶⁴ `LimitTryLogin` calls in one window the count is zero.
* `lockout_bookkeeping`: in every run a username has an entry exactly when one
  reset of it is outstanding, and its count is the number of `LimitTryLogin` calls
  since its last reset, modulo 2⁶⁴.
-/

namespace GoJump.Core.LoginLimit

open GoJump.Go GoJump.Lib

/-- The results of `Authenticate` (`pkg/auth/userAuth.go` lines 11–15). -/
inductive AuthResult
  | authFailed
  | authBlock
  | authSuccess
  deriving DecidableEq

/-- The part of `Core` that `loginLock` guards, and the two counters of the
    model. -/
structure LimitState where
  tryLoginCount : GoString → Option UInt64
  failures : GoString → ℕ
  limitCalls : GoString → ℕ

/-- The state of `NewCore`. -/
def LimitState.init : LimitState := ⟨fun _ => none, fun _ => 0, fun _ => 0⟩

/-- `c.tryLoginCount[user]`, zero for an absent key. -/
def LimitState.count (s : LimitState) (user : GoString) : UInt64 :=
  (s.tryLoginCount user).getD 0

/-- `UserIsBlocked(user)` (lines 160–165). -/
def userIsBlocked (maxTryLogin : UInt64) (s : LimitState) (user : GoString) : Bool :=
  decide (s.count user ≥ maxTryLogin)

theorem userIsBlocked_eq_false {maxTryLogin : UInt64} {s : LimitState} {user : GoString} :
    userIsBlocked maxTryLogin s user = false ↔ s.count user < maxTryLogin := by
  unfold userIsBlocked
  simp

/-- A credential check of `user` has failed. -/
def LimitState.fail (s : LimitState) (user : GoString) : LimitState :=
  { s with failures := Function.update s.failures user (s.failures user + 1) }

/-- The critical section of `LimitTryLogin(user)` (lines 142–145); the sum wraps. -/
def LimitState.limitTryLogin (s : LimitState) (user : GoString) : LimitState :=
  { s with
    tryLoginCount := Function.update s.tryLoginCount user (some (s.count user + 1))
    limitCalls := Function.update s.limitCalls user (s.limitCalls user + 1) }

/-- The critical section of the timer goroutine (lines 152–154): the reset. -/
def LimitState.reset (s : LimitState) (user : GoString) : LimitState :=
  { tryLoginCount := Function.update s.tryLoginCount user none
    failures := Function.update s.failures user 0
    limitCalls := Function.update s.limitCalls user 0 }

/-- Where a goroutine stands. -/
inductive LoginProc
  /-- `Authenticate(user)` has been called -/
  | authenticate (user : GoString)
  /-- `UserIsBlocked` has returned `false` -/
  | admitted (user : GoString)
  /-- the credential check has failed, `LimitTryLogin(user)` comes next -/
  | failed (user : GoString)
  /-- `LimitTryLogin` has created the entry and is about to start its timer -/
  | starting (user : GoString)
  | returned (res : AuthResult)
  /-- the goroutine of lines 148–156 waits for its timer -/
  | timer (user : GoString)
  | timerDone
  deriving DecidableEq

/-- One atomic step; `ok` is the outcome of the credential check (password, key
    or one-time password, address white list and account expiry). -/
def exec (maxTryLogin : UInt64) (s : LimitState) (p : LoginProc) (ok : Bool) :
    Option (Effect LimitState LoginProc) :=
  match p with
  | .authenticate user =>
    if userIsBlocked maxTryLogin s user then some { shared := s, proc := .returned .authBlock }
    else some { shared := s, proc := .admitted user }
  | .admitted user =>
    if ok then some { shared := s, proc := .returned .authSuccess }
    else some { shared := s.fail user, proc := .failed user }
  | .failed user =>
    some { shared := s.limitTryLogin user,
           proc := if s.tryLoginCount user = none then .starting user else .returned .authFailed }
  | .starting user =>
    some { shared := s, proc := .returned .authFailed, spawned := [.timer user] }
  | .timer user => some { shared := s.reset user, proc := .timerDone }
  | .returned _ | .timerDone => none

/-- Any number of connections, each attempting one username. -/
def start (users : List GoString) : Pool LimitState LoginProc :=
  ⟨.init, users.map .authenticate⟩

/-- No username has more than `maxTryLogin` failed checks since its last reset. -/
def WithinLimit (maxTryLogin : UInt64) (c : Pool LimitState LoginProc) : Prop :=
  ∀ user, c.shared.failures user ≤ maxTryLogin.toNat

/-! ## The race -/

/-- Two connections read the counter, then both fail. -/
def raceRun : List (ℕ × Bool) := [(0, false), (1, false), (0, false), (1, false)]

theorem limit_exceeded :
    ∃ c, run (Pool.step (exec 1)) (start [str "root", str "root"]) raceRun = some c ∧
      ¬ WithinLimit 1 c := by
  refine ⟨_, rfl, fun h => ?_⟩
  exact absurd (h (str "root")) (by decide)

/-! ## Runs without the race -/

/-- A login of `user` that was let past `UserIsBlocked` and has neither
    succeeded nor been counted yet. -/
def underWay (user : GoString) : LoginProc → Bool
  | .admitted u => u = user
  | .failed u => u = user
  | _ => false

/-- A login of `user` whose check has failed and that is not counted yet. -/
def uncounted (user : GoString) : LoginProc → Bool
  | .failed u => u = user
  | _ => false

/-- The condition on a step: a login is let past `UserIsBlocked` only while the
    counter plus the logins of the same username under way is below the limit. -/
def AdmitsBelow (maxTryLogin : UInt64) (c : Pool LimitState LoginProc) (l : ℕ × Bool) : Prop :=
  match c.procs[l.1]? with
  | some (.authenticate user) =>
    userIsBlocked maxTryLogin c.shared user = false →
      (c.shared.count user).toNat + c.procs.countP (underWay user) < maxTryLogin.toNat
  | _ => True

instance (maxTryLogin : UInt64) (c : Pool LimitState LoginProc) (l : ℕ × Bool) :
    Decidable (AdmitsBelow maxTryLogin c l) := by
  unfold AdmitsBelow
  split <;> infer_instance

theorem uncounted_le_underWay (user : GoString) (l : List LoginProc) :
    l.countP (uncounted user) ≤ l.countP (underWay user) := by
  apply List.countP_mono_left
  intro p _ hp
  cases p with
  | failed u => exact hp
  | authenticate | admitted | starting | returned | timer | timerDone => simp [uncounted] at hp

@[simp] theorem count_fail (s : LimitState) (u user : GoString) :
    (s.fail u).count user = s.count user := rfl

theorem count_limitTryLogin (s : LimitState) (u user : GoString) :
    (s.limitTryLogin u).count user = s.count user + if u = user then 1 else 0 := by
  unfold LimitState.limitTryLogin LimitState.count
  by_cases h : u = user
  · subst h; simp
  · simp [Function.update_of_ne (Ne.symm h), h]

theorem toNat_count_limitTryLogin_le (s : LimitState) (u user : GoString) :
    ((s.limitTryLogin u).count user).toNat ≤
      (s.count user).toNat + if u = user then 1 else 0 := by
  rw [count_limitTryLogin]
  split_ifs
  · rw [UInt64.toNat_add]
    exact Nat.mod_le _ _
  · rw [UInt64.add_zero]
    exact Nat.le_refl _

theorem toNat_count_limitTryLogin {s : LimitState} {u user : GoString}
    (hroom : u = user → (s.count user).toNat + 1 < 2 ^ 64) :
    ((s.limitTryLogin u).count user).toNat =
      (s.count user).toNat + if u = user then 1 else 0 := by
  rw [count_limitTryLogin]
  split_ifs with h
  · rw [UInt64.toNat_add]
    exact Nat.mod_eq_of_lt (hroom h)
  · rw [UInt64.add_zero, Nat.add_zero]

theorem count_reset (s : LimitState) (u user : GoString) :
    (s.reset u).count user = if u = user then 0 else s.count user := by
  unfold LimitState.reset LimitState.count
  by_cases h : u = user
  · subst h; simp
  · simp [Function.update_of_ne (Ne.symm h), h]

theorem failures_fail (s : LimitState) (u user : GoString) :
    (s.fail u).failures user = s.failures user + if u = user then 1 else 0 := by
  unfold LimitState.fail
  by_cases h : u = user
  · subst h; simp
  · simp [Function.update_of_ne (Ne.symm h), h]

theorem failures_reset (s : LimitState) (u user : GoString) :
    (s.reset u).failures user = if u = user then 0 else s.failures user := by
  unfold LimitState.reset
  by_cases h : u = user
  · subst h; simp
  · simp [Function.update_of_ne (Ne.symm h), h]

/-- The counter and the logins under way stay within the limit, and every
    failure of the window is counted or about to be. A failure that a reset
    separates from its increment raises the counter of the next window, so the
    second part is an inequality. -/
structure LimitInv (maxTryLogin : UInt64) (c : Pool LimitState LoginProc) : Prop where
  bound : ∀ user, (c.shared.count user).toNat + c.procs.countP (underWay user) ≤
    maxTryLogin.toNat
  counted : ∀ user, c.shared.failures user ≤
    (c.shared.count user).toNat + c.procs.countP (uncounted user)

theorem start_inv (maxTryLogin : UInt64) (users : List GoString) :
    LimitInv maxTryLogin (start users) := by
  have h : ∀ user, (users.map LoginProc.authenticate).countP (underWay user) = 0 := by
    intro user
    rw [List.countP_eq_zero]
    intro p hp
    obtain ⟨u, _, rfl⟩ := List.mem_map.mp hp
    simp [underWay]
  refine ⟨fun user => ?_, fun user => Nat.zero_le _⟩
  rw [start, h user]
  exact Nat.zero_le _

/-- What one step can do, one constructor for each line of the source that it models. -/
inductive LimitStep (maxTryLogin : UInt64) (s : LimitState) :
    LoginProc → Effect LimitState LoginProc → Prop
  | block (u : GoString) (h : userIsBlocked maxTryLogin s u = true) :
    LimitStep maxTryLogin s (.authenticate u) { shared := s, proc := .returned .authBlock }
  | letPast (u : GoString) (h : userIsBlocked maxTryLogin s u = false) :
    LimitStep maxTryLogin s (.authenticate u) { shared := s, proc := .admitted u }
  | accept (u : GoString) :
    LimitStep maxTryLogin s (.admitted u) { shared := s, proc := .returned .authSuccess }
  | fail (u : GoString) :
    LimitStep maxTryLogin s (.admitted u) { shared := s.fail u, proc := .failed u }
  | firstCount (u : GoString) (h : s.tryLoginCount u = none) :
    LimitStep maxTryLogin s (.failed u) { shared := s.limitTryLogin u, proc := .starting u }
  | count (u : GoString) (h : s.tryLoginCount u ≠ none) :
    LimitStep maxTryLogin s (.failed u)
      { shared := s.limitTryLogin u, proc := .returned .authFailed }
  | startTimer (u : GoString) :
    LimitStep maxTryLogin s (.starting u)
      { shared := s, proc := .returned .authFailed, spawned := [.timer u] }
  | reset (u : GoString) :
    LimitStep maxTryLogin s (.timer u) { shared := s.reset u, proc := .timerDone }

theorem limitStep_of_exec {maxTryLogin : UInt64} {s : LimitState} {p : LoginProc} {ok : Bool}
    {e : Effect LimitState LoginProc} (h : exec maxTryLogin s p ok = some e) :
    LimitStep maxTryLogin s p e := by
  cases p with
  | authenticate u =>
    simp only [exec] at h
    split_ifs at h with hblk
    · cases h
      exact .block u hblk
    · cases h
      exact .letPast u (Bool.eq_false_iff.mpr hblk)
  | admitted u =>
    simp only [exec] at h
    split_ifs at h
    · cases h
      exact .accept u
    · cases h
      exact .fail u
  | failed u =>
    simp only [exec] at h
    split_ifs at h with hnone
    · cases h
      exact .firstCount u hnone
    · cases h
      exact .count u hnone
  | starting u =>
    cases h
    exact .startTimer u
  | timer u =>
    cases h
    exact .reset u
  | returned res => cases h
  | timerDone => cases h

/-- Unless it lets a login of `user` past `UserIsBlocked`, a step does not raise the
    counter plus the logins under way. -/
theorem LimitStep.bound {maxTryLogin : UInt64} {s : LimitState} {p : LoginProc}
    {e : Effect LimitState LoginProc} (h : LimitStep maxTryLogin s p e) (user : GoString) :
    (p = .authenticate user ∧ userIsBlocked maxTryLogin s user = false ∧
      e = { shared := s, proc := .admitted user }) ∨
    (e.shared.count user).toNat + (if underWay user e.proc then 1 else 0) +
        e.spawned.countP (underWay user) ≤
      (s.count user).toNat + (if underWay user p then 1 else 0) := by
  cases h with
  | letPast u h =>
    by_cases hu : u = user
    · subst hu
      exact Or.inl ⟨rfl, h, rfl⟩
    · simp [underWay, hu]
  | block u | accept u | fail u | startTimer u => simp [underWay]
  | firstCount u | count u =>
    right
    have := toNat_count_limitTryLogin_le s u user
    simpa [underWay] using this
  | reset u =>
    rw [count_reset]
    by_cases hu : u = user <;> simp [underWay, hu]

/-- A failure is uncounted at first and then counted, if there is room for it in the
    count; only a reset forgets it. -/
theorem LimitStep.counted {maxTryLogin : UInt64} {s : LimitState} {p : LoginProc}
    {e : Effect LimitState LoginProc} (h : LimitStep maxTryLogin s p e) (user : GoString)
    (hroom : uncounted user p = true → (s.count user).toNat + 1 < 2 ^ 64) :
    e.shared.failures user = 0 ∨
    e.shared.failures user + (s.count user).toNat + (if uncounted user p then 1 else 0) ≤
      s.failures user + (e.shared.count user).toNat + (if uncounted user e.proc then 1 else 0) +
        e.spawned.countP (uncounted user) := by
  cases h with
  | block u | letPast u | accept u | startTimer u => simp [uncounted]
  | fail u =>
    right
    simp only [failures_fail, count_fail, uncounted, decide_eq_true_eq, List.countP_nil,
      Bool.false_eq_true, if_false]
    omega
  | firstCount u | count u =>
    right
    have hfail : (s.limitTryLogin u).failures user = s.failures user := rfl
    have hcount : ((s.limitTryLogin u).count user).toNat =
        (s.count user).toNat + if u = user then 1 else 0 :=
      toNat_count_limitTryLogin fun hu => hroom (decide_eq_true hu)
    simp only [hfail, hcount, uncounted, decide_eq_true_eq, List.countP_nil,
      Bool.false_eq_true, if_false]
    omega
  | reset u =>
    rw [count_reset, failures_reset]
    by_cases hu : u = user <;> simp [uncounted, hu]

/-- One step keeps the invariant. -/
theorem step_inv {maxTryLogin : UInt64} {c c' : Pool LimitState LoginProc} {l : ℕ × Bool}
    (hinv : LimitInv maxTryLogin c) (hG : AdmitsBelow maxTryLogin c l)
    (h : Pool.step (exec maxTryLogin) c l = some c') : LimitInv maxTryLogin c' := by
  obtain ⟨p, e, hp, he, hsh, hpr⟩ := Pool.step_cases h
  have hstep := limitStep_of_exec he
  constructor
  · intro user
    have hway := Pool.countP_step (underWay user) e.proc e.spawned hp
    have hb := hinv.bound user
    rw [hsh, hpr]
    rcases hstep.bound user with ⟨rfl, hblk, rfl⟩ | hle
    · simp only [AdmitsBelow, hp] at hG
      have := hG hblk
      have hold : underWay user (.authenticate user) = false := rfl
      have hnew : underWay user (.admitted user) = true := decide_eq_true rfl
      dsimp only at hway ⊢
      rw [hold, hnew, List.countP_nil] at hway
      simp only [Bool.false_eq_true, if_false, if_true] at hway
      omega
    · omega
  · intro user
    have hunc := Pool.countP_step (uncounted user) e.proc e.spawned hp
    have hc := hinv.counted user
    -- a login under way leaves room below the limit, so its increment does not wrap
    have hroom : uncounted user p = true → (c.shared.count user).toNat + 1 < 2 ^ 64 := by
      intro hp'
      have hpos := List.countP_pos_iff.mpr ⟨p, List.mem_of_getElem? hp, hp'⟩
      have hle := uncounted_le_underWay user c.procs
      have hb := hinv.bound user
      have hmax := maxTryLogin.toNat_lt
      omega
    rw [hsh, hpr]
    rcases hstep.counted user hroom with hzero | hle
    · omega
    · omega

/-- Any number of connections on any usernames, in any interleaving of reads,
    checks, increments and resets in which a login is let past `UserIsBlocked`
    only while the counter plus the logins of that username under way is below
    `MaxTryLogin`: between two resets at most `MaxTryLogin` checks fail. -/
theorem failures_le (maxTryLogin : UInt64) (users : List GoString) (acts : List (ℕ × Bool))
    (c : Pool LimitState LoginProc)
    (hG : Meets (Pool.step (exec maxTryLogin)) (AdmitsBelow maxTryLogin) (start users) acts)
    (hrun : run (Pool.step (exec maxTryLogin)) (start users) acts = some c) :
    WithinLimit maxTryLogin c := by
  have hinv := run_inv (fun c l c' h hG hs => step_inv h hG hs) acts _ c
    (start_inv maxTryLogin users) hG hrun
  intro user
  have h1 := hinv.bound user
  have h2 := hinv.counted user
  have h3 := uncounted_le_underWay user c.procs
  omega

/-- The first connection is counted before the second one reads the counter. -/
def sequentialRun : List (ℕ × Bool) := [(0, false), (0, false), (0, false), (1, false)]

theorem failures_le_sequential :
    ∃ c, run (Pool.step (exec 1)) (start [str "root", str "root"]) sequentialRun = some c ∧
      c.procs[1]? = some (.returned .authBlock) ∧ WithinLimit 1 c :=
  ⟨_, rfl, rfl, failures_le 1 [str "root", str "root"] sequentialRun _ (by decide) rfl⟩

/-! ## Entries and their resets -/

/-- A reset of `user` is outstanding: its timer waits, or is about to be started by the
    call that has created the entry. -/
def outstanding (user : GoString) : LoginProc → Bool
  | .starting u => u = user
  | .timer u => u = user
  | _ => false

/-- Any number of connections, and of `LimitTryLogin` calls made by others. -/
def startCalls (users calls : List GoString) : Pool LimitState LoginProc :=
  ⟨.init, users.map .authenticate ++ calls.map .failed⟩

/-- One outstanding reset for each entry and no other, and the calls counted as far as
    the type of the count allows. -/
structure LockoutInv (c : Pool LimitState LoginProc) : Prop where
  resets : ∀ user, c.procs.countP (outstanding user) =
    if (c.shared.tryLoginCount user).isSome then 1 else 0
  counted : ∀ user, c.shared.count user = UInt64.ofNat (c.shared.limitCalls user)

theorem startCalls_inv (users calls : List GoString) : LockoutInv (startCalls users calls) := by
  refine ⟨fun user => ?_, fun user => rfl⟩
  show List.countP _ _ = 0
  rw [List.countP_eq_zero]
  intro p hp
  rcases List.mem_append.mp hp with hp | hp
  · obtain ⟨u, _, rfl⟩ := List.mem_map.mp hp
    simp [outstanding]
  · obtain ⟨u, _, rfl⟩ := List.mem_map.mp hp
    simp [outstanding]

theorem isSome_limitTryLogin (s : LimitState) (u user : GoString) :
    ((s.limitTryLogin u).tryLoginCount user).isSome =
      (decide (u = user) || (s.tryLoginCount user).isSome) := by
  unfold LimitState.limitTryLogin
  by_cases h : u = user
  · subst h; simp
  · simp [Function.update_of_ne (Ne.symm h), h]

theorem isSome_reset (s : LimitState) (u user : GoString) :
    ((s.reset u).tryLoginCount user).isSome =
      (decide (u ≠ user) && (s.tryLoginCount user).isSome) := by
  unfold LimitState.reset
  by_cases h : u = user
  · subst h; simp
  · simp [Function.update_of_ne (Ne.symm h), h]

/-- A step that creates an entry announces its reset, and one that removes an entry is
    that reset. -/
theorem LimitStep.resets {maxTryLogin : UInt64} {s : LimitState} {p : LoginProc}
    {e : Effect LimitState LoginProc} (h : LimitStep maxTryLogin s p e) (user : GoString)
    (hp : outstanding user p = true → (s.tryLoginCount user).isSome = true) :
    (if outstanding user e.proc then 1 else 0) + e.spawned.countP (outstanding user) +
        (if (s.tryLoginCount user).isSome then 1 else 0) =
      (if outstanding user p then 1 else 0) +
        if (e.shared.tryLoginCount user).isSome then 1 else 0 := by
  cases h with
  | block u | letPast u | accept u => simp [outstanding]
  | fail u =>
    have hsame : (s.fail u).tryLoginCount = s.tryLoginCount := rfl
    simp [outstanding, hsame]
  | firstCount u hnone =>
    dsimp only
    rw [isSome_limitTryLogin]
    by_cases hu : u = user
    · subst hu; simp [outstanding, hnone]
    · simp [outstanding, hu]
  | count u hsome =>
    dsimp only
    rw [isSome_limitTryLogin]
    by_cases hu : u = user
    · subst hu
      simp [outstanding, Option.isSome_iff_ne_none, hsome]
    · simp [outstanding, hu]
  | startTimer u =>
    by_cases hu : u = user
    · simp [outstanding, hu]
    · simp [outstanding, hu]
  | reset u =>
    dsimp only
    rw [isSome_reset]
    by_cases hu : u = user
    · simp [outstanding, hu, hp (by simp [outstanding, hu])]
    · simp [outstanding, hu]

theorem LimitStep.limitCalls {maxTryLogin : UInt64} {s : LimitState} {p : LoginProc}
    {e : Effect LimitState LoginProc} (h : LimitStep maxTryLogin s p e) {user : GoString}
    (hs : s.count user = UInt64.ofNat (s.limitCalls user)) :
    e.shared.count user = UInt64.ofNat (e.shared.limitCalls user) := by
  cases h with
  | block u | letPast u | accept u | fail u | startTimer u => exact hs
  | firstCount u | count u =>
    dsimp only
    rw [count_limitTryLogin, hs]
    unfold LimitState.limitTryLogin
    by_cases hu : u = user
    · subst hu; simp
    · simp [Function.update_of_ne (Ne.symm hu), hu]
  | reset u =>
    dsimp only
    rw [count_reset, hs]
    unfold LimitState.reset
    by_cases hu : u = user
    · subst hu; simp
    · simp [Function.update_of_ne (Ne.symm hu), hu]

theorem step_lockoutInv {maxTryLogin : UInt64} {c c' : Pool LimitState LoginProc} {l : ℕ × Bool}
    (hinv : LockoutInv c) (h : Pool.step (exec maxTryLogin) c l = some c') : LockoutInv c' := by
  obtain ⟨p, e, hp, he, hsh, hpr⟩ := Pool.step_cases h
  have hstep := limitStep_of_exec he
  refine ⟨fun user => ?_, fun user => ?_⟩
  · have hmem : outstanding user p = true → (c.shared.tryLoginCount user).isSome = true := by
      intro hout
      have hpos := List.countP_pos_iff.mpr ⟨p, List.mem_of_getElem? hp, hout⟩
      rw [hinv.resets user] at hpos
      split_ifs at hpos with hsome
      · exact hsome
      · omega
    have hcount := Pool.countP_step (outstanding user) e.proc e.spawned hp
    have hres := hstep.resets user hmem
    have hold := hinv.resets user
    rw [hsh, hpr]
    omega
  · rw [hsh]
    exact hstep.limitCalls (hinv.counted user)

/-- `n` calls of `LimitTryLogin(user)`, one after another. -/
theorem counting_run (maxTryLogin : UInt64) (user : GoString) (n : ℕ) (s : LimitState)
    (others : List LoginProc) :
    ∃ acts c, run (Pool.step (exec maxTryLogin)) ⟨s, others ++ List.replicate n (.failed user)⟩
        acts = some c ∧ c.shared.limitCalls user = s.limitCalls user + n := by
  induction n generalizing s others with
  | zero => exact ⟨[], _, rfl, rfl⟩
  | succ n ih =>
    let called : LoginProc :=
      if s.tryLoginCount user = none then .starting user else .returned .authFailed
    obtain ⟨acts, c, hrun, hcalls⟩ := ih (s.limitTryLogin user) (others ++ [called])
    refine ⟨(others.length, true) :: acts, c, ?_, ?_⟩
    · rw [run_cons_eq_some]
      refine ⟨_, ?_, hrun⟩
      simp [Pool.step, exec, List.replicate_succ, called]
    · rw [hcalls]
      simp [LimitState.limitTryLogin, Nat.add_right_comm, Nat.add_assoc]

/-- After 2⁶⁴ calls in one window the count of the username is zero again. -/
theorem count_wraps :
    ∃ calls acts c, run (Pool.step (exec 1)) (startCalls [] calls) acts = some c ∧
      c.shared.limitCalls (str "root") = 2 ^ 64 ∧ c.shared.count (str "root") = 0 := by
  obtain ⟨acts, c, hrun, hcalls⟩ := counting_run 1 (str "root") (2 ^ 64) .init []
  have hrun' : run (Pool.step (exec 1)) (startCalls [] (List.replicate (2 ^ 64) (str "root")))
      acts = some c := by
    rw [← hrun, startCalls, List.map_replicate, List.map_nil]
  have hinv := run_inv' (fun c l c' h hs => step_lockoutInv h hs) (startCalls_inv _ _) hrun'
  rw [LimitState.init, Nat.zero_add] at hcalls
  refine ⟨_, acts, c, hrun', hcalls, ?_⟩
  rw [hinv.counted, hcalls]
  decide

/-- With a limit of zero everybody is blocked from the start, and nothing will reset it. -/
theorem blocked_without_reset :
    ∃ c, run (Pool.step (exec 0)) (startCalls [str "root"] []) [] = some c ∧
      userIsBlocked 0 c.shared (str "root") = true ∧
      c.procs.countP (outstanding (str "root")) = 0 :=
  ⟨_, rfl, by decide, by decide⟩

/-- Any number of connections and of `LimitTryLogin` calls, on any usernames, in any
    interleaving with the timers: a username has an entry exactly when one reset of it
    is outstanding; its count is the number of calls since its last reset, modulo 2⁶⁴; if
    the limit is not zero, a blocked username has a reset coming; and a username without
    an entry has none, so every reset was started in the window that it ends. -/
theorem lockout_bookkeeping (maxTryLogin : UInt64) (users calls : List GoString)
    (acts : List (ℕ × Bool)) (c : Pool LimitState LoginProc)
    (hrun : run (Pool.step (exec maxTryLogin)) (startCalls users calls) acts = some c)
    (user : GoString) :
    ((c.shared.tryLoginCount user).isSome = true ↔ c.procs.countP (outstanding user) = 1) ∧
    (c.shared.count user).toNat = c.shared.limitCalls user % 2 ^ 64 ∧
    (0 < maxTryLogin → userIsBlocked maxTryLogin c.shared user = true →
      c.procs.countP (outstanding user) = 1) ∧
    (c.shared.tryLoginCount user = none → ∀ p ∈ c.procs, outstanding user p = false) := by
  have hinv := run_inv' (fun c l c' h hs => step_lockoutInv h hs) (startCalls_inv users calls) hrun
  have hres := hinv.resets user
  have hcount : (c.shared.count user).toNat = c.shared.limitCalls user % 2 ^ 64 := by
    rw [hinv.counted user, UInt64.toNat_ofNat']
  refine ⟨?_, hcount, fun hpos hblk => ?_, fun hnone p hp => ?_⟩
  · rw [hres]
    split_ifs with hsome <;> simp [hsome]
  · have hle : maxTryLogin ≤ c.shared.count user := of_decide_eq_true hblk
    rw [hres, if_pos]
    cases hc : c.shared.tryLoginCount user with
    | some n => rfl
    | none =>
      rw [LimitState.count, hc, Option.getD_none] at hle
      exact absurd (UInt64.lt_of_lt_of_le hpos hle) (UInt64.lt_irrefl 0)
  · rw [hnone, Option.isSome_none, if_neg Bool.false_ne_true, List.countP_eq_zero] at hres
    exact Bool.eq_false_iff.mpr (hres p hp)

/-- A login fails and is counted; its timer is started while a second one is on its way. -/
def countedRun : List (ℕ × Bool) := [(0, false), (0, false), (0, false), (1, false), (0, false)]

theorem lockout_bookkeeping_counted :
    ∃ c, run (Pool.step (exec 1)) (startCalls [str "root"] [str "root"]) countedRun = some c ∧
      userIsBlocked 1 c.shared (str "root") = true ∧ c.shared.limitCalls (str "root") = 2 ∧
      c.procs.countP (outstanding (str "root")) = 1 :=
  ⟨_, rfl, by decide, by decide, (lockout_bookkeeping 1 [str "root"] [str "root"] countedRun _ rfl
    (str "root")).2.2.1 (by decide) (by decide)⟩

end GoJump.Core.LoginLimit
