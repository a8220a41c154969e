import GoJump.Lib.Pool
import GoJump.Proxy.Server

/-!
# The books of a session

Model of `Server.Proxy` from `CreateSessionCallback` on (`pkg/proxy/server.go` lines
163–198) with the callbacks `CreateSession`, `SessionSuccess`, `SessionFailed` and
`SessionDisconnect` (`pkg/core/session.go`), the map of `sessManager`
(`pkg/proxy/switchManager.go` lines 193–239), and the replay recorder as far as it can
fault. Every section under a lock and every insert into `USERLOG` is one step, so a run
of `Pool.step exec` is one interleaving of any number of `Proxy` runs.

A panic starts the deferred calls of its run: `DisConnectedCallback`, then
`RemoveCommonSwitch`. Two places can panic. `sendConnectErrorMsg` slices the password to
its first two bytes, and `Record` goes through the writer of a recorder whose file could
not be created. The rows of `USERLOG` are kept with the id of the session that they are
about, which the code does not store.

* `books_of_one_byte_password`: a failed connection with a password of one byte ends in
  a panic and is logged as a disconnect.
* `books_kept_iff`: the books are right in every state of an interleaving exactly if
  neither of the two happens.
* `run_finishes`: whatever the other runs do, each run can go on to its end.
-/

namespace GoJump.Proxy.Bookkeeping

open GoJump.Go GoJump.Lib GoJump.Model GoJump.Proxy

/-! ## The books -/

/-- The fields of `model.Session` that the callbacks read. -/
structure Session where
  id : GoString
  user : GoString
  asset : GoString
  deriving DecidableEq

/-- `model.UserLog`. -/
structure UserLog where
  datetime : GoString
  type : GoString
  user : GoString
  log : GoString
  deriving DecidableEq

/-- `Core.session`, the keys of `sessManager.data`, and `USERLOG`. -/
structure Books where
  session : GoString → Option Session
  sessManager : Finset GoString
  userLog : List (GoString × UserLog)

def Books.init : Books := ⟨fun _ => none, ∅, []⟩

/-- `c.session[session.ID] = session`. -/
def Books.createSession (b : Books) (session : Session) : Books :=
  { b with session := Function.update b.session session.id (some session) }

/-- `delete(c.session, id)`. -/
def Books.deleteSession (b : Books) (id : GoString) : Books :=
  { b with session := Function.update b.session id none }

/-- `AddCommonSwitch`. -/
def Books.addCommonSwitch (b : Books) (id : GoString) : Books :=
  { b with sessManager := insert id b.sessManager }

/-- `RemoveCommonSwitch`. -/
def Books.removeCommonSwitch (b : Books) (id : GoString) : Books :=
  { b with sessManager := b.sessManager.erase id }

/-- `INSERT INTO USERLOG`, of a row about the session `id`. -/
def Books.insertLog (b : Books) (id : GoString) (row : UserLog) : Books :=
  { b with userLog := b.userLog ++ [(id, row)] }

/-- The rows about a session. -/
def Books.rows (b : Books) (id : GoString) : List UserLog :=
  (b.userLog.filter fun r => r.1 = id).map Prod.snd

/-- The callbacks that write a row (`pkg/core/session.go` lines 18–76). -/
inductive Callback
  | sessionSuccess
  | sessionFailed (cause : GoString)
  | sessionDisconnect
  deriving DecidableEq

/-- The text of the row. -/
def Callback.log (asset : GoString) : Callback → GoString
  | sessionSuccess => str "login to " ++ asset ++ str " successfully"
  | sessionFailed cause => str "login to " ++ asset ++ str " failed, error: " ++ cause
  | sessionDisconnect => str "disconnected to " ++ asset

/-- The row of a callback. -/
def Callback.row (k : Callback) (s : Session) (datetime : GoString) : UserLog :=
  ⟨datetime, str "session", s.user, k.log s.asset⟩

/-! ## A run of `Proxy` -/

/-- A run that has passed its checks. -/
structure ProxyRun where
  id : GoString
  /-- the options after `checkRequiredAuth`: a password that was not stored has been typed -/
  opts : ConnectionOptions
  /-- `cacheSSHConnection != nil` -/
  cached : Bool
  deriving DecidableEq

/-- `sessionInfo`, as `NewServer` builds it (lines 63–74). -/
def ProxyRun.session (r : ProxyRun) : Session :=
  ⟨r.id, r.opts.user.username, r.opts.asset.hostname ++ str "(" ++ r.opts.asset.ip ++ str ")"⟩

/-- What `GetReplayRecorder` returns. -/
inductive Recorder
  | disabled
  | opened
  /-- directory or file could not be created: there is no writer -/
  | failed
  deriving DecidableEq

/-- How `getServerConn` ends. -/
inductive ConnResult
  | made
  | failed (cause : GoString)
  deriving DecidableEq

/-- What a run does next. -/
inductive ProxyPos
  | createSession
  | addCommonSwitch
  | getServerConn
  | sendConnectErrorMsg (cause : GoString)
  /-- a callback looks the session up -/
  | lookup (k : Callback)
  /-- it inserts its row -/
  | insert (k : Callback) (s : Session)
  /-- it deletes the session -/
  | delete (k : Callback)
  | getReplayRecorder
  /-- in `Bridge` -/
  | bridge (recorder : Recorder)
  | removeCommonSwitch
  | returned
  deriving DecidableEq

/-- A run, how its connection ended, and whether it panics. -/
structure ProxyProc where
  run : ProxyRun
  pos : ProxyPos
  result : Option ConnResult
  panicking : Bool
  deriving DecidableEq

/-- What follows a callback: the bridge, or the deferred calls. -/
def Callback.next : Callback → ProxyPos
  | sessionSuccess => .getReplayRecorder
  | sessionFailed _ => .lookup .sessionDisconnect
  | sessionDisconnect => .removeCommonSwitch

/-- What follows the insert: `SessionSuccess` keeps the session. -/
def Callback.inserted : Callback → ProxyPos
  | sessionSuccess => .getReplayRecorder
  | sessionFailed cause => .delete (.sessionFailed cause)
  | sessionDisconnect => .delete .sessionDisconnect

/-- What a run meets. -/
inductive ProxyAct
  /-- nothing it does not control -/
  | go
  | connected
  | connectFailed (cause : GoString)
  | insertedAt (datetime : GoString)
  | recorder (recorder : Recorder)
  /-- `Record` of a chunk that is not empty -/
  | record
  | bridgeReturned
  deriving DecidableEq

/-- Go on at `pos`. -/
def ProxyProc.goto (p : ProxyProc) (pos : ProxyPos) : ProxyProc := { p with pos := pos }

@[simp] theorem run_goto (p : ProxyProc) (pos : ProxyPos) : (p.goto pos).run = p.run := rfl

@[simp] theorem panicking_goto (p : ProxyProc) (pos : ProxyPos) :
    (p.goto pos).panicking = p.panicking := rfl

/-- The first deferred call, after a panic. -/
def ProxyProc.panic (p : ProxyProc) : ProxyProc :=
  { p with pos := .lookup .sessionDisconnect, panicking := true }

/-- `sendConnectErrorMsg` on the options of the run returns. -/
def ProxyRun.sendsErrorMsg (r : ProxyRun) : Bool :=
  (sendConnectErrorMsg r.opts : Traced (Event Unit) Unit).result.isSome

/-- One step of a run. -/
def exec (b : Books) (p : ProxyProc) (a : ProxyAct) : Option (Effect Books ProxyProc) :=
  match p.pos, a with
  | .createSession, .go =>
    some { shared := b.createSession p.run.session, proc := p.goto .addCommonSwitch }
  | .addCommonSwitch, .go =>
    some { shared := b.addCommonSwitch p.run.id, proc := p.goto .getServerConn }
  | .getServerConn, .connected =>
    some { shared := b,
           proc := { p with pos := .lookup .sessionSuccess, result := some .made } }
  | .getServerConn, .connectFailed cause =>
    -- a cached connection is returned as it is
    if p.run.cached then none
    else
      some { shared := b,
             proc := { p with pos := .sendConnectErrorMsg cause, result := some (.failed cause) } }
  | .sendConnectErrorMsg cause, .go =>
    if p.run.sendsErrorMsg then
      some { shared := b, proc := p.goto (.lookup (.sessionFailed cause)) }
    else some { shared := b, proc := p.panic }
  | .lookup k, .go =>
    match b.session p.run.id with
    | some s => some { shared := b, proc := p.goto (.insert k s) }
    | none => some { shared := b, proc := p.goto k.next }
  | .insert k s, .insertedAt datetime =>
    some { shared := b.insertLog p.run.id (k.row s datetime), proc := p.goto k.inserted }
  | .delete k, .go => some { shared := b.deleteSession p.run.id, proc := p.goto k.next }
  | .getReplayRecorder, .recorder recorder =>
    some { shared := b, proc := p.goto (.bridge recorder) }
  | .bridge recorder, .record =>
    if recorder = .failed then some { shared := b, proc := p.panic }
    else some { shared := b, proc := p }
  | .bridge _, .bridgeReturned =>
    some { shared := b, proc := p.goto (.lookup .sessionDisconnect) }
  | .removeCommonSwitch, .go =>
    some { shared := b.removeCommonSwitch p.run.id, proc := p.goto .returned }
  | _, _ => none

/-- A run before `CreateSessionCallback`. -/
def ProxyRun.proc (r : ProxyRun) : ProxyProc := ⟨r, .createSession, none, false⟩

/-- Any number of runs. -/
def start (runs : List ProxyRun) : Pool Books ProxyProc := ⟨.init, runs.map ProxyRun.proc⟩

/-! ## The property -/

/-- The callbacks whose rows a finished run has left. -/
def ConnResult.callbacks : ConnResult → List Callback
  | made => [.sessionSuccess, .sessionDisconnect]
  | failed cause => [.sessionFailed cause]

/-- The rows about the session of a run are those of the callbacks, in order. -/
def Logged (b : Books) (r : ProxyRun) (ks : List Callback) : Prop :=
  ∃ datetimes, b.rows r.id = List.zipWith (fun k d => k.row r.session d) ks datetimes ∧
    datetimes.length = ks.length

/-- No run panics, and every finished one has left nothing but its rows. -/
def BooksKept (c : Pool Books ProxyProc) : Prop :=
  ∀ (i : ℕ) p, c.procs[i]? = some p → p.panicking = false ∧
    (p.pos = .returned → c.shared.session p.run.id = none ∧ p.run.id ∉ c.shared.sessManager ∧
      ∃ res, p.result = some res ∧ Logged c.shared p.run res.callbacks)

/-- A run to an asset with a password of one byte. -/
def shortPassword : ProxyRun where
  id := str "session1"
  opts := {
    user := ⟨str "u", str "bob", []⟩
    asset := { (default : Asset) with hostname := str "web", ip := str "10.0.0.1" }
    systemUser := { (default : SystemUser) with
      username := str "root", protocol := str "ssh", password := str "x" } }
  cached := false

/-- The connection fails, and the run ends. -/
def refusedRun : List (ℕ × ProxyAct) :=
  [(0, .go), (0, .go), (0, .connectFailed (str "refused")), (0, .go), (0, .go),
    (0, .insertedAt (str "2023")), (0, .go), (0, .go)]

theorem books_of_one_byte_password :
    ∃ c, run (Pool.step exec) (start [shortPassword]) refusedRun = some c ∧
      c.procs = [⟨shortPassword, .returned, some (.failed (str "refused")), true⟩] ∧
      c.shared.rows (str "session1") =
        [⟨str "2023", str "session", str "bob", str "disconnected to web(10.0.0.1)"⟩] ∧
      ¬ BooksKept c := by
  refine ⟨_, rfl, by decide, by decide, fun h => ?_⟩
  exact absurd (h 0 _ rfl).1 (by decide)

/-! ## Steps -/

/-- The steps of `exec`. -/
inductive ProxyStep (b : Books) (p : ProxyProc) : ProxyAct → Effect Books ProxyProc → Prop
  | create (h : p.pos = .createSession) :
    ProxyStep b p .go
      { shared := b.createSession p.run.session, proc := p.goto .addCommonSwitch }
  | add (h : p.pos = .addCommonSwitch) :
    ProxyStep b p .go
      { shared := b.addCommonSwitch p.run.id, proc := p.goto .getServerConn }
  | connect (h : p.pos = .getServerConn) :
    ProxyStep b p .connected
      { shared := b, proc := { p with pos := .lookup .sessionSuccess, result := some .made } }
  | connectFail (h : p.pos = .getServerConn) (cause : GoString) :
    ProxyStep b p (.connectFailed cause)
      { shared := b,
        proc := { p with pos := .sendConnectErrorMsg cause, result := some (.failed cause) } }
  | errorMsg {cause : GoString} (h : p.pos = .sendConnectErrorMsg cause)
      (hsend : p.run.sendsErrorMsg = true) :
    ProxyStep b p .go { shared := b, proc := p.goto (.lookup (.sessionFailed cause)) }
  | errorPanic {cause : GoString} (h : p.pos = .sendConnectErrorMsg cause)
      (hsend : p.run.sendsErrorMsg = false) :
    ProxyStep b p .go { shared := b, proc := p.panic }
  | found {k : Callback} {s : Session} (h : p.pos = .lookup k) (hs : b.session p.run.id = some s) :
    ProxyStep b p .go { shared := b, proc := p.goto (.insert k s) }
  | missing {k : Callback} (h : p.pos = .lookup k) (hs : b.session p.run.id = none) :
    ProxyStep b p .go { shared := b, proc := p.goto k.next }
  | insert {k : Callback} {s : Session} (h : p.pos = .insert k s) (datetime : GoString) :
    ProxyStep b p (.insertedAt datetime)
      { shared := b.insertLog p.run.id (k.row s datetime), proc := p.goto k.inserted }
  | delete {k : Callback} (h : p.pos = .delete k) :
    ProxyStep b p .go { shared := b.deleteSession p.run.id, proc := p.goto k.next }
  | recorder (h : p.pos = .getReplayRecorder) (recorder : Recorder) :
    ProxyStep b p (.recorder recorder) { shared := b, proc := p.goto (.bridge recorder) }
  | recordPanic (h : p.pos = .bridge .failed) :
    ProxyStep b p .record { shared := b, proc := p.panic }
  | record {recorder : Recorder} (h : p.pos = .bridge recorder) (hr : recorder ≠ .failed) :
    ProxyStep b p .record { shared := b, proc := p }
  | leave {recorder : Recorder} (h : p.pos = .bridge recorder) :
    ProxyStep b p .bridgeReturned { shared := b, proc := p.goto (.lookup .sessionDisconnect) }
  | remove (h : p.pos = .removeCommonSwitch) :
    ProxyStep b p .go { shared := b.removeCommonSwitch p.run.id, proc := p.goto .returned }

theorem proxyStep_of_exec {b : Books} {p : ProxyProc} {a : ProxyAct} {e : Effect Books ProxyProc}
    (h : exec b p a = some e) : ProxyStep b p a e := by
  unfold exec at h
  split at h <;> rename_i hpos
  · cases h
    exact .create hpos
  · cases h
    exact .add hpos
  · cases h
    exact .connect hpos
  · split_ifs at h
    cases h
    exact .connectFail hpos _
  · split_ifs at h with hsend
    · cases h
      exact .errorMsg hpos hsend
    · cases h
      exact .errorPanic hpos (Bool.eq_false_iff.mpr hsend)
  · split at h <;> rename_i hs
    · cases h
      exact .found hpos hs
    · cases h
      exact .missing hpos hs
  · cases h
    exact .insert hpos _
  · cases h
    exact .delete hpos
  · cases h
    exact .recorder hpos _
  · split_ifs at h with hr
    · cases h
      rw [hr] at hpos
      exact .recordPanic hpos
    · cases h
      exact .record hpos hr
  · cases h
    exact .leave hpos
  · cases h
    exact .remove hpos
  · cases h

/-- The books agree on the session `id`. -/
def SameFor (id : GoString) (b b' : Books) : Prop :=
  b'.session id = b.session id ∧ (id ∈ b'.sessManager ↔ id ∈ b.sessManager) ∧
    b'.rows id = b.rows id

theorem rows_insertLog (b : Books) (id id' : GoString) (row : UserLog) :
    (b.insertLog id' row).rows id = b.rows id ++ if id' = id then [row] else [] := by
  unfold Books.rows Books.insertLog
  rw [List.filter_append, List.map_append]
  by_cases h : id' = id
  · simp [h]
  · simp [h]

variable {b : Books} {p : ProxyProc} {a : ProxyAct} {e : Effect Books ProxyProc}

/-- A step starts no run, stays in its own and changes the books for its session only. -/
theorem ProxyStep.frame (h : ProxyStep b p a e) :
    e.spawned = [] ∧ e.proc.run = p.run ∧ ∀ id ≠ p.run.id, SameFor id b e.shared := by
  cases h with
  | create =>
    refine ⟨rfl, rfl, fun id hid => ⟨?_, Iff.rfl, rfl⟩⟩
    exact Function.update_of_ne hid _ _
  | add =>
    refine ⟨rfl, rfl, fun id hid => ⟨rfl, ?_, rfl⟩⟩
    simp [Books.addCommonSwitch, hid]
  | insert hpos datetime =>
    refine ⟨rfl, rfl, fun id hid => ⟨rfl, Iff.rfl, ?_⟩⟩
    rw [rows_insertLog, if_neg (Ne.symm hid), List.append_nil]
  | delete =>
    refine ⟨rfl, rfl, fun id hid => ⟨?_, Iff.rfl, rfl⟩⟩
    exact Function.update_of_ne hid _ _
  | remove =>
    refine ⟨rfl, rfl, fun id hid => ⟨rfl, ?_, rfl⟩⟩
    simp [Books.removeCommonSwitch, hid]
  | _ => exact ⟨rfl, rfl, fun _ _ => ⟨rfl, Iff.rfl, rfl⟩⟩

/-! ## The books of a run that does not panic -/

/-- For each position of the run and result of its connection: whether its session is
    in `Core.session`, whether its id is in `sessManager`, and the callbacks that have
    written a row. -/
inductive Stage (r : ProxyRun) : ProxyPos → Option ConnResult → Bool → Bool → List Callback → Prop
  | createSession : Stage r .createSession none false false []
  | addCommonSwitch : Stage r .addCommonSwitch none true false []
  | getServerConn : Stage r .getServerConn none true true []
  | sendConnectErrorMsg (cause : GoString) :
    Stage r (.sendConnectErrorMsg cause) (some (.failed cause)) true true []
  | lookupFailed (cause : GoString) :
    Stage r (.lookup (.sessionFailed cause)) (some (.failed cause)) true true []
  | insertFailed (cause : GoString) :
    Stage r (.insert (.sessionFailed cause) r.session) (some (.failed cause)) true true []
  | deleteFailed (cause : GoString) :
    Stage r (.delete (.sessionFailed cause)) (some (.failed cause)) true true
      [.sessionFailed cause]
  | lookupSuccess : Stage r (.lookup .sessionSuccess) (some .made) true true []
  | insertSuccess : Stage r (.insert .sessionSuccess r.session) (some .made) true true []
  | getReplayRecorder : Stage r .getReplayRecorder (some .made) true true [.sessionSuccess]
  | bridge (recorder : Recorder) :
    Stage r (.bridge recorder) (some .made) true true [.sessionSuccess]
  | lookupDisconnect :
    Stage r (.lookup .sessionDisconnect) (some .made) true true [.sessionSuccess]
  | insertDisconnect :
    Stage r (.insert .sessionDisconnect r.session) (some .made) true true [.sessionSuccess]
  | deleteDisconnect :
    Stage r (.delete .sessionDisconnect) (some .made) true true
      [.sessionSuccess, .sessionDisconnect]
  /-- after `SessionFailed` the deferred `SessionDisconnect` finds no session -/
  | lookupAfterFailure (cause : GoString) :
    Stage r (.lookup .sessionDisconnect) (some (.failed cause)) false true [.sessionFailed cause]
  | removeCommonSwitch (res : ConnResult) :
    Stage r .removeCommonSwitch (some res) false true res.callbacks
  | returned (res : ConnResult) : Stage r .returned (some res) false false res.callbacks

/-- The books are as the position of the run says. -/
structure Agrees (b : Books) (r : ProxyRun) (inSession inManager : Bool) (ks : List Callback) :
    Prop where
  session : b.session r.id = if inSession then some r.session else none
  manager : r.id ∈ b.sessManager ↔ inManager = true
  logged : Logged b r ks

/-- What holds of a run, unless it panics. -/
def ProcInv (b : Books) (p : ProxyProc) : Prop :=
  p.panicking = false → ∃ inSession inManager ks,
    Stage p.run p.pos p.result inSession inManager ks ∧ Agrees b p.run inSession inManager ks

theorem Agrees.of_sameFor {b b' : Books} {r : ProxyRun} {inSession inManager : Bool}
    {ks : List Callback} (h : Agrees b r inSession inManager ks) (hsame : SameFor r.id b b') :
    Agrees b' r inSession inManager ks := by
  obtain ⟨hsess, hman, hrows⟩ := hsame
  refine ⟨hsess.trans h.session, hman.trans h.manager, ?_⟩
  unfold Logged
  rw [hrows]
  exact h.logged

theorem Logged.append {r : ProxyRun} {ks : List Callback} (h : Logged b r ks) (k : Callback)
    (datetime : GoString) :
    Logged (b.insertLog r.id (k.row r.session datetime)) r (ks ++ [k]) := by
  obtain ⟨datetimes, hrows, hlen⟩ := h
  refine ⟨datetimes ++ [datetime], ?_, by simp [hlen]⟩
  rw [rows_insertLog, if_pos rfl, hrows, List.zipWith_append hlen.symm]
  rfl

/-- A callback that finds the session goes on to its row. -/
theorem Stage.insert {r : ProxyRun} {k : Callback} {res : Option ConnResult} {inManager : Bool}
    {ks : List Callback} (h : Stage r (.lookup k) res true inManager ks) :
    Stage r (.insert k r.session) res true inManager ks := by
  cases h with
  | lookupFailed cause => exact .insertFailed cause
  | lookupSuccess => exact .insertSuccess
  | lookupDisconnect => exact .insertDisconnect

/-- Only the `SessionDisconnect` after a `SessionFailed` finds no session. -/
theorem Stage.skip {r : ProxyRun} {k : Callback} {res : Option ConnResult} {inManager : Bool}
    {ks : List Callback} (h : Stage r (.lookup k) res false inManager ks) :
    Stage r k.next res false inManager ks := by
  cases h with
  | lookupAfterFailure cause => exact .removeCommonSwitch (.failed cause)

/-- The row of a callback is written. -/
theorem Stage.inserted {r : ProxyRun} {k : Callback} {s : Session} {res : Option ConnResult}
    {inSession inManager : Bool} {ks : List Callback}
    (h : Stage r (.insert k s) res inSession inManager ks) :
    s = r.session ∧ Stage r k.inserted res inSession inManager (ks ++ [k]) := by
  cases h with
  | insertFailed cause => exact ⟨rfl, .deleteFailed cause⟩
  | insertSuccess => exact ⟨rfl, .getReplayRecorder⟩
  | insertDisconnect => exact ⟨rfl, .deleteDisconnect⟩

/-- The session of a callback is deleted. -/
theorem Stage.deleted {r : ProxyRun} {k : Callback} {res : Option ConnResult}
    {inSession inManager : Bool} {ks : List Callback}
    (h : Stage r (.delete k) res inSession inManager ks) :
    Stage r k.next res false inManager ks := by
  cases h with
  | deleteFailed cause => exact .lookupAfterFailure cause
  | deleteDisconnect => exact .removeCommonSwitch .made

/-- A step that does not panic takes a run to its next stage. -/
theorem ProxyStep.stage (h : ProxyStep b p a e) (hpan : e.proc.panicking = false)
    {inSession inManager : Bool} {ks : List Callback}
    (hstage : Stage p.run p.pos p.result inSession inManager ks)
    (hb : Agrees b p.run inSession inManager ks) :
    ∃ inSession' inManager' ks',
      Stage e.proc.run e.proc.pos e.proc.result inSession' inManager' ks' ∧
      Agrees e.shared e.proc.run inSession' inManager' ks' := by
  obtain ⟨r, pos, result, panicking⟩ := p
  cases h with
  | errorPanic | recordPanic => cases hpan
  | create h =>
    cases h
    cases hstage
    exact ⟨_, _, _, .addCommonSwitch, Function.update_self .., hb.manager, hb.logged⟩
  | add h =>
    cases h
    cases hstage
    exact ⟨_, _, _, .getServerConn, hb.session, by simp [Books.addCommonSwitch], hb.logged⟩
  | connect h =>
    cases h
    cases hstage
    exact ⟨_, _, _, .lookupSuccess, hb⟩
  | connectFail h cause =>
    cases h
    cases hstage
    exact ⟨_, _, _, .sendConnectErrorMsg cause, hb⟩
  | errorMsg h =>
    cases h
    cases hstage
    exact ⟨_, _, _, .lookupFailed _, hb⟩
  | found h hs =>
    cases h
    -- the session looked up is the run's own
    have hsess := hs.symm.trans hb.session
    cases inSession with
    | false => cases hsess
    | true =>
      cases hsess
      exact ⟨_, _, _, hstage.insert, hb⟩
  | missing h hs =>
    cases h
    have hsess := hs.symm.trans hb.session
    cases inSession with
    | false => exact ⟨_, _, _, hstage.skip, hb⟩
    | true => cases hsess
  | insert h datetime =>
    cases h
    dsimp only at hstage
    obtain ⟨rfl, hnext⟩ := hstage.inserted
    exact ⟨_, _, _, hnext, hb.session, hb.manager, hb.logged.append _ datetime⟩
  | delete h =>
    cases h
    exact ⟨_, _, _, hstage.deleted, Function.update_self .., hb.manager, hb.logged⟩
  | recorder h recorder =>
    cases h
    cases hstage
    exact ⟨_, _, _, .bridge recorder, hb⟩
  | record => exact ⟨_, _, _, hstage, hb⟩
  | leave h =>
    cases h
    cases hstage
    exact ⟨_, _, _, .lookupDisconnect, hb⟩
  | remove h =>
    cases h
    cases hstage with
    | removeCommonSwitch res =>
      exact ⟨_, _, _, .returned res, hb.session, by simp [Books.removeCommonSwitch], hb.logged⟩

/-- A run that panics goes on panicking. -/
theorem ProxyStep.panicking (h : ProxyStep b p a e) (hpan : e.proc.panicking = false) :
    p.panicking = false := by
  cases h with
  | errorPanic | recordPanic => cases hpan
  | _ => exact hpan

theorem ProxyStep.procInv (h : ProxyStep b p a e) (hinv : ProcInv b p) :
    ProcInv e.shared e.proc := by
  intro hpan
  obtain ⟨_, _, _, hstage, hb⟩ := hinv (h.panicking hpan)
  exact h.stage hpan hstage hb

/-! ## Runs -/

theorem sendsErrorMsg_iff (r : ProxyRun) :
    r.sendsErrorMsg = true ↔ r.opts.systemUser.password.length ≠ 1 := by
  unfold ProxyRun.sendsErrorMsg sendConnectErrorMsg
  generalize r.opts.systemUser.password = password
  split_ifs with h
  · have hlen : password.length ≠ 0 := fun h0 => h.1 (List.length_eq_zero_iff.mp h0)
    have : password.length = 1 := by omega
    simp [Traced.fault, this]
  · have hne : password.length ≠ 1 := by
      intro h1
      exact h ⟨fun hnil => by simp [hnil] at h1, by omega⟩
    simp [pure, hne]

/-- The condition on a step of `p`: the error message of a failed connection is not made
    from a password of one byte, and nothing is recorded without a writer. -/
def Careful (p : ProxyProc) (a : ProxyAct) : Prop :=
  match p.pos, a with
  | .sendConnectErrorMsg _, _ => p.run.opts.systemUser.password.length ≠ 1
  | .bridge .failed, .record => False
  | _, _ => True

instance (p : ProxyProc) (a : ProxyAct) : Decidable (Careful p a) := by
  unfold Careful
  split <;> infer_instance

/-- The condition on a step of an interleaving. -/
def CarefulStep (c : Pool Books ProxyProc) (l : ℕ × ProxyAct) : Prop :=
  ∀ p ∈ c.procs[l.1]?, Careful p l.2

instance (c : Pool Books ProxyProc) (l : ℕ × ProxyAct) : Decidable (CarefulStep c l) :=
  inferInstanceAs (Decidable (∀ p ∈ c.procs[l.1]?, Careful p l.2))

/-- A run begins to panic exactly in the steps that are not careful. -/
theorem ProxyStep.panicking_iff (h : ProxyStep b p a e) (hpan : p.panicking = false) :
    e.proc.panicking = false ↔ Careful p a := by
  cases h with
  | errorMsg h hsend =>
    simp only [Careful, h, panicking_goto, hpan, true_iff]
    exact (sendsErrorMsg_iff p.run).mp hsend
  | errorPanic h hsend =>
    rw [Bool.eq_false_iff, Ne, sendsErrorMsg_iff] at hsend
    simp only [Careful, h, ProxyProc.panic, Bool.true_eq_false, false_iff]
    exact hsend
  | recordPanic h => simp [Careful, h, ProxyProc.panic]
  | record h hr => simp [Careful, h, hpan, hr]
  | _ h => simp [Careful, h, hpan]

/-- Runs have different sessions, none of them panics, and the books are as their
    positions say. -/
structure BooksInv (c : Pool Books ProxyProc) : Prop where
  pool : Pool.PoolInv (fun _ => True) ProcInv (fun _ p q => p.run.id ≠ q.run.id) c
  calm : ∀ (i : ℕ) p, c.procs[i]? = some p → p.panicking = false

theorem BooksInv.kept {c : Pool Books ProxyProc} (hinv : BooksInv c) : BooksKept c := by
  intro i p hp
  have hcalm := hinv.calm i p hp
  refine ⟨hcalm, fun hret => ?_⟩
  obtain ⟨r, pos, result, panicking⟩ := p
  cases hret
  obtain ⟨_, _, _, hstage, hb⟩ := hinv.pool.each i _ hp hcalm
  cases hstage with
  | returned res =>
    refine ⟨hb.session, ?_, res, rfl, hb.logged⟩
    rw [hb.manager]
    exact Bool.false_ne_true

theorem start_inv {runs : List ProxyRun} (hids : (runs.map ProxyRun.id).Nodup) :
    BooksInv (start runs) := by
  have hproc : ∀ (i : ℕ) p, (start runs).procs[i]? = some p →
      ∃ r, runs[i]? = some r ∧ p = r.proc := by
    intro i p hp
    rw [start, List.getElem?_map] at hp
    obtain ⟨r, hr, rfl⟩ := Option.map_eq_some_iff.mp hp
    exact ⟨r, hr, rfl⟩
  refine ⟨⟨trivial, fun i p hp _ => ?_, fun i j p q hij hp hq heq => ?_⟩, fun i p hp => ?_⟩
  · obtain ⟨r, _, rfl⟩ := hproc i p hp
    exact ⟨_, _, _, .createSession, rfl, by simp [start, Books.init], ⟨[], rfl, rfl⟩⟩
  · obtain ⟨r, hr, rfl⟩ := hproc i p hp
    obtain ⟨r', hr', rfl⟩ := hproc j q hq
    have hi : (runs.map ProxyRun.id)[i]? = some r.id := by rw [List.getElem?_map, hr]; rfl
    have hj : (runs.map ProxyRun.id)[j]? = some r.id := by
      rw [List.getElem?_map, hr']
      exact congrArg some heq.symm
    obtain ⟨hlt, _⟩ := List.getElem?_eq_some_iff.mp hi
    exact hij ((List.getElem?_inj hlt hids).mp (hi.trans hj.symm))
  · obtain ⟨r, _, rfl⟩ := hproc i p hp
    rfl

/-- One step keeps the books, panic or not. -/
theorem step_poolInv {c c' : Pool Books ProxyProc} {l : ℕ × ProxyAct}
    (hinv : Pool.PoolInv (fun _ => True) ProcInv (fun _ p q => p.run.id ≠ q.run.id) c)
    (h : Pool.step exec c l = some c') :
    Pool.PoolInv (fun _ => True) ProcInv (fun _ p q => p.run.id ≠ q.run.id) c' := by
  refine Pool.PoolInv.step (G := fun _ _ _ _ => True) (fun _ _ _ hne => hne.symm) ?_ ?_ ?_ ?_ hinv
    (fun _ _ _ _ => trivial) h
  · intro b p a e _ hp he
    exact ⟨trivial, (proxyStep_of_exec he).procInv hp⟩
  · intro b p a e q _ _ hq hne _ he
    obtain ⟨_, hrun, hframe⟩ := (proxyStep_of_exec he).frame
    refine ⟨fun hpan => ?_, hrun ▸ hne⟩
    obtain ⟨_, _, _, hstage, hb⟩ := hq hpan
    exact ⟨_, _, _, hstage, hb.of_sameFor (hframe _ hne.symm)⟩
  · intro b p a e q r _ _ _ _ hne _
    exact hne
  · intro b p a e n _ _ he hn
    rw [(proxyStep_of_exec he).frame.1] at hn
    exact absurd hn List.not_mem_nil

theorem step_inv {c c' : Pool Books ProxyProc} {l : ℕ × ProxyAct} (hinv : BooksInv c)
    (hG : CarefulStep c l) (h : Pool.step exec c l = some c') : BooksInv c' := by
  refine ⟨step_poolInv hinv.pool h, ?_⟩
  obtain ⟨p, e, hp, he, _, hpr⟩ := Pool.step_cases h
  have hstep := proxyStep_of_exec he
  intro j q hq
  rw [hpr, hstep.frame.1] at hq
  rcases Pool.getElem?_after (List.getElem?_eq_some_iff.mp hp).1 hq with
    ⟨_, rfl⟩ | ⟨_, hq⟩ | ⟨_, hq⟩
  · exact (hstep.panicking_iff (hinv.calm _ p hp)).mpr (hG p hp)
  · exact hinv.calm j q hq
  · exact absurd hq List.not_mem_nil

/-- A step after which no run panics was careful. -/
theorem careful_of_kept {c c' : Pool Books ProxyProc} {l : ℕ × ProxyAct} (hinv : BooksInv c)
    (h : Pool.step exec c l = some c') (hkept : BooksKept c') : CarefulStep c l := by
  obtain ⟨p, e, hp, he, _, hpr⟩ := Pool.step_cases h
  intro p' hp'
  cases hp.symm.trans hp'
  rw [← (proxyStep_of_exec he).panicking_iff (hinv.calm _ p hp)]
  apply (hkept l.1 e.proc _).1
  rw [hpr]
  exact Pool.getElem?_self hp

/-! ## Every run can finish -/

/-- How far a position is from the end of its run. -/
def ProxyPos.rank : ProxyPos → ℕ
  | createSession => 13
  | addCommonSwitch => 12
  | getServerConn => 11
  | sendConnectErrorMsg _ => 10
  | lookup .sessionDisconnect => 4
  | lookup _ => 9
  | insert .sessionDisconnect _ => 3
  | insert _ _ => 8
  | delete .sessionDisconnect => 2
  | delete _ => 7
  | getReplayRecorder => 6
  | bridge _ => 5
  | removeCommonSwitch => 1
  | returned => 0

theorem Callback.rank_next (k : Callback) : k.next.rank < (ProxyPos.delete k).rank := by
  cases k <;> simp [Callback.next, ProxyPos.rank]

theorem Callback.rank_inserted (k : Callback) (s : Session) :
    k.inserted.rank < (ProxyPos.insert k s).rank := by
  cases k <;> simp [Callback.inserted, ProxyPos.rank]

theorem Callback.rank_lookup (k : Callback) (s : Session) :
    (ProxyPos.insert k s).rank < (ProxyPos.lookup k).rank ∧
      k.next.rank < (ProxyPos.lookup k).rank := by
  cases k <;> simp [Callback.next, ProxyPos.rank]

/-- A run that has not returned can go on. -/
theorem exec_progress (b : Books) (p : ProxyProc) (h : p.pos ≠ .returned) :
    ∃ a e, exec b p a = some e ∧ e.proc.pos.rank < p.pos.rank := by
  obtain ⟨r, pos, result, panicking⟩ := p
  cases pos with
  | createSession => exact ⟨.go, _, rfl, Nat.lt_add_one 12⟩
  | addCommonSwitch => exact ⟨.go, _, rfl, Nat.lt_add_one 11⟩
  | getServerConn => exact ⟨.connected, _, rfl, by simp [ProxyPos.rank]⟩
  | sendConnectErrorMsg cause =>
    by_cases hsend : r.sendsErrorMsg = true
    · exact ⟨.go, _, if_pos hsend, Nat.lt_add_one 9⟩
    · exact ⟨.go, _, if_neg hsend, by simp [ProxyProc.panic, ProxyPos.rank]⟩
  | lookup k =>
    unfold exec
    cases b.session r.id with
    | some s => exact ⟨.go, _, rfl, (k.rank_lookup s).1⟩
    | none => exact ⟨.go, _, rfl, (k.rank_lookup r.session).2⟩
  | insert k s => exact ⟨.insertedAt [], _, rfl, k.rank_inserted s⟩
  | delete k => exact ⟨.go, _, rfl, k.rank_next⟩
  | getReplayRecorder => exact ⟨.recorder .opened, _, rfl, Nat.lt_add_one 5⟩
  | bridge recorder => exact ⟨.bridgeReturned, _, rfl, Nat.lt_add_one 4⟩
  | removeCommonSwitch => exact ⟨.go, _, rfl, Nat.lt_add_one 0⟩
  | returned => exact absurd rfl h

/-- Alone, and from whatever state the others have brought about. -/
theorem run_finishes (n : ℕ) (c : Pool Books ProxyProc) (i : ℕ) (p : ProxyProc)
    (hp : c.procs[i]? = some p) (hn : p.pos.rank ≤ n) :
    ∃ (acts : List ProxyAct) (c' : Pool Books ProxyProc) (p' : ProxyProc),
      run (Pool.step exec) c (acts.map fun a => (i, a)) = some c' ∧
      c'.procs[i]? = some p' ∧ p'.pos = .returned := by
  induction n generalizing c p with
  | zero =>
    refine ⟨[], c, p, rfl, hp, ?_⟩
    by_contra hpos
    obtain ⟨_, _, _, hlt⟩ := exec_progress c.shared p hpos
    omega
  | succ n ih =>
    by_cases hpos : p.pos = .returned
    · exact ⟨[], c, p, rfl, hp, hpos⟩
    · obtain ⟨a, e, he, hlt⟩ := exec_progress c.shared p hpos
      have hstep : Pool.step exec c (i, a) =
          some ⟨e.shared, c.procs.set i e.proc ++ e.spawned⟩ := by
        simp [Pool.step, hp, he]
      obtain ⟨acts, c', p', hrun, hp', hret⟩ := ih ⟨e.shared, c.procs.set i e.proc ++ e.spawned⟩
        e.proc (Pool.getElem?_self hp) (by omega)
      refine ⟨a :: acts, c', p', ?_, hp', hret⟩
      rw [List.map_cons, run_cons, hstep]
      exact hrun

/-- Any number of runs with different session ids, interleaved in any way, with every
    outcome of their connections: in every state no run panics and each finished one has
    left its rows and nothing else, exactly if no error message is made from a password
    of one byte and nothing is recorded without a writer. Every run can always finish. -/
theorem books_kept_iff (runs : List ProxyRun) (hids : (runs.map ProxyRun.id).Nodup)
    (as : List (ℕ × ProxyAct)) (c : Pool Books ProxyProc)
    (hrun : run (Pool.step exec) (start runs) as = some c) :
    ((∀ t ∈ states (Pool.step exec) (start runs) as, BooksKept t) ↔
      Meets (Pool.step exec) CarefulStep (start runs) as) ∧
    ∀ (i : ℕ) p, c.procs[i]? = some p →
      ∃ (acts : List ProxyAct) (c' : Pool Books ProxyProc) (p' : ProxyProc),
        run (Pool.step exec) c (acts.map fun a => (i, a)) = some c' ∧
        c'.procs[i]? = some p' ∧ p'.pos = .returned := by
  refine ⟨?_, fun i p hp => run_finishes p.pos.rank c i p hp le_rfl⟩
  exact (meets_iff_states (fun _ hinv => hinv.kept) (fun _ _ _ hinv hG h => step_inv hinv hG h)
    (fun _ _ _ hinv h hkept => careful_of_kept hinv h hkept) as _ c (start_inv hids) hrun).symm

/-- The same run with a longer password, which leaves one row. -/
def longerPassword : ProxyRun :=
  { shortPassword with opts := { shortPassword.opts with
      systemUser := { shortPassword.opts.systemUser with password := str "xyz" } } }

/-- Its connection fails; there is no session to disconnect any more. -/
def refusedLogged : List (ℕ × ProxyAct) :=
  [(0, .go), (0, .go), (0, .connectFailed (str "refused")), (0, .go), (0, .go),
    (0, .insertedAt (str "2023")), (0, .go), (0, .go), (0, .go)]

theorem books_kept_iff_longer :
    ∃ c, run (Pool.step exec) (start [longerPassword]) refusedLogged = some c ∧
      c.procs = [⟨longerPassword, .returned, some (.failed (str "refused")), false⟩] ∧
      ∀ t ∈ states (Pool.step exec) (start [longerPassword]) refusedLogged, BooksKept t :=
  ⟨_, rfl, by decide, (books_kept_iff [longerPassword] (by decide) refusedLogged _ rfl).1.mpr
    (by decide)⟩

end GoJump.Proxy.Bookkeeping
