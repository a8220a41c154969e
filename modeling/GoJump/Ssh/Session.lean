import GoJump.Lib.Chan
import GoJump.Lib.Run
import GoJump.Ssh.Wire

/-!
# The requests of a session

Model of `session` (`pkg/ssh/session.go`, lines 90–372): the loop of `handleRequests` over
the requests of the client, the handler that it starts, and `Exit`. The loop sends the sizes
of the terminal on `winch`, which has room for one of them and holds the one of `pty-req`
from the beginning; the channel is read by the handler, which has it from `Pty()`. The loop
waits while there is no room. All orders of their steps are runs.

Nobody calls `Signals` and `Break`, so `sigCh` and `breakCh` are nil.

* `session_view_fixed`: at most one handler is started, and what it can ask of the session
  but for the size of the terminal is fixed from then on; at most one exit status is sent.
* `windows_in_order`: the sizes reach the handler in the order of the requests, none is lost
  and none comes twice.
* `early_resize_wedges`: a size before the handler is started stops the session for good.
-/

namespace GoJump.Ssh

open GoJump.Go GoJump.Lib

/-! ## Requests -/

/-- The requests of a client with their payloads. -/
inductive Request
  | shell (payload : GoString)
  | exec (payload : GoString)
  | subsystem (payload : GoString)
  | env (payload : GoString)
  | signal (payload : GoString)
  | ptyReq (payload : GoString)
  | windowChange (payload : GoString)
  | agent
  | breaks
  | other
  deriving DecidableEq

/-- The requests that start a handler. -/
def Request.starts : Request → Bool
  | .shell _ | .exec _ | .subsystem _ => true
  | _ => false

/-- Those that set what the handler can ask of the session, but for the size of the terminal. -/
def Request.configures : Request → Bool
  | .env _ | .ptyReq _ => true
  | req => req.starts

def maxSigBufSize : ℕ := 128

/-! ## The session -/

/-- The fields of `session`; `pty` and `winch` are set together. -/
structure Session where
  handled : Bool
  exited : Bool
  pty : Option (Pty × Chan Window 1)
  env : List GoString
  rawCmd : GoString
  subsystem : GoString
  sigBuf : List GoString
  agentRequested : Bool

/-- What the handler can ask of it, but for the size of the terminal. -/
structure View where
  command : GoString
  subsystem : GoString
  environ : List GoString
  term : Option GoString
  deriving DecidableEq

def Session.view (sess : Session) : View :=
  ⟨sess.rawCmd, sess.subsystem, sess.env, sess.pty.map (·.1.term)⟩

/-- The fields of `Server` that the session gets, and `gossh.Unmarshal` into a structure of
    so many strings; its error is dropped. -/
structure Config where
  unmarshal : ℕ → GoString → List GoString
  sessReqCb : Option (Session → Request → Bool)
  ptyCb : Option (Pty → Bool)
  subsystemHandlers : List GoString

/-- Where the loop stands: it waits for a request, or to send the size of a request, has ended
    with the requests, or has crashed. -/
inductive Loop
  | idle
  | send (payload : GoString) (win : Window)
  | ended
  | crashed
  deriving DecidableEq

/-- The session, the loop, the handlers that were started with what they could see then, the
    answers and exit statuses that were sent, and the sizes that the handler has received. -/
structure State where
  sess : Session
  loop : Loop
  started : List View
  replies : List (Request × Bool)
  statuses : List ℕ
  received : List Window

/-- `DefaultSessionHandler` (lines 90–106). -/
def State.new : State :=
  ⟨⟨false, false, none, [], [], [], [], false⟩, .idle, [], [], [], []⟩

namespace State

def reply (s : State) (req : Request) (ok : Bool) : State :=
  { s with replies := s.replies ++ [(req, ok)] }

def withSess (s : State) (sess : Session) : State := { s with sess := sess }

/-- `go func() { handler(sess); … }` with `handled` set. -/
def start (s : State) (req : Request) : State :=
  reply { s with sess := { s.sess with handled := true }, started := s.started ++ [s.sess.view] }
    req true

/-- The callback for the requests that start a handler. -/
def refuses (cfg : Config) (s : State) (req : Request) : Bool :=
  match cfg.sessReqCb with
  | none => false
  | some callback => !callback s.sess req

/-- `shell` and `exec` (lines 238–262). -/
def shellOrExec (cfg : Config) (s : State) (req : Request) (payload : GoString) : State :=
  if s.sess.handled then s.reply req false
  else
    let s := s.withSess { s.sess with rawCmd := (cfg.unmarshal 1 payload).headD [] }
    if s.refuses cfg req then (s.withSess { s.sess with rawCmd := [] }).reply req false
    else s.start req

/-- `subsystem` (lines 263–296); the handler of an unknown one is that of `default`. -/
def subsystem (cfg : Config) (s : State) (req : Request) (payload : GoString) : State :=
  if s.sess.handled then s.reply req false
  else
    let name := (cfg.unmarshal 1 payload).headD []
    let s := s.withSess { s.sess with subsystem := name }
    if s.refuses cfg req then (s.withSess { s.sess with rawCmd := [] }).reply req false
    else if name ∈ cfg.subsystemHandlers ∨ str "default" ∈ cfg.subsystemHandlers then s.start req
    else s.reply req false

/-- `env` (lines 297–305). -/
def setEnv (cfg : Config) (s : State) (req : Request) (payload : GoString) : State :=
  if s.sess.handled then s.reply req false
  else
    let kv := cfg.unmarshal 2 payload
    let env := s.sess.env ++ [kv.getD 0 [] ++ str "=" ++ kv.getD 1 []]
    (s.withSess { s.sess with env := env }).reply req true

/-- `signal` (lines 306–317), which gets no answer. -/
def signal (cfg : Config) (s : State) (payload : GoString) : State :=
  if s.sess.sigBuf.length < maxSigBufSize then
    s.withSess { s.sess with sigBuf := s.sess.sigBuf ++ [(cfg.unmarshal 1 payload).headD []] }
  else s

/-- `pty-req` (lines 318–342). -/
def ptyReq (cfg : Config) (s : State) (req : Request) (payload : GoString) : State :=
  if s.sess.handled ∨ s.sess.pty.isSome then s.reply req false
  else
    match parsePtyRequest payload with
    | none => { s with loop := .crashed }
    | some none => s.reply req false
    | some (some pty) =>
      if (cfg.ptyCb.map (· pty)).getD true then
        (s.withSess { s.sess with pty := some (pty, ⟨[pty.window], false, le_rfl⟩) }).reply req true
      else s.reply req false

/-- `window-change` up to the send on `winch` (lines 343–351). -/
def windowChange (s : State) (req : Request) (payload : GoString) : State :=
  match s.sess.pty with
  | none => s.reply req false
  | some (pty, winch) =>
    match parseWinchRequest payload with
    | none => s.reply req false
    | some win =>
      { s.withSess { s.sess with pty := some ({ pty with window := win }, winch) } with
        loop := .send payload win }

/-- A request. -/
def handle (cfg : Config) (s : State) (req : Request) : State :=
  match req with
  | .shell payload => s.shellOrExec cfg req payload
  | .exec payload => s.shellOrExec cfg req payload
  | .subsystem payload => s.subsystem cfg req payload
  | .env payload => s.setEnv cfg req payload
  | .signal payload => s.signal cfg payload
  | .ptyReq payload => s.ptyReq cfg req payload
  | .windowChange payload => s.windowChange req payload
  | .agent => (s.withSess { s.sess with agentRequested := true }).reply req true
  | .breaks => s.reply req false
  | .other => s.reply req false

/-- The end of `window-change` (lines 351–353): the answer to a size that was sent. -/
def sendWindow (s : State) : Option State :=
  match s.loop, s.sess.pty with
  | .send payload win, some (pty, winch) => do
    let winch ← winch.send win
    return { s.withSess { s.sess with pty := some (pty, winch) } with loop := .idle }.reply
      (.windowChange payload) true
  | _, _ => none

/-- The handler receives from `winch`, when it has been started. -/
def recvWindow (s : State) : Option State :=
  match s.started, s.sess.pty with
  | _ :: _, some (pty, winch) => do
    let (win, winch) ← winch.recv
    return { s.withSess { s.sess with pty := some (pty, winch) } with
      received := s.received ++ win.toList }
  | _, _ => none

/-- `Exit` (lines 164–178), by the handler or when it has returned. -/
def exit (s : State) (code : ℤ) : State :=
  if s.sess.exited then s
  else
    { s.withSess { s.sess with exited := true } with
      statuses := s.statuses ++ [(code % 2 ^ 32).toNat] }

/-- The end of `reqs`: the deferred call closes `winch`. -/
def closeRequests (s : State) : State :=
  { s.withSess { s.sess with pty := s.sess.pty.map fun p => (p.1, p.2.close) } with loop := .ended }

end State

/-- The steps of the loop and of the handler. -/
inductive Act
  | request (req : Request)
  | closeRequests
  | sendWindow
  | recvWindow
  | exit (code : ℤ)

/-- One step; after a crash there is none. -/
def step (cfg : Config) (s : State) (act : Act) : Option State :=
  match act with
  | .request req => if s.loop = .idle then some (s.handle cfg req) else none
  | .closeRequests => if s.loop = .idle then some s.closeRequests else none
  | .sendWindow => s.sendWindow
  | .recvWindow => if s.loop = .crashed then none else s.recvWindow
  | .exit code => if s.loop ≠ .crashed ∧ s.started ≠ [] then some (s.exit code) else none

/-! ## What the handler sees -/

section View

variable {cfg : Config} {s s' : State} {act : Act}

/-- What a step may do before a handler is started, and after. -/
structure Steps (s s' : State) : Prop where
  before : s.sess.handled = false → s'.sess.handled = false ∧ s'.started = s.started ∨
    s'.sess.handled = true ∧ s'.started = s.started ++ [s'.sess.view]
  after : s.sess.handled = true → s'.sess.handled = true ∧ s'.started = s.started ∧
    s'.sess.view = s.sess.view
  refused : s.sess.handled = true → ∃ later, s'.replies = s.replies ++ later ∧
    ∀ r ∈ later, r.1.configures = true → r.2 = false

/-- A step that changes nothing of this, and answers at most one request. -/
theorem Steps.of_same (hhandled : s'.sess.handled = s.sess.handled)
    (hstarted : s'.started = s.started)
    (hview : s.sess.handled = true → s'.sess.view = s.sess.view) {later : List (Request × Bool)}
    (hreplies : s'.replies = s.replies ++ later)
    (hrefused : s.sess.handled = true → ∀ r ∈ later, r.1.configures = true → r.2 = false) :
    Steps s s' where
  before h := .inl ⟨hhandled.trans h, hstarted⟩
  after h := ⟨hhandled.trans h, hstarted, hview h⟩
  refused h := ⟨later, hreplies, hrefused h⟩

/-- A request that is refused. -/
theorem Steps.reply_false (s : State) (req : Request) : Steps s (s.reply req false) :=
  .of_same rfl rfl (fun _ => rfl) rfl fun _ r hr _ => by rw [List.mem_singleton.mp hr]

theorem Steps.refl (s : State) : Steps s s :=
  .of_same rfl rfl (fun _ => rfl) (List.append_nil _).symm fun _ r hr => by cases hr

/-- Before a handler is started. -/
theorem Steps.of_unhandled (hnot : ¬ s.sess.handled = true)
    (h : s'.sess.handled = false ∧ s'.started = s.started ∨
      s'.sess.handled = true ∧ s'.started = s.started ++ [s'.sess.view]) : Steps s s' where
  before _ := h
  after hhandled := absurd hhandled hnot
  refused hhandled := absurd hhandled hnot

theorem shellOrExec_steps (cfg : Config) (s : State) (req : Request) (payload : GoString) :
    Steps s (s.shellOrExec cfg req payload) := by
  unfold State.shellOrExec
  by_cases hhandled : s.sess.handled = true
  · rw [if_pos hhandled]
    exact .reply_false s req
  · rw [if_neg hhandled]
    refine .of_unhandled hhandled ?_
    dsimp only
    split_ifs
    · exact .inl ⟨Bool.eq_false_iff.mpr hhandled, rfl⟩
    · exact .inr ⟨rfl, rfl⟩

theorem subsystem_steps (cfg : Config) (s : State) (req : Request) (payload : GoString) :
    Steps s (s.subsystem cfg req payload) := by
  unfold State.subsystem
  by_cases hhandled : s.sess.handled = true
  · rw [if_pos hhandled]
    exact .reply_false s req
  · rw [if_neg hhandled]
    refine .of_unhandled hhandled ?_
    dsimp only
    split_ifs
    · exact .inl ⟨Bool.eq_false_iff.mpr hhandled, rfl⟩
    · exact .inr ⟨rfl, rfl⟩
    · exact .inl ⟨Bool.eq_false_iff.mpr hhandled, rfl⟩

theorem setEnv_steps (cfg : Config) (s : State) (req : Request) (payload : GoString) :
    Steps s (s.setEnv cfg req payload) := by
  unfold State.setEnv
  by_cases hhandled : s.sess.handled = true
  · rw [if_pos hhandled]
    exact .reply_false s req
  · rw [if_neg hhandled]
    exact .of_unhandled hhandled (.inl ⟨Bool.eq_false_iff.mpr hhandled, rfl⟩)

theorem ptyReq_steps (cfg : Config) (s : State) (req : Request) (payload : GoString) :
    Steps s (s.ptyReq cfg req payload) := by
  unfold State.ptyReq
  by_cases hrefused : s.sess.handled = true ∨ s.sess.pty.isSome = true
  · rw [if_pos hrefused]
    exact .reply_false s req
  · rw [if_neg hrefused]
    have hhandled : ¬ s.sess.handled = true := fun h => hrefused (.inl h)
    have hsame : ∀ s' : State, s'.sess.handled = s.sess.handled → s'.started = s.started →
        Steps s s' :=
      fun s' hs hstarted =>
        .of_unhandled hhandled (.inl ⟨hs.trans (Bool.eq_false_iff.mpr hhandled), hstarted⟩)
    split
    · exact hsame _ rfl rfl
    · exact hsame _ rfl rfl
    · split_ifs
      · exact hsame _ rfl rfl
      · exact hsame _ rfl rfl

/-- The new size changes nothing else of the terminal. -/
theorem windowChange_steps (s : State) (req : Request) (payload : GoString) :
    Steps s (s.windowChange req payload) := by
  unfold State.windowChange
  split
  · exact .reply_false s req
  · rename_i pty winch hpty
    split
    · exact .reply_false s req
    · refine .of_same rfl rfl (fun _ => ?_) (List.append_nil _).symm fun _ r hr => by cases hr
      show View.mk _ _ _ _ = View.mk _ _ _ (s.sess.pty.map (·.1.term))
      rw [hpty]
      rfl

theorem handle_steps (cfg : Config) (s : State) (req : Request) : Steps s (s.handle cfg req) := by
  cases req with
  | shell payload => exact shellOrExec_steps cfg s _ payload
  | exec payload => exact shellOrExec_steps cfg s _ payload
  | subsystem payload => exact subsystem_steps cfg s _ payload
  | env payload => exact setEnv_steps cfg s _ payload
  | signal payload =>
    show Steps s (s.signal cfg payload)
    unfold State.signal
    split_ifs
    · exact .of_same rfl rfl (fun _ => rfl) (List.append_nil _).symm fun _ r hr => by cases hr
    · exact .refl s
  | ptyReq payload => exact ptyReq_steps cfg s _ payload
  | windowChange payload => exact windowChange_steps s _ payload
  | agent =>
    refine .of_same rfl rfl (fun _ => rfl) rfl fun _ r hr hconf => ?_
    rw [List.mem_singleton.mp hr] at hconf
    cases hconf
  | breaks => exact .reply_false s _
  | other => exact .reply_false s _

/-- A step with `winch`. -/
theorem Steps.of_winch {pty : Pty} {winch winch' : Chan Window 1}
    (hpty : s.sess.pty = some (pty, winch))
    (hsess : s'.sess = { s.sess with pty := some (pty, winch') })
    (hstarted : s'.started = s.started)
    {later : List (Request × Bool)} (hreplies : s'.replies = s.replies ++ later)
    (hlater : ∀ r ∈ later, r.1.configures = false) : Steps s s' := by
  refine .of_same (by rw [hsess]) hstarted (fun _ => ?_) hreplies fun _ r hr hconf => ?_
  · rw [hsess]
    show View.mk _ _ _ _ = View.mk _ _ _ (s.sess.pty.map (·.1.term))
    rw [hpty]
    rfl
  · rw [hlater r hr] at hconf
    cases hconf

theorem sendWindow_eq_some (h : s.sendWindow = some s') : ∃ payload win pty winch winch',
    s.loop = .send payload win ∧ s.sess.pty = some (pty, winch) ∧ winch.send win = some winch' ∧
    s' = { s.withSess { s.sess with pty := some (pty, winch') } with loop := .idle }.reply
      (.windowChange payload) true := by
  unfold State.sendWindow at h
  split at h
  · rename_i payload win pty winch hloop hpty
    obtain ⟨winch', hsend, h⟩ := Option.bind_eq_some_iff.mp h
    cases h
    exact ⟨payload, win, pty, winch, winch', hloop, hpty, hsend, rfl⟩
  · cases h

theorem recvWindow_eq_some (h : s.recvWindow = some s') : ∃ pty winch win winch',
    s.started ≠ [] ∧ s.sess.pty = some (pty, winch) ∧ winch.recv = some (win, winch') ∧
    s' =
      { s.withSess { s.sess with pty := some (pty, winch') } with
        received := s.received ++ win.toList } := by
  unfold State.recvWindow at h
  split at h
  · rename_i view views pty winch hstarted hpty
    obtain ⟨⟨win, winch'⟩, hrecv, h⟩ := Option.bind_eq_some_iff.mp h
    cases h
    exact ⟨pty, winch, win, winch', by rw [hstarted]; exact List.cons_ne_nil _ _, hpty, hrecv, rfl⟩
  · cases h

theorem step_steps (h : step cfg s act = some s') : Steps s s' := by
  cases act with
  | request req =>
    obtain ⟨-, h⟩ := Option.ite_none_right_eq_some.mp h
    cases h
    exact handle_steps cfg s req
  | closeRequests =>
    obtain ⟨-, h⟩ := Option.ite_none_right_eq_some.mp h
    cases h
    refine .of_same rfl rfl (fun _ => ?_) (List.append_nil _).symm fun _ r hr => by cases hr
    show View.mk _ _ _ ((s.sess.pty.map _).map _) = View.mk _ _ _ (s.sess.pty.map _)
    rw [Option.map_map]
    rfl
  | sendWindow =>
    obtain ⟨payload, win, pty, winch, winch', -, hpty, -, rfl⟩ := sendWindow_eq_some h
    exact .of_winch hpty rfl rfl rfl (List.forall_mem_singleton.mpr rfl)
  | recvWindow =>
    obtain ⟨-, h⟩ := Option.ite_none_left_eq_some.mp h
    obtain ⟨pty, winch, win, winch', -, hpty, -, rfl⟩ := recvWindow_eq_some h
    exact .of_winch hpty rfl rfl (List.append_nil _).symm fun r hr => by cases hr
  | exit code =>
    obtain ⟨-, h⟩ := Option.ite_none_right_eq_some.mp h
    cases h
    unfold State.exit
    split_ifs
    · exact .refl s
    · exact .of_same rfl rfl (fun _ => rfl) (List.append_nil _).symm fun _ r hr => by cases hr

/-- Once a handler is started. -/
def Fixed (s s' : State) : Prop :=
  s.sess.handled = true → s'.sess.handled = true ∧ s'.started = s.started ∧
    s'.sess.view = s.sess.view ∧
    ∃ later, s'.replies = s.replies ++ later ∧ ∀ r ∈ later, r.1.configures = true → r.2 = false

theorem Fixed.refl (s : State) : Fixed s s :=
  fun h => ⟨h, rfl, rfl, [], (List.append_nil _).symm, fun r hr => by cases hr⟩

theorem Fixed.trans {s t u : State} (h : Fixed s t) (h' : Fixed t u) : Fixed s u := by
  intro hs
  obtain ⟨ht, hstarted, hview, later, hreplies, hrefused⟩ := h hs
  obtain ⟨hu, hstarted', hview', later', hreplies', hrefused'⟩ := h' ht
  refine ⟨hu, hstarted'.trans hstarted, hview'.trans hview, later ++ later', ?_, ?_⟩
  · rw [hreplies', hreplies, List.append_assoc]
  · exact List.forall_mem_append.mpr ⟨hrefused, hrefused'⟩

theorem Steps.fixed (h : Steps s s') : Fixed s s' := fun hs =>
  ⟨(h.after hs).1, (h.after hs).2.1, (h.after hs).2.2, h.refused hs⟩

/-- The handler was started with what the session shows now. -/
def Started (s : State) : Prop := s.started = if s.sess.handled then [s.sess.view] else []

theorem Steps.started (h : Steps s s') (hs : Started s) : Started s' := by
  unfold Started at hs ⊢
  cases hhandled : s.sess.handled with
  | true =>
    obtain ⟨h₁, h₂, h₃⟩ := h.after hhandled
    rw [hhandled] at hs
    rw [h₁, h₂, h₃]
    exact hs
  | false =>
    rw [hhandled] at hs
    obtain ⟨h₁, h₂⟩ | ⟨h₁, h₂⟩ := h.before hhandled
    · rw [h₁, h₂]
      exact hs
    · rw [h₁, h₂, hs]
      rfl

theorem run_started {acts : List Act} (h : run (step cfg) State.new acts = some s) : Started s := by
  have hnew : Started State.new := rfl
  exact run_inv' (fun _ _ _ hs hstep => (step_steps hstep).started hs) hnew h

/-- A status has been sent when the session has exited. -/
def Exited (s : State) : Prop := s.statuses.length = if s.sess.exited then 1 else 0

/-- A request does not touch the exit status. -/
theorem handle_exited (cfg : Config) (s : State) (req : Request) :
    (s.handle cfg req).statuses = s.statuses ∧ (s.handle cfg req).sess.exited = s.sess.exited := by
  cases req with
  | shell payload | exec payload =>
    show (s.shellOrExec cfg _ payload).statuses = _ ∧ (s.shellOrExec cfg _ payload).sess.exited = _
    unfold State.shellOrExec
    dsimp only
    split_ifs <;> exact ⟨rfl, rfl⟩
  | subsystem payload =>
    show (s.subsystem cfg _ payload).statuses = _ ∧ (s.subsystem cfg _ payload).sess.exited = _
    unfold State.subsystem
    dsimp only
    split_ifs <;> exact ⟨rfl, rfl⟩
  | env payload =>
    show (s.setEnv cfg _ payload).statuses = _ ∧ (s.setEnv cfg _ payload).sess.exited = _
    unfold State.setEnv
    split_ifs <;> exact ⟨rfl, rfl⟩
  | signal payload =>
    show (s.signal cfg payload).statuses = _ ∧ (s.signal cfg payload).sess.exited = _
    unfold State.signal
    split_ifs <;> exact ⟨rfl, rfl⟩
  | ptyReq payload =>
    show (s.ptyReq cfg _ payload).statuses = _ ∧ (s.ptyReq cfg _ payload).sess.exited = _
    unfold State.ptyReq
    split_ifs
    · exact ⟨rfl, rfl⟩
    · split
      · exact ⟨rfl, rfl⟩
      · exact ⟨rfl, rfl⟩
      · split_ifs <;> exact ⟨rfl, rfl⟩
  | windowChange payload =>
    show (s.windowChange _ payload).statuses = _ ∧ (s.windowChange _ payload).sess.exited = _
    unfold State.windowChange
    split
    · exact ⟨rfl, rfl⟩
    · split <;> exact ⟨rfl, rfl⟩
  | agent | breaks | other => exact ⟨rfl, rfl⟩

theorem step_exited (hs : Exited s) (h : step cfg s act = some s') : Exited s' := by
  unfold Exited at hs ⊢
  cases act with
  | request req =>
    obtain ⟨-, h⟩ := Option.ite_none_right_eq_some.mp h
    cases h
    rw [(handle_exited cfg s req).1, (handle_exited cfg s req).2]
    exact hs
  | closeRequests =>
    obtain ⟨-, h⟩ := Option.ite_none_right_eq_some.mp h
    cases h
    exact hs
  | sendWindow =>
    obtain ⟨payload, win, pty, winch, winch', -, -, -, rfl⟩ := sendWindow_eq_some h
    exact hs
  | recvWindow =>
    obtain ⟨-, h⟩ := Option.ite_none_left_eq_some.mp h
    obtain ⟨pty, winch, win, winch', -, -, -, rfl⟩ := recvWindow_eq_some h
    exact hs
  | exit code =>
    obtain ⟨-, h⟩ := Option.ite_none_right_eq_some.mp h
    cases h
    unfold State.exit
    by_cases hexited : s.sess.exited = true
    · rw [if_pos hexited]
      exact hs
    · rw [if_neg hexited] at hs ⊢
      show (s.statuses ++ [_]).length = 1
      rw [List.length_append, hs]
      rfl

/-- However the requests of the client and the steps of the handler are ordered: at most one
    handler is started, at most one exit status is sent, and from its start on the handler is
    told the same command, subsystem, environment and kind of terminal, since the requests
    for them are refused. -/
theorem session_view_fixed (cfg : Config) (acts acts' : List Act) (s s' : State)
    (h : run (step cfg) State.new acts = some s) (h' : run (step cfg) s acts' = some s') :
    s'.statuses.length ≤ 1 ∧ (s.sess.handled = false → s.started = []) ∧
    (s.sess.handled = true →
      s.started = [s.sess.view] ∧ s'.started = [s.sess.view] ∧ s'.sess.view = s.sess.view ∧
      ∃ later, s'.replies = s.replies ++ later ∧ ∀ r ∈ later, r.1.configures = true →
        r.2 = false) := by
  have hstarted := run_started h
  have hnew : Exited State.new := rfl
  have hexited : Exited s := run_inv' (fun s act s' hs hstep => step_exited hs hstep) hnew h
  have hexited' : Exited s' := run_inv' (fun s act s' hs hstep => step_exited hs hstep) hexited h'
  have hfixed : Fixed s s' :=
    run_rel Fixed.refl (fun _ _ _ => Fixed.trans) (fun s act s' hstep => (step_steps hstep).fixed)
      acts' s s' h'
  unfold Started at hstarted
  refine ⟨?_, fun hnot => ?_, fun hhandled => ?_⟩
  · unfold Exited at hexited'
    split_ifs at hexited' <;> omega
  · rw [hstarted, hnot]
    rfl
  · obtain ⟨-, hstarted', hview, hrefused⟩ := hfixed hhandled
    have hone : s.started = [s.sess.view] := by
      rw [hstarted, hhandled]
      rfl
    exact ⟨hone, hstarted'.trans hone, hview, hrefused⟩

/-- No callbacks, and every string of a structure is the payload. -/
def plainConfig : Config := ⟨fun n payload => List.replicate n payload, none, none, []⟩

/-- A command with a variable, and another command that comes too late. -/
theorem session_view_fixed_exec : ∃ s s',
    run (step plainConfig) State.new
      [.request (.env (str "A")), .request (.exec (str "ls"))] = some s ∧
    run (step plainConfig) s [.request (.exec (str "rm")), .exit 3, .exit 0] = some s' ∧
    s.sess.handled = true ∧ s'.started = [⟨str "ls", [], [str "A=A"], none⟩] := by
  have h := session_view_fixed plainConfig
    [.request (.env (str "A")), .request (.exec (str "ls"))]
    [.request (.exec (str "rm")), .exit 3, .exit 0] _ _ rfl rfl
  exact ⟨_, _, rfl, rfl, rfl, (h.2.2 rfl).2.1⟩

end View

/-! ## The size of the terminal -/

/-- The size of a request, if it was answered with yes. -/
def acceptedSize : Request × Bool → Option Window
  | (.ptyReq payload, true) => ((parsePtyRequest payload).bind id).map (·.window)
  | (.windowChange payload, true) => parseWinchRequest payload
  | _ => none

/-- The sizes that were accepted, in the order of the answers. -/
def State.sizes (s : State) : List Window := s.replies.filterMap acceptedSize

/-- The sizes on the way to the handler. -/
def State.buffered (s : State) : List Window := (s.sess.pty.map (·.2.buf)).getD []

/-- The size that the loop waits to send, before it answers. -/
def Loop.pending : Loop → List Window
  | .send _ win => [win]
  | _ => []

/-- The sizes reach the handler in the order of the answers, and the terminal has the last one. -/
structure Windows (s : State) : Prop where
  sizes_eq : s.sizes = s.received ++ s.buffered
  window_eq : s.sess.pty.map (·.1.window) = (s.sizes ++ s.loop.pending).getLast?
  pending_eq : ∀ payload win, s.loop = .send payload win → parseWinchRequest payload = some win
  unread : s.started = [] → s.received = []
  closed : ∀ p ∈ s.sess.pty, p.2.closed = true → s.loop = .ended

section Windows

variable {cfg : Config} {s s' : State} {act : Act}

theorem sizes_reply (s : State) (req : Request) (ok : Bool) :
    (s.reply req ok).sizes = s.sizes ++ (acceptedSize (req, ok)).toList := by
  show (s.replies ++ [(req, ok)]).filterMap acceptedSize = _
  rw [List.filterMap_append]
  cases hsize : acceptedSize (req, ok) with
  | none =>
    rw [List.filterMap_cons_none hsize]
    rfl
  | some win =>
    rw [List.filterMap_cons_some hsize]
    rfl

theorem Windows.of_same (h : Windows s) (hpty : s'.sess.pty = s.sess.pty) (hloop : s'.loop = s.loop)
    (hreceived : s'.received = s.received) (hsizes : s'.sizes = s.sizes)
    (hstarted : s'.started = [] → s.started = []) : Windows s' where
  sizes_eq := by
    rw [hsizes, hreceived, h.sizes_eq, State.buffered, State.buffered, hpty]
  window_eq := by rw [hpty, hsizes, hloop, h.window_eq]
  pending_eq payload win hsend := h.pending_eq payload win (hloop ▸ hsend)
  unread hnot := by rw [hreceived, h.unread (hstarted hnot)]
  closed p hp hclosed := by
    rw [hloop]
    exact h.closed p (hpty ▸ hp) hclosed

/-- An answer that accepts no size. -/
theorem Windows.reply (h : Windows s) {req : Request} {ok : Bool}
    (hnone : acceptedSize (req, ok) = none) :
    Windows (s.reply req ok) := by
  refine h.of_same rfl rfl rfl ?_ id
  rw [sizes_reply, hnone]
  exact List.append_nil _

theorem Windows.reply_false (h : Windows s) (req : Request) : Windows (s.reply req false) :=
  h.reply (by cases req <;> rfl)

theorem Windows.start (h : Windows s) {req : Request} (hstarts : req.starts = true) :
    Windows (s.start req) := by
  have hnone : acceptedSize (req, true) = none := by
    cases req <;> first | rfl | cases hstarts
  refine h.of_same rfl rfl rfl ?_ fun hnil => ?_
  · rw [State.start, sizes_reply, hnone]
    exact List.append_nil _
  · exact absurd hnil (List.append_ne_nil_of_right_ne_nil _ (List.cons_ne_nil _ _))

/-- A first terminal. -/
theorem ptyReq_windows (h : Windows s) (hidle : s.loop = .idle) (cfg : Config)
    (payload : GoString) :
    Windows (s.ptyReq cfg (.ptyReq payload) payload) := by
  unfold State.ptyReq
  by_cases hrefused : s.sess.handled = true ∨ s.sess.pty.isSome = true
  · rw [if_pos hrefused]
    exact h.reply_false _
  rw [if_neg hrefused]
  have hpty : s.sess.pty = none := by
    rw [not_or] at hrefused
    exact Option.not_isSome_iff_eq_none.mp hrefused.2
  have hnil : s.sizes = [] ∧ s.loop.pending = [] := by
    have hlast := h.window_eq
    rw [hpty] at hlast
    exact List.append_eq_nil_iff.mp (List.getLast?_eq_none_iff.mp hlast.symm)
  have hreceived : s.received = [] := by
    have heq := h.sizes_eq
    rw [hnil.1] at heq
    exact (List.append_eq_nil_iff.mp heq.symm).1
  split
  · -- the crash
    refine ⟨h.sizes_eq, ?_, fun _ _ hc => (by cases hc), h.unread, fun p hp => ?_⟩
    · show s.sess.pty.map _ = (s.sizes ++ []).getLast?
      rw [hpty, hnil.1]
      rfl
    · rw [show ({ s with loop := .crashed } : State).sess.pty = none from hpty] at hp
      cases hp
  · exact h.reply_false _
  · rename_i pty hparse
    split_ifs
    · have hsize : acceptedSize (.ptyReq payload, true) = some pty.window := by
        show ((parsePtyRequest payload).bind id).map _ = _
        rw [hparse]
        rfl
      refine ⟨?_, ?_, fun payload' win' hsend => ?_, h.unread, fun p hp hclosed => ?_⟩
      · rw [sizes_reply, hsize]
        show s.sizes ++ [pty.window] = s.received ++ [pty.window]
        rw [hnil.1, hreceived]
      · rw [sizes_reply, hsize]
        show some pty.window = (s.sizes ++ [pty.window] ++ s.loop.pending).getLast?
        rw [hnil.1, hnil.2]
        rfl
      · have hloop : s.loop = .send payload' win' := hsend
        rw [hidle] at hloop
        cases hloop
      · cases hp
        cases hclosed
    · exact h.reply_false _

/-- A new size. -/
theorem windowChange_windows (h : Windows s) (hidle : s.loop = .idle) (payload : GoString) :
    Windows (s.windowChange (.windowChange payload) payload) := by
  unfold State.windowChange
  split
  · exact h.reply_false _
  · rename_i pty winch hpty
    split
    · exact h.reply_false _
    · rename_i win hparse
      refine ⟨?_, ?_, fun payload' win' hsend => ?_, h.unread, fun p hp hclosed => ?_⟩
      · have heq := h.sizes_eq
        rw [State.buffered, hpty] at heq
        exact heq
      · show some win = (s.sizes ++ [win]).getLast?
        rw [List.getLast?_append]
        rfl
      · cases hsend
        exact hparse
      · cases hp
        have hended := h.closed (pty, winch) hpty hclosed
        rw [hidle] at hended
        cases hended

theorem handle_windows (h : Windows s) (hidle : s.loop = .idle) (cfg : Config) (req : Request) :
    Windows (s.handle cfg req) := by
  cases req with
  | shell payload | exec payload =>
    show Windows (s.shellOrExec cfg _ payload)
    unfold State.shellOrExec
    dsimp only
    split_ifs
    · exact h.reply_false _
    · refine .reply_false ?_ _
      exact h.of_same rfl rfl rfl rfl id
    · refine .start ?_ rfl
      exact h.of_same rfl rfl rfl rfl id
  | subsystem payload =>
    show Windows (s.subsystem cfg _ payload)
    unfold State.subsystem
    dsimp only
    split_ifs
    · exact h.reply_false _
    · refine .reply_false ?_ _
      exact h.of_same rfl rfl rfl rfl id
    · refine .start ?_ rfl
      exact h.of_same rfl rfl rfl rfl id
    · refine .reply_false ?_ _
      exact h.of_same rfl rfl rfl rfl id
  | env payload =>
    show Windows (s.setEnv cfg _ payload)
    unfold State.setEnv
    split_ifs
    · exact h.reply_false _
    · refine .reply ?_ rfl
      exact h.of_same rfl rfl rfl rfl id
  | signal payload =>
    show Windows (s.signal cfg payload)
    unfold State.signal
    split_ifs
    · exact h.of_same rfl rfl rfl rfl id
    · exact h
  | ptyReq payload => exact ptyReq_windows h hidle cfg payload
  | windowChange payload => exact windowChange_windows h hidle payload
  | agent =>
    refine .reply ?_ rfl
    exact h.of_same rfl rfl rfl rfl id
  | breaks => exact h.reply_false _
  | other => exact h.reply_false _

theorem sendWindow_windows (h : Windows s) (hsend : s.sendWindow = some s') : Windows s' := by
  obtain ⟨payload, win, pty, winch, winch', hloop, hpty, hsent, rfl⟩ := sendWindow_eq_some hsend
  obtain ⟨hopen, -, hbuf, hclosed⟩ := Chan.send_eq_some hsent
  have hsize : acceptedSize (.windowChange payload, true) = some win :=
    h.pending_eq payload win hloop
  have hsizes := h.sizes_eq
  have hwindow := h.window_eq
  rw [State.buffered, hpty] at hsizes
  rw [hpty, hloop] at hwindow
  refine ⟨?_, ?_, fun _ _ hc => (by cases hc), h.unread, fun p hp hc => ?_⟩
  · rw [sizes_reply, hsize]
    show s.sizes ++ [win] = s.received ++ winch'.buf
    rw [hbuf, hsizes, List.append_assoc]
    rfl
  · rw [sizes_reply, hsize]
    show some pty.window = (s.sizes ++ [win] ++ []).getLast?
    rw [List.append_nil]
    exact hwindow
  · cases hp
    rw [show winch'.closed = false from hclosed.trans hopen] at hc
    cases hc

theorem recvWindow_windows (h : Windows s) (hrecv : s.recvWindow = some s') : Windows s' := by
  obtain ⟨pty, winch, win, winch', hstarted, hpty, hgot, rfl⟩ := recvWindow_eq_some hrecv
  have hsizes := h.sizes_eq
  have hwindow := h.window_eq
  rw [State.buffered, hpty] at hsizes
  rw [hpty] at hwindow
  have hparts : win.toList ++ winch'.buf = winch.buf ∧ winch'.closed = winch.closed := by
    cases win with
    | some a =>
      obtain ⟨hbuf, hclosed⟩ := Chan.recv_eq_value hgot
      exact ⟨hbuf.symm, hclosed⟩
    | none =>
      obtain ⟨-, -, rfl⟩ := Chan.recv_eq_end hgot
      exact ⟨rfl, rfl⟩
  refine ⟨?_, hwindow, h.pending_eq, fun hnot => absurd hnot hstarted, fun p hp hc => ?_⟩
  · show s.sizes = s.received ++ win.toList ++ winch'.buf
    rw [List.append_assoc, hparts.1]
    exact hsizes
  · cases hp
    exact h.closed (pty, winch) hpty (hparts.2 ▸ hc)

theorem step_windows (h : Windows s) (hstep : step cfg s act = some s') : Windows s' := by
  cases act with
  | request req =>
    obtain ⟨hidle, hstep⟩ := Option.ite_none_right_eq_some.mp hstep
    cases hstep
    exact handle_windows h hidle cfg req
  | closeRequests =>
    obtain ⟨hidle, hstep⟩ := Option.ite_none_right_eq_some.mp hstep
    cases hstep
    have hsizes := h.sizes_eq
    have hwindow := h.window_eq
    rw [hidle] at hwindow
    refine ⟨?_, ?_, fun _ _ hc => (by cases hc), h.unread, fun p hp hc => rfl⟩
    · show s.sizes = s.received ++ ((s.sess.pty.map _).map _).getD []
      rw [Option.map_map]
      exact hsizes
    · show (s.sess.pty.map _).map _ = _
      rw [Option.map_map]
      exact hwindow
  | sendWindow => exact sendWindow_windows h hstep
  | recvWindow =>
    obtain ⟨-, hstep⟩ := Option.ite_none_left_eq_some.mp hstep
    exact recvWindow_windows h hstep
  | exit code =>
    obtain ⟨-, hstep⟩ := Option.ite_none_right_eq_some.mp hstep
    cases hstep
    unfold State.exit
    split_ifs
    · exact h
    · exact h.of_same rfl rfl rfl rfl id

theorem windows_new : Windows State.new :=
  ⟨rfl, rfl, fun _ _ hc => (by cases hc), fun _ => rfl, fun _ hp => by cases hp⟩

theorem run_windows {acts : List Act} (h : run (step cfg) State.new acts = some s) : Windows s :=
  run_inv' (fun _ _ _ hs hstep => step_windows hs hstep) windows_new h

theorem buffered_of_pty {pty : Pty} {winch : Chan Window 1}
    (hpty : s.sess.pty = some (pty, winch)) :
    s.buffered = winch.buf := by
  rw [State.buffered, hpty]
  rfl

/-- Every size that the client is told was accepted reaches the handler, once and in order, as
    long as it receives; at most one of them is on the way. `Pty()` shows the last one. While
    the loop waits with a size and there is a handler, it is for this handler to receive. -/
theorem windows_in_order (cfg : Config) (acts : List Act) (s : State)
    (h : run (step cfg) State.new acts = some s) :
    s.sizes = s.received ++ s.buffered ∧ s.buffered.length ≤ 1 ∧
    s.sess.pty.map (·.1.window) = (s.sizes ++ s.loop.pending).getLast? ∧
    ∀ payload win, s.loop = .send payload win → s.sess.handled = true →
      (step cfg s .sendWindow).isSome = true ∨ (step cfg s .recvWindow).isSome = true := by
  have hwin := run_windows h
  have hstarted := run_started h
  refine ⟨hwin.sizes_eq, ?_, hwin.window_eq, fun payload win hloop hhandled => ?_⟩
  · unfold State.buffered
    cases s.sess.pty with
    | none => exact Nat.zero_le 1
    | some p => exact p.2.length_le
  · have hwindow := hwin.window_eq
    rw [hloop] at hwindow
    rcases hpty : s.sess.pty with _ | ⟨pty, winch⟩
    · -- there is a terminal
      rw [hpty] at hwindow
      exact absurd (List.getLast?_eq_none_iff.mp hwindow.symm)
        (List.append_ne_nil_of_right_ne_nil _ (List.cons_ne_nil _ _))
    by_cases hfull : winch.Full
    · right
      obtain ⟨a, winch', hrecv, -⟩ := Chan.recv_of_full hfull
      have hone : s.started = [s.sess.view] := by
        rw [Started, hhandled] at hstarted
        exact hstarted
      show (if s.loop = .crashed then none else s.recvWindow).isSome = true
      rw [if_neg (by rw [hloop]; exact nofun), State.recvWindow, hone, hpty]
      dsimp only
      rw [hrecv]
      rfl
    · left
      have hopen : winch.closed = false := by
        cases hclosed : winch.closed with
        | false => rfl
        | true =>
          have hended := hwin.closed (pty, winch) hpty hclosed
          rw [hloop] at hended
          cases hended
      have hroom : winch.closed = false ∧ winch.buf.length < 1 :=
        ⟨hopen, lt_of_le_of_ne winch.length_le hfull⟩
      show s.sendWindow.isSome = true
      rw [State.sendWindow, hloop, hpty]
      dsimp only
      rw [Chan.send, dif_pos hroom]
      rfl

/-- A size that is accepted while the first one has not been received. -/
theorem windows_in_order_resize : ∃ s,
    run (step plainConfig) State.new
      [.request (.ptyReq (ptyRequest ⟨str "vt", 80, 24⟩ [])), .request (.shell []),
      .request (.windowChange (winchRequest ⟨100, 30⟩ []))] = some s ∧
    s.buffered = [⟨80, 24⟩] ∧ s.loop.pending = [⟨100, 30⟩] ∧
      s.sizes = s.received ++ s.buffered := by
  have h := windows_in_order plainConfig [.request (.ptyReq (ptyRequest ⟨str "vt", 80, 24⟩ [])),
    .request (.shell []), .request (.windowChange (winchRequest ⟨100, 30⟩ []))] _ rfl
  exact ⟨_, rfl, rfl, rfl, h.1⟩

/-- A new size between `pty-req` and the request that starts the handler: `winch` is full, and
    nobody has it yet. The loop waits for ever, answers no request and starts no handler. -/
theorem early_resize_wedges (cfg : Config) (acts : List Act) (s : State)
    (h : run (step cfg) State.new acts = some s) (hidle : s.loop = .idle)
    (hpty : s.sess.pty.isSome = true)
    (hnot : s.sess.handled = false) (payload : GoString) (win : Window)
    (hwin : parseWinchRequest payload = some win) :
    ∃ s', step cfg s (.request (.windowChange payload)) = some s' ∧ s'.started = [] ∧
      s'.replies = s.replies ∧ ∀ act, step cfg s' act = none := by
  have hwindows := run_windows h
  have hstarted := run_started h
  have hnil : s.started = [] := by
    rw [Started, hnot] at hstarted
    exact hstarted
  obtain ⟨⟨pty, winch⟩, hsome⟩ := Option.isSome_iff_exists.mp hpty
  have hfull : winch.buf.length = 1 := by
    have hsizes := hwindows.sizes_eq
    have hwindow := hwindows.window_eq
    rw [hwindows.unread hnil, List.nil_append, buffered_of_pty hsome] at hsizes
    rw [hsome, hidle, hsizes] at hwindow
    have hne : winch.buf ≠ [] := by
      intro hnil
      rw [hnil] at hwindow
      cases hwindow
    exact le_antisymm winch.length_le (List.length_pos_of_ne_nil hne)
  refine ⟨{ s.withSess { s.sess with pty := some ({ pty with window := win }, winch) } with
    loop := .send payload win }, ?_, hnil, rfl, fun act => ?_⟩
  · show (if s.loop = .idle then some (s.windowChange (.windowChange payload) payload) else none) =
        _
    rw [if_pos hidle, State.windowChange, hsome]
    dsimp only
    rw [hwin]
  · cases act with
    | request req => rfl
    | closeRequests => rfl
    | sendWindow =>
      show (winch.send win >>= _) = none
      rw [Chan.send, dif_neg (by rw [hfull]; exact fun hc => absurd hc.2 (lt_irrefl 1))]
      rfl
    | recvWindow =>
      show (match s.started, some ({ pty with window := win }, winch) with
        | _ :: _, some (pty, winch) => _
        | _, _ => none) = none
      rw [hnil]
    | exit code => exact if_neg fun hc => hc.2 hnil

/-- The shell is never started. -/
theorem early_resize_wedges_shell : ∃ s s',
    run (step plainConfig) State.new [.request (.ptyReq (ptyRequest ⟨str "vt", 80, 24⟩ []))] =
      some s ∧
    step plainConfig s (.request (.windowChange (winchRequest ⟨100, 30⟩ []))) = some s' ∧
    step plainConfig s' (.request (.shell [])) = none := by
  obtain ⟨s', hstep, -, -, hstuck⟩ := early_resize_wedges plainConfig
    [.request (.ptyReq (ptyRequest ⟨str "vt", 80, 24⟩ []))] _ rfl rfl rfl rfl
    (winchRequest ⟨100, 30⟩ []) ⟨100, 30⟩ rfl
  exact ⟨_, s', rfl, hstep, hstuck _⟩

end Windows

end GoJump.Ssh
