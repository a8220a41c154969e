import GoJump.Handler.Dispatch

/-!
# The idle checker

Model of `checkMaxIdleTime` (`pkg/handler/interactive.go` lines 36–62) beside the loop
that it watches, `Dispatch` (`pkg/handler/dispatch.go` lines 11–96) or `AdminSystem`
(`pkg/handler/admin.go` lines 16–66). The loop tells the checker over the unbuffered
`checkChan` whether it waits for a line; a send and its receive are one step of both.
The context of the connection may be cancelled at any moment, and the checker returns
when its `select` takes that case. What the two loops do with a line is their `body`;
a command is over when the session it has proxied, if any, is.

* `idle_checker_gone`: the context is cancelled during a proxied session, and the loop
  waits forever to tell the checker that it is back.
* `idle_no_deadlock`: in every run in which the checker notices the cancellation only
  while the loop is in `ReadLine` or will not send again, and `ReadLine` returns no line
  after that, no send waits for a checker that has returned.
* `blocks_of_not_heeds`: after any other step the loop waits so, or does when its
  command is over and it goes on.
-/

namespace GoJump.Handler

open GoJump.Go GoJump.Lib GoJump.Model

/-! ## What the loops do with a line -/

/-- `Dispatch`: the state for the next round, or nothing when it returns. -/
def dispatchBody (st : Interactive) (env : DispatchEnv) (line : GoString) : Option Interactive :=
  let st' := (dispatch env st line).1
  if st'.running then some st' else none

/-- What a line asks `AdminSystem` for. -/
inductive AdminCommand
  /-- an empty line, or one that is no command -/
  | nothing
  | help
  | quit
  | listTable (table : GoString)
  | updateTicketState (id : GoString) (approved : Bool)
  | genOTPassword (name : GoString)
  /-- `words[1]` of a single word -/
  | outOfRange
  deriving DecidableEq

/-- A command with `words[1]`. -/
def withWord (words : List GoString) (command : GoString → AdminCommand) : AdminCommand :=
  match words with
  | _ :: word :: _ => command word
  | _ => .outOfRange

/-- The dispatch of `AdminSystem` on a line (lines 29–64); 104 and 113 are the letters
    `h` and `q`, 32 is the space. -/
def parseAdmin (line : GoString) : AdminCommand :=
  match trimSpace line with
  | [] => .nothing
  | 104 :: _ => .help
  | 113 :: _ => .quit
  | line =>
    let words := split line 32
    let word := words.head?.getD []
    if word = str "list" then withWord words .listTable
    else if word = str "ticket" then .listTable (str "PENDINGTICKET")
    else if word = str "approve" then withWord words (.updateTicketState · true)
    else if word = str "reject" then withWord words (.updateTicketState · false)
    else if word = str "otp" then withWord words .genOTPassword
    else if word = str "help" then .help
    else if word = str "exit" ∨ word = str "quit" then .quit
    else .nothing

/-- `AdminSystem` keeps no state of its own. An index out of range ends the program. -/
def adminBody (_ _ : Unit) (line : GoString) : Option Unit :=
  match parseAdmin line with
  | .quit | .outOfRange => none
  | _ => some ()

/-! ## Loop and checker -/

/-- Where a loop with state `β` stands. -/
inductive LoopPos (β : Type*)
  /-- `checkChan <- false` of `Dispatch` with just one asset -/
  | sendOnly
  /-- `SearchOrProxy("")` on that asset -/
  | lastProxy
  /-- `checkChan <- true` -/
  | sendTrue (st : β)
  /-- `term.ReadLine()` -/
  | readLine (st : β)
  /-- `checkChan <- false` after a line was read -/
  | sendFalse (st : β) (line : GoString)
  /-- the command of the line runs -/
  | handling (st : β) (line : GoString)
  | returned

variable {β ε : Type*}

/-- The value a loop waits to send, and where it stands after that. -/
def LoopPos.sends : LoopPos β → Option (Bool × LoopPos β)
  | sendOnly => some (false, lastProxy)
  | sendTrue st => some (true, readLine st)
  | sendFalse st line => some (false, handling st line)
  | lastProxy | readLine _ | handling _ _ | returned => none

structure IdleState (β : Type*) where
  /-- `sess.Context().Done()` is closed -/
  cancelled : Bool
  /-- the checker has closed the session -/
  closed : Bool
  /-- `checkStatus`, until the checker has returned -/
  checker : Option Bool
  loop : LoopPos β

inductive IdleAct (ε : Type*)
  | cancel
  /-- the checker receives from `tick.C` -/
  | tick
  /-- the checker receives from `sess.Context().Done()` -/
  | done
  /-- the checker receives what the loop sends -/
  | check
  /-- `ReadLine` returns a line -/
  | line (line : GoString)
  /-- `ReadLine` returns an error -/
  | readError
  /-- the command is over; `env` is what it has found -/
  | handled (env : ε)

/-- One step of the loop, the checker or the connection. -/
def idleStep (body : β → ε → GoString → Option β) (s : IdleState β) :
    IdleAct ε → Option (IdleState β)
  | .cancel => some { s with cancelled := true }
  | .tick => s.checker.map fun checkStatus => { s with closed := s.closed || checkStatus }
  | .done => if s.cancelled ∧ s.checker.isSome then some { s with checker := none } else none
  | .check =>
    match s.checker, s.loop.sends with
    | some _, some (checkStatus, pos) => some { s with checker := some checkStatus, loop := pos }
    | _, _ => none
  | .line line =>
    match s.loop with
    | .readLine st => some { s with loop := .sendFalse st line }
    | _ => none
  | .readError =>
    match s.loop with
    | .readLine _ => some { s with loop := .returned }
    | _ => none
  | .handled env =>
    match s.loop with
    | .lastProxy => some { s with loop := .returned }
    | .handling st line =>
      match body st env line with
      | some st' => some { s with loop := .sendTrue st' }
      | none => some { s with loop := .returned }
    | _ => none

/-- `Dispatch` and its checker at the start. -/
def startIdleDispatch (env : DispatchEnv) (user : User) (conf : TerminalConfig) :
    IdleState Interactive :=
  let st := startDispatch env user conf
  ⟨false, false, some true, if st.running then .sendTrue st else .sendOnly⟩

/-- `AdminSystem` and its checker at the start. -/
def startIdleAdmin : IdleState Unit := ⟨false, false, some true, .sendTrue ()⟩

/-- The loop waits to send to a checker that has returned. -/
def Blocked (s : IdleState β) : Prop := s.checker = none ∧ s.loop.sends.isSome

/-- The context is cancelled while the session that the line has opened is proxied, and
    the checker returns. -/
def cancelledRun (line : GoString) (env : ε) : List (IdleAct ε) :=
  [.check, .line line, .check, .cancel, .done, .handled env]

theorem idle_checker_gone :
    ∃ s, run (idleStep dispatchBody) (startIdleDispatch twoHosts nodeUser pageOf20)
        (cancelledRun (str "b1") twoHosts) = some s ∧ Blocked s :=
  ⟨_, rfl, rfl, rfl⟩

/-! ## Runs that do not block -/

/-- The loop is in `ReadLine` or will not send again. -/
def LoopPos.quiet : LoopPos β → Bool
  | readLine _ | lastProxy | returned => true
  | _ => false

/-- The condition on a step: the checker notices the cancellation only while the loop
    is quiet, and `ReadLine` returns a line only while there is a checker. -/
def Heeds (s : IdleState β) : IdleAct ε → Prop
  | .done => s.loop.quiet = true
  | .line _ => s.checker.isSome
  | _ => True

instance (s : IdleState β) (a : IdleAct ε) : Decidable (Heeds s a) := by
  unfold Heeds
  split <;> infer_instance

/-- Once the checker has returned, the loop is quiet. -/
def IdleInv (s : IdleState β) : Prop := s.checker = none → s.loop.quiet = true

theorem IdleInv.not_blocked {s : IdleState β} (h : IdleInv s) : ¬ Blocked s := by
  rintro ⟨hnone, hsends⟩
  have hquiet := h hnone
  cases hl : s.loop with
  | readLine st | lastProxy | returned =>
    rw [hl] at hsends
    cases hsends
  | sendOnly | sendTrue st | sendFalse st line | handling st line =>
    rw [hl] at hquiet
    cases hquiet

theorem step_idleInv {body : β → ε → GoString → Option β} {s s' : IdleState β} {a : IdleAct ε}
    (hinv : IdleInv s) (hG : Heeds s a) (h : idleStep body s a = some s') : IdleInv s' := by
  cases a with
  | cancel =>
    cases h
    exact hinv
  | tick =>
    obtain ⟨checkStatus, hsome, rfl⟩ := Option.map_eq_some_iff.mp h
    exact hinv
  | done =>
    simp only [idleStep] at h
    split_ifs at h
    cases h
    exact fun _ => hG
  | check =>
    simp only [idleStep] at h
    split at h
    · cases h
      intro hnone
      cases hnone
    · cases h
  | line line =>
    simp only [idleStep] at h
    split at h
    · cases h
      intro hnone
      rw [Heeds, show s.checker = none from hnone] at hG
      cases hG
    · cases h
  | readError =>
    simp only [idleStep] at h
    split at h
    · cases h
      exact fun _ => rfl
    · cases h
  | handled env =>
    simp only [idleStep] at h
    split at h
    · cases h
      exact fun _ => rfl
    · rename_i st line hl
      intro hnone
      split at h
      · cases h
        -- a loop that has a command to finish was not quiet
        have hquiet := hinv hnone
        rw [hl] at hquiet
        cases hquiet
      · cases h
        rfl
    · cases h

theorem run_not_blocked {body : β → ε → GoString → Option β} {s₀ s : IdleState β}
    {as : List (IdleAct ε)} (hstart : s₀.checker.isSome) (hG : Meets (idleStep body) Heeds s₀ as)
    (hrun : run (idleStep body) s₀ as = some s) : ¬ Blocked s := by
  have h₀ : IdleInv s₀ := by
    intro hnone
    rw [hnone] at hstart
    cases hstart
  have hinv : IdleInv s := run_inv (fun _ _ _ hinv hG h => step_idleInv hinv hG h) as _ s h₀ hG hrun
  exact hinv.not_blocked

/-- A step that does not meet the condition leaves the loop waiting for a checker that
    has returned, or in a command after which it will, if it goes on. -/
theorem blocks_of_not_heeds {body : β → ε → GoString → Option β} {s s' : IdleState β}
    {a : IdleAct ε} (hG : ¬ Heeds s a) (h : idleStep body s a = some s') :
    Blocked s' ∨ ∃ st line, s'.loop = .handling st line ∧ ∀ env st', body st env line = some st' →
      ∃ s'', idleStep body s' (.handled env) = some s'' ∧ Blocked s'' := by
  cases a with
  | done =>
    simp only [idleStep] at h
    split_ifs at h
    cases h
    cases hl : s.loop with
    | readLine st | lastProxy | returned =>
      refine absurd ?_ hG
      show s.loop.quiet = true
      rw [hl]
      rfl
    | sendOnly | sendTrue st | sendFalse st line => exact Or.inl ⟨rfl, rfl⟩
    | handling st line =>
      refine Or.inr ⟨st, line, rfl, ?_⟩
      intro env st' hbody
      refine ⟨{ s with checker := none, loop := .sendTrue st' }, ?_, rfl, rfl⟩
      simp only [idleStep, hbody]
  | line line =>
    simp only [idleStep] at h
    split at h
    · cases h
      rw [Heeds, Bool.not_eq_true, Option.isSome_eq_false_iff, Option.isNone_iff_eq_none] at hG
      exact Or.inl ⟨hG, rfl⟩
    · cases h
  | cancel | tick | check | readError | handled env => exact absurd trivial hG

/-- Whatever the user types, whatever the sessions do and whenever the context is
    cancelled: in every run that meets the condition neither `Dispatch` nor
    `AdminSystem` waits to send to a checker that has returned. -/
theorem idle_no_deadlock (env : DispatchEnv) (user : User) (conf : TerminalConfig) :
    (∀ (as : List (IdleAct DispatchEnv)) (s : IdleState Interactive),
      Meets (idleStep dispatchBody) Heeds (startIdleDispatch env user conf) as →
      run (idleStep dispatchBody) (startIdleDispatch env user conf) as = some s → ¬ Blocked s) ∧
    ∀ (as : List (IdleAct Unit)) (s : IdleState Unit),
      Meets (idleStep adminBody) Heeds startIdleAdmin as →
      run (idleStep adminBody) startIdleAdmin as = some s → ¬ Blocked s :=
  ⟨fun _ _ hG hrun => run_not_blocked rfl hG hrun, fun _ _ hG hrun => run_not_blocked rfl hG hrun⟩

/-- The context is cancelled while the loop waits for a line, which then fails. -/
def readingRun : List (IdleAct Unit) := [.check, .cancel, .done, .readError]

theorem idle_no_deadlock_reading :
    ∃ s, run (idleStep adminBody) startIdleAdmin readingRun = some s ∧
      s.loop = .returned ∧ ¬ Blocked s :=
  ⟨_, rfl, rfl, (idle_no_deadlock twoHosts nodeUser pageOf20).2 readingRun _ (by decide) rfl⟩

end GoJump.Handler
