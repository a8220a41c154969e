import GoJump.Proxy.Bridge

/-!
# What a bridge leaves behind

The readers of `Bridge` (`pkg/proxy/switchManager.go` lines 77–123) may outlive it. Both
send on `exitSignal`, which has one place, and the user reader sends on `userChan`
without looking at `done`; `WrapperSession.Close` (`pkg/handler/wrapperSession.go`
lines 67–77) ends a `Read` that is in the old pipe, but the next `Read` is in the new one.

* `reader_left_behind`: a user reader that had input in hand when `Bridge` closed the
  session goes on to take what is typed at the menu, and then waits forever for room in
  `userChan`; after a terminated session it waits forever for room in `exitSignal`.
* `nothing_left_behind`: in every run in which the loop is left through `exitSignal`, the
  user reader takes no input that `userChan` has no room for once the loop is left, and it
  is in the pipe or out of its loop when `Close` closes the pipe, no reader takes input of
  the menu and none waits forever.
* `reader_stays_of_no_signal`, `blocked_of_no_room`, `takes_input_of_not_ready`: each part of the
  condition is needed.
-/

namespace GoJump.Proxy.Bridge

open GoJump.Go GoJump.Lib GoJump.Handler

/-! ## Readers that wait -/

inductive Reader
  | srv
  | user

/-- The user reader has input in hand. -/
def UserReader.holds : UserReader → Bool
  | send _ _ => true
  | _ => false

/-- The server reader has output in hand. -/
def SrvReader.holds : SrvReader → Bool
  | send _ _ => true
  | _ => false

/-- The reader waits for room in a channel. With output in hand the server reader also
    goes on when `done` is closed. -/
def Waits (s : State) : Reader → Prop
  | .srv => s.srv.holds = true ∧ s.srvChan.Full ∧ s.done = false ∨ s.srv = .exit ∧ s.exitSignal.Full
  | .user => s.user.holds = true ∧ s.userChan.Full ∨ s.user = .exit ∧ s.exitSignal.Full

/-- Whatever happens, the reader waits: nobody will ever receive what it sends. -/
def Stuck (c : SwitchSession) (s : State) (r : Reader) : Prop :=
  ∀ as s', run (step c) s as = some s' → Waits s' r

variable {c : SwitchSession} {s s' : State}

/-- The loop is left, and the reader waits for room in a channel that only the loop
    receives from. -/
def Blocked (s : State) (r : Reader) : Prop :=
  s.main ≠ .select ∧
    match r with
    | .srv => s.srv = .exit ∧ s.exitSignal.Full
    | .user => s.user.holds = true ∧ s.userChan.Full ∨ s.user = .exit ∧ s.exitSignal.Full

theorem Blocked.waits {r : Reader} (h : Blocked s r) : Waits s r := by
  cases r with
  | srv => exact Or.inr h.2
  | user => exact h.2

/-- Once the loop is left, it is left. -/
theorem Step.main_of_left {a : Act} (hm : s.main ≠ .select) (hstep : Step c s a s') :
    s'.main ≠ .select := by
  cases a with
  | select case => exact absurd hstep.select_main hm
  | deferred => exact hstep.deferred_main.2
  | srv a | user a | loop a | menu size =>
    cases hstep <;> exact hm

theorem step_blocked {r : Reader} {a : Act} (h : Blocked s r) (hstep : Step c s a s') :
    Blocked s' r := by
  refine ⟨hstep.main_of_left h.1, ?_⟩
  obtain ⟨hm, hr⟩ := h
  cases r with
  | srv =>
    obtain ⟨hs, hfull⟩ := hr
    cases hstep with
    | srvRead _ _ h | srvSend _ _ _ h | srvDone _ _ h | srvClose h =>
      exact absurd (h.symm.trans hs) nofun
    | srvExit ch h hsend | userExit ch h hsend => exact absurd hfull (Chan.not_full_of_send hsend)
    | stay _ _ hm' | leave _ hm' | recvSrv _ _ _ hm' | recvUser _ _ _ hm' | recvExit _ _ hm' =>
      exact absurd hm' hm
    | _ => exact ⟨hs, hfull⟩
  | user =>
    rcases hr with ⟨hu, hfull⟩ | ⟨hu, hfull⟩
    · cases hstep with
      | userCheck h | userLock h | userRead _ _ h | userFails h | userExit _ h =>
        rw [h] at hu
        cases hu
      | userSend chunk err ch h hsend => exact absurd hfull (Chan.not_full_of_send hsend)
      | stay _ _ hm' | leave _ hm' | recvSrv _ _ _ hm' | recvUser _ _ _ hm' | recvExit _ _ hm' =>
        exact absurd hm' hm
      | _ => exact Or.inl ⟨hu, hfull⟩
    · cases hstep with
      | userCheck h | userLock h | userRead _ _ h | userFails h | userSend _ _ _ h =>
        exact absurd (h.symm.trans hu) nofun
      | srvExit ch h hsend | userExit ch h hsend => exact absurd hfull (Chan.not_full_of_send hsend)
      | stay _ _ hm' | leave _ hm' | recvSrv _ _ _ hm' | recvUser _ _ _ hm' | recvExit _ _ hm' =>
        exact absurd hm' hm
      | _ => exact Or.inr ⟨hu, hfull⟩

theorem Blocked.stuck {r : Reader} (h : Blocked s r) : Stuck c s r := by
  intro as s' hrun
  have h' : Blocked s' r :=
    run_inv' (fun _ _ _ h hstep => step_blocked h (step_eq_some hstep)) h hrun
  exact h'.waits

/-- The user types `ls` just before the server ends, and the reader has it in hand when
    `Bridge` returns. -/
def handRun : List Act :=
  [.loop (.sessRead (str "ls") false), .loop .lockWrite, .user .check, .user .rlock, .user .read,
    .srv (.read [] true), .srv .exit, .select .exitSignal] ++ closing

/-- The reader hands it over to nobody, and the user types `q` at the menu. -/
def menuRun : List Act :=
  [.user .send, .user .check, .user .rlock, .loop (.sessRead (str "q") false), .loop .lockWrite,
    .user .read]

/-- An administrator terminates the session while the user reader is in the pipe. -/
def terminatedRun : List Act :=
  [.user .check, .user .rlock, .select .terminate, .deferred, .deferred, .deferred, .user .fails,
    .deferred, .deferred, .deferred, .srv (.read [] true), .srv .exit]

theorem reader_left_behind :
    (∃ s s', run (step halfHour) (start 0 waiting) handRun = some s ∧ s.main = .returned ∧
      s.userRead = [str "ls"] ∧ run (step halfHour) s menuRun = some s' ∧
      s'.userRead = [str "ls", str "q"] ∧ Stuck halfHour s' .user) ∧
    ∃ s, run (step halfHour) (start 0 waiting) terminatedRun = some s ∧ s.main = .returned ∧
      Stuck halfHour s .user :=
  ⟨⟨_, _, rfl, rfl, rfl, rfl, rfl, Blocked.stuck ⟨nofun, Or.inl ⟨rfl, rfl⟩⟩⟩,
    _, rfl, rfl, Blocked.stuck ⟨nofun, Or.inr ⟨rfl, rfl⟩⟩⟩

/-! ## The signals -/

/-- The user reader has raised `exitSignal`. -/
def UserReader.signalled : UserReader → Bool
  | finished => true
  | _ => false

/-- How many readers have raised `exitSignal`. -/
def State.signals (s : State) : ℕ := s.srv.signalled.toNat + s.user.signalled.toNat

/-- Of the signals raised, `k` were received. -/
structure Received (k : ℕ) (s : State) : Prop where
  isOpen : s.exitSignal.closed = false
  count : s.signals = s.exitSignal.buf.length + k

theorem SrvReader.signalled_next (err : Bool) : (next err).signalled = false := by
  cases err <;> rfl

theorem SrvReader.signalled_got (chunk : GoString) (err : Bool) :
    (got chunk err).signalled = false := by
  unfold got
  split_ifs
  · rfl
  · exact signalled_next err

theorem UserReader.signalled_next (err : Bool) : (next err).signalled = false := by
  cases err <;> rfl

theorem UserReader.signalled_got (chunk : GoString) : (got chunk false).signalled = false := by
  unfold got
  split_ifs <;> rfl

/-- A step that raises no signal. -/
theorem Received.silent {k : ℕ} (h : Received k s) (hs : s'.srv.signalled = s.srv.signalled)
    (hu : s'.user.signalled = s.user.signalled) (he : s'.exitSignal = s.exitSignal) :
    Received k s' := by
  have hsame : s'.signals = s.signals := by rw [State.signals, State.signals, hs, hu]
  exact ⟨by rw [he]; exact h.isOpen, by rw [hsame, he]; exact h.count⟩

/-- A signal is raised. -/
theorem Received.raise {k : ℕ} {ch : Chan Unit 1} (h : Received k s)
    (hsend : s.exitSignal.send () = some ch) (he : s'.exitSignal = ch)
    (hsig : s'.signals = s.signals + 1) : Received k s' := by
  obtain ⟨_, _, hbuf, hcl⟩ := Chan.send_eq_some hsend
  have hcount := h.count
  refine ⟨by rw [he, hcl]; exact h.isOpen, ?_⟩
  rw [he, hbuf, hsig, List.length_append, List.length_singleton]
  omega

theorem step_received {k : ℕ} {a : Act} (h : Received k s) (hstep : Step c s a s')
    (ha : a ≠ .select .exitSignal) : Received k s' := by
  cases hstep with
  | srvRead chunk err hs =>
    exact h.silent (by rw [hs]; exact SrvReader.signalled_got chunk err) rfl rfl
  | srvSend chunk err ch hs hsend =>
    exact h.silent (by rw [hs]; exact SrvReader.signalled_next err) rfl rfl
  | srvDone chunk err hs hdone => exact h.silent (by rw [hs]; rfl) rfl rfl
  | srvClose hs => exact h.silent (by rw [hs]; rfl) rfl rfl
  | srvExit ch hs hsend =>
    refine h.raise hsend rfl ?_
    show 1 + s.user.signalled.toNat = s.srv.signalled.toNat + s.user.signalled.toNat + 1
    rw [hs]
    simp only [SrvReader.signalled, Bool.toNat_false]
    omega
  | userCheck hu =>
    refine h.silent rfl ?_ rfl
    rw [hu]
    dsimp only
    split_ifs <;> rfl
  | userLock hu hk => exact h.silent rfl (by rw [hu]; rfl) rfl
  | userRead chunk w hu hread =>
    exact h.silent rfl (by rw [hu]; exact UserReader.signalled_got chunk) rfl
  | userFails hu hs => exact h.silent rfl (by rw [hu]; rfl) rfl
  | userSend chunk err ch hu hsend =>
    exact h.silent rfl (by rw [hu]; exact UserReader.signalled_next err) rfl
  | userExit ch hu hsend =>
    refine h.raise hsend rfl ?_
    show s.srv.signalled.toNat + 1 = s.srv.signalled.toNat + s.user.signalled.toNat + 1
    rw [hu]
    rfl
  | recvExit => exact absurd rfl ha
  | _ => exact ⟨h.isOpen, h.count⟩

theorem Received.recvExit {k : ℕ} {o : Option Unit} {ch : Chan Unit 1} (h : Received k s)
    (hrecv : s.exitSignal.recv = some (o, ch)) :
    Received (k + 1) { s with exitSignal := ch, main := .closeDone } := by
  cases o with
  | none => cases Eq.trans (Eq.symm h.isOpen) (Chan.recv_eq_end hrecv).2.1
  | some u =>
    obtain ⟨hbuf, hcl⟩ := Chan.recv_eq_value hrecv
    have hcount := h.count
    rw [hbuf, List.length_cons] at hcount
    refine ⟨hcl.trans h.isOpen, ?_⟩
    show s.signals = ch.buf.length + (k + 1)
    omega

theorem received_start (now : ℤ) (w : WrapperSession) : Received 0 (start now w) := ⟨rfl, rfl⟩

/-- A run in which the loop never receives from `exitSignal` does not get both readers to
    their end. -/
theorem reader_stays_of_no_signal {now : ℤ} {w : WrapperSession} {as : List Act}
    (hG : Meets (step c) (fun _ a => a ≠ .select .exitSignal) (start now w) as)
    (hrun : run (step c) (start now w) as = some s) :
    ¬ (s.srv.signalled = true ∧ s.user = .finished) := by
  rintro ⟨hs, hu⟩
  have h : Received 0 s := run_inv (fun _ _ _ h ha hstep => step_received h (step_eq_some hstep) ha)
    as _ s (received_start now w) hG hrun
  have hle := s.exitSignal.length_le
  have hcount := h.count
  rw [State.signals, hs, hu] at hcount
  simp only [UserReader.signalled, Bool.toNat_true] at hcount
  omega

/-! ## Runs that leave nothing behind -/

/-- `Bridge` has left its loop and not yet closed the pipe. -/
def Main.leaving : Main → Bool
  | closeDone | closeUser | closeEnds => true
  | _ => false

/-- `Bridge` is past the closing of the pipe. -/
def Main.past : Main → Bool
  | lock | initReadPip | closeSrv | returned => true
  | _ => false

/-- The user reader is in the pipe, or out of its loop. -/
def UserReader.ready : UserReader → Bool
  | pipeRead | exit | finished => true
  | read | rlock | send _ _ => false

/-- The condition on a step: the loop is left through `exitSignal` and while the user
    reader has nothing in hand that `userChan` has no room for; until the pipe is closed
    the reader takes nothing that `userChan` has no room for; and when the pipe is closed
    the reader is ready for it, or the input is over. -/
def Clean (c : SwitchSession) (s : State) : Act → Prop
  | .select case =>
    ¬ Leaves c s case ∧ (case = .exitSignal → s.user.holds = true → s.userChan.buf = [])
  | .user a => a = .read → s.main.leaving = true → s.userChan.buf = []
  | .deferred => s.main = .closeEnds → s.user.ready = true ∨ s.wrapper.closeEnds.InputOver
  | .srv _ | .loop _ | .menu _ => True

instance (c : SwitchSession) (s : State) : ∀ a, Decidable (Clean c s a)
  | .select _ => inferInstanceAs (Decidable (_ ∧ _))
  | .user _ | .deferred => inferInstanceAs (Decidable (_ → _))
  | .srv _ | .loop _ | .menu _ => inferInstanceAs (Decidable True)

/-- The user reader takes no input any more. -/
def UserGone (s : State) : Prop :=
  s.wrapper.InputOver ∨ s.user = .pipeRead ∧ s.wrapper.shut = true ∨ s.user = .exit ∨
    s.user = .finished

theorem UserGone.pipeRead (h : UserGone s) (hu : s.user = .pipeRead) (size : ℕ) :
    s.wrapper.pipeRead size = none := by
  rcases h with h | ⟨_, hs⟩ | h | h
  · exact h.pipeRead size
  · cases hr : s.wrapper.pipeRead size with
    | none => rfl
    | some r =>
      obtain ⟨_, _, _, hopen, _⟩ := WrapperSession.pipeRead_eq_some hr
      rw [hopen] at hs
      cases hs
  · rw [hu] at h
    cases h
  · rw [hu] at h
    cases h

theorem step_userGone {a : Act} (h : UserGone s) (hm : s.main.past = true)
    (hstep : Step c s a s') : UserGone s' := by
  cases hstep with
  | userRead chunk w hu hread => cases (h.pipeRead hu 1024).symm.trans hread
  | userFails hu hs => exact Or.inr (Or.inr (Or.inl rfl))
  | userExit ch hu hsend => exact Or.inr (Or.inr (Or.inr rfl))
  | userCheck hu | userLock hu | userSend _ _ _ hu =>
    rcases h with h | ⟨h, _⟩ | h | h
    · exact Or.inl h
    all_goals
      rw [hu] at h
      cases h
  | loop a w hloop =>
    rcases h with h | ⟨h, hs⟩ | h
    · exact Or.inl (h.loopStep hloop)
    · exact Or.inr (Or.inl ⟨h, hloop.shut hs⟩)
    · exact Or.inr (Or.inr h)
  | initReadPip w _ hu hinit =>
    rcases h with h | ⟨h, _⟩ | h
    · exact Or.inl (h.initReadPip hinit)
    · exact absurd h hu
    · exact Or.inr (Or.inr h)
  | menu size chunk w _ hread =>
    rcases h with h | ⟨h, hs⟩ | h
    · cases (h.pipeRead size).symm.trans hread
    · cases (UserGone.pipeRead (Or.inr (Or.inl ⟨h, hs⟩)) h size).symm.trans hread
    · exact Or.inr (Or.inr h)
  | closeEnds hm' =>
    rw [hm'] at hm
    cases hm
  | _ => exact h

/-- What holds in every state of a clean run. -/
structure Tidy (s : State) : Prop where
  received : Received (if s.main = .select then 0 else 1) s
  done : s.done = false → s.main = .select ∨ s.main = .closeDone
  room : s.main ≠ .select → s.user.holds = true → s.userChan.buf = []
  gone : s.main.past = true → UserGone s

theorem tidy_start (now : ℤ) (w : WrapperSession) : Tidy (start now w) where
  received := received_start now w
  done _ := Or.inl rfl
  room h := absurd rfl h
  gone := nofun

theorem step_received_tidy {a : Act} (h : Tidy s) (hC : Clean c s a) (hstep : Step c s a s') :
    Received (if s'.main = .select then 0 else 1) s' := by
  have hr := h.received
  cases a with
  | select case =>
    rw [if_pos hstep.select_main] at hr
    cases hstep with
    | recvExit o ch hm hrecv => exact hr.recvExit hrecv
    | leave case hm hl => exact absurd hl hC.1
    | stay case t hm hc =>
      rw [if_pos hm]
      exact ⟨hr.isOpen, hr.count⟩
    | recvSrv now p ch hm _ | recvUser now p ch hm _ =>
      rw [if_pos hm]
      exact ⟨hr.isOpen, hr.count⟩
  | deferred =>
    obtain ⟨hm, hm'⟩ := hstep.deferred_main
    rw [if_neg hm] at hr
    rw [if_neg hm']
    exact step_received hr hstep nofun
  | srv a | user a | loop a | menu size =>
    have hsame : s'.main = s.main := by cases hstep <;> rfl
    rw [hsame]
    exact step_received hr hstep nofun

theorem step_done {a : Act} (h : Tidy s) (hstep : Step c s a s') :
    s'.done = false → s'.main = .select ∨ s'.main = .closeDone := by
  intro hd
  cases hstep with
  | leave | recvExit => exact Or.inr rfl
  | closeDone => cases hd
  | closeUser hm | closeEnds hm | lock hm | initReadPip _ hm | closeSrv hm =>
    have hearly := h.done hd
    rw [hm] at hearly
    rcases hearly with h | h <;> cases h
  | _ => exact h.done hd

theorem step_room {a : Act} (h : Tidy s) (hC : Clean c s a) (hstep : Step c s a s') :
    s'.main ≠ .select → s'.user.holds = true → s'.userChan.buf = [] := by
  intro hm' hh
  cases hstep with
  | userCheck hu =>
    dsimp only at hh
    split_ifs at hh <;> cases hh
  | userLock | userFails | userExit => cases hh
  | userRead chunk w hu hread =>
    cases hl : s.main.leaving with
    | true => exact hC rfl hl
    | false =>
      -- past the closing of the pipe the reader gets nothing
      have hpast : s.main.past = true := by
        cases hm : s.main with
        | select => exact absurd hm hm'
        | lock | initReadPip | closeSrv | returned => rfl
        | closeDone | closeUser | closeEnds =>
          rw [hm] at hl
          cases hl
      cases ((h.gone hpast).pipeRead hu 1024).symm.trans hread
  | userSend chunk err ch hu hsend =>
    cases err <;> cases hh
  | stay _ _ hm | recvSrv _ _ _ hm | recvUser _ _ _ hm => exact absurd hm hm'
  | leave case hm hl => exact absurd hl hC.1
  | recvExit o ch hm hrecv => exact hC.2 rfl hh
  | closeDone hm | closeUser hm | closeEnds hm | lock hm | initReadPip _ hm | closeSrv hm =>
    exact h.room (by rw [hm]; exact nofun) hh
  | _ => exact h.room hm' hh

theorem step_gone {a : Act} (h : Tidy s) (hC : Clean c s a) (hstep : Step c s a s') :
    s'.main.past = true → UserGone s' := by
  intro hp
  by_cases hpast : s.main.past = true
  · exact step_userGone (h.gone hpast) hpast hstep
  cases hstep with
  | closeUser hm =>
    -- the session is closed, so there is nothing to close and nothing to read
    dsimp only at hp
    split_ifs at hp with hcl
    · exact Or.inl (WrapperSession.inputOver_of_closed hcl)
    · cases hp
  | closeEnds hm =>
    rcases hC hm with hr | hover
    · cases hu : s.user with
      | pipeRead => exact Or.inr (Or.inl ⟨rfl, rfl⟩)
      | exit => exact Or.inr (Or.inr (Or.inl rfl))
      | finished => exact Or.inr (Or.inr (Or.inr rfl))
      | read | rlock | send _ _ =>
        rw [hu] at hr
        cases hr
    · exact Or.inl hover
  | leave | recvExit | closeDone => cases hp
  | lock hm | initReadPip _ hm | closeSrv hm | menu _ _ _ hm =>
    rw [hm] at hpast
    exact absurd rfl hpast
  | _ => exact absurd hp hpast

theorem step_tidy {a : Act} (h : Tidy s) (hC : Clean c s a) (hstep : Step c s a s') : Tidy s' :=
  ⟨step_received_tidy h hC hstep, step_done h hstep, step_room h hC hstep, step_gone h hC hstep⟩

theorem run_tidy {now : ℤ} {w : WrapperSession} {as : List Act}
    (hC : Meets (step c) (Clean c) (start now w) as)
    (hrun : run (step c) (start now w) as = some s) : Tidy s :=
  run_inv (fun _ _ _ h hC hstep => step_tidy h hC (step_eq_some hstep)) as _ s (tidy_start now w)
    hC hrun

/-! ### After the return -/

/-- Once `Bridge` has returned, the user reader takes nothing. -/
def Over (input : List GoString) (s : State) : Prop :=
  s.main = .returned ∧ UserGone s ∧ s.userRead = input

theorem step_over {input : List GoString} {a : Act} (h : Over input s) (hstep : Step c s a s') :
    Over input s' := by
  obtain ⟨hm, hgone, hin⟩ := h
  have hgone' : UserGone s' := step_userGone hgone (by rw [hm]; rfl) hstep
  cases hstep with
  | userRead chunk w hu hread => cases (hgone.pipeRead hu 1024).symm.trans hread
  | stay _ _ hm' | leave _ hm' | recvSrv _ _ _ hm' | recvUser _ _ _ hm' | recvExit _ _ hm'
  | closeDone hm' | closeUser hm' | closeEnds hm' | lock hm' | initReadPip _ hm' | closeSrv hm' =>
    rw [hm'] at hm
    cases hm
  | _ => exact ⟨hm, hgone', hin⟩

/-! ### Nobody waits forever -/

theorem not_stuck_of_step {r : Reader} {a : Act} (h : step c s a = some s') (hw : ¬ Waits s' r) :
    ¬ Stuck c s r := by
  intro hstuck
  refine hw (hstuck [a] s' ?_)
  rw [run_cons, h]
  rfl

theorem Tidy.exit_of_left (h : Tidy s) (hm : s.main ≠ .select)
    (hx : s.srv = .exit ∨ s.user = .exit) : ¬ s.exitSignal.Full := by
  have hr := h.received
  rw [if_neg hm] at hr
  have hcount := hr.count
  have hle : s.signals ≤ 1 := by
    have hs := Bool.toNat_le s.srv.signalled
    have hu := Bool.toNat_le s.user.signalled
    unfold State.signals
    rcases hx with hx | hx
    · rw [hx]
      simp only [SrvReader.signalled, Bool.toNat_false]
      omega
    · rw [hx]
      simp only [UserReader.signalled, Bool.toNat_false]
      omega
  intro hfull
  have hlen : s.exitSignal.buf.length = 1 := hfull
  omega

theorem recvSrv_of_full (c : SwitchSession) (hm : s.main = .select) (hfull : s.srvChan.Full) :
    ∃ s', step c s (.select (.srvChan 0)) = some s' ∧ ¬ s'.srvChan.Full ∧ s'.srv = s.srv := by
  obtain ⟨p, ch, hrecv, hroom⟩ := Chan.recv_of_full hfull
  have hstep : selectStep c s (.srvChan 0) = some { s with
      srvChan := ch, recorded := s.recorded ++ [p], written := s.written ++ [p]
      lastActiveTime := 0 } := by
    rw [selectStep, hrecv]
    rfl
  exact ⟨_, (if_pos hm).trans hstep, hroom, rfl⟩

theorem recvUser_of_full (c : SwitchSession) (hm : s.main = .select) (hfull : s.userChan.Full) :
    ∃ s', step c s (.select (.userChan 0)) = some s' ∧ ¬ s'.userChan.Full ∧ s'.user = s.user := by
  obtain ⟨p, ch, hrecv, hroom⟩ := Chan.recv_of_full hfull
  have hstep : selectStep c s (.userChan 0) = some { s with
      userChan := ch, forwarded := s.forwarded ++ [p], lastActiveTime := 0 } := by
    rw [selectStep, hrecv]
    rfl
  exact ⟨_, (if_pos hm).trans hstep, hroom, rfl⟩

theorem recvExit_of_full (c : SwitchSession) (hm : s.main = .select) (hfull : s.exitSignal.Full) :
    ∃ s', step c s (.select .exitSignal) = some s' ∧ ¬ s'.exitSignal.Full ∧ s'.srv = s.srv ∧
      s'.user = s.user := by
  obtain ⟨u, ch, hrecv, hroom⟩ := Chan.recv_of_full hfull
  have hstep : selectStep c s .exitSignal = some { s with
      exitSignal := ch, main := .closeDone } := by
    rw [selectStep, hrecv]
    rfl
  exact ⟨_, (if_pos hm).trans hstep, hroom, rfl, rfl⟩

/-- A reader whose channel has room does not wait. -/
theorem not_waits_srv (hh : s.srv.holds = true) (hroom : ¬ s.srvChan.Full) : ¬ Waits s .srv := by
  rintro (⟨_, hfull, _⟩ | ⟨hx, _⟩)
  · exact hroom hfull
  · rw [hx] at hh
    cases hh

theorem not_waits_user (hh : s.user.holds = true) (hroom : ¬ s.userChan.Full) :
    ¬ Waits s .user := by
  rintro (⟨_, hfull⟩ | ⟨hx, _⟩)
  · exact hroom hfull
  · rw [hx] at hh
    cases hh

theorem not_waits_exit {r : Reader} (hroom : ¬ s.exitSignal.Full)
    (hx : match r with
      | .srv => s.srv = .exit
      | .user => s.user = .exit) : ¬ Waits s r := by
  cases r with
  | srv =>
    rintro (⟨hh, _⟩ | ⟨_, hfull⟩)
    · rw [show s.srv = .exit from hx] at hh
      cases hh
    · exact hroom hfull
  | user =>
    rintro (⟨hh, _⟩ | ⟨_, hfull⟩)
    · rw [show s.user = .exit from hx] at hh
      cases hh
    · exact hroom hfull

/-- While the loop runs, it can receive what a reader waits to send. -/
theorem not_stuck_of_select (r : Reader) (hm : s.main = .select) : ¬ Stuck c s r := by
  intro hstuck
  have hw : Waits s r := hstuck [] s rfl
  cases r with
  | srv =>
    rcases hw with ⟨hh, hfull, _⟩ | ⟨hx, hfull⟩
    · obtain ⟨s', hstep, hroom, hsrv⟩ := recvSrv_of_full c hm hfull
      exact not_stuck_of_step hstep (not_waits_srv (by rw [hsrv]; exact hh) hroom) hstuck
    · obtain ⟨s', hstep, hroom, hsrv, _⟩ := recvExit_of_full c hm hfull
      exact not_stuck_of_step hstep (not_waits_exit hroom (hsrv.trans hx)) hstuck
  | user =>
    rcases hw with ⟨hh, hfull⟩ | ⟨hx, hfull⟩
    · obtain ⟨s', hstep, hroom, huser⟩ := recvUser_of_full c hm hfull
      exact not_stuck_of_step hstep (not_waits_user (by rw [huser]; exact hh) hroom) hstuck
    · obtain ⟨s', hstep, hroom, _, huser⟩ := recvExit_of_full c hm hfull
      exact not_stuck_of_step hstep (not_waits_exit hroom (huser.trans hx)) hstuck

theorem Tidy.not_stuck (h : Tidy s) (r : Reader) : ¬ Stuck c s r := by
  by_cases hm : s.main = .select
  · exact not_stuck_of_select r hm
  intro hstuck
  have hw : Waits s r := hstuck [] s rfl
  cases r with
  | srv =>
    rcases hw with ⟨hh, hfull, hd⟩ | ⟨hx, hfull⟩
    · -- `close(done)` is still to come
      have hclose : s.main = .closeDone := (h.done hd).resolve_left hm
      have hstep : step c s .deferred = some { s with done := true, main := .closeUser } := by
        rw [step, deferredStep, hclose]
      refine not_stuck_of_step hstep ?_ hstuck
      rintro (⟨_, _, hd'⟩ | ⟨hx, _⟩)
      · cases hd'
      · rw [show s.srv = .exit from hx] at hh
        cases hh
    · exact h.exit_of_left hm (Or.inl hx) hfull
  | user =>
    rcases hw with ⟨hh, hfull⟩ | ⟨hx, hfull⟩
    · have hlen : s.userChan.buf.length = 1 := hfull
      rw [h.room hm hh] at hlen
      cases hlen
    · exact h.exit_of_left hm (Or.inr hx) hfull

/-- Whatever the user types, the server sends or the administrators do, and however the
    goroutines and `Close` take turns: in every run that meets the condition the user
    reader takes no input once `Bridge` has returned, and no reader is ever left waiting
    for somebody to receive. -/
theorem nothing_left_behind (c : SwitchSession) (now : ℤ) (w : WrapperSession) (as : List Act)
    (s : State) (hC : Meets (step c) (Clean c) (start now w) as)
    (hrun : run (step c) (start now w) as = some s) :
    (s.main = .returned →
      ∀ as' s', run (step c) s as' = some s' → s'.userRead = s.userRead) ∧
    ∀ r, ¬ Stuck c s r := by
  have h : Tidy s := run_tidy hC hrun
  refine ⟨?_, fun r => h.not_stuck r⟩
  intro hret as' s' hrun'
  have hover : Over s.userRead s := ⟨hret, h.gone (by rw [hret]; rfl), rfl⟩
  have hover' : Over s.userRead s' :=
    run_inv' (fun _ _ _ h hstep => step_over h (step_eq_some hstep)) hover hrun'
  exact hover'.2.2

/-- The user reader waits in the pipe when the server ends the session. -/
def patientRun : List Act :=
  [.user .check, .user .rlock, .srv (.read (str "bye") true), .srv .send, .srv .exit,
    .select (.srvChan 1), .select .exitSignal, .deferred, .deferred, .deferred, .user .fails,
    .user .exit, .deferred, .deferred, .deferred]

theorem nothing_left_behind_patient :
    ∃ s, run (step halfHour) (start 0 waiting) patientRun = some s ∧ s.main = .returned ∧
      s.user = .finished ∧
      (∀ as' s', run (step halfHour) s as' = some s' → s'.userRead = s.userRead) ∧
      ∀ r, ¬ Stuck halfHour s r :=
  ⟨_, rfl, rfl, rfl,
    (nothing_left_behind halfHour 0 waiting patientRun _ (by decide) rfl).1 rfl,
    (nothing_left_behind halfHour 0 waiting patientRun _ (by decide) rfl).2⟩

/-! ## The condition is needed -/

/-- A user reader that has input in hand after a step without room for it waits forever. -/
theorem blocked_of_no_room {a : Act} (ha : a = .select .exitSignal ∨ a = .user .read)
    (hC : ¬ Clean c s a) (hstep : Step c s a s') (hh : s'.user.holds = true) :
    Blocked s' .user := by
  have hfull : ∀ ch : Chan GoString 1, ch.buf ≠ [] → ch.Full := by
    intro ch hne
    have hpos : 0 < ch.buf.length := List.length_pos_of_ne_nil hne
    have hle := ch.length_le
    show ch.buf.length = 1
    omega
  rcases ha with rfl | rfl
  · have hne : s.userChan.buf ≠ [] := fun hnil => hC ⟨fun hl => hl, fun _ _ => hnil⟩
    cases hstep with
    | stay _ _ _ hc => exact absurd rfl hc
    | leave _ _ hl => exact hl.elim
    | recvExit o ch hm hrecv => exact ⟨nofun, Or.inl ⟨hh, hfull _ hne⟩⟩
  · have hne : s.userChan.buf ≠ [] := fun hnil => hC fun _ _ => hnil
    cases hstep with
    | userRead chunk w hu hread =>
      refine ⟨?_, Or.inl ⟨hh, hfull _ hne⟩⟩
      intro hm
      refine hC fun _ hl => ?_
      rw [show s.main = .select from hm] at hl
      cases hl

/-- The rest of `Bridge` from the closing of the pipe on; a write into the old pipe fails. -/
def returning : ReadLoop → List Act
  | .pipeWrite _ _ => [.deferred, .deferred, .loop .writeFails, .deferred, .deferred]
  | _ => [.deferred, .deferred, .deferred, .deferred]

/-- The user reader goes into the pipe. -/
def intoPipe : UserReader → List Act
  | .send _ _ => [.user .send, .user .check, .user .rlock]
  | .read => [.user .check, .user .rlock]
  | _ => [.user .rlock]

/-- `readLoop` goes into the pipe with what it has, or with what is typed next. -/
def typing : ReadLoop → List Act
  | .lockWrite _ _ => [.loop .lockWrite]
  | _ => [.loop (.sessRead (str "q") false), .loop .lockWrite]

/-- A user reader that is not ready when `Bridge` closes the pipe of a session with input
    to come can take input after `Bridge` has returned. In its hand is what a read
    without an error gave it, and `userChan` has room for that. -/
theorem takes_input_of_not_ready (hm : s.main = .closeEnds) (hC : ¬ Clean c s .deferred)
    (hsend : ∀ chunk err, s.user = .send chunk err → err = false ∧ s.userChan = .make) :
    ∃ as s₁ s₂, run (step c) s as = some s₁ ∧ s₁.main = .returned ∧
      step c s₁ (.user .read) = some s₂ := by
  obtain ⟨hready, hin⟩ : ¬ s.user.ready = true ∧ ¬ s.wrapper.closeEnds.InputOver :=
    ⟨fun h => hC fun _ => Or.inl h, fun h => hC fun _ => Or.inr h⟩
  obtain ⟨main, srv, user, srvChan, userChan, exitSignal, done, last, ⟨shut, locking, loop⟩, sr, ur,
    rec, wr, fw⟩ := s
  cases hm
  have hloop : loop = .sessRead ∨ (∃ chunk err, loop = .lockWrite chunk err) ∨
      ∃ rest, loop = .pipeWrite rest false := by
    cases loop with
    | sessRead => exact Or.inl rfl
    | lockWrite chunk err => exact Or.inr (Or.inl ⟨chunk, err, rfl⟩)
    | pipeWrite rest err =>
      cases err with
      | true => exact absurd ⟨rfl, rfl⟩ hin
      | false => exact Or.inr (Or.inr ⟨rest, rfl⟩)
    | lockClose | closeClosed | finished => exact absurd trivial hin
  refine ⟨returning loop ++ intoPipe user ++ typing loop, ?_⟩
  cases user with
  | pipeRead | exit | finished => exact absurd rfl hready
  | read | rlock =>
    rcases hloop with rfl | ⟨chunk, err, rfl⟩ | ⟨rest, rfl⟩ <;> exact ⟨_, _, rfl, rfl, rfl⟩
  | send chunk err =>
    obtain ⟨rfl, hroom⟩ := hsend chunk err rfl
    cases hroom
    rcases hloop with rfl | ⟨chunk, err, rfl⟩ | ⟨rest, rfl⟩ <;> exact ⟨_, _, rfl, rfl, rfl⟩

end GoJump.Proxy.Bridge
