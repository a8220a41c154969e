import GoJump.Proxy.Bridge

/-!
# The user's input

What the user types goes from `readLoop` through the pipe of the `WrapperSession` to the user
reader of `Bridge`, from there through `userChan` to the loop, and from the loop to the server.
The model is that of `Proxy.Bridge`, with all interleavings of the goroutines.

* `input_reaches_server`: the server is written a prefix of what was typed. While the loop
  runs, the rest is on its way in order, and the goroutines can deliver all of it.
-/

namespace GoJump.Handler

/-- What `readLoop` has read and nobody has got from it yet. -/
def ReadLoop.unread : ReadLoop → Go.GoString
  | lockWrite chunk _ => chunk
  | pipeWrite rest _ => rest
  | sessRead | lockClose | closeClosed | finished => []

/-- The pipe is closed because the input is over. -/
def ReadLoop.over : ReadLoop → Bool
  | closeClosed | finished => true
  | sessRead | lockWrite _ _ | pipeWrite _ _ | lockClose => false

/-- 1 if the write of `readLoop` has not begun. -/
def ReadLoop.distance : ReadLoop → ℕ
  | lockWrite _ _ => 1
  | sessRead | pipeWrite _ _ | lockClose | closeClosed | finished => 0

theorem ReadLoop.unread_next (err : Bool) : (next err).unread = [] := by
  cases err <;> rfl

end GoJump.Handler

namespace GoJump.Proxy.Bridge

open GoJump.Go GoJump.Lib GoJump.Handler GoJump.Model

/-- What `w.Sess.Read` delivers in a run. -/
def typed (as : List Act) : GoString :=
  as.flatMap fun
    | .loop (.sessRead chunk _) => chunk
    | _ => []

theorem typed_append (as bs : List Act) : typed (as ++ bs) = typed as ++ typed bs :=
  List.flatMap_append

/-- What the user reader has read and not sent yet. -/
def UserReader.unsent : UserReader → GoString
  | send chunk _ => chunk
  | read | rlock | pipeRead | exit | finished => []

theorem UserReader.unsent_next (err : Bool) : (next err).unsent = [] := by
  cases err <;> rfl

theorem UserReader.unsent_got (chunk : GoString) : (got chunk false).unsent = chunk := by
  unfold got
  split_ifs with h
  · rfl
  · exact (List.length_eq_zero_iff.mp (Nat.eq_zero_of_not_pos h)).symm

/-- The input at the server and on its way there, the oldest first. -/
def State.input (s : State) : GoString :=
  s.forwarded.flatten ++ (s.userChan.buf.flatten ++ (s.user.unsent ++ s.wrapper.loop.unread))

/-! ## What is on its way -/

variable {c : SwitchSession} {s s' : State}

/-- While the loop runs, the way of the input is open up to the end of the input. -/
structure Piped (s : State) : Prop where
  shut : s.wrapper.shut = true → s.wrapper.loop.over = true
  unlocked : s.wrapper.locking = false
  chanOpen : s.userChan.closed = false
  reader : s.user.inLoop = false → s.wrapper.loop.over = true

theorem Piped.not_shut (h : Piped s) (hl : s.wrapper.loop.over = false) :
    s.wrapper.shut = false := by
  rw [Bool.eq_false_iff]
  intro hshut
  rw [h.shut hshut] at hl
  cases hl

theorem Piped.inLoop (h : Piped s) (hl : s.wrapper.loop.over = false) : s.user.inLoop = true := by
  rw [← Bool.not_eq_false]
  intro hin
  rw [h.reader hin] at hl
  cases hl

/-- A step of `readLoop` that leaves the pipe as it is. -/
theorem Piped.withLoop (h : Piped s) (hl : s.wrapper.loop.over = false) (loop : ReadLoop) :
    Piped { s with wrapper := { s.wrapper with loop := loop } } where
  shut hshut := by cases (h.not_shut hl).symm.trans hshut
  unlocked := h.unlocked
  chanOpen := h.chanOpen
  reader hin := by cases (h.inLoop hl).symm.trans hin

theorem Piped.loopStep (h : Piped s) {a : LoopAct} {w : WrapperSession}
    (hstep : LoopStep s.wrapper a w) :
    Piped { s with wrapper := w } ∧ w.loop.unread = s.wrapper.loop.unread ++ typed [.loop a] := by
  cases hstep with
  | sessRead chunk err hl =>
    refine ⟨h.withLoop (by rw [hl]; rfl) _, ?_⟩
    rw [hl]
    show (if 0 < chunk.length then _ else ReadLoop.next err).unread =
        typed [.loop (.sessRead chunk err)]
    rw [typed, List.flatMap_singleton]
    split_ifs with hlen
    · rfl
    · rw [ReadLoop.unread_next]
      exact (List.length_eq_zero_iff.mp (Nat.eq_zero_of_not_pos hlen)).symm
  | lockWrite chunk err hl hk =>
    refine ⟨h.withLoop (by rw [hl]; rfl) _, ?_⟩
    rw [hl]
    exact (List.append_nil chunk).symm
  | writeFails rest err hl hshut =>
    have hover := h.shut hshut
    rw [hl] at hover
    cases hover
  | closePipe hl hk =>
    refine ⟨⟨fun _ => rfl, h.unlocked, h.chanOpen, fun _ => rfl⟩, ?_⟩
    rw [hl]
    rfl
  | closeClosed hl =>
    refine ⟨⟨fun _ => rfl, h.unlocked, h.chanOpen, fun _ => rfl⟩, ?_⟩
    rw [hl]
    rfl

/-- A read from the pipe moves the front of what `readLoop` is writing to the reader. -/
theorem Piped.pipeRead (h : Piped s) {chunk : GoString} {w : WrapperSession}
    (hread : s.wrapper.pipeRead 1024 = some (chunk, w)) :
    Piped { s with wrapper := w, user := .got chunk false, userRead := s.userRead ++ [chunk] } ∧
      chunk ++ w.loop.unread = s.wrapper.loop.unread := by
  obtain ⟨rest, err, hl, hshut, rfl, rfl⟩ := WrapperSession.pipeRead_eq_some hread
  refine ⟨⟨fun hs => ?_, h.unlocked, h.chanOpen, fun hin => ?_⟩, ?_⟩
  · cases hshut.symm.trans hs
  · cases (UserReader.inLoop_got (rest.take 1024)).symm.trans hin
  · rw [hl]
    show rest.take 1024 ++
        (if rest.length ≤ 1024 then ReadLoop.next err else .pipeWrite (rest.drop 1024) err).unread =
      rest
    split_ifs with hlen
    · rw [ReadLoop.unread_next, List.append_nil, List.take_of_length_le hlen]
    · exact List.take_append_drop 1024 rest

/-- While the loop runs, a step adds to the input what is typed in it, and loses nothing. -/
theorem step_input {a : Act} (h : Piped s) (hstep : Step c s a s') (hm : s'.main = .select) :
    Piped s' ∧ s'.input = s.input ++ typed [a] := by
  cases hstep with
  | srvRead | srvSend | srvDone | srvExit | srvClose | stay | recvSrv =>
    exact ⟨{ h with }, (List.append_nil _).symm⟩
  | userCheck hu =>
    refine ⟨{ h with reader := fun hin => ?_ }, ?_⟩
    · dsimp only at hin
      split_ifs at hin with hclosed
      · have hfin : s.wrapper.loop = .finished := of_decide_eq_true hclosed
        show s.wrapper.loop.over = true
        rw [hfin]
        rfl
      · cases hin
    · rw [State.input, State.input, hu]
      dsimp only
      split_ifs <;> exact (List.append_nil _).symm
  | userLock hu hk =>
    refine ⟨{ h with reader := nofun }, ?_⟩
    rw [State.input, State.input, hu]
    exact (List.append_nil _).symm
  | userRead chunk w hu hread =>
    obtain ⟨hpiped, hunread⟩ := h.pipeRead hread
    refine ⟨hpiped, ?_⟩
    rw [State.input, State.input, hu, ← hunread]
    dsimp only
    rw [UserReader.unsent_got]
    exact (List.append_nil _).symm
  | userFails hu hshut =>
    refine ⟨{ h with reader := fun _ => h.shut hshut }, ?_⟩
    rw [State.input, State.input, hu]
    exact (List.append_nil _).symm
  | userSend chunk err ch hu hsend =>
    obtain ⟨-, -, hbuf, hclosed⟩ := Chan.send_eq_some hsend
    refine ⟨{ h with chanOpen := hclosed.trans h.chanOpen, reader := fun hin => h.reader ?_ }, ?_⟩
    · rw [hu]
      cases err with
      | true => rfl
      | false => cases hin
    · rw [State.input, State.input, hu]
      dsimp only
      rw [hbuf, UserReader.unsent_next, List.flatten_append, List.flatten_singleton,
        List.append_assoc]
      exact (List.append_nil _).symm
  | userExit ch hu hsend =>
    refine ⟨{ h with reader := fun _ => h.reader (by rw [hu]; rfl) }, ?_⟩
    rw [State.input, State.input, hu]
    exact (List.append_nil _).symm
  | loop a w hloop =>
    obtain ⟨hpiped, hunread⟩ := h.loopStep hloop
    refine ⟨hpiped, ?_⟩
    rw [State.input, State.input]
    dsimp only
    rw [hunread, List.append_assoc, List.append_assoc, List.append_assoc]
  | recvUser now p ch hmain hrecv =>
    obtain ⟨hbuf, hclosed⟩ := Chan.recv_eq_value hrecv
    refine ⟨{ h with chanOpen := hclosed.trans h.chanOpen }, ?_⟩
    rw [State.input, State.input, hbuf]
    show (s.forwarded ++ [p]).flatten ++ _ = _ ++ []
    rw [List.append_nil, List.flatten_append, List.flatten_singleton, List.flatten_cons,
      List.append_assoc, List.append_assoc p]
  | leave | recvExit | closeDone | closeEnds | lock | initReadPip | closeSrv => cases hm
  | closeUser hd =>
    dsimp only at hm
    split_ifs at hm
  | menu size chunk w hd hread => cases hd.symm.trans hm

/-- Outside of the loop nothing is written to the server. -/
theorem step_forwarded {a : Act} (hstep : Step c s a s') (hm : s'.main ≠ .select) :
    s'.forwarded = s.forwarded := by
  cases hstep with
  | recvUser now p ch hmain hrecv => exact absurd hmain hm
  | _ => rfl

/-- A step that ends in the loop has begun there. -/
theorem Step.main_select {a : Act} (hstep : Step c s a s') (hm : s'.main = .select) :
    s.main = .select := by
  cases a with
  | select case => exact hstep.select_main
  | deferred => exact absurd hm hstep.deferred_main.2
  | srv a => cases hstep <;> exact hm
  | user a => cases hstep <;> exact hm
  | loop a | menu size =>
    cases hstep
    exact hm

/-- Of all that was `typed` until now, a front is at the server, and while the loop runs the
    rest is on its way. -/
structure Forwards (typed : GoString) (s : State) : Prop where
  inOrder : s.forwarded.flatten <+: typed
  kept : s.main = .select → Piped s ∧ s.input = typed

theorem Forwards.step {before : GoString} {a : Act} (h : Forwards before s)
    (hstep : Step c s a s') :
    Forwards (before ++ typed [a]) s' := by
  by_cases hm : s'.main = .select
  · obtain ⟨hpiped, hinput⟩ := h.kept (hstep.main_select hm)
    obtain ⟨hpiped', hinput'⟩ := step_input hpiped hstep hm
    rw [hinput] at hinput'
    refine ⟨?_, fun _ => ⟨hpiped', hinput'⟩⟩
    rw [← hinput']
    exact List.prefix_append _ _
  · refine ⟨?_, fun hm' => absurd hm' hm⟩
    rw [step_forwarded hstep hm]
    exact h.inOrder.trans (List.prefix_append _ _)

/-! ## Delivery -/

/-- How far the user reader is from its next read of the pipe. -/
def UserReader.distance : UserReader → ℕ
  | send _ _ => 4
  | read => 2
  | rlock => 1
  | pipeRead | exit | finished => 0

theorem UserReader.distance_next_le (err : Bool) : (next err).distance ≤ 2 := by
  cases err <;> decide

theorem UserReader.distance_got_le (chunk : GoString) : (got chunk false).distance ≤ 4 := by
  unfold got
  split_ifs
  · exact le_rfl
  · exact (distance_next_le false).trans (by decide)

/-- An upper bound of the steps that bring all input to the server: a byte in the pipe costs a
    read, a send and the way back to the pipe. -/
def State.distance (s : State) : ℕ :=
  s.userChan.buf.length + s.user.distance + 5 * s.wrapper.loop.unread.length +
    s.wrapper.loop.distance

/-- Some goroutine can bring the input further while the loop runs. -/
def Moves (c : SwitchSession) (s : State) : Prop :=
  ∃ a s', step c s a = some s' ∧ s'.main = .select ∧ typed [a] = [] ∧ s'.distance < s.distance

theorem moves_of_userChan (c : SwitchSession) (hm : s.main = .select) {p : GoString}
    {buf : List GoString} (hbuf : s.userChan.buf = p :: buf) : Moves c s := by
  obtain ⟨ch, hrecv, hch⟩ := Chan.recv_of_cons hbuf
  refine ⟨.select (.userChan 0), { s with
    userChan := ch, forwarded := s.forwarded ++ [p], lastActiveTime := 0 }, (if_pos hm).trans ?_,
      hm, rfl, ?_⟩
  · rw [selectStep, hrecv]
    rfl
  · rw [State.distance, State.distance, hbuf, hch, List.length_cons]
    dsimp only
    omega

theorem moves_of_send (c : SwitchSession) (h : Piped s) (hm : s.main = .select)
    (hbuf : s.userChan.buf = [])
    {chunk : GoString} {err : Bool} (hu : s.user = .send chunk err) : Moves c s := by
  obtain ⟨ch, hsend, hch⟩ := Chan.send_of_room h.chanOpen (by rw [hbuf]; exact Nat.one_pos) chunk
  refine ⟨.user .send, { s with userChan := ch, user := .next err }, ?_, hm, rfl, ?_⟩
  · show userStep s .send = _
    simp only [userStep, hu, hsend]
    rfl
  · have hnext := UserReader.distance_next_le err
    have hlen : ch.buf.length = 1 := by
      rw [hch, hbuf]
      rfl
    rw [State.distance, State.distance, hbuf, hu]
    dsimp only
    rw [hlen, UserReader.distance, List.length_nil]
    omega

/-- `readLoop` writes to the pipe: the user reader comes there and reads. -/
theorem moves_of_pipeWrite (c : SwitchSession) (h : Piped s) (hm : s.main = .select)
    {rest : GoString} {err : Bool} (hl : s.wrapper.loop = .pipeWrite rest err) (hne : rest ≠ [])
    (hsent : ∀ chunk err, s.user ≠ .send chunk err) : Moves c s := by
  have hover : s.wrapper.loop.over = false := by
    rw [hl]
    rfl
  have hin := h.inLoop hover
  cases hu : s.user with
  | read =>
    have hclosed : s.wrapper.closed = false := by
      rw [WrapperSession.closed, hl]
      rfl
    refine ⟨.user .check, { s with user := .rlock }, ?_, hm, rfl, ?_⟩
    · show userStep s .check = _
      simp only [userStep, hu, hclosed]
      rfl
    · rw [State.distance, State.distance, hu]
      dsimp only [UserReader.distance]
      omega
  | rlock =>
    refine ⟨.user .rlock, { s with user := .pipeRead }, ?_, hm, rfl, ?_⟩
    · show userStep s .rlock = _
      simp only [userStep, hu, h.unlocked]
      rfl
    · rw [State.distance, State.distance, hu]
      dsimp only [UserReader.distance]
      omega
  | pipeRead =>
    have hread : s.wrapper.pipeRead 1024 = some (rest.take 1024, { s.wrapper with
        loop := if rest.length ≤ 1024 then .next err else .pipeWrite (rest.drop 1024) err }) := by
      rw [WrapperSession.pipeRead, hl]
      exact if_neg (by rw [h.not_shut hover]; exact Bool.false_ne_true)
    generalize hloop :
      (if rest.length ≤ 1024 then ReadLoop.next err else .pipeWrite (rest.drop 1024) err) = loop
      at hread
    have hbegun : loop.distance = 0 := by
      rw [← hloop]
      split_ifs
      · cases err <;> rfl
      · rfl
    refine ⟨.user .read, { s with
      wrapper := { s.wrapper with loop := loop }, user := .got (rest.take 1024) false
      userRead := s.userRead ++ [rest.take 1024] }, ?_, hm, rfl, ?_⟩
    · show userStep s .read = _
      simp only [userStep, hu, hread]
      rfl
    · have hunread : (rest.take 1024 ++ loop.unread).length = s.wrapper.loop.unread.length :=
        congrArg List.length (h.pipeRead hread).2
      have hgot := UserReader.distance_got_le (rest.take 1024)
      have hpos : 0 < (rest.take 1024).length := by
        rw [List.length_take]
        exact Nat.lt_min.mpr ⟨by decide, List.length_pos_of_ne_nil hne⟩
      rw [List.length_append] at hunread
      rw [State.distance, State.distance, hu]
      dsimp only
      rw [hbegun, show UserReader.pipeRead.distance = 0 from rfl]
      omega
  | send chunk err => exact absurd hu (hsent chunk err)
  | exit | finished =>
    rw [hu] at hin
    cases hin

/-- While the loop runs and input is on its way, some goroutine can bring it further. -/
theorem moves_of_input (c : SwitchSession) (h : Piped s) (hm : s.main = .select)
    (hne : s.forwarded.flatten ≠ s.input) : Moves c s := by
  rcases hbuf : s.userChan.buf with _ | ⟨p, buf⟩
  · by_cases hsent : ∃ chunk err, s.user = .send chunk err
    · obtain ⟨chunk, err, hu⟩ := hsent
      exact moves_of_send c h hm hbuf hu
    have hunsent : s.user.unsent = [] := by
      cases hu : s.user with
      | send chunk err => exact absurd ⟨chunk, err, hu⟩ hsent
      | read | rlock | pipeRead | exit | finished => rfl
    have hunread : s.wrapper.loop.unread ≠ [] := by
      intro hnil
      apply hne
      rw [State.input, hbuf, hunsent, hnil]
      exact (List.append_nil _).symm
    cases hl : s.wrapper.loop with
    | lockWrite chunk err =>
      refine ⟨.loop .lockWrite,
        { s with wrapper := { s.wrapper with loop := .pipeWrite chunk err } }, ?_, hm, rfl, ?_⟩
      · show (s.wrapper.loopStep .lockWrite).map _ = _
        simp only [WrapperSession.loopStep, hl, h.unlocked]
        rfl
      · rw [State.distance, State.distance, hl]
        exact Nat.lt_succ_self _
    | pipeWrite rest err =>
      rw [hl] at hunread
      exact moves_of_pipeWrite c h hm hl hunread fun chunk err hu => hsent ⟨chunk, err, hu⟩
    | sessRead | lockClose | closeClosed | finished =>
      rw [hl] at hunread
      exact absurd rfl hunread
  · exact moves_of_userChan c hm hbuf

/-- The goroutines can deliver all input that is on its way. -/
theorem exists_delivery (c : SwitchSession) (s : State) (h : Piped s) (hm : s.main = .select) :
    ∃ as s', run (step c) s as = some s' ∧ s'.main = .select ∧ typed as = [] ∧
      s'.forwarded.flatten = s.input := by
  by_cases hne : s.forwarded.flatten = s.input
  · exact ⟨[], s, rfl, hm, rfl, hne⟩
  · obtain ⟨a, s', hstep, hm', htyped, hlt⟩ := moves_of_input c h hm hne
    obtain ⟨hpiped, hinput⟩ := step_input h (step_eq_some hstep) hm'
    obtain ⟨as, s'', hrun, hm'', htyped', hall⟩ := exists_delivery c s' hpiped hm'
    refine ⟨a :: as, s'', run_cons_eq_some.mpr ⟨s', hstep, hrun⟩, hm'', ?_, ?_⟩
    · rw [← List.singleton_append, typed_append, htyped, htyped']
      rfl
    · rw [hall, hinput, htyped, List.append_nil]
termination_by s.distance

theorem forwards_start (now : ℤ) {w : WrapperSession} (hopen : w.shut = false)
    (hunlocked : w.locking = false) :
    Forwards w.loop.unread (start now w) := by
  refine ⟨List.nil_prefix, fun _ => ⟨⟨fun hshut => ?_, hunlocked, rfl, nofun⟩, rfl⟩⟩
  cases hopen.symm.trans hshut

theorem run_forwards (c : SwitchSession) (now : ℤ) {w : WrapperSession} (hopen : w.shut = false)
    (hunlocked : w.locking = false) : ∀ as s, run (step c) (start now w) as = some s →
      Forwards (w.loop.unread ++ typed as) s := by
  apply run_history
  · rw [show typed [] = [] from rfl, List.append_nil]
    exact forwards_start now hopen hunlocked
  · intro as s a s' _ hs hstep
    rw [typed_append, ← List.append_assoc]
    exact hs.step (step_eq_some hstep)

/-- Whatever the goroutines do in which order, the server is written a front of what the user
    has typed, each byte once and in order. As long as the loop runs, no byte is lost: what was
    not written is in `userChan`, with the user reader or in the pipe, and steps of the
    goroutines alone bring it to the server. -/
theorem input_reaches_server (c : SwitchSession) (now : ℤ) (w : WrapperSession)
    (hopen : w.shut = false) (hunlocked : w.locking = false) (as : List Act) (s : State)
    (h : run (step c) (start now w) as = some s) :
    s.forwarded.flatten <+: w.loop.unread ++ typed as ∧
    (s.main = .select →
      s.forwarded.flatten ++ (s.userChan.buf.flatten ++ (s.user.unsent ++ s.wrapper.loop.unread)) =
        w.loop.unread ++ typed as ∧
      ∃ as' s', run (step c) s as' = some s' ∧ s'.main = .select ∧ typed as' = [] ∧
        s'.forwarded.flatten = w.loop.unread ++ typed as) := by
  have hforwards := run_forwards c now hopen hunlocked as s h
  refine ⟨hforwards.inOrder, fun hm => ?_⟩
  obtain ⟨hpiped, hinput⟩ := hforwards.kept hm
  refine ⟨hinput, ?_⟩
  rw [← hinput]
  exact exists_delivery c s hpiped hm

/-- Two chunks are typed, and the first one is with the user reader. -/
def typeRun : List Act :=
  [.loop (.sessRead (str "ls") false), .loop .lockWrite, .user .check, .user .rlock, .user .read,
    .loop (.sessRead (str "\n") false)]

theorem input_reaches_server_typeRun : ∃ s s' as',
    run (step ⟨5, ⟨0⟩⟩) (start 0 ⟨false, false, .sessRead⟩) typeRun = some s ∧ s.forwarded = [] ∧
    run (step ⟨5, ⟨0⟩⟩) s as' = some s' ∧ s'.forwarded.flatten = str "ls\n" := by
  obtain ⟨-, hselect⟩ := input_reaches_server ⟨5, ⟨0⟩⟩ 0 ⟨false, false, .sessRead⟩ rfl rfl typeRun _
    rfl
  obtain ⟨-, as', s', hrun, -, -, hall⟩ := hselect rfl
  exact ⟨_, s', as', rfl, rfl, hrun, hall⟩

end GoJump.Proxy.Bridge
