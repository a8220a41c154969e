import GoJump.Go.Strings
import GoJump.Lib.Pool

/-!
# One-time passwords

Model of `pkg/core/otp.go`: `GenOTPassword`, `clearOTPassword` and `verifyOTP`
over the map `otpassword`, which `otpLock` guards. Every critical section is one
atomic step, so a run of `Pool.step exec` is one interleaving of any number of
administrators generating passwords, logins verifying them and expiry timers.
A login of a user with `OTPLevel = 1` is decided by
`verifyOTP(user.Username, pass)` (`pkg/core/user.go` lines 25–28).

`verifyOTP` takes the lock twice, once to read the password and once, inside
`clearOTPassword`, to delete it; in between it compares. The model numbers the
generations: `generation name` is the number of the generation that stored the
password of `name`, and a verification that returns `true` remembers the number
of the password it compared with.

* `otp_accepted_twice`: two logins that read a password before either has
  deleted it are both accepted.
* `otp_accepted_once`: in every run in which no login reads a password that
  another login has already read, matched and not yet deleted, each generation
  is accepted at most once.
* `otp_removed_by_old_timer`: the timer of a password that was used removes the next
  password of the same name.
* `otp_removed_by_own`: in every run in which no password is generated for a name
  while a timer or a delete of an earlier one is outstanding, a password is removed
  only by its own timer or by the login that it let in.
-/

namespace GoJump.Core.Otp

open GoJump.Go GoJump.Lib

/-- `randomPass()` (lines 58–65): `fmt.Sprintf("%08v", n)` for a random
    `n < 99999999`, or a fixed text when the random source fails. -/
def randomPass : Option (Fin 99999999) → GoString
  | some n => List.replicate (8 - (itoa n).length) 48 ++ itoa n
  | none => str "10957890"

/-- The part of `Core` that `otpLock` guards, with two counters the code does
    not have: `generated` passwords so far, and for each name the number of the
    generation last stored under it. -/
structure OtpStore where
  otpassword : GoString → Option GoString
  generation : GoString → ℕ
  generated : ℕ

/-- The store of `NewCore`. -/
def OtpStore.init : OtpStore := ⟨fun _ => none, fun _ => 0, 0⟩

/-- `c.otpassword[name] = pass` in `GenOTPassword`. -/
def OtpStore.put (s : OtpStore) (name pass : GoString) : OtpStore :=
  { otpassword := Function.update s.otpassword name (some pass)
    generation := Function.update s.generation name s.generated
    generated := s.generated + 1 }

/-- `delete(c.otpassword, name)` in `clearOTPassword`; deleting an absent name
    changes nothing. -/
def OtpStore.delete (s : OtpStore) (name : GoString) : OtpStore :=
  { s with otpassword := Function.update s.otpassword name none }

/-- Where a goroutine stands. Numbers `g` are generations. -/
inductive OtpProc
  /-- `GenOTPassword(name)` has been called -/
  | genOTPassword (name : GoString)
  /-- `GenOTPassword` has returned `pass` -/
  | generated (pass : GoString)
  /-- `go c.clearOTPassword(name, after)` is asleep -/
  | timer (name : GoString) (g : ℕ)
  | timerDone
  /-- `verifyOTP(name, inputPass)` has been called -/
  | verifyOTP (name inputPass : GoString)
  /-- the locked read returned `pass` -/
  | compare (name inputPass pass : GoString) (g : ℕ)
  /-- the passwords are equal, `clearOTPassword(name, 0)` comes next -/
  | clear (name : GoString) (g : ℕ)
  /-- `verifyOTP` has returned `true` -/
  | accepted (g : ℕ)
  /-- `verifyOTP` has returned `false` -/
  | refused
  deriving DecidableEq

/-- One atomic step of a goroutine; `r` is the outcome of the random source. A
    timer may fire at any time after its password was stored, which covers the
    delay between the unlock and the `go` statement. -/
def exec (s : OtpStore) (p : OtpProc) (r : Option (Fin 99999999)) :
    Option (Effect OtpStore OtpProc) :=
  match p with
  | .genOTPassword name =>
    match s.otpassword name with
    | some pass => some { shared := s, proc := .generated pass }
    | none =>
      some { shared := s.put name (randomPass r), proc := .generated (randomPass r),
             spawned := [.timer name s.generated] }
  | .timer name _ => some { shared := s.delete name, proc := .timerDone }
  | .verifyOTP name inputPass =>
    if inputPass = [] then some { shared := s, proc := .refused }
    else
      match s.otpassword name with
      | none => some { shared := s, proc := .refused }
      | some pass =>
        some { shared := s, proc := .compare name inputPass pass (s.generation name) }
  | .compare name inputPass pass g =>
    if pass = inputPass then some { shared := s, proc := .clear name g }
    else some { shared := s, proc := .refused }
  | .clear name g => some { shared := s.delete name, proc := .accepted g }
  | .generated _ | .timerDone | .accepted _ | .refused => none

/-- A call into the one-time password store. -/
inductive OtpCall
  | genOTPassword (name : GoString)
  | verifyOTP (name inputPass : GoString)

def OtpCall.proc : OtpCall → OtpProc
  | .genOTPassword name => .genOTPassword name
  | .verifyOTP name inputPass => .verifyOTP name inputPass

/-- Any number of calls on the empty store of a new `Core`. -/
def start (calls : List OtpCall) : Pool OtpStore OtpProc := ⟨.init, calls.map OtpCall.proc⟩

/-- Each generation makes `verifyOTP` return `true` for at most one call. -/
def AcceptsOnce (c : Pool OtpStore OtpProc) : Prop :=
  ∀ (i j g : ℕ), c.procs[i]? = some (.accepted g) → c.procs[j]? = some (.accepted g) → i = j

/-! ## The race -/

/-- Two logins with the right password, interleaved between read and delete. -/
def raceCalls : List OtpCall :=
  [.genOTPassword (str "bob"), .verifyOTP (str "bob") (str "00000042"),
    .verifyOTP (str "bob") (str "00000042")]

/-- Generate 42; both logins read, both compare, both delete. -/
def raceRun : List (ℕ × Option (Fin 99999999)) :=
  [(0, some 42), (1, none), (2, none), (1, none), (2, none), (1, none), (2, none)]

theorem otp_accepted_twice :
    ∃ c, run (Pool.step exec) (start raceCalls) raceRun = some c ∧ ¬ AcceptsOnce c := by
  refine ⟨_, rfl, fun h => ?_⟩
  exact absurd (h 1 2 0 rfl rfl) (by decide)

/-! ## Runs without the race -/

/-- The generation a login is about to be accepted for: it has read a password
    equal to its input and has not deleted it yet. -/
def pendingWin : OtpProc → Option ℕ
  | .compare _ inputPass pass g => if pass = inputPass then some g else none
  | .clear _ g => some g
  | _ => none

/-- The generation a login is, or is about to be, accepted for. -/
def winner : OtpProc → Option ℕ
  | .accepted g => some g
  | p => pendingWin p

/-- The condition on a step of `p`, for each other goroutine `q`: when `p` reads
    a password equal to its input, `q` is not between reading the same password
    and deleting it. -/
def ReadsAlone (s : OtpStore) (p : OtpProc) (_ : Option (Fin 99999999)) (q : OtpProc) : Prop :=
  match p with
  | .verifyOTP name inputPass =>
    s.otpassword name = some inputPass → pendingWin q ≠ some (s.generation name)
  | _ => True

instance (s : OtpStore) (p : OtpProc) (r : Option (Fin 99999999)) (q : OtpProc) :
    Decidable (ReadsAlone s p r q) := by
  unfold ReadsAlone
  split <;> infer_instance

/-- The steps of `exec`, one constructor for each way a critical section ends. -/
inductive OtpStep (s : OtpStore) (r : Option (Fin 99999999)) :
    OtpProc → Effect OtpStore OtpProc → Prop
  | genKnown {name pass} : s.otpassword name = some pass →
      OtpStep s r (.genOTPassword name) { shared := s, proc := .generated pass }
  | genNew {name} : s.otpassword name = none →
      OtpStep s r (.genOTPassword name)
        { shared := s.put name (randomPass r), proc := .generated (randomPass r),
          spawned := [.timer name s.generated] }
  | fire {name g} : OtpStep s r (.timer name g) { shared := s.delete name, proc := .timerDone }
  | refuse {p} : (∀ g, winner p ≠ some g) → OtpStep s r p { shared := s, proc := .refused }
  | read {name inputPass pass} : s.otpassword name = some pass →
      OtpStep s r (.verifyOTP name inputPass)
        { shared := s, proc := .compare name inputPass pass (s.generation name) }
  | matched {name pass g} :
      OtpStep s r (.compare name pass pass g) { shared := s, proc := .clear name g }
  | clear {name g} : OtpStep s r (.clear name g) { shared := s.delete name, proc := .accepted g }

theorem otpStep_of_exec {s : OtpStore} {p : OtpProc} {r : Option (Fin 99999999)}
    {e : Effect OtpStore OtpProc} (h : exec s p r = some e) : OtpStep s r p e := by
  cases p with
  | genOTPassword name =>
    cases hn : s.otpassword name with
    | some pass => simp only [exec, hn] at h; cases h; exact .genKnown hn
    | none => simp only [exec, hn] at h; cases h; exact .genNew hn
  | timer name g => cases h; exact .fire
  | verifyOTP name inputPass =>
    simp only [exec] at h
    split_ifs at h with h0
    · cases h; exact .refuse (by simp [winner, pendingWin])
    · cases hn : s.otpassword name with
      | none => simp only [hn] at h; cases h; exact .refuse (by simp [winner, pendingWin])
      | some pass => simp only [hn] at h; cases h; exact .read hn
  | compare name inputPass pass g =>
    simp only [exec] at h
    split_ifs at h with heq
    · cases h; subst heq; exact .matched
    · cases h; exact .refuse (by simp [winner, pendingWin, heq])
  | clear name g => cases h; exact .clear
  | generated _ => cases h
  | timerDone => cases h
  | accepted _ => cases h
  | refused => cases h

/-- The password of generation `g` is stored under `m`. -/
def Holds (s : OtpStore) (m : GoString) (g : ℕ) : Prop :=
  s.otpassword m ≠ none ∧ s.generation m = g

theorem holds_delete {s : OtpStore} {name m : GoString} {g : ℕ} (h : Holds (s.delete name) m g) :
    m ≠ name ∧ Holds s m g := by
  obtain ⟨h1, h2⟩ := h
  simp only [OtpStore.delete, Function.update_apply] at h1 h2
  split_ifs at h1 with hm
  · exact absurd rfl h1
  · exact ⟨hm, h1, h2⟩

theorem holds_put {s : OtpStore} {name pass m : GoString} {g : ℕ}
    (h : Holds (s.put name pass) m g) : (m = name ∧ g = s.generated) ∨ Holds s m g := by
  obtain ⟨h1, h2⟩ := h
  simp only [OtpStore.put, Function.update_apply] at h1 h2
  split_ifs at h1 h2 with hm
  · exact Or.inl ⟨hm, h2.symm⟩
  · exact Or.inr ⟨h1, h2⟩

/-- Stored generations have been generated, each under one name. -/
def StoreInv (s : OtpStore) : Prop :=
  (∀ m g, Holds s m g → g < s.generated) ∧ ∀ m n g, Holds s m g → Holds s n g → m = n

/-- What a login remembers about the generation it read: it is stored under the
    login's own name or under none, and under none once the login was accepted. -/
def ProcInv (s : OtpStore) : OtpProc → Prop
  | .compare name _ _ g => g < s.generated ∧ ∀ m, Holds s m g → m = name
  | .clear name g => g < s.generated ∧ ∀ m, Holds s m g → m = name
  | .accepted g => g < s.generated ∧ ∀ m, ¬ Holds s m g
  | _ => True

/-- No two logins win the same generation. -/
def PairInv (_ : OtpStore) (p q : OtpProc) : Prop := ∀ g, winner p = some g → winner q ≠ some g

/-- A step stores no generation that existed before it. -/
theorem OtpStep.holds_old {s : OtpStore} {p : OtpProc} {r : Option (Fin 99999999)}
    {e : Effect OtpStore OtpProc} (h : OtpStep s r p e) :
    s.generated ≤ e.shared.generated ∧
      ∀ m g, g < s.generated → Holds e.shared m g → Holds s m g := by
  cases h with
  | genNew hn =>
    refine ⟨Nat.le_succ _, fun m g hg hm => ?_⟩
    rcases holds_put hm with ⟨_, rfl⟩ | hm
    · omega
    · exact hm
  | fire => exact ⟨le_rfl, fun m g _ hm => (holds_delete hm).2⟩
  | clear => exact ⟨le_rfl, fun m g _ hm => (holds_delete hm).2⟩
  | genKnown | refuse | read | matched => exact ⟨le_rfl, fun m g _ hm => hm⟩

theorem procInv_mono {s s' : OtpStore} {q : OtpProc} (hle : s.generated ≤ s'.generated)
    (hold : ∀ m g, g < s.generated → Holds s' m g → Holds s m g) (h : ProcInv s q) :
    ProcInv s' q := by
  cases q with
  | compare name inputPass pass g =>
    exact ⟨lt_of_lt_of_le h.1 hle, fun m hm => h.2 m (hold m g h.1 hm)⟩
  | clear name g => exact ⟨lt_of_lt_of_le h.1 hle, fun m hm => h.2 m (hold m g h.1 hm)⟩
  | accepted g => exact ⟨lt_of_lt_of_le h.1 hle, fun m hm => h.2 m (hold m g h.1 hm)⟩
  | genOTPassword | generated | timer | timerDone | verifyOTP | refused => trivial

theorem OtpStep.self_inv {s : OtpStore} {p : OtpProc} {r : Option (Fin 99999999)}
    {e : Effect OtpStore OtpProc} (h : OtpStep s r p e) (hI : StoreInv s) (hP : ProcInv s p) :
    StoreInv e.shared ∧ ProcInv e.shared e.proc := by
  obtain ⟨hlt, hone⟩ := hI
  have hdel : ∀ name, StoreInv (s.delete name) := fun name =>
    ⟨fun m g hm => hlt m g (holds_delete hm).2,
      fun m n g hm hn => hone m n g (holds_delete hm).2 (holds_delete hn).2⟩
  cases h with
  | genKnown | refuse => exact ⟨⟨hlt, hone⟩, trivial⟩
  | genNew hn =>
    refine ⟨⟨fun m g hm => ?_, fun m n g hm hn' => ?_⟩, trivial⟩
    · show g < s.generated + 1
      rcases holds_put hm with ⟨_, rfl⟩ | hm
      · omega
      · have := hlt m g hm; omega
    · rcases holds_put hm with ⟨hm1, hg⟩ | hm1
      · rcases holds_put hn' with ⟨hn1, _⟩ | hn1
        · rw [hm1, hn1]
        · have := hlt n g hn1; omega
      · rcases holds_put hn' with ⟨_, hg⟩ | hn1
        · have := hlt m g hm1; omega
        · exact hone m n g hm1 hn1
  | fire => exact ⟨hdel _, trivial⟩
  | read hn =>
    rename_i name inputPass pass
    have hh : Holds s name (s.generation name) := ⟨by rw [hn]; simp, rfl⟩
    exact ⟨⟨hlt, hone⟩, hlt name _ hh, fun m hm => hone m name _ hm hh⟩
  | matched => exact ⟨⟨hlt, hone⟩, hP⟩
  | clear =>
    refine ⟨hdel _, hP.1, fun m hm => ?_⟩
    obtain ⟨hne, hm⟩ := holds_delete hm
    exact hne (hP.2 m hm)

/-- The only step by which a goroutine newly wins a generation is the read of a
    password equal to its input. -/
theorem OtpStep.winner_new {s : OtpStore} {p : OtpProc} {r : Option (Fin 99999999)}
    {e : Effect OtpStore OtpProc} (h : OtpStep s r p e) {g : ℕ} (hw : winner e.proc = some g) :
    winner p = some g ∨ ∃ name inputPass, p = .verifyOTP name inputPass ∧
      s.otpassword name = some inputPass ∧ g = s.generation name := by
  cases h with
  | genKnown | genNew | fire | refuse => simp [winner, pendingWin] at hw
  | read hn =>
    rename_i name inputPass pass
    simp only [winner, pendingWin] at hw
    split_ifs at hw with heq
    cases hw
    exact Or.inr ⟨name, inputPass, rfl, heq ▸ hn, rfl⟩
  | matched => exact Or.inl (by simpa [winner, pendingWin] using hw)
  | clear => exact Or.inl (by simpa [winner, pendingWin] using hw)

/-- One step keeps the invariant. -/
theorem step_inv {c c' : Pool OtpStore OtpProc} {l : ℕ × Option (Fin 99999999)}
    (hinv : Pool.PoolInv StoreInv ProcInv PairInv c) (hG : Pool.Guard ReadsAlone c l)
    (h : Pool.step exec c l = some c') : Pool.PoolInv StoreInv ProcInv PairInv c' := by
  refine hinv.step (fun s p q hR g hq hp => hR g hp hq) ?_ ?_ ?_ ?_ hG h
  · intro s p r e hI hP he
    exact (otpStep_of_exec he).self_inv hI hP
  · intro s p r e q hI hP hQ hR hG he
    have hstep := otpStep_of_exec he
    refine ⟨procInv_mono hstep.holds_old.1 hstep.holds_old.2 hQ, fun g hw hq => ?_⟩
    rcases hstep.winner_new hw with hp | ⟨name, inputPass, hp, hs, rfl⟩
    · exact hR g hp hq
    · -- `q` is not between read and delete by the condition, and it was not
      -- accepted before because the generation is still stored
      cases q with
      | accepted g' =>
        simp only [winner, Option.some.injEq] at hq
        subst hq
        exact hQ.2 name ⟨by rw [hs]; simp, rfl⟩
      | compare | clear | genOTPassword | generated | timer | timerDone | verifyOTP | refused =>
        subst hp
        exact hG hs hq
  · intro s p r e q q' _ _ _ _ hR _
    exact hR
  · intro s p r e n _ _ he hn
    have hstep := otpStep_of_exec he
    cases hstep with
    | genNew =>
      rw [List.mem_singleton] at hn
      subst hn
      exact ⟨trivial, fun q g _ h => by simp [winner, pendingWin] at h⟩
    | genKnown | fire | refuse | read | matched | clear => simp at hn

theorem start_inv (calls : List OtpCall) :
    Pool.PoolInv StoreInv ProcInv PairInv (start calls) := by
  have hcall : ∀ (i : ℕ) p, (start calls).procs[i]? = some p → ∃ call, p = OtpCall.proc call := by
    intro i p hp
    simp only [start, List.getElem?_map, Option.map_eq_some_iff] at hp
    obtain ⟨call, _, rfl⟩ := hp
    exact ⟨call, rfl⟩
  refine ⟨⟨?_, ?_⟩, ?_, ?_⟩
  · rintro m g ⟨h, _⟩; exact absurd rfl h
  · rintro m n g ⟨h, _⟩; exact absurd rfl h
  · intro i p hp
    obtain ⟨call, rfl⟩ := hcall i p hp
    cases call <;> trivial
  · intro i j p q _ hp _ g hw
    obtain ⟨call, rfl⟩ := hcall i p hp
    cases call <;> simp [OtpCall.proc, winner, pendingWin] at hw

/-- Any number of logins, generations and timers, in any interleaving in which
    no login reads a password that another login has read, matched and not yet
    deleted: each generation is accepted at most once. -/
theorem otp_accepted_once (calls : List OtpCall) (acts : List (ℕ × Option (Fin 99999999)))
    (c : Pool OtpStore OtpProc)
    (hG : Meets (Pool.step exec) (Pool.Guard ReadsAlone) (start calls) acts)
    (hrun : run (Pool.step exec) (start calls) acts = some c) : AcceptsOnce c := by
  have hinv := run_inv (fun c l c' h hG hs => step_inv h hG hs) acts _ c (start_inv calls) hG hrun
  intro i j g hi hj
  by_contra hne
  exact hinv.pair i j _ _ hne hi hj g rfl rfl

/-- Generate 42; the first login reads, compares and deletes before the second
    one reads. -/
def sequentialRun : List (ℕ × Option (Fin 99999999)) :=
  [(0, some 42), (1, none), (1, none), (1, none), (2, none)]

theorem otp_accepted_once_sequential :
    ∃ c, run (Pool.step exec) (start raceCalls) sequentialRun = some c ∧
      c.procs[1]? = some (.accepted 0) ∧ AcceptsOnce c :=
  ⟨_, rfl, rfl, otp_accepted_once raceCalls sequentialRun _ (by decide) rfl⟩

/-! ## The lifetime of a password -/

/-- Whatever step comes next, a password that it removes was compared equal by the login
    that deletes it, or has its own timer. -/
def RemovesOwn (c : Pool OtpStore OtpProc) : Prop :=
  ∀ (i : ℕ) r c', Pool.step exec c (i, r) = some c' →
    ∀ name g, Holds c.shared name g → ¬ Holds c'.shared name g →
      c.procs[i]? = some (.clear name g) ∨ c.procs[i]? = some (.timer name g)

/-- A password is generated, used, and generated again. -/
def reuseCalls : List OtpCall :=
  [.genOTPassword (str "bob"), .verifyOTP (str "bob") (str "00000042"), .genOTPassword (str "bob")]

def reuseRun : List (ℕ × Option (Fin 99999999)) :=
  [(0, some 42), (1, none), (1, none), (1, none), (2, some 7)]

/-- The goroutine at position 3 is the timer of the first password. -/
theorem otp_removed_by_old_timer :
    ∃ c, run (Pool.step exec) (start reuseCalls) reuseRun = some c ∧ ¬ RemovesOwn c := by
  refine ⟨_, rfl, fun h => ?_⟩
  have hstored := h 3 none _ rfl (str "bob") 1 ⟨by decide, by decide⟩ (fun hh => hh.1 (by decide))
  exact absurd hstored (by decide)

/-- The name and the generation that a goroutine is going to delete. -/
def deletes : OtpProc → Option (GoString × ℕ)
  | .timer name g => some (name, g)
  | .compare name inputPass pass g => if pass = inputPass then some (name, g) else none
  | .clear name g => some (name, g)
  | _ => none

/-- The condition on a step of `p`, for each other goroutine `q`: when `p` generates a
    password, `q` is not going to delete one of the same name. -/
def GeneratesAlone (s : OtpStore) (p : OtpProc) (_ : Option (Fin 99999999)) (q : OtpProc) : Prop :=
  match p with
  | .genOTPassword name => s.otpassword name = none → ∀ d ∈ deletes q, d.1 ≠ name
  | _ => True

instance (s : OtpStore) (p : OtpProc) (r : Option (Fin 99999999)) (q : OtpProc) :
    Decidable (GeneratesAlone s p r q) := by
  unfold GeneratesAlone
  split <;> infer_instance

/-- What a goroutine is going to delete is the password that is stored, if any is. -/
def DeletesOwn (s : OtpStore) (p : OtpProc) : Prop :=
  ∀ name g, deletes p = some (name, g) → s.otpassword name ≠ none → s.generation name = g

theorem DeletesOwn.delete {s : OtpStore} {q : OtpProc} (h : DeletesOwn s q) (name : GoString) :
    DeletesOwn (s.delete name) q := by
  intro n g hq hn
  obtain ⟨_, hold⟩ := holds_delete ⟨hn, rfl⟩
  exact h n g hq hold.1

theorem OtpStep.deletesOwn {s : OtpStore} {p : OtpProc} {r : Option (Fin 99999999)}
    {e : Effect OtpStore OtpProc} (h : OtpStep s r p e) (hp : DeletesOwn s p) :
    DeletesOwn e.shared e.proc := by
  cases h with
  | genKnown | genNew | fire | refuse | clear => intro n g hd; cases hd
  | read hn =>
    intro n g hd _
    simp only [deletes] at hd
    split_ifs at hd
    cases hd
    rfl
  | matched =>
    rename_i name pass g
    intro n g' hd hn
    apply hp n g' _ hn
    rw [deletes, if_pos rfl]
    exact hd

/-- A goroutine that stands still keeps deleting its own. -/
theorem OtpStep.deletesOwn_other {s : OtpStore} {p q : OtpProc} {r : Option (Fin 99999999)}
    {e : Effect OtpStore OtpProc} (h : OtpStep s r p e) (hq : DeletesOwn s q)
    (hG : GeneratesAlone s p r q) : DeletesOwn e.shared q := by
  cases h with
  | genKnown | refuse | read | matched => exact hq
  | fire | clear => exact hq.delete _
  | genNew hnone =>
    rename_i name
    intro n g hd hn
    have hne : n ≠ name := hG hnone (n, g) hd
    rcases holds_put ⟨hn, rfl⟩ with ⟨heq, _⟩ | hold
    · exact absurd heq hne
    · rw [← hold.2]
      exact hq n g hd hold.1

/-- Only a delete of its name makes a password disappear. -/
theorem OtpStep.removes {s : OtpStore} {p : OtpProc} {r : Option (Fin 99999999)}
    {e : Effect OtpStore OtpProc} (h : OtpStep s r p e) {name : GoString} {g : ℕ}
    (hold : Holds s name g) (hgone : ¬ Holds e.shared name g) :
    ∃ g', deletes p = some (name, g') ∧ (p = .clear name g' ∨ p = .timer name g') := by
  have hdel : ∀ n, ¬ Holds (s.delete n) name g → n = name := by
    intro n hno
    by_contra hne
    refine hno ?_
    simpa [Holds, OtpStore.delete, Function.update_of_ne (Ne.symm hne)] using hold
  cases h with
  | genKnown | refuse | read | matched => exact absurd hold hgone
  | @genNew n hnone =>
    have hne : name ≠ n := by
      rintro rfl
      exact hold.1 hnone
    refine absurd ?_ hgone
    simpa [Holds, OtpStore.put, Function.update_of_ne hne] using hold
  | @fire n g' =>
    obtain rfl := hdel n hgone
    exact ⟨g', rfl, Or.inr rfl⟩
  | @clear n g' =>
    obtain rfl := hdel n hgone
    exact ⟨g', rfl, Or.inl rfl⟩

theorem step_deletesOwn {c c' : Pool OtpStore OtpProc} {l : ℕ × Option (Fin 99999999)}
    (hinv : Pool.PoolInv (fun _ => True) DeletesOwn (fun _ _ _ => True) c)
    (hG : Pool.Guard GeneratesAlone c l) (h : Pool.step exec c l = some c') :
    Pool.PoolInv (fun _ => True) DeletesOwn (fun _ _ _ => True) c' := by
  refine hinv.step (fun _ _ _ _ => trivial) ?_ ?_ (fun _ _ _ _ _ _ _ _ _ _ _ _ => trivial) ?_ hG h
  · intro s p r e _ hp he
    exact ⟨trivial, (otpStep_of_exec he).deletesOwn hp⟩
  · intro s p r e q _ _ hq _ hG he
    exact ⟨(otpStep_of_exec he).deletesOwn_other hq hG, trivial⟩
  · intro s p r e n _ _ he hn
    have hstep := otpStep_of_exec he
    cases hstep with
    | genNew =>
      rename_i name hnone
      rw [List.mem_singleton] at hn
      subst hn
      refine ⟨fun n g hd _ => ?_, fun _ => trivial⟩
      cases hd
      simp [OtpStore.put]
    | genKnown | fire | refuse | read | matched | clear => simp at hn

/-- Any number of generations, logins and timers, in any interleaving in which no
    password is generated for a name while a timer or a delete of an earlier one of
    that name is outstanding: in every state reached, whatever step comes next removes
    a password only as its own timer or as the login that compared equal with it. -/
theorem otp_removed_by_own (calls : List OtpCall) (acts : List (ℕ × Option (Fin 99999999)))
    (c : Pool OtpStore OtpProc)
    (hG : Meets (Pool.step exec) (Pool.Guard GeneratesAlone) (start calls) acts)
    (hrun : run (Pool.step exec) (start calls) acts = some c) : RemovesOwn c := by
  have hstart : Pool.PoolInv (fun _ => True) DeletesOwn (fun _ _ _ => True) (start calls) := by
    refine ⟨trivial, fun i p hp name g hd hn => ?_, fun _ _ _ _ _ _ _ => trivial⟩
    exact absurd rfl hn
  have hinv := run_inv (fun c l c' h hG hs => step_deletesOwn h hG hs) acts _ c hstart hG hrun
  intro i r c' hstep name g hold hgone
  obtain ⟨p, e, hp, he, hsh, _⟩ := Pool.step_cases hstep
  rw [hsh] at hgone
  obtain ⟨g', hdel, hp'⟩ := (otpStep_of_exec he).removes hold hgone
  have hg : g' = g := (hinv.each i p hp name g' hdel hold.1).symm.trans hold.2
  rw [hp, Option.some.injEq, Option.some.injEq, ← hg]
  exact hp'

/-- The second password is generated after the first one's timer has fired. -/
def patientRun : List (ℕ × Option (Fin 99999999)) :=
  [(0, some 42), (1, none), (1, none), (1, none), (3, none), (2, some 7)]

theorem otp_removed_by_own_patient :
    ∃ c, run (Pool.step exec) (start reuseCalls) patientRun = some c ∧
      Holds c.shared (str "bob") 1 ∧ RemovesOwn c :=
  ⟨_, rfl, ⟨by decide, by decide⟩, otp_removed_by_own reuseCalls patientRun _ (by decide) rfl⟩

end GoJump.Core.Otp
