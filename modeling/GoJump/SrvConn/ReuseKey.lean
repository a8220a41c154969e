import GoJump.Lib.Join
import GoJump.SrvConn.SSHManager

/-!
# The key of a reusable connection

`MakeReuseSSHClientKey` (`pkg/srvconn/conn.go` lines 35–39) joins the user id, the
asset id, the system user id, the address and the login name with underscores.
`getSSHConn` (`pkg/proxy/server.go` lines 318–360) stores the client it has dialled
under that key and `getCacheSSHConn` (lines 426–459) asks for it, both through the
manager of `GoJump.SrvConn.SSHManager`. Nothing keeps an underscore out of the
five strings.

* `reuse_other_identity`: two identities with one key, and a run in which one of
  them is handed the client dialled for the other.
* `reuse_same_identity`: when keys tell identities apart, and that in every run a
  client is reused for the identity it was dialled for if they do.
-/

namespace GoJump.SrvConn.ReuseKey

open GoJump.Go GoJump.Lib GoJump.SrvConn.SSHManager

/-- Whom a connection was opened for. -/
structure Identity where
  userId : GoString
  assetId : GoString
  systemUserId : GoString
  ip : GoString
  username : GoString
  deriving DecidableEq

/-- The byte `_`. -/
def underscore : UInt8 := 95

/-- `MakeReuseSSHClientKey`: `"%s_%s_%s_%s_%s"`. -/
def makeReuseSSHClientKey (t : Identity) : GoString :=
  t.userId ++ str "_" ++ t.assetId ++ str "_" ++ t.systemUserId ++ str "_" ++ t.ip ++ str "_" ++
    t.username

def Identity.components (t : Identity) : List GoString :=
  [t.userId, t.assetId, t.systemUserId, t.ip, t.username]

theorem Identity.components_injective : Function.Injective Identity.components := by
  rintro ⟨u, a, s, ip, n⟩ ⟨u', a', s', ip', n'⟩ h
  simp only [components, List.cons.injEq, and_true] at h
  obtain ⟨rfl, rfl, rfl, rfl, rfl⟩ := h
  rfl

/-- The key is the join of the components. -/
theorem makeReuseSSHClientKey_eq (t : Identity) :
    makeReuseSSHClientKey t = [underscore].intercalate t.components := by
  have hsep : str "_" = [underscore] := rfl
  unfold makeReuseSSHClientKey Identity.components
  rw [hsep]
  simp only [List.intercalate_cons_cons, List.intercalate_singleton, List.append_assoc]

/-- If the components of `t` and `t'`, cut at underscores, give the same row of
    pieces, then each component of `t` has as many pieces as that of `t'`. -/
def Apart (t t' : Identity) : Prop :=
  pieces underscore t.components = pieces underscore t'.components →
    pieceCounts underscore t.components = pieceCounts underscore t'.components

instance (t t' : Identity) : Decidable (Apart t t') :=
  inferInstanceAs (Decidable (_ → _))

theorem key_determines_iff (t t' : Identity) :
    (makeReuseSSHClientKey t = makeReuseSSHClientKey t' → t = t') ↔ Apart t t' := by
  rw [makeReuseSSHClientKey_eq, makeReuseSSHClientKey_eq, ← Identity.components_injective.eq_iff]
  exact intercalate_determines_iff underscore (List.cons_ne_nil _ _) (List.cons_ne_nil _ _)

/-! ## Dialling and reusing -/

/-- What a session asks of the cache: `getSSHConn` stores the client it has dialled
    for an identity, `getCacheSSHConn` looks one up. -/
inductive ReuseCall (Client : Type*)
  | getSSHConn (t : Identity) (client : Client)
  | getCacheSSHConn (t : Identity)

variable {Client : Type*} [DecidableEq Client]

def ReuseCall.toCacheCall : ReuseCall Client → CacheCall Client
  | getSSHConn t client => .addClientCache (makeReuseSSHClientKey t) client
  | getCacheSSHConn t => .getClientFromCache (makeReuseSSHClientKey t)

/-- Any number of sessions on one manager. -/
def start (now : ℕ) (calls : List (ReuseCall Client)) : Pool (Manager Client) (CacheProc Client) :=
  SSHManager.start now (calls.map ReuseCall.toCacheCall)

/-- Call `i` has returned with `client`; process 0 is the ticker. -/
def Returned (c : Pool (Manager Client) (CacheProc Client)) (i : ℕ) (client : Client) : Prop :=
  ∃ key log, c.procs[i + 1]? = some (.returned key (some client) log)

/-! ## Two identities with one key -/

/-- User `a_b` on asset `c`. -/
def dialledFor : Identity := ⟨str "a_b", str "c", str "s", str "10.0.0.1", str "root"⟩

/-- User `a` on asset `b_c`. -/
def askedFor : Identity := ⟨str "a", str "b_c", str "s", str "10.0.0.1", str "root"⟩

def collisionCalls : List (ReuseCall ℕ) :=
  [.getSSHConn dialledFor 7, .getCacheSSHConn askedFor]

/-- The client is stored, then found. -/
def collisionRun : List (ℕ × CacheAct ℕ) :=
  [(1, .store 1), (2, .request [(7, 0, 0)]), (2, .receive 2)]

theorem reuse_other_identity :
    makeReuseSSHClientKey dialledFor = makeReuseSSHClientKey askedFor ∧ dialledFor ≠ askedFor ∧
    ∃ c, run (Pool.step exec) (start 0 collisionCalls) collisionRun = some c ∧ Returned c 1 7 ∧
      ∀ t client, .getSSHConn t client ∈ collisionCalls → t ≠ askedFor := by
  refine ⟨by decide, by decide, _, rfl, ⟨_, _, rfl⟩, ?_⟩
  intro t client h
  rcases List.mem_cons.mp h with h | h
  · cases h
    decide
  · simp at h

/-! ## Identities that keys tell apart -/

/-- A client that `getCacheSSHConn` gets was dialled for an identity with the same
    key. -/
theorem dialled_of_returned {now : ℕ} {calls : List (ReuseCall Client)}
    {acts : List (ℕ × CacheAct Client)} {c : Pool (Manager Client) (CacheProc Client)}
    (hrun : run (Pool.step exec) (start now calls) acts = some c) {i : ℕ} {t : Identity}
    {client : Client} (hi : calls[i]? = some (.getCacheSSHConn t)) (hret : Returned c i client) :
    ∃ t', .getSSHConn t' client ∈ calls ∧
      makeReuseSSHClientKey t' = makeReuseSSHClientKey t := by
  obtain ⟨key, log, hp⟩ := hret
  have hinv : CacheInv c := run_inv' (fun _ _ _ h hs => step_inv h hs) (start_inv _ _) hrun
  -- the call returned for the key it was made with
  obtain ⟨p₀, hp₀, hkey⟩ := lookupKey_descends hrun (i + 1) _ hp
  have hp₀' : p₀ = .getClientFromCache (makeReuseSSHClientKey t) := by
    have hcall : (start now calls).procs[i + 1]? =
        some (.getClientFromCache (makeReuseSSHClientKey t)) := by
      show (CacheProc.ticker :: _)[i + 1]? = _
      rw [List.getElem?_cons_succ, List.map_map, List.getElem?_map, hi]
      rfl
    exact Option.some.inj (hp₀.symm.trans hcall)
  rw [hp₀'] at hkey
  have hkey' : key = makeReuseSSHClientKey t := Option.some.inj hkey
  -- and the client it got was stored under that key
  obtain ⟨hpre, _, hlive⟩ := hinv.each (i + 1) _ hp
  have hadd : LogEntry.add (key, client) ∈ c.shared.log := hpre.subset (Live.add_mem hlive)
  obtain ⟨call, hcall, heq⟩ := List.mem_map.mp (stored_of_added hrun hadd)
  cases call with
  | getSSHConn t' client' =>
    simp only [ReuseCall.toCacheCall, CacheCall.addClientCache.injEq] at heq
    obtain ⟨hk, rfl⟩ := heq
    exact ⟨t', hcall, hk.trans hkey'⟩
  | getCacheSSHConn t' => cases heq

/-- The keys of two identities being equal forces the identities to be equal
    exactly when they are `Apart`. In every run, a client that `getCacheSSHConn`
    gets for `t` was dialled by `getSSHConn` for `t`, if `t` is `Apart` from every
    identity that client was dialled for. -/
theorem reuse_same_identity :
    (∀ t t' : Identity, (makeReuseSSHClientKey t = makeReuseSSHClientKey t' → t = t') ↔
      Apart t t') ∧
    (∀ (now : ℕ) (calls : List (ReuseCall Client)) (acts : List (ℕ × CacheAct Client))
      (c : Pool (Manager Client) (CacheProc Client)),
      run (Pool.step exec) (start now calls) acts = some c →
      ∀ (i : ℕ) t client, calls[i]? = some (.getCacheSSHConn t) → Returned c i client →
        (∀ t', .getSSHConn t' client ∈ calls → Apart t' t) → .getSSHConn t client ∈ calls) := by
  refine ⟨key_determines_iff, ?_⟩
  intro now calls acts c hrun i t client hi hret hapart
  obtain ⟨t', hdial, hkey⟩ := dialled_of_returned hrun hi hret
  have heq : t' = t := (key_determines_iff t' t).mpr (hapart t' hdial) hkey
  exact heq ▸ hdial

def sameCalls : List (ReuseCall ℕ) := [.getSSHConn askedFor 7, .getCacheSSHConn askedFor]

theorem reuse_same_identity_run :
    ∃ c, run (Pool.step exec) (start 0 sameCalls) collisionRun = some c ∧ Returned c 1 7 ∧
      .getSSHConn askedFor 7 ∈ sameCalls := by
  refine ⟨_, rfl, ⟨_, _, rfl⟩, reuse_same_identity.2 0 sameCalls collisionRun _ rfl 1 askedFor 7
    rfl ⟨_, _, rfl⟩ ?_⟩
  intro t' h
  rcases List.mem_cons.mp h with h | h
  · cases h
    exact fun _ => rfl
  · simp at h

end GoJump.SrvConn.ReuseKey
