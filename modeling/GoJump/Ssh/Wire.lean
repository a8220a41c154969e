import GoJump.Go.Strings
import GoJump.Lib.Wire

/-!
# The requests for a terminal

Model of `pkg/ssh/util.go` (lines 19–83): the payloads of the requests `pty-req` and
`window-change`. `none` is a run-time error: the length of a string is added to 4 in
32 bits, and a length close to 2³² makes the bounds of the slice go backwards.

* `parsePtyRequest_spec`, `parseWinchRequest_spec`: what is accepted is what is written in the
  format, whatever follows it.
* `terminal_requests`: both, with the payloads that crash `parsePtyRequest`.
-/

namespace GoJump.Ssh

open GoJump.Go GoJump.Lib

/-- `Window`. -/
structure Window where
  width : ℕ
  height : ℕ
  deriving DecidableEq

/-- `Pty`. -/
structure Pty where
  term : GoString
  window : Window
  deriving DecidableEq

/-- `parseUint32` (lines 78–83). -/
def parseUint32 (s : GoString) : Option (ℕ × GoString) := uint32.get s

/-- `parseString` (lines 64–76). -/
def parseString (s : GoString) : Option (Option (GoString × GoString)) :=
  if s.length < 4 then some none
  else
    let stop := (4 + readUint32 s) % 2 ^ 32
    if s.length % 2 ^ 32 < stop then some none
    else if 4 ≤ stop ∧ stop ≤ s.length then some (some ((s.take stop).drop 4, s.drop stop))
    else none

/-- `parsePtyRequest` (lines 19–40). -/
def parsePtyRequest (s : GoString) : Option (Option Pty) := do
  match ← parseString s with
  | none => return none
  | some (term, s) =>
    match parseUint32 s with
    | none => return none
    | some (width, s) =>
      match parseUint32 s with
      | none => return none
      | some (height, _) => return some ⟨term, width, height⟩

/-- `parseWinchRequest` (lines 42–62). -/
def parseWinchRequest (s : GoString) : Option Window :=
  match parseUint32 s with
  | none => none
  | some (width, s) =>
    if width < 1 then none
    else
      match parseUint32 s with
      | none => none
      | some (height, _) => if height < 1 then none else some ⟨width, height⟩

/-! ## The formats -/

/-- The terms that can be sent: 4 and the length fit into 32 bits. -/
def term : Codec GoString := lengthPrefixed (2 ^ 32 - 5) (by decide)

def windowCodec : Codec (ℕ × ℕ) := uint32.seq uint32

def ptyCodec : Codec (GoString × ℕ × ℕ) := term.seq windowCodec

/-- What `pty-req` sends: the term, the size, and the modes, which are not read. -/
def ptyRequest (pty : Pty) (modes : GoString) : GoString :=
  ptyCodec.put (pty.term, pty.window.width, pty.window.height) ++ modes

/-- What `window-change` sends: the size in characters, and the one in pixels. -/
def winchRequest (win : Window) (pixels : GoString) : GoString :=
  windowCodec.put (win.width, win.height) ++ pixels

/-- A length that is not read as the length of a string. -/
def BadLength (s : GoString) : Prop := 4 ≤ s.length ∧ 2 ^ 32 - 4 ≤ readUint32 s

instance (s : GoString) : Decidable (BadLength s) := inferInstanceAs (Decidable (_ ∧ _))

theorem parseString_eq {s : GoString} (hs : s.length < 2 ^ 32) :
    parseString s = if BadLength s then none else some (term.get s) := by
  have hlt := readUint32_lt s
  unfold parseString
  show _ = if BadLength s then _ else some (uint32.get s >>= _)
  by_cases hshort : s.length < 4
  · have hget : uint32.get s = none := if_pos hshort
    rw [if_pos hshort, if_neg fun h : BadLength s => absurd h.1 (by omega), hget]
    rfl
  · have hget : uint32.get s = some (readUint32 s, s.drop 4) := if_neg hshort
    have hdrop : (s.drop 4).length = s.length - 4 := List.length_drop
    rw [if_neg hshort, hget, Nat.mod_eq_of_lt hs]
    dsimp only
    by_cases hbad : 2 ^ 32 - 4 ≤ readUint32 s
    · -- the sum is less than four
      have hstop : (4 + readUint32 s) % 2 ^ 32 = 4 + readUint32 s - 2 ^ 32 := by omega
      rw [hstop, if_neg (by omega), if_neg (by omega),
        if_pos (show BadLength s from ⟨by omega, hbad⟩)]
    · have hstop : (4 + readUint32 s) % 2 ^ 32 = 4 + readUint32 s := by omega
      rw [hstop, if_neg fun h : BadLength s => hbad h.2]
      show _ = some (if readUint32 s ≤ (s.drop 4).length ∧ readUint32 s ≤ 2 ^ 32 - 5 then _ else _)
      by_cases hlong : s.length < 4 + readUint32 s
      · rw [if_pos hlong, if_neg (by omega)]
      · rw [if_neg hlong, if_pos (by omega), if_pos (by omega), List.drop_take, List.drop_drop,
          Nat.add_sub_cancel_left]

theorem parsePtyRequest_eq {s : GoString} (hs : s.length < 2 ^ 32) :
    parsePtyRequest s =
      if BadLength s then none
      else some ((ptyCodec.get s).map fun p => ⟨p.1.1, p.1.2.1, p.1.2.2⟩) := by
  unfold parsePtyRequest
  rw [parseString_eq hs]
  by_cases hbad : BadLength s
  · rw [if_pos hbad, if_pos hbad]
    rfl
  · rw [if_neg hbad, if_neg hbad]
    show _ = some (Option.map _
      (term.get s >>= fun p => windowCodec.get p.2 >>= fun q => some ((p.1, q.1), q.2)))
    rcases term.get s with _ | ⟨t, s₁⟩
    · rfl
    show _ = some (Option.map _
      ((uint32.get s₁ >>= fun p => uint32.get p.2 >>= fun q => some ((p.1, q.1), q.2)) >>=
        fun q => some ((t, q.1), q.2)))
    show (match uint32.get s₁ with
      | none => _
      | some (width, s) => _) = _
    rcases uint32.get s₁ with _ | ⟨width, s₂⟩
    · rfl
    show (match uint32.get s₂ with
      | none => _
      | some (height, _) => _) = some (Option.map _ ((uint32.get s₂ >>= _) >>= _))
    rcases uint32.get s₂ with _ | ⟨height, s₃⟩
    · rfl
    · rfl

theorem parseWinchRequest_eq (s : GoString) :
    parseWinchRequest s = (windowCodec.get s).bind fun p =>
      if p.1.1 < 1 ∨ p.1.2 < 1 then none else some ⟨p.1.1, p.1.2⟩ := by
  show _ = (uint32.get s >>= fun p => uint32.get p.2 >>= fun q => some ((p.1, q.1), q.2)).bind _
  unfold parseWinchRequest
  show (match uint32.get s with
    | none => _
    | some (width, s) => _) = _
  rcases uint32.get s with _ | ⟨width, s₁⟩
  · rfl
  show (if width < 1 then _ else match uint32.get s₁ with
    | none => _
    | some (height, _) => _) = (uint32.get s₁ >>= _).bind _
  rcases uint32.get s₁ with _ | ⟨height, s₂⟩
  · exact ite_self _
  show (if width < 1 then none else if height < 1 then none else some (Window.mk width height)) =
    if width < 1 ∨ height < 1 then none else some ⟨width, height⟩
  split_ifs <;> first | rfl | omega

theorem not_badLength_ptyRequest {pty : Pty} (h : pty.term.length ≤ 2 ^ 32 - 5) (modes : GoString) :
    ¬ BadLength (ptyRequest pty modes) := by
  have hput : ptyRequest pty modes = putUint32 pty.term.length ++
      (pty.term ++ windowCodec.put (pty.window.width, pty.window.height) ++ modes) := by
    show (putUint32 pty.term.length ++ pty.term) ++ _ ++ modes = _
    simp only [List.append_assoc]
  rintro ⟨-, hbad⟩
  have hfour : 4 ≤ (putUint32 pty.term.length).length := le_rfl
  rw [hput, readUint32_append hfour, readUint32_putUint32 (by omega)] at hbad
  omega

/-- A terminal is accepted when its request is in the format. -/
theorem parsePtyRequest_spec {s : GoString} (hs : s.length < 2 ^ 32) (pty : Pty) :
    parsePtyRequest s = some (some pty) ↔
      (pty.term.length ≤ 2 ^ 32 - 5 ∧ pty.window.width < 2 ^ 32 ∧ pty.window.height < 2 ^ 32) ∧
        ∃ modes, s = ptyRequest pty modes := by
  rw [parsePtyRequest_eq hs]
  constructor
  · intro h
    split_ifs at h
    obtain ⟨⟨⟨t, width, height⟩, modes⟩, hget, rfl⟩ := Option.map_eq_some_iff.mp (Option.some.inj h)
    obtain ⟨hvalid, rfl⟩ := ptyCodec.put_of_get hget
    exact ⟨hvalid, modes, rfl⟩
  · rintro ⟨hvalid, modes, rfl⟩
    have hget : ptyCodec.get (ptyRequest pty modes) =
        some ((pty.term, pty.window.width, pty.window.height), modes) :=
      ptyCodec.get_put (a := (pty.term, pty.window.width, pty.window.height)) hvalid modes
    rw [if_neg (not_badLength_ptyRequest hvalid.1 modes), hget]
    rfl

/-- A new size is accepted when its request is in the format and it is not empty. -/
theorem parseWinchRequest_spec (s : GoString) (win : Window) :
    parseWinchRequest s = some win ↔
      ((1 ≤ win.width ∧ win.width < 2 ^ 32) ∧ 1 ≤ win.height ∧ win.height < 2 ^ 32) ∧
        ∃ pixels, s = winchRequest win pixels := by
  rw [parseWinchRequest_eq]
  constructor
  · intro h
    obtain ⟨⟨⟨width, height⟩, pixels⟩, hget, hif⟩ := Option.bind_eq_some_iff.mp h
    dsimp only at hif
    split_ifs at hif with hzero
    cases hif
    obtain ⟨⟨hwidth, hheight⟩, rfl⟩ := windowCodec.put_of_get hget
    rw [not_or, not_lt, not_lt] at hzero
    exact ⟨⟨⟨hzero.1, hwidth⟩, hzero.2, hheight⟩, pixels, rfl⟩
  · rintro ⟨⟨⟨hwidth, hwidth'⟩, hheight, hheight'⟩, pixels, rfl⟩
    have hget : windowCodec.get (winchRequest win pixels) =
        some ((win.width, win.height), pixels) :=
      windowCodec.get_put (a := (win.width, win.height)) ⟨hwidth', hheight'⟩ pixels
    rw [hget]
    exact if_neg (by rw [not_or, not_lt, not_lt]; exact ⟨hwidth, hheight⟩)

/-- The requests of a client for a terminal and for another size: which payloads crash the
    server, and what is read from the others. The sizes in `pty-req` may be zero, those in
    `window-change` may not. -/
theorem terminal_requests (s : GoString) (hs : s.length < 2 ^ 32) :
    (parsePtyRequest s = none ↔ 4 ≤ s.length ∧ 2 ^ 32 - 4 ≤ readUint32 s) ∧
    (∀ pty, parsePtyRequest s = some (some pty) ↔
      (pty.term.length ≤ 2 ^ 32 - 5 ∧ pty.window.width < 2 ^ 32 ∧ pty.window.height < 2 ^ 32) ∧
        ∃ modes, s = ptyRequest pty modes) ∧
    ∀ win, parseWinchRequest s = some win ↔
      ((1 ≤ win.width ∧ win.width < 2 ^ 32) ∧ 1 ≤ win.height ∧ win.height < 2 ^ 32) ∧
        ∃ pixels, s = winchRequest win pixels := by
  refine ⟨?_, parsePtyRequest_spec hs, parseWinchRequest_spec s⟩
  rw [parsePtyRequest_eq hs]
  constructor
  · intro h
    split_ifs at h with hbad
    exact hbad
  · intro hbad
    exact if_pos hbad

/-- Four bytes are enough to crash the server. -/
theorem terminal_requests_crash :
    ([255, 255, 255, 252] : GoString).length < 2 ^ 32 ∧
    parsePtyRequest [255, 255, 255, 252] = none :=
  ⟨by decide, (terminal_requests [255, 255, 255, 252] (by decide)).1.mpr (by decide)⟩

end GoJump.Ssh
