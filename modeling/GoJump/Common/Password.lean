import GoJump.Common.SameLine
import GoJump.Lib.Unwinding

/-!
# Passwords

Model of `ReadPassword` and `ReadLine` of the terminal with its screen
(`pkg/common/terminal.go`, lines 699–721 and 790–868): the keys that are read one after the
other, and the calls of `Write` and `SetSize` by others while the read is waiting. A call
ends with a line, with Ctrl-D on an empty line, or with an error of the read.

Two calls of `ReadPassword` are compared whose inputs differ in the printable characters
only. What can be seen are the bytes written to the connection during the call, and those
written by later calls of `ReadLine`.

* `readKey_refines`: the keys do what they do in `Terminal.readLine`.
* `secret_iff`: for which control keys and calls nothing can be seen of the characters. The
  exceptions are Ctrl-D, Up, a new width, an error, and Ctrl-K with a key that moves left.
* `password_shown`: a new width shows the characters, and so does the key Down in a later
  `ReadLine`.
-/

namespace GoJump.Common

open GoJump.Go GoJump.Lib

/-! ## Reading -/

/-- What happens during a call: a key is read, all keys have been handled and the read waits
    for more, another call of `Write` or `SetSize` while the read waits, the read fails. -/
inductive Event
  | key (key : ℕ)
  | wait
  | write (buf : GoString)
  | setSize (width height : ℕ)
  | fail
  deriving DecidableEq

namespace Screen

/-- What is queued is written to the connection. -/
def flush (t : Screen) : Screen := t.withDisplay t.display.flush

/-- What is done with a line that has been read (lines 843–846). -/
def addToHistory (t : Screen) (line : GoString) : Screen :=
  if t.echo then
    { t with historyIndex := -1, history := t.history.add line, index_ge := Editor.new.index_ge }
  else t

/-- A key in `readLine` (lines 810–832 and 840–851), and whether the call ends. What is
    queued is not written when Ctrl-D ends it. -/
def readKey (callback : Option AutoCompleteCallback) (t : Screen) (key : ℕ) :
    Option (Screen × Bool) :=
  if t.pasteActive = false ∧ key = keyCtrlD ∧ t.line.len = 0 then some (t, true)
  else if t.pasteActive = false ∧ key = keyPasteStart then
    some ({ t with pasteActive := true }, false)
  else if t.pasteActive = true ∧ key = keyPasteEnd then
    some ({ t with pasteActive := false }, false)
  else do
    let (t, line) ← t.handleKey callback key
    match line with
    | none => return (t, false)
    | some line => return (t.flush.addToHistory line, true)

/-- One event. Nothing is queued while the read waits (lines 840–841). -/
def event (callback : Option AutoCompleteCallback) (t : Screen) : Event → Option (Screen × Bool)
  | .key key => t.readKey callback key
  | .wait => some (t.flush, false)
  | .write buf => (t.flush.write buf).map (·, false)
  | .setSize width height => (t.flush.setSize width height).map (·, false)
  | .fail => some (t.flush, true)

/-- `ReadLine` (lines 716–721), and whether it has returned. -/
def readLine (callback : Option AutoCompleteCallback) (t : Screen) (es : List Event) :
    Option (Screen × Bool) := do
  let t ← t.showPrompt
  runUntil (event callback) t es

/-- `ReadPassword` (lines 699–713). -/
def readPassword (callback : Option AutoCompleteCallback) (t : Screen) (prompt : GoString)
    (es : List Event) : Option (Screen × Bool) := do
  let (t', ended) ← readLine callback { t with prompt := runes prompt, echo := false } es
  return (if ended then { t' with prompt := t.prompt, echo := true } else t', ended)

/-- Calls of `ReadLine`, each after the one before has returned. -/
def readLines (callback : Option AutoCompleteCallback) :
    Screen → List (List Event) → Option (Screen × Bool)
  | t, [] => some (t, true)
  | t, es :: later => do
    let (t, ended) ← t.readLine callback es
    if ended then readLines callback t later else return (t, false)

/-- The bytes that the connection has got, when the last call has returned or waits. -/
def written : Screen × Bool → GoString
  | (t, true) => t.display.sent
  | (t, false) => t.display.flush.sent

/-- What is seen of a call of `ReadPassword`, and of later calls of `ReadLine` if it returns. -/
def observe (callback : Option AutoCompleteCallback) (t : Screen) (prompt : GoString)
    (es : List Event) (later : List (List Event)) : Option (GoString × Option GoString) := do
  let r ← t.readPassword callback prompt es
  if r.2 then do
    let r' ← readLines callback r.1 later
    return (written r, some (written r'))
  else return (written r, none)

end Screen

section Refines

variable {w : ℕ} {t : Screen} {ed : Editor}

theorem Refines.flush (h : Refines w t ed) : Refines w t.flush ed := by
  obtain ⟨hok, hpos, rfl⟩ := h
  exact ⟨hok.flush, hpos, rfl⟩

theorem Refines.addToHistory (h : Refines w t ed) (line : GoString) :
    Refines w (t.addToHistory line) (ed.addToHistory line) := by
  obtain ⟨hok, hpos, rfl⟩ := h
  unfold Screen.addToHistory Editor.addToHistory
  show Refines w _ (if t.echo = true then _ else _)
  split_ifs
  · exact ⟨hok, hpos, rfl⟩
  · exact ⟨hok, hpos, rfl⟩

/-- The keys do what they do in the loop over the bytes, and end the call when they end the
    loop. -/
theorem Screen.readKey_refines (h : Refines w t ed) (lineIsPasted : Bool) (readErr : LineError)
    (key : ℕ) :
    Returns (t.readKey none key) fun r =>
      r.2 = (keyMachine.handle (ed, lineIsPasted) key).2.isSome ∧
        Refines w r.1 (lineResult readErr (keyMachine.handle (ed, lineIsPasted) key).1
          (keyMachine.handle (ed, lineIsPasted) key).2).1 := by
  obtain ⟨⟨t₁, out⟩, hstep, href, hout⟩ := handleKey_refines h key
  obtain ⟨hok, hpos, rfl⟩ := h
  let s : Editor × Bool := (t.editor hpos, lineIsPasted)
  have hempty : t.line.elems = [] ↔ t.line.len = 0 := by
    rw [← List.length_eq_zero_iff, Slice.length_elems]
  unfold readKey
  by_cases hend : t.pasteActive = false ∧ key = keyCtrlD ∧ t.line.len = 0
  · have hhandle : keyMachine.handle s key = (s, some .eof) :=
      if_pos ⟨hend.1, hend.2.1, hempty.mpr hend.2.2⟩
    rw [if_pos hend, hhandle]
    exact returns_some ⟨rfl, hok, hpos, rfl⟩
  have hnot : ¬ (t.pasteActive = false ∧ key = keyCtrlD ∧ t.line.elems = []) := by rwa [hempty]
  rw [if_neg hend]
  by_cases hstart : t.pasteActive = false ∧ key = keyPasteStart
  · rw [if_pos hstart, show keyMachine.handle s key = _ from (if_neg hnot).trans (if_pos hstart)]
    exact returns_some ⟨rfl, hok, hpos, rfl⟩
  rw [if_neg hstart]
  by_cases hstop : t.pasteActive = true ∧ key = keyPasteEnd
  · rw [if_pos hstop, show keyMachine.handle s key = _ from
      (if_neg hnot).trans ((if_neg hstart).trans (if_pos hstop))]
    exact returns_some ⟨rfl, hok, hpos, rfl⟩
  rw [if_neg hstop, show keyMachine.handle s key = _ from
    (if_neg hnot).trans ((if_neg hstart).trans (if_neg hstop)), hstep]
  dsimp only at hout href ⊢
  rw [← hout]
  cases out with
  | none => exact returns_some ⟨rfl, href⟩
  | some line => exact returns_some ⟨rfl, href.flush.addToHistory line⟩

end Refines

/-! ## What is seen -/

/-- All events but printable characters and the read that waits. -/
def Event.visible : Event → Bool
  | .key k => !(Editor.isPrintable k && decide (k ≠ keyBackspace))
  | .wait => false
  | _ => true

/-- Control keys and events that may occur or not. -/
inductive Kind
  | key (key : ℕ)
  | resize
  | fail

/-- Enter, `Write` and a `SetSize` without a new width may occur always. -/
def Event.Allowed (w : ℕ) (S : Set Kind) : Event → Prop
  | .key k => k = keyEnter ∨ Kind.key k ∈ S
  | .wait => True
  | .write _ => True
  | .setSize width _ => Screen.newWidth width = w ∨ Kind.resize ∈ S
  | .fail => Kind.fail ∈ S

/-- Nothing can be seen of the printable characters, whatever the state of the terminal, as
    long as there are only control keys and events of `S`. -/
def Secret (callback : Option AutoCompleteCallback) (S : Set Kind) : Prop :=
  ∀ (t : Screen) (prompt : GoString) (es es' : List Event) (later : List (List Event)),
    0 < t.display.termWidth → t.display.cursorX < t.display.termWidth → t.pos ≤ t.line.len →
    es.filter Event.visible = es'.filter Event.visible →
    (∀ e ∈ es.filter Event.visible, e.Allowed t.display.termWidth S) →
    ∃ out, t.observe callback prompt es later = some out ∧
      t.observe callback prompt es' later = some out

/-- The condition on the control keys and events. -/
structure Safe (S : Set Kind) : Prop where
  ctrlD : Kind.key keyCtrlD ∉ S
  up : Kind.key keyUp ∉ S
  resize : Kind.resize ∉ S
  fail : Kind.fail ∉ S
  deleteLine : Kind.key keyDeleteLine ∈ S →
    Kind.key keyLeft ∉ S ∧ Kind.key keyHome ∉ S ∧ Kind.key keyAltLeft ∉ S

/-! ## Displays that differ in what is queued -/

namespace Display

/-- The same bytes, of which more or less are queued. -/
structure Agree (d d' : Display) : Prop where
  eq : d' = { d with outBuf := d'.outBuf, sent := d'.sent }
  bytes_eq : d'.sent ++ d'.outBuf = d.sent ++ d.outBuf

variable {w : ℕ} {d d' : Display}

theorem Agree.refl (d : Display) : Agree d d := ⟨rfl, rfl⟩

theorem Agree.symm (h : Agree d d') : Agree d' d := ⟨by rw [h.eq], h.bytes_eq.symm⟩

theorem Agree.flush_eq (h : Agree d d') : d'.flush = d.flush := by
  unfold flush
  rw [h.bytes_eq, h.eq]

theorem Agree.flush_left (h : Agree d d') : Agree d.flush d' := by
  refine ⟨by rw [h.eq]; rfl, ?_⟩
  rw [h.bytes_eq]
  exact (List.append_nil _).symm

theorem Agree.within (h : Agree d d') (hok : d.Within w) : d'.Within w := by
  rw [h.eq]
  exact ⟨hok.width_eq, hok.width_pos, hok.cursor_lt⟩

theorem Agree.queue (h : Agree d d') (data : List ℕ) : Agree (d.queue data) (d'.queue data) := by
  refine ⟨?_, ?_⟩
  · rw [h.eq]
    rfl
  · show d'.sent ++ (d'.outBuf ++ _) = d.sent ++ (d.outBuf ++ _)
    rw [← List.append_assoc, h.bytes_eq, List.append_assoc]

/-- The cursor is put somewhere. -/
theorem Agree.cursor (h : Agree d d') (x y : ℕ) :
    Agree { d with cursorX := x, cursorY := y } { d' with cursorX := x, cursorY := y } :=
  ⟨by rw [h.eq], h.bytes_eq⟩

theorem Agree.maxLine (h : Agree d d') (maxLine : ℕ) :
    Agree { d with maxLine := maxLine } { d' with maxLine := maxLine } :=
  ⟨by rw [h.eq], h.bytes_eq⟩

theorem Agree.advanceCursor (h : Agree d d') (hok : d.Within w) (places : ℕ) :
    Returns₂ (d.advanceCursor places) (d'.advanceCursor places)
      fun d₁ d₁' => Agree d₁ d₁' ∧ d₁.Within w := by
  unfold Display.advanceCursor
  rw [if_neg hok.width_pos.ne', if_neg (h.within hok).width_pos.ne']
  refine returns₂_some ⟨⟨?_, ?_⟩, hok.width_eq, hok.width_pos, Nat.mod_lt _ hok.width_pos⟩
  · rw [h.eq]
  · dsimp only
    rw [← List.append_assoc, h.bytes_eq, List.append_assoc, h.eq]

theorem Agree.blank (h : Agree d d') (hok : d.Within w) (n : ℕ) :
    Returns₂ (Display.blank n d) (Display.blank n d') fun d₁ d₁' => Agree d₁ d₁' ∧ d₁.Within w := by
  induction n generalizing d d' with
  | zero => exact returns₂_some ⟨h, hok⟩
  | succ n ih =>
    refine ((h.queue [32]).advanceCursor (hok.queue [32]) 1).bind ?_
    rintro d₁ d₁' ⟨h₁, hok₁⟩
    exact ih h₁ hok₁

end Display

/-! ## Two calls -/

namespace Screen

variable {w : ℕ} {K : Prop} {t t' : Screen}

/-- Two calls that read a password: the same but for the line and the position, and for what
    is queued. If `K` holds, the same characters stand behind the position. -/
structure Hidden (w : ℕ) (K : Prop) (t t' : Screen) : Prop where
  eq : t' = { t with display := t'.display, line := t'.line, pos := t'.pos }
  agree : t.display.Agree t'.display
  echo_eq : t.echo = false
  ok : t.display.Within w
  pos_le : t.pos ≤ t.line.len
  pos_le' : t'.pos ≤ t'.line.len
  rest_eq : K → t'.line.elems.drop t'.pos = t.line.elems.drop t.pos

theorem Hidden.refl (hecho : t.echo = false) (hok : t.display.Within w)
    (hpos : t.pos ≤ t.line.len) :
    Hidden w K t t :=
  ⟨rfl, .refl _, hecho, hok, hpos, hpos, fun _ => rfl⟩

theorem Hidden.symm (h : Hidden w K t t') : Hidden w K t' t where
  eq := by rw [h.eq]
  agree := h.agree.symm
  echo_eq := by rw [h.eq]; exact h.echo_eq
  ok := h.agree.within h.ok
  pos_le := h.pos_le'
  pos_le' := h.pos_le
  rest_eq hK := (h.rest_eq hK).symm

/-- Nothing has been done. -/
theorem Echoes.refl (hok : t.display.Within w) : Echoes w t t.line.elems t.pos t :=
  ⟨⟨rfl, rfl, hok⟩, fun _ => rfl⟩

/-- The calls go on, each without echo. -/
theorem Hidden.of_echoes (h : Hidden w K t t') {line line' : List ℕ} {pos pos' : ℕ}
    {t₁ t₁' : Screen}
    (h₁ : Echoes w t line pos t₁) (h₁' : Echoes w t' line' pos' t₁') (hle : pos ≤ line.length)
    (hle' : pos' ≤ line'.length) (hrest : K → line'.drop pos' = line.drop pos) :
    Hidden w K t₁ t₁' where
  eq := by rw [h₁'.eq, h₁.eq, h.eq]
  agree := by
    rw [h₁.silent h.echo_eq, h₁'.silent h.symm.echo_eq]
    exact h.agree
  echo_eq := by rw [h₁.echo_eq, h.echo_eq]
  ok := h₁.ok
  pos_le := by rw [h₁.pos_eq, h₁.len_eq]; exact hle
  pos_le' := by rw [h₁'.pos_eq, h₁'.len_eq]; exact hle'
  rest_eq hK := by rw [h₁.line_eq, h₁.pos_eq, h₁'.line_eq, h₁'.pos_eq, hrest hK]

/-- One of the calls goes on. -/
theorem Hidden.of_echoes_left (h : Hidden w K t t') {line : List ℕ} {pos : ℕ} {t₁ : Screen}
    (h₁ : Echoes w t line pos t₁) (hle : pos ≤ line.length)
    (hrest : line.drop pos = t.line.elems.drop t.pos) : Hidden w K t₁ t' := by
  refine h.of_echoes h₁ (Echoes.refl h.symm.ok) hle ?_ fun hK => ?_
  · rw [Slice.length_elems]
    exact h.pos_le'
  · rw [h.rest_eq hK, hrest]

/-- When both lines are empty again, what is queued is all that is left of the difference. -/
theorem Hidden.same_flush (h : Hidden w K t t') (hline : t'.line.elems = t.line.elems)
    (hpos : t'.pos = t.pos) : Same t.flush t'.flush := by
  refine ⟨?_, hline, ⟨rfl, h.ok.width_pos, h.ok.cursor_lt⟩, h.pos_le⟩
  unfold flush
  rw [h.agree.flush_eq, h.eq, hpos]
  rfl

/-! ### Keys that show nothing -/

/-- A change of what stands before the position, shown only with echo. -/
def Keeps (w : ℕ) (t : Screen) (x : Option Screen) : Prop :=
  Returns x fun t₁ => ∃ line pos, Echoes w t line pos t₁ ∧ pos ≤ line.length ∧
    line.drop pos = t.line.elems.drop t.pos

theorem some_keeps (hok : t.display.Within w) (hpos : t.pos ≤ t.line.len) : Keeps w t (some t) :=
  returns_some ⟨_, _, Echoes.refl hok, by rw [Slice.length_elems]; exact hpos, rfl⟩

theorem eraseNPreviousChars_keeps (hok : t.display.Within w) (hpos : t.pos ≤ t.line.len) (n : ℕ) :
    Keeps w t (t.eraseNPreviousChars n) := by
  have hlen : (t.line.elems.take (t.pos - n)).length = t.pos - n := by
    rw [List.length_take, Slice.length_elems]
    omega
  refine (eraseNPreviousChars_returns hok hpos n).mono fun t₁ h₁ => ⟨_, _, h₁, ?_, ?_⟩
  · rw [List.length_append, hlen]
    exact Nat.le_add_right _ _
  · exact List.drop_left' hlen

theorem addKeyToLine_keeps (hok : t.display.Within w) (hpos : t.pos ≤ t.line.len) (key : ℕ) :
    Keeps w t (t.addKeyToLine key) := by
  have hlen : (t.line.elems.take t.pos ++ [key]).length = t.pos + 1 := by
    rw [List.length_append, List.length_take, Slice.length_elems, List.length_singleton]
    omega
  refine (addKeyToLine_returns hok hpos key).mono fun t₁ h₁ => ⟨_, _, h₁, ?_, ?_⟩
  · rw [List.append_cons, List.length_append, hlen]
    exact Nat.le_add_right _ _
  · rw [List.append_cons]
    exact List.drop_left' hlen

theorem typeKey_keeps (hok : t.display.Within w) (hpos : t.pos ≤ t.line.len) (key : ℕ) :
    Keeps w t (t.typeKey key) := by
  unfold typeKey
  split_ifs
  · exact some_keeps hok hpos
  · exact some_keeps hok hpos
  · exact addKeyToLine_keeps hok hpos key

/-- A printable character. -/
theorem handleKey_printable {key : ℕ} (hprint : Editor.isPrintable key = true)
    (hne : key ≠ keyBackspace) :
    t.handleKey none key =
      (if t.pasteActive = true then t.addKeyToLine key else t.typeKey key).map (·, none) := by
  rw [handleKey]
  by_cases hpaste : t.pasteActive = true
  · have henter : key ≠ keyEnter := Editor.ne_of_isPrintable hprint (by decide)
    rw [if_pos hpaste, keyCase_of_pasted ⟨hpaste, henter⟩]
    rfl
  · rw [if_neg hpaste, keyCase_of_typed (Bool.eq_false_iff.mpr hpaste),
      Editor.switchCase_of_isPrintable hprint hne]
    rfl

/-! ### Keys in both calls -/

/-- After a key: both calls go on, or both have a line, with nothing left of it. -/
inductive Beside (w : ℕ) (K : Prop) : Screen × Option GoString → Screen × Option GoString → Prop
  | go {t t' : Screen} (h : Hidden w K t t') : Beside w K (t, none) (t', none)
  | line {t t' : Screen} (h : Hidden w K t t') (hline : t'.line.elems = t.line.elems)
      (hpos : t'.pos = t.pos) (l l' : GoString) : Beside w K (t, some l) (t', some l')

theorem Beside.of_hidden {x x' : Option Screen} (h : Returns₂ x x' (Hidden w K)) :
    Returns₂ (x.map (·, none)) (x'.map (·, none)) (Beside w K) :=
  h.map fun _ _ => Beside.go

theorem Hidden.of_keeps (h : Hidden w K t t') {x x' : Option Screen} (hx : Keeps w t x)
    (hx' : Keeps w t' x') : Returns₂ x x' (Hidden w K) := by
  refine hx.both hx' ?_
  rintro t₁ t₁' ⟨line, pos, h₁, hle, hrest⟩ ⟨line', pos', h₁', hle', hrest'⟩
  exact h.of_echoes h₁ h₁' hle hle' fun hK => by rw [hrest', hrest, h.rest_eq hK]

/-- The cursor moves, in both calls. -/
theorem Hidden.of_moves (h : Hidden w K t t') {x x' : Option Screen} {pos pos' : ℕ}
    (hx : Returns x (Echoes w t t.line.elems pos))
    (hx' : Returns x' (Echoes w t' t'.line.elems pos'))
    (hle : pos ≤ t.line.len) (hle' : pos' ≤ t'.line.len)
    (hrest : K → t'.line.elems.drop pos' = t.line.elems.drop pos) : Returns₂ x x' (Hidden w K) :=
  hx.both hx' fun _ _ h₁ h₁' => h.of_echoes h₁ h₁' (by rw [Slice.length_elems]; exact hle)
    (by rw [Slice.length_elems]; exact hle') hrest

/-- The cursor moves, unless it is at its place. -/
theorem moveTo_or_stay_returns (hok : t.display.Within w) {pos : ℕ} {c : Prop} [Decidable c]
    (hc : c → t.pos = pos) :
    Returns (if c then some t else t.moveTo pos) (Echoes w t t.line.elems pos) := by
  split_ifs with hstay
  · rw [← hc hstay]
    exact returns_some (Echoes.refl hok)
  · exact moveTo_returns hok pos

/-- The cursor moves right, unless it is at the end. -/
theorem moveRight_returns (hok : t.display.Within w) (hpos : t.pos ≤ t.line.len) :
    Returns (if t.pos = t.line.len then some t else t.moveTo (t.pos + 1))
      (Echoes w t t.line.elems (min (t.pos + 1) t.line.len)) := by
  split_ifs with hend
  · rw [hend, min_eq_right (Nat.le_succ _), ← hend]
    exact returns_some (Echoes.refl hok)
  · rw [min_eq_left (by omega)]
    exact moveTo_returns hok _

theorem rest_of_moveRight (t : Screen) :
    t.line.elems.drop (min (t.pos + 1) t.line.len) = (t.line.elems.drop t.pos).drop 1 := by
  rw [List.drop_drop, List.drop_eq_drop_iff, Slice.length_elems]
  omega

/-- What stands behind the position says where the next word is. -/
theorem countToRightWord_of_rest (hrest : t'.line.elems.drop t'.pos = t.line.elems.drop t.pos) :
    t'.countToRightWord = t.countToRightWord := by
  unfold countToRightWord
  dsimp only
  rw [← List.drop_drop, ← List.drop_drop, hrest]

theorem setEntry_hidden (h : Hidden w K t t') (entry : GoString) :
    Returns₂ (t.setEntry entry) (t'.setEntry entry) (Hidden w K) :=
  (setLine_returns h.ok _ _).both (setLine_returns h.symm.ok _ _) fun _ _ h₁ h₁' =>
    h.of_echoes h₁ h₁' (by rw [Slice.elems_ofList]) (by rw [Slice.elems_ofList]) fun _ => rfl

theorem Hidden.withHistory (h : Hidden w K t t') (index : ℤ) (hge : -1 ≤ index) :
    Hidden w K { t with historyIndex := index, index_ge := hge }
      { t' with historyIndex := index, index_ge := hge } :=
  ⟨by rw [h.eq], h.agree, h.echo_eq, h.ok, h.pos_le, h.pos_le', h.rest_eq⟩

theorem historyDown_hidden (h : Hidden w K t t') :
    Returns₂ t.historyDown t'.historyDown (Hidden w K) :=
  historyDown_rel h h.eq (fun _ _ hs => hs.withHistory) fun _ _ hs => setEntry_hidden hs

/-! ### Keys that show something -/

/-- The same is queued in both calls. -/
theorem paint_hidden (h : Hidden w K t t') {f : Display → Option Display}
    (hf : Returns₂ (f t.display) (f t'.display) fun d d' => d.Agree d' ∧ d.Within w) :
    Returns₂ (t.paint f) (t'.paint f) (Hidden w K) := by
  refine hf.map fun d d' hd => ?_
  refine ⟨?_, hd.1, h.echo_eq, hd.2, h.pos_le, h.pos_le', h.rest_eq⟩
  rw [h.eq]
  rfl

theorem moveCursorToPos_silent (hecho : t.echo = false) (pos : ℕ) :
    t.moveCursorToPos pos = some t :=
  if_pos hecho

theorem endLine_hidden (h : Hidden w K t t') {line line' : Slice ℕ} (hline : line.elems = [])
    (hline' : line'.elems = []) :
    Returns₂ (t.endLine line) (t'.endLine line') fun t₁ t₁' =>
      Hidden w K t₁ t₁' ∧ t₁'.line.elems = t₁.line.elems ∧ t₁'.pos = t₁.pos := by
  have hline_eq : line'.elems = line.elems := hline'.trans hline.symm
  unfold endLine
  rw [moveCursorToPos_silent h.echo_eq, moveCursorToPos_silent h.symm.echo_eq]
  refine returns₂_some ⟨⟨?_, ((h.agree.queue _).cursor 0 0).maxLine 0, h.echo_eq,
    ⟨h.ok.width_eq, h.ok.width_pos, h.ok.width_pos⟩, Nat.zero_le _, Nat.zero_le _,
      fun _ => hline_eq⟩, hline_eq, rfl⟩
  rw [h.eq]

/-- As many spaces are written as there are characters behind the position. -/
theorem deleteLine_hidden (h : Hidden w K t t') (hK : K) :
    Returns₂ t.deleteLine t'.deleteLine (Hidden w K) := by
  have hspaces : t'.line.len - t'.pos = t.line.len - t.pos := by
    have hrest := congrArg List.length (h.rest_eq hK)
    rwa [List.length_drop, List.length_drop, Slice.length_elems, Slice.length_elems] at hrest
  have hcut : ∀ t₁ : Screen, t₁.display.Within w → t₁.pos ≤ t₁.line.len → Returns (do
      let line ← t₁.line.upTo t₁.pos
      moveCursorToPos { t₁ with line := line } t₁.pos)
      (Echoes w t₁ (t₁.line.elems.take t₁.pos) t₁.pos) := fun t₁ hok₁ hpos₁ =>
    (Slice.upTo_spec hpos₁).bind fun line₂ h₂ => by
      have hset : Echoes w t₁ (t₁.line.elems.take t₁.pos) t₁.pos { t₁ with line := line₂ } :=
        ⟨⟨rfl, h₂, hok₁⟩, fun _ => rfl⟩
      refine (moveTo_returns (t := { t₁ with line := line₂ }) hok₁ t₁.pos).mono fun t₃ h₃ => ?_
      rw [← h₂]
      rw [← h₂] at hset
      exact hset.trans h₃
  unfold deleteLine
  rw [hspaces]
  refine (paint_hidden h (h.agree.blank h.ok _)).bind fun t₁ t₁' h₁ => ?_
  have hlen : ∀ t₂ : Screen, t₂.pos ≤ t₂.line.len →
      (t₂.line.elems.take t₂.pos).length = t₂.pos := by
    intro t₂ hpos₂
    rw [List.length_take, Slice.length_elems]
    exact min_eq_left hpos₂
  refine (hcut t₁ h₁.ok h₁.pos_le).both (hcut t₁' h₁.symm.ok h₁.pos_le') fun t₂ t₂' h₂ h₂' => ?_
  refine h₁.of_echoes h₂ h₂' (hlen t₁ h₁.pos_le).ge (hlen t₁' h₁.pos_le').ge fun _ => ?_
  rw [List.drop_of_length_le (hlen t₁ h₁.pos_le).le,
    List.drop_of_length_le (hlen t₁' h₁.pos_le').le]

theorem clearScreen_hidden (h : Hidden w K t t') :
    Returns₂ t.clearScreen t'.clearScreen (Hidden w K) := by
  have hprompt : t'.prompt = t.prompt := by rw [h.eq]
  unfold clearScreen
  rw [hprompt]
  have hhome := ((h.agree.queue [27, 91, 50, 74, 27, 91, 72]).queue t.prompt).cursor 0 0
  refine (paint_hidden h (hhome.advanceCursor ?_ _)).bind fun t₁ t₁' h₁ => ?_
  · exact ⟨h.ok.width_eq, h.ok.width_pos, h.ok.width_pos⟩
  · refine (setLine_returns h₁.ok _ _).both (setLine_returns h₁.symm.ok _ _) fun t₂ t₂' h₂ h₂' => ?_
    refine h₁.of_echoes h₂ h₂' ?_ ?_ h₁.rest_eq
    · rw [Slice.length_elems]
      exact h₁.pos_le
    · rw [Slice.length_elems]
      exact h₁.pos_le'

theorem handleCase_hidden {S : Set Kind} (hsafe : Safe S) {c : KeyCase}
    (hc : c.key = keyEnter ∨ Kind.key c.key ∈ S) (h : Hidden w (Kind.key keyDeleteLine ∈ S) t t') :
    Returns₂ (t.handleCase none c) (t'.handleCase none c)
      (Beside w (Kind.key keyDeleteLine ∈ S)) := by
  have hpos := h.pos_le
  have hpos' := h.pos_le'
  have hrest := h.rest_eq
  have hkeeps := @Hidden.of_keeps w (Kind.key keyDeleteLine ∈ S) t t' h
  have herase : ∀ n n', Returns₂ (t.eraseNPreviousChars n) (t'.eraseNPreviousChars n')
      (Hidden w (Kind.key keyDeleteLine ∈ S)) := fun n n' =>
    hkeeps (eraseNPreviousChars_keeps h.ok hpos n) (eraseNPreviousChars_keeps h.symm.ok hpos' n')
  cases c with
  | pasted key =>
    exact Beside.of_hidden
      (hkeeps (addKeyToLine_keeps h.ok hpos key) (addKeyToLine_keeps h.symm.ok hpos' key))
  | backspace =>
    refine Beside.of_hidden (hkeeps ?_ ?_)
    · split_ifs
      · exact some_keeps h.ok hpos
      · exact eraseNPreviousChars_keeps h.ok hpos 1
    · split_ifs
      · exact some_keeps h.symm.ok hpos'
      · exact eraseNPreviousChars_keeps h.symm.ok hpos' 1
  | altLeft =>
    rw [handleCase, handleCase, countToLeftWord_eq hpos, countToLeftWord_eq hpos']
    refine Beside.of_hidden (h.of_moves (moveTo_returns h.ok _) (moveTo_returns h.symm.ok _)
      (by omega) (by omega) fun hK => ?_)
    exact absurd (hc.resolve_left (by decide)) (hsafe.deleteLine hK).2.2
  | altRight =>
    have hle := (t.editor hpos).pos_add_countToRightWord_le
    have hle' := (t'.editor hpos').pos_add_countToRightWord_le
    refine Beside.of_hidden (h.of_moves (moveTo_returns h.ok _) (moveTo_returns h.symm.ok _)
      (hle.trans t.line.length_elems.le) (hle'.trans t'.line.length_elems.le) fun hK => ?_)
    rw [countToRightWord_of_rest (hrest hK), ← List.drop_drop, ← List.drop_drop, hrest hK]
  | left =>
    refine Beside.of_hidden (h.of_moves (moveTo_or_stay_returns h.ok fun _ => by omega)
      (moveTo_or_stay_returns h.symm.ok fun _ => by omega) (by omega) (by omega) fun hK => ?_)
    exact absurd (hc.resolve_left (by decide)) (hsafe.deleteLine hK).1
  | right =>
    refine Beside.of_hidden (h.of_moves (moveRight_returns h.ok hpos)
      (moveRight_returns h.symm.ok hpos') (min_le_right _ _) (min_le_right _ _) fun hK => ?_)
    rw [rest_of_moveRight, rest_of_moveRight, hrest hK]
  | home =>
    refine Beside.of_hidden (h.of_moves (moveTo_or_stay_returns h.ok id)
      (moveTo_or_stay_returns h.symm.ok id) (Nat.zero_le _) (Nat.zero_le _) fun hK => ?_)
    exact absurd (hc.resolve_left (by decide)) (hsafe.deleteLine hK).2.1
  | toEnd =>
    refine Beside.of_hidden (h.of_moves (moveTo_or_stay_returns h.ok id)
      (moveTo_or_stay_returns h.symm.ok id) le_rfl le_rfl fun _ => ?_)
    rw [List.drop_of_length_le t.line.length_elems.le,
      List.drop_of_length_le t'.line.length_elems.le]
  | up => exact absurd (hc.resolve_left (by decide)) hsafe.up
  | down => exact Beside.of_hidden (historyDown_hidden h)
  | ctrlC => exact (endLine_hidden h rfl rfl).map fun _ _ h₁ => .line h₁.1 h₁.2.1 h₁.2.2 _ _
  | enter =>
    refine ((Slice.upTo_spec (Nat.zero_le _)).both (Slice.upTo_spec (Nat.zero_le _))
      fun line₁ line₁' h₁ h₁' => And.intro h₁ h₁').bind fun line₁ line₁' h₁ => ?_
    exact (endLine_hidden h h₁.1 h₁.2).bind fun _ _ h₂ =>
      returns₂_some (.line h₂.1 h₂.2.1 h₂.2.2 _ _)
  | deleteWord =>
    rw [handleCase, handleCase, countToLeftWord_eq hpos, countToLeftWord_eq hpos']
    exact Beside.of_hidden (herase _ _)
  | deleteLine => exact Beside.of_hidden (deleteLine_hidden h (hc.resolve_left (by decide)))
  | ctrlD => exact absurd (hc.resolve_left (by decide)) hsafe.ctrlD
  | ctrlU => exact Beside.of_hidden (herase _ _)
  | clearScreen => exact Beside.of_hidden (clearScreen_hidden h)
  | other key =>
    exact Beside.of_hidden
      (hkeeps (typeKey_keeps h.ok hpos key) (typeKey_keeps h.symm.ok hpos' key))

/-- A key in both calls. -/
theorem handleKey_hidden {S : Set Kind} (hsafe : Safe S) {key : ℕ}
    (hkey : key = keyEnter ∨ Kind.key key ∈ S) (h : Hidden w (Kind.key keyDeleteLine ∈ S) t t') :
    Returns₂ (t.handleKey none key) (t'.handleKey none key)
      (Beside w (Kind.key keyDeleteLine ∈ S)) := by
  have hpaste : t'.pasteActive = t.pasteActive := by rw [h.eq]
  rw [handleKey, handleKey, hpaste]
  refine handleCase_hidden hsafe ?_ h
  rwa [← key_of_keyCase rfl]

/-! ### Events in both calls -/

theorem Hidden.pasteActive_eq (h : Hidden w K t t') : t'.pasteActive = t.pasteActive := by rw [h.eq]

theorem Hidden.withPaste (h : Hidden w K t t') (active : Bool) :
    Hidden w K { t with pasteActive := active } { t' with pasteActive := active } :=
  ⟨by rw [h.eq], h.agree, h.echo_eq, h.ok, h.pos_le, h.pos_le', h.rest_eq⟩

theorem Hidden.flush_left (h : Hidden w K t t') : Hidden w K t.flush t' :=
  ⟨by rw [h.eq]; rfl, h.agree.flush_left, h.echo_eq, h.ok.flush, h.pos_le, h.pos_le', h.rest_eq⟩

theorem Hidden.flush (h : Hidden w K t t') : Hidden w K t.flush t'.flush :=
  h.flush_left.symm.flush_left.symm

theorem Hidden.withDisplay (h : Hidden w K t t') {d : Display} (hd : d.Within w) :
    Hidden w K (t.withDisplay d) (t'.withDisplay d) := by
  refine ⟨?_, .refl d, h.echo_eq, hd, h.pos_le, h.pos_le', h.rest_eq⟩
  rw [h.eq]
  rfl

theorem addToHistory_silent (hecho : t.echo = false) (line : GoString) :
    t.addToHistory line = t := by
  rw [addToHistory, hecho]
  rfl

theorem readKey_hidden {S : Set Kind} (hsafe : Safe S) {key : ℕ}
    (hkey : key = keyEnter ∨ Kind.key key ∈ S) (h : Hidden w (Kind.key keyDeleteLine ∈ S) t t') :
    Returns₂ (t.readKey none key) (t'.readKey none key)
      (Alike (Hidden w (Kind.key keyDeleteLine ∈ S)) Same) := by
  have hnot : ∀ u : Screen, ¬ (u.pasteActive = false ∧ key = keyCtrlD ∧ u.line.len = 0) := by
    rintro u ⟨-, rfl, -⟩
    exact hkey.elim (by decide) hsafe.ctrlD
  unfold readKey
  rw [if_neg (hnot t), if_neg (hnot t')]
  refine Returns₂.ite (by rw [h.pasteActive_eq]) (fun _ => ?_) fun _ => ?_
  · exact returns₂_some (Alike.go (h.withPaste true))
  refine Returns₂.ite (by rw [h.pasteActive_eq]) (fun _ => ?_) fun _ => ?_
  · exact returns₂_some (Alike.go (h.withPaste false))
  refine (handleKey_hidden hsafe hkey h).bind fun r r' hr => ?_
  cases hr with
  | go h₁ => exact returns₂_some (Alike.go h₁)
  | line h₁ hline hpos l l' =>
    refine returns₂_some (Alike.stop ?_)
    rw [addToHistory_silent h₁.flush.echo_eq, addToHistory_silent h₁.flush.symm.echo_eq]
    exact h₁.same_flush hline hpos

theorem write_hidden (h : Hidden w K t t') (buf : GoString) :
    Returns₂ (t.flush.write buf) (t'.flush.write buf) (Hidden w K) := by
  have hflush := h.flush
  have hdisplay : t'.flush.display = t.flush.display := h.agree.flush_eq
  have hprompt : t'.flush.prompt = t.flush.prompt := by rw [hflush.eq]
  generalize t.flush = u at *
  generalize t'.flush = u' at *
  unfold write
  rw [hdisplay, hprompt]
  refine Returns₂.ite Iff.rfl (fun _ => ?_) fun _ => ?_
  · exact returns₂_some (hflush.withDisplay (hflush.ok.writeWithCRLF buf))
  have hshow : ∀ d : Display, d.Within w → Returns₂
      (do let t ← (u.withDisplay d).moveCursorToPos u.pos
          return t.withDisplay t.display.flush)
      (do let t ← (u'.withDisplay d).moveCursorToPos u'.pos
          return t.withDisplay t.display.flush) (Hidden w K) := fun d hd => by
    have hshown := hflush.withDisplay hd
    rw [moveCursorToPos_silent hshown.echo_eq, moveCursorToPos_silent hshown.symm.echo_eq]
    exact returns₂_some hshown.flush
  refine ((hflush.ok.clearLine.writeWithCRLF buf).writeLine u.prompt).bind₂ fun d hd => ?_
  rw [hflush.echo_eq, hflush.symm.echo_eq]
  exact hshow d hd

theorem setSize_hidden (h : Hidden w K t t') {width : ℕ} (hwidth : newWidth width = w)
    (height : ℕ) :
    Returns₂ (t.flush.setSize width height) (t'.flush.setSize width height) (Hidden w K) := by
  have hdisplay : t'.flush.display = t.flush.display := h.agree.flush_eq
  have hok : t.flush.display.Within w := h.flush.ok
  unfold setSize
  rw [hdisplay]
  dsimp only
  have hsame : newWidth width = t.flush.display.termWidth := by rw [hwidth, hok.width_eq]
  rw [if_pos hsame, if_pos hsame]
  refine returns₂_some (h.flush.withDisplay ⟨hwidth, newWidth_pos width, ?_⟩)
  rw [hsame]
  exact hok.cursor_lt

theorem readKey_printable {key : ℕ} (hprint : Editor.isPrintable key = true)
    (hne : key ≠ keyBackspace) (h : Hidden w K t t') :
    Returns (t.readKey none key) fun r => r.2 = false ∧ Hidden w K r.1 t' := by
  have hkeys : ∀ k, Editor.isPrintable k = false → key ≠ k :=
    fun _ => Editor.ne_of_isPrintable hprint
  have hkeeps : Keeps w t (if t.pasteActive = true then t.addKeyToLine key else t.typeKey key) := by
    split_ifs
    · exact addKeyToLine_keeps h.ok h.pos_le key
    · exact typeKey_keeps h.ok h.pos_le key
  unfold readKey
  rw [if_neg fun hand => hkeys keyCtrlD (by decide) hand.2.1,
    if_neg fun hand => hkeys keyPasteStart (by decide) hand.2,
    if_neg fun hand => hkeys keyPasteEnd (by decide) hand.2, handleKey_printable hprint hne]
  obtain ⟨t₁, ht₁, line, pos, hecho, hle, hrest⟩ := hkeeps
  rw [ht₁]
  exact returns_some ⟨rfl, h.of_echoes_left hecho hle hrest⟩

/-- What the events do in two calls that read a password. -/
theorem hidden_unwinds {S : Set Kind} (hsafe : Safe S) (w : ℕ) :
    Unwinds (event none) Event.visible (Event.Allowed w S) (Hidden w (Kind.key keyDeleteLine ∈ S))
      Same where
  symm := Hidden.symm
  hidden_step := by
    intro t t' e h hhidden
    cases e with
    | key key =>
      simp only [Event.visible, Bool.not_eq_eq_eq_not, Bool.not_false, Bool.and_eq_true,
        decide_eq_true_eq] at hhidden
      exact readKey_printable hhidden.1 hhidden.2 h
    | wait => exact returns_some ⟨rfl, h.flush_left⟩
    | write buf => cases hhidden
    | setSize width height => cases hhidden
    | fail => cases hhidden
  visible_step := by
    intro t t' e h _ hallowed
    cases e with
    | key key => exact readKey_hidden hsafe hallowed h
    | wait => exact returns₂_some (Alike.go h.flush)
    | write buf => exact (write_hidden h buf).map fun _ _ => Alike.go
    | setSize width height =>
      exact (setSize_hidden h (hallowed.resolve_right hsafe.resize) height).map fun _ _ => Alike.go
    | fail => exact absurd hallowed hsafe.fail

/-! ### Later calls -/

theorem Same.addToHistory (h : Same t t') (line : GoString) :
    Same (t.addToHistory line) (t'.addToHistory line) := by
  unfold Screen.addToHistory
  obtain ⟨line', rfl, -⟩ := h.exists_line
  dsimp only
  split_ifs
  · exact ⟨rfl, h.elems_eq, h.ok, h.pos_le⟩
  · exact h

theorem Same.withPaste (h : Same t t') (active : Bool) :
    Same { t with pasteActive := active } { t' with pasteActive := active } :=
  ⟨by rw [h.eq], h.elems_eq, h.ok, h.pos_le⟩

theorem readKey_same (h : Same t t') (key : ℕ) :
    Returns₂ (t.readKey none key) (t'.readKey none key) (Alike Same Same) := by
  have hpaste : t'.pasteActive = t.pasteActive := by rw [h.eq]
  unfold readKey
  refine Returns₂.ite (by rw [hpaste, h.len_eq]) (fun _ => returns₂_some (Alike.stop h)) fun _ => ?_
  refine Returns₂.ite (by rw [hpaste]) (fun _ => returns₂_some (Alike.go (h.withPaste true)))
    fun _ => ?_
  refine Returns₂.ite (by rw [hpaste]) (fun _ => returns₂_some (Alike.go (h.withPaste false)))
    fun _ => ?_
  refine (handleKey_same h key).bind ?_
  rintro ⟨t₁, out⟩ ⟨t₁', out'⟩ ⟨h₁, hout⟩
  dsimp only at h₁ hout
  subst hout
  cases out' with
  | none => exact returns₂_some (Alike.go h₁)
  | some line => exact returns₂_some (Alike.stop (h₁.flush.addToHistory line))

/-- Nothing is hidden any more. -/
theorem same_unwinds : Unwinds (event none) (fun _ => true) (fun _ => True) Same Same where
  symm := Same.symm
  hidden_step _ hhidden := absurd hhidden.symm Bool.false_ne_true
  visible_step := by
    intro t t' e h _ _
    cases e with
    | key key => exact readKey_same h key
    | wait => exact returns₂_some (Alike.go h.flush)
    | write buf => exact (write_same h.flush buf).map fun _ _ => Alike.go
    | setSize width height => exact (setSize_same h.flush width height).map fun _ _ => Alike.go
    | fail => exact returns₂_some (Alike.stop h.flush)

theorem readLine_same (h : Same t t') (es : List Event) :
    Returns₂ (t.readLine none es) (t'.readLine none es) (Alike Same Same) :=
  (showPrompt_same h).bind fun _ _ h₁ => same_unwinds.runUntil h₁ rfl fun _ _ => trivial

theorem readLines_same (h : Same t t') (later : List (List Event)) :
    Returns₂ (readLines none t later) (readLines none t' later) (Alike Same Same) := by
  induction later generalizing t t' with
  | nil => exact returns₂_some (Alike.stop h)
  | cons es later ih =>
    refine (readLine_same h es).bind ?_
    rintro ⟨t₁, ended⟩ ⟨t₁', ended'⟩ ⟨hended, hgoing, hfinished⟩
    dsimp only at hended hgoing hfinished
    subst hended
    cases ended' with
    | true => exact ih (hfinished rfl)
    | false => exact returns₂_some (Alike.go (hgoing rfl))

/-- The same bytes have been written. -/
theorem written_eq {R Q : Screen → Screen → Prop} {r r' : Screen × Bool} (h : Alike R Q r r')
    (hR : ∀ t t', R t t' → t'.display.flush = t.display.flush)
    (hQ : ∀ t t', Q t t' → t'.display = t.display) : written r' = written r := by
  obtain ⟨t, ended⟩ := r
  obtain ⟨t', ended'⟩ := r'
  obtain ⟨hended, hgoing, hfinished⟩ := h
  dsimp only at hended hgoing hfinished
  subst hended
  cases ended' with
  | true => exact congrArg Display.sent (hQ t t' (hfinished rfl))
  | false => exact congrArg Display.sent (hR t t' (hgoing rfl))

theorem readPassword_alike {S : Set Kind} (hsafe : Safe S) (prompt : GoString) {es es' : List Event}
    (hwidth : 0 < t.display.termWidth) (hcursor : t.display.cursorX < t.display.termWidth)
    (hpos : t.pos ≤ t.line.len) (heq : es.filter Event.visible = es'.filter Event.visible)
    (hallowed : ∀ e ∈ es.filter Event.visible, e.Allowed t.display.termWidth S) :
    Returns₂ (t.readPassword none prompt es) (t.readPassword none prompt es')
      (Alike (Hidden t.display.termWidth (Kind.key keyDeleteLine ∈ S)) Same) := by
  let t₀ : Screen := { t with prompt := runes prompt, echo := false }
  have hok : t₀.display.Within t.display.termWidth := ⟨rfl, hwidth, hcursor⟩
  have hrun : Returns₂ (readLine none t₀ es) (readLine none t₀ es')
      (Alike (Hidden t.display.termWidth (Kind.key keyDeleteLine ∈ S)) Same) := by
    refine (showPrompt_returns hok).bind₂ fun t₁ h₁ => ?_
    refine (hidden_unwinds hsafe _).runUntil (Hidden.refl ?_ h₁.ok ?_) heq hallowed
    · rw [h₁.eq]
      rfl
    · rw [h₁.pos_eq, h₁.line_eq]
      exact hpos
  refine hrun.bind ?_
  rintro ⟨t₁, ended⟩ ⟨t₁', ended'⟩ ⟨hended, hgoing, hfinished⟩
  dsimp only at hended hgoing hfinished
  subst hended
  cases ended' with
  | true =>
    have hsame := hfinished rfl
    exact returns₂_some (Alike.stop ⟨by rw [hsame.eq]; rfl, hsame.elems_eq, hsame.ok, hsame.pos_le⟩)
  | false => exact returns₂_some (Alike.go (hgoing rfl))

end Screen

theorem secret_of_safe {S : Set Kind} (hsafe : Safe S) : Secret none S := by
  intro t prompt es es' later hwidth hcursor hpos heq hallowed
  obtain ⟨r, r', hr, hr', halike⟩ :=
    Screen.readPassword_alike hsafe prompt hwidth hcursor hpos heq hallowed
  have hwritten : Screen.written r' = Screen.written r :=
    Screen.written_eq halike (fun _ _ h => h.agree.flush_eq) fun _ _ h => h.display_eq
  unfold Screen.observe
  rw [hr, hr']
  obtain ⟨t₁, ended⟩ := r
  obtain ⟨t₁', ended'⟩ := r'
  obtain ⟨hended, -, hfinished⟩ := halike
  dsimp only at hended hfinished
  subst hended
  cases ended' with
  | true =>
    obtain ⟨u, u', hu, hu', hlater⟩ := Screen.readLines_same (hfinished rfl) later
    have hwritten' : Screen.written u' = Screen.written u :=
      Screen.written_eq hlater (fun _ _ h => by rw [h.display_eq]) fun _ _ h => h.display_eq
    refine ⟨(Screen.written (t₁, true), some (Screen.written u)), ?_, ?_⟩
    · show (do let r' ← Screen.readLines none t₁ later; pure _ : Option _) = _
      rw [hu]
      rfl
    · show (do let r' ← Screen.readLines none t₁' later; pure _ : Option _) = _
      rw [hu', ← hwritten, ← hwritten']
      rfl
  | false => exact ⟨_, rfl, by rw [← hwritten]; rfl⟩

/-! ## What can be seen -/

/-- A terminal after one line has been read. -/
def Screen.listed : Screen :=
  { Screen.new (str "> ") with history := StRingBuffer.new.add (str "ls") }

/-- `SetSize` with a new width paints the line without a look at `echo`. The key Up puts the
    line aside, and Down shows it in the next call. -/
theorem password_shown :
    Screen.listed.observe none (str "pw: ") [.key 97, .key 98, .setSize 40 24] [] =
        some (str "pw: \x1b[4D\x1b[Kpw: ab", none) ∧
      Screen.listed.observe none (str "pw: ") [.key 98, .setSize 40 24] [] =
        some (str "pw: \x1b[4D\x1b[Kpw: b", none) ∧
      Screen.listed.observe none (str "pw: ") [.key 97, .key 98, .key keyUp, .key keyEnter]
        [[.key keyDown]] = some (str "pw: \x0d\n", some (str "pw: \x0d\n> ab")) ∧
      Screen.listed.observe none (str "pw: ") [.key 98, .key keyUp, .key keyEnter]
        [[.key keyDown]] = some (str "pw: \x0d\n", some (str "pw: \x0d\n> b")) := by
  decide

/-- With a character in front of the control keys, this terminal has to look the same. -/
theorem Secret.observe_eq {S : Set Kind} (h : Secret none S) (es : List Event)
    (hes : es.filter Event.visible = es) (hallowed : ∀ e ∈ es, e.Allowed 80 S)
    (later : List (List Event)) :
    Screen.listed.observe none (str "pw: ") (.key 97 :: es) later =
      Screen.listed.observe none (str "pw: ") es later := by
  have hfilter : (Event.key 97 :: es).filter Event.visible = es := hes
  obtain ⟨out, hout, hout'⟩ := h Screen.listed (str "pw: ") (.key 97 :: es) es later (by decide)
    (by decide) (by decide) (by rw [hfilter, hes]) (by rw [hfilter]; exact hallowed)
  rw [hout, hout']

theorem safe_of_secret {S : Set Kind} (h : Secret none S) : Safe S where
  ctrlD hmem := by
    have heq := h.observe_eq [.key keyCtrlD, .key keyEnter] rfl (by simp [Event.Allowed, hmem]) []
    exact absurd heq (by decide)
  up hmem := by
    -- the key Down shows the line that the key Up has put aside
    have heq := h.observe_eq [.key keyUp, .key keyEnter] rfl (by simp [Event.Allowed, hmem])
      [[.key keyDown]]
    exact absurd heq (by decide)
  resize hmem := by
    have heq := h.observe_eq [.setSize 40 24] rfl (by simp [Event.Allowed, hmem]) []
    exact absurd heq (by decide)
  fail hmem := by
    -- the line is still there for the next call
    have heq := h.observe_eq [.fail] rfl (by simp [Event.Allowed, hmem]) [[.key keyEnter]]
    exact absurd heq (by decide)
  deleteLine hdelete := by
    refine ⟨fun hmem => ?_, fun hmem => ?_, fun hmem => ?_⟩
    · have heq := h.observe_eq [.key keyLeft, .key keyDeleteLine] rfl
        (by simp [Event.Allowed, hmem, hdelete]) []
      exact absurd heq (by decide)
    · have heq := h.observe_eq [.key keyHome, .key keyDeleteLine] rfl
        (by simp [Event.Allowed, hmem, hdelete]) []
      exact absurd heq (by decide)
    · have heq := h.observe_eq [.key keyAltLeft, .key keyDeleteLine] rfl
        (by simp [Event.Allowed, hmem, hdelete]) []
      exact absurd heq (by decide)

/-- Nothing can be seen of the characters of a password, unless there is Ctrl-D, Up, a new
    width of the terminal or an error of the read, or Ctrl-K together with a key that moves
    the cursor to the left. -/
theorem secret_iff (S : Set Kind) : Secret none S ↔ Safe S := ⟨safe_of_secret, secret_of_safe⟩

end GoJump.Common
