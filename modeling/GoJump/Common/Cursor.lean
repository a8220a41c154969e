import GoJump.Common.Password
import GoJump.Lib.Run

/-!
# The place of the cursor

Every function that paints (`pkg/common/terminal.go`, lines 240–956) needs a width of at
least one and a cursor within a line of the screen: `moveCursorToPos` and `advanceCursor`
divide by the width, and a round of `writeLine` writes what fits between the cursor and the
end of the line. A `SetSize` may come at any time, also from a completion callback, and a
`Write` may fail at any of its writes to the connection.

The operations are the keys, with or without a completion callback, the prompt of
`readLine` and what it does between the keys, `Write`, `SetPrompt`, `SetEcho` and `SetSize`.
The steps of painting that these are made of are operations as well, so the invariant also
holds between them, wherever a line is written.

A callback is other code that uses the terminal; the place that it returns is between two
characters of its line, or `handleKey` would leave the position behind the end of the line.

* `Screen.event_eq_run`: what happens in `ReadLine` and `ReadPassword` are such operations.
* `Screen.op_cursorOk`: one operation, which returns.
* `Display.writeLine_eq_strict`: each round of `writeLine` takes a character.
* `cursor_invariant`: all runs from a new terminal.
-/

namespace GoJump.Common

open GoJump.Go GoJump.Lib

/-! ## Operations -/

/-- The steps of painting: the cursor moved to a place of the line, a line written, `queue`
    with `advanceCursor`, the cursor at the beginning again, the rows cleared, a new width with
    the cursor cut to it, and anything written to the connection. -/
inductive Painting
  | moveCursorToPos (pos : ℕ)
  | writeLine (line : List ℕ)
  | advanceCursor (data : List ℕ) (places : ℕ)
  | newLine (data : List ℕ)
  | clearLine
  | clearRows (numPrevLines : ℕ)
  | resize (width cursorY : ℕ)
  | output (outBuf sent : GoString)

/-- The functions that other code calls. A `Write` that fails has painted the line again or
    has not; what stays queued and what the connection has got are parameters. -/
inductive ClientOp
  | write (buf : GoString)
  | writeFails (buf : GoString) (painted : Bool) (outBuf sent : GoString)
  | setPrompt (prompt : GoString)
  | setEcho (echo : Bool)
  | setSize (width height : ℕ)

/-- What a completion callback does: it uses the terminal, and returns a line and a place
    between its characters, or that it does not complete. -/
structure Completion where
  ops : List ClientOp
  result : Option
    { r : GoString × ℕ // r.2 ≤ r.1.length ∧ (runes (r.1.take r.2)).length ≤ (runes r.1).length }

/-- The operations of a terminal; a callback gets the line, the position and the key. -/
inductive TerminalOp
  | handleKey (complete : Option (GoString → ℕ → ℕ → Completion)) (key : ℕ)
  | pasteActive (active : Bool)
  | addToHistory (line : GoString)
  | flush
  | showPrompt
  | client (op : ClientOp)
  | painting (p : Painting)

namespace Screen

def painting (t : Screen) : Painting → Option Screen
  | .moveCursorToPos pos => t.moveCursorToPos pos
  | .writeLine line => t.paint (·.writeLine line)
  | .advanceCursor data places => t.paint fun d => (d.queue data).advanceCursor places
  | .newLine data => some (t.withDisplay { t.display.queue data with cursorX := 0, cursorY := 0 })
  | .clearLine => some (t.withDisplay t.display.clearLine)
  | .clearRows numPrevLines => some (t.withDisplay (t.display.clearRows numPrevLines))
  | .resize width cursorY => some (t.withDisplay { t.display with
      termWidth := newWidth width
      cursorX := if newWidth width ≤ t.display.cursorX then newWidth width - 1
        else t.display.cursorX
      cursorY := cursorY })
  | .output outBuf sent => some (t.withDisplay { t.display with outBuf := outBuf, sent := sent })

/-- `Write` when a write to the connection fails (lines 652–695): at once when there is nothing
    on the screen, after the rows have been cleared, or after they have been painted. -/
def writeFails (t : Screen) (buf : GoString) (painted : Bool) (outBuf sent : GoString) :
    Option Screen := do
  let t' ← if t.display.cursorX = 0 ∧ t.display.cursorY = 0 then some t
    else if painted then t.write buf
    else some (t.withDisplay t.display.clearLine)
  return t'.withDisplay { t'.display with outBuf := outBuf, sent := sent }

def client (t : Screen) : ClientOp → Option Screen
  | .write buf => t.write buf
  | .writeFails buf painted outBuf sent => t.writeFails buf painted outBuf sent
  | .setPrompt prompt => some (t.setPrompt prompt)
  | .setEcho echo => some (t.setEcho echo)
  | .setSize width height => t.setSize width height

/-- The callback that does this. -/
def completing (complete : GoString → ℕ → ℕ → Completion) : AutoCompleteCallback :=
  fun t line pos key => do
  let c := complete line pos key
  let t ← run client t c.ops
  return (t, c.result.map (·.1))

def op (t : Screen) : TerminalOp → Option Screen
  | .handleKey complete key => (t.handleKey (complete.map completing) key).map Prod.fst
  | .pasteActive active => some { t with pasteActive := active }
  | .addToHistory line => some (t.addToHistory line)
  | .flush => some t.flush
  | .showPrompt => t.showPrompt
  | .client op => t.client op
  | .painting p => t.painting p

end Screen

/-! ## The operations of `readLine` -/

namespace Screen

/-- What `readLine` does with a key is a run of operations. -/
theorem readKey_eq_run (complete : Option (GoString → ℕ → ℕ → Completion)) (t : Screen) (key : ℕ) :
    ∃ ops, (t.readKey (complete.map completing) key).map Prod.fst = run op t ops := by
  unfold readKey
  split_ifs
  · exact ⟨[], rfl⟩
  · exact ⟨[.pasteActive true], rfl⟩
  · exact ⟨[.pasteActive false], rfl⟩
  · have hop : t.op (.handleKey complete key) =
        (t.handleKey (complete.map completing) key).map Prod.fst := rfl
    cases hkey : t.handleKey (complete.map completing) key with
    | none =>
      refine ⟨[.handleKey complete key], ?_⟩
      rw [run_cons, hop, hkey]
      rfl
    | some r =>
      obtain ⟨t', _ | line⟩ := r
      · refine ⟨[.handleKey complete key], ?_⟩
        rw [run_cons, hop, hkey]
        rfl
      · refine ⟨[.handleKey complete key, .flush, .addToHistory line], ?_⟩
        rw [run_cons, hop, hkey]
        rfl

/-- And so is everything that happens while it reads. -/
theorem event_eq_run (complete : Option (GoString → ℕ → ℕ → Completion)) (t : Screen) (e : Event) :
    ∃ ops, (t.event (complete.map completing) e).map Prod.fst = run op t ops := by
  have hlast : ∀ x : Option Screen, (x.map (·, false)).map Prod.fst = x.bind some := by
    intro x
    cases x <;> rfl
  cases e with
  | key key => exact readKey_eq_run complete t key
  | wait => exact ⟨[.flush], rfl⟩
  | write buf => exact ⟨[.flush, .client (.write buf)], hlast (t.flush.write buf)⟩
  | setSize width height =>
    exact ⟨[.flush, .client (.setSize width height)], hlast (t.flush.setSize width height)⟩
  | fail => exact ⟨[.flush], rfl⟩

end Screen

/-! ## The invariant -/

/-- The cursor is within a line of the screen, and the position within the line. -/
structure CursorOk (t : Screen) : Prop where
  width_pos : 1 ≤ t.display.termWidth
  cursor_lt : t.display.cursorX < t.display.termWidth
  pos_le : t.pos ≤ t.line.len

section Invariant

variable {t t' : Screen} {w : ℕ}

theorem cursorOk_new (prompt : GoString) : CursorOk (Screen.new prompt) where
  width_pos := show 1 ≤ 80 by decide
  cursor_lt := show 0 < 80 by decide
  pos_le := Nat.zero_le _

theorem CursorOk.within (h : CursorOk t) : t.display.Within t.display.termWidth :=
  ⟨rfl, h.width_pos, h.cursor_lt⟩

theorem CursorOk.of_paints (h : CursorOk t) (hpaint : Screen.Paints w t t') : CursorOk t' where
  width_pos := hpaint.ok.width_pos
  cursor_lt := hpaint.ok.cursor_lt
  pos_le := by
    rw [hpaint.pos_eq, hpaint.line_eq]
    exact h.pos_le

theorem CursorOk.of_edits {line : List ℕ} {pos : ℕ} (hedit : Screen.Edits w t line pos t')
    (hle : pos ≤ line.length) : CursorOk t' where
  width_pos := hedit.ok.width_pos
  cursor_lt := hedit.ok.cursor_lt
  pos_le := by
    rw [hedit.pos_eq, hedit.len_eq]
    exact hle

theorem CursorOk.withDisplay (h : CursorOk t) {d : Display} (hd : d.Within w) :
    CursorOk (t.withDisplay d) :=
  h.of_paints (Screen.withDisplay_paints hd)

namespace Screen

theorem painting_cursorOk (h : CursorOk t) (p : Painting) : Returns (t.painting p) CursorOk := by
  have hwithin := h.within
  cases p with
  | moveCursorToPos pos =>
    exact (moveCursorToPos_returns hwithin pos).mono fun t' ht' => h.of_paints ht'.1
  | writeLine line => exact (paint_returns (hwithin.writeLine line)).mono fun t' => h.of_paints
  | advanceCursor data places =>
    have hadvance := (hwithin.queue data).advanceCursor places
    exact (paint_returns (f := fun d => (d.queue data).advanceCursor places) hadvance).mono
      fun t' => h.of_paints
  | newLine data =>
    have hhome :
        Display.Within t.display.termWidth
          { t.display.queue data with cursorX := 0, cursorY := 0 } :=
      ⟨rfl, h.width_pos, h.width_pos⟩
    exact returns_some (h.withDisplay hhome)
  | clearLine => exact returns_some (h.withDisplay hwithin.clearLine)
  | clearRows numPrevLines => exact returns_some (h.withDisplay (hwithin.clearRows numPrevLines))
  | resize width cursorY =>
    have hpos := newWidth_pos width
    refine returns_some ⟨hpos, ?_, h.pos_le⟩
    show (if newWidth width ≤ t.display.cursorX then newWidth width - 1 else t.display.cursorX) <
        newWidth width
    split_ifs <;> omega
  | output outBuf sent => exact returns_some ⟨h.width_pos, h.cursor_lt, h.pos_le⟩

theorem writeFails_cursorOk (h : CursorOk t) (buf : GoString) (painted : Bool)
    (outBuf sent : GoString) :
    Returns (t.writeFails buf painted outBuf sent) CursorOk := by
  have hlast : ∀ t' : Screen, CursorOk t' →
      CursorOk (t'.withDisplay { t'.display with outBuf := outBuf, sent := sent }) :=
    fun _ h' => ⟨h'.width_pos, h'.cursor_lt, h'.pos_le⟩
  unfold writeFails
  split_ifs
  · exact returns_some (hlast t h)
  · exact (write_returns h.within buf).bind fun t' ht' => returns_some (hlast t' (h.of_paints ht'))
  · exact returns_some (hlast _ (h.withDisplay h.within.clearLine))

theorem client_cursorOk (h : CursorOk t) (op : ClientOp) : Returns (t.client op) CursorOk := by
  cases op with
  | write buf => exact (write_returns h.within buf).mono fun t' => h.of_paints
  | writeFails buf painted outBuf sent => exact writeFails_cursorOk h buf painted outBuf sent
  | setPrompt prompt => exact returns_some ⟨h.width_pos, h.cursor_lt, h.pos_le⟩
  | setEcho echo => exact returns_some ⟨h.width_pos, h.cursor_lt, h.pos_le⟩
  | setSize width height => exact (setSize_returns h.within width height).mono fun t' => h.of_paints

theorem handleKey_cursorOk (h : CursorOk t) (key : ℕ) :
    Returns (t.handleKey none key) fun r => CursorOk r.1 :=
  (handleKey_refines ⟨h.within, h.pos_le, rfl⟩ key).mono fun _ hr =>
    ⟨hr.1.ok.width_pos, hr.1.ok.cursor_lt, hr.1.pos_le⟩

/-- The callback matters in the default case only. -/
theorem handleKey_callback (callback : Option AutoCompleteCallback) (t : Screen) (key : ℕ) :
    t.handleKey callback key = t.handleKey none key ∨
      t.handleKey callback key = (otherKey callback t key).map (·, none) := by
  unfold handleKey
  cases hc : keyCase t.pasteActive key with
  | other key' =>
    obtain rfl : key = key' := key_of_keyCase hc
    exact Or.inr rfl
  | pasted | backspace | altLeft | altRight | left | right | home | toEnd | up | down | ctrlC |
    enter | deleteWord | deleteLine | ctrlD | ctrlU | clearScreen => exact Or.inl rfl

/-- A callback uses the terminal as other code does. -/
theorem completing_cursorOk (h : CursorOk t) (complete : GoString → ℕ → ℕ → Completion)
    (line : GoString) (pos key : ℕ) :
    Returns (completing complete t line pos key) fun r => CursorOk r.1 ∧ ∀ newLine newPos,
      r.2 = some (newLine, newPos) → newPos ≤ newLine.length ∧
        (runes (newLine.take newPos)).length ≤ (runes newLine).length := by
  refine (run_returns (fun _ op h' => client_cursorOk h' op) h _).bind fun t' ht' => ?_
  refine returns_some ⟨ht', fun newLine newPos hresult => ?_⟩
  obtain ⟨r, -, hr⟩ := Option.map_eq_some_iff.mp hresult
  have hplace := r.2
  rwa [hr] at hplace

theorem typeKey_cursorOk (h : CursorOk t) (key : ℕ) : Returns (t.typeKey key) CursorOk := by
  unfold typeKey
  split_ifs
  · exact returns_some h
  · exact returns_some h
  · refine (addKeyToLine_returns h.within h.pos_le key).mono fun t' ht' => ?_
    refine CursorOk.of_edits ht'.toEdits ?_
    have hpos := h.pos_le
    rw [List.length_append, List.length_take, List.length_cons, Slice.length_elems]
    omega

theorem otherKey_cursorOk (h : CursorOk t) (complete : GoString → ℕ → ℕ → Completion) (key : ℕ) :
    Returns (otherKey (some (completing complete)) t key) CursorOk := by
  unfold otherKey
  refine (Slice.upTo_spec h.pos_le).bind fun before _ => ?_
  rw [Slice.after_spec h.pos_le]
  refine Returns.bind (returns_some rfl) fun suffix hsuffix => ?_
  refine (completing_cursorOk h complete _ _ key).bind ?_
  rintro ⟨t', result⟩ ⟨ht', hresult⟩
  cases result with
  | none => exact typeKey_cursorOk ht' key
  | some r =>
    obtain ⟨newLine, newPos⟩ := r
    obtain ⟨hle, hrunes⟩ := hresult newLine newPos rfl
    dsimp only
    rw [if_pos hle]
    refine (setLine_returns ht'.within _ _).mono fun t'' ht'' => ?_
    refine CursorOk.of_edits ht''.toEdits ?_
    rw [Slice.elems_ofList]
    exact hrunes

theorem op_cursorOk (h : CursorOk t) (op : TerminalOp) : Returns (t.op op) CursorOk := by
  cases op with
  | handleKey complete key =>
    refine Returns.map (P := fun r => CursorOk r.1) ?_ fun _ hr => hr
    cases complete with
    | none => exact handleKey_cursorOk h key
    | some complete =>
      rcases handleKey_callback (some (completing complete)) t key with heq | heq
      · rw [Option.map_some, heq]
        exact handleKey_cursorOk h key
      · rw [Option.map_some, heq]
        exact (otherKey_cursorOk h complete key).map fun _ ht' => ht'
  | pasteActive active => exact returns_some ⟨h.width_pos, h.cursor_lt, h.pos_le⟩
  | addToHistory line =>
    refine returns_some ?_
    unfold addToHistory
    split_ifs
    · exact ⟨h.width_pos, h.cursor_lt, h.pos_le⟩
    · exact h
  | flush => exact returns_some (h.withDisplay h.within.flush)
  | showPrompt => exact (showPrompt_returns h.within).mono fun t' => h.of_paints
  | client op => exact client_cursorOk h op
  | painting p => exact painting_cursorOk h p

end Screen

end Invariant

/-! ## Rounds of `writeLine` -/

namespace Display

/-- The loop of `writeLine`, with a fault also when a round takes no character. -/
def strictRounds : ℕ → List ℕ → Display → Option Display
  | _, [], d => some d
  | 0, _ :: _, _ => none
  | fuel + 1, r :: rs, d =>
    if d.termWidth ≤ d.cursorX then none
    else do
      let todo := min (r :: rs).length (d.termWidth - d.cursorX)
      let d ← (d.queue ((r :: rs).take todo)).advanceCursor (visualLength ((r :: rs).take todo))
      strictRounds fuel ((r :: rs).drop todo) d

/-- At most as many rounds as characters. -/
def writeLineStrict (d : Display) (line : List ℕ) : Option Display :=
  strictRounds line.length line d

theorem strictRounds_eq {w : ℕ} {d : Display} (h : d.Within w) {fuel fuel' : ℕ} {line : List ℕ}
    (hfuel : line.length ≤ fuel) (hfuel' : line.length ≤ fuel') :
    strictRounds fuel line d = writeRounds fuel' line d := by
  induction fuel generalizing line d fuel' with
  | zero =>
    obtain rfl := List.length_eq_zero_iff.mp (Nat.le_zero.mp hfuel)
    cases fuel' <;> rfl
  | succ fuel ih =>
    cases line with
    | nil => cases fuel' <;> rfl
    | cons r rs =>
      obtain ⟨fuel', rfl⟩ : ∃ n, fuel' = n + 1 := Nat.exists_eq_succ_of_ne_zero (by
        rw [List.length_cons] at hfuel'
        omega)
      have hcursor := h.cursor_lt
      rw [strictRounds, writeRounds, if_neg (by omega), if_neg (by omega)]
      dsimp only
      obtain ⟨d', hd', hok⟩ :=
        (h.queue ((r :: rs).take (min (r :: rs).length (d.termWidth - d.cursorX)))).advanceCursor
        (visualLength ((r :: rs).take (min (r :: rs).length (d.termWidth - d.cursorX))))
      rw [hd']
      rw [List.length_cons] at hfuel hfuel'
      refine ih hok ?_ ?_
      · rw [List.length_drop, List.length_cons]
        omega
      · rw [List.length_drop, List.length_cons]
        omega

/-- With the cursor within a line every round of `writeLine` takes a character, and it ends. -/
theorem writeLine_eq_strict {w : ℕ} {d : Display} (h : d.Within w) (line : List ℕ) :
    d.writeLine line = d.writeLineStrict line ∧ (d.writeLineStrict line).isSome = true := by
  have heq : d.writeLineStrict line = d.writeLine line := strictRounds_eq h le_rfl (Nat.le_succ _)
  obtain ⟨d', hd', -⟩ := h.writeLine line
  rw [heq, hd']
  exact ⟨rfl, rfl⟩

/-- The loop of `Write` that moves up ends at the first row, and does not go beyond. -/
theorem cursorY_clearUp {n : ℕ} {d : Display} (h : n ≤ d.cursorY) :
    (clearUp n d).cursorY + n = d.cursorY := by
  induction n generalizing d with
  | zero => rfl
  | succ n ih =>
    obtain ⟨d', hd'⟩ : ∃ d', d' =
        clearLineToRight { d.move 1 0 0 0 with cursorY := d.cursorY - 1 } :=
      ⟨_, rfl⟩
    have hrow : d'.cursorY = d.cursorY - 1 := by
      rw [hd']
      rfl
    have hrest : (clearUp n d').cursorY + n = d'.cursorY := ih (by omega)
    show (clearUp n (clearLineToRight { d.move 1 0 0 0 with cursorY := d.cursorY - 1 })).cursorY +
      (n + 1) = _
    rw [← hd']
    omega

end Display

/-! ## Runs -/

/-- Whatever is done with a new terminal: every operation returns, in all states the width is
    positive and the cursor within a line, the row is counted down without going below the first
    one, and every line can be written with a character in each round. -/
theorem cursor_invariant (prompt : GoString) (ops : List TerminalOp) :
    (run Screen.op (Screen.new prompt) ops).isSome = true ∧
    ∀ t ∈ states Screen.op (Screen.new prompt) ops,
      1 ≤ t.display.termWidth ∧ t.display.cursorX < t.display.termWidth ∧
      (∀ n, n ≤ t.display.cursorY → (Display.clearUp n t.display).cursorY + n = t.display.cursorY) ∧
      ∀ line, t.display.writeLine line = t.display.writeLineStrict line ∧
        (t.display.writeLineStrict line).isSome = true := by
  have hstep : ∀ t op, CursorOk t → Returns (Screen.op t op) CursorOk :=
    fun _ op h => Screen.op_cursorOk h op
  constructor
  · obtain ⟨t, ht, -⟩ := run_returns hstep (cursorOk_new prompt) ops
    rw [ht]
    rfl
  · intro t ht
    have hok : CursorOk t := forall_mem_states (fun s op s' hs hop => by
      obtain ⟨s'', hs'', hok⟩ := hstep s op hs
      cases hop.symm.trans hs''
      exact hok) (cursorOk_new prompt) ops t ht
    exact ⟨hok.width_pos, hok.cursor_lt, fun _ => Display.cursorY_clearUp,
      Display.writeLine_eq_strict hok.within⟩

end GoJump.Common
