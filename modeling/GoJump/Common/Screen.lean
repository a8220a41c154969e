import GoJump.Common.Terminal
import GoJump.Go.Slice
import GoJump.Go.Strings
import GoJump.Lib.Fallible

/-!
# The terminal with its screen

Model of `Terminal` with what it writes (`pkg/common/terminal.go`): the prompt, the place of
the cursor, the bytes that are queued and those that have been written to the connection,
and `line` as a slice of an array. The functions that change it are `queue` to
`addKeyToLine` (lines 227–608), `writeLine`, `Write`, the prompt of `readLine`, `SetPrompt`,
`SetEcho` and `SetSize` (lines 610–956). A write to the connection succeeds.

An index or a bound of a slice that is out of range and a division by zero are faults
(`none`). The callback for completion is a parameter of `handleKey`; it may write to the
terminal.

* `Display.writeLine_spec`: with the cursor within a line, `writeLine` returns and keeps it
  there.
* `Display.Within` is kept by everything that paints.
-/

namespace GoJump.Common

open GoJump.Go GoJump.Lib

/-! ## Painting -/

/-- The size of the terminal, the place of the cursor, `outBuf`, and the bytes that the
    connection `c` has got. -/
structure Display where
  termWidth : ℕ
  termHeight : ℕ
  cursorX : ℕ
  cursorY : ℕ
  maxLine : ℕ
  outBuf : GoString
  sent : GoString

/-- `visualLength` (lines 426–444), inside or outside of an escape sequence. -/
def visualLengthFrom : Bool → List ℕ → ℕ
  | _, [] => 0
  | true, r :: rs =>
    visualLengthFrom (!decide (97 ≤ r ∧ r ≤ 122 ∨ 65 ≤ r ∧ r ≤ 90)) rs
  | false, r :: rs =>
    if r = keyEscape.toNat then visualLengthFrom true rs else visualLengthFrom false rs + 1

def visualLength (rs : List ℕ) : ℕ := visualLengthFrom false rs

/-- One direction of `move`: nothing, `ESC [ c`, or `ESC [ n c`. -/
def moveBy (n c : ℕ) : List ℕ :=
  if n = 0 then []
  else if n = 1 then [27, 91, c]
  else [27, 91] ++ (itoa n).map UInt8.toNat ++ [c]

namespace Display

/-- `queue` (lines 227–229). -/
def queue (d : Display) (data : List ℕ) : Display := { d with outBuf := d.outBuf ++ ofRunes data }

/-- `move` (lines 274–313). -/
def move (d : Display) (up down left right : ℕ) : Display :=
  d.queue (moveBy up 65 ++ moveBy down 66 ++ moveBy right 67 ++ moveBy left 68)

/-- `clearLineToRight` (lines 315–318). -/
def clearLineToRight (d : Display) : Display := d.queue [27, 91, 75]

/-- `advanceCursor` (lines 335–356). -/
def advanceCursor (d : Display) (places : ℕ) : Option Display :=
  if d.termWidth = 0 then none
  else
    let x := d.cursorX + places
    let y := d.cursorY + x / d.termWidth
    let out := if 0 < places ∧ x % d.termWidth = 0 then [13, 10] else []
    some { d with
      cursorX := x % d.termWidth
      cursorY := y
      maxLine := if d.maxLine < y then y else d.maxLine
      outBuf := d.outBuf ++ out }

/-- The loop of `writeLine`, at most `fuel` rounds. -/
def writeRounds : ℕ → List ℕ → Display → Option Display
  | _, [], d => some d
  | 0, _ :: _, _ => none
  | fuel + 1, r :: rs, d =>
    if d.termWidth < d.cursorX then none
    else do
      let todo := min (r :: rs).length (d.termWidth - d.cursorX)
      let d ← (d.queue ((r :: rs).take todo)).advanceCursor (visualLength ((r :: rs).take todo))
      writeRounds fuel ((r :: rs).drop todo) d

/-- `writeLine` (lines 610–621). A round without a character is only possible at the
    beginning, with the cursor behind the end of the line. -/
def writeLine (d : Display) (line : List ℕ) : Option Display := writeRounds (line.length + 1) line d

/-- `c.Write(outBuf)`. -/
def flush (d : Display) : Display := { d with sent := d.sent ++ d.outBuf, outBuf := [] }

/-- `writeWithCRLF` (lines 624–650), as one write. -/
def writeWithCRLF (d : Display) (buf : GoString) : Display :=
  { d with sent := d.sent ++ buf.flatMap fun b => if b = 10 then [13, 10] else [b] }

/-- A space is written `n` times. -/
def writeSpaces : ℕ → Display → Option Display
  | 0, d => some d
  | n + 1, d => do
    let d ← d.writeLine [32]
    writeSpaces n d

/-- A space is queued and the cursor advanced, `n` times (lines 544–547). -/
def blank : ℕ → Display → Option Display
  | 0, d => some d
  | n + 1, d => do
    let d ← (d.queue [32]).advanceCursor 1
    blank n d

/-- The cursor is moved up to the first row, and every row cleared (lines 668–672). -/
def clearUp : ℕ → Display → Display
  | 0, d => d
  | n + 1, d =>
    let d := { d.move 1 0 0 0 with cursorY := d.cursorY - 1 }
    clearUp n d.clearLineToRight

/-- The rows of the prompt and the line are cleared, with the cursor at their beginning, and
    this is written (lines 664–677). -/
def clearLine (d : Display) : Display :=
  let moved := { d.move 0 0 d.cursorX 0 with cursorX := 0 }
  (clearUp d.cursorY moved.clearLineToRight).flush

/-- The next `n` rows are cleared (lines 883–888). -/
def clearDown : ℕ → Display → Display
  | 0, d => d
  | n + 1, d =>
    let d := { d.move 0 1 0 0 with cursorY := d.cursorY + 1 }
    clearDown n d.clearLineToRight

/-- The rows of the line and `numPrevLines` more are cleared, with the cursor at their
    beginning (lines 879–891). -/
def clearRows (d : Display) (numPrevLines : ℕ) : Display :=
  let moved := { d.move d.cursorY 0 d.cursorX 0 with cursorX := 0, cursorY := 0 }
  let cleared := clearDown numPrevLines moved.clearLineToRight
  { cleared.move cleared.cursorY 0 0 0 with cursorX := 0, cursorY := 0 }

/-- The terminal has the positive width `w` and the cursor is within a line. -/
structure Within (w : ℕ) (d : Display) : Prop where
  width_eq : d.termWidth = w
  width_pos : 0 < d.termWidth
  cursor_lt : d.cursorX < d.termWidth

variable {w : ℕ}

theorem Within.queue {d : Display} (h : d.Within w) (data : List ℕ) : (d.queue data).Within w :=
  ⟨h.width_eq, h.width_pos, h.cursor_lt⟩

theorem Within.advanceCursor {d : Display} (h : d.Within w) (places : ℕ) :
    Returns (d.advanceCursor places) (Within w) :=
  ⟨_, if_neg h.width_pos.ne', h.width_eq, h.width_pos, Nat.mod_lt _ h.width_pos⟩

theorem Within.flush {d : Display} (h : d.Within w) : d.flush.Within w :=
  ⟨h.width_eq, h.width_pos, h.cursor_lt⟩

theorem Within.writeWithCRLF {d : Display} (h : d.Within w) (buf : GoString) :
    (d.writeWithCRLF buf).Within w :=
  ⟨h.width_eq, h.width_pos, h.cursor_lt⟩

theorem Within.clearUp {d : Display} (h : d.Within w) (n : ℕ) : (clearUp n d).Within w := by
  induction n generalizing d with
  | zero => exact h
  | succ n ih => exact ih ⟨h.width_eq, h.width_pos, h.cursor_lt⟩

theorem Within.clearDown {d : Display} (h : d.Within w) (n : ℕ) : (clearDown n d).Within w := by
  induction n generalizing d with
  | zero => exact h
  | succ n ih => exact ih ⟨h.width_eq, h.width_pos, h.cursor_lt⟩

theorem Within.clearLine {d : Display} (h : d.Within w) : d.clearLine.Within w := by
  have hmoved : Within w (clearLineToRight { d.move 0 0 d.cursorX 0 with cursorX := 0 }) :=
    ⟨h.width_eq, h.width_pos, h.width_pos⟩
  exact (hmoved.clearUp d.cursorY).flush

theorem Within.clearRows {d : Display} (h : d.Within w) (n : ℕ) : (d.clearRows n).Within w := by
  have hmoved : Within w (clearLineToRight
      { d.move d.cursorY 0 d.cursorX 0 with cursorX := 0, cursorY := 0 }) :=
    ⟨h.width_eq, h.width_pos, h.width_pos⟩
  have hdown := hmoved.clearDown n
  exact ⟨hdown.width_eq, hdown.width_pos, hdown.width_pos⟩

/-- A round with the cursor within a line takes a character. -/
theorem Within.writeRounds {d : Display} (h : d.Within w) {fuel : ℕ} {line : List ℕ}
    (hfuel : line.length ≤ fuel) : Returns (writeRounds fuel line d) (Within w) := by
  induction fuel generalizing line d with
  | zero =>
    obtain rfl := List.length_eq_zero_iff.mp (Nat.le_zero.mp hfuel)
    exact returns_some h
  | succ fuel ih =>
    cases line with
    | nil => exact returns_some h
    | cons r rs =>
      have hwidth := h.width_pos
      have hcursor := h.cursor_lt
      rw [List.length_cons] at hfuel
      rw [Display.writeRounds, if_neg (by omega)]
      refine ((h.queue _).advanceCursor _).bind fun d' h' => ih h' ?_
      rw [List.length_drop, List.length_cons]
      omega

theorem Within.writeLine {d : Display} (h : d.Within w) (line : List ℕ) :
    Returns (d.writeLine line) (Within w) :=
  h.writeRounds (Nat.le_succ _)

theorem Within.writeSpaces {d : Display} (h : d.Within w) (n : ℕ) :
    Returns (Display.writeSpaces n d) (Within w) := by
  induction n generalizing d with
  | zero => exact returns_some h
  | succ n ih => exact (h.writeLine [32]).bind fun d' h' => ih h'

theorem Within.blank {d : Display} (h : d.Within w) (n : ℕ) :
    Returns (Display.blank n d) (Within w) := by
  induction n generalizing d with
  | zero => exact returns_some h
  | succ n ih => exact ((h.queue [32]).advanceCursor 1).bind fun d' h' => ih h'

end Display

/-! ## The terminal -/

/-- The fields of `Terminal` but for those that belong to reading. -/
structure Screen where
  display : Display
  prompt : List ℕ
  line : Slice ℕ
  pos : ℕ
  echo : Bool
  pasteActive : Bool
  history : StRingBuffer
  historyIndex : ℤ
  historyPending : GoString
  index_ge : -1 ≤ historyIndex

/-- `NewTerminal` (lines 102–112). -/
def Screen.new (prompt : GoString) : Screen where
  display := ⟨80, 24, 0, 0, 0, [], []⟩
  prompt := runes prompt
  line := Slice.ofList []
  pos := 0
  echo := true
  pasteActive := false
  history := StRingBuffer.new
  historyIndex := -1
  historyPending := []
  index_ge := Editor.new.index_ge

/-- The callback for completion gets the line, the position in bytes and the key. It may
    write to the terminal, and returns a new line and position or that it does not complete. -/
abbrev AutoCompleteCallback := Screen → GoString → ℕ → ℕ → Option (Screen × Option (GoString × ℕ))

namespace Screen

/-- With another display. -/
def withDisplay (t : Screen) (d : Display) : Screen := { t with display := d }

/-- What paints. -/
def paint (t : Screen) (f : Display → Option Display) : Option Screen :=
  (f t.display).map t.withDisplay

/-- `moveCursorToPos` (lines 240–272). -/
def moveCursorToPos (t : Screen) (pos : ℕ) : Option Screen :=
  if t.echo = false then some t
  else t.paint fun d =>
    if d.termWidth = 0 then none
    else
      let x := (visualLength t.prompt + pos) % d.termWidth
      let y := (visualLength t.prompt + pos) / d.termWidth
      some ({ d with cursorX := x, cursorY := y }.move (d.cursorY - y) (y - d.cursorY)
        (d.cursorX - x) (x - d.cursorX))

/-- `setLine` (lines 322–333). -/
def setLine (t : Screen) (newLine : Slice ℕ) (newPos : ℕ) : Option Screen := do
  let t ← if t.echo then do
      let t ← t.moveCursorToPos 0
      let t ← t.paint (·.writeLine newLine.elems)
      let t ← t.paint (Display.writeSpaces (t.line.len - newLine.len))
      t.moveCursorToPos newPos
    else some t
  return { t with line := newLine, pos := newPos }

/-- `eraseNPreviousChars` (lines 358–379). -/
def eraseNPreviousChars (t : Screen) (n : ℕ) : Option Screen :=
  if n = 0 then some t
  else do
    let n := if t.pos < n then t.pos else n
    let t := { t with pos := t.pos - n }
    let t ← t.moveCursorToPos t.pos
    let line ← t.line.delete t.pos n
    let t := { t with line := line }
    if t.echo then do
      let rest ← t.line.after t.pos
      let t ← t.paint (·.writeLine rest)
      let t ← t.paint fun d => (d.queue (List.replicate n 32)).advanceCursor n
      t.moveCursorToPos t.pos
    else return t

/-- `countToLeftWord` (lines 383–404). -/
def countToLeftWord (t : Screen) : Option ℕ :=
  if t.pos = 0 then some 0
  else if t.pos = 1 ∨ t.pos ≤ t.line.len then
    some (t.pos - Editor.leftOfWord t.line.elems (Editor.leftOfSpaces t.line.elems (t.pos - 1)))
  else none

/-- `countToRightWord` (lines 408–423). -/
def countToRightWord (t : Screen) : ℕ :=
  let word := (t.line.elems.drop t.pos).takeWhile (· ≠ 32)
  word.length + ((t.line.elems.drop (t.pos + word.length)).takeWhile (· = 32)).length

/-- `addKeyToLine` (lines 594–608); the line changes by the steps of `Slice.insert`. -/
def addKeyToLine (t : Screen) (key : ℕ) : Option Screen := do
  let line ← t.line.insert 0 t.pos key
  let t := { t with line := line }
  let t ← if t.echo then do
      let rest ← t.line.after t.pos
      t.paint (·.writeLine rest)
    else some t
  let t := { t with pos := t.pos + 1 }
  t.moveCursorToPos t.pos

/-- The cursor goes to another place of the line. -/
def moveTo (t : Screen) (pos : ℕ) : Option Screen := { t with pos := pos }.moveCursorToPos pos

/-- A line of the history, with the cursor at its end. -/
def setEntry (t : Screen) (entry : GoString) : Option Screen :=
  t.setLine (Slice.ofList (runes entry)) (runes entry).length

theorem index_ge_up (t : Screen) : -1 ≤ t.historyIndex + 1 := by
  have := t.index_ge
  omega

theorem index_ge_down (t : Screen) (h : ¬ t.historyIndex = -1) : -1 ≤ t.historyIndex - 1 := by
  have := t.index_ge
  omega

/-- `keyUp` in `handleKey` (lines 492–502). -/
def historyUp (t : Screen) : Option Screen :=
  match t.history.nthPreviousEntry (t.historyIndex + 1).toNat with
  | none => some t
  | some entry =>
    setEntry { t with
      historyPending := if t.historyIndex = -1 then ofRunes t.line.elems else t.historyPending
      historyIndex := t.historyIndex + 1
      index_ge := t.index_ge_up } entry

/-- `keyDown` (lines 503–518). -/
def historyDown (t : Screen) : Option Screen :=
  if h : t.historyIndex = -1 then some t
  else if t.historyIndex = 0 then do
    let t ← t.setEntry t.historyPending
    return { t with historyIndex := -1, index_ge := Editor.new.index_ge }
  else
    match t.history.nthPreviousEntry (t.historyIndex - 1).toNat with
    | none => some t
    | some entry =>
      setEntry { t with
        historyIndex := t.historyIndex - 1
        index_ge := t.index_ge_down h } entry

/-- The end of a line in `keyCtrlC` and `keyEnter` (lines 519–527 and 528–537): the cursor
    goes to the end, and the next line begins with an empty line. -/
def endLine (t : Screen) (line : Slice ℕ) : Option Screen := do
  let t ← t.moveCursorToPos t.line.len
  let d := t.display.queue [13, 10]
  return { t with
    display := { d with cursorX := 0, cursorY := 0, maxLine := 0 }, line := line, pos := 0 }

/-- `keyDeleteLine` (lines 541–549). -/
def deleteLine (t : Screen) : Option Screen := do
  let t ← t.paint (Display.blank (t.line.len - t.pos))
  let line ← t.line.upTo t.pos
  let t := { t with line := line }
  t.moveCursorToPos t.pos

/-- `keyClearScreen` (lines 560–566). -/
def clearScreen (t : Screen) : Option Screen := do
  let t ← t.paint fun d =>
    { (d.queue [27, 91, 50, 74, 27, 91, 72]).queue t.prompt with cursorX := 0, cursorY := 0
      }.advanceCursor (visualLength t.prompt)
  t.setLine t.line t.pos

/-- A key that is no editing key, without completion (lines 581–587). -/
def typeKey (t : Screen) (key : ℕ) : Option Screen :=
  if !Editor.isPrintable key then some t
  else if t.line.len = Editor.maxLineLength then some t
  else t.addKeyToLine key

/-- The default case of `handleKey` (lines 567–587). -/
def otherKey (callback : Option AutoCompleteCallback) (t : Screen) (key : ℕ) : Option Screen :=
  match callback with
  | none => t.typeKey key
  | some complete => do
    let before ← t.line.upTo t.pos
    let suffix ← t.line.after t.pos
    let line := ofRunes before.elems ++ ofRunes suffix
    match ← complete t line (ofRunes before.elems).length key with
    | (t, some (newLine, newPos)) =>
      if newPos ≤ newLine.length then
        t.setLine (Slice.ofList (runes newLine)) (runes (newLine.take newPos)).length
      else none
    | (t, none) => t.typeKey key

/-- What `handleKey` does in each case; the line when there is one. -/
def handleCase (callback : Option AutoCompleteCallback) (t : Screen) :
    KeyCase → Option (Screen × Option GoString)
  | .pasted key => (t.addKeyToLine key).map (·, none)
  | .backspace => (if t.pos = 0 then some t else t.eraseNPreviousChars 1).map (·, none)
  | .altLeft => (do let n ← t.countToLeftWord; t.moveTo (t.pos - n)).map (·, none)
  | .altRight => (t.moveTo (t.pos + t.countToRightWord)).map (·, none)
  | .left => (if t.pos = 0 then some t else t.moveTo (t.pos - 1)).map (·, none)
  | .right => (if t.pos = t.line.len then some t else t.moveTo (t.pos + 1)).map (·, none)
  | .home => (if t.pos = 0 then some t else t.moveTo 0).map (·, none)
  | .toEnd => (if t.pos = t.line.len then some t else t.moveTo t.line.len).map (·, none)
  | .up => t.historyUp.map (·, none)
  | .down => t.historyDown.map (·, none)
  | .ctrlC => (t.endLine (Slice.ofList [])).map (·, some [])
  | .enter => do
    let line ← t.line.upTo 0
    let t' ← t.endLine line
    return (t', some (ofRunes t.line.elems))
  | .deleteWord => (do let n ← t.countToLeftWord; t.eraseNPreviousChars n).map (·, none)
  | .deleteLine => t.deleteLine.map (·, none)
  | .ctrlD =>
    (if t.pos < t.line.len then eraseNPreviousChars { t with pos := t.pos + 1 } 1
      else some t).map (·, none)
  | .ctrlU => (t.eraseNPreviousChars t.pos).map (·, none)
  | .clearScreen => t.clearScreen.map (·, none)
  | .other key => (otherKey callback t key).map (·, none)

/-- `handleKey` (lines 448–590); the line when there is one. -/
def handleKey (callback : Option AutoCompleteCallback) (t : Screen) (key : ℕ) :
    Option (Screen × Option GoString) :=
  t.handleCase callback (keyCase t.pasteActive key)

/-! ## The other functions -/

/-- `Write` (lines 652–695). -/
def write (t : Screen) (buf : GoString) : Option Screen :=
  if t.display.cursorX = 0 ∧ t.display.cursorY = 0 then
    some (t.withDisplay (t.display.writeWithCRLF buf))
  else do
    let d ← (t.display.clearLine.writeWithCRLF buf).writeLine t.prompt
    let d ← if t.echo then d.writeLine t.line.elems else some d
    let t ← (t.withDisplay d).moveCursorToPos t.pos
    return t.withDisplay t.display.flush

/-- The prompt at the beginning of `readLine` (lines 793–797). -/
def showPrompt (t : Screen) : Option Screen :=
  if t.display.cursorX = 0 ∧ t.display.cursorY = 0 then do
    let t ← t.paint (·.writeLine t.prompt)
    return t.withDisplay t.display.flush
  else some t

/-- `SetPrompt` (lines 871–876). -/
def setPrompt (t : Screen) (prompt : GoString) : Screen := { t with prompt := runes prompt }

/-- `SetEcho` (lines 723–725). -/
def setEcho (t : Screen) (echo : Bool) : Screen := { t with echo := echo }

/-- `clearAndRepaintLinePlusNPrevious` (lines 878–897). -/
def clearAndRepaintLinePlusNPrevious (t : Screen) (numPrevLines : ℕ) : Option Screen := do
  let d := t.display.clearRows numPrevLines
  let d ← (d.queue t.prompt).advanceCursor (visualLength t.prompt)
  let d ← d.writeLine t.line.elems
  (t.withDisplay d).moveCursorToPos t.pos

/-- The width that `SetSize` sets (lines 909–911). -/
def newWidth (width : ℕ) : ℕ := if width = 0 then 1 else width

/-- `SetSize` (lines 905–956). -/
def setSize (t : Screen) (width height : ℕ) : Option Screen := do
  let oldWidth := t.display.termWidth
  let t := t.withDisplay { t.display with termWidth := newWidth width, termHeight := height }
  if newWidth width = oldWidth then return t
  else if t.line.len = 0 ∧ t.display.cursorX = 0 ∧ t.display.cursorY = 0 then return t
  else if newWidth width < oldWidth then
    let d := { t.display with
      cursorX := if newWidth width ≤ t.display.cursorX then newWidth width - 1
        else t.display.cursorX
      cursorY := t.display.cursorY * 2 }
    let t ← (t.withDisplay d).clearAndRepaintLinePlusNPrevious (t.display.maxLine * 2)
    return t.withDisplay t.display.flush
  else
    let t ← t.clearAndRepaintLinePlusNPrevious t.display.maxLine
    return t.withDisplay t.display.flush

/-! ## What the functions change -/

/-- Nothing but the line, the position and what is on the screen: the line is now `line` and
    the position `pos`. -/
structure Edits (w : ℕ) (t : Screen) (line : List ℕ) (pos : ℕ) (t' : Screen) : Prop where
  eq : t' = { t with display := t'.display, line := t'.line, pos := pos }
  line_eq : t'.line.elems = line
  ok : t'.display.Within w

/-- And nothing is shown without echo. -/
structure Echoes (w : ℕ) (t : Screen) (line : List ℕ) (pos : ℕ) (t' : Screen) : Prop
    extends Edits w t line pos t' where
  silent : t.echo = false → t'.display = t.display

/-- Only what is on the screen. -/
structure Paints (w : ℕ) (t t' : Screen) : Prop where
  eq : t' = t.withDisplay t'.display
  ok : t'.display.Within w

variable {w : ℕ} {t t' : Screen} {line : List ℕ} {pos : ℕ}

theorem Edits.pos_eq (h : Edits w t line pos t') : t'.pos = pos := by rw [h.eq]

theorem Edits.echo_eq (h : Edits w t line pos t') : t'.echo = t.echo := by rw [h.eq]

theorem Edits.len_eq (h : Edits w t line pos t') : t'.line.len = line.length := by
  rw [← h.line_eq, Slice.length_elems]

theorem Edits.trans {t'' : Screen} {line' : List ℕ} {pos' : ℕ} (h : Edits w t line pos t')
    (h' : Edits w t' line' pos' t'') : Edits w t line' pos' t'' :=
  ⟨by rw [h'.eq, h.eq], h'.line_eq, h'.ok⟩

theorem Echoes.trans {t'' : Screen} {line' : List ℕ} {pos' : ℕ} (h : Echoes w t line pos t')
    (h' : Echoes w t' line' pos' t'') : Echoes w t line' pos' t'' where
  toEdits := h.toEdits.trans h'.toEdits
  silent hecho := by rw [h'.silent (by rw [h.echo_eq, hecho]), h.silent hecho]

theorem paint_returns {f : Display → Option Display}
    (h : Returns (f t.display) (Display.Within w)) :
    Returns (t.paint f) (Paints w t) :=
  h.map fun _ hok => ⟨rfl, hok⟩

theorem withDisplay_paints {d : Display} (h : d.Within w) : Paints w t (t.withDisplay d) := ⟨rfl, h⟩

theorem Paints.line_eq (h : Paints w t t') : t'.line = t.line := by rw [h.eq]; rfl

theorem Paints.pos_eq (h : Paints w t t') : t'.pos = t.pos := by rw [h.eq]; rfl

theorem Paints.trans {t'' : Screen} (h : Paints w t t') (h' : Paints w t' t'') : Paints w t t'' :=
  ⟨by rw [h'.eq, h.eq]; rfl, h'.ok⟩

/-- Painting after the line and the position have been changed. -/
theorem Paints.edits_of_set {newLine : Slice ℕ}
    (h : Paints w { t with line := newLine, pos := pos } t') :
    Edits w t newLine.elems pos t' := by
  refine ⟨?_, by rw [h.line_eq], h.ok⟩
  rw [h.eq]
  rfl

theorem Paints.edits (h : Paints w t t') : Edits w t t.line.elems t.pos t' := h.edits_of_set

theorem Echoes.of_paints {t'' : Screen} (h : Edits w t line pos t') (hp : Paints w t' t'')
    (hecho : t.echo = true) : Echoes w t line pos t'' where
  eq := by rw [hp.eq, h.eq]; rfl
  line_eq := by rw [hp.line_eq, h.line_eq]
  ok := hp.ok
  silent hsilent := by
    rw [hecho] at hsilent
    cases hsilent

theorem moveCursorToPos_returns (h : t.display.Within w) (pos : ℕ) :
    Returns (t.moveCursorToPos pos) fun t' =>
      Paints w t t' ∧ (t.echo = false → t'.display = t.display) := by
  unfold moveCursorToPos
  by_cases hecho : t.echo = false
  · rw [if_pos hecho]
    exact returns_some ⟨⟨rfl, h⟩, fun _ => rfl⟩
  · rw [if_neg hecho]
    refine (paint_returns ?_).mono fun t' ht' => ⟨ht', fun hsilent => absurd hsilent hecho⟩
    rw [if_neg h.width_pos.ne']
    exact returns_some ⟨h.width_eq, h.width_pos, Nat.mod_lt _ h.width_pos⟩

/-- The cursor moved to a place of the line. -/
theorem moveTo_returns (h : t.display.Within w) (pos : ℕ) :
    Returns (t.moveTo pos) (Echoes w t t.line.elems pos) := by
  refine (moveCursorToPos_returns (t := { t with pos := pos }) h pos).mono ?_
  rintro t' ⟨hpaint, hsilent⟩
  exact ⟨hpaint.edits_of_set, hsilent⟩

theorem setLine_returns (h : t.display.Within w) (newLine : Slice ℕ) (newPos : ℕ) :
    Returns (t.setLine newLine newPos) (Echoes w t newLine.elems newPos) := by
  unfold setLine
  by_cases hecho : t.echo = true
  · rw [if_pos hecho]
    refine (moveCursorToPos_returns h 0).bind fun t₁ h₁ => ?_
    refine (paint_returns (h₁.1.ok.writeLine newLine.elems)).bind fun t₂ h₂ => ?_
    refine (paint_returns (h₂.ok.writeSpaces _)).bind fun t₃ h₃ => ?_
    refine (moveCursorToPos_returns h₃.ok newPos).bind fun t₄ h₄ => ?_
    have hpaint := ((h₁.1.trans h₂).trans h₃).trans h₄.1
    refine returns_some ⟨⟨?_, rfl, hpaint.ok⟩, fun hsilent => ?_⟩
    · rw [hpaint.eq]
      rfl
    · rw [hecho] at hsilent
      cases hsilent
  · rw [if_neg hecho]
    exact returns_some ⟨⟨rfl, rfl, h⟩, fun _ => rfl⟩

theorem eraseNPreviousChars_returns (h : t.display.Within w) (hpos : t.pos ≤ t.line.len) (n : ℕ) :
    Returns (t.eraseNPreviousChars n)
      (Echoes w t (t.line.elems.take (t.pos - n) ++ t.line.elems.drop t.pos) (t.pos - n)) := by
  unfold eraseNPreviousChars
  by_cases hn : n = 0
  · rw [if_pos hn]
    refine returns_some ⟨⟨?_, ?_, h⟩, fun _ => rfl⟩
    · rw [hn]
      rfl
    · rw [hn, Nat.sub_zero, List.take_append_drop]
  rw [if_neg hn]
  dsimp only
  -- `n` is cut to the characters that there are
  have hcut : t.pos - (if t.pos < n then t.pos else n) = t.pos - n := by split_ifs <;> omega
  have hle : t.pos - n + (if t.pos < n then t.pos else n) = t.pos := by split_ifs <;> omega
  rw [hcut]
  generalize (if t.pos < n then t.pos else n) = m at hle
  refine (moveTo_returns h (t.pos - n)).bind fun t₁ h₁ => ?_
  have hlen₁ : t₁.line.len = t.line.len := by rw [h₁.len_eq, Slice.length_elems]
  refine (Slice.delete_spec (by rw [h₁.pos_eq]; omega)).bind fun line₂ h₂ => ?_
  rw [h₁.pos_eq, h₁.line_eq, hle] at h₂
  have hdelete : Echoes w t₁ (t.line.elems.take (t.pos - n) ++ t.line.elems.drop t.pos) (t.pos - n)
      { t₁ with line := line₂ } :=
    ⟨⟨by rw [← h₁.pos_eq], h₂, h₁.ok⟩, fun _ => rfl⟩
  by_cases hecho : t₁.echo = true
  · rw [if_pos hecho]
    have hedit := h₁.trans hdelete
    have hafter : t₁.pos ≤ line₂.len := by
      rw [← line₂.length_elems, h₂, h₁.pos_eq, List.length_append, List.length_take,
        Slice.length_elems]
      omega
    rw [Slice.after_spec hafter]
    refine (paint_returns (hedit.ok.writeLine _)).bind fun t₃ h₃ => ?_
    refine (paint_returns ((h₃.ok.queue _).advanceCursor m)).bind fun t₄ h₄ => ?_
    refine (moveCursorToPos_returns h₄.ok _).mono fun t₅ h₅ => ?_
    exact Echoes.of_paints hedit.toEdits ((h₃.trans h₄).trans h₅.1) (by rw [← h₁.echo_eq, hecho])
  · rw [if_neg hecho]
    exact returns_some (h₁.trans hdelete)

theorem addKeyToLine_returns (h : t.display.Within w) (hpos : t.pos ≤ t.line.len) (key : ℕ) :
    Returns (t.addKeyToLine key)
      (Echoes w t (t.line.elems.take t.pos ++ key :: t.line.elems.drop t.pos) (t.pos + 1)) := by
  unfold addKeyToLine
  refine (Slice.insert_spec hpos 0 key).bind fun line₁ h₁ => ?_
  have hafter : t.pos ≤ line₁.len := by
    rw [← line₁.length_elems, h₁, List.length_append, List.length_take, List.length_cons,
      Slice.length_elems]
    omega
  dsimp only
  by_cases hecho : t.echo = true
  · rw [if_pos hecho, Slice.after_spec hafter]
    refine Returns.bind (returns_some rfl) fun rest hrest => ?_
    refine (paint_returns (t := { t with line := line₁ }) (h.writeLine rest)).bind fun t₂ h₂ => ?_
    refine (moveCursorToPos_returns (t := { t₂ with pos := t₂.pos + 1 }) h₂.ok _).mono ?_
    rintro t₃ ⟨h₃, -⟩
    have hpaint : Paints w { t with line := line₁, pos := t.pos + 1 } t₃ :=
      ⟨by rw [h₃.eq, h₂.eq]; rfl, h₃.ok⟩
    rw [← h₁]
    have hnothing : Paints w t₃ t₃ := ⟨rfl, h₃.ok⟩
    exact Echoes.of_paints hpaint.edits_of_set hnothing hecho
  · rw [if_neg hecho]
    refine (moveCursorToPos_returns (t := { t with line := line₁, pos := t.pos + 1 }) h _).mono ?_
    rintro t₃ ⟨h₃, hsilent⟩
    rw [← h₁]
    exact ⟨h₃.edits_of_set, hsilent⟩

theorem endLine_returns (h : t.display.Within w) (newLine : Slice ℕ) :
    Returns (t.endLine newLine) (Edits w t newLine.elems 0) := by
  unfold endLine
  refine (moveCursorToPos_returns h t.line.len).bind fun t₁ h₁ => ?_
  refine returns_some ⟨?_, rfl, h₁.1.ok.width_eq, h₁.1.ok.width_pos, h₁.1.ok.width_pos⟩
  rw [h₁.1.eq]
  rfl

theorem deleteLine_returns (h : t.display.Within w) (hpos : t.pos ≤ t.line.len) :
    Returns t.deleteLine (Edits w t (t.line.elems.take t.pos) t.pos) := by
  unfold deleteLine
  refine (paint_returns (h.blank _)).bind fun t₁ h₁ => ?_
  rw [h₁.line_eq, h₁.pos_eq]
  refine (Slice.upTo_spec hpos).bind fun line₂ h₂ => ?_
  have hmove := moveCursorToPos_returns (t := { t₁ with line := line₂, pos := t.pos }) h₁.ok t.pos
  refine hmove.mono ?_
  rintro t₃ ⟨h₃, -⟩
  have hpaint : Paints w { t with line := line₂, pos := t.pos } t₃ :=
    ⟨by rw [h₃.eq, h₁.eq]; rfl, h₃.ok⟩
  rw [← h₂]
  exact hpaint.edits_of_set

theorem clearScreen_returns (h : t.display.Within w) :
    Returns t.clearScreen (Edits w t t.line.elems t.pos) := by
  unfold clearScreen
  have hhome : Display.Within w { (t.display.queue [27, 91, 50, 74, 27, 91, 72]).queue t.prompt with
      cursorX := 0, cursorY := 0 } := ⟨h.width_eq, h.width_pos, h.width_pos⟩
  refine (paint_returns (hhome.advanceCursor _)).bind fun t₁ h₁ => ?_
  refine (setLine_returns h₁.ok t₁.line t₁.pos).mono fun t₂ h₂ => ?_
  have hedit := h₁.edits.trans h₂.toEdits
  rwa [h₁.line_eq, h₁.pos_eq] at hedit

/-! ## The other functions -/

theorem Paints.flush (h : Paints w t t') : Paints w t (t'.withDisplay t'.display.flush) :=
  ⟨by rw [h.eq]; rfl, h.ok.flush⟩

theorem write_returns (h : t.display.Within w) (buf : GoString) :
    Returns (t.write buf) (Paints w t) := by
  unfold write
  by_cases hzero : t.display.cursorX = 0 ∧ t.display.cursorY = 0
  · rw [if_pos hzero]
    exact returns_some ⟨rfl, h.writeWithCRLF buf⟩
  rw [if_neg hzero]
  refine ((h.clearLine.writeWithCRLF buf).writeLine t.prompt).bind fun d₁ h₁ => ?_
  have hpaint : ∀ d₂ : Display, d₂.Within w → Returns (do
      let t ← (t.withDisplay d₂).moveCursorToPos t.pos
      return t.withDisplay t.display.flush) (Paints w t) := fun d₂ h₂ =>
    (moveCursorToPos_returns (t := t.withDisplay d₂) h₂ t.pos).bind fun t₃ h₃ =>
      returns_some ((withDisplay_paints h₂).trans h₃.1).flush
  split_ifs
  · exact (h₁.writeLine t.line.elems).bind hpaint
  · exact hpaint d₁ h₁

theorem showPrompt_returns (h : t.display.Within w) : Returns t.showPrompt (Paints w t) := by
  unfold showPrompt
  split_ifs
  · exact (paint_returns (h.writeLine t.prompt)).bind fun t₁ h₁ => returns_some h₁.flush
  · exact returns_some ⟨rfl, h⟩

theorem repaint_returns (h : t.display.Within w) (n : ℕ) :
    Returns (t.clearAndRepaintLinePlusNPrevious n) (Paints w t) := by
  unfold clearAndRepaintLinePlusNPrevious
  refine (((h.clearRows n).queue t.prompt).advanceCursor _).bind fun d₁ h₁ => ?_
  refine (h₁.writeLine t.line.elems).bind fun d₂ h₂ => ?_
  refine (moveCursorToPos_returns (t := t.withDisplay d₂) h₂ t.pos).mono fun t₃ h₃ => ?_
  exact (withDisplay_paints h₂).trans h₃.1

theorem newWidth_pos (width : ℕ) : 0 < newWidth width := by
  unfold newWidth
  split_ifs <;> omega

theorem setSize_returns (h : t.display.Within w) (width height : ℕ) :
    Returns (t.setSize width height) (Paints (newWidth width) t) := by
  have hpos := newWidth_pos width
  have hcursor := h.cursor_lt
  have hrepaint : ∀ (d : Display) (n : ℕ), d.Within (newWidth width) → Returns (do
      let t ← (t.withDisplay d).clearAndRepaintLinePlusNPrevious n
      return t.withDisplay t.display.flush) (Paints (newWidth width) t) := fun d n hd =>
    (repaint_returns (t := t.withDisplay d) hd n).bind fun t₁ h₁ =>
      returns_some ((withDisplay_paints hd).trans h₁).flush
  unfold setSize
  dsimp only
  split_ifs with hsame hempty hnarrow hcut
  · exact returns_some ⟨rfl, rfl, hpos, hsame ▸ hcursor⟩
  · refine returns_some ⟨rfl, rfl, hpos, ?_⟩
    show t.display.cursorX < newWidth width
    have hzero : t.display.cursorX = 0 := hempty.2.1
    omega
  · refine hrepaint _ _ ⟨rfl, hpos, ?_⟩
    show newWidth width - 1 < newWidth width
    omega
  · exact hrepaint _ _ ⟨rfl, hpos, Nat.lt_of_not_le hcut⟩
  · refine hrepaint _ _ ⟨rfl, hpos, ?_⟩
    show t.display.cursorX < newWidth width
    omega

end Screen

end GoJump.Common
