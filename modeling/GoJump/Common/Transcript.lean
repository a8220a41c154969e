import GoJump.Common.Password
import GoJump.Common.Rendering

/-!
# What the user sees

The handlers call `ReadLine`, `Write` and `SetPrompt` one after the other, and what the
terminal writes to the connection is shown on the screen of the client
(`pkg/common/terminal.go`, lines 240–956). A `Transcript` is what is meant to be seen: the
rows of the lines that have been read and of other output, and below them the prompt and the
line with its cursor. It has no bytes, no cursor movements and no width of a cursor row.

There is no completion callback. All characters have to take one cell, and the prompt with the
line and every line of other output have to fit on the screen. `Transcript.call` has no result
outside of that, and in these cases:

* the output of a `Write` does not end with a newline or has another control character: the
  next prompt would be written behind it, in a row that the terminal takes to be empty;
* a `Write` comes while a line is edited and the cursor is not in the last row of the line, or
  is at the beginning of an empty prompt: characters of the line would stay on the screen;
* `SetPrompt` comes while a prompt is shown, or `SetSize` changes the width.

* `handleKey_draws`: a key repaints what it changes.
* `event_depicts`, `call_depicts`: the events of a call, and the calls.
* `screen_shows_transcript`: any sequence of such calls on a screen that is empty below its
  cursor, unless keys were handled whose output is still queued when Ctrl-D ends the call.
-/

namespace GoJump.Common

open GoJump.Go GoJump.Lib

/-! ## Transcripts -/

/-- What is to be seen: the rows `above`, since the screen was cleared if it was, and the line
    below them with the prompt, if it has been shown. `pending` says that keys have been
    handled whose output may still be queued. -/
structure Transcript where
  prompt : List ℕ
  editor : Editor
  above : List (List ℕ)
  prompted : Bool
  cleared : Bool
  pending : Bool

/-- The calls of a handler. -/
inductive HandlerCall
  | readLine (es : List Event)
  | write (buf : GoString)
  | setPrompt (prompt : GoString)

/-- A call, and whether it waits. -/
def Screen.call (t : Screen) : HandlerCall → Option (Screen × Bool)
  | .readLine es => (t.readLine none es).map fun r => (r.1, !r.2)
  | .write buf => (t.write buf).map (·, false)
  | .setPrompt prompt => some (t.setPrompt prompt, false)

/-- The lines of other output, if it ends with a newline and has no other control characters. -/
def outputLines (buf : GoString) : Option (List (List ℕ)) :=
  let lines := ((runes buf).splitOn 10).dropLast
  if outputBytes lines = buf then some lines else none

namespace Transcript

/-- A new terminal. -/
def new (prompt : GoString) : Transcript := ⟨runes prompt, Editor.new, [], false, false, false⟩

/-- What is to be seen of the prompt. -/
def shownPrompt (s : Transcript) : List ℕ := if s.prompted then s.prompt else []

/-- What is to be seen below the rows. -/
def text (s : Transcript) : List ℕ := s.shownPrompt ++ s.editor.line

/-- The place of the cursor in it. -/
def offset (s : Transcript) : ℕ := s.shownPrompt.length + s.editor.pos

/-- A text of characters that take one cell each, with a place for the cursor behind it on a
    screen of this size. -/
def Fits (w h : ℕ) (text : List ℕ) : Prop := (∀ r ∈ text, Shown r) ∧ text.length / w < h

instance (w h : ℕ) (text : List ℕ) : Decidable (Fits w h text) :=
  inferInstanceAs (Decidable (_ ∧ _))

def checked (w h : ℕ) (s : Transcript) : Option Transcript :=
  if Fits w h s.text then some s else none

/-- A key, and whether the call ends. -/
def readKey (w h : ℕ) (s : Transcript) (key : ℕ) : Option (Transcript × Bool) :=
  if s.editor.pasteActive = false ∧ key = keyCtrlD ∧ s.editor.line = [] then some (s, true)
  else if s.editor.pasteActive = false ∧ key = keyPasteStart then
    some ({ s with editor := { s.editor with pasteActive := true } }, false)
  else if s.editor.pasteActive = true ∧ key = keyPasteEnd then
    some ({ s with editor := { s.editor with pasteActive := false } }, false)
  else
    match s.editor.handleKey key with
    | (ed, some line) =>
      some ({ s with
        editor := ed.addToHistory line
        above := s.above ++ lineRows w s.text
        prompted := false
        pending := false }, true)
    | (ed, none) =>
      if s.editor.pasteActive = false ∧ key = keyClearScreen then
        some ({ s with above := [], cleared := true, pending := true }, false)
      else (checked w h { s with editor := ed, pending := true }).map (·, false)

/-- Other output appears above the line. -/
def write (w h : ℕ) (s : Transcript) (buf : GoString) : Option Transcript := do
  let lines ← outputLines buf
  if (∀ l ∈ lines, Fits w h l) ∧
    (s.prompted = true → 0 < s.offset ∧ s.text.length / w ≤ s.offset / w) then
    return { s with above := s.above ++ lines.flatMap (outputRows w), pending := false }
  else none

/-- One event of a call that reads a line. -/
def event (w h : ℕ) (s : Transcript) : Event → Option (Transcript × Bool)
  | .key key => s.readKey w h key
  | .wait => some ({ s with pending := false }, false)
  | .write buf => (s.write w h buf).map (·, false)
  | .setSize width _ =>
    if Screen.newWidth width = w then some ({ s with pending := false }, false) else none
  | .fail => some ({ s with pending := false }, true)

/-- A call, and whether it waits. The prompt is not changed while it is shown. -/
def call (w h : ℕ) (s : Transcript) : HandlerCall → Option (Transcript × Bool)
  | .readLine es => do
    let s ← checked w h { s with prompted := true }
    let r ← runUntil (event w h) s es
    return (r.1, !r.2)
  | .write buf => (s.write w h buf).map (·, false)
  | .setPrompt prompt =>
    if s.prompted then none else some ({ s with prompt := runes prompt }, false)

end Transcript

open Transcript

/-! ## One key -/

/-- What a key does to the screen that shows the prompt and the line. If the key goes on with a
    line that fits, it is shown in the same place; if it ends the line, the rows stay. -/
structure Pictured (v₀ : Vt) (paper : ℕ → ℕ → ℕ) (base : ℕ) (prompt line : List ℕ)
    (x : Option (Screen × Option GoString)) (y : Editor × Option GoString) : Prop where
  going : y.2 = none → Fits v₀.width v₀.height (prompt ++ y.1.line) →
    Returns x fun r => LineOn v₀ paper base prompt y.1.line y.1.pos r.1.display
  ended : y.2 ≠ none → y.1.line = [] ∧ Returns x fun r => ∃ paper' : ℕ → ℕ → ℕ,
    Extends v₀.width paper base (lineRows v₀.width (prompt ++ line)) paper' ∧
    Painted v₀ paper' (base + (lineRows v₀.width (prompt ++ line)).length) (textOf []) 0 0
      r.1.display

section Keys

variable {v₀ : Vt} {paper : ℕ → ℕ → ℕ} {base w : ℕ} {prompt line : List ℕ} {t : Screen}
    {ed : Editor}

theorem Transcript.Fits.of_append {w h : ℕ} (hfits : Fits w h (prompt ++ line)) :
    (∀ r ∈ line, Shown r) ∧ (prompt.length + line.length) / w < h := by
  refine ⟨fun r hr => hfits.1 r (List.mem_append_right _ hr), ?_⟩
  rw [← List.length_append]
  exact hfits.2

theorem Pictured.of_draws {x : Option Screen} {ed' : Editor}
    (h : Fits v₀.width v₀.height (prompt ++ ed'.line) →
      Returns x fun t' => LineOn v₀ paper base prompt ed'.line ed'.pos t'.display) :
    Pictured v₀ paper base prompt line (x.map (·, none)) (ed', none) :=
  ⟨fun _ hfits => (h hfits).map fun _ ht' => ht', fun hended => absurd rfl hended⟩

/-- A line of the history, whatever the index and the line that is kept. -/
theorem setEntry_pictured (ht : Screen.Legible t)
    (h : LineOn v₀ paper base t.prompt t.line.elems t.pos t.display)
    (index : ℤ) (hge : -1 ≤ index) (pending entry : GoString)
    (hfits : Fits v₀.width v₀.height (t.prompt ++ runes entry)) :
    Returns
      (Screen.setEntry { t with historyIndex := index, historyPending := pending, index_ge := hge }
        entry)
      fun t' => LineOn v₀ paper base t.prompt (runes entry) (runes entry).length t'.display := by
  have hfits₀ := h.fits
  rw [Slice.length_elems] at hfits₀
  obtain ⟨hshown, hlt⟩ := hfits.of_append
  have hset : Returns (Screen.setLine
      { t with historyIndex := index, historyPending := pending, index_ge := hge }
      (Slice.ofList (runes entry))
      (runes entry).length) fun t' =>
      LineOn v₀ paper base t.prompt (Slice.ofList (runes entry)).elems (runes entry).length
        t'.display :=
    Screen.setLine_draws
      (t := { t with historyIndex := index, historyPending := pending, index_ge := hge })
      ⟨ht.echo_eq, ht.prompt_shown, ht.line_shown, ht.pos_le⟩ h t.line.length_elems.le hfits₀
      (by rw [Slice.elems_ofList]; exact hshown) (Slice.len_ofList (runes entry)).ge
      (by rw [Slice.len_ofList]; exact hlt)
  rwa [Slice.elems_ofList] at hset

theorem addKeyToLine_pictured (ht : Screen.Legible t)
    (h : LineOn v₀ paper base t.prompt t.line.elems t.pos t.display) (hpos : t.pos ≤ t.line.len)
    (key : ℕ) :
    Pictured v₀ paper base t.prompt t.line.elems ((t.addKeyToLine key).map (·, none))
      ((t.editor hpos).addKeyToLine key, none) := by
  refine Pictured.of_draws fun hfits => ?_
  obtain ⟨hshown, hlt⟩ := hfits.of_append
  refine Screen.addKeyToLine_draws ht (hshown key (List.mem_append_right _ List.mem_cons_self)) h ?_
  have hlen : ((t.editor hpos).addKeyToLine key).line.length = t.line.len + 1 := by
    show (t.line.elems.take t.pos ++ key :: t.line.elems.drop t.pos).length = _
    rw [List.length_append, List.length_take, List.length_cons, List.length_drop,
      Slice.length_elems]
    omega
  rwa [hlen] at hlt

theorem Does.pictured {x : Option (Screen × Option GoString)} {y : Editor × Option GoString}
    {hpos : t.pos ≤ t.line.len} (hdoes : Does t hpos x y) (ht : Screen.Legible t)
    (h : LineOn v₀ paper base t.prompt t.line.elems t.pos t.display) :
    Pictured v₀ paper base t.prompt t.line.elems x y := by
  cases hdoes with
  | stay => exact Pictured.of_draws (x := some t) fun _ => returns_some h
  | insert key => exact addKeyToLine_pictured ht h hpos key
  | move pos hle =>
    exact Pictured.of_draws fun _ => Screen.moveTo_draws ht h (t.line.length_elems ▸ hle)
  | erase n =>
    exact Pictured.of_draws fun _ => Screen.eraseNPreviousChars_draws ht h n fun _ => rfl
  | delete hlt =>
    refine Pictured.of_draws fun _ => ?_
    exact Screen.eraseNPreviousChars_draws (t := { t with pos := t.pos + 1 })
      ⟨ht.echo_eq, ht.prompt_shown, ht.line_shown, hlt⟩ h 1 fun hone => absurd hone one_ne_zero
  | cut => exact Pictured.of_draws fun _ => Screen.deleteLine_draws ht h
  | entry index hge pending entry =>
    exact Pictured.of_draws fun hfits => setEntry_pictured ht h index hge pending entry hfits
  | restore =>
    refine Pictured.of_draws fun hfits => ?_
    exact (setEntry_pictured ht h t.historyIndex t.index_ge t.historyPending t.historyPending
      hfits).bind fun t' ht' => returns_some ht'
  | finish newLine _ out =>
    refine ⟨fun hgo => absurd hgo (Option.some_ne_none _), fun _ => ⟨rfl, ?_⟩⟩
    exact (Screen.endLine_draws ht h newLine).map fun _ ht' => ht'

/-- For every key but the one that clears the screen. -/
theorem handleKey_draws (ht : Screen.Legible t)
    (h : LineOn v₀ paper base t.prompt t.line.elems t.pos t.display) (hpos : t.pos ≤ t.line.len)
    {key : ℕ} (hclear : ¬(t.pasteActive = false ∧ key = keyClearScreen)) :
    Pictured v₀ paper base t.prompt t.line.elems (t.handleKey none key)
      ((t.editor hpos).handleKey key) := by
  refine (handleCase_does hpos fun hc => hclear ?_).pictured ht h
  exact ⟨typed_of_keyCase hc nofun (by decide), key_of_keyCase hc⟩

/-- Prompt and echo are those of `t`. -/
def KeepsPrompt (t : Screen) (r : Screen × Option GoString) : Prop :=
  r.1.prompt = t.prompt ∧ r.1.echo = t.echo

theorem keepsPrompt_of_edits {x : Option Screen} {pos : ℕ} {out : Option GoString}
    (h : Returns x (Screen.Edits w t line pos)) : Returns (x.map (·, out)) (KeepsPrompt t) := by
  refine h.map fun t' ht' => ?_
  unfold KeepsPrompt
  rw [ht'.eq]
  exact ⟨rfl, rfl⟩

theorem keepsPrompt_of_echoes {x : Option Screen} {pos : ℕ}
    (h : Returns x (Screen.Echoes w t line pos)) : Returns (x.map (·, none)) (KeepsPrompt t) :=
  keepsPrompt_of_edits (h.mono fun _ ht' => ht'.toEdits)

theorem Does.keepsPrompt {x : Option (Screen × Option GoString)} {y : Editor × Option GoString}
    {hpos : t.pos ≤ t.line.len} (hdoes : Does t hpos x y) (hok : t.display.Within w) :
    Returns x (KeepsPrompt t) := by
  cases hdoes with
  | stay => exact returns_some ⟨rfl, rfl⟩
  | insert key => exact keepsPrompt_of_echoes (Screen.addKeyToLine_returns hok hpos key)
  | move pos _ => exact keepsPrompt_of_echoes (Screen.moveTo_returns hok pos)
  | erase n => exact keepsPrompt_of_echoes (Screen.eraseNPreviousChars_returns hok hpos n)
  | delete hlt =>
    have hkeeps := keepsPrompt_of_echoes
      (Screen.eraseNPreviousChars_returns (t := { t with pos := t.pos + 1 }) hok hlt 1)
    exact hkeeps
  | cut => exact keepsPrompt_of_edits (Screen.deleteLine_returns hok hpos)
  | entry index hge pending entry =>
    have hkeeps := keepsPrompt_of_echoes (setEntry_echoes
      (t := { t with historyIndex := index, historyPending := pending, index_ge := hge }) hok entry)
    exact hkeeps
  | restore =>
    refine ((setEntry_echoes hok t.historyPending).bind fun t' ht' => returns_some ?_).map
      fun _ hr => hr
    show t'.prompt = t.prompt ∧ t'.echo = t.echo
    rw [ht'.eq]
    exact ⟨rfl, rfl⟩
  | finish newLine _ out => exact keepsPrompt_of_edits (Screen.endLine_returns hok newLine)

theorem handleCase_keepsPrompt (hok : t.display.Within w) (hpos : t.pos ≤ t.line.len)
    (c : KeyCase) : Returns (t.handleCase none c) (KeepsPrompt t) := by
  by_cases hclear : c = .clearScreen
  · subst hclear
    exact keepsPrompt_of_edits (Screen.clearScreen_returns hok)
  · exact (handleCase_does hpos hclear).keepsPrompt hok

end Keys

/-! ## Runs -/

/-- The screen of the client shows the transcript, once what is queued has been written. -/
structure Depicts (v₀ : Vt) (s : Transcript) (t : Screen) : Prop where
  refines : Refines v₀.width t s.editor
  echo_eq : t.echo = true
  prompt_eq : t.prompt = s.prompt
  text_shown : ∀ r ∈ s.text, Shown r
  idle : s.prompted = false → s.editor.line = [] ∧ s.pending = false
  written : s.pending = false → t.display.outBuf = []
  drawn : ∃ paper base paper', (s.cleared = false → paper = v₀.cell ∧ base = v₀.row) ∧
    Extends v₀.width paper base s.above paper' ∧
    LineOn v₀ paper' (base + s.above.length) s.shownPrompt s.editor.line s.editor.pos t.display

section Runs

variable {v₀ : Vt} {s : Transcript} {t : Screen}

theorem shownPrompt_of_prompted (h : s.prompted = true) : s.shownPrompt = s.prompt := if_pos h

theorem Depicts.legible (h : Depicts v₀ s t) (hprompted : s.prompted = true) :
    Screen.Legible t := by
  obtain ⟨hok, hpos, heq⟩ := h.refines
  have hshown := h.text_shown
  rw [text, shownPrompt_of_prompted hprompted, ← h.prompt_eq, ← heq] at hshown
  obtain ⟨hprompt, hline⟩ := List.forall_mem_append.mp hshown
  exact ⟨h.echo_eq, hprompt, hline, hpos⟩

/-- What is shown, in terms of the terminal. -/
theorem Depicts.lineOn (h : Depicts v₀ s t) (hprompted : s.prompted = true) :
    ∃ paper base paper', (s.cleared = false → paper = v₀.cell ∧ base = v₀.row) ∧
      Extends v₀.width paper base s.above paper' ∧
      LineOn v₀ paper' (base + s.above.length) t.prompt t.line.elems t.pos t.display := by
  obtain ⟨hok, hpos, heq⟩ := h.refines
  have hdrawn := h.drawn
  rw [shownPrompt_of_prompted hprompted, ← h.prompt_eq, ← heq] at hdrawn
  exact hdrawn

/-- Without a prompt there is nothing to be seen below the rows. -/
theorem Depicts.empty (h : Depicts v₀ s t) (hprompted : s.prompted = false) :
    s.shownPrompt = [] ∧ s.editor.line = [] ∧ s.editor.pos = 0 := by
  have hnil := (h.idle hprompted).1
  have hle := s.editor.pos_le
  rw [hnil] at hle
  exact ⟨if_neg (by rw [hprompted]; exact Bool.false_ne_true), hnil, Nat.le_zero.mp hle⟩

theorem Depicts.blank (h : Depicts v₀ s t) (hprompted : s.prompted = false) :
    ∃ paper base paper', (s.cleared = false → paper = v₀.cell ∧ base = v₀.row) ∧
      Extends v₀.width paper base s.above paper' ∧
      Painted v₀ paper' (base + s.above.length) (textOf []) 0 0 t.display := by
  obtain ⟨paper, base, paper', hfresh, hextends, rows, hrows, hpainted⟩ := h.drawn
  obtain ⟨hprompt, hline, hpos⟩ := h.empty hprompted
  rw [hprompt, hline, hpos] at hpainted
  exact ⟨paper, base, paper', hfresh, hextends, hpainted.zero⟩

/-- Nothing but the state of the paste changes. -/
theorem Depicts.paste (h : Depicts v₀ s t) (active : Bool) :
    Depicts v₀ { s with editor := { s.editor with pasteActive := active } }
      { t with pasteActive := active } := by
  obtain ⟨⟨hok, hpos, heq⟩, hecho, hprompt, hshown, hidle, hwritten, hdrawn⟩ := h
  refine ⟨⟨hok, hpos, ?_⟩, hecho, hprompt, hshown, hidle, hwritten, hdrawn⟩
  rw [← heq]
  rfl

/-- What is queued is written. -/
theorem Depicts.flush (h : Depicts v₀ s t) : Depicts v₀ { s with pending := false } t.flush := by
  obtain ⟨hrefines, hecho, hprompt, hshown, hidle, hwritten, paper, base, paper', hfresh, hextends,
      hline⟩ := h
  exact ⟨hrefines.flush, hecho, hprompt, hshown, fun hp => ⟨(hidle hp).1, rfl⟩, fun _ => rfl,
    paper, base, paper', hfresh, hextends, hline.flush⟩

/-- What is shown is the same. -/
theorem Depicts.redraw (h : Depicts v₀ s t) {d : Display}
    (hqueue : t.display.outBuf = [] → d.outBuf = []) {paper paper' : ℕ → ℕ → ℕ} {base : ℕ}
    (hfresh : s.cleared = false → paper = v₀.cell ∧ base = v₀.row)
    (hextends : Extends v₀.width paper base s.above paper')
    (hline : LineOn v₀ paper' (base + s.above.length) s.shownPrompt s.editor.line s.editor.pos d) :
    Depicts v₀ s (t.withDisplay d) := by
  obtain ⟨⟨hok, hpos, heq⟩, hecho, hprompt, hshown, hidle, hwritten, -⟩ := h
  exact ⟨⟨hline.within, hpos, heq⟩, hecho, hprompt, hshown, hidle, fun hp => hqueue (hwritten hp),
    paper, base, paper', hfresh, hextends, hline⟩

/-- The line appears below other rows. -/
theorem Depicts.below (h : Depicts v₀ s t) {d : Display} {rows : List (List ℕ)}
    (hqueue : d.outBuf = []) {paper paper₁ paper₂ : ℕ → ℕ → ℕ} {base : ℕ}
    (hfresh : s.cleared = false → paper = v₀.cell ∧ base = v₀.row)
    (hextends₁ : Extends v₀.width paper base s.above paper₁)
    (hextends₂ : Extends v₀.width paper₁ (base + s.above.length) rows paper₂)
    (hline : LineOn v₀ paper₂ (base + s.above.length + rows.length) s.shownPrompt s.editor.line
      s.editor.pos d) :
    Depicts v₀ { s with above := s.above ++ rows, pending := false } (t.withDisplay d) := by
  obtain ⟨⟨hok, hpos, heq⟩, hecho, hprompt, hshown, hidle, -, -⟩ := h
  refine ⟨⟨hline.within, hpos, heq⟩, hecho, hprompt, hshown, fun hp => ⟨(hidle hp).1, rfl⟩,
    fun _ => hqueue, paper, base, paper₂, hfresh, hextends₁.append hextends₂, ?_⟩
  rw [List.length_append, ← Nat.add_assoc]
  exact hline

/-- Other output. -/
theorem write_depicts (h : Depicts v₀ s t) {s' : Transcript} {buf : GoString}
    (hwrite : s.write v₀.width v₀.height buf = some s') :
    Returns (t.write buf) (Depicts v₀ s') := by
  obtain ⟨lines, hlines, hrest⟩ := Option.bind_eq_some_iff.mp hwrite
  have hbuf : outputBytes lines = buf := by
    unfold outputLines at hlines
    dsimp only at hlines
    split_ifs at hlines with hbytes
    cases hlines
    exact hbytes
  split_ifs at hrest with hcond
  cases hrest
  obtain ⟨hfits, hlast⟩ := hcond
  rw [← hbuf]
  by_cases hprompted : s.prompted = true
  · obtain ⟨paper, base, paper₁, hfresh, hextends₁, hline⟩ := h.lineOn hprompted
    obtain ⟨hok, hpos, heq⟩ := h.refines
    obtain ⟨hoffset, hlast⟩ := hlast hprompted
    rw [offset, shownPrompt_of_prompted hprompted, ← h.prompt_eq, ← heq] at hoffset hlast
    rw [text, shownPrompt_of_prompted hprompted, ← h.prompt_eq, ← heq, List.length_append,
      show (t.editor hpos).line.length = t.line.len from t.line.length_elems] at hlast
    refine (Screen.write_draws (h.legible hprompted) hline hoffset hlast hfits).mono ?_
    rintro _ ⟨d, rfl, hqueue, paper₂, hextends₂, hline₂⟩
    refine h.below hqueue hfresh hextends₁ hextends₂ ?_
    rw [shownPrompt_of_prompted hprompted, ← h.prompt_eq, ← heq]
    exact hline₂
  · have hidle := Bool.eq_false_iff.mpr hprompted
    obtain ⟨paper, base, paper₁, hfresh, hextends₁, hpainted⟩ := h.blank hidle
    refine (Screen.write_above hpainted (h.written (h.idle hidle).2) hfits).mono ?_
    rintro _ ⟨d, rfl, hqueue, paper₂, hextends₂, hpainted₂⟩
    obtain ⟨hprompt, hline, hpos⟩ := h.empty hidle
    refine h.below hqueue hfresh hextends₁ hextends₂ ?_
    rw [hprompt, hline, hpos]
    exact ⟨0, (Nat.zero_div _).le, hpainted₂⟩

/-- A key that goes on. -/
theorem Depicts.goOn (h : Depicts v₀ s t) (hprompted : s.prompted = true) {t₁ : Screen}
    {out : Option GoString}
    {ed : Editor} {above : List (List ℕ)} {cleared : Bool} (href : Refines v₀.width t₁ ed)
    (hkeeps : KeepsPrompt t (t₁, out)) (hshown : ∀ r ∈ s.shownPrompt ++ ed.line, Shown r)
    (hdrawn : ∃ paper base paper', (cleared = false → paper = v₀.cell ∧ base = v₀.row) ∧
      Extends v₀.width paper base above paper' ∧
      LineOn v₀ paper' (base + above.length) t.prompt ed.line ed.pos t₁.display) :
    Depicts v₀ { s with editor := ed, above := above, cleared := cleared, pending := true } t₁ := by
  refine ⟨href, hkeeps.2.trans h.echo_eq, hkeeps.1.trans h.prompt_eq, hshown, fun hp => ?_,
    fun hp => ?_, ?_⟩
  · exact absurd (hp.symm.trans hprompted) Bool.false_ne_true
  · exact absurd hp.symm Bool.false_ne_true
  · rw [h.prompt_eq, ← shownPrompt_of_prompted hprompted] at hdrawn
    exact hdrawn

/-- A key that ends the line. -/
theorem Depicts.newLine (h : Depicts v₀ s t) (hprompted : s.prompted = true) {t₁ : Screen}
    {out : Option GoString} {ed : Editor} {line : GoString} (href : Refines v₀.width t₁ ed)
    (hkeeps : KeepsPrompt t (t₁, out)) (hnil : ed.line = [])
    (hdrawn : ∃ paper base paper₁ paper₂, (s.cleared = false → paper = v₀.cell ∧ base = v₀.row) ∧
      Extends v₀.width paper base s.above paper₁ ∧
      Extends v₀.width paper₁ (base + s.above.length)
        (lineRows v₀.width (t.prompt ++ t.line.elems)) paper₂ ∧
      Painted v₀ paper₂
        (base + s.above.length + (lineRows v₀.width (t.prompt ++ t.line.elems)).length)
        (textOf []) 0 0 t₁.display) :
    Depicts v₀ { s with
      editor := ed.addToHistory line
      above := s.above ++ lineRows v₀.width s.text
      prompted := false
      pending := false } (t₁.flush.addToHistory line) := by
  obtain ⟨paper, base, paper₁, paper₂, hfresh, hextends₁, hextends₂, hpainted⟩ := hdrawn
  have htext : t.prompt ++ t.line.elems = s.text := by
    obtain ⟨hok, hpos, heq⟩ := h.refines
    rw [text, shownPrompt_of_prompted hprompted, ← h.prompt_eq, ← heq]
    rfl
  rw [htext] at hextends₂ hpainted
  have hecho : t₁.flush.echo = true := hkeeps.2.trans h.echo_eq
  have hadd : t₁.flush.addToHistory line = { t₁.flush with
      historyIndex := -1, history := t₁.history.add line, index_ge := Editor.new.index_ge } :=
    if_pos hecho
  have hline : (ed.addToHistory line).line = [] := by
    unfold Editor.addToHistory
    split_ifs
    · exact hnil
    · exact hnil
  have hpos : (ed.addToHistory line).pos = 0 := by
    have hle := (ed.addToHistory line).pos_le
    rw [hline] at hle
    exact Nat.le_zero.mp hle
  have hdisplay : (t₁.flush.addToHistory line).display = t₁.display.flush := by rw [hadd]; rfl
  refine ⟨href.flush.addToHistory line, ?_, ?_, ?_, fun _ => ⟨hline, rfl⟩, fun _ => ?_, ?_⟩
  · rw [hadd]
    exact hecho
  · rw [hadd]
    exact hkeeps.1.trans h.prompt_eq
  · intro r hr
    exact absurd hr (by
      show r ∉ [] ++ (ed.addToHistory line).line
      rw [hline]
      exact List.not_mem_nil)
  · rw [hdisplay]
    rfl
  · refine ⟨paper, base, paper₂, hfresh, hextends₁.append hextends₂, 0, ?_, ?_⟩
    · show (0 + (ed.addToHistory line).line.length) / v₀.width ≤ 0
      rw [hline, List.length_nil, Nat.zero_div]
    · rw [hdisplay]
      show Painted v₀ paper₂ _ (textOf ([] ++ (ed.addToHistory line).line)) 0
          (0 + (ed.addToHistory line).pos) _
      rw [hline, hpos, List.length_append, ← Nat.add_assoc]
      exact hpainted.flush

theorem readKey_depicts (h : Depicts v₀ s t) (hprompted : s.prompted = true) {key : ℕ}
    {r : Transcript × Bool} (hkey : s.readKey v₀.width v₀.height key = some r) :
    Returns (t.readKey none key) fun r' => r'.2 = r.2 ∧ Depicts v₀ r.1 r'.1 ∧
      (r.2 = false → r.1.prompted = true) := by
  obtain ⟨hok, hpos, heq⟩ := h.refines
  have hempty : s.editor.line = [] ↔ t.line.len = 0 := by
    rw [← heq, ← t.line.length_elems]
    exact List.length_eq_zero_iff.symm
  have hpaste : s.editor.pasteActive = t.pasteActive := by
    rw [← heq]
    rfl
  unfold Transcript.readKey at hkey
  unfold Screen.readKey
  rw [hpaste] at hkey
  by_cases hend : t.pasteActive = false ∧ key = keyCtrlD ∧ t.line.len = 0
  · rw [if_pos (by rwa [hempty])] at hkey
    cases hkey
    rw [if_pos hend]
    exact returns_some ⟨rfl, h, fun hgo => absurd hgo.symm Bool.false_ne_true⟩
  rw [if_neg (by rwa [hempty])] at hkey
  rw [if_neg hend]
  by_cases hstart : t.pasteActive = false ∧ key = keyPasteStart
  · rw [if_pos hstart] at hkey ⊢
    cases hkey
    exact returns_some ⟨rfl, h.paste true, fun _ => hprompted⟩
  rw [if_neg hstart] at hkey ⊢
  by_cases hstop : t.pasteActive = true ∧ key = keyPasteEnd
  · rw [if_pos hstop] at hkey ⊢
    cases hkey
    exact returns_some ⟨rfl, h.paste false, fun _ => hprompted⟩
  rw [if_neg hstop] at hkey ⊢
  obtain ⟨paper, base, paper₁, hfresh, hextends, hline⟩ := h.lineOn hprompted
  have hlegible := h.legible hprompted
  have hboth := (handleKey_refines h.refines key).and
    (handleCase_keepsPrompt hok hpos (keyCase t.pasteActive key))
  by_cases hclear : t.pasteActive = false ∧ key = keyClearScreen
  · -- the rows above are gone
    obtain ⟨hactive, rfl⟩ := hclear
    have hstay : s.editor.handleKey keyClearScreen = (s.editor, none) := by
      rw [Editor.handleKey_of_typed (hpaste.trans hactive)]
      rfl
    have hdraw : t.handleKey none keyClearScreen = t.clearScreen.map (·, none) := by
      rw [Screen.handleKey, keyCase_of_typed hactive]
      rfl
    rw [hstay] at hkey hboth
    rw [hdraw] at hboth ⊢
    dsimp only at hkey
    rw [if_pos ⟨hactive, rfl⟩] at hkey
    cases hkey
    have hcleared := (Screen.clearScreen_draws hlegible hline).map
      (f := fun t' => (t', (none : Option GoString)))
      (Q := fun r => ∃ (paper' : ℕ → ℕ → ℕ) (base' : ℕ),
        LineOn v₀ paper' base' t.prompt t.line.elems t.pos r.1.display) fun _ ht' => ht'
    refine (hboth.and hcleared).bind ?_
    rintro ⟨t₁, out⟩ ⟨⟨⟨href, rfl⟩, hkeeps⟩, paper', base', hline'⟩
    refine returns_some ⟨rfl, h.goOn hprompted href hkeeps h.text_shown ?_, fun _ => hprompted⟩
    refine ⟨paper', base', paper', fun hc => absurd hc.symm Bool.false_ne_true, extends_nil _ _ _,
      ?_⟩
    rw [← heq]
    exact hline'
  have hpicture : Pictured v₀ paper₁ (base + s.above.length) t.prompt t.line.elems
      (t.handleKey none key) (s.editor.handleKey key) := by
    rw [← heq]
    exact handleKey_draws hlegible hline hpos hclear
  rcases hres : s.editor.handleKey key with ⟨ed, out⟩
  rw [hres] at hkey hboth hpicture
  cases out with
  | none =>
    dsimp only at hkey
    rw [if_neg hclear] at hkey
    obtain ⟨s', hs', rfl⟩ := Option.map_eq_some_iff.mp hkey
    unfold checked at hs'
    split_ifs at hs' with hfits
    cases hs'
    have hfits' : Fits v₀.width v₀.height (t.prompt ++ ed.line) := by
      rw [h.prompt_eq, ← shownPrompt_of_prompted hprompted]
      exact hfits
    refine (hboth.and (hpicture.going rfl hfits')).bind ?_
    rintro ⟨t₁, out⟩ ⟨⟨⟨href, rfl⟩, hkeeps⟩, hline'⟩
    exact returns_some
      ⟨rfl, h.goOn hprompted href hkeeps hfits.1 ⟨paper, base, paper₁, hfresh, hextends, hline'⟩,
      fun _ => hprompted⟩
  | some line =>
    cases hkey
    obtain ⟨hnil, hended⟩ := hpicture.ended (Option.some_ne_none _)
    refine (hboth.and hended).bind ?_
    rintro ⟨t₁, out⟩ ⟨⟨⟨href, rfl⟩, hkeeps⟩, paper₂, hextends₂, hpainted⟩
    refine returns_some
      ⟨rfl, h.newLine hprompted href hkeeps hnil ?_, fun hgo => absurd hgo.symm Bool.false_ne_true⟩
    exact ⟨paper, base, paper₁, paper₂, hfresh, hextends, hextends₂, hpainted⟩

/-- One event of a call that reads a line. -/
theorem event_depicts (h : Depicts v₀ s t) (hprompted : s.prompted = true) {e : Event}
    {r : Transcript × Bool} (he : s.event v₀.width v₀.height e = some r) :
    Returns (t.event none e) fun r' =>
      r'.2 = r.2 ∧ Depicts v₀ r.1 r'.1 ∧ (r.2 = false → r.1.prompted = true) := by
  cases e with
  | key key => exact readKey_depicts h hprompted he
  | wait =>
    cases he
    exact returns_some ⟨rfl, h.flush, fun _ => hprompted⟩
  | write buf =>
    obtain ⟨s', hs', rfl⟩ := Option.map_eq_some_iff.mp he
    have hprompted' : s'.prompted = true := by
      obtain ⟨lines, -, hrest⟩ := Option.bind_eq_some_iff.mp hs'
      split_ifs at hrest
      cases hrest
      exact hprompted
    exact (write_depicts h.flush hs').map fun t' ht' => ⟨rfl, ht', fun _ => hprompted'⟩
  | setSize width height =>
    unfold Transcript.event at he
    dsimp only at he
    split_ifs at he with hwidth
    cases he
    have hold : Screen.newWidth width = t.flush.display.termWidth := by
      rw [hwidth]
      exact h.refines.ok.width_eq.symm
    refine Returns.map (P := Depicts v₀ { s with pending := false }) ?_ fun _ ht' =>
      ⟨rfl, ht', fun _ => hprompted⟩
    unfold Screen.setSize
    rw [if_pos hold]
    obtain ⟨paper, base, paper', hfresh, hextends, rows, hrows, hpainted⟩ := h.flush.drawn
    exact returns_some (h.flush.redraw id hfresh hextends ⟨rows, hrows,
      hpainted.valid, hpainted.page, hpainted.stands, hwidth, hpainted.cursorX_eq,
        hpainted.cursorY_eq⟩)
  | fail =>
    cases he
    exact returns_some ⟨rfl, h.flush, fun hgo => absurd hgo.symm Bool.false_ne_true⟩

/-- The prompt at the beginning of a call. -/
theorem showPrompt_depicts (h : Depicts v₀ s t)
    (hfits : Fits v₀.width v₀.height ({ s with prompted := true } : Transcript).text) :
    Returns t.showPrompt (Depicts v₀ { s with prompted := true }) := by
  by_cases hprompted : s.prompted = true
  · have hsame : ({ s with prompted := true } : Transcript) = s := by rw [← hprompted]
    rw [hsame]
    obtain ⟨paper, base, paper₁, hfresh, hextends, hline⟩ := h.lineOn hprompted
    refine (Screen.showPrompt_again hline).mono ?_
    rintro _ ⟨d, rfl, hqueue, hline'⟩
    refine h.redraw hqueue hfresh hextends ?_
    obtain ⟨hok, hpos, heq⟩ := h.refines
    rw [shownPrompt_of_prompted hprompted, ← h.prompt_eq, ← heq]
    exact hline'
  · have hidle := Bool.eq_false_iff.mpr hprompted
    obtain ⟨paper, base, paper₁, hfresh, hextends, hpainted⟩ := h.blank hidle
    obtain ⟨-, hnil, hpos⟩ := h.empty hidle
    obtain ⟨hshown, hlt⟩ := hfits
    have htext : ({ s with prompted := true } : Transcript).text = t.prompt := by
      rw [h.prompt_eq]
      show s.prompt ++ s.editor.line = s.prompt
      rw [hnil, List.append_nil]
    rw [htext] at hlt
    refine (Screen.showPrompt_draws (fun r hr => hshown r (htext ▸ hr)) hpainted hlt).mono ?_
    rintro _ ⟨d, rfl, hqueue, hline⟩
    obtain ⟨⟨hok, hle, heq⟩, hecho, hprompt, -, -, -, -⟩ := h
    refine ⟨⟨hline.within, hle, heq⟩, hecho, hprompt, hshown,
      fun hp => absurd hp.symm Bool.false_ne_true,
      fun _ => hqueue, paper, base, paper₁, hfresh, hextends, ?_⟩
    show LineOn v₀ paper₁ _ s.prompt s.editor.line s.editor.pos d
    rw [hnil, hpos, ← hprompt]
    exact hline

/-- A call. -/
theorem call_depicts (h : Depicts v₀ s t) {c : HandlerCall} {r : Transcript × Bool}
    (hc : s.call v₀.width v₀.height c = some r) :
    Returns (t.call c) fun r' => r'.2 = r.2 ∧ Depicts v₀ r.1 r'.1 := by
  cases c with
  | readLine es =>
    obtain ⟨s₁, hs₁, hrest⟩ := Option.bind_eq_some_iff.mp hc
    obtain ⟨r₁, hrun, hr⟩ := Option.bind_eq_some_iff.mp hrest
    cases hr
    unfold checked at hs₁
    split_ifs at hs₁ with hfits
    cases hs₁
    -- the prompt is there until the call ends
    refine Returns.map ((showPrompt_depicts h hfits).bind fun t₁ h₁ => runUntil_simulates
      (R := fun s t => Depicts v₀ s t ∧ s.prompted = true) (Q := Depicts v₀) (fun _ _ hR => hR.1) ?_
        ⟨h₁, rfl⟩ hrun) ?_
    · rintro s t e r ⟨hs, hprompted⟩ he
      exact (event_depicts hs hprompted he).mono fun r' ⟨hended, hr, hgo⟩ =>
        ⟨hended, hr, fun hf => ⟨hr, hgo hf⟩⟩
    · rintro ⟨t', ended⟩ ⟨rfl, ht'⟩
      exact ⟨rfl, ht'⟩
  | write buf =>
    obtain ⟨s', hs', rfl⟩ := Option.map_eq_some_iff.mp hc
    exact (write_depicts h hs').map fun t' ht' => ⟨rfl, ht'⟩
  | setPrompt prompt =>
    unfold Transcript.call at hc
    split_ifs at hc with hprompted
    cases hc
    have hidle := Bool.eq_false_iff.mpr hprompted
    have hsame : ({ s with prompt := runes prompt } : Transcript).shownPrompt = s.shownPrompt := by
      rw [(h.empty hidle).1]
      exact if_neg hprompted
    obtain ⟨⟨hok, hpos, heq⟩, hecho, -, hshown, hidle', hwritten, hdrawn⟩ := h
    refine returns_some ⟨rfl, ⟨hok, hpos, heq⟩, hecho, rfl, ?_, hidle', hwritten, ?_⟩
    · rw [text, hsame]
      exact hshown
    · rw [hsame]
      exact hdrawn

/-- A screen that is empty below its cursor, which is at the beginning of a row. -/
structure Fresh (v : Vt) : Prop where
  width_pos : 0 < v.width
  parse_eq : v.parse = .ground
  wrap_eq : v.wrapNext = false
  col_eq : v.col = 0
  top_le : v.top ≤ v.row
  row_lt : v.row < v.top + v.height
  blank : ∀ r c, v.row ≤ r → c < v.width → v.cell r c = 32

/-- The screen shows the transcript, with the cursor at its place and all of the prompt and the
    line on the screen. Without a cleared screen the transcript begins at the row of the cursor
    of `v₀`, and the rows above are still there. -/
structure Displays (v₀ : Vt) (s : Transcript) (base : ℕ) (v : Vt) : Prop where
  cell_eq : ∀ r c, base ≤ r → c < v₀.width →
    v.cell r c = ((s.above ++ lineRows v₀.width s.text).getD (r - base) []).getD c 32
  row_eq : v.row = base + s.above.length + s.offset / v₀.width
  col_eq : v.col = s.offset % v₀.width
  top_le : v.top ≤ base + s.above.length
  last_lt : base + s.above.length + s.text.length / v₀.width < v.top + v.height
  kept : s.cleared = false → base = v₀.row ∧ ∀ r c, r < base → c < v₀.width →
    v.cell r c = v₀.cell r c

/-- The cells of the rows of a line, and the empty rows below them. -/
theorem getD_lineRows {w : ℕ} (hw : 0 < w) (text : List ℕ) (k : ℕ) {c : ℕ} (hc : c < w) :
    ((lineRows w text).getD k []).getD c 32 = textOf text (k * w + c) := by
  by_cases hk : k < text.length / w + 1
  · exact getD_rowsFor hk hc text
  · have hlt := Nat.lt_div_mul_add (a := text.length) hw
    have hmul : (text.length / w + 1) * w ≤ k * w := Nat.mul_le_mul_right w (by omega)
    rw [Nat.add_mul, Nat.one_mul] at hmul
    rw [List.getD_eq_default (lineRows w text) _ (by rw [lineRows, length_rowsFor]; omega), textOf,
      List.getD_eq_default text _ (by omega)]
    rfl

theorem Depicts.displays (h : Depicts v₀ s t) : ∃ base, Displays v₀ s base (seen v₀ t.display) := by
  obtain ⟨paper, base, paper', hfresh, hextends, rows, hrows, hpainted⟩ := h.drawn
  have hcell := hpainted.page.cell_eq
  have hrow := hpainted.stands.row_eq
  have hcol := hpainted.stands.col_eq
  have hlt := hpainted.page.rows_lt
  rw [seen_width] at hcell hrow hcol
  refine ⟨base, ?_, hrow, hcol, hpainted.page.top_le, ?_, ?_⟩
  · intro r c hr hc
    rw [hcell r c hc]
    by_cases habove : r < base + s.above.length
    · rw [if_pos habove, hextends r c habove hc, if_neg (by omega),
        List.getD_append _ _ _ _ (by omega)]
    · rw [if_neg habove, List.getD_append_right _ _ _ _ (by omega),
        getD_lineRows hpainted.width_pos _ _ hc, Nat.sub_sub]
      rfl
  · rw [text, List.length_append]
    omega
  · intro hc
    obtain ⟨rfl, rfl⟩ := hfresh hc
    refine ⟨rfl, fun r c hr hw => ?_⟩
    rw [hcell r c hw, if_pos (by omega), hextends r c (by omega) hw, if_pos hr]

/-- A new terminal of the size of the screen. -/
theorem new_depicts (hv₀ : Fresh v₀) (prompt : GoString) :
    Returns ((Screen.new prompt).setSize v₀.width v₀.height)
      (Depicts v₀ (Transcript.new prompt)) := by
  have hw : Screen.newWidth v₀.width = v₀.width := if_neg hv₀.width_pos.ne'
  have hheight := hv₀.row_lt
  have hsize : (Screen.new prompt).setSize v₀.width v₀.height =
      some ((Screen.new prompt).withDisplay ⟨v₀.width, v₀.height, 0, 0, 0, [], []⟩) := by
    unfold Screen.setSize
    rw [hw]
    dsimp only
    by_cases hsame : v₀.width = (Screen.new prompt).display.termWidth
    · rw [if_pos hsame]
      rfl
    · rw [if_neg hsame]
      exact if_pos ⟨rfl, rfl, rfl⟩
  rw [hsize]
  refine returns_some
    ⟨⟨⟨rfl, hv₀.width_pos, hv₀.width_pos⟩, Nat.zero_le _, ?_⟩, rfl, rfl, ?_, fun _ => ⟨rfl, rfl⟩,
    fun _ => rfl, v₀.cell, v₀.row, v₀.cell, fun _ => ⟨rfl, rfl⟩, extends_nil _ _ _, 0, ?_, ?_⟩
  · rfl
  · intro r hr
    cases hr
  · exact (Nat.zero_div _).le
  · have hrow : v₀.row = v₀.row + 0 / v₀.width := by rw [Nat.zero_div, Nat.add_zero]
    refine ⟨rfl, ⟨hv₀.width_pos, hv₀.parse_eq, ?_, hv₀.top_le, hheight⟩,
      ⟨hv₀.wrap_eq, hrow, ?_, ?_⟩, rfl, ?_, ?_⟩
    · intro r c hc
      show v₀.cell r c = if r < v₀.row then v₀.cell r c else 32
      split_ifs with hr
      · rfl
      · exact hv₀.blank r c (by omega) hc
    · exact hv₀.col_eq.trans (Nat.zero_mod v₀.width).symm
    · exact (Nat.zero_div _).le
    · exact (Nat.zero_mod _).symm
    · exact (Nat.zero_div _).symm

/-- What the user sees, after any calls of a handler on a new terminal: the transcript. Output
    that is still queued when a call returns is not seen: that of the keys before Ctrl-D. -/
theorem screen_shows_transcript (v₀ : Vt) (hv₀ : Fresh v₀) (prompt : GoString)
    (calls : List HandlerCall) (s : Transcript) (waits : Bool)
    (hrun : runUntil (Transcript.call v₀.width v₀.height) (Transcript.new prompt) calls =
      some (s, waits)) :
    ∃ t₀ t, (Screen.new prompt).setSize v₀.width v₀.height = some t₀ ∧
      runUntil Screen.call t₀ calls = some (t, waits) ∧
      (waits = true ∨ s.pending = false →
        ∃ base, Displays v₀ s base (v₀.feed (runes (Screen.written (t, !waits))))) := by
  obtain ⟨t₀, hnew, h₀⟩ := new_depicts hv₀ prompt
  have hstep : ∀ s t c r, Depicts v₀ s t → s.call v₀.width v₀.height c = some r →
      Returns (t.call c) fun r' => r'.2 = r.2 ∧ Depicts v₀ r.1 r'.1 ∧
        (r.2 = false → Depicts v₀ r.1 r'.1) :=
    fun s t c r hs hc => (call_depicts hs hc).mono fun r' hr' => ⟨hr'.1, hr'.2, fun _ => hr'.2⟩
  obtain ⟨⟨t, waits'⟩, ht, rfl, hdepicts⟩ := runUntil_simulates (fun _ _ hs => hs) hstep h₀ hrun
  refine ⟨t₀, t, hnew, ht, fun hseen => ?_⟩
  obtain ⟨base, hdisplays⟩ := hdepicts.displays
  refine ⟨base, ?_⟩
  have hbytes : Screen.written (t, !waits') = t.display.sent ++ t.display.outBuf := by
    cases waits' with
    | true => rfl
    | false =>
      rw [hdepicts.written (hseen.resolve_left Bool.false_ne_true), List.append_nil]
      rfl
  rw [hbytes]
  exact hdisplays

/-- An empty screen of three rows, a line that is read, output, and another line with the cursor
    moved back. -/
theorem screen_shows_transcript_output :
    ∃ v₀ s, Fresh v₀ ∧
      runUntil (Transcript.call v₀.width v₀.height) (Transcript.new (str "> "))
        [.readLine [.key 97, .key keyEnter], .write (str "no\n"),
          .readLine [.key 98, .key keyLeft]] = some (s, true) ∧
      s.above = [[62, 32, 97], [110, 111]] ∧ s.text = [62, 32, 98] ∧ s.offset = 2 ∧
      ∃ t₀ t, (Screen.new (str "> ")).setSize v₀.width v₀.height = some t₀ ∧
        runUntil Screen.call t₀
          [.readLine [.key 97, .key keyEnter], .write (str "no\n"),
            .readLine [.key 98, .key keyLeft]] = some (t, true) ∧
        (true = true ∨ s.pending = false →
          ∃ base, Displays v₀ s base (v₀.feed (runes (Screen.written (t, !true))))) := by
  have hfresh : Fresh ⟨5, 3, 0, 0, 0, false, .ground, fun _ _ => 32⟩ :=
    ⟨by decide, rfl, rfl, rfl, by decide, by decide, fun _ _ _ _ => rfl⟩
  exact ⟨_, _, hfresh, rfl, rfl, rfl, rfl, screen_shows_transcript _ hfresh _ _ _ _ rfl⟩

end Runs

end GoJump.Common
