import GoJump.Common.LineEditor

/-!
# Terminals with the same line

What stands in the array of `line` behind the line itself, such as the characters of a line
that has been entered, has no influence: two terminals that differ only in this stay so,
and write the same bytes.

* `handleKey_same`, `write_same`, `showPrompt_same`, `setSize_same`: everything that changes
  the terminal keeps two of them the same, and returns.
-/

namespace GoJump.Common

open GoJump.Go GoJump.Lib

namespace Screen

/-- The same but for the array of the line; the cursor is within a line of the screen, and
    the position within the line. -/
structure Same (t t' : Screen) : Prop where
  eq : t' = { t with line := t'.line }
  elems_eq : t'.line.elems = t.line.elems
  ok : t.display.Within t.display.termWidth
  pos_le : t.pos ≤ t.line.len

section Same

variable {w : ℕ} {t t' : Screen}

theorem Same.len_eq (h : Same t t') : t'.line.len = t.line.len := by
  rw [← Slice.length_elems, h.elems_eq, Slice.length_elems]

theorem Same.symm (h : Same t t') : Same t' t := by
  obtain ⟨heq, helems, hok, hpos⟩ := h
  have hlen : t'.line.len = t.line.len := by rw [← Slice.length_elems, helems, Slice.length_elems]
  refine ⟨?_, helems.symm, ?_, ?_⟩
  · rw [heq]
  · rw [heq]
    exact hok
  · rw [heq]
    exact hlen ▸ hpos

theorem Same.display_eq (h : Same t t') : t'.display = t.display := by rw [h.eq]

/-- A change that has nothing to do with the line. -/
theorem Same.withDisplay (h : Same t t') {d : Display} (hd : d.Within w) :
    Same (t.withDisplay d) (t'.withDisplay d) := by
  refine ⟨?_, h.elems_eq, ⟨rfl, hd.width_pos, hd.cursor_lt⟩, h.pos_le⟩
  rw [h.eq]
  rfl

/-- A new line and position. -/
theorem Same.withLine (h : Same t t') {line line' : Slice ℕ} {pos : ℕ}
    (hline : line'.elems = line.elems) (hpos : pos ≤ line.len) :
    Same { t with line := line, pos := pos } { t' with line := line', pos := pos } := by
  refine ⟨?_, hline, h.ok, hpos⟩
  rw [h.eq]

theorem Same.pos_eq (h : Same t t') : t'.pos = t.pos := by rw [h.eq]

theorem Same.echo_eq (h : Same t t') : t'.echo = t.echo := by rw [h.eq]

theorem Same.echo_iff (h : Same t t') : t'.echo = true ↔ t.echo = true := by rw [h.echo_eq]

theorem Same.prompt_eq (h : Same t t') : t'.prompt = t.prompt := by rw [h.eq]

/-- What stands behind the position. -/
theorem Same.after (h : Same t t') :
    Returns₂ (t.line.after t.pos) (t'.line.after t'.pos) fun rest rest' => rest' = rest := by
  rw [Slice.after_spec h.pos_le, Slice.after_spec h.symm.pos_le, h.elems_eq, h.pos_eq]
  exact returns₂_some rfl

/-- Two new lines with the same elements. -/
theorem slices_same {elems : List ℕ} {x x' : Option (Slice ℕ)}
    (hx : Returns x fun s => s.elems = elems) (hx' : Returns x' fun s => s.elems = elems) :
    Returns₂ x x' fun s s' => s'.elems = s.elems ∧ s.len = elems.length := by
  refine hx.both hx' fun s s' hs hs' => ⟨hs'.trans hs.symm, ?_⟩
  rw [← hs, Slice.length_elems]

theorem paint_same (h : Same t t') {f : Display → Option Display}
    (hf : Returns (f t.display) (Display.Within w)) : Returns₂ (t.paint f) (t'.paint f) Same := by
  obtain ⟨d, hd, hok⟩ := hf
  refine ⟨t.withDisplay d, t'.withDisplay d, ?_, ?_, h.withDisplay hok⟩
  · rw [paint, hd]
    rfl
  · rw [paint, h.display_eq, hd]
    rfl

theorem moveCursorToPos_same (h : Same t t') (pos : ℕ) :
    Returns₂ (t.moveCursorToPos pos) (t'.moveCursorToPos pos) Same := by
  unfold moveCursorToPos
  rw [h.prompt_eq]
  refine Returns₂.ite (by rw [h.echo_eq]) (fun _ => returns₂_some h) fun _ => ?_
  refine paint_same (w := t.display.termWidth) h ?_
  rw [if_neg h.ok.width_pos.ne']
  exact returns_some ⟨rfl, h.ok.width_pos, Nat.mod_lt _ h.ok.width_pos⟩

theorem moveTo_same (h : Same t t') {pos : ℕ} (hpos : pos ≤ t.line.len) :
    Returns₂ (t.moveTo pos) (t'.moveTo pos) Same :=
  moveCursorToPos_same (h.withLine h.elems_eq hpos) pos

theorem setLine_same (h : Same t t') {line line' : Slice ℕ} (hline : line'.elems = line.elems)
    {pos : ℕ} (hpos : pos ≤ line.len) :
    Returns₂ (t.setLine line pos) (t'.setLine line' pos) Same := by
  have hlen : line'.len = line.len := by rw [← Slice.length_elems, hline, Slice.length_elems]
  unfold setLine
  refine Returns₂.ite h.echo_iff (fun _ => ?_) fun _ => returns₂_some (h.withLine hline hpos)
  refine (moveCursorToPos_same h 0).bind fun t₁ t₁' h₁ => ?_
  rw [hline]
  refine (paint_same h₁ (h₁.ok.writeLine _)).bind fun t₂ t₂' h₂ => ?_
  rw [h₂.len_eq, hlen]
  refine (paint_same h₂ (h₂.ok.writeSpaces _)).bind fun t₃ t₃' h₃ => ?_
  refine (moveCursorToPos_same h₃ pos).bind fun t₄ t₄' h₄ => ?_
  exact returns₂_some (h₄.withLine hline hpos)

theorem eraseNPreviousChars_same (h : Same t t') (n : ℕ) :
    Returns₂ (t.eraseNPreviousChars n) (t'.eraseNPreviousChars n) Same := by
  unfold eraseNPreviousChars
  refine Returns₂.ite Iff.rfl (fun _ => returns₂_some h) fun _ => ?_
  rw [h.pos_eq]
  have hle : (if t.pos < n then t.pos else n) ≤ t.pos := by split_ifs <;> omega
  generalize (if t.pos < n then t.pos else n) = m at hle
  have hpos := h.pos_le
  refine ((moveTo_same h (show t.pos - m ≤ t.line.len by omega)).and_left
    (moveTo_returns h.ok _)).bind fun t₁ t₁' h₁ => ?_
  obtain ⟨h₁, hmove⟩ := h₁
  have hroom : t₁.pos + m ≤ t₁.line.len := by
    rw [hmove.pos_eq, hmove.len_eq, Slice.length_elems]
    omega
  have hdelete' := Slice.delete_spec (show t₁'.pos + m ≤ t₁'.line.len by
    rw [h₁.pos_eq, h₁.len_eq]; exact hroom)
  rw [h₁.pos_eq, h₁.elems_eq] at hdelete'
  rw [h₁.pos_eq]
  refine (slices_same (Slice.delete_spec hroom) hdelete').bind fun line₂ line₂' h₂ => ?_
  have hlen : t₁.pos ≤ line₂.len := by
    rw [h₂.2, List.length_append, List.length_take, Slice.length_elems]
    omega
  have hline := h₁.withLine h₂.1 hlen
  refine Returns₂.ite hline.echo_iff (fun _ => ?_) fun _ => returns₂_some hline
  refine hline.after.bind fun rest rest' hrest => ?_
  rw [hrest]
  refine (paint_same hline (hline.ok.writeLine rest)).bind fun t₃ t₃' h₃ => ?_
  refine (paint_same h₃ ((h₃.ok.queue _).advanceCursor m)).bind fun t₄ t₄' h₄ => ?_
  rw [h₄.pos_eq]
  exact moveCursorToPos_same h₄ _

theorem addKeyToLine_same (h : Same t t') (key : ℕ) :
    Returns₂ (t.addKeyToLine key) (t'.addKeyToLine key) Same := by
  unfold addKeyToLine
  have hinsert' := Slice.insert_spec h.symm.pos_le 0 key
  rw [h.pos_eq, h.elems_eq] at hinsert'
  rw [h.pos_eq]
  refine (slices_same (Slice.insert_spec h.pos_le 0 key) hinsert').bind fun line₁ line₁' h₁ => ?_
  have hlen : t.pos + 1 ≤ line₁.len := by
    have hpos := h.pos_le
    rw [h₁.2, List.length_append, List.length_take, List.length_cons, List.length_drop,
      Slice.length_elems]
    omega
  have hline := h.withLine h₁.1 (Nat.le_of_succ_le hlen)
  have hpaint :
      ∀ rest, Returns₂ (Screen.paint { t with line := line₁, pos := t.pos } (·.writeLine rest))
      (Screen.paint { t' with line := line₁', pos := t.pos } (·.writeLine rest))
      fun t₂ t₂' => Same t₂ t₂' ∧ t₂.pos + 1 ≤ t₂.line.len := fun rest => by
    refine ((paint_same hline (hline.ok.writeLine rest)).and_left
      (paint_returns (hline.ok.writeLine rest))).mono fun t₂ t₂' h₂ => ⟨h₂.1, ?_⟩
    rw [h₂.2.pos_eq, h₂.2.line_eq]
    exact hlen
  have hmove : ∀ t₂ t₂', Same t₂ t₂' ∧ t₂.pos + 1 ≤ t₂.line.len →
      Returns₂ (t₂.moveTo (t₂.pos + 1)) (t₂'.moveTo (t₂'.pos + 1)) Same := fun t₂ t₂' h₂ => by
    rw [h₂.1.pos_eq]
    exact moveTo_same h₂.1 h₂.2
  refine Returns₂.ite hline.echo_iff (fun _ => ?_) fun _ => hmove _ _ ⟨hline, hlen⟩
  refine hline.after.bind fun rest rest' hrest => ?_
  rw [hrest]
  exact (hpaint rest).bind hmove

theorem endLine_same (h : Same t t') {line line' : Slice ℕ} (hline : line'.elems = line.elems) :
    Returns₂ (t.endLine line) (t'.endLine line') Same := by
  unfold endLine
  rw [h.len_eq]
  refine (moveCursorToPos_same h t.line.len).bind fun t₁ t₁' h₁ => ?_
  rw [h₁.display_eq]
  refine returns₂_some
    ((h₁.withLine hline (Nat.zero_le _)).withDisplay (w := t₁.display.termWidth) ?_)
  exact ⟨rfl, h₁.ok.width_pos, h₁.ok.width_pos⟩

theorem deleteLine_same (h : Same t t') : Returns₂ t.deleteLine t'.deleteLine Same := by
  unfold deleteLine
  rw [h.len_eq, h.pos_eq]
  refine (paint_same h (h.ok.blank _)).bind fun t₁ t₁' h₁ => ?_
  have hcut' := Slice.upTo_spec h₁.symm.pos_le
  rw [h₁.pos_eq, h₁.elems_eq] at hcut'
  rw [h₁.pos_eq]
  refine (slices_same (Slice.upTo_spec h₁.pos_le) hcut').bind fun line₂ line₂' h₂ => ?_
  refine moveCursorToPos_same (h₁.withLine h₂.1 ?_) t₁.pos
  rw [h₂.2, List.length_take, Slice.length_elems]
  exact le_min le_rfl h₁.pos_le

theorem clearScreen_same (h : Same t t') : Returns₂ t.clearScreen t'.clearScreen Same := by
  unfold clearScreen
  rw [h.prompt_eq]
  have hhome : Display.Within t.display.termWidth
      { (t.display.queue [27, 91, 50, 74, 27, 91, 72]).queue t.prompt with
        cursorX := 0, cursorY := 0 } :=
    ⟨rfl, h.ok.width_pos, h.ok.width_pos⟩
  refine (paint_same h (hhome.advanceCursor _)).bind fun t₁ t₁' h₁ => ?_
  rw [h₁.pos_eq]
  exact setLine_same h₁ h₁.elems_eq h₁.pos_le

/-! ## The keys -/

/-- The two terminals as one with two lines. -/
theorem Same.exists_line (h : Same t t') :
    ∃ line', t' = { t with line := line' } ∧ line'.elems = t.line.elems :=
  ⟨t'.line, h.eq, h.elems_eq⟩

theorem Same.withHistory (h : Same t t') (index : ℤ) (hge : -1 ≤ index) (pending : GoString) :
    Same { t with historyIndex := index, historyPending := pending, index_ge := hge }
      { t' with historyIndex := index, historyPending := pending, index_ge := hge } := by
  obtain ⟨line', rfl, -⟩ := h.exists_line
  exact ⟨rfl, h.elems_eq, h.ok, h.pos_le⟩

theorem setEntry_same (h : Same t t') (entry : GoString) :
    Returns₂ (t.setEntry entry) (t'.setEntry entry) Same :=
  setLine_same h rfl le_rfl

theorem historyUp_same (h : Same t t') : Returns₂ t.historyUp t'.historyUp Same := by
  have hset := fun hge pending =>
    setEntry_same (h.withHistory (t.historyIndex + 1) hge pending)
  obtain ⟨line', rfl, helems⟩ := h.exists_line
  unfold historyUp
  dsimp only
  rw [helems]
  cases t.history.nthPreviousEntry (t.historyIndex + 1).toNat with
  | none => exact returns₂_some h
  | some entry => exact hset _ _ entry

/-- The key Down on two terminals with the same history, for a relation between them that a new
    index and an entry of the history keep. -/
theorem historyDown_rel {R : Screen → Screen → Prop} (h : R t t')
    (heq : t' = { t with display := t'.display, line := t'.line, pos := t'.pos })
    (hindex : ∀ s s' : Screen, R s s' → ∀ (index : ℤ) (hge : -1 ≤ index),
      R { s with historyIndex := index, index_ge := hge }
        { s' with historyIndex := index, index_ge := hge })
    (hset : ∀ s s' : Screen, R s s' → ∀ entry, Returns₂ (s.setEntry entry) (s'.setEntry entry) R) :
    Returns₂ t.historyDown t'.historyDown R := by
  have hentry := fun hge => hset _ _ (hindex t t' h (t.historyIndex - 1) hge)
  have hpending := hset t t' h t.historyPending
  obtain ⟨d', line', pos', rfl⟩ : ∃ d' line' pos', t' =
      { t with display := d', line := line', pos := pos' } :=
    ⟨_, _, _, heq⟩
  unfold historyDown
  dsimp only
  by_cases hnone : t.historyIndex = -1
  · rw [dif_pos hnone, dif_pos hnone]
    exact returns₂_some h
  rw [dif_neg hnone, dif_neg hnone]
  refine Returns₂.ite Iff.rfl (fun _ => ?_) fun _ => ?_
  · exact hpending.bind fun t₁ t₁' h₁ => returns₂_some (hindex t₁ t₁' h₁ (-1) le_rfl)
  · cases t.history.nthPreviousEntry (t.historyIndex - 1).toNat with
    | none => exact returns₂_some h
    | some entry => exact hentry _ entry

theorem historyDown_same (h : Same t t') : Returns₂ t.historyDown t'.historyDown Same := by
  refine historyDown_rel h ?_ (fun s s' hs index hge => ?_) fun s s' hs => setEntry_same hs
  · rw [h.eq]
  · obtain ⟨line', rfl, -⟩ := hs.exists_line
    exact hs.withHistory index hge s.historyPending

theorem countToLeftWord_same (h : Same t t') :
    Returns₂ t.countToLeftWord t'.countToLeftWord fun n n' => n' = n := by
  have heq : t'.countToLeftWord = t.countToLeftWord := by
    unfold countToLeftWord
    rw [h.pos_eq, h.elems_eq, h.len_eq]
  rw [heq, countToLeftWord_eq h.pos_le]
  exact returns₂_some rfl

theorem typeKey_same (h : Same t t') (key : ℕ) :
    Returns₂ (t.typeKey key) (t'.typeKey key) Same := by
  unfold typeKey
  rw [h.len_eq]
  refine Returns₂.ite Iff.rfl (fun _ => returns₂_some h) fun _ => ?_
  exact Returns₂.ite Iff.rfl (fun _ => returns₂_some h) fun _ => addKeyToLine_same h key

/-- The terminals after a key, and the line. -/
def SameLine (r r' : Screen × Option GoString) : Prop := Same r.1 r'.1 ∧ r'.2 = r.2

theorem stay_same {x x' : Option Screen} (h : Returns₂ x x' Same) :
    Returns₂ (x.map (·, none)) (x'.map (·, none)) SameLine :=
  h.map fun _ _ hsame => ⟨hsame, rfl⟩

theorem handleCase_same (h : Same t t') (c : KeyCase) :
    Returns₂ (t.handleCase none c) (t'.handleCase none c) SameLine := by
  have hpos := h.pos_le
  have hpos_eq := h.pos_eq
  have hlen_eq := h.len_eq
  cases c with
  | pasted key => exact stay_same (addKeyToLine_same h key)
  | backspace =>
    refine stay_same (Returns₂.ite (by rw [hpos_eq]) (fun _ => returns₂_some h) fun _ => ?_)
    exact eraseNPreviousChars_same h 1
  | altLeft =>
    refine stay_same ((countToLeftWord_same h).bind fun n n' hn => ?_)
    rw [hn, hpos_eq]
    exact moveTo_same h (by omega)
  | altRight =>
    have hright : t'.countToRightWord = t.countToRightWord := by
      unfold countToRightWord
      rw [hpos_eq, h.elems_eq]
    rw [handleCase, handleCase, hright, hpos_eq]
    have hle := (t.editor hpos).pos_add_countToRightWord_le
    exact stay_same (moveTo_same h (hle.trans t.line.length_elems.le))
  | left =>
    rw [handleCase, handleCase, hpos_eq]
    refine stay_same (Returns₂.ite Iff.rfl (fun _ => returns₂_some h) fun _ => ?_)
    exact moveTo_same h (by omega)
  | right =>
    rw [handleCase, handleCase, hpos_eq, hlen_eq]
    refine stay_same (Returns₂.ite Iff.rfl (fun _ => returns₂_some h) fun hend => ?_)
    exact moveTo_same h (by omega)
  | home =>
    rw [handleCase, handleCase, hpos_eq]
    refine stay_same (Returns₂.ite Iff.rfl (fun _ => returns₂_some h) fun _ => ?_)
    exact moveTo_same h (Nat.zero_le _)
  | toEnd =>
    rw [handleCase, handleCase, hpos_eq, hlen_eq]
    refine stay_same (Returns₂.ite Iff.rfl (fun _ => returns₂_some h) fun _ => ?_)
    exact moveTo_same h le_rfl
  | up => exact stay_same (historyUp_same h)
  | down => exact stay_same (historyDown_same h)
  | ctrlC => exact (endLine_same h rfl).map fun _ _ hsame => ⟨hsame, rfl⟩
  | enter =>
    have hnone : ∀ u : Screen, Returns (u.line.upTo 0) fun s => s.elems = [] := fun u =>
      Slice.upTo_spec (Nat.zero_le _)
    refine (slices_same (hnone t) (hnone t')).bind fun line₁ line₁' h₁ => ?_
    rw [h.elems_eq]
    exact (endLine_same h h₁.1).bind fun t₂ t₂' h₂ => returns₂_some ⟨h₂, rfl⟩
  | deleteWord =>
    refine stay_same ((countToLeftWord_same h).bind fun n n' hn => ?_)
    rw [hn]
    exact eraseNPreviousChars_same h n
  | deleteLine => exact stay_same (deleteLine_same h)
  | ctrlD =>
    refine stay_same (Returns₂.ite (by rw [hpos_eq, hlen_eq]) (fun hend => ?_)
      fun _ => returns₂_some h)
    rw [hpos_eq]
    exact eraseNPreviousChars_same (h.withLine h.elems_eq hend) 1
  | ctrlU =>
    rw [handleCase, handleCase, hpos_eq]
    exact stay_same (eraseNPreviousChars_same h t.pos)
  | clearScreen => exact stay_same (clearScreen_same h)
  | other key => exact stay_same (typeKey_same h key)

theorem handleKey_same (h : Same t t') (key : ℕ) :
    Returns₂ (t.handleKey none key) (t'.handleKey none key) SameLine := by
  have hpaste : t'.pasteActive = t.pasteActive := by rw [h.eq]
  rw [handleKey, handleKey, hpaste]
  exact handleCase_same h _

/-! ## The other functions -/

theorem Same.flush (h : Same t t') :
    Same (t.withDisplay t.display.flush) (t'.withDisplay t'.display.flush) := by
  rw [h.display_eq]
  exact h.withDisplay h.ok.flush

theorem write_same (h : Same t t') (buf : GoString) :
    Returns₂ (t.write buf) (t'.write buf) Same := by
  unfold write
  rw [h.display_eq, h.prompt_eq, h.elems_eq, h.pos_eq]
  refine Returns₂.ite Iff.rfl (fun _ => ?_) fun _ => ?_
  · exact returns₂_some (h.withDisplay (h.ok.writeWithCRLF buf))
  have hmove : ∀ d₂ : Display, d₂.Within t.display.termWidth → Returns₂
      (do let t ← (t.withDisplay d₂).moveCursorToPos t.pos
          return t.withDisplay t.display.flush)
      (do let t ← (t'.withDisplay d₂).moveCursorToPos t.pos
          return t.withDisplay t.display.flush) Same := fun d₂ h₂ =>
    (moveCursorToPos_same (h.withDisplay h₂) t.pos).bind fun t₃ t₃' h₃ => returns₂_some h₃.flush
  refine ((h.ok.clearLine.writeWithCRLF buf).writeLine t.prompt).bind₂ fun d₁ h₁ => ?_
  refine Returns₂.ite h.echo_iff (fun _ => ?_) fun _ => hmove d₁ h₁
  exact (h₁.writeLine t.line.elems).bind₂ hmove

theorem showPrompt_same (h : Same t t') : Returns₂ t.showPrompt t'.showPrompt Same := by
  unfold showPrompt
  rw [h.display_eq, h.prompt_eq]
  refine Returns₂.ite Iff.rfl (fun _ => ?_) fun _ => returns₂_some h
  exact (paint_same h (h.ok.writeLine t.prompt)).bind fun t₁ t₁' h₁ => returns₂_some h₁.flush

theorem repaint_same (h : Same t t') (n : ℕ) :
    Returns₂ (t.clearAndRepaintLinePlusNPrevious n) (t'.clearAndRepaintLinePlusNPrevious n)
      Same := by
  unfold clearAndRepaintLinePlusNPrevious
  rw [h.display_eq, h.prompt_eq, h.elems_eq, h.pos_eq]
  refine (((h.ok.clearRows n).queue t.prompt).advanceCursor _).bind₂ fun d₁ h₁ => ?_
  refine (h₁.writeLine t.line.elems).bind₂ fun d₂ h₂ => ?_
  exact moveCursorToPos_same (h.withDisplay h₂) t.pos

theorem setSize_same (h : Same t t') (width height : ℕ) :
    Returns₂ (t.setSize width height) (t'.setSize width height) Same := by
  have hpos := newWidth_pos width
  have hcursor := h.ok.cursor_lt
  have hrepaint : ∀ (d : Display) (n : ℕ), d.Within (newWidth width) → Returns₂
      (do let t ← (t.withDisplay d).clearAndRepaintLinePlusNPrevious n
          return t.withDisplay t.display.flush)
      (do let t ← (t'.withDisplay d).clearAndRepaintLinePlusNPrevious n
          return t.withDisplay t.display.flush) Same := fun d n hd =>
    (repaint_same (h.withDisplay hd) n).bind fun t₁ t₁' h₁ => returns₂_some h₁.flush
  have hempty : t'.line.len = 0 ∧ t.display.cursorX = 0 ∧ t.display.cursorY = 0 ↔
      t.line.len = 0 ∧ t.display.cursorX = 0 ∧ t.display.cursorY = 0 := by rw [h.len_eq]
  unfold setSize
  rw [h.display_eq]
  dsimp only
  refine Returns₂.ite Iff.rfl (fun hsame => ?_) fun _ => ?_
  · exact returns₂_some (h.withDisplay ⟨rfl, hpos, hsame ▸ hcursor⟩)
  refine Returns₂.ite hempty (fun hnothing => ?_) fun _ => ?_
  · exact returns₂_some (h.withDisplay ⟨rfl, hpos, hnothing.2.1.trans_lt hpos⟩)
  refine Returns₂.ite Iff.rfl (fun hnarrow => ?_) fun hwide => ?_
  · refine hrepaint _ _ ⟨rfl, hpos, ?_⟩
    show (if newWidth width ≤ t.display.cursorX then newWidth width - 1 else t.display.cursorX) <
      newWidth width
    split_ifs <;> omega
  · refine hrepaint _ _ ⟨rfl, hpos, ?_⟩
    show t.display.cursorX < newWidth width
    omega

end Same

end Screen

end GoJump.Common
