import GoJump.Common.LineEditor
import GoJump.Lib.Vt

/-!
# What the terminal writes, on a screen

The bytes that the painting functions of `Terminal` write (`pkg/common/terminal.go`, lines
227–379, 541–566 and 594–621), fed to a screen that wraps at its last column. `Painted` says
that the screen shows a text in reading order and has its cursor at a place of it, and that
`cursorX` and `cursorY` are this place. The functions are correct for characters that take one
cell and as long as the prompt and the line fit on the screen.

* `Painted.write`: `queue` with `advanceCursor`.
* `moveCursorToPos_draws`: the sequences of `move`.
* `addKeyToLine_draws`, `eraseNPreviousChars_draws`, `setLine_draws`, `deleteLine_draws`: the
  functions that change the line leave the prompt and the new line on the screen.
* `endLine_draws`, `clearScreen_draws`: the two that begin a new page.
-/

namespace GoJump.Common

open GoJump.Go GoJump.Lib

/-- A character that takes one cell of the screen and has an encoding. -/
def Shown (r : ℕ) : Prop := Vt.Printable r ∧ IsScalar r

instance : DecidablePred Shown := fun r => inferInstanceAs (Decidable (Vt.Printable r ∧ IsScalar r))

theorem shown_space : Shown 32 := by decide

theorem shown_replicate (n : ℕ) : ∀ r ∈ List.replicate n 32, Shown r := fun r hr => by
  rw [List.eq_of_mem_replicate hr]
  exact shown_space

theorem visualLength_of_shown {rs : List ℕ} (h : ∀ r ∈ rs, Shown r) :
    visualLength rs = rs.length := by
  unfold visualLength
  induction rs with
  | nil => rfl
  | cons r rs ih =>
    obtain ⟨hr, hrest⟩ := List.forall_mem_cons.mp h
    have hlow := hr.1.1
    have hne : r ≠ keyEscape.toNat := by
      rintro rfl
      exact absurd hlow (by decide)
    rw [visualLengthFrom, if_neg hne, ih hrest, List.length_cons]

/-! ## Texts -/

/-- The characters of a text, with blanks behind them. -/
def textOf (s : List ℕ) : ℕ → ℕ := fun k => s.getD k 32

theorem textOf_append_spaces (s : List ℕ) (n : ℕ) :
    textOf (s ++ List.replicate n 32) = textOf s := by
  funext k
  unfold textOf
  by_cases hk : k < s.length
  · rw [List.getD_append _ _ _ _ hk]
  · rw [List.getD_append_right _ _ _ _ (by omega), List.getD_eq_default s _ (by omega)]
    by_cases hn : k - s.length < n
    · rw [List.getD_eq_getElem _ _ (by rw [List.length_replicate]; exact hn),
        List.getElem_replicate]
    · rw [List.getD_eq_default _ _ (by rw [List.length_replicate]; omega)]

/-- The rest of a text is replaced. -/
theorem overwrite_textOf {s cs : List ℕ} {i : ℕ} (hi : i ≤ s.length)
    (hlen : s.length ≤ i + cs.length) :
    Vt.overwrite (textOf s) i cs = textOf (s.take i ++ cs) := by
  have htake : (s.take i).length = i := by
    rw [List.length_take]
    omega
  funext k
  unfold Vt.overwrite textOf
  by_cases hlow : k < i
  · rw [if_neg (by omega), List.getD_append _ _ _ _ (by omega), List.getD_eq_getElem _ _ (by omega),
      List.getD_eq_getElem _ _ (by omega), List.getElem_take]
  · rw [List.getD_append_right _ _ _ _ (by omega), htake]
    by_cases hhigh : k < i + cs.length
    · rw [if_pos (by omega)]
    · rw [if_neg (by omega), List.getD_eq_default _ _ (by omega),
        List.getD_eq_default _ _ (by omega)]

/-! ## Painting -/

/-- The screen when everything that has been written or queued has arrived. -/
def seen (v₀ : Vt) (d : Display) : Vt := v₀.feed (runes (d.sent ++ d.outBuf))

@[simp] theorem seen_width (v₀ : Vt) (d : Display) : (seen v₀ d).width = v₀.width :=
  Vt.feed_width _ _

@[simp] theorem seen_height (v₀ : Vt) (d : Display) : (seen v₀ d).height = v₀.height :=
  Vt.feed_height _ _

/-- The screen shows the text from the row `base` on, with the cursor at the place `i`, and the
    display knows this place. -/
structure Painted (v₀ : Vt) (paper : ℕ → ℕ → ℕ) (base : ℕ) (text : ℕ → ℕ) (rows i : ℕ)
    (d : Display) :
    Prop where
  valid : utf8Valid (d.sent ++ d.outBuf) = true
  page : Vt.Page paper base text rows (seen v₀ d)
  stands : Vt.Stands base rows i (seen v₀ d)
  width_eq : d.termWidth = v₀.width
  cursorX_eq : d.cursorX = i % v₀.width
  cursorY_eq : d.cursorY = i / v₀.width

section Painted

variable {v₀ : Vt} {paper : ℕ → ℕ → ℕ} {base rows i : ℕ} {text : ℕ → ℕ} {d : Display}

theorem Painted.width_pos (h : Painted v₀ paper base text rows i d) : 0 < v₀.width := by
  have hw := h.page.width_pos
  rwa [seen_width] at hw

theorem Painted.row_le (h : Painted v₀ paper base text rows i d) : i / v₀.width ≤ rows := by
  have hrow := h.stands.row_le
  rwa [seen_width] at hrow

/-- Nothing is shown that does not fit. -/
theorem Painted.rows_lt (h : Painted v₀ paper base text rows i d) : rows < v₀.height := by
  have htop := h.page.top_le
  have hrows := h.page.rows_lt
  rw [seen_height] at hrows
  omega

theorem Painted.within (h : Painted v₀ paper base text rows i d) : d.Within v₀.width where
  width_eq := h.width_eq
  width_pos := by
    rw [h.width_eq]
    exact h.width_pos
  cursor_lt := by
    rw [h.width_eq, h.cursorX_eq]
    exact Nat.mod_lt _ h.width_pos

/-- More characters behind those that have been written or queued. -/
theorem seen_more (v₀ : Vt) (d d' : Display) (cs : List ℕ)
    (h : utf8Valid (d.sent ++ d.outBuf) = true)
    (hcs : ∀ c ∈ cs, IsScalar c) (hmore : d'.sent ++ d'.outBuf = d.sent ++ d.outBuf ++ ofRunes cs) :
    utf8Valid (d'.sent ++ d'.outBuf) = true ∧ seen v₀ d' = (seen v₀ d).feed cs := by
  unfold seen
  rw [hmore, utf8Valid_append_of_valid h, runes_append_ofRunes h hcs, Vt.feed_append]
  exact ⟨utf8Valid_ofRunes cs, rfl⟩

theorem Painted.flush (h : Painted v₀ paper base text rows i d) :
    Painted v₀ paper base text rows i d.flush := by
  have hseen : seen v₀ d.flush = seen v₀ d := by
    show v₀.feed (runes (d.sent ++ d.outBuf ++ [])) = _
    rw [List.append_nil]
    rfl
  refine ⟨?_, ?_, ?_, h.width_eq, h.cursorX_eq, h.cursorY_eq⟩
  · show utf8Valid (d.sent ++ d.outBuf ++ []) = true
    rw [List.append_nil]
    exact h.valid
  · rw [hseen]
    exact h.page
  · rw [hseen]
    exact h.stands

/-- The place `n` characters behind `i`. -/
theorem add_div_eq {w : ℕ} (hw : 0 < w) (i n : ℕ) : i / w + (i % w + n) / w = (i + n) / w := by
  conv_rhs => rw [← Nat.div_add_mod i w, Nat.add_assoc, Nat.mul_add_div hw]

/-- `queue` and `advanceCursor`: characters from the cursor on. -/
theorem Painted.write (h : Painted v₀ paper base text rows i d) {cs : List ℕ}
    (hcs : ∀ c ∈ cs, Shown c) (hfits : (i + cs.length) / v₀.width < v₀.height) :
    Returns ((d.queue cs).advanceCursor cs.length)
      (Painted v₀ paper base (Vt.overwrite text i cs) (max rows ((i + cs.length) / v₀.width))
        (i + cs.length)) := by
  have hw := h.width_pos
  have hzero : ¬ d.termWidth = 0 := by
    rw [h.width_eq]
    omega
  have hx : (d.cursorX + cs.length) % d.termWidth = (i + cs.length) % v₀.width := by
    rw [h.cursorX_eq, h.width_eq, Nat.mod_add_mod]
  have hy : d.cursorY + (d.cursorX + cs.length) / d.termWidth = (i + cs.length) / v₀.width := by
    rw [h.cursorX_eq, h.cursorY_eq, h.width_eq, add_div_eq hw]
  obtain ⟨newline, hnewline⟩ : ∃ newline : List ℕ,
      newline = if 0 < cs.length ∧ (i + cs.length) % v₀.width = 0 then [13, 10] else [] := ⟨_, rfl⟩
  have hbytes :
      (if 0 < cs.length ∧ (d.cursorX + cs.length) % d.termWidth = 0 then [13, 10] else []) =
      ofRunes newline := by
    rw [hx, hnewline]
    split_ifs <;> rfl
  have hscalar : ∀ c ∈ cs ++ newline, IsScalar c := by
    refine List.forall_mem_append.mpr ⟨fun c hc => (hcs c hc).2, ?_⟩
    rw [hnewline]
    split_ifs <;> decide
  obtain ⟨hpage, hstands⟩ := Vt.feed_line h.page h.stands (fun c hc => (hcs c hc).1)
    (by rw [seen_width, seen_height]; exact hfits)
  rw [seen_width, ← hnewline] at hpage hstands
  unfold Display.advanceCursor
  rw [if_neg (show ¬ (d.queue cs).termWidth = 0 from hzero)]
  have hnew : ∀ d' : Display, d'.sent = d.sent →
      d'.outBuf = d.outBuf ++ ofRunes cs ++
        (if 0 < cs.length ∧ (d.cursorX + cs.length) % d.termWidth = 0 then [13, 10] else []) →
      d'.termWidth = d.termWidth → d'.cursorX = (d.cursorX + cs.length) % d.termWidth →
      d'.cursorY = d.cursorY + (d.cursorX + cs.length) / d.termWidth →
      Painted v₀ paper base (Vt.overwrite text i cs) (max rows ((i + cs.length) / v₀.width))
        (i + cs.length) d' := by
    intro d' hsent hout hwidth hcol hrow
    obtain ⟨hvalid, hseen⟩ := seen_more v₀ d d' _ h.valid hscalar (by
      rw [hsent, hout, hbytes, ofRunes_append]
      simp only [List.append_assoc])
    exact ⟨hvalid, hseen ▸ hpage, hseen ▸ hstands, hwidth.trans h.width_eq, hcol.trans hx,
      hrow.trans hy⟩
  exact ⟨_, rfl, hnew _ rfl rfl rfl rfl rfl⟩

/-- One piece of a text after the other. -/
theorem Painted.bind_write (cs cs' : List ℕ) {x : Option Display}
    (hfits : (i + (cs ++ cs').length) / v₀.width < v₀.height)
    (hfirst : (i + cs.length) / v₀.width < v₀.height → Returns x
      (Painted v₀ paper base (Vt.overwrite text i cs) (max rows ((i + cs.length) / v₀.width))
        (i + cs.length)))
    {g : Display → Option Display}
    (hsecond : ∀ d', (i + cs.length + cs'.length) / v₀.width < v₀.height →
      Painted v₀ paper base (Vt.overwrite text i cs) (max rows ((i + cs.length) / v₀.width))
      (i + cs.length) d' →
      Returns (g d')
      (Painted v₀ paper base (Vt.overwrite (Vt.overwrite text i cs) (i + cs.length) cs')
        (max (max rows ((i + cs.length) / v₀.width)) ((i + cs.length + cs'.length) / v₀.width))
        (i + cs.length + cs'.length))) :
    Returns (x >>= g) (Painted v₀ paper base (Vt.overwrite text i (cs ++ cs'))
      (max rows ((i + (cs ++ cs').length) / v₀.width)) (i + (cs ++ cs').length)) := by
  have hlen : i + (cs ++ cs').length = i + cs.length + cs'.length := by
    rw [List.length_append]
    omega
  have hdiv : (i + cs.length) / v₀.width ≤ (i + cs.length + cs'.length) / v₀.width :=
    Nat.div_le_div_right (Nat.le_add_right _ _)
  rw [hlen] at hfits ⊢
  rw [← Vt.overwrite_append, ← max_eq_right hdiv, ← max_assoc]
  exact (hfirst (hdiv.trans_lt hfits)).bind fun d' h' => hsecond d' hfits h'

/-- Nothing is written. -/
theorem Painted.write_nil (h : Painted v₀ paper base text rows i d) :
    Painted v₀ paper base (Vt.overwrite text i [])
      (max rows ((i + ([] : List ℕ).length) / v₀.width))
      (i + ([] : List ℕ).length) d := by
  have hrows : max rows ((i + ([] : List ℕ).length) / v₀.width) = rows := max_eq_left h.row_le
  rw [Vt.overwrite_nil, hrows]
  exact h

theorem Painted.writeRounds (h : Painted v₀ paper base text rows i d) {fuel : ℕ} {line : List ℕ}
    (hline : ∀ r ∈ line, Shown r) (hfits : (i + line.length) / v₀.width < v₀.height)
    (hfuel : line.length ≤ fuel) :
    Returns (Display.writeRounds fuel line d)
      (Painted v₀ paper base (Vt.overwrite text i line) (max rows ((i + line.length) / v₀.width))
        (i + line.length)) := by
  induction fuel generalizing line d text rows i with
  | zero =>
    obtain rfl := List.length_eq_zero_iff.mp (Nat.le_zero.mp hfuel)
    exact returns_some h.write_nil
  | succ fuel ih =>
    cases hcons : line with
    | nil => exact returns_some h.write_nil
    | cons r rs =>
      have hpos : 0 < line.length := by
        rw [hcons]
        exact Nat.zero_lt_succ _
      have hwidth := h.within.width_pos
      have hcursor := h.within.cursor_lt
      rw [Display.writeRounds, if_neg (by omega), ← hcons]
      -- what fits in the row, and the rest
      generalize htodo : min line.length (d.termWidth - d.cursorX) = todo
      have hlen : (line.take todo).length = todo := by
        rw [List.length_take]
        omega
      have hsplit : line.take todo ++ line.drop todo = line := List.take_append_drop _ _
      have hfirst : ∀ r ∈ line.take todo, Shown r := fun r hr => hline r (List.mem_of_mem_take hr)
      dsimp only
      rw [visualLength_of_shown hfirst]
      have hall := Painted.bind_write (line.take todo) (line.drop todo)
        (by rw [hsplit]; exact hfits) (h.write hfirst)
        (g := Display.writeRounds fuel (line.drop todo)) fun d' hfits' h' =>
          ih h' (fun r hr => hline r (List.mem_of_mem_drop hr)) hfits'
            (by rw [List.length_drop]; omega)
      rwa [hsplit] at hall

/-- `writeLine`. -/
theorem Painted.writeLine (h : Painted v₀ paper base text rows i d) {line : List ℕ}
    (hline : ∀ r ∈ line, Shown r) (hfits : (i + line.length) / v₀.width < v₀.height) :
    Returns (d.writeLine line)
      (Painted v₀ paper base (Vt.overwrite text i line) (max rows ((i + line.length) / v₀.width))
        (i + line.length)) :=
  h.writeRounds hline hfits (Nat.le_succ _)

/-- The spaces of `setLine`. -/
theorem Painted.writeSpaces (h : Painted v₀ paper base text rows i d) {n : ℕ}
    (hfits : (i + (List.replicate n 32).length) / v₀.width < v₀.height) :
    Returns (Display.writeSpaces n d)
      (Painted v₀ paper base (Vt.overwrite text i (List.replicate n 32))
        (max rows ((i + (List.replicate n 32).length) / v₀.width))
          (i + (List.replicate n 32).length)) := by
  induction n generalizing d text rows i with
  | zero => exact returns_some h.write_nil
  | succ n ih =>
    exact Painted.bind_write [32] (List.replicate n 32) hfits
      (h.writeLine (shown_replicate 1)) fun d' hfits' h' => ih h' hfits'

/-- The spaces of `keyDeleteLine`. -/
theorem Painted.blank (h : Painted v₀ paper base text rows i d) {n : ℕ}
    (hfits : (i + (List.replicate n 32).length) / v₀.width < v₀.height) :
    Returns (Display.blank n d)
      (Painted v₀ paper base (Vt.overwrite text i (List.replicate n 32))
        (max rows ((i + (List.replicate n 32).length) / v₀.width))
          (i + (List.replicate n 32).length)) := by
  induction n generalizing d text rows i with
  | zero => exact returns_some h.write_nil
  | succ n ih =>
    exact Painted.bind_write [32] (List.replicate n 32) hfits
      (h.write (shown_replicate 1))
      fun d' hfits' h' => ih h' hfits'

end Painted

/-! ## Moving the cursor -/

/-- The number that is written is the one that is read. -/
theorem number_itoa (n : ℕ) : Vt.number ((itoa n).map UInt8.toNat) = n := by
  have hfold : ∀ (s : GoString) (m : ℕ), parseDigits m s = some n →
      (s.map UInt8.toNat).foldl (fun n c => n * 10 + (c - 48)) m = n := by
    intro s
    induction s with
    | nil =>
      intro m h
      cases h
      rfl
    | cons b s ih =>
      intro m h
      rw [parseDigits] at h
      obtain ⟨digit', hdigit, hrest⟩ := Option.bind_eq_some_iff.mp h
      unfold digit at hdigit
      split_ifs at hdigit
      cases hdigit
      exact ih _ hrest
  exact hfold _ 0 (parseDigits_itoa n)

/-- A part of `move`: the sequence that moves the cursor by `n` places, or nothing. -/
theorem feed_moveBy {v : Vt} {c : ℕ} {move : ℕ → Vt} (hparse : v.parse = .ground)
    (hc : 64 ≤ c ∧ c ≤ 126)
    (hcsi : ∀ params, v.csi params c = move (max 1 (Vt.number params))) (hzero : move 0 = v)
    (n : ℕ) :
    v.feed (moveBy n c) = move n := by
  unfold moveBy
  split_ifs with h0 h1
  · rw [h0, hzero]
    rfl
  · have hfeed := Vt.feed_csi [] c hparse (fun c hc => by cases hc) hc
    rw [h1]
    exact hfeed.trans (hcsi [])
  · have hdigits : ∀ c ∈ (itoa n).map UInt8.toNat, c < 64 := by
      intro c hmem
      obtain ⟨b, hb, rfl⟩ := List.mem_map.mp hmem
      have hle := UInt8.le_iff_toNat_le.mp (mem_itoa hb).2
      have hnine : (57 : UInt8).toNat = 57 := rfl
      omega
    rw [Vt.feed_csi _ c hparse hdigits hc, hcsi, number_itoa, max_eq_right (by omega)]

/-- The four parts of `move`. -/
theorem feed_moves {v : Vt} (hparse : v.parse = .ground) (hon : v.OnScreen)
    (up down right left : ℕ) :
    v.feed (moveBy up 65 ++ moveBy down 66 ++ moveBy right 67 ++ moveBy left 68) =
      (((v.up up).down down).right right).left left := by
  have h₁ : v.feed (moveBy up 65) = v.up up :=
    feed_moveBy hparse (by decide) (fun _ => rfl) hon.up_zero up
  have h₂ : (v.up up).feed (moveBy down 66) = (v.up up).down down :=
    feed_moveBy (v := v.up up) hparse (by decide) (fun _ => rfl) (hon.up up).down_zero down
  have h₃ : ((v.up up).down down).feed (moveBy right 67) = ((v.up up).down down).right right :=
    feed_moveBy (v := (v.up up).down down) hparse (by decide) (fun _ => rfl)
      ((hon.up up).down down).right_zero right
  have h₄ : (((v.up up).down down).right right).feed (moveBy left 68) =
      (((v.up up).down down).right right).left left :=
    feed_moveBy (v := ((v.up up).down down).right right) hparse (by decide) (fun _ => rfl)
      (((hon.up up).down down).right right).left_zero left
  rw [Vt.feed_append, Vt.feed_append, Vt.feed_append, h₁, h₂, h₃, h₄]

theorem scalar_moveBy {c : ℕ} (hc : c < 128) (n : ℕ) : ∀ r ∈ moveBy n c, IsScalar r := by
  have hdigits : ∀ r ∈ (itoa n).map UInt8.toNat, IsScalar r := by
    intro r hr
    obtain ⟨b, -, rfl⟩ := List.mem_map.mp hr
    have hlt := b.toNat_lt
    exact ⟨by omega, by omega⟩
  have hlast : IsScalar c := ⟨by omega, by omega⟩
  have hescape : IsScalar 27 ∧ IsScalar 91 := by decide
  unfold moveBy
  split_ifs
  · exact fun r hr => by cases hr
  · simp only [List.forall_mem_cons, List.not_mem_nil, false_implies, implies_true, and_true]
    exact ⟨hescape.1, hescape.2, hlast⟩
  · simp only [List.forall_mem_append, List.forall_mem_cons, List.not_mem_nil, false_implies,
      implies_true, and_true]
    exact ⟨⟨hescape, hdigits⟩, hlast⟩

section Move

variable {v₀ : Vt} {paper : ℕ → ℕ → ℕ} {base rows i : ℕ} {text : ℕ → ℕ} {d : Display}

/-- `move` from one place of the text to another. -/
theorem Painted.move (h : Painted v₀ paper base text rows i d) {w j : ℕ} (hw : d.termWidth = w)
    (hj : j / w ≤ rows) :
    Painted v₀ paper base text rows j
      ({ d with cursorX := j % w, cursorY := j / w }.move (d.cursorY - j / w) (j / w - d.cursorY)
        (d.cursorX - j % w) (j % w - d.cursorX)) := by
  obtain rfl : v₀.width = w := by rw [← hw, h.width_eq]
  obtain ⟨hpage, hstands⟩ := h.stands.move h.page (j := j) (by rw [seen_width]; exact hj)
  rw [seen_width] at hpage hstands
  rw [h.cursorX_eq, h.cursorY_eq]
  obtain ⟨hvalid, hseen⟩ := seen_more v₀ d
    ({ d with cursorX := j % v₀.width, cursorY := j / v₀.width }.move (i / v₀.width - j / v₀.width)
      (j / v₀.width - i / v₀.width) (i % v₀.width - j % v₀.width) (j % v₀.width - i % v₀.width))
    (moveBy (i / v₀.width - j / v₀.width) 65 ++ moveBy (j / v₀.width - i / v₀.width) 66 ++
      moveBy (j % v₀.width - i % v₀.width) 67 ++ moveBy (i % v₀.width - j % v₀.width) 68) h.valid
    (by
      simp only [List.forall_mem_append]
      exact ⟨⟨⟨scalar_moveBy (by decide) _, scalar_moveBy (by decide) _⟩,
        scalar_moveBy (by decide) _⟩, scalar_moveBy (by decide) _⟩)
    (List.append_assoc _ _ _).symm
  rw [feed_moves h.page.parse_eq (h.stands.onScreen h.page)] at hseen
  exact ⟨hvalid, hseen ▸ hpage, hseen ▸ hstands, h.width_eq, rfl, rfl⟩

end Move

/-! ## Rows -/

/-- The first `n` rows of a text. -/
def rowsFor (w n : ℕ) (text : List ℕ) : List (List ℕ) :=
  (List.range n).map fun k => (text.drop (k * w)).take w

/-- The rows of a prompt and a line: the cursor behind the last character is in the last one. -/
def lineRows (w : ℕ) (text : List ℕ) : List (List ℕ) := rowsFor w (text.length / w + 1) text

/-- The rows of a line of other output: one that ends with a row needs no other one. -/
def outputRows (w : ℕ) (text : List ℕ) : List (List ℕ) :=
  rowsFor w (if 0 < text.length ∧ text.length % w = 0 then text.length / w else text.length / w + 1)
    text

/-- Below `base` there are these rows, and above nothing has changed. -/
def Extends (w : ℕ) (paper : ℕ → ℕ → ℕ) (base : ℕ) (rows : List (List ℕ)) (paper' : ℕ → ℕ → ℕ) :
    Prop :=
  ∀ r c, r < base + rows.length → c < w →
    paper' r c = if r < base then paper r c else (rows.getD (r - base) []).getD c 32

section Rows

variable {w : ℕ} {paper paper' : ℕ → ℕ → ℕ} {base : ℕ}

theorem length_rowsFor (w n : ℕ) (text : List ℕ) : (rowsFor w n text).length = n := by
  rw [rowsFor, List.length_map, List.length_range]

theorem getD_rowsFor {n k c : ℕ} (hk : k < n) (hc : c < w) (text : List ℕ) :
    ((rowsFor w n text).getD k []).getD c 32 = textOf text (k * w + c) := by
  rw [List.getD_eq_getElem (rowsFor w n text) [] (by rw [length_rowsFor]; exact hk)]
  unfold rowsFor textOf
  rw [List.getElem_map, List.getElem_range]
  by_cases hin : k * w + c < text.length
  · rw [List.getD_eq_getElem _ _ hin,
      List.getD_eq_getElem _ _ (by rw [List.length_take, List.length_drop]; omega),
      List.getElem_take, List.getElem_drop]
  · have hout : ((text.drop (k * w)).take w).length ≤ c := by
      rw [List.length_take, List.length_drop]
      omega
    rw [List.getD_eq_default _ _ hout, List.getD_eq_default text _ (by omega)]

theorem extends_nil (w : ℕ) (paper : ℕ → ℕ → ℕ) (base : ℕ) : Extends w paper base [] paper := by
  intro r c hr _
  rw [List.length_nil] at hr
  rw [if_pos (by omega)]

theorem Extends.append {rows rows' : List (List ℕ)} {paper'' : ℕ → ℕ → ℕ}
    (h : Extends w paper base rows paper')
    (h' : Extends w paper' (base + rows.length) rows' paper'') :
    Extends w paper base (rows ++ rows') paper'' := by
  intro r c hr hc
  rw [List.length_append] at hr
  rw [h' r c (by omega) hc]
  by_cases hfirst : r < base + rows.length
  · rw [if_pos hfirst, h r c hfirst hc]
    by_cases hbase : r < base
    · rw [if_pos hbase, if_pos hbase]
    · rw [if_neg hbase, if_neg hbase, List.getD_append _ _ _ _ (by omega)]
  · rw [if_neg hfirst, if_neg (by omega), List.getD_append_right _ _ _ _ (by omega)]
    congr 2
    omega

/-- The cells of a text that is left behind. -/
theorem extends_rowsFor {text : List ℕ} {n : ℕ}
    (h : ∀ r c, c < w → paper' r c = if r < base then paper r c
      else textOf text ((r - base) * w + c)) :
    Extends w paper base (rowsFor w n text) paper' := by
  intro r c hr hc
  rw [length_rowsFor] at hr
  rw [h r c hc]
  by_cases hbase : r < base
  · rw [if_pos hbase, if_pos hbase]
  · rw [if_neg hbase, if_neg hbase, getD_rowsFor (by omega) hc]

/-- A text is left behind with a new row below the cursor. -/
theorem newRow_rows {v : Vt} {s : List ℕ} {rows n : ℕ}
    (hpage : Vt.Page paper base (textOf s) rows v)
    (hrow : v.row = base + n) (hlen : s.length ≤ (n + 1) * v.width) :
    Extends v.width paper base (rowsFor v.width (n + 1) s) v.cell ∧
      Vt.Page v.cell (base + (rowsFor v.width (n + 1) s).length) (textOf []) 0 (v.feed [13, 10]) ∧
      Vt.Stands (base + (rowsFor v.width (n + 1) s).length) 0 0 (v.feed [13, 10]) := by
  obtain ⟨hnew, hstands⟩ := hpage.newRow hrow
  have hblank : (fun k => textOf s (k + (n + 1) * v.width)) = textOf [] := by
    funext k
    exact List.getD_eq_default _ _ (by omega)
  rw [hblank] at hnew
  rw [length_rowsFor]
  exact ⟨extends_rowsFor hpage.cell_eq, hnew, hstands⟩

end Rows

/-! ## The functions of the terminal -/

/-- The screen shows the prompt and the line, with the cursor at the position. -/
def LineOn (v₀ : Vt) (paper : ℕ → ℕ → ℕ) (base : ℕ) (prompt line : List ℕ) (pos : ℕ) (d : Display) :
    Prop :=
  ∃ rows, (prompt.length + line.length) / v₀.width ≤ rows ∧
    Painted v₀ paper base (textOf (prompt ++ line)) rows (prompt.length + pos) d

section LineOn

variable {v₀ : Vt} {paper : ℕ → ℕ → ℕ} {base rows i pos n : ℕ} {prompt line rest : List ℕ}
    {d : Display}

/-- What fits on the screen. -/
theorem LineOn.fits (h : LineOn v₀ paper base prompt line pos d) :
    (prompt.length + line.length) / v₀.width < v₀.height := by
  obtain ⟨rows, hrows, hpainted⟩ := h
  exact hrows.trans_lt hpainted.rows_lt

theorem LineOn.within (h : LineOn v₀ paper base prompt line pos d) : d.Within v₀.width := by
  obtain ⟨rows, hrows, hpainted⟩ := h
  exact hpainted.within

theorem LineOn.flush (h : LineOn v₀ paper base prompt line pos d) :
    LineOn v₀ paper base prompt line pos d.flush := by
  obtain ⟨rows, hrows, hpainted⟩ := h
  exact ⟨rows, hrows, hpainted.flush⟩

/-- The end of the line is replaced, and what it was longer by is blank. -/
theorem Painted.newLine (rest : List ℕ) (n : ℕ) (hpos : pos ≤ line.length)
    (hlen : line.length ≤ pos + rest.length + n)
    (h : Painted v₀ paper base (Vt.overwrite (textOf (prompt ++ line)) (prompt.length + pos)
      (rest ++ List.replicate n 32)) rows i d) :
    Painted v₀ paper base (textOf (prompt ++ (line.take pos ++ rest))) rows i d := by
  rw [overwrite_textOf (by rw [List.length_append]; omega)
    (by rw [List.length_append, List.length_append, List.length_replicate]; omega),
    ← List.append_assoc, textOf_append_spaces, List.take_length_add_append, List.append_assoc] at h
  exact h

theorem Painted.newLine_nil (hpos : pos ≤ line.length) (hlen : line.length ≤ pos + rest.length)
    (h : Painted v₀ paper base (Vt.overwrite (textOf (prompt ++ line)) (prompt.length + pos) rest)
      rows i d) :
    Painted v₀ paper base (textOf (prompt ++ (line.take pos ++ rest))) rows i d := by
  refine Painted.newLine rest 0 hpos hlen ?_
  rwa [List.replicate_zero, List.append_nil]

end LineOn

namespace Screen

/-- Only what is on the screen changes, and it is now this. -/
def Draws (t : Screen) (P : Display → Prop) (t' : Screen) : Prop := ∃ d, t' = t.withDisplay d ∧ P d

variable {v₀ : Vt} {paper : ℕ → ℕ → ℕ} {base rows i : ℕ} {text : ℕ → ℕ} {t t' : Screen}

theorem paint_draws {f : Display → Option Display} {P : Display → Prop}
    (h : Returns (f t.display) P) :
    Returns (t.paint f) (Draws t P) :=
  h.map fun d hP => ⟨d, rfl, hP⟩

/-- What the functions need: the line is echoed, and all characters take one cell. -/
structure Legible (t : Screen) : Prop where
  echo_eq : t.echo = true
  prompt_shown : ∀ r ∈ t.prompt, Shown r
  line_shown : ∀ r ∈ t.line.elems, Shown r
  pos_le : t.pos ≤ t.line.len

theorem moveCursorToPos_draws (hecho : t.echo = true) (hprompt : ∀ r ∈ t.prompt, Shown r)
    (h : Painted v₀ paper base text rows i t.display) (pos : ℕ)
    (hrow : (t.prompt.length + pos) / v₀.width ≤ rows) :
    Returns (t.moveCursorToPos pos)
      (Draws t (Painted v₀ paper base text rows (t.prompt.length + pos))) := by
  have hzero : ¬ t.display.termWidth = 0 := h.within.width_pos.ne'
  unfold moveCursorToPos
  rw [if_neg (by rw [hecho]; decide)]
  refine paint_draws ?_
  rw [if_neg hzero, visualLength_of_shown hprompt]
  exact returns_some (h.move rfl (by rw [h.width_eq]; exact hrow))

theorem addKeyToLine_draws (ht : Legible t) {key : ℕ} (hkey : Shown key)
    (h : LineOn v₀ paper base t.prompt t.line.elems t.pos t.display)
    (hfits : (t.prompt.length + (t.line.len + 1)) / v₀.width < v₀.height) :
    Returns (t.addKeyToLine key) fun t' =>
      LineOn v₀ paper base t.prompt (t.line.elems.take t.pos ++ key :: t.line.elems.drop t.pos)
        (t.pos + 1)
        t'.display := by
  obtain ⟨hecho, hprompt, hline, hpos⟩ := ht
  obtain ⟨rows, hrows, hpainted⟩ := h
  have hlen : t.line.elems.length = t.line.len := t.line.length_elems
  have htake : (t.line.elems.take t.pos).length = t.pos := by
    rw [List.length_take, hlen]
    omega
  have hrest : (key :: t.line.elems.drop t.pos).length = t.line.len - t.pos + 1 := by
    rw [List.length_cons, List.length_drop, hlen]
  have hplace : t.prompt.length + t.pos + (t.line.len - t.pos + 1) =
      t.prompt.length + (t.line.len + 1) := by omega
  have hshown : ∀ r ∈ key :: t.line.elems.drop t.pos, Shown r :=
    List.forall_mem_cons.mpr ⟨hkey, fun r hr => hline r (List.mem_of_mem_drop hr)⟩
  unfold addKeyToLine
  refine (Slice.insert_spec hpos 0 key).bind fun line₁ h₁ => ?_
  have hafter : t.pos ≤ line₁.len := by
    rw [← line₁.length_elems, h₁, List.length_append, htake]
    omega
  dsimp only
  rw [if_pos hecho, Slice.after_spec hafter, h₁, List.drop_left' htake]
  have hwrite := hpainted.writeLine hshown (by rw [hrest, hplace]; exact hfits)
  rw [hrest, hplace] at hwrite
  refine (paint_draws (t := { t with line := line₁ }) hwrite).bind ?_
  rintro _ ⟨d, rfl, hd⟩
  have hd := Painted.newLine_nil (by omega) (by rw [hrest]; omega) hd
  have hle : t.prompt.length + (t.pos + 1) ≤ t.prompt.length + (t.line.len + 1) := by omega
  refine (moveCursorToPos_draws (t := { t with line := line₁, pos := t.pos + 1, display := d })
    hecho hprompt hd (t.pos + 1) ((Nat.div_le_div_right hle).trans (le_max_right _ _))).mono ?_
  rintro _ ⟨d', rfl, hd'⟩
  refine ⟨_, ?_, hd'⟩
  rw [List.length_append, htake, hrest,
    show t.pos + (t.line.len - t.pos + 1) = t.line.len + 1 by omega]
  exact le_max_right _ _

theorem moveTo_draws (ht : Legible t)
    (h : LineOn v₀ paper base t.prompt t.line.elems t.pos t.display) {pos : ℕ}
    (hpos : pos ≤ t.line.len) :
    Returns (t.moveTo pos) fun t' => LineOn v₀ paper base t.prompt t.line.elems pos t'.display := by
  obtain ⟨hecho, hprompt, -, -⟩ := ht
  obtain ⟨rows, hrows, hpainted⟩ := h
  have hle : t.prompt.length + pos ≤ t.prompt.length + t.line.elems.length := by
    rw [Slice.length_elems]
    omega
  refine (moveCursorToPos_draws (t := { t with pos := pos }) hecho hprompt hpainted pos
    ((Nat.div_le_div_right hle).trans hrows)).mono ?_
  rintro _ ⟨d, rfl, hd⟩
  exact ⟨rows, hrows, hd⟩

/-- `setLine`: a shorter line is followed by spaces. The line that is on the screen may be
    shorter than the one that is replaced. -/
theorem setLine_draws (ht : Legible t) {line : List ℕ} {pos : ℕ}
    (h : LineOn v₀ paper base t.prompt line pos t.display) (hline : line.length ≤ t.line.len)
    (hfits₀ : (t.prompt.length + t.line.len) / v₀.width < v₀.height)
    {newLine : Slice ℕ} (hnew : ∀ r ∈ newLine.elems, Shown r) {newPos : ℕ}
    (hpos : newPos ≤ newLine.len) (hfits : (t.prompt.length + newLine.len) / v₀.width < v₀.height) :
    Returns (t.setLine newLine newPos) fun t' =>
      LineOn v₀ paper base t.prompt newLine.elems newPos t'.display := by
  obtain ⟨hecho, hprompt, -, -⟩ := ht
  obtain ⟨rows, hrows, hpainted⟩ := h
  have hnewLen : newLine.elems.length = newLine.len := newLine.length_elems
  have hspaces : (List.replicate (t.line.len - newLine.len) 32).length = t.line.len - newLine.len :=
    List.length_replicate
  have hzero : t.prompt.length + 0 ≤ t.prompt.length + line.length := by omega
  unfold setLine
  rw [if_pos hecho]
  refine (moveCursorToPos_draws hecho hprompt hpainted 0
    ((Nat.div_le_div_right hzero).trans hrows)).bind ?_
  rintro _ ⟨d₁, rfl, h₁⟩
  refine (paint_draws (t := t.withDisplay d₁)
    (h₁.writeLine hnew (by rw [hnewLen]; exact hfits))).bind ?_
  rintro _ ⟨d₂, rfl, h₂⟩
  -- the longer one of the two lines
  have hplace : t.prompt.length + 0 + newLine.elems.length +
      (List.replicate (t.line.len - newLine.len) 32).length ≤
      t.prompt.length + max t.line.len newLine.len := by
    rw [hnewLen, hspaces]
    omega
  have hmax : (t.prompt.length + max t.line.len newLine.len) / v₀.width < v₀.height := by
    rcases max_choice t.line.len newLine.len with hc | hc <;> rw [hc]
    · exact hfits₀
    · exact hfits
  refine (paint_draws (t := (t.withDisplay d₁).withDisplay d₂)
    (f := Display.writeSpaces (t.line.len - newLine.len))
    (h₂.writeSpaces ((Nat.div_le_div_right hplace).trans_lt hmax))).bind ?_
  rintro _ ⟨d₃, rfl, h₃⟩
  rw [Vt.overwrite_append] at h₃
  have h₃ := Painted.newLine _ _ (Nat.zero_le _) (by omega) h₃
  have hle : t.prompt.length + newPos ≤ t.prompt.length + 0 + newLine.elems.length := by omega
  have hrow : (t.prompt.length + newLine.elems.length) / v₀.width ≤
      max (max rows ((t.prompt.length + 0 + newLine.elems.length) / v₀.width))
        ((t.prompt.length + 0 + newLine.elems.length +
          (List.replicate (t.line.len - newLine.len) 32).length) / v₀.width) :=
    (le_max_right _ _).trans (le_max_left _ _)
  refine (moveCursorToPos_draws (t := t.withDisplay d₃) hecho hprompt h₃ newPos
    ((Nat.div_le_div_right hle).trans hrow)).bind ?_
  rintro _ ⟨d₄, rfl, h₄⟩
  exact returns_some ⟨_, hrow, h₄⟩

/-- `eraseNPreviousChars`: what is behind the position moves back, followed by spaces. The cursor
    may be elsewhere on the line: `keyCtrlD` has not moved it. -/
theorem eraseNPreviousChars_draws (ht : Legible t) {q : ℕ}
    (h : LineOn v₀ paper base t.prompt t.line.elems q t.display) (n : ℕ) (hq : n = 0 → q = t.pos) :
    Returns (t.eraseNPreviousChars n) fun t' =>
      LineOn v₀ paper base t.prompt (t.line.elems.take (t.pos - n) ++ t.line.elems.drop t.pos)
        (t.pos - n)
        t'.display := by
  have hfits := h.fits
  obtain ⟨hecho, hprompt, hline, hpos⟩ := ht
  unfold eraseNPreviousChars
  by_cases hn : n = 0
  · rw [if_pos hn, hn, Nat.sub_zero, List.take_append_drop, ← hq hn]
    exact returns_some h
  obtain ⟨rows, hrows, hpainted⟩ := h
  rw [if_neg hn]
  dsimp only
  have hcut : t.pos - (if t.pos < n then t.pos else n) = t.pos - n := by split_ifs <;> omega
  have hle : t.pos - n + (if t.pos < n then t.pos else n) = t.pos := by split_ifs <;> omega
  rw [hcut]
  generalize (if t.pos < n then t.pos else n) = m at hle
  generalize t.pos - n = p at hle
  have hlen : t.line.elems.length = t.line.len := t.line.length_elems
  have hfirst : t.prompt.length + p ≤ t.prompt.length + t.line.elems.length := by omega
  refine (moveCursorToPos_draws (t := { t with pos := p }) hecho hprompt hpainted p
    ((Nat.div_le_div_right hfirst).trans hrows)).bind ?_
  rintro t₁ ⟨d₁, heq, h₁⟩
  have hecho₁ : t₁.echo = true := by
    rw [heq]
    exact hecho
  have hpos₁ : t₁.pos = p := by rw [heq]; rfl
  have hline₁ : t₁.line = t.line := by rw [heq]; rfl
  rw [hpos₁, hline₁]
  refine (Slice.delete_spec (show p + m ≤ t.line.len by omega)).bind fun line₂ h₂ => ?_
  rw [if_pos hecho₁]
  subst heq
  have htake : (t.line.elems.take p).length = p := by
    rw [List.length_take, hlen]
    omega
  have hrest : (t.line.elems.drop t.pos).length = t.line.len - t.pos := by
    rw [List.length_drop, hlen]
  rw [hle] at h₂
  have hafter : p ≤ line₂.len := by
    rw [← line₂.length_elems, h₂, List.length_append, htake]
    omega
  rw [Slice.after_spec hafter, h₂, List.drop_left' htake]
  have hshown : ∀ r ∈ t.line.elems.drop t.pos, Shown r :=
    fun r hr => hline r (List.mem_of_mem_drop hr)
  have hend : t.prompt.length + p + (t.line.elems.drop t.pos).length +
      (List.replicate m 32).length = t.prompt.length + t.line.elems.length := by
    rw [hrest, List.length_replicate]
    omega
  have hmid : t.prompt.length + p + (t.line.elems.drop t.pos).length ≤
      t.prompt.length + t.line.elems.length := by
    omega
  refine (paint_draws (t := { t with pos := p, line := line₂, display := d₁ })
    (h₁.writeLine hshown ((Nat.div_le_div_right hmid).trans_lt hfits))).bind ?_
  rintro _ ⟨d₃, rfl, h₃⟩
  have hblank := h₃.write (shown_replicate m) (by rw [hend]; exact hfits)
  rw [hend, List.length_replicate] at hblank
  refine (paint_draws (t := { t with pos := p, line := line₂, display := d₃ })
    (f := fun d => (d.queue (List.replicate m 32)).advanceCursor m) hblank).bind ?_
  rintro _ ⟨d₄, rfl, h₄⟩
  rw [Vt.overwrite_append] at h₄
  have h₄ := Painted.newLine _ m (by omega) (by rw [hrest]; omega) h₄
  refine (moveCursorToPos_draws (t := { t with pos := p, line := line₂, display := d₄ }) hecho
    hprompt h₄ p ((Nat.div_le_div_right hfirst).trans (le_max_right _ _))).mono ?_
  rintro _ ⟨d₅, rfl, h₅⟩
  refine ⟨_, ?_, h₅⟩
  have hshort : t.prompt.length + (t.line.elems.take p ++ t.line.elems.drop t.pos).length ≤
      t.prompt.length + t.line.elems.length := by
    rw [List.length_append, htake]
    omega
  exact (Nat.div_le_div_right hshort).trans (le_max_right _ _)

/-- `keyDeleteLine`: spaces to the end of the line. -/
theorem deleteLine_draws (ht : Legible t)
    (h : LineOn v₀ paper base t.prompt t.line.elems t.pos t.display) :
    Returns t.deleteLine fun t' =>
      LineOn v₀ paper base t.prompt (t.line.elems.take t.pos) t.pos t'.display := by
  have hfits := h.fits
  obtain ⟨hecho, hprompt, -, hpos⟩ := ht
  obtain ⟨rows, hrows, hpainted⟩ := h
  have hlen : t.line.elems.length = t.line.len := t.line.length_elems
  have hend : t.prompt.length + t.pos + (List.replicate (t.line.len - t.pos) 32).length =
      t.prompt.length + t.line.elems.length := by
    rw [List.length_replicate]
    omega
  unfold deleteLine
  refine (paint_draws (hpainted.blank (by rw [hend]; exact hfits))).bind ?_
  rintro _ ⟨d₁, rfl, h₁⟩
  refine (Slice.upTo_spec hpos).bind fun line₂ h₂ => ?_
  have h₁ := Painted.newLine [] (t.line.len - t.pos) (by omega) (by rw [List.length_nil]; omega) h₁
  rw [hend, List.append_nil] at h₁
  have hle : t.prompt.length + t.pos ≤ t.prompt.length + t.line.elems.length := by omega
  refine (moveCursorToPos_draws (t := { t with line := line₂, display := d₁ }) hecho hprompt h₁
    t.pos ((Nat.div_le_div_right hle).trans (le_max_right _ _))).mono ?_
  rintro _ ⟨d₂, rfl, hd₂⟩
  refine ⟨_, ?_, hd₂⟩
  have hshort : t.prompt.length + (t.line.elems.take t.pos).length ≤
      t.prompt.length + t.line.elems.length := by
    rw [List.length_take]
    omega
  exact (Nat.div_le_div_right hshort).trans (le_max_right _ _)

/-- The end of a line: the text is left behind, and the next row is empty. -/
theorem endLine_draws (ht : Legible t)
    (h : LineOn v₀ paper base t.prompt t.line.elems t.pos t.display) (newLine : Slice ℕ) :
    Returns (t.endLine newLine) fun t' => ∃ paper' : ℕ → ℕ → ℕ,
      Extends v₀.width paper base (lineRows v₀.width (t.prompt ++ t.line.elems)) paper' ∧
      Painted v₀ paper' (base + (lineRows v₀.width (t.prompt ++ t.line.elems)).length)
        (textOf []) 0 0 t'.display := by
  obtain ⟨hecho, hprompt, -, -⟩ := ht
  obtain ⟨rows, hrows, hpainted⟩ := h
  have hlen : (t.prompt ++ t.line.elems).length = t.prompt.length + t.line.len := by
    rw [List.length_append, t.line.length_elems]
  rw [t.line.length_elems] at hrows
  unfold endLine
  refine (moveCursorToPos_draws hecho hprompt hpainted t.line.len hrows).bind ?_
  rintro _ ⟨d, rfl, h₁⟩
  have hrow := h₁.stands.row_eq
  have hlt := Nat.lt_div_mul_add (a := t.prompt.length + t.line.len) h₁.page.width_pos
  obtain ⟨hextends, hpage, hstands⟩ := newRow_rows h₁.page hrow (by
    rw [hlen, Nat.add_mul, Nat.one_mul]
    exact hlt.le)
  rw [seen_width, ← hlen] at hextends hpage hstands
  obtain ⟨hvalid, hseen⟩ := seen_more v₀ d
    ({ d.queue [13, 10] with cursorX := 0, cursorY := 0, maxLine := 0 }) [13, 10] h₁.valid
    (by decide) (List.append_assoc _ _ _).symm
  refine returns_some
    ⟨(seen v₀ d).cell, hextends, hvalid, hseen ▸ hpage, hseen ▸ hstands, h₁.width_eq, ?_, ?_⟩
  · exact (Nat.zero_mod _).symm
  · exact (Nat.zero_div _).symm

/-- The prompt has been written on empty rows. -/
theorem lineOn_of_prompt {prompt : List ℕ} {d : Display}
    (h : Painted v₀ paper base (Vt.overwrite (textOf []) 0 prompt)
      (max 0 ((0 + prompt.length) / v₀.width))
      (0 + prompt.length) d) : LineOn v₀ paper base prompt [] 0 d := by
  rw [overwrite_textOf (Nat.zero_le _) (Nat.zero_le _), List.take_nil, List.nil_append,
    Nat.zero_add] at h
  refine ⟨max 0 (prompt.length / v₀.width), le_max_right _ _, ?_⟩
  rwa [List.append_nil, Nat.add_zero]

/-- The prompt at the beginning of `readLine`. -/
theorem showPrompt_draws (hprompt : ∀ r ∈ t.prompt, Shown r)
    (h : Painted v₀ paper base (textOf []) 0 0 t.display)
    (hfits : t.prompt.length / v₀.width < v₀.height) :
    Returns t.showPrompt
      (Draws t fun d => d.outBuf = [] ∧ LineOn v₀ paper base t.prompt [] 0 d) := by
  have hcursor : t.display.cursorX = 0 ∧ t.display.cursorY = 0 :=
    ⟨h.cursorX_eq.trans (Nat.zero_mod _), h.cursorY_eq.trans (Nat.zero_div _)⟩
  unfold showPrompt
  rw [if_pos hcursor]
  refine (paint_draws (h.writeLine hprompt (by rw [Nat.zero_add]; exact hfits))).bind ?_
  rintro _ ⟨d, rfl, hd⟩
  exact returns_some ⟨d.flush, rfl, rfl, (lineOn_of_prompt hd).flush⟩

/-- A prompt that is there already is not written again. -/
theorem showPrompt_again (h : LineOn v₀ paper base t.prompt t.line.elems t.pos t.display) :
    Returns t.showPrompt (Draws t fun d =>
      (t.display.outBuf = [] → d.outBuf = []) ∧
        LineOn v₀ paper base t.prompt t.line.elems t.pos d) := by
  unfold showPrompt
  by_cases hcursor : t.display.cursorX = 0 ∧ t.display.cursorY = 0
  · obtain ⟨rows, hrows, hpainted⟩ := h
    have hzero : t.prompt.length + t.pos = 0 := by
      have hsplit := Nat.div_add_mod (t.prompt.length + t.pos) v₀.width
      rwa [← hpainted.cursorX_eq, ← hpainted.cursorY_eq, hcursor.1, hcursor.2, Nat.mul_zero,
        eq_comm] at hsplit
    have hnil : t.prompt = [] := List.length_eq_zero_iff.mp (by omega)
    rw [if_pos hcursor]
    refine (paint_draws (P := (· = t.display)) (by rw [hnil]; exact returns_some rfl)).bind ?_
    rintro _ ⟨d, rfl, rfl⟩
    exact returns_some ⟨t.display.flush, rfl, fun _ => rfl, LineOn.flush ⟨rows, hrows, hpainted⟩⟩
  · rw [if_neg hcursor]
    exact returns_some ⟨t.display, rfl, id, h⟩

/-- `keyClearScreen`: a new page from the first row of the screen on. -/
theorem clearScreen_draws (ht : Legible t)
    (h : LineOn v₀ paper base t.prompt t.line.elems t.pos t.display) :
    Returns t.clearScreen fun t' => ∃ (paper' : ℕ → ℕ → ℕ) (base' : ℕ),
      LineOn v₀ paper' base' t.prompt t.line.elems t.pos t'.display := by
  have hfits := h.fits
  rw [t.line.length_elems] at hfits
  obtain ⟨rows, hrows, hpainted⟩ := h
  obtain ⟨hpage, hstands⟩ := hpainted.page.clear
  -- the two sequences
  obtain ⟨hvalid, hseen⟩ := seen_more v₀ t.display
    ({ t.display.queue [27, 91, 50, 74, 27, 91, 72] with cursorX := 0, cursorY := 0 })
    [27, 91, 50, 74, 27, 91, 72] hpainted.valid (by decide) (List.append_assoc _ _ _).symm
  have herase : (seen v₀ t.display).feed [27, 91, 50, 74] = (seen v₀ t.display).eraseDisplay :=
    Vt.feed_csi [50] 74 hpainted.page.parse_eq (by decide) (by decide)
  have hhome : (seen v₀ t.display).eraseDisplay.feed [27, 91, 72] =
      (seen v₀ t.display).eraseDisplay.home :=
    Vt.feed_csi [] 72 hpainted.page.parse_eq (fun c hc => by cases hc) (by decide)
  have hboth : (seen v₀ t.display).feed [27, 91, 50, 74, 27, 91, 72] =
      (seen v₀ t.display).eraseDisplay.home := by
    rw [← hhome, ← herase, ← Vt.feed_append]
    rfl
  rw [hboth] at hseen
  have hclear : Painted v₀ (seen v₀ t.display).cell (seen v₀ t.display).top (textOf []) 0 0
      { t.display.queue [27, 91, 50, 74, 27, 91, 72] with cursorX := 0, cursorY := 0 } :=
    ⟨hvalid, hseen ▸ hpage, hseen ▸ hstands, hpainted.width_eq, (Nat.zero_mod _).symm,
      (Nat.zero_div _).symm⟩
  have hpromptFits : (0 + t.prompt.length) / v₀.width < v₀.height :=
    (Nat.div_le_div_right (by omega)).trans_lt hfits
  unfold clearScreen
  have hwrite := hclear.write ht.prompt_shown hpromptFits
  rw [← visualLength_of_shown ht.prompt_shown] at hwrite
  refine (paint_draws (f := fun d =>
    { (d.queue [27, 91, 50, 74, 27, 91, 72]).queue t.prompt with cursorX := 0, cursorY := 0
      }.advanceCursor (visualLength t.prompt)) hwrite).bind ?_
  rintro _ ⟨d, rfl, hd⟩
  rw [visualLength_of_shown ht.prompt_shown] at hd
  have hlegible : Legible (t.withDisplay d) :=
    ⟨ht.echo_eq, ht.prompt_shown, ht.line_shown, ht.pos_le⟩
  refine (setLine_draws hlegible (lineOn_of_prompt hd) (Nat.zero_le _) hfits ht.line_shown
    ht.pos_le hfits).mono ?_
  exact fun t' h' => ⟨_, _, h'⟩

end Screen

/-! ## Other output -/

section Output

variable {v₀ : Vt} {paper : ℕ → ℕ → ℕ} {base rows i : ℕ} {text : ℕ → ℕ} {d : Display}

/-- A row is cleared, with the cursor at its beginning. -/
theorem Painted.clearLineToRight (h : Painted v₀ paper base text rows i d) (hi : i % v₀.width = 0) :
    Painted v₀ paper base (Vt.overwrite text i (List.replicate v₀.width 32)) rows i
      d.clearLineToRight := by
  obtain ⟨hpage, hstands⟩ := h.page.eraseRow h.stands (by rw [seen_width]; exact hi)
  rw [seen_width] at hpage
  obtain ⟨hvalid, hseen⟩ := seen_more v₀ d d.clearLineToRight [27, 91, 75] h.valid
    (by decide) (List.append_assoc _ _ _).symm
  have herase : (seen v₀ d).feed [27, 91, 75] = (seen v₀ d).eraseToRight :=
    Vt.feed_csi [] 75 h.page.parse_eq (fun c hc => by cases hc) (by decide)
  rw [herase] at hseen
  exact ⟨hvalid, hseen ▸ hpage, hseen ▸ hstands, h.width_eq, h.cursorX_eq, h.cursorY_eq⟩

/-- The rows above are cleared one after the other. -/
theorem Painted.clearUp {n : ℕ} (h : Painted v₀ paper base text rows (n * v₀.width) d)
    (hblank : ∀ k, n * v₀.width ≤ k → text k = 32) :
    Painted v₀ paper base (textOf []) rows 0 (Display.clearUp n d) := by
  induction n generalizing d text with
  | zero =>
    have htext : text = textOf [] := by
      funext k
      exact hblank k (by omega)
    rw [Nat.zero_mul] at h
    rw [← htext]
    exact h
  | succ n ih =>
    have hw := h.width_pos
    have hx : d.cursorX = 0 := h.cursorX_eq.trans (Nat.mul_mod_left _ _)
    have hy : d.cursorY = n + 1 := h.cursorY_eq.trans (Nat.mul_div_cancel _ hw)
    have hdiv : n * v₀.width / v₀.width = n := Nat.mul_div_cancel _ hw
    have hmod : n * v₀.width % v₀.width = 0 := Nat.mul_mod_left _ _
    have hrow := h.row_le
    rw [Nat.mul_div_cancel _ hw] at hrow
    have hup := h.move h.width_eq (j := n * v₀.width) (by rw [hdiv]; omega)
    rw [hdiv, hmod, hy, hx, show n + 1 - n = 1 by omega, show n - (n + 1) = 0 by omega,
      Nat.sub_self] at hup
    have hmoved : { d with cursorX := 0, cursorY := n }.move 1 0 0 0 =
        { d.move 1 0 0 0 with cursorY := d.cursorY - 1 } := by
      rw [hy, Nat.add_sub_cancel, ← hx]
      rfl
    rw [hmoved] at hup
    refine ih (hup.clearLineToRight hmod) fun k hk => ?_
    unfold Vt.overwrite
    rw [List.length_replicate]
    by_cases hin : n * v₀.width ≤ k ∧ k < n * v₀.width + v₀.width
    · rw [if_pos hin, List.getD_eq_getElem _ _ (by rw [List.length_replicate]; omega),
        List.getElem_replicate]
    · rw [if_neg hin]
      refine hblank k ?_
      rw [Nat.add_mul, Nat.one_mul]
      omega

/-- The rows of the prompt and the line are cleared, if the cursor is in the last one. -/
theorem Painted.clearLine {s : List ℕ} (h : Painted v₀ paper base (textOf s) rows i d)
    (hlast : s.length / v₀.width ≤ i / v₀.width) :
    Painted v₀ paper base (textOf []) rows 0 d.clearLine := by
  have hw := h.width_pos
  have hdiv : i / v₀.width * v₀.width / v₀.width = i / v₀.width := Nat.mul_div_cancel _ hw
  have hmod : i / v₀.width * v₀.width % v₀.width = 0 := Nat.mul_mod_left _ _
  have hleft := h.move h.width_eq (j := i / v₀.width * v₀.width) (by rw [hdiv]; exact h.row_le)
  have hmoved : { d with cursorX := 0, cursorY := i / v₀.width }.move 0 0 d.cursorX 0 =
      { d.move 0 0 d.cursorX 0 with cursorX := 0 } := by
    rw [← h.cursorY_eq]
    rfl
  rw [hdiv, hmod, h.cursorY_eq, Nat.sub_self, Nat.sub_zero, Nat.zero_sub, hmoved] at hleft
  unfold Display.clearLine
  dsimp only
  rw [h.cursorY_eq]
  refine (Painted.clearUp (hleft.clearLineToRight hmod) fun k hk => ?_).flush
  unfold Vt.overwrite
  rw [List.length_replicate]
  by_cases hin : i / v₀.width * v₀.width ≤ k ∧ k < i / v₀.width * v₀.width + v₀.width
  · rw [if_pos hin, List.getD_eq_getElem _ _ (by rw [List.length_replicate]; omega),
      List.getElem_replicate]
  · rw [if_neg hin]
    refine List.getD_eq_default _ _ ?_
    have hlt := Nat.lt_div_mul_add (a := s.length) hw
    have hle : s.length / v₀.width * v₀.width ≤ i / v₀.width * v₀.width :=
      Nat.mul_le_mul_right _ hlast
    omega

/-- Lines of other output. -/
def outputBytes (lines : List (List ℕ)) : GoString := lines.flatMap fun l => ofRunes l ++ [10]

theorem newline_not_mem {r : ℕ} (hr : Shown r) : (10 : UInt8) ∉ runeBytes r := by
  intro hmem
  have hlow := hr.1.1
  by_cases hlen : 1 < (runeBytes r).length
  · have hle := le_of_mem_rune (isRune_runeBytes r) hlen 10 hmem
    exact absurd hle (by decide)
  · unfold runeBytes at hmem hlen
    split_ifs at hmem hlen with h1
    · have heq := congrArg UInt8.toNat (List.mem_singleton.mp hmem)
      rw [UInt8.toNat_ofNat'] at heq
      have hten : (10 : UInt8).toNat = 10 := rfl
      omega
    all_goals exact hlen (Nat.le_add_left 2 _)

/-- `writeWithCRLF` changes nothing but the ends of the lines. -/
theorem crlf_outputBytes {lines : List (List ℕ)} (h : ∀ l ∈ lines, ∀ r ∈ l, Shown r) :
    ((outputBytes lines).flatMap fun b => if b = 10 then [13, 10] else [b]) =
      ofRunes (lines.flatMap fun l => l ++ [13, 10]) := by
  have hline : ∀ l : List ℕ, (∀ r ∈ l, Shown r) →
      ((ofRunes l).flatMap fun b => if b = 10 then [13, 10] else [b]) = ofRunes l := by
    intro l hl
    have hsame : ∀ s : GoString, (10 : UInt8) ∉ s →
        (s.flatMap fun b => if b = 10 then [13, 10] else [b]) = s := by
      intro s hs
      induction s with
      | nil => rfl
      | cons b s ih =>
        rw [List.mem_cons, not_or] at hs
        rw [List.flatMap_cons, if_neg (Ne.symm hs.1), ih hs.2]
        rfl
    refine hsame _ fun hmem => ?_
    obtain ⟨r, hr, hin⟩ := List.mem_flatMap.mp hmem
    exact newline_not_mem (hl r hr) hin
  induction lines with
  | nil => rfl
  | cons l lines ih =>
    obtain ⟨hl, hrest⟩ := List.forall_mem_cons.mp h
    have htail := ih hrest
    unfold outputBytes at htail ⊢
    rw [List.flatMap_cons, List.flatMap_append, List.flatMap_append, hline l hl, htail,
      show (l :: lines).flatMap (fun l => l ++ [13, 10]) =
        l ++ [13, 10] ++ lines.flatMap fun l => l ++ [13, 10] from List.flatMap_cons,
      ofRunes_append, ofRunes_append]
    rfl

/-- Where the cursor is at the beginning of the text. -/
theorem Painted.zero (h : Painted v₀ paper base text rows 0 d) :
    Painted v₀ paper base text 0 0 d := by
  have hrows := h.page.rows_lt
  refine ⟨h.valid, ⟨h.page.width_pos, h.page.parse_eq, h.page.cell_eq, h.page.top_le, by omega⟩,
    ⟨h.stands.wrap_eq, h.stands.row_eq, h.stands.col_eq, ?_⟩,
    h.width_eq, h.cursorX_eq, h.cursorY_eq⟩
  rw [Nat.zero_div]

/-- A line of other output on empty rows. -/
theorem Painted.outputLine (h : Painted v₀ paper base (textOf []) 0 0 d) {l : List ℕ}
    (hl : ∀ r ∈ l, Shown r) (hfits : l.length / v₀.width < v₀.height) (d' : Display)
    (hbytes : d'.sent ++ d'.outBuf = d.sent ++ d.outBuf ++ ofRunes (l ++ [13, 10]))
    (hsame : d'.termWidth = d.termWidth ∧ d'.cursorX = d.cursorX ∧ d'.cursorY = d.cursorY) :
    ∃ paper', Extends v₀.width paper base (outputRows v₀.width l) paper' ∧
      Painted v₀ paper' (base + (outputRows v₀.width l).length) (textOf []) 0 0 d' := by
  have hw := h.width_pos
  have hlt := Nat.lt_div_mul_add (a := l.length) hw
  obtain ⟨hvalid, hseen⟩ := seen_more v₀ d d' _ h.valid
    (List.forall_mem_append.mpr ⟨fun r hr => (hl r hr).2, by decide⟩) hbytes
  rw [Vt.feed_append] at hseen
  -- the row of the cursor behind the text
  have htext : ∃ rows' n, Vt.Page paper base (textOf l) rows' ((seen v₀ d).feed l) ∧
      ((seen v₀ d).feed l).row = base + n ∧ l.length ≤ (n + 1) * v₀.width ∧
      n + 1 = if 0 < l.length ∧ l.length % v₀.width = 0 then l.length / v₀.width
        else l.length / v₀.width + 1 := by
    by_cases hnil : l = []
    · subst hnil
      refine ⟨0, 0, h.page, ?_, Nat.zero_le _, ?_⟩
      · have hrow := h.stands.row_eq
        rwa [Nat.zero_div] at hrow
      · rw [if_neg (by rw [List.length_nil]; omega), List.length_nil, Nat.zero_div]
    · have hpos : 0 < l.length := List.length_pos_of_ne_nil hnil
      have hdiv : (0 + l.length - 1) / v₀.width ≤ l.length / v₀.width :=
        Nat.div_le_div_right (by omega)
      obtain ⟨hpage, hnext⟩ := Vt.feed_text h.page (.inl h.stands) hnil (fun r hr => (hl r hr).1)
        (by rw [seen_width, seen_height]; exact hdiv.trans_lt hfits)
      rw [overwrite_textOf (Nat.zero_le _) (Nat.zero_le _), List.take_nil, List.nil_append] at hpage
      rw [seen_width, Nat.zero_add] at hnext
      by_cases hmod : l.length % v₀.width = 0
      · rw [if_pos hmod] at hnext
        have hrow := hnext.row_eq
        rw [Vt.feed_width, seen_width] at hrow
        have hge : 0 < l.length / v₀.width :=
          Nat.div_pos (Nat.le_of_dvd hpos (Nat.dvd_of_mod_eq_zero hmod)) hw
        have hmul := Nat.div_mul_cancel (Nat.dvd_of_mod_eq_zero hmod)
        refine ⟨_, l.length / v₀.width - 1, hpage, ?_, ?_, ?_⟩
        · generalize l.length / v₀.width = q at hrow hge
          omega
        · rw [Nat.sub_add_cancel hge, hmul]
        · rw [if_pos ⟨hpos, hmod⟩, Nat.sub_add_cancel hge]
      · rw [if_neg hmod] at hnext
        have hrow := hnext.row_eq
        rw [Vt.feed_width, seen_width] at hrow
        refine ⟨_, l.length / v₀.width, hpage, hrow, ?_, ?_⟩
        · rw [Nat.add_mul, Nat.one_mul]
          exact hlt.le
        · rw [if_neg (fun hc => hmod hc.2)]
  obtain ⟨rows', n, hpage, hrow, hlen, hn⟩ := htext
  obtain ⟨hextends, hpage', hstands⟩ :=
    newRow_rows hpage hrow (by rw [Vt.feed_width, seen_width]; exact hlen)
  rw [Vt.feed_width, seen_width, hn] at hextends hpage' hstands
  refine ⟨_, hextends, hvalid, hseen ▸ hpage', hseen ▸ hstands, ?_, ?_, ?_⟩
  · rw [hsame.1, h.width_eq]
  · rw [hsame.2.1, h.cursorX_eq]
  · rw [hsame.2.2, h.cursorY_eq]

/-- All of it. -/
theorem Painted.output (h : Painted v₀ paper base (textOf []) 0 0 d) {lines : List (List ℕ)}
    (hlines : ∀ l ∈ lines, (∀ r ∈ l, Shown r) ∧ l.length / v₀.width < v₀.height) {d' : Display}
    (hbytes : d'.sent ++ d'.outBuf = d.sent ++ d.outBuf ++
      ofRunes (lines.flatMap fun l => l ++ [13, 10]))
    (hsame : d'.termWidth = d.termWidth ∧ d'.cursorX = d.cursorX ∧ d'.cursorY = d.cursorY) :
    ∃ paper', Extends v₀.width paper base (lines.flatMap (outputRows v₀.width)) paper' ∧
      Painted v₀ paper' (base + (lines.flatMap (outputRows v₀.width)).length) (textOf []) 0 0
        d' := by
  induction lines generalizing d paper base with
  | nil =>
    have hnil : d'.sent ++ d'.outBuf = d.sent ++ d.outBuf := by
      rw [hbytes]
      exact List.append_nil _
    have hseen : seen v₀ d' = seen v₀ d := by rw [seen, hnil, seen]
    refine ⟨paper, extends_nil _ _ _, hnil ▸ h.valid, hseen ▸ h.page, hseen ▸ h.stands, ?_, ?_, ?_⟩
    · rw [hsame.1, h.width_eq]
    · rw [hsame.2.1, h.cursorX_eq]
    · rw [hsame.2.2, h.cursorY_eq]
  | cons l lines ih =>
    obtain ⟨⟨hl, hfits⟩, hrest⟩ := List.forall_mem_cons.mp hlines
    obtain ⟨paper₁, hext₁, h₁⟩ := h.outputLine hl hfits
      { d with sent := d.sent ++ d.outBuf ++ ofRunes (l ++ [13, 10]), outBuf := [] }
      (List.append_nil _) ⟨rfl, rfl, rfl⟩
    obtain ⟨paper₂, hext₂, h₂⟩ := ih h₁ hrest (by
      rw [hbytes, List.flatMap_cons, ofRunes_append]
      simp only [List.append_assoc, List.nil_append]) hsame
    rw [List.flatMap_cons, List.length_append, ← Nat.add_assoc]
    exact ⟨paper₂, hext₁.append hext₂, h₂⟩

/-- `writeWithCRLF`. -/
theorem Painted.writeWithCRLF (h : Painted v₀ paper base (textOf []) 0 0 d) (hqueue : d.outBuf = [])
    {lines : List (List ℕ)}
    (hlines : ∀ l ∈ lines, (∀ r ∈ l, Shown r) ∧ l.length / v₀.width < v₀.height) :
    ∃ paper', Extends v₀.width paper base (lines.flatMap (outputRows v₀.width)) paper' ∧
      Painted v₀ paper' (base + (lines.flatMap (outputRows v₀.width)).length) (textOf []) 0 0
        (d.writeWithCRLF (outputBytes lines)) := by
  refine h.output hlines ?_ ⟨rfl, rfl, rfl⟩
  show d.sent ++ _ ++ d.outBuf = _
  rw [crlf_outputBytes fun l hl => (hlines l hl).1, hqueue, List.append_nil, List.append_nil]

end Output

namespace Screen

variable {v₀ : Vt} {paper : ℕ → ℕ → ℕ} {base : ℕ} {t : Screen} {lines : List (List ℕ)}

/-- `Write` while nothing is edited. -/
theorem write_above (h : Painted v₀ paper base (textOf []) 0 0 t.display)
    (hqueue : t.display.outBuf = [])
    (hlines : ∀ l ∈ lines, (∀ r ∈ l, Shown r) ∧ l.length / v₀.width < v₀.height) :
    Returns (t.write (outputBytes lines)) (Draws t fun d => d.outBuf = [] ∧ ∃ paper',
      Extends v₀.width paper base (lines.flatMap (outputRows v₀.width)) paper' ∧
      Painted v₀ paper' (base + (lines.flatMap (outputRows v₀.width)).length) (textOf []) 0 0
        d) := by
  have hcursor : t.display.cursorX = 0 ∧ t.display.cursorY = 0 :=
    ⟨h.cursorX_eq.trans (Nat.zero_mod _), h.cursorY_eq.trans (Nat.zero_div _)⟩
  unfold write
  rw [if_pos hcursor]
  exact returns_some ⟨_, rfl, hqueue, h.writeWithCRLF hqueue hlines⟩

/-- `Write` while a line is edited: the output takes the place of the prompt and the line, which
    follow below it. The cursor has to be in the last row, since the rows below it are not
    cleared. -/
theorem write_draws (ht : Legible t)
    (h : LineOn v₀ paper base t.prompt t.line.elems t.pos t.display)
    (hpos : 0 < t.prompt.length + t.pos)
    (hlast : (t.prompt.length + t.line.len) / v₀.width ≤ (t.prompt.length + t.pos) / v₀.width)
    (hlines : ∀ l ∈ lines, (∀ r ∈ l, Shown r) ∧ l.length / v₀.width < v₀.height) :
    Returns (t.write (outputBytes lines)) (Draws t fun d => d.outBuf = [] ∧ ∃ paper',
      Extends v₀.width paper base (lines.flatMap (outputRows v₀.width)) paper' ∧
      LineOn v₀ paper' (base + (lines.flatMap (outputRows v₀.width)).length) t.prompt t.line.elems
        t.pos d) := by
  obtain ⟨hecho, hprompt, hline, hposLe⟩ := ht
  have hfits := h.fits
  obtain ⟨rows, hrows, hpainted⟩ := h
  have hcursor : ¬(t.display.cursorX = 0 ∧ t.display.cursorY = 0) := by
    rintro ⟨hx, hy⟩
    rw [hpainted.cursorX_eq] at hx
    rw [hpainted.cursorY_eq] at hy
    have hdm := Nat.div_add_mod (t.prompt.length + t.pos) v₀.width
    rw [hx, hy, Nat.mul_zero] at hdm
    omega
  have hlen : t.line.elems.length = t.line.len := t.line.length_elems
  rw [hlen] at hfits
  obtain ⟨paper', hextends, hout⟩ := (hpainted.clearLine (by
    rw [List.length_append, hlen]; exact hlast)).zero.writeWithCRLF rfl hlines
  unfold write
  rw [if_neg hcursor]
  refine (hout.writeLine hprompt ?_).bind ?_
  · rw [Nat.zero_add]
    exact (Nat.div_le_div_right (Nat.le_add_right _ _)).trans_lt hfits
  intro d₁ h₁
  rw [Nat.zero_add] at h₁
  dsimp only
  rw [if_pos hecho]
  refine (h₁.writeLine hline (by rw [hlen]; exact hfits)).bind fun d₂ h₂ => ?_
  rw [overwrite_textOf (Nat.zero_le _) (Nat.zero_le _), List.take_nil, List.nil_append,
    overwrite_textOf le_rfl (Nat.le_add_right _ _), List.take_length, hlen] at h₂
  refine (moveCursorToPos_draws (t := t.withDisplay d₂) hecho hprompt h₂ t.pos ?_).bind ?_
  · exact (Nat.div_le_div_right (Nat.add_le_add_left hposLe _)).trans (le_max_right _ _)
  rintro _ ⟨d₃, rfl, h₃⟩
  refine returns_some ⟨d₃.flush, rfl, rfl, paper', hextends, LineOn.flush ⟨_, ?_, h₃⟩⟩
  rw [hlen]
  exact le_max_right _ _

end Screen

end GoJump.Common
