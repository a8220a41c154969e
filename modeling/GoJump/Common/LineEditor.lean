import GoJump.Common.Screen
import GoJump.Lib.Run
import GoJump.Lib.TwoStack

/-!
# The line editor refines the editor with two stacks

`Screen.handleKey` changes the line in its array and paints it. On states in which the
cursor of the screen is within a line and the position within `line`, no key leads to a
fault, and the keys do to the line what they do to the list of characters in
`Editor.handleKey`; the keys that insert, delete and move do what the editor with two stacks
does, with one exception: a character that is typed, and not pasted, into a line of 4096
characters is dropped.

* `handleKey_refines`: one key, for all keys.
* `handleKeys_refines`: sequences of keys against the editor with two stacks.
* `full_line_drops`: the character that is dropped.
-/

namespace GoJump.Common

open GoJump.Go GoJump.Lib

/-! ## The line as a list -/

/-- The editor that is painted. -/
def Screen.editor (t : Screen) (h : t.pos ≤ t.line.len) : Editor where
  line := t.line.elems
  pos := t.pos
  echo := t.echo
  pasteActive := t.pasteActive
  history := t.history
  historyIndex := t.historyIndex
  historyPending := t.historyPending
  pos_le := by
    rw [Slice.length_elems]
    exact h
  index_ge := t.index_ge

/-- The terminal paints this editor, with the cursor within a line of the screen of width `w`. -/
structure Refines (w : ℕ) (t : Screen) (ed : Editor) : Prop where
  ok : t.display.Within w
  pos_le : t.pos ≤ t.line.len
  editor_eq : t.editor pos_le = ed

/-- What a key does to the terminal is what it does to the editor. -/
def Follows (w : ℕ) (x : Option (Screen × Option GoString)) (y : Editor × Option GoString) : Prop :=
  Returns x fun r => Refines w r.1 y.1 ∧ r.2 = y.2

section Follows

variable {w : ℕ} {t t' : Screen} {ed : Editor} {line : List ℕ} {pos : ℕ}

theorem Refines.of_edits (h : Refines w t ed) (he : Screen.Edits w t line pos t')
    (hle : pos ≤ line.length) :
    Refines w t' (ed.setLine line pos hle) := by
  obtain ⟨hok, hpos, rfl⟩ := h
  refine ⟨he.ok, by rw [he.pos_eq, he.len_eq]; exact hle, ?_⟩
  simp only [Screen.editor, Editor.setLine, Editor.mk.injEq]
  refine ⟨he.line_eq, he.pos_eq, ?_⟩
  rw [he.eq]
  exact ⟨rfl, rfl, rfl, rfl, rfl⟩

theorem Follows.of_edits (h : Refines w t ed) {x : Option Screen}
    (hx : Returns x (Screen.Edits w t line pos)) (hle : pos ≤ line.length) (out : Option GoString) :
    Follows w (x.map (·, out)) (ed.setLine line pos hle, out) :=
  hx.map fun _ he => ⟨h.of_edits he hle, rfl⟩

theorem Follows.of_echoes (h : Refines w t ed) {x : Option Screen}
    (hx : Returns x (Screen.Echoes w t line pos))
    (hle : pos ≤ line.length) : Follows w (x.map (·, none)) (ed.setLine line pos hle, none) :=
  Follows.of_edits h (hx.mono fun _ he => he.toEdits) hle none

end Follows

/-! ## One key -/

/-- What a key other than `keyClearScreen` does to the terminal, next to what it does to the
    editor that is painted. -/
inductive Does (t : Screen) (hpos : t.pos ≤ t.line.len) :
    Option (Screen × Option GoString) → Editor × Option GoString → Prop
  | stay : Does t hpos (some (t, none)) (t.editor hpos, none)
  | insert (key : ℕ) :
    Does t hpos ((t.addKeyToLine key).map (·, none)) ((t.editor hpos).addKeyToLine key, none)
  | move (pos : ℕ) (hle : pos ≤ (t.editor hpos).line.length) :
    Does t hpos ((t.moveTo pos).map (·, none)) ((t.editor hpos).moveTo pos hle, none)
  | erase (n : ℕ) :
    Does t hpos ((t.eraseNPreviousChars n).map (·, none))
      ((t.editor hpos).eraseNPreviousChars n, none)
  | delete (hlt : t.pos < t.line.len) :
    Does t hpos ((Screen.eraseNPreviousChars { t with pos := t.pos + 1 } 1).map (·, none))
      ((Screen.editor { t with pos := t.pos + 1 } hlt).eraseNPreviousChars 1, none)
  | cut : Does t hpos (t.deleteLine.map (·, none)) ((t.editor hpos).handleCase .deleteLine)
  | entry (index : ℤ) (hge : -1 ≤ index) (pending entry : GoString) :
    Does t hpos
      ((Screen.setEntry { t with
        historyIndex := index, historyPending := pending, index_ge := hge } entry).map (·, none))
      ({ (t.editor hpos).setEntry entry with
        historyIndex := index, historyPending := pending, index_ge := hge }, none)
  | restore :
    Does t hpos
      (((t.setEntry t.historyPending).bind fun t' =>
        some { t' with historyIndex := -1, index_ge := le_rfl }).map (·, none))
      ({ (t.editor hpos).setEntry t.historyPending with
        historyIndex := -1, index_ge := le_rfl }, none)
  | finish (line : Slice ℕ) (hline : line.elems = []) (out : GoString) :
    Does t hpos ((t.endLine line).map (·, some out))
      ((t.editor hpos).setLine [] 0 le_rfl, some out)

section Keys

variable {w : ℕ} {t : Screen} {ed : Editor} {hpos : t.pos ≤ t.line.len}

theorem countToLeftWord_eq (hpos : t.pos ≤ t.line.len) :
    t.countToLeftWord = some (t.editor hpos).countToLeftWord := by
  unfold Screen.countToLeftWord Editor.countToLeftWord
  show (if t.pos = 0 then _ else _) = some (if t.pos = 0 then _ else _)
  split_ifs
  · rfl
  · rfl
  · omega

/-- The cursor moves, unless it is at its place. -/
theorem Does.move_or_stay {pos : ℕ} (hle : pos ≤ (t.editor hpos).line.length) {c : Prop}
    [Decidable c] (hc : c → t.pos = pos) :
    Does t hpos ((if c then some t else t.moveTo pos).map (·, none))
      ((t.editor hpos).moveTo pos hle, none) := by
  by_cases hstay : c
  · rw [if_pos hstay]
    obtain rfl := hc hstay
    exact .stay
  · rw [if_neg hstay]
    exact .move pos hle

theorem historyUp_does :
    Does t hpos (t.historyUp.map (·, none)) ((t.editor hpos).historyUp, none) := by
  have hentry : (t.editor hpos).history.nthPreviousEntry ((t.editor hpos).historyIndex + 1).toNat =
      t.history.nthPreviousEntry (t.historyIndex + 1).toNat := rfl
  unfold Screen.historyUp Editor.historyUp
  rw [hentry]
  cases t.history.nthPreviousEntry (t.historyIndex + 1).toNat with
  | none => exact .stay
  | some entry => exact .entry _ t.index_ge_up _ entry

theorem historyDown_does :
    Does t hpos (t.historyDown.map (·, none)) ((t.editor hpos).historyDown, none) := by
  have hentry : (t.editor hpos).history.nthPreviousEntry ((t.editor hpos).historyIndex - 1).toNat =
      t.history.nthPreviousEntry (t.historyIndex - 1).toNat := rfl
  have hindex : (t.editor hpos).historyIndex = t.historyIndex := rfl
  unfold Screen.historyDown Editor.historyDown
  by_cases hnone : t.historyIndex = -1
  · rw [dif_pos hnone, dif_pos (hindex.trans hnone)]
    exact .stay
  rw [dif_neg hnone, dif_neg (hindex ▸ hnone)]
  by_cases hzero : t.historyIndex = 0
  · rw [if_pos hzero, if_pos (hindex.trans hzero)]
    exact .restore
  · rw [if_neg hzero, if_neg (hindex ▸ hzero), hentry]
    cases t.history.nthPreviousEntry (t.historyIndex - 1).toNat with
    | none => exact .stay
    | some entry => exact .entry _ (t.index_ge_down hnone) t.historyPending entry

theorem typeKey_does (key : ℕ) :
    Does t hpos ((t.typeKey key).map (·, none)) ((t.editor hpos).handleCase (.other key)) := by
  have hlen : (t.editor hpos).line.length = t.line.len := t.line.length_elems
  rw [Screen.typeKey, Editor.handleCase, hlen]
  split_ifs
  · exact .stay
  · exact .stay
  · exact .insert key

theorem handleCase_does (hpos : t.pos ≤ t.line.len) {c : KeyCase} (hclear : c ≠ .clearScreen) :
    Does t hpos (t.handleCase none c) ((t.editor hpos).handleCase c) := by
  have hlen : (t.editor hpos).line.length = t.line.len := t.line.length_elems
  have hmore : (t.editor hpos).pos < (t.editor hpos).line.length ↔ t.pos < t.line.len := by
    rw [hlen]
    exact Iff.rfl
  cases c with
  | pasted key => exact .insert key
  | backspace =>
    show Does t hpos (Option.map _ (if t.pos = 0 then _ else _)) (if t.pos = 0 then _ else _, none)
    by_cases hzero : t.pos = 0
    · rw [if_pos hzero, if_pos hzero]
      exact .stay
    · rw [if_neg hzero, if_neg hzero]
      exact .erase 1
  | altLeft =>
    rw [Screen.handleCase, countToLeftWord_eq hpos]
    exact .move _ _
  | altRight => exact .move _ _
  | left =>
    refine .move_or_stay _ fun hzero => ?_
    show t.pos = t.pos - 1
    omega
  | right =>
    rw [Screen.handleCase, Editor.handleCase]
    by_cases hend : t.pos = t.line.len
    · rw [if_pos hend, dif_neg (mt hmore.mp hend.not_lt)]
      exact .stay
    · rw [if_neg hend, dif_pos (hmore.mpr (lt_of_le_of_ne hpos hend))]
      exact .move _ _
  | home => exact .move_or_stay _ id
  | toEnd =>
    rw [Screen.handleCase, ← hlen]
    exact .move_or_stay _ id
  | up => exact historyUp_does
  | down => exact historyDown_does
  | ctrlC => exact .finish _ (Slice.elems_ofList []) []
  | enter =>
    obtain ⟨line, hline, helems⟩ := Slice.upTo_spec (s := t.line) (Nat.zero_le t.line.len)
    have hfinish : Does t hpos _ _ := .finish line helems (ofRunes t.line.elems)
    rw [Option.map_eq_bind] at hfinish
    rw [Screen.handleCase, hline]
    exact hfinish
  | deleteWord =>
    rw [Screen.handleCase, countToLeftWord_eq hpos]
    exact .erase _
  | deleteLine => exact .cut
  | ctrlD =>
    rw [Screen.handleCase, Editor.handleCase]
    by_cases hend : t.pos < t.line.len
    · rw [if_pos hend, dif_pos (hmore.mpr hend)]
      exact .delete hend
    · rw [if_neg hend, dif_neg (mt hmore.mp hend)]
      exact .stay
  | ctrlU => exact .erase _
  | clearScreen => exact absurd rfl hclear
  | other key => exact typeKey_does key

theorem setEntry_echoes (hok : t.display.Within w) (entry : GoString) :
    Returns (t.setEntry entry) (Screen.Echoes w t (runes entry) (runes entry).length) := by
  have hset := Screen.setLine_returns hok (Slice.ofList (runes entry)) (runes entry).length
  rwa [Slice.elems_ofList] at hset

theorem eraseNPreviousChars_follows (h : Refines w t ed) (n : ℕ) :
    Follows w ((t.eraseNPreviousChars n).map (·, none)) (ed.eraseNPreviousChars n, none) := by
  obtain ⟨hok, hpos, rfl⟩ := h
  exact Follows.of_echoes ⟨hok, hpos, rfl⟩ (Screen.eraseNPreviousChars_returns hok hpos n) _

theorem setEntry_follows (h : Refines w t ed) (entry : GoString) :
    Follows w ((t.setEntry entry).map (·, none)) (ed.setEntry entry, none) :=
  Follows.of_echoes h (setEntry_echoes h.ok entry) le_rfl

theorem Does.follows {x : Option (Screen × Option GoString)} {y : Editor × Option GoString}
    (h : Does t hpos x y) (hok : t.display.Within w) : Follows w x y := by
  have href : Refines w t (t.editor hpos) := ⟨hok, hpos, rfl⟩
  cases h with
  | stay => exact returns_some ⟨href, rfl⟩
  | insert key => exact Follows.of_echoes href (Screen.addKeyToLine_returns hok hpos key) _
  | move pos hle => exact Follows.of_echoes href (Screen.moveTo_returns hok pos) hle
  | erase n => exact eraseNPreviousChars_follows href n
  | delete hlt =>
    exact eraseNPreviousChars_follows (t := { t with pos := t.pos + 1 }) ⟨hok, hlt, rfl⟩ 1
  | cut => exact Follows.of_edits href (Screen.deleteLine_returns hok hpos) _ none
  | entry index hge pending entry =>
    exact setEntry_follows
      (t := { t with historyIndex := index, historyPending := pending, index_ge := hge })
      ⟨hok, hpos, rfl⟩ entry
  | restore =>
    refine ((setEntry_echoes hok t.historyPending).bind fun t' ht' => returns_some ?_).map
      fun _ hr => ⟨hr, rfl⟩
    obtain ⟨hok', hpos', heq⟩ := href.of_edits ht'.toEdits le_rfl
    exact ⟨hok', hpos', congrArg (fun ed : Editor =>
      { ed with historyIndex := -1, index_ge := le_rfl }) heq⟩
  | finish line hline out =>
    have hend := Screen.endLine_returns hok line
    rw [hline] at hend
    exact Follows.of_edits href hend _ (some out)

theorem handleCase_refines (h : Refines w t ed) (c : KeyCase) :
    Follows w (t.handleCase none c) (ed.handleCase c) := by
  obtain ⟨hok, hpos, rfl⟩ := h
  by_cases hclear : c = .clearScreen
  · subst hclear
    exact Follows.of_edits ⟨hok, hpos, rfl⟩ (Screen.clearScreen_returns hok)
      (t.editor hpos).pos_le none
  · exact (handleCase_does hpos hclear).follows hok

/-- For every key: no fault, and the editor that is painted is the one that the key leads to. -/
theorem handleKey_refines (h : Refines w t ed) (key : ℕ) :
    Follows w (t.handleKey none key) (ed.handleKey key) := by
  have hpaste : ed.pasteActive = t.pasteActive := by
    rw [← h.editor_eq]
    rfl
  rw [Screen.handleKey, Editor.handleKey, hpaste]
  exact handleCase_refines h _

end Keys

/-! ## Two stacks -/

/-- What reaches the editor: a key, or the mark of the beginning or the end of a paste. -/
inductive Input
  | key (key : ℕ)
  | paste (active : Bool)

/-- What `readLine` does with it (`pkg/common/terminal.go`, lines 818–832), without a
    completion callback. -/
def Screen.input (t : Screen) : Input → Option (Screen × Option GoString)
  | .key key => t.handleKey none key
  | .paste active => some ({ t with pasteActive := active }, none)

/-- The editor with two stacks, and whether a paste is in progress. -/
structure Reference where
  stack : TwoStack ℕ
  pasteActive : Bool

/-- The keys that are commands. -/
def commandKeys : List (ℕ × EditCommand ℕ) :=
  [(keyBackspace, .backspace), (keyLeft, .left), (keyRight, .right), (keyHome, .home),
    (keyEnd, .toEnd), (keyCtrlC, .cancel), (keyEnter, .enter), (keyDeleteLine, .clearAfter),
    (keyCtrlD, .delete), (keyCtrlU, .clearBefore), (keyClearScreen, .stay)]

/-- The command for a key: in a paste every key but Enter is inserted. The other printable
    characters are inserted too, but into a line of `maxLineLength` characters they are not. -/
def Reference.command (ref : Reference) (key : ℕ) : Option (EditCommand ℕ) :=
  if ref.pasteActive ∧ key ≠ keyEnter then some (.insert key)
  else
    match commandKeys.find? (·.1 = key) with
    | some (_, command) => some command
    | none =>
      if Editor.isPrintable key then
        some (if ref.stack.text.length = Editor.maxLineLength then .stay else .insert key)
      else none

/-- `none` for a key that is no command. -/
def Reference.step (ref : Reference) : Input → Option (Reference × Option (List ℕ))
  | .key key => (ref.command key).map fun command =>
    (⟨(ref.stack.step command).1, ref.pasteActive⟩, (ref.stack.step command).2)
  | .paste active => some (⟨ref.stack, active⟩, none)

/-- `(line[:pos], line[pos:])` as stacks. -/
def Editor.reference (ed : Editor) : Reference := ⟨TwoStack.ofList ed.line ed.pos, ed.pasteActive⟩

/-- The same for the terminal. -/
def Screen.reference (t : Screen) : Reference :=
  ⟨TwoStack.ofList t.line.elems t.pos, t.pasteActive⟩

/-- The editor does what the command does. -/
def Obeys (ed : Editor) (command : EditCommand ℕ) (r : Editor × Option GoString) : Prop :=
  r.1.reference = ⟨(ed.reference.stack.step command).1, ed.pasteActive⟩ ∧
    r.2 = (ed.reference.stack.step command).2.map ofRunes

section Commands

variable {ed : Editor}

theorem addKeyToLine_obeys (ed : Editor) (key : ℕ) :
    Obeys ed (.insert key) (ed.addKeyToLine key, none) :=
  ⟨congrArg (Reference.mk · ed.pasteActive) (TwoStack.ofList_insert ed.pos_le key), rfl⟩

/-- In a paste. -/
theorem handleKey_paste {key : ℕ} (h : ed.pasteActive = true ∧ key ≠ keyEnter) :
    ed.handleKey key = (ed.addKeyToLine key, none) := by
  rw [Editor.handleKey, keyCase_of_pasted h]
  rfl

/-- A change of the line and the position that the stacks follow. -/
theorem Obeys.of_setLine {command : EditCommand ℕ} {line : List ℕ} {pos : ℕ}
    {hle : pos ≤ line.length} {out : Option GoString}
    (hstack : TwoStack.ofList line pos = ((TwoStack.ofList ed.line ed.pos).step command).1)
    (hout : out = ((TwoStack.ofList ed.line ed.pos).step command).2.map ofRunes) :
    Obeys ed command (ed.setLine line pos hle, out) :=
  ⟨congrArg (Reference.mk · ed.pasteActive) hstack, hout⟩

theorem Obeys.of_stay {command : EditCommand ℕ}
    (hstack : ((TwoStack.ofList ed.line ed.pos).step command).1 = TwoStack.ofList ed.line ed.pos)
    (hout : none = ((TwoStack.ofList ed.line ed.pos).step command).2.map ofRunes) :
    Obeys ed command (ed, none) :=
  ⟨congrArg (Reference.mk · ed.pasteActive) hstack.symm, hout⟩

/-- The keys that are commands, outside of a paste. -/
theorem handleKey_commandKeys : ∀ p ∈ commandKeys, ¬ (ed.pasteActive = true ∧ p.1 ≠ keyEnter) →
    Obeys ed p.2 (ed.handleKey p.1) := by
  have hle := ed.pos_le
  simp only [commandKeys, List.forall_mem_cons, List.not_mem_nil, false_imp_iff, implies_true,
    and_true]
  refine ⟨?_, ?_, ?_, ?_, ?_, ?_, ?_, ?_, ?_, ?_, ?_⟩ <;> intro hnot <;>
    rw [Editor.handleKey, keyCase, if_neg hnot]
  · show Obeys ed .backspace (if ed.pos = 0 then ed else ed.eraseNPreviousChars 1, none)
    by_cases hzero : ed.pos = 0
    · rw [if_pos hzero]
      exact Obeys.of_stay (by rw [hzero]; rfl) rfl
    · rw [if_neg hzero]
      exact Obeys.of_setLine (TwoStack.ofList_backspace hle) rfl
  · exact Obeys.of_setLine (TwoStack.ofList_left hle) rfl
  · show Obeys ed .right
        (if h : ed.pos < ed.line.length then ed.moveTo (ed.pos + 1) h else ed, none)
    by_cases hlt : ed.pos < ed.line.length
    · rw [dif_pos hlt]
      exact Obeys.of_setLine (TwoStack.ofList_right hlt) rfl
    · rw [dif_neg hlt]
      exact Obeys.of_stay (TwoStack.right_of_length (by omega)) rfl
  · exact Obeys.of_setLine TwoStack.ofList_home rfl
  · exact Obeys.of_setLine TwoStack.ofList_toEnd rfl
  · exact Obeys.of_setLine rfl rfl
  · exact Obeys.of_setLine rfl (by rw [TwoStack.step, TwoStack.text_ofList]; rfl)
  · exact Obeys.of_setLine TwoStack.ofList_clearAfter rfl
  · show Obeys ed .delete (if h : ed.pos < ed.line.length then
      (ed.moveTo (ed.pos + 1) h).eraseNPreviousChars 1 else ed, none)
    by_cases hlt : ed.pos < ed.line.length
    · rw [dif_pos hlt]
      exact Obeys.of_setLine (TwoStack.ofList_delete hlt) rfl
    · rw [dif_neg hlt]
      exact Obeys.of_stay (TwoStack.delete_of_length (by omega)) rfl
  · show Obeys ed .clearBefore (ed.eraseNPreviousChars ed.pos, none)
    refine Obeys.of_setLine ?_ rfl
    rw [Nat.sub_self, List.take_zero, List.nil_append]
    exact TwoStack.ofList_clearBefore
  · exact Obeys.of_stay rfl rfl

theorem not_mem_commandKeys {key : ℕ} (h : commandKeys.find? (·.1 = key) = none) :
    ∀ p ∈ commandKeys, key ≠ p.1 := by
  intro p hp heq
  have := List.find?_eq_none.mp h p hp
  exact this (decide_eq_true heq.symm)

/-- A character that is typed. -/
theorem handleKey_typed {key : ℕ} (hnot : ¬ (ed.pasteActive = true ∧ key ≠ keyEnter))
    (hfind : commandKeys.find? (·.1 = key) = none) (hprint : Editor.isPrintable key = true) :
    ed.handleKey key =
      if ed.line.length = Editor.maxLineLength then (ed, none)
        else (ed.addKeyToLine key, none) := by
  have hne := not_mem_commandKeys hfind (keyBackspace, .backspace) List.mem_cons_self
  rw [Editor.handleKey, keyCase, if_neg hnot, Editor.switchCase_of_isPrintable hprint hne,
    Editor.handleCase, hprint]
  rfl

/-- The keys of the editor with two stacks. -/
theorem handleKey_obeys {key : ℕ} {command : EditCommand ℕ}
    (h : ed.reference.command key = some command) : Obeys ed command (ed.handleKey key) := by
  unfold Reference.command at h
  by_cases hpaste : ed.reference.pasteActive = true ∧ key ≠ keyEnter
  · rw [if_pos hpaste] at h
    cases h
    rw [handleKey_paste hpaste]
    exact addKeyToLine_obeys ed key
  rw [if_neg hpaste] at h
  cases hfind : commandKeys.find? (·.1 = key) with
  | some p =>
    rw [hfind] at h
    cases h
    have heq := List.find?_some hfind
    obtain rfl : p.1 = key := of_decide_eq_true heq
    exact handleKey_commandKeys p (List.mem_of_find?_eq_some hfind) hpaste
  | none =>
    rw [hfind] at h
    dsimp only at h
    by_cases hprint : Editor.isPrintable key = true
    · rw [if_pos hprint] at h
      cases h
      have htext : ed.reference.stack.text = ed.line := TwoStack.text_ofList
      rw [handleKey_typed hpaste hfind hprint, htext]
      split_ifs
      · exact Obeys.of_stay rfl rfl
      · exact addKeyToLine_obeys ed key
    · rw [if_neg hprint] at h
      cases h

end Commands

/-- The terminal stands where the reference editor stands. -/
structure Simulates (w : ℕ) (t : Screen) (ref : Reference) : Prop where
  ok : t.display.Within w
  pos_le : t.pos ≤ t.line.len
  reference_eq : t.reference = ref

/-- One input. -/
theorem input_simulates (w : ℕ) (t : Screen) (ref : Reference) (input : Input) (ref' : Reference)
    (out : Option (List ℕ)) (h : Simulates w t ref) (hstep : ref.step input = some (ref', out)) :
    Returns (t.input input) fun r => Simulates w r.1 ref' ∧ r.2 = out.map ofRunes := by
  obtain ⟨hok, hpos, rfl⟩ := h
  cases input with
  | paste active =>
    cases hstep
    exact returns_some ⟨⟨hok, hpos, rfl⟩, rfl⟩
  | key key =>
    obtain ⟨command, hcommand, heq⟩ := Option.map_eq_some_iff.mp hstep
    cases heq
    have hobeys : Obeys (t.editor hpos) command ((t.editor hpos).handleKey key) :=
      handleKey_obeys hcommand
    refine (handleKey_refines ⟨hok, hpos, rfl⟩ key).mono ?_
    rintro ⟨t', line⟩ ⟨href, hline⟩
    refine ⟨⟨href.ok, href.pos_le, ?_⟩, hline.trans hobeys.2⟩
    refine Eq.trans ?_ hobeys.1
    rw [← href.editor_eq]
    rfl

/-- From every state of the terminal with the cursor within a line of the screen and the
    position within the line, on every sequence of these keys and of pastes: no index is out
    of range, the position stays within the line, the two parts of the line are the stacks of
    the reference editor, and the same lines are returned. -/
theorem handleKeys_refines (t : Screen) (hwidth : 0 < t.display.termWidth)
    (hcursor : t.display.cursorX < t.display.termWidth) (hpos : t.pos ≤ t.line.len)
    (inputs : List Input) (ref : Reference) (lines : List (List ℕ))
    (href : runOut Reference.step t.reference inputs = some (ref, lines)) :
    ∃ t', runOut Screen.input t inputs = some (t', lines.map ofRunes) ∧
      t'.display.cursorX < t'.display.termWidth ∧ t'.pos ≤ t'.line.len ∧ t'.reference = ref := by
  obtain ⟨⟨t', lines'⟩, heq, ⟨hok', hpos', href'⟩, rfl⟩ :=
    runOut_simulates (input_simulates t.display.termWidth) inputs
      ⟨⟨rfl, hwidth, hcursor⟩, hpos, rfl⟩ href
  exact ⟨t', heq, hok'.cursor_lt, hpos', href'⟩

/-- "ac", Left, "b", Enter, and a paste with a control character in it. -/
def editing : List Input :=
  [.key 97, .key 99, .key keyLeft, .key 98, .key keyEnter, .paste true, .key 9, .paste false,
    .key keyHome]

theorem handleKeys_editing : ∃ t', runOut Screen.input (Screen.new (str "> ")) editing =
      some (t', [str "abc"]) ∧ t'.display.cursorX < t'.display.termWidth ∧ t'.pos ≤ t'.line.len ∧
      t'.reference = ⟨⟨[], [9]⟩, false⟩ :=
  handleKeys_refines (Screen.new (str "> ")) (by decide) (by decide) (by decide) editing
    ⟨⟨[], [9]⟩, false⟩ [[97, 98, 99]] rfl

/-- A line of 4096 letters with the cursor at its beginning. -/
def fullLine : Screen :=
  { Screen.new (str "> ") with line := Slice.ofList (List.replicate 4096 97) }

/-- A letter that is typed there is not inserted. -/
theorem full_line_drops :
    fullLine.handleKey none 98 = some (fullLine, none) ∧
      fullLine.reference.stack ≠ (fullLine.reference.stack.step (.insert 98)).1 := by
  have hfull : ∀ t : Screen, t.pasteActive = false → t.line.len = Editor.maxLineLength →
      t.handleKey none 98 = some (t, none) := by
    intro t hpaste hlen
    have htype : t.typeKey 98 = some t := by
      rw [Screen.typeKey, if_neg (by decide), if_pos hlen]
    rw [Screen.handleKey, hpaste]
    exact congrArg (Option.map (·, none)) htype
  constructor
  · exact hfull fullLine rfl List.length_replicate
  · generalize fullLine.reference.stack = z
    intro h
    exact List.cons_ne_self 98 z.before (congrArg TwoStack.before h).symm

end GoJump.Common
