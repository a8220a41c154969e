import GoJump.Common.Terminal
import GoJump.Lib.Run

/-!
# The length of the line

A character that is typed is dropped when the line has `maxLineLength` characters
(`pkg/common/terminal.go`, lines 584–586). A line that is shown from the history was such a line
before. But what is pasted goes to `addKeyToLine` without this test (lines 449–452), and the test
is an equation: once a paste has made the line longer than `maxLineLength`, typed characters
are inserted as well, and the long line comes back from the history.

So the line stays within `maxLineLength` exactly when nothing is pasted into a line that is
full; a line of 4096 characters may be pasted, and the end of a paste and the enter key are
not part of it.

* `handleKey_short`: one key, for all keys.
* `line_bounded_iff`: all states of a run of the keys, with `SetEcho` between them.
* `pasted_beyond`: a paste of 4097 characters.
-/

namespace GoJump.Common

open GoJump.Go GoJump.Lib

/-! ## Inputs -/

/-- What comes to the terminal: the keys, and `SetEcho`, on which depends whether a line is
    added to the history. -/
inductive LineInput
  | key (key : ℕ)
  | echo (on : Bool)

/-- A key in the loop of `readLine`, with what is done after a line (lines 805–851). -/
def Editor.input (ed : Editor) : LineInput → Editor
  | .key key =>
    let (s, result) := keyMachine.handle (ed, false) key
    (lineResult .read s result).1
  | .echo on => { ed with echo := on }

def Editor.inputStep (ed : Editor) (input : LineInput) : Option Editor := some (ed.input input)

/-- A key of a paste, into a line that is full. -/
def PastesIntoFull (ed : Editor) (input : LineInput) : Prop :=
  ∃ key, input = .key key ∧ ed.pasteActive = true ∧ key ≠ keyEnter ∧ key ≠ keyPasteEnd ∧
    ed.line.length = Editor.maxLineLength

/-! ## Short lines -/

/-- A string whose characters make a line within the limit. -/
def ShortString (s : GoString) : Prop := (runes s).length ≤ Editor.maxLineLength

/-- The line is within the limit, and so are the lines that can take its place. -/
structure Short (ed : Editor) : Prop where
  line : ed.line.length ≤ Editor.maxLineLength
  pending : ShortString ed.historyPending
  entries : ∀ entry ∈ ed.history.entries, ShortString entry

theorem shortString_nil : ShortString [] := Nat.zero_le _

theorem short_new : Short Editor.new := ⟨Nat.zero_le _, shortString_nil, fun _ h => by cases h⟩

section Short

variable {ed : Editor}

theorem Short.text (h : Short ed) : ShortString (ofRunes ed.line) := by
  show (runes (ofRunes ed.line)).length ≤ _
  rw [length_runes_ofRunes]
  exact h.line

theorem Short.setLine (h : Short ed) {line : List ℕ} {pos : ℕ} (hpos : pos ≤ line.length)
    (hline : line.length ≤ Editor.maxLineLength) : Short (ed.setLine line pos hpos) :=
  ⟨hline, h.pending, h.entries⟩

theorem Short.moveTo (h : Short ed) {pos : ℕ} (hpos : pos ≤ ed.line.length) :
    Short (ed.moveTo pos hpos) :=
  ⟨h.line, h.pending, h.entries⟩

theorem Short.eraseNPreviousChars (h : Short ed) (n : ℕ) : Short (ed.eraseNPreviousChars n) := by
  refine h.setLine _ ?_
  have hline := h.line
  have hpos := ed.pos_le
  rw [List.length_append, List.length_take, List.length_drop]
  omega

theorem length_addKeyToLine (ed : Editor) (key : ℕ) :
    (ed.addKeyToLine key).line.length = ed.line.length + 1 := by
  have hpos := ed.pos_le
  show (ed.line.take ed.pos ++ key :: ed.line.drop ed.pos).length = _
  rw [List.length_append, List.length_take, List.length_cons, List.length_drop]
  omega

theorem Short.addKeyToLine (h : Short ed) (hne : ed.line.length ≠ Editor.maxLineLength) (key : ℕ) :
    Short (ed.addKeyToLine key) := by
  refine h.setLine _ ?_
  have hlen := length_addKeyToLine ed key
  have hline := h.line
  change (ed.addKeyToLine key).line.length ≤ _
  omega

theorem Short.nthPreviousEntry (h : Short ed) {n : ℕ} {entry : GoString}
    (hentry : ed.history.nthPreviousEntry n = some entry) : ShortString entry := by
  unfold StRingBuffer.nthPreviousEntry at hentry
  split_ifs at hentry
  all_goals exact h.entries entry (List.mem_of_getElem? hentry)

theorem Short.historyUp (h : Short ed) : Short ed.historyUp := by
  unfold Editor.historyUp
  split
  · exact h
  · rename_i entry hentry
    refine ⟨h.nthPreviousEntry hentry, ?_, h.entries⟩
    show ShortString (if ed.historyIndex = -1 then ofRunes ed.line else ed.historyPending)
    split_ifs
    · exact h.text
    · exact h.pending

theorem Short.historyDown (h : Short ed) : Short ed.historyDown := by
  unfold Editor.historyDown
  split_ifs
  · exact h
  · exact ⟨h.pending, h.pending, h.entries⟩
  · split
    · exact h
    · rename_i entry hentry
      exact ⟨h.nthPreviousEntry hentry, h.pending, h.entries⟩

theorem StRingBuffer.mem_add {s : StRingBuffer} {a entry : GoString}
    (h : entry ∈ (s.add a).entries) :
    entry = a ∨ entry = [] ∨ entry ∈ s.entries := by
  rcases List.mem_or_eq_of_mem_set h with hold | rfl
  · unfold StRingBuffer.allocated at hold
    split_ifs at hold
    · exact Or.inr (Or.inl (List.eq_of_mem_replicate hold))
    · exact Or.inr (Or.inr hold)
  · exact Or.inl rfl

theorem Short.addToHistory (h : Short ed) {line : GoString} (hline : ShortString line) :
    Short (ed.addToHistory line) := by
  unfold Editor.addToHistory
  split_ifs
  · refine ⟨h.line, h.pending, fun entry hentry => ?_⟩
    rcases StRingBuffer.mem_add hentry with rfl | rfl | hold
    · exact hline
    · exact shortString_nil
    · exact h.entries entry hold
  · exact h

/-- What a key leads to is within the limit, with the line that it may end. -/
def ShortResult (r : Editor × Option GoString) : Prop := Short r.1 ∧ ∀ line ∈ r.2, ShortString line

theorem Short.result (h : Short ed) : ShortResult (ed, none) := ⟨h, fun _ hline => by cases hline⟩

theorem handleCase_short (h : Short ed) {c : KeyCase}
    (hc : ∀ key, c = .pasted key → ed.line.length ≠ Editor.maxLineLength) :
    ShortResult (ed.handleCase c) := by
  have hend : ∀ line, ShortString line → ShortResult (ed.setLine [] 0 le_rfl, some line) := by
    intro line hline
    refine ⟨h.setLine _ (Nat.zero_le _), fun line' hline' => ?_⟩
    cases hline'
    exact hline
  cases c with
  | pasted key => exact (h.addKeyToLine (hc key rfl) key).result
  | backspace =>
    rw [Editor.handleCase]
    split_ifs
    · exact h.result
    · exact (h.eraseNPreviousChars 1).result
  | altLeft | altRight | left | home | toEnd => exact (h.moveTo _).result
  | right =>
    rw [Editor.handleCase]
    split_ifs with hlt
    · exact (h.moveTo hlt).result
    · exact h.result
  | up => exact h.historyUp.result
  | down => exact h.historyDown.result
  | ctrlC => exact hend [] shortString_nil
  | enter => exact hend _ h.text
  | deleteWord | ctrlU => exact (h.eraseNPreviousChars _).result
  | deleteLine => exact (h.setLine _ ((List.length_take_le' _ _).trans h.line)).result
  | ctrlD =>
    rw [Editor.handleCase]
    split_ifs with hlt
    · exact ((h.moveTo hlt).eraseNPreviousChars 1).result
    · exact h.result
  | clearScreen => exact h.result
  | other key =>
    rw [Editor.handleCase]
    split_ifs with hprint hfull
    · exact h.result
    · exact h.result
    · exact (h.addKeyToLine hfull key).result

/-- Every key keeps the limit, but for one that is pasted into a full line. -/
theorem handleKey_short (h : Short ed) {key : ℕ}
    (hkey : ed.pasteActive = true ∧ key ≠ keyEnter → ed.line.length ≠ Editor.maxLineLength) :
    ShortResult (ed.handleKey key) :=
  handleCase_short h fun _ hc => hkey (pasted_of_keyCase hc)

end Short

/-! ## Runs -/

theorem input_short {ed : Editor} (h : Short ed) {input : LineInput}
    (hinput : ¬ PastesIntoFull ed input) :
    Short (ed.input input) := by
  cases input with
  | echo on => exact ⟨h.line, h.pending, h.entries⟩
  | key key =>
    unfold Editor.input keyMachine
    dsimp only
    split_ifs with heof hstart hstop
    · exact h
    · exact ⟨h.line, h.pending, h.entries⟩
    · exact ⟨h.line, h.pending, h.entries⟩
    · obtain ⟨hed, hline⟩ : ShortResult (ed.handleKey key) := handleKey_short h fun hpaste hfull =>
        hinput ⟨key, rfl, hpaste.1, hpaste.2, fun hend => hstop ⟨hpaste.1, hend⟩, hfull⟩
      cases hresult : (ed.handleKey key).2 with
      | none => exact hed
      | some line => exact hed.addToHistory (hline line hresult)

/-- A key that is pasted is inserted, whatever the length of the line is. -/
theorem input_paste {ed : Editor} {key : ℕ} (hpaste : ed.pasteActive = true)
    (henter : key ≠ keyEnter)
    (hend : key ≠ keyPasteEnd) : ed.input (.key key) = ed.addKeyToLine key := by
  unfold Editor.input keyMachine
  dsimp only
  rw [if_neg (by simp [hpaste]), if_neg (by simp [hpaste]), if_neg (fun h => hend h.2),
    Editor.handleKey, keyCase_of_pasted ⟨hpaste, henter⟩]
  rfl

/-- In every state that the keys lead to the line is within the limit exactly if nothing has
    been pasted into a full line. -/
theorem line_bounded_iff (inputs : List LineInput) :
    (∀ ed ∈ states Editor.inputStep Editor.new inputs, ed.line.length ≤ Editor.maxLineLength) ↔
      Meets Editor.inputStep (fun ed input => ¬ PastesIntoFull ed input) Editor.new inputs := by
  have hrun : run Editor.inputStep Editor.new inputs =
      some (inputs.foldl Editor.input Editor.new) :=
    run_some Editor.input Editor.new inputs
  have hshort : ∀ ed, Short ed → ed.line.length ≤ Editor.maxLineLength := fun _ h => h.line
  refine (meets_iff_states hshort ?_ ?_ inputs Editor.new _ short_new hrun).symm
  · intro ed input ed' h hinput hstep
    cases hstep
    exact input_short h hinput
  · rintro ed input ed' - hstep hle ⟨key, rfl, hpaste, henter, hend, hfull⟩
    cases hstep
    rw [input_paste hpaste henter hend, length_addKeyToLine] at hle
    omega

/-- The start of a paste, and `n` times the letter a. -/
def pastedLetters (n : ℕ) : List LineInput := .key keyPasteStart :: List.replicate n (.key 97)

theorem foldl_paste (n : ℕ) {ed : Editor} (h : ed.pasteActive = true) :
    ((List.replicate n (LineInput.key 97)).foldl Editor.input ed).line.length =
      ed.line.length + n := by
  induction n generalizing ed with
  | zero => rfl
  | succ n ih =>
    have hpaste : (ed.addKeyToLine 97).pasteActive = true := h
    have hrest := ih hpaste
    rw [length_addKeyToLine] at hrest
    rw [List.replicate_succ, List.foldl_cons, input_paste h (by decide) (by decide), hrest]
    omega

theorem foldl_pastedLetters (n : ℕ) :
    ((pastedLetters n).foldl Editor.input Editor.new).line.length = n := by
  have hpaste : (Editor.new.input (.key keyPasteStart)).pasteActive = true := rfl
  exact (foldl_paste n hpaste).trans (Nat.zero_add n)

/-- A paste of 4097 letters into the empty line of a new terminal. -/
theorem pasted_beyond : ∃ ed ∈ states Editor.inputStep Editor.new (pastedLetters 4097),
    Editor.maxLineLength < ed.line.length := by
  refine ⟨_, mem_states_of_run (run_some Editor.input Editor.new (pastedLetters 4097)), ?_⟩
  rw [foldl_pastedLetters]
  decide

end GoJump.Common
