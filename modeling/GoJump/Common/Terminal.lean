import GoJump.Go.Utf8
import GoJump.Lib.Framing

/-!
# The line editor of a terminal

Model of `Terminal` without a completion callback (`pkg/common/terminal.go`): `bytesToKey`
(lines 145–224), `handleKey` with the functions it calls (lines 322–608), `ReadPassword`,
`ReadLine`, `ReadLines` and `readLine` (lines 699–868) and the history `stRingBuffer`
(lines 984–1021). A key is a rune; the
editing keys are surrogates, which no rune is decoded to. What the editor writes back to
the terminal, and the position of the cursor on the screen that it needs for this, are
left out.

`remainder` is a slice of `inBuf`: the state has the array and the slice as a `Buffer`.
The loop of `readLine` is the loop of a `Machine` whose frames are the keys.

* `StRingBuffer.isSome_nthPreviousEntry`: the index into the history is in range for the
  entries that there are.
* `bytesToKey_suffix`: a key takes at least one byte, from the beginning.
* `bytesToKey_rest`: what is left is the end of the bytes, also where there is no key.
-/

namespace GoJump.Common

open GoJump.Go GoJump.Lib

/-! ## Keys -/

def keyCtrlC : ℕ := 3
def keyCtrlD : ℕ := 4
def keyCtrlU : ℕ := 21
def keyEnter : ℕ := 13
def keyBackspace : ℕ := 127
def keyUnknown : ℕ := 0xD806
def keyUp : ℕ := 0xD807
def keyDown : ℕ := 0xD808
def keyLeft : ℕ := 0xD809
def keyRight : ℕ := 0xD80A
def keyAltLeft : ℕ := 0xD80B
def keyAltRight : ℕ := 0xD80C
def keyHome : ℕ := 0xD80D
def keyEnd : ℕ := 0xD80E
def keyDeleteWord : ℕ := 0xD80F
def keyDeleteLine : ℕ := 0xD810
def keyClearScreen : ℕ := 0xD811
def keyPasteStart : ℕ := 0xD812
def keyPasteEnd : ℕ := 0xD813

/-- The byte of the escape key. -/
def keyEscape : UInt8 := 27

/-- The bytes that end an escape sequence: the ASCII letters and the tilde. -/
def isFinal (b : UInt8) : Bool :=
  inRange 97 122 b || inRange 65 90 b || decide (b = 126)

/-- The control characters that are editing keys (lines 150–169). -/
def controlKey (b : UInt8) : Option ℕ :=
  if b = 1 then some keyHome
  else if b = 5 then some keyEnd
  else if b = 8 then some keyBackspace
  else if b = 11 then some keyDeleteLine
  else if b = 12 then some keyClearScreen
  else if b = 23 then some keyDeleteWord
  else if b = 14 then some keyDown
  else if b = 16 then some keyUp
  else none

/-- The last byte of the sequences that begin with `ESC [`. -/
def arrowKey (b : UInt8) : Option ℕ :=
  if b = 65 then some keyUp
  else if b = 66 then some keyDown
  else if b = 67 then some keyRight
  else if b = 68 then some keyLeft
  else if b = 72 then some keyHome
  else if b = 70 then some keyEnd
  else none

/-- The last byte of the sequences that begin with `ESC [1;3`. -/
def altKey (b : UInt8) : Option ℕ :=
  if b = 67 then some keyAltRight else if b = 68 then some keyAltLeft else none

/-- The tilde that ends `pasteStart` and `pasteEnd`. -/
def tildeKey (key : ℕ) (b : UInt8) : Option ℕ := if b = 126 then some key else none

/-- The escape sequences that are recognised, each as what it begins with and the key for
    its last byte, in the order in which they are tried. -/
def escapes (pasteActive : Bool) : List (GoString × (UInt8 → Option ℕ)) :=
  if pasteActive then [([27, 91, 50, 48, 49], tildeKey keyPasteEnd)]
  else [([27, 91], arrowKey), ([27, 91, 49, 59, 51], altKey),
    ([27, 91, 50, 48, 48], tildeKey keyPasteStart)]

/-- One of these sequences at the beginning of `b`. -/
def seqKey (b : GoString) (seq : GoString × (UInt8 → Option ℕ)) : Option (ℕ × GoString) :=
  if seq.1 <+: b then
    match b.drop seq.1.length with
    | [] => none
    | c :: rest => (seq.2 c).map fun key => (key, rest)
  else none

/-- `bytesToKey` from line 179 on, for bytes that begin with the escape key. -/
def escapeToKey (b : GoString) (pasteActive : Bool) : ℕ × GoString :=
  match (escapes pasteActive).findSome? (seqKey b) with
  | some res => res
  | none =>
    match b.findIdx? isFinal with
    | some i => (keyUnknown, b.drop (i + 1))
    | none => (runeError, b)

/-- `bytesToKey` (lines 145–224): the key and the bytes behind it, or `utf8.RuneError`. -/
def bytesToKey (b : GoString) (pasteActive : Bool) : ℕ × GoString :=
  match b with
  | [] => (runeError, [])
  | a :: rest =>
    match if pasteActive then none else controlKey a with
    | some key => (key, rest)
    | none =>
      if a ≠ keyEscape then
        if !fullRune (a :: rest) then (runeError, a :: rest)
        else ((decodeRune (a :: rest)).1, (a :: rest).drop (decodeRune (a :: rest)).2)
      else escapeToKey (a :: rest) pasteActive

theorem seqKey_suffix {b rest : GoString} {seq : GoString × (UInt8 → Option ℕ)} {key : ℕ}
    (h : seqKey b seq = some (key, rest)) : ∃ seg, seg ≠ [] ∧ b = seg ++ rest := by
  unfold seqKey at h
  split_ifs at h with hpre
  obtain ⟨tail, rfl⟩ := hpre
  rw [List.drop_left] at h
  cases tail with
  | nil => cases h
  | cons c tail =>
    obtain ⟨key', -, heq⟩ := Option.map_eq_some_iff.mp h
    cases heq
    exact ⟨seq.1 ++ [c], by simp, by simp⟩

/-- A key takes at least one byte, from the beginning. -/
theorem bytesToKey_suffix {b rest : GoString} {pasteActive : Bool} {key : ℕ}
    (h : bytesToKey b pasteActive = (key, rest)) (hkey : key ≠ runeError) :
    ∃ seg, seg ≠ [] ∧ b = seg ++ rest := by
  cases b with
  | nil =>
    cases h
    exact absurd rfl hkey
  | cons a b =>
    rw [bytesToKey] at h
    split at h
    · cases h
      exact ⟨[a], by simp, rfl⟩
    · split_ifs at h with hesc hfull
      · cases h
        exact absurd rfl hkey
      · cases h
        refine ⟨(a :: b).take (decodeRune (a :: b)).2, ?_, (List.take_append_drop _ _).symm⟩
        have hpos : 0 < (decodeRune (a :: b)).2 := by
          rw [decodeRune]
          split <;> exact Nat.zero_lt_succ _
        obtain ⟨n, hn⟩ := Nat.exists_eq_succ_of_ne_zero (Nat.ne_of_gt hpos)
        rw [hn, List.take_succ_cons]
        exact List.cons_ne_nil _ _
      · unfold escapeToKey at h
        split at h
        · rename_i res hres
          subst h
          obtain ⟨seq, -, hseq⟩ := List.exists_of_findSome?_eq_some hres
          exact seqKey_suffix hseq
        · split at h
          · cases h
            exact ⟨_, by simp, (List.take_append_drop _ _).symm⟩
          · cases h
            exact absurd rfl hkey

/-- What is left stands at the end, also without a key: all of the bytes when the key is not
    complete, and less when they begin with a byte that begins no rune, or with U+FFFD. -/
theorem bytesToKey_rest (b : GoString) (pasteActive : Bool) :
    (bytesToKey b pasteActive).2 <:+ b := by
  by_cases hkey : (bytesToKey b pasteActive).1 = runeError
  · cases b with
    | nil => exact List.suffix_rfl
    | cons a b =>
      revert hkey
      rw [bytesToKey]
      split
      · exact fun _ => List.suffix_cons a b
      · split_ifs with hesc hfull
        · exact fun _ => List.suffix_rfl
        · exact fun _ => List.drop_suffix _ _
        · unfold escapeToKey
          split
          · rename_i res hres
            obtain ⟨seq, -, hseq⟩ := List.exists_of_findSome?_eq_some hres
            obtain ⟨seg, -, heq⟩ := seqKey_suffix hseq
            exact fun _ => ⟨seg, heq.symm⟩
          · split
            · exact fun _ => List.drop_suffix _ _
            · exact fun _ => List.suffix_rfl
  · obtain ⟨seg, -, heq⟩ := bytesToKey_suffix rfl hkey
    exact ⟨seg, heq.symm⟩

/-- The key at the beginning, if there is one. -/
def nextKey (b : GoString) (pasteActive : Bool) : Option (ℕ × GoString) :=
  let res := bytesToKey b pasteActive
  if res.1 = runeError then none else some res

theorem nextKey_suffix {b rest : GoString} {pasteActive : Bool} {key : ℕ}
    (h : nextKey b pasteActive = some (key, rest)) : ∃ seg, seg ≠ [] ∧ b = seg ++ rest := by
  unfold nextKey at h
  dsimp only at h
  split_ifs at h with hkey
  have hres := Option.some.inj h
  rw [hres] at hkey
  exact bytesToKey_suffix hres hkey

/-! ## The cases of `handleKey` -/

/-- The case of a paste, the cases of the `switch` in `handleKey`, and its default. -/
inductive KeyCase
  | pasted (key : ℕ)
  | backspace
  | altLeft
  | altRight
  | left
  | right
  | home
  | toEnd
  | up
  | down
  | ctrlC
  | enter
  | deleteWord
  | deleteLine
  | ctrlD
  | ctrlU
  | clearScreen
  | other (key : ℕ)
  deriving DecidableEq

/-- The key that leads to the case. -/
def KeyCase.key : KeyCase → ℕ
  | pasted key | other key => key
  | backspace => keyBackspace
  | altLeft => keyAltLeft
  | altRight => keyAltRight
  | left => keyLeft
  | right => keyRight
  | home => keyHome
  | toEnd => keyEnd
  | up => keyUp
  | down => keyDown
  | ctrlC => keyCtrlC
  | enter => keyEnter
  | deleteWord => keyDeleteWord
  | deleteLine => keyDeleteLine
  | ctrlD => keyCtrlD
  | ctrlU => keyCtrlU
  | clearScreen => keyClearScreen

/-- The cases with a label of their own. -/
def switchCases : List KeyCase :=
  [.backspace, .altLeft, .altRight, .left, .right, .home, .toEnd, .up, .down, .ctrlC, .enter,
    .deleteWord, .deleteLine, .ctrlD, .ctrlU, .clearScreen]

/-- The `switch` (lines 454–588). -/
def switchCase (key : ℕ) : KeyCase := (switchCases.find? (·.key = key)).getD (.other key)

/-- In a paste every key but Enter is inserted (lines 449–452). -/
def keyCase (pasteActive : Bool) (key : ℕ) : KeyCase :=
  if pasteActive ∧ key ≠ keyEnter then .pasted key else switchCase key

theorem keyCase_of_pasted {pasteActive : Bool} {key : ℕ} (h : pasteActive = true ∧ key ≠ keyEnter) :
    keyCase pasteActive key = .pasted key :=
  if_pos h

theorem keyCase_of_typed {pasteActive : Bool} (h : pasteActive = false) (key : ℕ) :
    keyCase pasteActive key = switchCase key := by
  rw [h]
  exact if_neg fun hpaste => Bool.false_ne_true hpaste.1

theorem switchCase_key (key : ℕ) : (switchCase key).key = key := by
  unfold switchCase
  cases hfind : switchCases.find? (·.key = key) with
  | none => rfl
  | some c =>
    have hkey := List.find?_some hfind
    exact of_decide_eq_true hkey

theorem key_of_keyCase {pasteActive : Bool} {key : ℕ} {c : KeyCase}
    (h : keyCase pasteActive key = c) : key = c.key := by
  rw [← h]
  unfold keyCase
  split_ifs
  · rfl
  · exact (switchCase_key key).symm

/-- No case of the `switch` is that of a paste. -/
theorem switchCase_ne_pasted (key key' : ℕ) : switchCase key ≠ .pasted key' := by
  unfold switchCase
  cases hfind : switchCases.find? (·.key = key) with
  | none => exact nofun
  | some c =>
    rintro rfl
    have hmem := List.mem_of_find?_eq_some hfind
    simp [switchCases] at hmem

theorem pasted_of_keyCase {pasteActive : Bool} {key key' : ℕ}
    (h : keyCase pasteActive key = .pasted key') : pasteActive = true ∧ key ≠ keyEnter := by
  by_contra hnot
  rw [keyCase, if_neg hnot] at h
  exact switchCase_ne_pasted key key' h

/-- Apart from Enter, the cases of the `switch` are not taken in a paste. -/
theorem typed_of_keyCase {pasteActive : Bool} {key : ℕ} {c : KeyCase}
    (h : keyCase pasteActive key = c) (hc : c ≠ .pasted key) (henter : c.key ≠ keyEnter) :
    pasteActive = false := by
  rw [← key_of_keyCase h] at henter
  by_contra hactive
  rw [Bool.not_eq_false] at hactive
  exact hc (h.symm.trans (keyCase_of_pasted ⟨hactive, henter⟩))

/-! ## The history -/

/-- `stRingBuffer` (lines 984–1021): `max` is the length of `entries`, which is nil before
    the first `Add`. -/
structure StRingBuffer where
  entries : List GoString
  head : ℕ
  size : ℕ
  size_le : size ≤ entries.length
  head_lt : entries ≠ [] → head < entries.length

/-- Without entries. -/
def StRingBuffer.new : StRingBuffer := ⟨[], 0, 0, le_rfl, fun h => absurd rfl h⟩

/-- `entries` with its place made at the first `Add`. -/
def StRingBuffer.allocated (s : StRingBuffer) : List GoString :=
  if s.entries = [] then List.replicate 100 [] else s.entries

theorem StRingBuffer.length_allocated_pos (s : StRingBuffer) : 0 < s.allocated.length := by
  unfold StRingBuffer.allocated
  split_ifs with h
  · rw [List.length_replicate]
    omega
  · exact List.length_pos_of_ne_nil h

theorem StRingBuffer.size_le_allocated (s : StRingBuffer) : s.size ≤ s.allocated.length := by
  have hle := s.size_le
  unfold StRingBuffer.allocated
  split_ifs with h
  · rw [h] at hle
    exact hle.trans (Nat.zero_le _)
  · exact hle

/-- `Add`. -/
def StRingBuffer.add (s : StRingBuffer) (a : GoString) : StRingBuffer where
  entries := s.allocated.set ((s.head + 1) % s.allocated.length) a
  head := (s.head + 1) % s.allocated.length
  size := if s.size < s.allocated.length then s.size + 1 else s.size
  size_le := by
    have := s.size_le_allocated
    rw [List.length_set]
    split_ifs <;> omega
  head_lt _ := by
    rw [List.length_set]
    exact Nat.mod_lt _ s.length_allocated_pos

/-- `NthPreviousEntry`. -/
def StRingBuffer.nthPreviousEntry (s : StRingBuffer) (n : ℕ) : Option GoString :=
  if s.size ≤ n then none
  else s.entries[if n ≤ s.head then s.head - n else s.head + s.entries.length - n]?

/-- The index is in range for the entries that there are. -/
theorem StRingBuffer.isSome_nthPreviousEntry (s : StRingBuffer) (n : ℕ) :
    (s.nthPreviousEntry n).isSome = true ↔ n < s.size := by
  unfold StRingBuffer.nthPreviousEntry
  have hsize := s.size_le
  by_cases h : s.size ≤ n
  · rw [if_pos h]
    simp only [Option.isSome_none, Bool.false_eq_true, false_iff]
    omega
  · have hlt := s.head_lt (List.ne_nil_of_length_pos (by omega))
    rw [if_neg h, isSome_getElem?]
    exact iff_of_true (by split_ifs <;> omega) (by omega)

/-! ## Editing -/

/-- The part of `Terminal` that the keys change. -/
structure Editor where
  line : List ℕ
  pos : ℕ
  echo : Bool
  pasteActive : Bool
  history : StRingBuffer
  historyIndex : ℤ
  historyPending : GoString
  pos_le : pos ≤ line.length
  index_ge : -1 ≤ historyIndex

/-- `NewTerminal` (lines 102–112). -/
def Editor.new : Editor :=
  ⟨[], 0, true, false, StRingBuffer.new, -1, [], le_rfl, le_rfl⟩

namespace Editor

/-- `setLine` (lines 322–333). -/
def setLine (ed : Editor) (newLine : List ℕ) (newPos : ℕ) (h : newPos ≤ newLine.length) : Editor :=
  { ed with line := newLine, pos := newPos, pos_le := h }

/-- The cursor at another place of the line. -/
def moveTo (ed : Editor) (pos : ℕ) (h : pos ≤ ed.line.length) : Editor :=
  { ed with pos := pos, pos_le := h }

/-- `eraseNPreviousChars` (lines 358–379). -/
def eraseNPreviousChars (ed : Editor) (n : ℕ) : Editor :=
  let pos := ed.pos - n
  ed.setLine (ed.line.take pos ++ ed.line.drop ed.pos) pos (by
    have := ed.pos_le
    rw [List.length_append, List.length_take]
    omega)

/-- The first loop of `countToLeftWord`. -/
def leftOfSpaces (runes : List ℕ) : ℕ → ℕ
  | 0 => 0
  | pos + 1 => if runes[pos + 1]? = some 32 then leftOfSpaces runes pos else pos + 1

/-- Its second loop. -/
def leftOfWord (runes : List ℕ) : ℕ → ℕ
  | 0 => 0
  | pos + 1 => if runes[pos + 1]? = some 32 then pos + 2 else leftOfWord runes pos

/-- `countToLeftWord` (lines 383–404). -/
def countToLeftWord (ed : Editor) : ℕ :=
  if ed.pos = 0 then 0 else ed.pos - leftOfWord ed.line (leftOfSpaces ed.line (ed.pos - 1))

/-- `countToRightWord` (lines 408–423): the rest of the word, and the spaces behind it. -/
def countToRightWord (ed : Editor) : ℕ :=
  let word := (ed.line.drop ed.pos).takeWhile (· ≠ 32)
  word.length + ((ed.line.drop (ed.pos + word.length)).takeWhile (· = 32)).length

theorem pos_add_countToRightWord_le (ed : Editor) :
    ed.pos + ed.countToRightWord ≤ ed.line.length := by
  have hpos := ed.pos_le
  have hword := (List.takeWhile_prefix (l := ed.line.drop ed.pos) (· ≠ 32)).length_le
  have hspaces := (List.takeWhile_prefix (l := ed.line.drop
    (ed.pos + ((ed.line.drop ed.pos).takeWhile (· ≠ 32)).length)) (· = 32)).length_le
  rw [List.length_drop] at hword hspaces
  unfold countToRightWord
  dsimp only
  omega

/-- `addKeyToLine` (lines 594–608). -/
def addKeyToLine (ed : Editor) (key : ℕ) : Editor :=
  ed.setLine (ed.line.take ed.pos ++ key :: ed.line.drop ed.pos) (ed.pos + 1) (by
    have := ed.pos_le
    rw [List.length_append, List.length_take, List.length_cons]
    omega)

/-- The line of the history, with the cursor at its end. -/
def setEntry (ed : Editor) (entry : GoString) : Editor :=
  ed.setLine (runes entry) (runes entry).length le_rfl

/-- `keyUp` in `handleKey` (lines 492–502). -/
def historyUp (ed : Editor) : Editor :=
  match ed.history.nthPreviousEntry (ed.historyIndex + 1).toNat with
  | none => ed
  | some entry =>
    { ed.setEntry entry with
      historyPending := if ed.historyIndex = -1 then ofRunes ed.line else ed.historyPending
      historyIndex := ed.historyIndex + 1
      index_ge := by have := ed.index_ge; omega }

/-- `keyDown` (lines 503–518). -/
def historyDown (ed : Editor) : Editor :=
  if h : ed.historyIndex = -1 then ed
  else if ed.historyIndex = 0 then
    { ed.setEntry ed.historyPending with historyIndex := -1, index_ge := le_rfl }
  else
    match ed.history.nthPreviousEntry (ed.historyIndex - 1).toNat with
    | none => ed
    | some entry =>
      { ed.setEntry entry with
        historyIndex := ed.historyIndex - 1
        index_ge := by have := ed.index_ge; omega }

def isPrintable (key : ℕ) : Bool := decide (32 ≤ key ∧ ¬ (0xD800 ≤ key ∧ key ≤ 0xDBFF))

theorem ne_of_isPrintable {key k : ℕ} (h : isPrintable key = true) (hk : isPrintable k = false) :
    key ≠ k := by
  rintro rfl
  rw [h] at hk
  cases hk

/-- Of the keys of the `switch` only Backspace is printable. -/
theorem switchCase_of_isPrintable {key : ℕ} (h : isPrintable key = true)
    (hne : key ≠ keyBackspace) : switchCase key = .other key := by
  have hkey := switchCase_key key
  cases hc : switchCase key with
  | other key' =>
    rw [hc] at hkey
    exact congrArg KeyCase.other hkey
  | pasted key' => exact absurd hc (switchCase_ne_pasted key key')
  | backspace =>
    rw [hc] at hkey
    exact absurd hkey.symm hne
  | altLeft | altRight | left | right | home | toEnd | up | down | ctrlC | enter | deleteWord |
    deleteLine | ctrlD | ctrlU | clearScreen =>
    rw [hc] at hkey
    exact absurd hkey.symm (ne_of_isPrintable h (by decide))

def maxLineLength : ℕ := 4096

/-- What `handleKey` does in each case, without a completion callback; the line when there is
    one. -/
def handleCase (ed : Editor) : KeyCase → Editor × Option GoString
  | .pasted key => (ed.addKeyToLine key, none)
  | .backspace => (if ed.pos = 0 then ed else ed.eraseNPreviousChars 1, none)
  | .altLeft => (ed.moveTo (ed.pos - ed.countToLeftWord) (by have := ed.pos_le; omega), none)
  | .altRight => (ed.moveTo (ed.pos + ed.countToRightWord) ed.pos_add_countToRightWord_le, none)
  | .left => (ed.moveTo (ed.pos - 1) (by have := ed.pos_le; omega), none)
  | .right => (if h : ed.pos < ed.line.length then ed.moveTo (ed.pos + 1) h else ed, none)
  | .home => (ed.moveTo 0 (Nat.zero_le _), none)
  | .toEnd => (ed.moveTo ed.line.length le_rfl, none)
  | .up => (ed.historyUp, none)
  | .down => (ed.historyDown, none)
  | .ctrlC => (ed.setLine [] 0 le_rfl, some [])
  | .enter => (ed.setLine [] 0 le_rfl, some (ofRunes ed.line))
  | .deleteWord => (ed.eraseNPreviousChars ed.countToLeftWord, none)
  | .deleteLine =>
    (ed.setLine (ed.line.take ed.pos) ed.pos (by
      have := ed.pos_le
      rw [List.length_take]
      omega), none)
  | .ctrlD =>
    (if h : ed.pos < ed.line.length then (ed.moveTo (ed.pos + 1) h).eraseNPreviousChars 1 else ed,
      none)
  | .ctrlU => (ed.eraseNPreviousChars ed.pos, none)
  | .clearScreen => (ed, none)
  | .other key =>
    if !isPrintable key then (ed, none)
    else if ed.line.length = maxLineLength then (ed, none)
    else (ed.addKeyToLine key, none)

/-- `handleKey` (lines 448–590) without a completion callback; the line when there is one. -/
def handleKey (ed : Editor) (key : ℕ) : Editor × Option GoString :=
  ed.handleCase (keyCase ed.pasteActive key)

theorem handleKey_of_typed {ed : Editor} (h : ed.pasteActive = false) (key : ℕ) :
    ed.handleKey key = ed.handleCase (switchCase key) := by
  rw [handleKey, keyCase_of_typed h]

/-- What is done with a line that has been read (lines 843–846). -/
def addToHistory (ed : Editor) (line : GoString) : Editor :=
  if ed.echo then { ed with historyIndex := -1, index_ge := le_rfl, history := ed.history.add line }
  else ed

end Editor

/-! ## Reading a line -/

/-- The errors of `ReadLine`: `io.EOF`, `ErrPasteIndicator`, and another one of `c.Read`. -/
inductive LineError
  | eof
  | pasteIndicator
  | read
  deriving DecidableEq

/-- How the loop over the keys is left. -/
inductive LineEnd
  | eof
  | line (line : GoString)

/-- The keys in the bytes that have arrived (lines 801–833): the state is the editor and
    `lineIsPasted`. -/
def keyMachine : Machine UInt8 ℕ (Editor × Bool) LineEnd where
  decode s b := nextKey b s.1.pasteActive
  skip s b := (bytesToKey b s.1.pasteActive).2
  handle s key :=
    let (ed, lineIsPasted) := s
    if ed.pasteActive = false ∧ key = keyCtrlD ∧ ed.line = [] then (s, some .eof)
    else if ed.pasteActive = false ∧ key = keyPasteStart then
      (({ ed with pasteActive := true }, lineIsPasted || ed.line.isEmpty), none)
    else if ed.pasteActive = true ∧ key = keyPasteEnd then
      (({ ed with pasteActive := false }, lineIsPasted), none)
    else
      let (ed', line) := ed.handleKey key
      ((ed', ed.pasteActive && lineIsPasted), line.map .line)
  decode_suffix := nextKey_suffix
  skip_suffix s b := bytesToKey_rest b s.1.pasteActive

/-- `Terminal`, with the connection `c` it reads from and the error that this ends with.
    `handled` are the keys that have been handled, with their bytes. -/
structure Terminal where
  editor : Editor
  buffer : Buffer UInt8 256
  source : Source UInt8
  readErr : LineError
  handled : List (ℕ × GoString)

/-- The array of `inBuf`. -/
theorem length_inBuf : (List.replicate 256 (0 : UInt8)).length = 256 := List.length_replicate

/-- What `readLine` returns when the loop is left, and the editor then (lines 811–817 and
    842–851); without a key that ends the loop it is the error of `c.Read` (lines 862–864). -/
def lineResult (readErr : LineError) (s : Editor × Bool) :
    Option LineEnd → Editor × GoString × Option LineError
  | some .eof => (s.1, [], some .eof)
  | some (.line line) =>
    (s.1.addToHistory line, line, if s.2 then some .pasteIndicator else none)
  | none => (s.1, [], some readErr)

/-- `inBuf` when the loop is left: after `io.EOF` with `remainder` where it is, after a line
    with the rest copied to the beginning. -/
def lineBuffer (buffer : Buffer UInt8 256) : Option LineEnd → Buffer UInt8 256
  | some (.line _) => buffer.compact
  | _ => buffer

/-- `ReadLine` (lines 716–721 and 790–868); `none` when it would read for ever. -/
def Terminal.readLine (t : Terminal) : Option (Terminal × GoString × Option LineError) := do
  let R ← keyMachine.readLoop (t.source.unread.length + 1) (t.editor, t.editor.pasteActive) t.buffer
    t.source
  let (editor, res) := lineResult t.readErr R.state R.result
  return (⟨editor, lineBuffer R.buffer R.result, R.source, t.readErr, t.handled ++ R.handled⟩, res)

/-- The results of the next calls of `ReadLine`. -/
def Terminal.readLines : ℕ → Terminal → Option (Terminal × List (GoString × Option LineError))
  | 0, t => some (t, [])
  | n + 1, t => do
    let (t, res) ← t.readLine
    let (t, results) ← t.readLines n
    return (t, res :: results)

/-- `ReadPassword` (lines 699–713). -/
def Terminal.readPassword (t : Terminal) : Option (Terminal × GoString × Option LineError) := do
  let (t, res) ← { t with editor := { t.editor with echo := false } : Terminal }.readLine
  return ({ t with editor := { t.editor with echo := true } }, res)

/-! ## Reading all lines -/

/-- The keys in the bytes that have arrived, in `ReadLines` (lines 738–765): the state is the
    editor and the lines up to now, and only `io.EOF` ends the loop. -/
def linesMachine : Machine UInt8 ℕ (Editor × List GoString) Unit where
  decode s b := nextKey b s.1.pasteActive
  skip s b := (bytesToKey b s.1.pasteActive).2
  handle s key :=
    let (ed, lines) := s
    if ed.pasteActive = false ∧ key = keyCtrlD ∧ ed.line = [] then (s, some ())
    else if ed.pasteActive = false ∧ key = keyPasteStart then
      (({ ed with pasteActive := true }, lines), none)
    else if ed.pasteActive = true ∧ key = keyPasteEnd then
      (({ ed with pasteActive := false }, lines), none)
    else
      let (ed', line) := ed.handleKey key
      ((ed', lines ++ line.toList), none)
  decode_suffix := nextKey_suffix
  skip_suffix s b := bytesToKey_rest b s.1.pasteActive

/-- `ReadLines` (lines 727–788); `none` when it would read for ever. After `io.EOF` the
    `remainder` is the one before the last keys, which come again in the next call. -/
def Terminal.readAllLines (t : Terminal) : Option (Terminal × List GoString × LineError) := do
  let R ← linesMachine.readLoop (t.source.unread.length + 1) (t.editor, []) t.buffer t.source
  let (buffer, err) := match R.result with
    | some () => (R.last, LineError.eof)
    | none => (R.buffer, t.readErr)
  return (⟨R.state.1, buffer, R.source, t.readErr, t.handled ++ R.handled⟩, R.state.2, err)

end GoJump.Common
