import GoJump.Common.Terminal
import GoJump.Lib.Ring

/-!
# The history of the lines

`stRingBuffer` (`pkg/common/terminal.go`, lines 984–1021) is a ring of 100 slots, made at the
first `Add`. The entries that it has are the last 100 lines, in the order in which one goes
back from the head, after any number of additions.

The up and down keys (lines 492–518) walk through them with `historyIndex`, which is −1 at
the line that is being edited; this line is kept in `historyPending`, as a string, so what
comes back is its text. A rune that no string has, such as the key of an unknown escape
sequence in a paste, comes back as U+FFFD.

* `remembers_entered`: what the ring holds after any lines.
* `Shows.up`, `Shows.down`: one key.
* `navigation_spec`: the entries that there are, and up and down any number of times.
-/

namespace GoJump.Common

open GoJump.Go GoJump.Lib

/-! ## The ring -/

/-- `NthPreviousEntry` (lines 1012–1021) for every `int`; without a value when the index is
    out of the range of `entries`. -/
def StRingBuffer.nthPreviousEntryInt (s : StRingBuffer) (n : ℤ) : Option (Option GoString) :=
  if s.size ≤ n then some none
  else
    let index := s.head - n
    let index := if index < 0 then index + s.entries.length else index
    if index < 0 then none else s.entries[index.toNat]?.map some

theorem StRingBuffer.nthPreviousEntryInt_natCast (s : StRingBuffer) (n : ℕ) :
    s.nthPreviousEntryInt n = some (s.nthPreviousEntry n) := by
  have hsome := s.isSome_nthPreviousEntry n
  have hsize := s.size_le
  unfold nthPreviousEntry at hsome
  unfold nthPreviousEntryInt nthPreviousEntry
  by_cases h : s.size ≤ n
  · rw [if_pos (Int.ofNat_le.mpr h), if_pos h]
  · rw [if_neg h] at hsome
    rw [if_neg (fun hle => h (Int.ofNat_le.mp hle)), if_neg h]
    have hindex :
        (if (s.head : ℤ) - n < 0 then (s.head : ℤ) - n + s.entries.length else (s.head : ℤ) - n) =
        (if n ≤ s.head then s.head - n else s.head + s.entries.length - n : ℕ) := by
      split_ifs <;> omega
    obtain ⟨a, ha⟩ := Option.isSome_iff_exists.mp (hsome.mpr (Nat.lt_of_not_le h))
    dsimp only
    rw [hindex, if_neg (by omega), Int.toNat_natCast, ha]
    rfl

/-- The ring holds the last 100 of these lines, the last one first. -/
structure Remembers (s : StRingBuffer) (recent : List GoString) : Prop where
  slots : s.allocated.length = 100
  head_lt : s.head < 100
  size_eq : s.size = min recent.length 100
  holds : RingHolds s.allocated s.head recent

theorem remembers_new : Remembers StRingBuffer.new [] where
  slots := List.length_replicate
  head_lt := by decide
  size_eq := rfl
  holds := ringHolds_nil _ _

/-- The place for the entries is made once. -/
theorem StRingBuffer.allocated_add (s : StRingBuffer) (a : GoString) :
    (s.add a).allocated = s.allocated.set ((s.head + 1) % s.allocated.length) a := by
  unfold StRingBuffer.allocated
  refine if_neg fun hnil => ?_
  have hlen := congrArg List.length hnil
  have hpos := s.length_allocated_pos
  rw [StRingBuffer.add, List.length_set] at hlen
  exact absurd hlen (Nat.ne_of_gt hpos)

theorem Remembers.add {s : StRingBuffer} {recent : List GoString} (h : Remembers s recent)
    (a : GoString) :
    Remembers (s.add a) (a :: recent) where
  slots := by
    rw [StRingBuffer.allocated_add, List.length_set]
    exact h.slots
  head_lt := by
    show (s.head + 1) % s.allocated.length < 100
    rw [h.slots]
    exact Nat.mod_lt _ (by decide)
  size_eq := by
    have hsize := h.size_eq
    show (if s.size < s.allocated.length then s.size + 1 else s.size) = _
    rw [h.slots, List.length_cons]
    split_ifs <;> omega
  holds := by
    rw [StRingBuffer.allocated_add]
    exact h.holds.write (h.slots.symm ▸ h.head_lt) a

/-- The history after these lines. -/
def entered (lines : List GoString) : StRingBuffer := lines.foldl StRingBuffer.add StRingBuffer.new

theorem Remembers.foldl {s : StRingBuffer} {recent : List GoString} (h : Remembers s recent)
    (lines : List GoString) :
    Remembers (lines.foldl StRingBuffer.add s) (lines.reverse ++ recent) := by
  induction lines generalizing s recent with
  | nil => exact h
  | cons a lines ih =>
    rw [List.reverse_cons, List.append_assoc]
    exact ih (h.add a)

theorem remembers_entered (lines : List GoString) : Remembers (entered lines) lines.reverse := by
  have h := remembers_new.foldl lines
  rwa [List.append_nil] at h

theorem Remembers.nthPreviousEntry {s : StRingBuffer} {recent : List GoString}
    (h : Remembers s recent) (n : ℕ) :
    s.nthPreviousEntry n = if n < min recent.length 100 then recent[n]? else none := by
  have hsize := h.size_eq
  unfold StRingBuffer.nthPreviousEntry
  by_cases hn : s.size ≤ n
  · rw [if_pos hn, if_neg (by omega)]
  · rw [if_neg hn, if_pos (show n < min recent.length 100 by omega)]
    have hentries : s.allocated = s.entries := by
      refine if_neg fun hnil => ?_
      have hle := s.size_le
      rw [hnil] at hle
      exact hn (hle.trans (Nat.zero_le n))
    have hlen := h.slots
    have hholds := h.holds n (by omega) (by omega)
    rw [hentries] at hholds
    exact hholds

/-- The number of the entries after these lines. -/
def entryCount (lines : List GoString) : ℕ := min lines.length 100

/-- This is the `n`-th of the lines, counted from the last one. -/
def NthRecent (lines : List GoString) (n : ℤ) (line : GoString) : Prop :=
  0 ≤ n ∧ lines.reverse[n.toNat]? = some line

theorem nthPreviousEntry_entered (lines : List GoString) (n : ℕ) :
    (entered lines).nthPreviousEntry n = if n < entryCount lines then lines.reverse[n]?
      else none := by
  rw [(remembers_entered lines).nthPreviousEntry n, List.length_reverse]
  rfl

theorem exists_recent {lines : List GoString} {n : ℕ} (h : n < entryCount lines) :
    ∃ line, lines.reverse[n]? = some line ∧ (entered lines).nthPreviousEntry n = some line := by
  have hlt : n < lines.reverse.length := by
    rw [List.length_reverse]
    exact lt_of_lt_of_le h (min_le_left _ _)
  refine ⟨lines.reverse[n], List.getElem?_eq_getElem hlt, ?_⟩
  rw [nthPreviousEntry_entered, if_pos h, List.getElem?_eq_getElem hlt]

theorem nthPreviousEntryInt_iff (lines : List GoString) (n : ℤ) :
    (∃ line, (entered lines).nthPreviousEntryInt n = some (some line) ∧ NthRecent lines n line) ↔
      0 ≤ n ∧ n < entryCount lines := by
  constructor
  · rintro ⟨line, hentry, hge, hline⟩
    obtain ⟨n, rfl⟩ := Int.eq_ofNat_of_zero_le hge
    rw [StRingBuffer.nthPreviousEntryInt_natCast, nthPreviousEntry_entered] at hentry
    refine ⟨hge, ?_⟩
    by_contra hlt
    rw [if_neg (fun h => hlt (Int.ofNat_lt.mpr h))] at hentry
    cases hentry
  · rintro ⟨hge, hlt⟩
    obtain ⟨n, rfl⟩ := Int.eq_ofNat_of_zero_le hge
    obtain ⟨line, hline, hentry⟩ := exists_recent (Int.ofNat_lt.mp hlt)
    refine ⟨line, ?_, hge, hline⟩
    rw [StRingBuffer.nthPreviousEntryInt_natCast, hentry]

theorem nthPreviousEntryInt_of_le {lines : List GoString} {n : ℤ} (h : entryCount lines ≤ n) :
    (entered lines).nthPreviousEntryInt n = some none := by
  have hsize := (remembers_entered lines).size_eq
  rw [List.length_reverse] at hsize
  unfold entryCount at h
  exact if_pos (by omega)

/-! ## The keys -/

theorem seqKey_tilde {b pre : GoString} {key : ℕ} {res : ℕ × GoString}
    (h : seqKey b (pre, tildeKey key) = some res) : res.1 = key := by
  unfold seqKey at h
  split_ifs at h
  split at h
  · cases h
  · obtain ⟨key', hkey', rfl⟩ := Option.map_eq_some_iff.mp h
    dsimp only [tildeKey] at hkey'
    split_ifs at hkey'
    exact (Option.some.inj hkey').symm

/-- The keys of a paste: its end, an escape sequence that is not known, and code points. -/
theorem bytesToKey_paste (b : GoString) : (bytesToKey b true).1 = keyPasteEnd ∨
    (bytesToKey b true).1 = keyUnknown ∨ (bytesToKey b true).1 < 0xD800 ∨
      0xDFFF < (bytesToKey b true).1 := by
  have herror : runeError < 0xD800 ∨ 0xDFFF < runeError := Or.inr (by decide)
  cases b with
  | nil => exact Or.inr (Or.inr herror)
  | cons a b =>
    rw [bytesToKey, if_pos rfl]
    dsimp only
    split_ifs with hesc hfull
    · exact Or.inr (Or.inr herror)
    · exact Or.inr (Or.inr (decodeRune_not_surrogate (a :: b)))
    · unfold escapeToKey
      split
      · rename_i res hres
        obtain ⟨seq, hseq, hkey⟩ := List.exists_of_findSome?_eq_some hres
        obtain rfl := List.mem_singleton.mp hseq
        exact Or.inl (seqKey_tilde hkey)
      · split
        · exact Or.inr (Or.inl rfl)
        · exact Or.inr (Or.inr herror)

/-- In a paste the bytes of the up and down keys are not these keys. -/
theorem nextKey_paste {b rest : GoString} {key : ℕ} (h : nextKey b true = some (key, rest)) :
    key ≠ keyUp ∧ key ≠ keyDown := by
  have hcases := bytesToKey_paste b
  unfold nextKey at h
  dsimp only at h
  split_ifs at h
  rw [Option.some.inj h] at hcases
  unfold keyPasteEnd keyUnknown at hcases
  unfold keyUp keyDown
  constructor <;> omega

/-- What a key does to the editor. -/
def Editor.press (key : ℕ) (ed : Editor) : Editor := (ed.handleKey key).1

section Navigation

variable {lines : List GoString} {start : List ℕ} {ed : Editor} {j : ℕ}

theorem press_up (h : ed.pasteActive = false) : ed.press keyUp = ed.historyUp := by
  unfold Editor.press
  rw [Editor.handleKey_of_typed h]
  rfl

theorem press_down (h : ed.pasteActive = false) : ed.press keyDown = ed.historyDown := by
  unfold Editor.press
  rw [Editor.handleKey_of_typed h]
  rfl

/-- The editor is `j` entries back from this line. -/
structure Shows (lines : List GoString) (start : List ℕ) (j : ℕ) (ed : Editor) : Prop where
  history_eq : ed.history = entered lines
  typed : ed.pasteActive = false
  index_eq : ed.historyIndex = j - 1
  text_eq : j = 0 → ofRunes ed.line = ofRunes start
  pending_eq : 0 < j → ed.historyPending = ofRunes start
  line_eq : ∀ i line, j = i + 1 → lines.reverse[i]? = some line → ed.line = runes line

theorem Shows.up (h : Shows lines start j ed) (hj : j < entryCount lines) :
    Shows lines start (j + 1) (ed.press keyUp) := by
  obtain ⟨line, hline, hentry⟩ := exists_recent hj
  have hindex : (ed.historyIndex + 1).toNat = j := by
    rw [h.index_eq]
    omega
  rw [press_up h.typed, Editor.historyUp, h.history_eq, hindex, hentry]
  exact {
    history_eq := h.history_eq
    typed := h.typed
    index_eq := by
      show ed.historyIndex + 1 = _
      rw [h.index_eq]
      omega
    text_eq := fun h0 => by cases h0
    pending_eq := fun _ => by
      show (if ed.historyIndex = -1 then ofRunes ed.line else ed.historyPending) = ofRunes start
      have hindex := h.index_eq
      split_ifs with hc
      · exact h.text_eq (by omega)
      · exact h.pending_eq (by omega)
    line_eq := fun i line' hi hline' => by
      obtain rfl := Nat.succ.inj hi
      cases hline.symm.trans hline'
      rfl }

theorem Shows.up_oldest (h : Shows lines start j ed) (hj : entryCount lines ≤ j) :
    ed.press keyUp = ed := by
  have hindex : (ed.historyIndex + 1).toNat = j := by
    rw [h.index_eq]
    omega
  rw [press_up h.typed, Editor.historyUp, h.history_eq, hindex, nthPreviousEntry_entered,
    if_neg (Nat.not_lt_of_le hj)]

theorem Shows.down (h : Shows lines start (j + 1) ed) (hj : j < entryCount lines) :
    Shows lines start j (ed.press keyDown) := by
  have hindex := h.index_eq
  rw [press_down h.typed, Editor.historyDown, dif_neg (by omega)]
  cases j with
  | zero =>
    rw [if_pos (by omega)]
    exact {
      history_eq := h.history_eq
      typed := h.typed
      index_eq := rfl
      text_eq := fun _ => by
        show ofRunes (runes ed.historyPending) = ofRunes start
        rw [h.pending_eq Nat.zero_lt_one]
        exact ofRunes_runes_eq_iff.mpr (utf8Valid_ofRunes start)
      pending_eq := fun h0 => absurd h0 (Nat.lt_irrefl 0)
      line_eq := fun i line hi => by cases hi }
  | succ j =>
    obtain ⟨line, hline, hentry⟩ := exists_recent (Nat.lt_of_succ_lt hj)
    have hprev : (ed.historyIndex - 1).toNat = j := by omega
    rw [if_neg (by omega), h.history_eq, hprev, hentry]
    exact {
      history_eq := h.history_eq
      typed := h.typed
      index_eq := by
        show ed.historyIndex - 1 = _
        omega
      text_eq := fun h0 => by cases h0
      pending_eq := fun _ => h.pending_eq (Nat.zero_lt_succ _)
      line_eq := fun i line' hi hline' => by
        obtain rfl := Nat.succ.inj hi
        cases hline.symm.trans hline'
        rfl }

theorem Shows.down_pending (h : Shows lines start 0 ed) : ed.press keyDown = ed := by
  have hindex : ed.historyIndex = -1 := h.index_eq
  rw [press_down h.typed, Editor.historyDown, dif_pos hindex]

theorem Shows.ups (h : Shows lines start 0 ed) (k : ℕ) :
    Shows lines start (min k (entryCount lines)) ((Editor.press keyUp)^[k] ed) := by
  induction k with
  | zero =>
    rw [Nat.zero_min]
    exact h
  | succ k ih =>
    rw [Function.iterate_succ_apply']
    rcases Nat.lt_or_ge k (entryCount lines) with hlt | hge
    · rw [min_eq_left hlt.le] at ih
      rw [min_eq_left hlt]
      exact ih.up hlt
    · rw [min_eq_right hge] at ih
      rw [min_eq_right (by omega), ih.up_oldest le_rfl]
      exact ih

theorem Shows.downs (h : Shows lines start j ed) (hj : j ≤ entryCount lines) (k : ℕ) :
    Shows lines start (j - k) ((Editor.press keyDown)^[k] ed) := by
  induction k with
  | zero => exact h
  | succ k ih =>
    rw [Function.iterate_succ_apply']
    cases hjk : j - k with
    | zero =>
      rw [hjk] at ih
      rw [ih.down_pending, show j - (k + 1) = 0 by omega]
      exact ih
    | succ i =>
      rw [hjk] at ih
      rw [show j - (k + 1) = i by omega]
      exact ih.down (by omega)

/-- The up and down keys at this line: each up shows the next older entry and beyond the oldest
    one does nothing, and as many times down as up lead back to the text of the line. -/
structure Navigates (lines : List GoString) (ed : Editor) : Prop where
  older : ∀ i : ℕ, i < entryCount lines → ((Editor.press keyUp)^[i + 1] ed).historyIndex = i ∧
    ∃ line, NthRecent lines i line ∧ ((Editor.press keyUp)^[i + 1] ed).line = runes line
  oldest : ∀ i, entryCount lines ≤ i → (Editor.press keyUp)^[i + 1] ed = (Editor.press keyUp)^[i] ed
  back : ∀ k, ofRunes ((Editor.press keyDown)^[k] ((Editor.press keyUp)^[k] ed)).line =
    ofRunes ed.line ∧ ((Editor.press keyDown)^[k] ((Editor.press keyUp)^[k] ed)).historyIndex = -1

theorem Shows.navigates (h : Shows lines ed.line 0 ed) : Navigates lines ed where
  older i hi := by
    have hshows := h.ups (i + 1)
    rw [min_eq_left hi] at hshows
    obtain ⟨line, hline, -⟩ := exists_recent hi
    refine ⟨?_, line, ⟨Int.natCast_nonneg i, hline⟩, hshows.line_eq i line rfl hline⟩
    rw [hshows.index_eq]
    omega
  oldest i hi := by
    have hshows := h.ups i
    rw [min_eq_right hi] at hshows
    rw [Function.iterate_succ_apply', hshows.up_oldest le_rfl]
  back k := by
    have hshows := (h.ups k).downs (min_le_right _ _) k
    rw [Nat.sub_eq_zero_of_le (min_le_left _ _)] at hshows
    exact ⟨hshows.text_eq rfl, hshows.index_eq⟩

end Navigation

/-- `NthPreviousEntry(n)` is the `n`-th of the lines from the last one exactly for the entries
    that there are, and there is none beyond them. Up and down walk through them at every line
    that is not an entry itself; within a paste these keys do not exist. -/
theorem navigation_spec (lines : List GoString) :
    (∀ n : ℤ,
      (∃ line, (entered lines).nthPreviousEntryInt n = some (some line) ∧ NthRecent lines n line) ↔
      0 ≤ n ∧ n < entryCount lines) ∧
    (∀ n : ℤ, entryCount lines ≤ n → (entered lines).nthPreviousEntryInt n = some none) ∧
    (∀ b key rest, nextKey b true = some (key, rest) → key ≠ keyUp ∧ key ≠ keyDown) ∧
    ∀ ed : Editor, ed.history = entered lines → ed.historyIndex = -1 → ed.pasteActive = false →
      Navigates lines ed := by
  refine ⟨nthPreviousEntryInt_iff lines, fun _ => nthPreviousEntryInt_of_le,
    fun _ _ _ => nextKey_paste, ?_⟩
  intro ed hhistory hindex hpaste
  have hshows : Shows lines ed.line 0 ed := {
    history_eq := hhistory
    typed := hpaste
    index_eq := hindex
    text_eq := fun _ => rfl
    pending_eq := fun h0 => absurd h0 (Nat.lt_irrefl 0)
    line_eq := fun _ _ h0 => by cases h0 }
  exact hshows.navigates

/-- A character typed after two lines. -/
def typedAfterTwo : Editor :=
  ((Editor.new.addToHistory (str "ls")).addToHistory (str "pwd")).press 97

theorem navigation_typedAfterTwo : entryCount [str "ls", str "pwd"] = 2 ∧
    Navigates [str "ls", str "pwd"] typedAfterTwo :=
  ⟨rfl, (navigation_spec [str "ls", str "pwd"]).2.2.2 typedAfterTwo rfl rfl rfl⟩

end GoJump.Common
