import GoJump.Common.Terminal

/-!
# Reading lines from packets

`readLine` decodes the keys in the bytes that have arrived. A rune or an escape sequence
may be cut between two reads; it then waits in `remainder` until the rest of it is there.
On a stream that is valid UTF-8 without U+FFFD and in which every escape sequence ends
within the 256 bytes of `inBuf` (`Typed`), the keys are decoded from the bytes that have
arrived as from the whole stream.

* `keyMachine_decodes`: a key is decoded as soon as it is complete and not before, whatever
  follows it.
* `readLines_independent`: the results of successive calls of `ReadLine`, the keys that are
  handled and the bytes that are left are the same for every way in which the stream is
  cut, and no byte is lost or handled twice.
-/

namespace GoJump.Common

open GoJump.Go GoJump.Lib

/-! ## Streams -/

/-- Valid UTF-8 without U+FFFD, and among the 255 bytes behind every ESC there is an ASCII
    letter or a tilde. -/
structure Typed (stream : GoString) : Prop where
  valid : utf8Valid stream = true
  no_replacement : ¬ replacement <:+: stream
  escape_ends : ∀ tail, keyEscape :: tail <:+ stream → (tail.take 255).any isFinal = true

instance (stream : GoString) : Decidable (Typed stream) :=
  decidable_of_iff (utf8Valid stream = true ∧ ¬ replacement <:+: stream ∧
    ∀ t ∈ stream.tails, t.head? = some keyEscape → (t.tail.take 255).any isFinal = true)
    ⟨fun h => ⟨h.1, h.2.1, fun tail htail =>
        h.2.2 (keyEscape :: tail) ((List.mem_tails _ _).mpr htail) rfl⟩,
      fun h => ⟨h.valid, h.no_replacement, fun t ht hhead => by
        obtain ⟨tail, rfl⟩ := List.head?_eq_some_iff.mp hhead
        exact h.escape_ends tail ((List.mem_tails _ _).mp ht)⟩⟩

/-- What follows a key is such a stream if it is valid. -/
theorem Typed.of_append {s t : GoString} (h : Typed (s ++ t)) (hvalid : utf8Valid t = true) :
    Typed t where
  valid := hvalid
  no_replacement hin := h.no_replacement (hin.trans (List.suffix_append s t).isInfix)
  escape_ends tail htail := h.escape_ends tail (htail.trans (List.suffix_append s t))

/-! ## Escape sequences -/

theorem isFinal_lt {b : UInt8} (h : isFinal b = true) : b.toNat < 0x80 := by
  simp only [isFinal, inRange, Bool.or_eq_true, decide_eq_true_eq] at h
  rcases h with (h | h) | h
  · omega
  · omega
  · rw [h]
    decide

/-- The recognised sequences have one final byte, their last; and their keys are no runes. -/
theorem escapes_spec {pasteActive : Bool} {seq : GoString × (UInt8 → Option ℕ)}
    (h : seq ∈ escapes pasteActive) :
    (∀ b ∈ seq.1, isFinal b = false) ∧
      ∀ b key, seq.2 b = some key → isFinal b = true ∧ key ≠ runeError := by
  have hall : ∀ l : GoString, l.all (fun b => !isFinal b) = true → ∀ b ∈ l, isFinal b = false :=
    fun l hl b hb => by simpa using List.all_eq_true.mp hl b hb
  have harrow : ∀ b key, arrowKey b = some key → isFinal b = true ∧ key ≠ runeError := by
    intro b key hkey
    unfold arrowKey at hkey
    split_ifs at hkey with h1 h2 h3 h4 h5 h6 <;> cases hkey <;> subst b <;> decide
  have halt : ∀ b key, altKey b = some key → isFinal b = true ∧ key ≠ runeError := by
    intro b key hkey
    unfold altKey at hkey
    split_ifs at hkey with h1 h2 <;> cases hkey <;> subst b <;> decide
  have htilde : ∀ paste, paste ≠ runeError → ∀ b key, tildeKey paste b = some key →
      isFinal b = true ∧ key ≠ runeError := by
    intro paste hpaste b key hkey
    unfold tildeKey at hkey
    split_ifs at hkey with h1
    cases hkey
    subst b
    exact ⟨by decide, hpaste⟩
  cases pasteActive with
  | true =>
    obtain rfl := List.mem_singleton.mp h
    exact ⟨hall _ (by decide), htilde _ (by decide)⟩
  | false =>
    simp only [escapes, Bool.false_eq_true, if_false, List.mem_cons, List.not_mem_nil,
      or_false] at h
    rcases h with rfl | rfl | rfl
    · exact ⟨hall _ (by decide), harrow⟩
    · exact ⟨hall _ (by decide), halt⟩
    · exact ⟨hall _ (by decide), htilde _ (by decide)⟩

section Sequences

variable {pasteActive : Bool} {seq : GoString × (UInt8 → Option ℕ)} {pre : GoString}

theorem table_of_not_final (hseq : seq ∈ escapes pasteActive) {c : UInt8}
    (hc : isFinal c = false) : seq.2 c = none := by
  cases hkey : seq.2 c with
  | none => rfl
  | some key =>
    have hfinal := ((escapes_spec hseq).2 c key hkey).1
    rw [hc] at hfinal
    cases hfinal

/-- Without a final byte no sequence is recognised. -/
theorem seqKey_of_no_final (hseq : seq ∈ escapes pasteActive)
    (hpre : ∀ b ∈ pre, isFinal b = false) :
    seqKey pre seq = none := by
  unfold seqKey
  split_ifs with h
  · obtain ⟨tail, rfl⟩ := h
    rw [List.drop_left]
    cases tail with
    | nil => rfl
    | cons c tail =>
      show (seq.2 c).map _ = none
      rw [table_of_not_final hseq (hpre c (by simp)), Option.map_none]
  · rfl

/-- With one, the bytes up to it decide. -/
theorem seqKey_append (hseq : seq ∈ escapes pasteActive) (hpre : ∀ b ∈ pre, isFinal b = false)
    {f : UInt8} (hf : isFinal f = true) (more : GoString) :
    seqKey (pre ++ f :: more) seq =
      if seq.1 = pre then (seq.2 f).map fun key => (key, more) else none := by
  by_cases heq : seq.1 = pre
  · rw [if_pos heq, seqKey, heq, if_pos (List.prefix_append _ _), List.drop_left]
  · rw [if_neg heq, seqKey]
    split_ifs with h
    · rcases Nat.lt_or_ge pre.length seq.1.length with hlt | hle
      · -- the final byte would be one of what the sequence begins with
        have hcut : pre ++ [f] <+: pre ++ f :: more := ⟨more, by simp⟩
        have hin : pre ++ [f] <+: seq.1 := by
          apply List.prefix_of_prefix_length_le hcut h
          rw [List.length_append]
          exact hlt
        have hmem := hin.subset (List.mem_append_right pre (List.mem_singleton_self f))
        rw [(escapes_spec hseq).1 f hmem] at hf
        cases hf
      · obtain ⟨tail, rfl⟩ : seq.1 <+: pre :=
          List.prefix_of_prefix_length_le h (List.prefix_append _ _) hle
        rw [List.append_assoc, List.drop_left]
        cases tail with
        | nil => exact absurd (List.append_nil _).symm heq
        | cons c tail =>
          show (seq.2 c).map _ = none
          rw [table_of_not_final hseq (hpre c (by simp)), Option.map_none]
    · rfl

theorem escapeToKey_of_no_final (hpre : ∀ b ∈ pre, isFinal b = false) :
    escapeToKey pre pasteActive = (runeError, pre) := by
  have hnone : (escapes pasteActive).findSome? (seqKey pre) = none :=
    List.findSome?_eq_none_iff.mpr fun seq hseq => seqKey_of_no_final hseq hpre
  have hidx : pre.findIdx? isFinal = none := List.findIdx?_eq_none_iff.mpr hpre
  rw [escapeToKey, hnone, hidx]

/-- The key of a sequence that is cut at its first final byte. -/
def sequenceKey (pre : GoString) (f : UInt8) (pasteActive : Bool) : ℕ :=
  ((escapes pasteActive).findSome? fun seq => if seq.1 = pre then seq.2 f else none).getD keyUnknown

theorem sequenceKey_ne (pre : GoString) (f : UInt8) (pasteActive : Bool) :
    sequenceKey pre f pasteActive ≠ runeError := by
  unfold sequenceKey
  cases h : (escapes pasteActive).findSome? fun seq => if seq.1 = pre then seq.2 f else none with
  | none => decide
  | some key =>
    obtain ⟨seq, hseq, hkey⟩ := List.exists_of_findSome?_eq_some h
    split_ifs at hkey with hpre
    exact ((escapes_spec hseq).2 f key hkey).2

theorem escapeToKey_append (hpre : ∀ b ∈ pre, isFinal b = false) {f : UInt8}
    (hf : isFinal f = true) (more : GoString) :
    escapeToKey (pre ++ f :: more) pasteActive = (sequenceKey pre f pasteActive, more) := by
  have hseqs : ∀ seqs : List (GoString × (UInt8 → Option ℕ)),
      (∀ seq ∈ seqs, seq ∈ escapes pasteActive) → seqs.findSome? (seqKey (pre ++ f :: more)) =
        (seqs.findSome? fun seq => if seq.1 = pre then seq.2 f else none).map
          fun key => (key, more) := by
    intro seqs
    induction seqs with
    | nil => exact fun _ => rfl
    | cons seq seqs ih =>
      intro hmem
      obtain ⟨hseq, hmem⟩ := List.forall_mem_cons.mp hmem
      rw [List.findSome?_cons, List.findSome?_cons, seqKey_append hseq hpre hf, ih hmem]
      split_ifs
      · cases seq.2 f <;> rfl
      · rfl
  have hidx : (pre ++ f :: more).findIdx? isFinal = some pre.length := by
    rw [List.findIdx?_append, List.findIdx?_eq_none_iff.mpr hpre, List.findIdx?_cons, hf]
    simp
  rw [escapeToKey, hseqs _ fun _ h => h, hidx, sequenceKey]
  cases (escapes pasteActive).findSome? fun seq => if seq.1 = pre then seq.2 f else none with
  | some key => rfl
  | none =>
    show (keyUnknown, (pre ++ f :: more).drop (pre.length + 1)) = _
    rw [List.drop_append, List.drop_eq_nil_of_le (by omega), Nat.add_sub_cancel_left]
    rfl

end Sequences

/-! ## Keys -/

/-- A byte that is an editing key by itself. -/
theorem controlKey_spec {b : UInt8} {key : ℕ} (h : controlKey b = some key) :
    b.toNat < 0x80 ∧ key ≠ runeError := by
  unfold controlKey at h
  split_ifs at h with h1 h2 h3 h4 h5 h6 h7 h8 <;> cases h <;> subst b <;> decide

/-- A key at the beginning of a stream, and the stream behind it: however much of the stream
    is there, the key is decoded from it when it is complete. -/
structure KeyAt (pasteActive : Bool) (stream : GoString) (key : ℕ) (seg rest : GoString) :
    Prop where
  append_eq : stream = seg ++ rest
  length_le : seg.length ≤ 256
  typed : Typed rest
  key_ne : key ≠ runeError
  complete : ∀ more, bytesToKey (seg ++ more) pasteActive = (key, more)
  incomplete : ∀ part, part <+: seg → part.length < seg.length →
    bytesToKey part pasteActive = (runeError, part)

theorem keyAt_control {pasteActive : Bool} {a : UInt8} {t : GoString} {key : ℕ}
    (h : Typed (a :: t)) (hkey : (if pasteActive then none else controlKey a) = some key) :
    KeyAt pasteActive (a :: t) key [a] t := by
  have hspec : a.toNat < 0x80 ∧ key ≠ runeError := by
    split_ifs at hkey
    exact controlKey_spec hkey
  refine ⟨rfl, Nat.succ_le_succ (Nat.zero_le _), ?_, hspec.2, ?_, ?_⟩
  · exact Typed.of_append (s := [a]) h (utf8Valid_of_ascii (s := []) h.valid hspec.1)
  · intro more
    rw [List.singleton_append, bytesToKey, hkey]
  · intro part _ hlt
    have hnil : part = [] := List.length_eq_zero_iff.mp (Nat.lt_one_iff.mp hlt)
    rw [hnil]
    rfl

theorem keyAt_rune {pasteActive : Bool} {a : UInt8} {t : GoString}
    (h : Typed (a :: t)) (hctrl : (if pasteActive then none else controlKey a) = none)
    (hesc : a ≠ keyEscape) :
    ∃ key seg rest, KeyAt pasteActive (a :: t) key seg rest := by
  obtain ⟨r, rest, heq, hr, hrest⟩ := exists_rune h.valid (List.cons_ne_nil a t)
  obtain ⟨a', r', rfl, hlen⟩ := length_of_isRune hr
  obtain ⟨rfl, -⟩ := List.cons.inj heq
  have hstep : ∀ b : GoString, bytesToKey (a :: b) pasteActive =
      if !fullRune (a :: b) then (runeError, a :: b)
      else ((decodeRune (a :: b)).1, (a :: b).drop (decodeRune (a :: b)).2) := by
    intro b
    rw [bytesToKey, hctrl]
    exact if_pos hesc
  refine ⟨runeValue (a :: r'), a :: r', rest, heq, ?_, ?_, ?_, ?_, ?_⟩
  · rw [hlen, leadLen]
    split_ifs <;> omega
  · exact Typed.of_append (heq ▸ h) hrest
  · intro hv
    apply h.no_replacement
    rw [← eq_of_runeValue_eq hr hv, heq]
    exact (List.prefix_append _ _).isInfix
  · intro more
    have hfull := fullRune_append hr more
    have hdecode := decodeRune_append hr more
    rw [List.cons_append] at hfull hdecode
    rw [List.cons_append, hstep, hfull, hdecode, if_neg (by decide), ← List.cons_append,
      List.drop_left]
  · intro part hpart hlt
    have hfull := fullRune_of_prefix hr hpart hlt
    cases part with
    | nil => rfl
    | cons b part =>
      obtain ⟨tail, htail⟩ := hpart
      obtain ⟨rfl, -⟩ := List.cons.inj htail
      rw [hstep, hfull]
      rfl

theorem bytesToKey_escape (b : GoString) (pasteActive : Bool) :
    bytesToKey (keyEscape :: b) pasteActive = escapeToKey (keyEscape :: b) pasteActive := by
  have hctrl : (if pasteActive then none else controlKey keyEscape) = none := by
    cases pasteActive <;> rfl
  rw [bytesToKey, hctrl]
  exact if_neg (not_not.mpr rfl)

theorem keyAt_escape {pasteActive : Bool} {t : GoString} (h : Typed (keyEscape :: t)) :
    ∃ key seg rest, KeyAt pasteActive (keyEscape :: t) key seg rest := by
  have hany := h.escape_ends t List.suffix_rfl
  obtain ⟨f, hfind⟩ := Option.isSome_iff_exists.mp
    (show ((t.take 255).find? isFinal).isSome = true by rw [List.find?_isSome]; simpa using hany)
  obtain ⟨hf, seq, tail, htake, hseq⟩ := List.find?_eq_some_iff_append.mp hfind
  have hlen : seq.length < 255 := by
    have := congrArg List.length htake
    rw [List.length_take, List.length_append, List.length_cons] at this
    omega
  have ht : t = seq ++ f :: (tail ++ t.drop 255) := by
    rw [← List.cons_append, ← List.append_assoc, ← htake, List.take_append_drop]
  have hpre : ∀ b ∈ keyEscape :: seq, isFinal b = false :=
    List.forall_mem_cons.mpr ⟨by decide, fun b hb => by simpa using hseq b hb⟩
  have hstream : keyEscape :: t = (keyEscape :: seq ++ [f]) ++ (tail ++ t.drop 255) := by
    conv_lhs => rw [ht]
    simp
  refine ⟨sequenceKey (keyEscape :: seq) f pasteActive, keyEscape :: seq ++ [f], tail ++ t.drop 255,
    hstream, ?_, ?_, sequenceKey_ne _ _ _, ?_, ?_⟩
  · rw [List.length_append, List.length_cons, List.length_singleton]
    omega
  · rw [hstream] at h
    refine h.of_append (utf8Valid_of_ascii (s := keyEscape :: seq) (b := f) ?_ (isFinal_lt hf))
    have hvalid := h.valid
    rwa [List.append_assoc, List.singleton_append] at hvalid
  · intro more
    rw [List.append_assoc, List.singleton_append, List.cons_append, bytesToKey_escape,
      ← List.cons_append, escapeToKey_append hpre hf]
  · intro part hpart hlt
    cases part with
    | nil => rfl
    | cons b part =>
      have hin : b :: part <+: keyEscape :: seq := by
        apply List.prefix_of_prefix_length_le hpart (List.prefix_append _ _)
        rw [List.length_append, List.length_singleton] at hlt
        omega
      obtain ⟨rest, hrest⟩ := hin
      obtain ⟨rfl, -⟩ := List.cons.inj hrest
      have hno : ∀ c ∈ keyEscape :: part, isFinal c = false := fun c hc =>
        hpre c (by rw [← hrest]; exact List.mem_append_left _ hc)
      rw [bytesToKey_escape, escapeToKey_of_no_final hno]

/-- Every stream begins with a key. -/
theorem exists_keyAt (pasteActive : Bool) {stream : GoString} (h : Typed stream)
    (hne : stream ≠ []) : ∃ key seg rest, KeyAt pasteActive stream key seg rest := by
  cases stream with
  | nil => exact absurd rfl hne
  | cons a t =>
    cases hctrl : (if pasteActive then none else controlKey a) with
    | some key => exact ⟨key, [a], t, keyAt_control h hctrl⟩
    | none =>
      by_cases hesc : a = keyEscape
      · subst hesc
        exact keyAt_escape h
      · exact keyAt_rune h hctrl hesc

theorem keyMachine_decodes : keyMachine.Decodes Typed 256 where
  cap_pos := by omega
  decode_eq s w hw hne := by
    obtain ⟨key, seg, rest, hkey⟩ := exists_keyAt s.1.pasteActive hw hne
    refine ⟨key, seg, rest, hkey.append_eq, hkey.length_le, hkey.typed, ?_, ?_⟩
    · intro more _
      show nextKey (seg ++ more) s.1.pasteActive = _
      rw [nextKey, hkey.complete more]
      exact if_neg hkey.key_ne
    · intro part hpart hlt
      have hpart := hkey.incomplete part hpart hlt
      refine ⟨?_, ?_⟩
      · show nextKey part s.1.pasteActive = none
        rw [nextKey, hpart]
        exact if_pos rfl
      · show (bytesToKey part s.1.pasteActive).2 = part
        rw [hpart]

/-! ## Calls of `ReadLine` -/

/-- What calls of `ReadLine` do with the whole stream at hand: the editor, the keys that
    were handled and the rest of the stream afterwards, and what is returned. -/
structure Whole (ρ : Type) where
  editor : Editor
  handled : List (ℕ × GoString)
  rest : GoString
  result : ρ

/-- One call. -/
def readWhole (readErr : LineError) (ed : Editor) (stream : GoString) :
    Whole (GoString × Option LineError) :=
  let y := keyMachine.consumeAll (ed, ed.pasteActive) stream
  let out := lineResult readErr y.state y.result
  ⟨out.1, y.handled, y.rest, out.2⟩

/-- The terminal stands before the stream: the bytes in the buffer and those that have not
    been read make it. -/
structure Before (readErr : LineError) (ed : Editor) (stream : GoString)
    (handled : List (ℕ × GoString)) (t : Terminal) : Prop where
  editor_eq : t.editor = ed
  readErr_eq : t.readErr = readErr
  stream_eq : t.buffer.pending ++ t.source.unread = stream
  handled_eq : t.handled = handled

theorem pending_lineBuffer (buffer : Buffer UInt8 256) (result : Option LineEnd) :
    (lineBuffer buffer result).pending = buffer.pending := by
  unfold lineBuffer
  split
  · exact buffer.pending_compact
  · rfl

/-- One call: whatever part of the stream is in the buffer, and however the rest is cut. -/
theorem readLine_eq {t : Terminal} {readErr : LineError} {ed : Editor} {stream : GoString}
    {handled : List (ℕ × GoString)} (ht : Before readErr ed stream handled t)
    (h : Typed stream) :
    ∃ t', t.readLine = some (t', (readWhole readErr ed stream).result) ∧
      Before readErr (readWhole readErr ed stream).editor (readWhole readErr ed stream).rest
        (handled ++ (readWhole readErr ed stream).handled) t' := by
  obtain ⟨rfl, rfl, rfl, rfl⟩ := ht
  obtain ⟨R, hR, hagree⟩ := Machine.readLoop_eq keyMachine_decodes
    (t.editor, t.editor.pasteActive) t.buffer t.source h (Nat.lt_succ_self _)
  have hout : lineResult t.readErr R.state R.result = lineResult t.readErr
      (keyMachine.consumeAll (t.editor, t.editor.pasteActive)
        (t.buffer.pending ++ t.source.unread)).state
      (keyMachine.consumeAll (t.editor, t.editor.pasteActive)
        (t.buffer.pending ++ t.source.unread)).result := by
    rw [hagree.state_eq, hagree.result_eq]
  refine ⟨⟨(lineResult t.readErr R.state R.result).1, lineBuffer R.buffer R.result, R.source,
    t.readErr, t.handled ++ R.handled⟩, ?_, ?_, rfl, ?_, ?_⟩
  · show (keyMachine.readLoop (t.source.unread.length + 1) (t.editor, t.editor.pasteActive) t.buffer
      t.source).bind _ = _
    rw [hR, readWhole, ← hout]
    rfl
  · rw [readWhole, ← hout]
  · rw [pending_lineBuffer]
    exact hagree.rest_eq
  · rw [readWhole, hagree.handled_eq]

/-- Successive calls. -/
def readWholes (readErr : LineError) : ℕ → Editor → GoString →
    Whole (List (GoString × Option LineError))
  | 0, ed, stream => ⟨ed, [], stream, []⟩
  | n + 1, ed, stream =>
    let call := readWhole readErr ed stream
    let calls := readWholes readErr n call.editor call.rest
    ⟨calls.editor, call.handled ++ calls.handled, calls.rest, call.result :: calls.result⟩

theorem typed_rest (readErr : LineError) (ed : Editor) {stream : GoString} (h : Typed stream) :
    Typed (readWhole readErr ed stream).rest :=
  Machine.good_rest keyMachine_decodes (ed, ed.pasteActive) h

theorem readLines_eq (n : ℕ) {t : Terminal} {readErr : LineError} {ed : Editor}
    {stream : GoString} {handled : List (ℕ × GoString)} (ht : Before readErr ed stream handled t)
    (h : Typed stream) :
    ∃ t', t.readLines n = some (t', (readWholes readErr n ed stream).result) ∧
      Before readErr (readWholes readErr n ed stream).editor (readWholes readErr n ed stream).rest
        (handled ++ (readWholes readErr n ed stream).handled) t' := by
  induction n generalizing t ed stream handled with
  | zero => exact ⟨t, rfl, by simpa [readWholes] using ht⟩
  | succ n ih =>
    obtain ⟨t₁, hcall, hbefore⟩ := readLine_eq ht h
    obtain ⟨t₂, hcalls, hbefore'⟩ := ih hbefore (typed_rest readErr ed h)
    refine ⟨t₂, ?_, ?_⟩
    · show t.readLine.bind _ = _
      rw [hcall]
      show (t₁.readLines n).bind _ = _
      rw [hcalls]
      rfl
    · rw [List.append_assoc] at hbefore'
      exact hbefore'

/-- The bytes of the keys that were handled, and the rest. -/
theorem handled_readWholes (readErr : LineError) (n : ℕ) (ed : Editor) {stream : GoString}
    (h : Typed stream) :
    ((readWholes readErr n ed stream).handled.map Prod.snd).flatten ++
      (readWholes readErr n ed stream).rest = stream := by
  induction n generalizing ed stream with
  | zero => rfl
  | succ n ih =>
    have hcall : ((readWhole readErr ed stream).handled.map Prod.snd).flatten ++
        (readWhole readErr ed stream).rest = stream :=
      Machine.handled_append_rest keyMachine_decodes (ed, ed.pasteActive) stream h
    have hcalls := ih (readWhole readErr ed stream).editor (typed_rest readErr ed h)
    rw [readWholes]
    dsimp only
    rw [List.map_append, List.flatten_append, List.append_assoc, hcalls, hcall]

/-- For every editor and every such stream, the successive calls of `ReadLine` return the
    same lines and errors, whatever part of the stream is in the buffer and however `c.Read`
    cuts the rest: those of calls with the whole stream at hand. They handle the same keys,
    and the bytes of these keys and the bytes that are left make up the stream. -/
theorem readLines_independent (readErr : LineError) (ed : Editor) (stream : GoString)
    (h : Typed stream) (n : ℕ) :
    let whole := readWholes readErr n ed stream
    (whole.handled.map Prod.snd).flatten ++ whole.rest = stream ∧
      ∀ t, Before readErr ed stream [] t → ∃ t', t.readLines n = some (t', whole.result) ∧
        t'.handled = whole.handled ∧ t'.buffer.pending ++ t'.source.unread = whole.rest := by
  intro whole
  refine ⟨handled_readWholes readErr n ed h, fun t ht => ?_⟩
  obtain ⟨t', hlines, hbefore⟩ := readLines_eq n ht h
  exact ⟨t', hlines, hbefore.handled_eq, hbefore.stream_eq⟩

/-- A line, Ctrl-D on the empty line, and the line again from the history. -/
def typedAhead : GoString := str "ls" ++ [13, 4, 27, 91, 65, 13]

/-- A new terminal that receives it byte by byte. -/
def byteByByte : Terminal :=
  ⟨Editor.new, Buffer.empty (List.replicate 256 0) length_inBuf,
    ⟨typedAhead, fun _ => 1, 0⟩, .eof, []⟩

theorem readLines_byteByByte :
    ∃ t', byteByByte.readLines 3 =
        some (t', [(str "ls", none), ([], some .eof), (str "ls", none)]) ∧
      t'.buffer.pending ++ t'.source.unread = [] := by
  have hresult : (readWholes .eof 3 Editor.new typedAhead).result =
      [(str "ls", none), ([], some .eof), (str "ls", none)] := by decide
  have hrest : (readWholes .eof 3 Editor.new typedAhead).rest = [] := by decide
  obtain ⟨t', hlines, -, hleft⟩ := (readLines_independent .eof Editor.new typedAhead
    (by decide) 3).2 byteByByte ⟨rfl, rfl, rfl, rfl⟩
  rw [hresult] at hlines
  exact ⟨t', hlines, hleft.trans hrest⟩

end GoJump.Common
