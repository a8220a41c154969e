import GoJump.Common.ReadLine

/-!
# The place for the next read

`readLine` and `ReadLines` read into what `remainder` leaves of the 256 bytes of `inBuf`. A
rune is complete or invalid after four bytes; an escape sequence that is not recognised
goes on up to a letter or a tilde, and without one in the 255 bytes behind ESC it fills
`inBuf`. The loop then reads into an empty slice, and nothing changes any more.

* `bytesToKey_eq_self`: only an escape sequence without its last byte is kept as a whole.
* `bytesToKey_blocked`: no key reaches into such a sequence from before it.
* `rooms_pos_iff`: the places for the reads are never empty exactly if the stream has no
  such sequence of 256 bytes, whatever the terminal does with the keys and however the
  stream is cut.
-/

namespace GoJump.Common

open GoJump.Go GoJump.Lib

/-! ## Calls -/

/-- The functions of `Terminal` that read. -/
inductive Call
  | readLine
  | readPassword
  | readLines
  deriving DecidableEq

/-- The terminal when the call has returned. -/
def Terminal.call (t : Terminal) : Call → Option Terminal
  | .readLine => t.readLine.map Prod.fst
  | .readPassword => t.readPassword.map Prod.fst
  | .readLines => t.readAllLines.map Prod.fst

/-- The lengths of `readBuf` in the first `reads` reads of the call. -/
def Terminal.callRooms (t : Terminal) (reads : ℕ) : Call → List ℕ
  | .readLine => keyMachine.rooms reads (t.editor, t.editor.pasteActive) t.buffer t.source
  | .readPassword =>
    keyMachine.rooms reads ({ t.editor with echo := false }, t.editor.pasteActive) t.buffer t.source
  | .readLines => linesMachine.rooms reads (t.editor, []) t.buffer t.source

/-- The lengths of `readBuf` in successive calls, with the first `reads` reads of each. -/
def Terminal.rooms (reads : ℕ) : List Call → Terminal → List ℕ
  | [], _ => []
  | call :: calls, t =>
    t.callRooms reads call ++
      match t.call call with
      | none => []
      | some t' => t'.rooms reads calls

theorem Terminal.mem_rooms {t : Terminal} {reads room : ℕ} {call : Call}
    (h : room ∈ t.callRooms reads call) (calls : List Call) :
    room ∈ t.rooms reads (call :: calls) :=
  List.mem_append_left _ h

/-- The bytes that are still to be handled. -/
def Terminal.stream (t : Terminal) : GoString := t.buffer.pending ++ t.source.unread

/-! ## Sequences without an end -/

/-- ESC and 255 bytes behind it none of which is a letter or a tilde. -/
def LongEscape (stream : GoString) : Prop :=
  ∃ seq : GoString, seq.length = 255 ∧ (∀ b ∈ seq, isFinal b = false) ∧
    keyEscape :: seq <:+: stream

/-- Only an escape sequence without its last byte is kept as a whole. -/
theorem bytesToKey_eq_self {b : GoString} {pasteActive : Bool} (hlen : 4 ≤ b.length)
    (hkey : nextKey b pasteActive = none) (hrest : (bytesToKey b pasteActive).2 = b) :
    ∃ seq, b = keyEscape :: seq ∧ ∀ c ∈ seq, isFinal c = false := by
  have hkey : (bytesToKey b pasteActive).1 = runeError := by
    by_contra hne
    rw [nextKey, if_neg hne] at hkey
    cases hkey
  cases b with
  | nil => cases hlen
  | cons a t =>
    have hshort : ∀ n, (a :: t).drop (n + 1) ≠ a :: t := by
      intro n heq
      have := congrArg List.length heq
      rw [List.length_drop, List.length_cons] at this
      omega
    rw [bytesToKey] at hrest
    split at hrest
    · exact absurd hrest (hshort 0)
    · split_ifs at hrest with hesc hfull
      · rw [fullRune_of_length hlen] at hfull
        cases hfull
      · obtain ⟨n, hn⟩ : ∃ n, (decodeRune (a :: t)).2 = n + 1 := by
          rw [decodeRune]
          split
          · exact ⟨0, rfl⟩
          · exact ⟨_, rfl⟩
        rw [hn] at hrest
        exact absurd hrest (hshort n)
      · rw [not_not] at hesc
        subst hesc
        unfold escapeToKey at hrest
        split at hrest
        · rename_i res hres
          obtain ⟨seq, -, hseq⟩ := List.exists_of_findSome?_eq_some hres
          obtain ⟨seg, hne, heq⟩ := seqKey_suffix hseq
          rw [hrest] at heq
          exact absurd (List.self_eq_append_left.mp heq) hne
        · split at hrest
          · exact absurd hrest (hshort _)
          · rename_i hnone
            exact ⟨t, rfl, (List.forall_mem_cons.mp (List.findIdx?_eq_none_iff.mp hnone)).2⟩

theorem not_stuck {stream w : GoString} {pasteActive : Bool} (h : ¬ LongEscape stream)
    (hw : w <:+: stream) (hlen : w.length = 256) (hkey : nextKey w pasteActive = none)
    (hrest : (bytesToKey w pasteActive).2 = w) : False := by
  obtain ⟨seq, rfl, hseq⟩ := bytesToKey_eq_self (by omega) hkey hrest
  rw [List.length_cons] at hlen
  exact h ⟨seq, by omega, hseq, hw⟩

/-! ## Places -/

theorem Terminal.stream_readLine {t t' : Terminal} {res : GoString × Option LineError}
    (h : t.readLine = some (t', res)) : t'.stream <:+ t.stream := by
  obtain ⟨R, hR, heq⟩ := Option.bind_eq_some_iff.mp h
  cases heq
  show (lineBuffer R.buffer R.result).pending ++ R.source.unread <:+ _
  rw [pending_lineBuffer]
  exact (Machine.suffix_of_readLoop hR).2

/-- After a call the terminal stands before an end of the stream. -/
theorem Terminal.stream_call {t t' : Terminal} {call : Call} (h : t.call call = some t') :
    t'.stream <:+ t.stream := by
  cases call with
  | readLine =>
    obtain ⟨⟨u, res⟩, hcall, rfl⟩ := Option.map_eq_some_iff.mp h
    exact Terminal.stream_readLine hcall
  | readPassword =>
    obtain ⟨⟨u, res⟩, hcall, rfl⟩ := Option.map_eq_some_iff.mp h
    obtain ⟨⟨u', res'⟩, hline, heq⟩ := Option.bind_eq_some_iff.mp hcall
    cases heq
    have hsuffix := Terminal.stream_readLine hline
    exact hsuffix
  | readLines =>
    obtain ⟨⟨u, res⟩, hcall, rfl⟩ := Option.map_eq_some_iff.mp h
    obtain ⟨R, hR, heq⟩ := Option.bind_eq_some_iff.mp hcall
    obtain ⟨hlast, hbuffer⟩ := Machine.suffix_of_readLoop hR
    cases hres : R.result with
    | some r =>
      rw [hres] at heq
      cases heq
      exact hlast
    | none =>
      rw [hres] at heq
      cases heq
      exact hbuffer

theorem Terminal.callRooms_pos {t : Terminal} (h : ¬ LongEscape t.stream) (reads : ℕ)
    (call : Call) : ∀ room ∈ t.callRooms reads call, 0 < room := by
  have hkeys : ∀ s w, w <:+: t.stream → ¬ keyMachine.Stuck 256 s w := fun s w hw hstuck =>
    not_stuck h hw hstuck.length_eq hstuck.decode_eq hstuck.skip_eq
  have hlines : ∀ s w, w <:+: t.stream → ¬ linesMachine.Stuck 256 s w := fun s w hw hstuck =>
    not_stuck h hw hstuck.length_eq hstuck.decode_eq hstuck.skip_eq
  cases call with
  | readLine => exact Machine.rooms_pos hkeys reads _ t.buffer t.source List.suffix_rfl
  | readPassword => exact Machine.rooms_pos hkeys reads _ t.buffer t.source List.suffix_rfl
  | readLines => exact Machine.rooms_pos hlines reads _ t.buffer t.source List.suffix_rfl

theorem LongEscape.of_suffix {stream stream' : GoString} (hsuffix : stream' <:+ stream)
    (h : LongEscape stream') : LongEscape stream := by
  obtain ⟨seq, hlen, hseq, hin⟩ := h
  exact ⟨seq, hlen, hseq, hin.trans hsuffix.isInfix⟩

theorem Terminal.rooms_pos {t : Terminal} (h : ¬ LongEscape t.stream) (reads : ℕ)
    (calls : List Call) : ∀ room ∈ t.rooms reads calls, 0 < room := by
  induction calls generalizing t with
  | nil => exact fun room hroom => absurd hroom List.not_mem_nil
  | cons call calls ih =>
    intro room hroom
    rcases List.mem_append.mp hroom with hroom | hroom
    · exact Terminal.callRooms_pos h reads call room hroom
    · cases hcall : t.call call with
      | none =>
        rw [hcall] at hroom
        exact absurd hroom List.not_mem_nil
      | some t' =>
        rw [hcall] at hroom
        exact ih (fun hlong => h (hlong.of_suffix (Terminal.stream_call hcall))) room hroom

/-! ## The way to a read without a place -/

/-- Every escape sequence ends. -/
def EscapesEnd (x : GoString) : Prop := ∀ y, keyEscape :: y <:+ x → y.any isFinal = true

/-- Before the first of the sequences that do not end, all others end. -/
theorem exists_first {stream : GoString} (h : LongEscape stream) :
    ∃ x seq rest, stream = x ++ (keyEscape :: seq ++ rest) ∧ seq.length = 255 ∧
      (∀ b ∈ seq, isFinal b = false) ∧ EscapesEnd x := by
  obtain ⟨seq, hlen, hseq, x, rest, rfl⟩ := h
  induction hn : x.length using Nat.strong_induction_on generalizing x seq rest with
  | _ n ih =>
    subst hn
    by_cases hx : EscapesEnd x
    · exact ⟨x, seq, rest, List.append_assoc _ _ _, hlen, hseq, hx⟩
    · -- an earlier sequence without an end goes on through this one
      unfold EscapesEnd at hx
      push Not at hx
      obtain ⟨y, ⟨x', rfl⟩, hy⟩ := hx
      have hno : ∀ b ∈ y ++ keyEscape :: seq, isFinal b = false := by
        intro b hb
        rcases List.mem_append.mp hb with hb | hb
        · exact Bool.eq_false_iff.mpr fun hf => hy (List.any_eq_true.mpr ⟨b, hb, hf⟩)
        · rcases List.mem_cons.mp hb with rfl | hb
          · decide
          · exact hseq b hb
      have hlong : 255 ≤ (y ++ keyEscape :: seq).length := by
        rw [List.length_append, List.length_cons]
        omega
      obtain ⟨x₁, seq₁, rest₁, heq, hfirst⟩ := ih x'.length
        (by rw [List.length_append, List.length_cons]; omega) ((y ++ keyEscape :: seq).take 255)
        (by rw [List.length_take]; omega) (fun b hb => hno b (List.mem_of_mem_take hb)) x'
        ((y ++ keyEscape :: seq).drop 255 ++ rest) rfl
      refine ⟨x₁, seq₁, rest₁, ?_, hfirst⟩
      have hcut : (y ++ keyEscape :: seq).take 255 ++ ((y ++ keyEscape :: seq).drop 255 ++ rest) =
          y ++ keyEscape :: (seq ++ rest) := by
        rw [← List.append_assoc, List.take_append_drop, List.append_assoc, List.cons_append]
      rw [← heq]
      simp only [List.append_assoc, List.cons_append, hcut]

/-- No key reaches into a sequence without an end from before it. -/
theorem bytesToKey_blocked {x seq part : GoString} (pasteActive : Bool) (hx : EscapesEnd x)
    (hseq : ∀ b ∈ seq, isFinal b = false) (hpart : part <+: keyEscape :: seq) :
    ∃ x', x' <:+ x ∧ (bytesToKey (x ++ part) pasteActive).2 = x' ++ part := by
  rcases List.prefix_cons_iff.mp hpart with rfl | ⟨part, rfl, hin⟩
  · rw [List.append_nil]
    exact ⟨_, bytesToKey_rest x pasteActive, (List.append_nil _).symm⟩
  cases x with
  | nil =>
    have hno : ∀ b ∈ keyEscape :: part, isFinal b = false :=
      List.forall_mem_cons.mpr ⟨by decide, fun b hb => hseq b (hin.subset hb)⟩
    refine ⟨[], List.suffix_rfl, ?_⟩
    rw [List.nil_append, bytesToKey_escape, escapeToKey_of_no_final hno]
  | cons a x =>
    by_cases hesc : a = keyEscape
    · -- the sequence ends before
      subst hesc
      have hany := hx x List.suffix_rfl
      obtain ⟨f, hfind⟩ := Option.isSome_iff_exists.mp
        (show (x.find? isFinal).isSome = true by rw [List.find?_isSome]; simpa using hany)
      obtain ⟨hf, pre, tail, rfl, hpre⟩ := List.find?_eq_some_iff_append.mp hfind
      have hno : ∀ b ∈ keyEscape :: pre, isFinal b = false :=
        List.forall_mem_cons.mpr ⟨by decide, fun b hb => by simpa using hpre b hb⟩
      refine ⟨tail, ⟨keyEscape :: pre ++ [f], by simp⟩, ?_⟩
      have hkey : escapeToKey (keyEscape :: pre ++ f :: (tail ++ keyEscape :: part)) pasteActive =
          (sequenceKey (keyEscape :: pre) f pasteActive, tail ++ keyEscape :: part) :=
        escapeToKey_append hno hf _
      simp only [List.cons_append, List.append_assoc] at hkey ⊢
      rw [bytesToKey_escape, hkey]
    · rw [List.cons_append, bytesToKey]
      split
      · exact ⟨x, List.suffix_cons a x, rfl⟩
      · rw [if_pos hesc]
        split_ifs with hfull
        · exact ⟨a :: x, List.suffix_rfl, rfl⟩
        · have hle := decodeRune_le (t := part) (List.cons_ne_nil a x)
            (show keyEscape.toNat < 0x80 by decide)
          refine ⟨(a :: x).drop (decodeRune (a :: x ++ keyEscape :: part)).2,
            List.drop_suffix _ _, ?_⟩
          rw [← List.drop_append_of_le_length hle]
          rfl

theorem keyMachine_blocks {seq : GoString} (hseq : ∀ b ∈ seq, isFinal b = false) :
    keyMachine.Blocks EscapesEnd (keyEscape :: seq) where
  suffix hx hx' y hy := hx y (hy.trans hx')
  decode_cut {s x part k rest} hx hpart hkey := by
    obtain ⟨x', hx', heq⟩ := bytesToKey_blocked s.1.pasteActive hx hseq hpart
    change nextKey (x ++ part) s.1.pasteActive = _ at hkey
    unfold nextKey at hkey
    dsimp only at hkey
    split_ifs at hkey
    rw [Option.some.inj hkey] at heq
    exact ⟨x', hx', heq⟩
  skip_cut hx hpart _ := bytesToKey_blocked _ hx hseq hpart

/-- Enough calls of `ReadLine` come to a read without a place. -/
theorem Terminal.exists_zero_room {t : Terminal} {x seq rest : GoString}
    (hstream : t.stream = x ++ (keyEscape :: seq ++ rest)) (hlen : seq.length = 255)
    (hseq : ∀ b ∈ seq, isFinal b = false) (hx : EscapesEnd x) :
    ∃ reads calls, 0 ∈ t.rooms reads calls := by
  induction hn : x.length using Nat.strong_induction_on generalizing t x with
  | _ n ih =>
    subst hn
    rcases Machine.zero_mem_rooms_or (keyMachine_blocks hseq)
      (show (keyEscape :: seq).length = 256 by rw [List.length_cons, hlen])
      (t.editor, t.editor.pasteActive) t.buffer t.source hx hstream (Nat.lt_succ_self _) with
      hmem | ⟨R, x', hR, hresult, hx', hlt, hrest⟩
    · exact ⟨t.source.unread.length + 1, [.readLine], Terminal.mem_rooms hmem []⟩
    · let t' : Terminal := ⟨(lineResult t.readErr R.state R.result).1, lineBuffer R.buffer R.result,
        R.source, t.readErr, t.handled ++ R.handled⟩
      have hcall : t.call .readLine = some t' := by
        show (t.readLine).map _ = _
        rw [Terminal.readLine, hR]
        rfl
      have hstream' : t'.stream = x' ++ (keyEscape :: seq ++ rest) := by
        show (lineBuffer R.buffer R.result).pending ++ R.source.unread = _
        rw [pending_lineBuffer]
        exact hrest
      obtain ⟨reads, calls, hmem⟩ := ih x'.length hlt hstream' hx' rfl
      refine ⟨reads, .readLine :: calls, List.mem_append_right _ ?_⟩
      rw [hcall]
      exact hmem

/-- The reads of successive calls never have an empty place exactly if nowhere in the stream
    there are 255 bytes behind an ESC without a letter or a tilde among them. -/
theorem rooms_pos_iff (t : Terminal) :
    (∀ reads calls, ∀ room ∈ t.rooms reads calls, 0 < room) ↔ ¬ LongEscape t.stream := by
  constructor
  · intro hpos hlong
    obtain ⟨x, seq, rest, hstream, hlen, hseq, hx⟩ := exists_first hlong
    obtain ⟨reads, calls, hmem⟩ := Terminal.exists_zero_room hstream hlen hseq hx
    exact Nat.lt_irrefl 0 (hpos reads calls 0 hmem)
  · exact fun h reads calls => Terminal.rooms_pos h reads calls

/-- A new terminal that receives ESC, 255 digits and a newline. -/
def digitsBehindEscape : Terminal :=
  ⟨Editor.new, Buffer.empty (List.replicate 256 0) length_inBuf,
    ⟨keyEscape :: (List.replicate 255 48 ++ [13]), fun _ => 256, 0⟩, .eof, []⟩

/-- After the first read there is no place left, and the loop goes on so. -/
theorem rooms_digitsBehindEscape :
    0 ∈ digitsBehindEscape.rooms 4 [.readLine] ∧ 0 ∈ digitsBehindEscape.rooms 4 [.readLines] ∧
      digitsBehindEscape.callRooms 4 .readLine = [256, 0, 0, 0] := by
  have hline : digitsBehindEscape.callRooms 4 .readLine = [256, 0, 0, 0] := by decide +kernel
  have hlines : digitsBehindEscape.callRooms 4 .readLines = [256, 0, 0, 0] := by decide +kernel
  refine ⟨Terminal.mem_rooms ?_ [], Terminal.mem_rooms ?_ [], hline⟩
  · rw [hline]
    decide
  · rw [hlines]
    decide

end GoJump.Common
