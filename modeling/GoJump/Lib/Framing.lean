import Mathlib

/-!
# Reading frames through a bounded buffer

A stream arrives in pieces. A loop takes the elements that have arrived, cuts one frame
after the other off their beginning and handles it, and when no complete frame is left it
reads more; some frames end the loop, and what follows them stays in the buffer for the
next call.

The buffer is an array of fixed length with a window, as a slice of it: the window is
moved forward over the frames, copied to the beginning, and filled up behind.

* `Machine.consumeAll_append`: handling a part of a stream and then the rest is handling
  the stream, if frames are decoded from a part as from the whole (`Machine.Decodes`).
* `Machine.readLoop_eq`: then the loop has the same outcome for every way in which the
  source cuts the stream, and leaves the same elements.
* `Machine.rooms_pos`, `Machine.zero_mem_rooms_or`: on any stream, every read has a place if
  no part of the stream gets stuck, and before one that does the loop ends or comes to a
  read without a place.
-/

namespace GoJump.Lib

variable {α κ σ ρ : Type*}

/-! ## The buffer -/

/-- An array of `cap` elements and a window in it. -/
structure Buffer (α : Type*) (cap : ℕ) where
  array : List α
  start : ℕ
  len : ℕ
  length_array : array.length = cap
  window_le : start + len ≤ cap

namespace Buffer

variable {cap : ℕ}

/-- The elements in the window. -/
def pending (b : Buffer α cap) : List α := (b.array.drop b.start).take b.len

theorem length_pending (b : Buffer α cap) : b.pending.length = b.len := by
  have := b.length_array
  have := b.window_le
  rw [pending, List.length_take, List.length_drop]
  omega

/-- An empty window. -/
def empty (array : List α) (h : array.length = cap) : Buffer α cap := ⟨array, 0, 0, h, by omega⟩

/-- Without the first `n` elements of the window. -/
def advance (b : Buffer α cap) (n : ℕ) : Buffer α cap :=
  ⟨b.array, b.start + min n b.len, b.len - n, b.length_array, by have := b.window_le; omega⟩

theorem pending_advance (b : Buffer α cap) (n : ℕ) : (b.advance n).pending = b.pending.drop n := by
  show (b.array.drop (b.start + min n b.len)).take (b.len - n) = _
  rw [pending, List.drop_take, List.drop_drop]
  rcases Nat.le_total n b.len with h | h
  · rw [min_eq_left h]
  · rw [Nat.sub_eq_zero_of_le h, List.take_zero, List.take_zero]

/-- The window copied to the beginning. -/
def compact (b : Buffer α cap) : Buffer α cap where
  array := b.pending ++ b.array.drop b.len
  start := 0
  len := b.len
  length_array := by
    have := b.length_array
    have := b.window_le
    rw [List.length_append, length_pending, List.length_drop]
    omega
  window_le := by
    have := b.window_le
    omega

theorem pending_compact (b : Buffer α cap) : b.compact.pending = b.pending := by
  show (b.pending ++ b.array.drop b.len).take b.len = b.pending
  rw [List.take_append_of_le_length (by rw [length_pending]),
    List.take_of_length_le (by rw [length_pending])]

/-- A chunk written behind a window at the beginning, as much of it as fits. -/
def fill (b : Buffer α cap) (chunk : List α) : Buffer α cap where
  array := b.array.take b.len ++ chunk.take (cap - b.len) ++ b.array.drop (b.len + chunk.length)
  start := 0
  len := min (b.len + chunk.length) cap
  length_array := by
    have := b.length_array
    have := b.window_le
    simp only [List.length_append, List.length_take, List.length_drop]
    omega
  window_le := by omega

theorem pending_fill_compact (b : Buffer α cap) {chunk : List α} (h : b.len + chunk.length ≤ cap) :
    (b.compact.fill chunk).pending = b.pending ++ chunk := by
  have htake : b.compact.array.take b.len = b.pending := b.pending_compact
  have hlen : (b.pending ++ chunk).length = b.len + chunk.length := by
    rw [List.length_append, length_pending]
  show (b.compact.array.take b.len ++ chunk.take (cap - b.len) ++ _).take
    (min (b.len + chunk.length) cap) = _
  rw [List.take_of_length_le (show chunk.length ≤ cap - b.len by omega), min_eq_left h, htake,
    List.take_left' hlen]

end Buffer

/-! ## The source -/

/-- What has not been read yet, and how many elements each read would deliver. -/
structure Source (α : Type*) where
  unread : List α
  cut : ℕ → ℕ
  reads : ℕ

namespace Source

/-- A read into a place for `room` elements delivers at least one of them and no more than
    there are; `none` is the error at the end. -/
def read (src : Source α) (room : ℕ) : Option (List α × Source α) :=
  if src.unread = [] then none
  else
    let n := min (max 1 (src.cut src.reads)) room
    some (src.unread.take n, ⟨src.unread.drop n, src.cut, src.reads + 1⟩)

theorem read_eq_some {src src' : Source α} {room : ℕ} {chunk : List α}
    (h : src.read room = some (chunk, src')) :
    src.unread = chunk ++ src'.unread ∧ chunk.length ≤ room ∧
      (0 < room → src'.unread.length < src.unread.length) := by
  unfold read at h
  split_ifs at h with hne
  cases h
  refine ⟨(List.take_append_drop _ _).symm, ?_, ?_⟩
  · rw [List.length_take]
    omega
  · intro hroom
    have := List.length_pos_of_ne_nil hne
    rw [List.length_drop]
    omega

theorem read_eq_none {src : Source α} {room : ℕ} (h : src.read room = none) : src.unread = [] := by
  unfold read at h
  split_ifs at h with hnil
  exact hnil

end Source

/-! ## Frames -/

/-- How a frame is cut off, and what is done with it: `handle` returns a result when the
    frame ends the loop. Of elements that begin with no frame, `skip` is what is kept: all
    of them while the frame is incomplete, fewer when some can begin none. -/
structure Machine (α κ σ ρ : Type*) where
  decode : σ → List α → Option (κ × List α)
  skip : σ → List α → List α
  handle : σ → κ → σ × Option ρ
  decode_suffix : ∀ {s w k rest}, decode s w = some (k, rest) → ∃ seg, seg ≠ [] ∧ w = seg ++ rest
  skip_suffix : ∀ s w, skip s w <:+ w

/-- What has become of some elements: the frames that were handled, with the elements of
    each, what is left of them, and the result if there is one. -/
structure Consumed (α κ σ ρ : Type*) where
  state : σ
  handled : List (κ × List α)
  rest : List α
  result : Option ρ

/-- With these frames handled before. -/
def Consumed.after (c : Consumed α κ σ ρ) (frames : List (κ × List α)) : Consumed α κ σ ρ :=
  { c with handled := frames ++ c.handled }

/-- With these elements behind what is left. -/
def Consumed.followedBy (c : Consumed α κ σ ρ) (w : List α) : Consumed α κ σ ρ :=
  { c with rest := c.rest ++ w }

theorem Consumed.after_after (c : Consumed α κ σ ρ) (frames frames' : List (κ × List α)) :
    (c.after frames').after frames = c.after (frames ++ frames') := by
  simp [Consumed.after]

namespace Machine

variable (M : Machine α κ σ ρ)

/-- Frame after frame, at most `fuel` of them. -/
def consume : ℕ → σ → List α → Consumed α κ σ ρ
  | 0, s, w => ⟨s, [], w, none⟩
  | fuel + 1, s, w =>
    match M.decode s w with
    | none => ⟨s, [], M.skip s w, none⟩
    | some (k, rest) =>
      let frame := (k, w.take (w.length - rest.length))
      match M.handle s k with
      | (s', some r) => ⟨s', [frame], rest, some r⟩
      | (s', none) => (consume fuel s' rest).after [frame]

/-- Frame after frame, while there are complete ones and none ends the loop. -/
def consumeAll (s : σ) (w : List α) : Consumed α κ σ ρ := M.consume (w.length + 1) s w

variable {M} {s s' : σ} {k : κ} {r : ρ} {w seg rest : List α}

theorem length_lt_of_decode (h : M.decode s w = some (k, rest)) : rest.length < w.length := by
  obtain ⟨seg, hne, rfl⟩ := M.decode_suffix h
  have := List.length_pos_of_ne_nil hne
  rw [List.length_append]
  omega

theorem decode_nil : M.decode s [] = none := by
  cases h : M.decode s [] with
  | none => rfl
  | some p =>
    obtain ⟨k, rest⟩ := p
    exact absurd (length_lt_of_decode h) (Nat.not_lt_zero _)

theorem skip_nil : M.skip s [] = [] := List.suffix_nil.mp (M.skip_suffix s [])

/-- There are no more frames than elements. -/
theorem consume_fuel {fuel fuel' : ℕ} (h : w.length < fuel) (h' : w.length < fuel') :
    M.consume fuel s w = M.consume fuel' s w := by
  induction fuel generalizing fuel' s w with
  | zero => omega
  | succ fuel ih =>
    obtain ⟨fuel', rfl⟩ := Nat.exists_eq_succ_of_ne_zero (by omega : fuel' ≠ 0)
    rw [consume, consume]
    cases hd : M.decode s w with
    | none => rfl
    | some p =>
      obtain ⟨k, rest⟩ := p
      have hlt := length_lt_of_decode hd
      have hrest : ∀ s', M.consume fuel s' rest = M.consume fuel' s' rest := fun s' =>
        ih (by omega) (by omega)
      simp only [hrest]

theorem consumeAll_of_none (h : M.decode s w = none) :
    M.consumeAll s w = ⟨s, [], M.skip s w, none⟩ := by
  rw [consumeAll, consume, h]

theorem consumeAll_of_stop (h : M.decode s (seg ++ rest) = some (k, rest))
    (hk : M.handle s k = (s', some r)) :
    M.consumeAll s (seg ++ rest) = ⟨s', [(k, seg)], rest, some r⟩ := by
  rw [consumeAll, consume, h]
  dsimp only
  rw [hk, List.length_append, Nat.add_sub_cancel, List.take_left]

theorem consumeAll_of_more (h : M.decode s (seg ++ rest) = some (k, rest))
    (hk : M.handle s k = (s', none)) :
    M.consumeAll s (seg ++ rest) = (M.consumeAll s' rest).after [(k, seg)] := by
  have hlt := length_lt_of_decode h
  rw [consumeAll, consume, h]
  dsimp only
  rw [hk, List.length_append, Nat.add_sub_cancel, List.take_left]
  dsimp only
  rw [consumeAll, consume_fuel (show rest.length < seg.length + rest.length by
    rw [← List.length_append]; exact hlt) (Nat.lt_succ_self _)]

/-- What is left stands at the end. -/
theorem rest_suffix (M : Machine α κ σ ρ) (s : σ) (w : List α) : (M.consumeAll s w).rest <:+ w := by
  induction hn : w.length using Nat.strong_induction_on generalizing s w with
  | _ n ih =>
    subst hn
    cases hd : M.decode s w with
    | none =>
      rw [consumeAll_of_none hd]
      exact M.skip_suffix s w
    | some p =>
      obtain ⟨k, rest⟩ := p
      have hlt := length_lt_of_decode hd
      obtain ⟨seg, -, rfl⟩ := M.decode_suffix hd
      cases hk : M.handle s k with
      | mk s' result =>
        cases result with
        | some r =>
          rw [consumeAll_of_stop hd hk]
          exact List.suffix_append seg rest
        | none =>
          rw [consumeAll_of_more hd hk]
          exact (ih rest.length hlt s' rest rfl).trans (List.suffix_append seg rest)

/-- A frame that is taken leaves less. -/
theorem length_rest_lt_of_decode (h : M.decode s w = some (k, rest)) :
    (M.consumeAll s w).rest.length < w.length := by
  have hlt := length_lt_of_decode h
  obtain ⟨seg, -, rfl⟩ := M.decode_suffix h
  cases hk : M.handle s k with
  | mk s' result =>
    cases result with
    | some r =>
      rw [consumeAll_of_stop h hk]
      exact hlt
    | none =>
      rw [consumeAll_of_more h hk]
      exact (M.rest_suffix s' rest).length_le.trans_lt hlt

theorem length_rest_lt_of_result (h : (M.consumeAll s w).result.isSome = true) :
    (M.consumeAll s w).rest.length < w.length := by
  cases hd : M.decode s w with
  | none =>
    rw [consumeAll_of_none hd] at h
    cases h
  | some p => exact length_rest_lt_of_decode hd

/-! ## Streams -/

variable (M) in
/-- On these streams every frame has at most `cap` elements, and is decoded as soon as it is
    complete and not before, whatever follows it. -/
structure Decodes (Good : List α → Prop) (cap : ℕ) : Prop where
  cap_pos : 0 < cap
  decode_eq : ∀ (s : σ) {w : List α}, Good w → w ≠ [] →
    ∃ k seg rest, w = seg ++ rest ∧ seg.length ≤ cap ∧ Good rest ∧
      (∀ more, more <+: rest → M.decode s (seg ++ more) = some (k, more)) ∧
      ∀ part, part <+: seg → part.length < seg.length →
        M.decode s part = none ∧ M.skip s part = part

variable {Good : List α → Prop} {cap : ℕ}

/-- Nothing is lost or handled twice. -/
theorem handled_append_rest (h : M.Decodes Good cap) (s : σ) (w : List α) (hgood : Good w) :
    ((M.consumeAll s w).handled.map Prod.snd).flatten ++ (M.consumeAll s w).rest = w := by
  induction hn : w.length using Nat.strong_induction_on generalizing s w with
  | _ n ih =>
    subst hn
    by_cases hne : w = []
    · rw [hne, consumeAll_of_none decode_nil, skip_nil]
      rfl
    obtain ⟨k, seg, rest, rfl, -, hrest, hmore, -⟩ := h.decode_eq s hgood hne
    have hd := hmore rest (List.prefix_refl rest)
    cases hk : M.handle s k with
    | mk s' result =>
      cases result with
      | some r => simp [consumeAll_of_stop hd hk]
      | none =>
        rw [consumeAll_of_more hd hk]
        have := ih rest.length (length_lt_of_decode hd) s' rest hrest rfl
        simpa [Consumed.after] using this

variable (M Good cap) in
/-- What has become of a part of a stream, and of the stream: the part ends the loop, as
    the stream does, or leaves an incomplete frame, with which the stream goes on. -/
structure Continues (x : Consumed α κ σ ρ) (v : List α) (y : Consumed α κ σ ρ) : Prop where
  good : Good (x.rest ++ v)
  stop : x.result.isSome = true → y = x.followedBy v
  open_lt : x.result = none → x.rest.length < cap
  go_on : x.result = none → y = (M.consumeAll x.state (x.rest ++ v)).after x.handled

theorem Continues.after {x y : Consumed α κ σ ρ} {v : List α} (h : M.Continues Good cap x v y)
    (frames : List (κ × List α)) : M.Continues Good cap (x.after frames) v (y.after frames) where
  good := h.good
  stop hr := by rw [h.stop hr]; rfl
  open_lt := h.open_lt
  go_on hr := by rw [h.go_on hr, Consumed.after_after]; rfl

theorem continues_of_decode_none {v : List α} (hgood : Good (w ++ v)) (hd : M.decode s w = none)
    (hskip : M.skip s w = w) (hlt : w.length < cap) :
    M.Continues Good cap (M.consumeAll s w) v (M.consumeAll s (w ++ v)) := by
  rw [consumeAll_of_none hd, hskip]
  exact ⟨hgood, fun hr => absurd hr Bool.false_ne_true, fun _ => hlt, fun _ => rfl⟩

theorem consumeAll_append (h : M.Decodes Good cap) (s : σ) (w v : List α) (hgood : Good (w ++ v)) :
    M.Continues Good cap (M.consumeAll s w) v (M.consumeAll s (w ++ v)) := by
  induction hn : w.length using Nat.strong_induction_on generalizing s w with
  | _ n ih =>
    subst hn
    by_cases hne : w ++ v = []
    · have hw := (List.append_eq_nil_iff.mp hne).1
      subst hw
      exact continues_of_decode_none hgood decode_nil skip_nil h.cap_pos
    obtain ⟨k, seg, rest, heq, hcap, hrest, hmore, hpart⟩ := h.decode_eq s hgood hne
    rcases Nat.lt_or_ge w.length seg.length with hlt | hge
    · -- the first frame is not complete in the part
      have hpre : w <+: seg :=
        List.prefix_of_prefix_length_le ⟨v, heq⟩ (List.prefix_append seg rest) hlt.le
      exact continues_of_decode_none hgood (hpart w hpre hlt).1 (hpart w hpre hlt).2 (by omega)
    · obtain ⟨more, rfl⟩ : seg <+: w :=
        List.prefix_of_prefix_length_le (List.prefix_append seg rest) ⟨v, heq⟩ hge
      rw [List.append_assoc] at heq
      obtain rfl : more ++ v = rest := List.append_cancel_left heq
      have hd := hmore more (List.prefix_append more v)
      have hd' := hmore (more ++ v) (List.prefix_refl _)
      rw [List.append_assoc]
      cases hk : M.handle s k with
      | mk s' result =>
        cases result with
        | some r =>
          rw [consumeAll_of_stop hd hk, consumeAll_of_stop hd' hk]
          exact ⟨hrest, fun _ => rfl, fun hr => by simp at hr, fun hr => by simp at hr⟩
        | none =>
          rw [consumeAll_of_more hd hk, consumeAll_of_more hd' hk]
          exact (ih more.length (length_lt_of_decode hd) s' more hrest rfl).after [(k, seg)]

/-- What is left of a stream is a stream. -/
theorem good_rest (h : M.Decodes Good cap) (s : σ) {w : List α} (hgood : Good w) :
    Good (M.consumeAll s w).rest := by
  have hc := consumeAll_append h s w [] (by rw [List.append_nil]; exact hgood)
  simpa only [List.append_nil] using hc.good

/-! ## The loop -/

/-- How a call of the loop ends; the result is missing when the source has an error. `last`
    is the buffer before the last frames were taken from it. -/
structure Reading (α κ σ ρ : Type*) (cap : ℕ) where
  state : σ
  handled : List (κ × List α)
  last : Buffer α cap
  buffer : Buffer α cap
  source : Source α
  result : Option ρ

/-- With these frames handled before. -/
def Reading.after (R : Reading α κ σ ρ cap) (frames : List (κ × List α)) : Reading α κ σ ρ cap :=
  { R with handled := frames ++ R.handled }

variable (M) in
/-- Handle the frames in the buffer, move what is left of them to its beginning and read
    more. `none` when the fuel runs out, which a loop does that reads into no place. -/
def readLoop : ℕ → σ → Buffer α cap → Source α → Option (Reading α κ σ ρ cap)
  | 0, _, _, _ => none
  | fuel + 1, s, last, source =>
    let x := M.consumeAll s last.pending
    let buffer := last.advance (last.len - x.rest.length)
    match x.result with
    | some r => some ⟨x.state, x.handled, last, buffer, source, some r⟩
    | none =>
      let buffer := buffer.compact
      match source.read (cap - buffer.len) with
      | none => some ⟨x.state, x.handled, last, buffer, source, none⟩
      | some (chunk, source) =>
        (readLoop fuel x.state (buffer.fill chunk) source).map (Reading.after · x.handled)

variable (M) in
/-- The lengths of the places into which the loop reads, at most `reads` of them. -/
def rooms : ℕ → σ → Buffer α cap → Source α → List ℕ
  | 0, _, _, _ => []
  | reads + 1, s, buffer, source =>
    let x := M.consumeAll s buffer.pending
    let buffer := buffer.advance (buffer.len - x.rest.length)
    match x.result with
    | some _ => []
    | none =>
      let buffer := buffer.compact
      (cap - buffer.len) ::
        match source.read (cap - buffer.len) with
        | none => []
        | some (chunk, source) => rooms reads x.state (buffer.fill chunk) source

/-- What is left stands in the window after it has been advanced. -/
theorem pending_advance_consumeAll (s : σ) (buffer : Buffer α cap) :
    (buffer.advance (buffer.len - (M.consumeAll s buffer.pending).rest.length)).pending =
      (M.consumeAll s buffer.pending).rest := by
  rw [Buffer.pending_advance, ← buffer.length_pending]
  exact (List.suffix_iff_eq_drop.mp (M.rest_suffix s buffer.pending)).symm

/-- A read leaves the stream as it is. -/
theorem pending_fill_append_unread {b : Buffer α cap} {source source' : Source α}
    {chunk : List α} (hread : source.read (cap - b.compact.len) = some (chunk, source')) :
    (b.compact.fill chunk).pending ++ source'.unread = b.pending ++ source.unread := by
  obtain ⟨happend, hroom, -⟩ := Source.read_eq_some hread
  have hcap := b.compact.window_le
  rw [b.pending_fill_compact (show b.compact.len + chunk.length ≤ cap by omega), happend,
    List.append_assoc]

/-- The loop on what is in the buffer and what has not been read, against the stream that
    they make: the same state and result, the same frames, and the same elements left. -/
structure Agrees (R : Reading α κ σ ρ cap) (y : Consumed α κ σ ρ) : Prop where
  state_eq : R.state = y.state
  handled_eq : R.handled = y.handled
  result_eq : R.result = y.result
  rest_eq : R.buffer.pending ++ R.source.unread = y.rest

theorem readLoop_eq (h : M.Decodes Good cap) {fuel : ℕ} (s : σ) (buffer : Buffer α cap)
    (source : Source α) (hgood : Good (buffer.pending ++ source.unread))
    (hfuel : source.unread.length < fuel) :
    ∃ R, M.readLoop fuel s buffer source = some R ∧
      Agrees R (M.consumeAll s (buffer.pending ++ source.unread)) := by
  induction fuel generalizing s buffer source with
  | zero => omega
  | succ fuel ih =>
    have hc := consumeAll_append h s buffer.pending source.unread hgood
    have hpending := pending_advance_consumeAll (M := M) s buffer
    have hwhole : source.unread = [] →
        M.consumeAll s (buffer.pending ++ source.unread) = M.consumeAll s buffer.pending := by
      intro hnil
      rw [hnil, List.append_nil]
    rw [readLoop]
    generalize M.consumeAll s buffer.pending = x at hc hpending hwhole ⊢
    dsimp only
    generalize buffer.advance (buffer.len - x.rest.length) = b at hpending ⊢
    cases hr : x.result with
    | some r =>
      refine ⟨_, rfl, ?_⟩
      rw [hc.stop (by rw [hr]; rfl)]
      exact ⟨rfl, rfl, hr.symm, by rw [hpending]; rfl⟩
    | none =>
      have hlt := hc.open_lt hr
      have hlen : b.compact.len = x.rest.length := by rw [← hpending, b.length_pending]; rfl
      cases hread : source.read (cap - b.compact.len) with
      | none =>
        have hnil := Source.read_eq_none hread
        refine ⟨_, rfl, ?_⟩
        rw [hwhole hnil]
        exact ⟨rfl, rfl, hr.symm, by rw [b.pending_compact, hpending, hnil, List.append_nil]⟩
      | some p =>
        obtain ⟨chunk, source'⟩ := p
        have hshorter := (Source.read_eq_some hread).2.2
        have hstream : (b.compact.fill chunk).pending ++ source'.unread =
            x.rest ++ source.unread := by
          rw [pending_fill_append_unread hread, hpending]
        obtain ⟨R, hR, hagree⟩ := ih x.state (b.compact.fill chunk) source'
          (by rw [hstream]; exact hc.good) (by have := hshorter (by omega); omega)
        refine ⟨R.after x.handled, ?_, ?_⟩
        · show (M.readLoop fuel x.state (b.compact.fill chunk) source').map _ = _
          rw [hR]
          rfl
        · rw [hstream] at hagree
          rw [hc.go_on hr]
          exact ⟨hagree.state_eq, by rw [Reading.after, hagree.handled_eq]; rfl, hagree.result_eq,
            hagree.rest_eq⟩

/-! ## Progress -/

variable (M cap) in
/-- As many elements as the buffer has places, of which nothing is handled or passed over:
    the loop has no place to read into. -/
structure Stuck (s : σ) (w : List α) : Prop where
  length_eq : w.length = cap
  decode_eq : M.decode s w = none
  skip_eq : M.skip s w = w

theorem stuck_of_length_rest (hlen : w.length ≤ cap) (h : cap ≤ (M.consumeAll s w).rest.length) :
    M.Stuck cap s w := by
  cases hd : M.decode s w with
  | none =>
    rw [consumeAll_of_none hd] at h
    change cap ≤ (M.skip s w).length at h
    have hsuffix := M.skip_suffix s w
    have hle := hsuffix.length_le
    exact ⟨by omega, hd, hsuffix.eq_of_length (by omega)⟩
  | some p =>
    have hlt := length_rest_lt_of_decode hd
    omega

/-- What is left behind a part of the stream is the end of the stream. -/
theorem rest_append_suffix (s : σ) (w v : List α) : (M.consumeAll s w).rest ++ v <:+ w ++ v := by
  obtain ⟨seg, hseg⟩ := M.rest_suffix s w
  exact ⟨seg, by rw [← List.append_assoc, hseg]⟩

/-- A call leaves the end of the stream, also where its last frames are put back. -/
theorem suffix_of_readLoop {fuel : ℕ} {s : σ} {buffer : Buffer α cap} {source : Source α}
    {R : Reading α κ σ ρ cap} (h : M.readLoop fuel s buffer source = some R) :
    R.last.pending ++ R.source.unread <:+ buffer.pending ++ source.unread ∧
      R.buffer.pending ++ R.source.unread <:+ buffer.pending ++ source.unread := by
  induction fuel generalizing s buffer source R with
  | zero => cases h
  | succ fuel ih =>
    have hpending := pending_advance_consumeAll (M := M) s buffer
    have hsuffix := rest_append_suffix (M := M) s buffer.pending source.unread
    rw [readLoop] at h
    generalize M.consumeAll s buffer.pending = x at hpending hsuffix h
    dsimp only at h
    generalize buffer.advance (buffer.len - x.rest.length) = b at hpending h
    rw [← hpending] at hsuffix
    cases hr : x.result with
    | some r =>
      rw [hr] at h
      cases h
      exact ⟨List.suffix_rfl, hsuffix⟩
    | none =>
      rw [hr] at h
      cases hread : source.read (cap - b.compact.len) with
      | none =>
        rw [hread] at h
        cases h
        exact ⟨List.suffix_rfl, by rw [b.pending_compact]; exact hsuffix⟩
      | some p =>
        rw [hread] at h
        obtain ⟨R', hR', rfl⟩ := Option.map_eq_some_iff.mp h
        have hstream := pending_fill_append_unread hread
        obtain ⟨hlast, hbuffer⟩ := ih hR'
        rw [hstream] at hlast hbuffer
        exact ⟨hlast.trans hsuffix, hbuffer.trans hsuffix⟩

/-- Where no part of the stream gets stuck, every read has a place. -/
theorem rooms_pos {stream : List α} (hfree : ∀ s w, w <:+: stream → ¬ M.Stuck cap s w)
    (reads : ℕ) (s : σ) (buffer : Buffer α cap) (source : Source α)
    (hstream : buffer.pending ++ source.unread <:+ stream) :
    ∀ room ∈ M.rooms reads s buffer source, 0 < room := by
  induction reads generalizing s buffer source with
  | zero => exact fun room hroom => absurd hroom List.not_mem_nil
  | succ reads ih =>
    have hpending := pending_advance_consumeAll (M := M) s buffer
    have hsuffix := rest_append_suffix (M := M) s buffer.pending source.unread
    have hlt : (M.consumeAll s buffer.pending).rest.length < cap := by
      by_contra hge
      have hlen : buffer.pending.length ≤ cap := by
        have := buffer.window_le
        rw [buffer.length_pending]
        omega
      exact hfree s buffer.pending ((List.prefix_append _ _).isInfix.trans hstream.isInfix)
        (stuck_of_length_rest hlen (Nat.not_lt.mp hge))
    rw [rooms]
    generalize M.consumeAll s buffer.pending = x at hpending hsuffix hlt ⊢
    dsimp only
    generalize buffer.advance (buffer.len - x.rest.length) = b at hpending ⊢
    have hlen : b.compact.len = x.rest.length := by rw [← hpending, b.length_pending]; rfl
    cases x.result with
    | some r => exact fun room hroom => absurd hroom List.not_mem_nil
    | none =>
      refine List.forall_mem_cons.mpr ⟨by omega, ?_⟩
      cases hread : source.read (cap - b.compact.len) with
      | none => exact fun room hroom => absurd hroom List.not_mem_nil
      | some p =>
        apply ih
        rw [pending_fill_append_unread hread, hpending]
        exact hsuffix.trans hstream

variable (M) in
/-- Frames are not taken across the beginning of `stuck`: what is left before it of elements
    with the property `P` is an end of them. -/
structure Blocks (P : List α → Prop) (stuck : List α) : Prop where
  suffix : ∀ {x x'}, P x → x' <:+ x → P x'
  decode_cut : ∀ {s x part k rest}, P x → part <+: stuck →
    M.decode s (x ++ part) = some (k, rest) → ∃ x', x' <:+ x ∧ rest = x' ++ part
  skip_cut : ∀ {s x part}, P x → part <+: stuck → M.decode s (x ++ part) = none →
    ∃ x', x' <:+ x ∧ M.skip s (x ++ part) = x' ++ part

section Blocked

variable {P : List α → Prop} {stuck x v c : List α}

/-- A part of the stream ends before `stuck`, or in it. -/
theorem exists_cut (hw : w ++ v = x ++ (stuck ++ c)) (hlen : w.length ≤ stuck.length)
    (hrest : rest <:+ w)
    (hcut : ∀ part, part <+: stuck → w = x ++ part → ∃ x', x' <:+ x ∧ rest = x' ++ part) :
    ∃ x', x' <:+ x ∧ rest ++ v = x' ++ (stuck ++ c) := by
  rcases Nat.le_total w.length x.length with hle | hle
  · obtain ⟨x₂, rfl⟩ : w <+: x :=
      List.prefix_of_prefix_length_le ⟨v, hw⟩ (List.prefix_append x _) hle
    rw [List.append_assoc] at hw
    obtain ⟨seg, rfl⟩ := hrest
    exact ⟨rest ++ x₂, ⟨seg, (List.append_assoc _ _ _).symm⟩, by
      rw [List.append_cancel_left hw, List.append_assoc]⟩
  · obtain ⟨part, rfl⟩ : x <+: w :=
      List.prefix_of_prefix_length_le (List.prefix_append x _) ⟨v, hw⟩ hle
    rw [List.append_assoc] at hw
    have hpart := List.append_cancel_left hw
    rw [List.length_append] at hlen
    have hpre : part <+: stuck :=
      List.prefix_of_prefix_length_le ⟨v, hpart⟩ (List.prefix_append stuck c) (by omega)
    obtain ⟨x', hx', rfl⟩ := hcut part hpre rfl
    exact ⟨x', hx', by rw [List.append_assoc, hpart]⟩

theorem consumeAll_blocked (h : M.Blocks P stuck) (hx : P x) (hw : w ++ v = x ++ (stuck ++ c))
    (hlen : w.length ≤ stuck.length) :
    ∃ x', x' <:+ x ∧ (M.consumeAll s w).rest ++ v = x' ++ (stuck ++ c) := by
  induction hn : w.length using Nat.strong_induction_on generalizing s w x with
  | _ n ih =>
    subst hn
    cases hd : M.decode s w with
    | none =>
      rw [consumeAll_of_none hd]
      refine exists_cut hw hlen (M.skip_suffix s w) ?_
      rintro part hpart rfl
      exact h.skip_cut hx hpart hd
    | some p =>
      obtain ⟨k, rest⟩ := p
      have hlt := length_lt_of_decode hd
      have hcut : ∃ x', x' <:+ x ∧ rest ++ v = x' ++ (stuck ++ c) := by
        obtain ⟨seg, -, hseg⟩ := M.decode_suffix hd
        refine exists_cut hw hlen ⟨seg, hseg.symm⟩ ?_
        rintro part hpart rfl
        exact h.decode_cut hx hpart hd
      obtain ⟨seg, -, rfl⟩ := M.decode_suffix hd
      cases hk : M.handle s k with
      | mk s' result =>
        cases result with
        | some r =>
          rw [consumeAll_of_stop hd hk]
          exact hcut
        | none =>
          obtain ⟨x', hx', hrest⟩ := hcut
          rw [consumeAll_of_more hd hk]
          obtain ⟨x'', hx'', heq⟩ :=
            ih rest.length hlt (s := s') (h.suffix hx hx') hrest (by omega) rfl
          exact ⟨x'', hx''.trans hx', heq⟩

/-- Before elements that fill the buffer and cannot be passed, a call comes to a read without
    a place, or returns and has come nearer to them. -/
theorem zero_mem_rooms_or (h : M.Blocks P stuck) (hstuck : stuck.length = cap) {fuel : ℕ} (s : σ)
    (buffer : Buffer α cap) (source : Source α) (hx : P x)
    (hstream : buffer.pending ++ source.unread = x ++ (stuck ++ c))
    (hfuel : source.unread.length < fuel) :
    0 ∈ M.rooms fuel s buffer source ∨
      ∃ R x', M.readLoop fuel s buffer source = some R ∧ R.result.isSome = true ∧ P x' ∧
        x'.length < x.length ∧ R.buffer.pending ++ R.source.unread = x' ++ (stuck ++ c) := by
  induction fuel generalizing s buffer source x with
  | zero => omega
  | succ fuel ih =>
    have hpending := pending_advance_consumeAll (M := M) s buffer
    have hwindow := buffer.window_le
    obtain ⟨x', hx', hrest⟩ := consumeAll_blocked (s := s) h hx hstream
      (by rw [buffer.length_pending]; omega)
    have hshort := length_rest_lt_of_result (M := M) (s := s) (w := buffer.pending)
    have hlens := congrArg List.length hstream
    have hlens' := congrArg List.length hrest
    simp only [List.length_append] at hlens hlens'
    rw [rooms, readLoop]
    generalize M.consumeAll s buffer.pending = y at hpending hrest hshort hlens' ⊢
    dsimp only
    generalize buffer.advance (buffer.len - y.rest.length) = b at hpending ⊢
    have hlen : b.compact.len = y.rest.length := by rw [← hpending, b.length_pending]; rfl
    cases hr : y.result with
    | some r =>
      have := hshort (by rw [hr]; rfl)
      exact Or.inr ⟨_, x', rfl, rfl, h.suffix hx hx', by omega, by rw [hpending]; exact hrest⟩
    | none =>
      by_cases hzero : cap - b.compact.len = 0
      · left
        dsimp only
        rw [hzero]
        exact List.mem_cons_self
      cases hread : source.read (cap - b.compact.len) with
      | none =>
        -- all of the stream is in the buffer, which has no place for it
        have hnil := Source.read_eq_none hread
        rw [hnil, List.length_nil] at hlens'
        omega
      | some p =>
        obtain ⟨chunk, source'⟩ := p
        have hshorter := (Source.read_eq_some hread).2.2 (by omega)
        have hstream' := pending_fill_append_unread hread
        rw [hpending, hrest] at hstream'
        rcases ih y.state (b.compact.fill chunk) source' (h.suffix hx hx') hstream' (by omega)
          with hmem | ⟨R, x'', hR, hresult, hx'', hlt, heq⟩
        · exact Or.inl (List.mem_cons_of_mem _ hmem)
        · refine Or.inr ⟨R.after y.handled, x'', ?_, hresult, hx'', ?_, heq⟩
          · show (M.readLoop fuel y.state (b.compact.fill chunk) source').map _ = _
            rw [hR]
            rfl
          · exact hlt.trans_le hx'.length_le

end Blocked

end Machine

end GoJump.Lib
