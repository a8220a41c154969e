import GoJump.Go.Utf8
import GoJump.Lib.Bisect

/-!
# Completing host names

The functions of `pkg/common/util.go` that the completion of host names uses:
`LongestCommonPrefix`, `FilterPrefix`, `LongestStr` and `Pretty` (lines 83–160). A slice
beyond the end of a string and a division by zero are faults (`none`).

* `longestCommonPrefix_spec`, `longestCommonPrefix_longest`: the binary search finds the longest
  common prefix, and slices no string beyond its end.
* `pretty_iff`: when the listing of `Pretty` is the table it is meant to be.
* `pretty_narrow`: two names and a terminal narrower than a column: division by zero.
-/

namespace GoJump.Common

open GoJump.Go GoJump.Lib

/-! ## Common prefixes -/

/-- `s[:n]`. -/
def sliceTo (s : GoString) (n : ℕ) : Option GoString :=
  if n ≤ s.length then some (s.take n) else none

/-- The loop of `isCommonPrefix` (lines 90–94). -/
def agreeWith (str0 : GoString) (length : ℕ) : List GoString → Option Bool
  | [] => some true
  | s :: strs => do
    let p ← sliceTo s length
    if p ≠ str0 then some false else agreeWith str0 length strs

/-- `isCommonPrefix` (lines 88–96). -/
def isCommonPrefix (strs : List GoString) (length : ℕ) : Option Bool :=
  match strs with
  | [] => none
  | s :: strs => do
    let str0 ← sliceTo s length
    agreeWith str0 length strs

/-- `minLength` after its loop (lines 98–104). -/
def minLength (s : GoString) (strs : List GoString) : ℕ :=
  (s :: strs).foldl (fun n t => if t.length < n then t.length else n) s.length

/-- `LongestCommonPrefix` (lines 83–117). -/
def longestCommonPrefix (strs : List GoString) : Option GoString :=
  match strs with
  | [] => some []
  | s :: rest => do
    let n := minLength s rest
    let low ← bisect (isCommonPrefix (s :: rest)) (n + 1) 0 n
    sliceTo s low

/-- `FilterPrefix` (lines 119–129). -/
def filterPrefix (strs : List GoString) (s : GoString) : List GoString :=
  strs.filter fun v => decide (s.length ≤ v.length) && decide (v.take s.length = s)

theorem filterPrefix_eq (strs : List GoString) (s : GoString) :
    filterPrefix strs s = strs.filter fun v => decide (s <+: v) := by
  refine List.filter_congr fun v _ => ?_
  rw [Bool.eq_iff_iff, Bool.and_eq_true, decide_eq_true_eq, decide_eq_true_eq, decide_eq_true_eq]
  constructor
  · rintro ⟨-, htake⟩
    rw [← htake]
    exact List.take_prefix _ _
  · intro h
    exact ⟨h.length_le, (List.prefix_iff_eq_take.mp h).symm⟩

theorem mem_filterPrefix {strs : List GoString} {s v : GoString} :
    v ∈ filterPrefix strs s ↔ v ∈ strs ∧ s <+: v := by
  rw [filterPrefix_eq, List.mem_filter, decide_eq_true_eq]

theorem perm_filterPrefix {strs strs' : List GoString} (h : strs.Perm strs') (s : GoString) :
    (filterPrefix strs s).Perm (filterPrefix strs' s) :=
  h.filter _

/-- The first `n` bytes are common to all the strings, which have that many. -/
def CommonTo (n : ℕ) (s : GoString) (strs : List GoString) : Prop :=
  ∀ t ∈ strs, t.take n = s.take n

instance (n : ℕ) (s : GoString) (strs : List GoString) : Decidable (CommonTo n s strs) :=
  inferInstanceAs (Decidable (∀ t ∈ strs, t.take n = s.take n))

theorem agreeWith_eq {s : GoString} {n : ℕ} {strs : List GoString} (h : ∀ t ∈ strs, n ≤ t.length) :
    agreeWith (s.take n) n strs = some (decide (CommonTo n s strs)) := by
  induction strs with
  | nil => simp [agreeWith, CommonTo]
  | cons t strs ih =>
    obtain ⟨ht, hstrs⟩ := List.forall_mem_cons.mp h
    have hcons : CommonTo n s (t :: strs) ↔ t.take n = s.take n ∧ CommonTo n s strs :=
      List.forall_mem_cons
    rw [agreeWith, sliceTo, if_pos ht]
    show (if t.take n ≠ s.take n then some false else agreeWith (s.take n) n strs) = _
    by_cases heq : t.take n = s.take n
    · rw [if_neg (not_not.mpr heq), ih hstrs]
      simp [hcons, heq]
    · rw [if_pos heq]
      simp [hcons, heq]

theorem isCommonPrefix_eq {s : GoString} {n : ℕ} {strs : List GoString}
    (h : ∀ t ∈ s :: strs, n ≤ t.length) :
    isCommonPrefix (s :: strs) n = some (decide (CommonTo n s strs)) := by
  obtain ⟨hs, hstrs⟩ := List.forall_mem_cons.mp h
  rw [isCommonPrefix, sliceTo, if_pos hs]
  exact agreeWith_eq hstrs

theorem CommonTo.mono {m n : ℕ} {s : GoString} {strs : List GoString} (h : CommonTo n s strs)
    (hle : m ≤ n) : CommonTo m s strs := by
  intro t ht
  have := congrArg (List.take m) (h t ht)
  rwa [List.take_take, List.take_take, min_eq_left hle] at this

/-- `minLength` is a lower bound of the lengths, -/
theorem minLength_le {s : GoString} {strs : List GoString} :
    ∀ t ∈ s :: strs, minLength s strs ≤ t.length := by
  have hfold : ∀ (l : List GoString) (n : ℕ),
      l.foldl (fun n t => if t.length < n then t.length else n) n ≤ n ∧
        ∀ t ∈ l, l.foldl (fun n t => if t.length < n then t.length else n) n ≤ t.length := by
    intro l
    induction l with
    | nil => simp
    | cons t l ih =>
      intro n
      rw [List.foldl_cons]
      obtain ⟨hle, hall⟩ := ih (if t.length < n then t.length else n)
      refine ⟨by split_ifs at hle ⊢ <;> omega, List.forall_mem_cons.mpr ⟨?_, hall⟩⟩
      split_ifs at hle ⊢ <;> omega
  exact (hfold (s :: strs) s.length).2

/-- and it is the length of one of the strings. -/
theorem exists_minLength (s : GoString) (strs : List GoString) :
    ∃ t ∈ s :: strs, minLength s strs = t.length := by
  have hfold : ∀ (l : List GoString) (u : GoString),
      ∃ t ∈ u :: l, l.foldl (fun n t => if t.length < n then t.length else n) u.length =
        t.length := by
    intro l
    induction l with
    | nil => exact fun u => ⟨u, by simp, rfl⟩
    | cons t l ih =>
      intro u
      rw [List.foldl_cons]
      split_ifs
      · obtain ⟨v, hv, heq⟩ := ih t
        exact ⟨v, List.mem_cons_of_mem _ hv, heq⟩
      · obtain ⟨v, hv, heq⟩ := ih u
        refine ⟨v, ?_, heq⟩
        rcases List.mem_cons.mp hv with rfl | hv
        · simp
        · exact List.mem_cons_of_mem _ (List.mem_cons_of_mem _ hv)
  obtain ⟨t, ht, heq⟩ := hfold (s :: strs) s
  refine ⟨t, ?_, heq⟩
  rcases List.mem_cons.mp ht with rfl | ht
  · simp
  · exact ht

/-- The string is the longest one that all of `strs` begin with. -/
structure LongestCommon (strs : List GoString) (p : GoString) : Prop where
  common : ∀ s ∈ strs, p <+: s
  longest : ∀ q : GoString, (∀ s ∈ strs, q <+: s) → q <+: p

theorem LongestCommon.unique {strs : List GoString} {p q : GoString} (hp : LongestCommon strs p)
    (hq : LongestCommon strs q) : p = q :=
  List.IsPrefix.eq_of_length (hq.longest p hp.common)
    (Nat.le_antisymm (hq.longest p hp.common).length_le (hp.longest q hq.common).length_le)

theorem LongestCommon.of_mem_iff {strs strs' : List GoString} {p : GoString}
    (h : LongestCommon strs p) (hmem : ∀ s, s ∈ strs ↔ s ∈ strs') : LongestCommon strs' p := by
  refine ⟨fun s hs => h.common s ((hmem s).mpr hs), fun q hq => h.longest q fun s hs => ?_⟩
  exact hq s ((hmem s).mp hs)

theorem longestCommonPrefix_spec {strs : List GoString} (h : strs ≠ []) :
    ∃ p, longestCommonPrefix strs = some p ∧ LongestCommon strs p := by
  obtain ⟨s, rest, rfl⟩ := List.exists_cons_of_ne_nil h
  -- the largest number of bytes that are common
  have hzero : CommonTo 0 s rest := fun t _ => rfl
  let n := Nat.findGreatest (fun k => CommonTo k s rest) (minLength s rest)
  have hn : n ≤ minLength s rest := Nat.findGreatest_le _
  have hcommon : CommonTo n s rest :=
    Nat.findGreatest_spec (P := fun k => CommonTo k s rest) (Nat.zero_le _) hzero
  have hmost : ∀ k ≤ minLength s rest, CommonTo k s rest → k ≤ n := fun k hk hc =>
    Nat.le_findGreatest hk hc
  have hsearch : bisect (isCommonPrefix (s :: rest)) (minLength s rest + 1) 0 (minLength s rest) =
      some n := by
    refine bisect_eq (fun k _ hk => ?_) (Nat.zero_le _) hn (Nat.lt_succ_self _)
    rw [isCommonPrefix_eq fun t ht => hk.trans (minLength_le t ht)]
    congr 1
    exact decide_eq_decide.mpr ⟨hmost k hk, fun hle => hcommon.mono hle⟩
  have hs : n ≤ s.length := hn.trans (minLength_le s (by simp))
  refine ⟨s.take n, ?_, ?_, ?_⟩
  · show (bisect (isCommonPrefix (s :: rest)) (minLength s rest + 1) 0 (minLength s rest)).bind
      (sliceTo s) = _
    rw [hsearch, Option.bind_some, sliceTo, if_pos hs]
  · refine List.forall_mem_cons.mpr ⟨List.take_prefix n s, fun t ht => ?_⟩
    rw [← hcommon t ht]
    exact List.take_prefix n t
  · intro q hq
    have hlen : q.length ≤ n := by
      obtain ⟨t, ht, heq⟩ := exists_minLength s rest
      refine hmost q.length (heq ▸ (hq t ht).length_le) fun u hu => ?_
      rw [← List.prefix_iff_eq_take.mp (hq u (List.mem_cons_of_mem _ hu)),
        ← List.prefix_iff_eq_take.mp (hq s (by simp))]
    rw [List.prefix_iff_eq_take.mp (hq s (by simp))]
    exact List.take_prefix_take_left hlen

/-- For every list that is not empty the search ends, slices no string beyond its end, and
    returns a common prefix of which no common prefix is longer. -/
theorem longestCommonPrefix_longest (s : GoString) (strs : List GoString) :
    ∃ p, longestCommonPrefix (s :: strs) = some p ∧ (∀ t ∈ s :: strs, p <+: t) ∧
      ∀ q : GoString, (∀ t ∈ s :: strs, q <+: t) → q.length ≤ p.length := by
  obtain ⟨p, hp, hcommon⟩ := longestCommonPrefix_spec (List.cons_ne_nil s strs)
  exact ⟨p, hp, hcommon.common, fun q hq => (hcommon.longest q hq).length_le⟩

/-! ## The listing -/

/-- `fmt.Sprintf("%-<width>s", s)`: the width counts runes. The parser of the format gives
    up on a number of which more digits follow when it has passed a million, and finds no
    verb then. -/
def sprintfLeft (width : ℕ) (s : GoString) : GoString :=
  if width < 10000010 then s ++ List.replicate (width - (runes s).length) 32
  else str "%!(NOVERB)%!(EXTRA string=" ++ s ++ str ")"

/-- `LongestStr` (lines 131–140). -/
def longestStr (strs : List GoString) : GoString :=
  strs.foldl (fun longest s => if longest.length ≤ s.length then s else longest) []

/-- One round of the loop of `Pretty` (lines 148–156). -/
def prettyItem (length : ℕ) (lineCount : ℤ) (index : ℕ) (s : GoString) : Option GoString :=
  if index = 0 then some (sprintfLeft length s)
  else if lineCount = 0 then none
  else if (index : ℤ).tmod lineCount = 0 then some (10 :: sprintfLeft length s)
  else some (sprintfLeft length s)

/-- Its loop. -/
def prettyFrom (length : ℕ) (lineCount : ℤ) : ℕ → List GoString → Option GoString
  | _, [] => some []
  | index, s :: strs => do
    let item ← prettyItem length lineCount index s
    let rest ← prettyFrom length lineCount (index + 1) strs
    return item ++ rest

/-- `Pretty` (lines 142–160). -/
def pretty (strs : List GoString) (width : ℤ) : Option GoString :=
  let length := (longestStr strs).length + 4
  prettyFrom length (width.tdiv length) 0 strs

/-- The common width of the columns. -/
def columnWidth (strs : List GoString) : ℕ := (strs.map List.length).foldr max 0 + 4

theorem columnWidth_perm {strs strs' : List GoString} (h : strs.Perm strs') :
    columnWidth strs = columnWidth strs' := by
  unfold columnWidth
  rw [(h.map List.length).foldr_eq]

/-- A string padded to a column. -/
def padTo (length : ℕ) (s : GoString) : GoString :=
  s ++ List.replicate (length - (runes s).length) 32

/-- The items from `index` on, `columns` of them on a line. -/
def listingFrom (length columns : ℕ) : ℕ → List GoString → GoString
  | _, [] => []
  | index, s :: strs =>
    (if 0 < index ∧ columns ∣ index then [10] else []) ++ padTo length s ++
      listingFrom length columns (index + 1) strs

/-- All the strings in order, padded, with a line break before every item whose index is a
    positive multiple of `columns`. -/
def listing (length columns : ℕ) (strs : List GoString) : GoString :=
  listingFrom length columns 0 strs

theorem length_longestStr (strs : List GoString) :
    (longestStr strs).length + 4 = columnWidth strs := by
  have hfold : ∀ (l : List GoString) (s : GoString),
      (l.foldl (fun longest s => if longest.length ≤ s.length then s else longest) s).length =
        max s.length ((l.map List.length).foldr max 0) := by
    intro l
    induction l with
    | nil => simp
    | cons t l ih =>
      intro s
      rw [List.foldl_cons, ih, List.map_cons, List.foldr_cons]
      split_ifs <;> omega
  rw [longestStr, columnWidth, hfold, List.length_nil, Nat.zero_max]

theorem le_columnWidth {strs : List GoString} {s : GoString} (h : s ∈ strs) :
    s.length + 4 ≤ columnWidth strs := by
  unfold columnWidth
  induction strs with
  | nil => cases h
  | cons t strs ih =>
    rw [List.map_cons, List.foldr_cons]
    rcases List.mem_cons.mp h with rfl | h
    · omega
    · have := ih h
      omega

section Listing

variable {length : ℕ} {k : ℕ}

/-- With at least one column the loop writes the table, if `fmt` knows the width. -/
theorem prettyFrom_eq (hlen : length < 10000010) (hk : 0 < k) (index : ℕ) (strs : List GoString) :
    prettyFrom length k index strs = some (listingFrom length k index strs) := by
  induction strs generalizing index with
  | nil => rfl
  | cons s strs ih =>
    have hitem : prettyItem length k index s =
        some ((if 0 < index ∧ k ∣ index then [10] else []) ++ padTo length s) := by
      unfold prettyItem sprintfLeft
      rw [if_pos hlen]
      by_cases h0 : index = 0
      · simp [h0, padTo]
      · have hmod : (index : ℤ).tmod k = 0 ↔ k ∣ index := by
          rw [← Int.dvd_iff_tmod_eq_zero]
          exact Int.natCast_dvd_natCast
        rw [if_neg h0, if_neg (by omega)]
        by_cases hdvd : k ∣ index
        · rw [if_pos (hmod.mpr hdvd), if_pos ⟨by omega, hdvd⟩]
          rfl
        · rw [if_neg (fun h => hdvd (hmod.mp h)), if_neg (fun h => hdvd h.2)]
          rfl
    rw [prettyFrom, hitem, ih (index + 1)]
    rfl

/-- Without a column the second item divides by zero. -/
theorem prettyFrom_zero (strs : List GoString) :
    prettyFrom length 0 0 strs = match strs with
      | [] => some []
      | [s] => some (sprintfLeft length s)
      | _ :: _ :: _ => none := by
  match strs with
  | [] => rfl
  | [s] => simp [prettyFrom, prettyItem]
  | s :: t :: strs => simp [prettyFrom, prettyItem]

/-- A column is wider than its item. -/
theorem getLast?_padTo {s : GoString} (h : s.length < length) :
    (padTo length s).getLast? = some 32 := by
  have hpos : length - (runes s).length ≠ 0 := by
    have := length_runes_le s
    omega
  obtain ⟨n, hn⟩ := Nat.exists_eq_succ_of_ne_zero hpos
  rw [padTo, hn, List.replicate_succ', ← List.append_assoc, List.getLast?_concat]

theorem getLast?_listingFrom {strs : List GoString} (hne : strs ≠ [])
    (h : ∀ s ∈ strs, s.length < length) (index : ℕ) :
    (listingFrom length k index strs).getLast? = some 32 := by
  induction strs generalizing index with
  | nil => exact absurd rfl hne
  | cons s strs ih =>
    obtain ⟨hs, hstrs⟩ := List.forall_mem_cons.mp h
    rw [listingFrom, List.getLast?_append, List.getLast?_append, getLast?_padTo hs]
    by_cases hnil : strs = []
    · subst hnil
      rfl
    · rw [ih hnil hstrs (index + 1)]
      rfl

/-- With a width that `fmt` does not know there are no columns. -/
theorem getLast?_prettyFrom (hlen : 10000010 ≤ length) {lineCount : ℤ} {strs : List GoString}
    (hne : strs ≠ []) {index : ℕ} {out : GoString}
    (h : prettyFrom length lineCount index strs = some out) : out.getLast? = some 41 := by
  induction strs generalizing index out with
  | nil => exact absurd rfl hne
  | cons s strs ih =>
    rw [prettyFrom] at h
    obtain ⟨item, hitem, h⟩ := Option.bind_eq_some_iff.mp h
    obtain ⟨rest, hrest, h⟩ := Option.bind_eq_some_iff.mp h
    cases h
    have hsprintf : (sprintfLeft length s).getLast? = some 41 := by
      rw [sprintfLeft, if_neg (by omega), List.getLast?_append]
      rfl
    have hlast : item.getLast? = some 41 := by
      unfold prettyItem at hitem
      split_ifs at hitem
      · cases hitem
        exact hsprintf
      · cases hitem
        rw [List.getLast?_cons, hsprintf]
        rfl
      · cases hitem
        exact hsprintf
    by_cases hnil : strs = []
    · subst hnil
      cases hrest
      rw [List.append_nil]
      exact hlast
    · rw [List.getLast?_append, ih hnil hrest]
      rfl

end Listing

theorem pretty_eq (strs : List GoString) (width : ℕ) :
    pretty strs width = prettyFrom (columnWidth strs) (width / columnWidth strs : ℕ) 0 strs := by
  rw [pretty, length_longestStr]
  rfl

/-- `Pretty` divides by zero exactly if there are two strings or more and no column fits. -/
theorem isSome_pretty (strs : List GoString) (width : ℕ) :
    (pretty strs width).isSome = true ↔ strs.length ≤ 1 ∨ columnWidth strs ≤ width := by
  have hwidth : 0 < columnWidth strs := Nat.succ_pos _
  rw [pretty_eq]
  by_cases hle : columnWidth strs ≤ width
  · have hk : 0 < width / columnWidth strs := Nat.div_pos hle hwidth
    refine iff_of_true ?_ (Or.inr hle)
    have hsome : ∀ (l : List GoString) (index : ℕ), (prettyFrom (columnWidth strs)
        (width / columnWidth strs : ℕ) index l).isSome = true := by
      intro l
      induction l with
      | nil => exact fun _ => rfl
      | cons s l ih =>
        intro index
        obtain ⟨rest, hrest⟩ := Option.isSome_iff_exists.mp (ih (index + 1))
        rw [prettyFrom, hrest, prettyItem]
        split_ifs with h0 hzero
        · rfl
        · omega
        · rfl
        · rfl
    exact hsome strs 0
  · rw [Nat.div_eq_of_lt (by omega)]
    show (prettyFrom (columnWidth strs) 0 0 strs).isSome = true ↔ _
    rw [prettyFrom_zero]
    match strs with
    | [] => simp
    | [s] => simp
    | s :: t :: strs =>
      refine iff_of_false (by simp) (not_or.mpr ⟨?_, hle⟩)
      rw [List.length_cons, List.length_cons]
      omega

/-- For all strings and every width: the listing is the table of all the strings, with the
    number of columns that fit but at least one, exactly if there are no strings, or `fmt`
    knows the width of the columns and there is one string or a column fits. -/
theorem pretty_iff (strs : List GoString) (width : ℕ) :
    pretty strs width =
        some (listing (columnWidth strs) (max 1 (width / columnWidth strs)) strs) ↔
      strs = [] ∨ columnWidth strs < 10000010 ∧ (strs.length = 1 ∨ columnWidth strs ≤ width) := by
  by_cases hnil : strs = []
  · subst hnil
    exact iff_of_true rfl (Or.inl rfl)
  have hpos : 0 < strs.length := List.length_pos_of_ne_nil hnil
  have hwidth : 0 < columnWidth strs := Nat.succ_pos _
  constructor
  · intro h
    right
    refine ⟨?_, ?_⟩
    · by_contra hlen
      rw [pretty_eq] at h
      have hlast := getLast?_prettyFrom (by omega) hnil h
      have hspace : (listing (columnWidth strs) (max 1 (width / columnWidth strs)) strs).getLast? =
          some 32 :=
        getLast?_listingFrom hnil (fun s hs => by have := le_columnWidth hs; omega) 0
      rw [hspace] at hlast
      cases hlast
    · have hsome := (isSome_pretty strs width).mp (by rw [h]; rfl)
      rcases hsome with hone | hle
      · exact Or.inl (by omega)
      · exact Or.inr hle
  · rintro (h | ⟨hlen, hfits⟩)
    · exact absurd h hnil
    · rw [pretty_eq]
      by_cases hle : columnWidth strs ≤ width
      · have hk : 0 < width / columnWidth strs := Nat.div_pos hle hwidth
        rw [prettyFrom_eq hlen hk, max_eq_right (by omega)]
        rfl
      · obtain ⟨s, rfl⟩ := List.length_eq_one_iff.mp (hfits.resolve_right hle)
        rw [Nat.div_eq_of_lt (by omega)]
        show prettyFrom _ 0 0 [s] = _
        rw [prettyFrom_zero]
        simp [sprintfLeft, hlen, listing, listingFrom, padTo]

/-- Two names of four letters on a terminal of seven columns. -/
theorem pretty_narrow : pretty [str "web1", str "web2"] 7 = none := by decide

end GoJump.Common
