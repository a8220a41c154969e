import Mathlib

/-!
# Go strings

A Go `string` is an immutable byte sequence, not necessarily UTF-8:
`GoString := List UInt8`. These are the operations of the packages `strings`,
`path/filepath` and `strconv` that the models use, on bytes as Go defines them.

* `contains`, `split` (by one byte), `trimSpace` of package `strings`; a space
  is any code point with the Unicode `White_Space` property, recognised by its
  UTF-8 encoding.
* `cleanPath`, `joinPath` of package `path/filepath`. `joinPath_append`: a suffix of
  the file's name is a suffix of its path.
* `atoi`, `itoa` of package `strconv`, for 64-bit `int`. `atoi_itoa`: they are
  inverse on `0 … maxInt`.
* `Casing`: a case mapping. `strings.ToLower` depends on the Unicode tables; a
  `Casing` is any mapping that agrees with them on ASCII text.
-/

namespace GoJump.Go

/-- A Go `string`. -/
abbrev GoString := List UInt8

instance : LawfulBEq GoString := inferInstance

/-- The bytes of an ASCII literal. -/
def str (s : String) : GoString := s.toList.map fun c => UInt8.ofNat c.toNat

/-- The largest value of a 64-bit `int`. -/
def maxInt : ℕ := 2 ^ 63 - 1

/-- The number is an `int`. -/
def IsInt (x : ℤ) : Prop := -(maxInt : ℤ) - 1 ≤ x ∧ x ≤ maxInt

/-- The `int` that a sum, difference or product wraps to. -/
def wrapInt (x : ℤ) : ℤ := x.bmod (2 ^ 64)

theorem wrapInt_of_isInt {x : ℤ} (h : IsInt x) : wrapInt x = x := by
  unfold IsInt maxInt at h
  exact Int.bmod_eq_of_le (by omega) (by omega)

/-- Only the result has to be an `int`, not the operands. -/
theorem wrapInt_sub (x y : ℤ) : wrapInt (wrapInt x - wrapInt y) = wrapInt (x - y) := by
  unfold wrapInt
  rw [Int.bmod_sub_bmod, Int.sub_bmod_bmod]

/-! ## Package `strings` -/

/-- `strings.Contains(s, substr)`. -/
def contains (s substr : GoString) : Bool := decide (substr <:+: s)

theorem contains_iff {s substr : GoString} : contains s substr = true ↔ substr <:+: s := by
  simp [contains]

theorem contains_self (s : GoString) : contains s s = true :=
  contains_iff.mpr List.infix_rfl

/-- `strings.Split(s, sep)` for a separator of one byte. -/
def split (s : GoString) (sep : UInt8) : List GoString := s.splitOn sep

/-- `strings.LastIndex(s, sep)` for a separator of one byte, `none` for -1. -/
def lastIndex : GoString → UInt8 → Option ℕ
  | [], _ => none
  | a :: s, sep =>
    match lastIndex s sep with
    | some r => some (r + 1)
    | none => if a = sep then some 0 else none

theorem lastIndex_eq_none {s : GoString} {sep : UInt8} : lastIndex s sep = none ↔ sep ∉ s := by
  induction s with
  | nil => simp [lastIndex]
  | cons a s ih =>
    rw [lastIndex]
    cases h : lastIndex s sep with
    | some r =>
      have hmem : sep ∈ s := by
        by_contra hnot
        rw [ih.mpr hnot] at h
        cases h
      simp [hmem]
    | none => simp [ih.mp h, eq_comm]

/-- The last separator, with what stands before and after it. -/
theorem exists_of_lastIndex {s : GoString} {sep : UInt8} {r : ℕ} (h : lastIndex s sep = some r) :
    ∃ rest, s = s.take r ++ sep :: rest ∧ sep ∉ rest := by
  induction s generalizing r with
  | nil => cases h
  | cons a s ih =>
    rw [lastIndex] at h
    cases hs : lastIndex s sep with
    | some r' =>
      rw [hs] at h
      cases h
      obtain ⟨rest, hrest, hnot⟩ := ih hs
      refine ⟨rest, ?_, hnot⟩
      rw [List.take_succ_cons, List.cons_append, ← hrest]
    | none =>
      rw [hs] at h
      dsimp only at h
      split_ifs at h with ha
      cases h
      exact ⟨s, by rw [ha]; rfl, lastIndex_eq_none.mp hs⟩

/-- Both sides of a separator are split by themselves. -/
theorem split_append_cons (s t : GoString) (sep : UInt8) :
    split (s ++ sep :: t) sep = split s sep ++ split t sep :=
  List.splitOnP_append_cons _ _ (beq_self_eq_true sep)

theorem eq_of_split_pair {s name rest : GoString} {sep : UInt8} (h : split s sep = [name, rest]) :
    s = name ++ sep :: rest := by
  have hjoin : [sep].intercalate (split s sep) = s := List.intercalate_splitOn sep
  rw [h] at hjoin
  simpa using hjoin.symm

/-- Without a separator there is one part, -/
theorem split_of_notMem {s : GoString} {sep : UInt8} (h : sep ∉ s) : split s sep = [s] := by
  apply List.splitOnP_eq_singleton
  intro b hb
  simpa using fun heq : b = sep => h (heq ▸ hb)

/-- and what follows the last separator is the last part. -/
theorem split_take_lastIndex {s : GoString} {sep : UInt8} {r : ℕ}
    (h : lastIndex s sep = some r) : split (s.take r) sep = (split s sep).dropLast := by
  obtain ⟨rest, hs, hnot⟩ := exists_of_lastIndex h
  have hsplit : split s sep = split (s.take r) sep ++ split rest sep := by
    conv_lhs => rw [hs]
    exact split_append_cons _ _ sep
  rw [hsplit, split_of_notMem hnot, List.dropLast_concat]

/-- The UTF-8 encodings of the code points for which `unicode.IsSpace` holds. -/
def spaceRunes : List GoString :=
  [[0x09], [0x0A], [0x0B], [0x0C], [0x0D], [0x20], [0xC2, 0x85], [0xC2, 0xA0],
    [0xE1, 0x9A, 0x80], [0xE2, 0x80, 0x80], [0xE2, 0x80, 0x81], [0xE2, 0x80, 0x82],
    [0xE2, 0x80, 0x83], [0xE2, 0x80, 0x84], [0xE2, 0x80, 0x85], [0xE2, 0x80, 0x86],
    [0xE2, 0x80, 0x87], [0xE2, 0x80, 0x88], [0xE2, 0x80, 0x89], [0xE2, 0x80, 0x8A],
    [0xE2, 0x80, 0xA8], [0xE2, 0x80, 0xA9], [0xE2, 0x80, 0xAF], [0xE2, 0x81, 0x9F],
    [0xE3, 0x80, 0x80]]

/-- Drop leading members of `runes`, at most `fuel` of them. -/
def trimRunes (runes : List GoString) : ℕ → GoString → GoString
  | 0, s => s
  | fuel + 1, s =>
    match runes.findSome? fun r => s.dropPrefix? r with
    | some t => trimRunes runes fuel t
    | none => s

/-- `strings.TrimSpace(s)`. The last rune of a string is a space iff the string
    ends with the encoding of one, because the first byte of an encoding occurs
    nowhere else in it; so the right end is trimmed on the reversed bytes. -/
def trimSpace (s : GoString) : GoString :=
  let t := trimRunes spaceRunes s.length s
  (trimRunes (spaceRunes.map List.reverse) t.length t.reverse).reverse

theorem trimRunes_suffix (runes : List GoString) (fuel : ℕ) (s : GoString) :
    trimRunes runes fuel s <:+ s := by
  induction fuel generalizing s with
  | zero => exact List.suffix_rfl
  | succ fuel ih =>
    rw [trimRunes]
    cases h : runes.findSome? fun r => s.dropPrefix? r with
    | none => exact List.suffix_rfl
    | some t =>
      obtain ⟨r, -, hr⟩ := List.exists_of_findSome?_eq_some h
      obtain ⟨r', hs, -⟩ := List.dropPrefix?_eq_some_iff.mp hr
      exact (ih t).trans ⟨r', hs.symm⟩

/-- With enough fuel no member is left in front. -/
theorem not_prefix_trimRunes {runes : List GoString} (hne : ∀ r ∈ runes, r ≠ []) {fuel : ℕ}
    {s : GoString} (h : s.length ≤ fuel) : ∀ r ∈ runes, ¬ r <+: trimRunes runes fuel s := by
  induction fuel generalizing s with
  | zero =>
    intro r hr hpre
    rw [trimRunes, List.length_eq_zero_iff.mp (Nat.le_zero.mp h)] at hpre
    exact hne r hr (List.prefix_nil.mp hpre)
  | succ fuel ih =>
    rw [trimRunes]
    cases hfind : runes.findSome? fun r => s.dropPrefix? r with
    | none =>
      rintro r hr ⟨t, rfl⟩
      have hnone := List.findSome?_eq_none_iff.mp hfind r hr
      have hsome : (r ++ t).dropPrefix? r = some t :=
        List.dropPrefix?_eq_some_iff.mpr ⟨r, rfl, beq_self_eq_true r⟩
      rw [hsome] at hnone
      cases hnone
    | some t =>
      obtain ⟨r, hr, hdrop⟩ := List.exists_of_findSome?_eq_some hfind
      obtain ⟨r', rfl, hr'⟩ := List.dropPrefix?_eq_some_iff.mp hdrop
      have hpos : 0 < r'.length := by
        rw [eq_of_beq hr']
        exact List.length_pos_of_ne_nil (hne r hr)
      rw [List.length_append] at h
      exact ih (by omega)

/-- A trimmed string does not begin with a space of one byte. -/
theorem head_trimSpace {s t : GoString} {b : UInt8} (h : trimSpace s = b :: t) :
    [b] ∉ spaceRunes := by
  intro hb
  have hpre : trimSpace s <+: trimRunes spaceRunes s.length s := by
    unfold trimSpace
    dsimp only
    rw [← List.reverse_suffix, List.reverse_reverse]
    exact trimRunes_suffix _ _ _
  rw [h] at hpre
  exact not_prefix_trimRunes (by decide) le_rfl [b] hb (List.IsPrefix.trans ⟨t, rfl⟩ hpre)

/-- The lower case of an ASCII byte. -/
def asciiLower (b : UInt8) : UInt8 := if 65 ≤ b ∧ b ≤ 90 then b + 32 else b

/-- A case mapping: `strings.ToLower`, of which only its values on ASCII text
    are fixed here, and that it maps what stands before and after an ASCII byte by itself:
    such a byte is no part of a longer code point. -/
structure Casing where
  toLower : GoString → GoString
  toLower_ascii : ∀ s : GoString, (∀ b ∈ s, b < 0x80) → toLower s = s.map asciiLower
  toLower_append : ∀ (s : GoString) (b : UInt8) (t : GoString), b < 0x80 →
    toLower (s ++ b :: t) = toLower s ++ asciiLower b :: toLower t

/-- The mapping that changes ASCII letters only. -/
def asciiCasing : Casing :=
  ⟨List.map asciiLower, fun _ _ => rfl, fun _ _ _ _ => List.map_append⟩

/-! ## Package `path/filepath` -/

/-- One element of a path in `filepath.Clean`, on the elements kept so far, the last one
    first; 46 is the dot. -/
def pushElem (rooted : Bool) (kept : List GoString) (elem : GoString) : List GoString :=
  if elem = [] ∨ elem = [46] then kept
  else if elem = [46, 46] then
    match kept with
    | [] => if rooted then [] else [elem]
    | last :: rest => if last = [46, 46] then elem :: kept else rest
  else elem :: kept

/-- `filepath.Clean(path)`; 47 is the slash. -/
def cleanPath (path : GoString) : GoString :=
  let rooted := path.head? == some 47
  let cleaned := [47].intercalate ((split path 47).foldl (pushElem rooted) []).reverse
  if rooted then 47 :: cleaned else if cleaned = [] then [46] else cleaned

/-- `filepath.Join(dir, file)`, in which an empty `dir` is left out. -/
def joinPath (dir file : GoString) : GoString :=
  if dir ≠ [] then cleanPath (dir ++ 47 :: file) else if file ≠ [] then cleanPath file else []

/-- The name of a file in its directory. -/
def baseName (path : GoString) : GoString :=
  match lastIndex path 47 with
  | some r => path.drop (r + 1)
  | none => path

theorem pushElem_of_length {rooted : Bool} {kept : List GoString} {elem : GoString}
    (h : 3 ≤ elem.length) : pushElem rooted kept elem = elem :: kept := by
  have hne : ∀ l : GoString, l.length < 3 → elem ≠ l := by
    rintro l hl rfl
    omega
  unfold pushElem
  rw [if_neg (not_or.mpr ⟨hne [] (by decide), hne [46] (by decide)⟩),
    if_neg (hne [46, 46] (by decide))]

theorem intercalate_append_suffix (sep : GoString) (L : List GoString) (name suffix : GoString) :
    sep.intercalate (L ++ [name ++ suffix]) = sep.intercalate (L ++ [name]) ++ suffix := by
  induction L with
  | nil => simp
  | cons l L ih =>
    have hcons : ∀ n, sep.intercalate (l :: L ++ [n]) = l ++ sep ++ sep.intercalate (L ++ [n]) := by
      intro n
      cases L with
      | nil => simp [List.intercalate_cons_cons]
      | cons l' L => rw [List.cons_append, List.cons_append, List.intercalate_cons_cons]
    rw [hcons, hcons, ih, ← List.append_assoc (l ++ sep)]

/-- A suffix of the last element is a suffix of the cleaned path. -/
theorem cleanPath_append {pre name suffix : GoString} {L : List GoString}
    (hsplit : ∀ n : GoString, 47 ∉ n → split (pre ++ n) 47 = L ++ [n]) (hname : 47 ∉ name)
    (hlen : 3 ≤ name.length) (hsuffix : 47 ∉ suffix) :
    cleanPath (pre ++ (name ++ suffix)) = cleanPath (pre ++ name) ++ suffix := by
  have hhead : (pre ++ (name ++ suffix)).head? = (pre ++ name).head? := by
    rw [← List.append_assoc, List.head?_append_of_ne_nil]
    intro h
    have := congrArg List.length h
    rw [List.length_append, List.length_nil] at this
    omega
  have hboth : 47 ∉ name ++ suffix := fun h =>
    (List.mem_append.mp h).elim hname hsuffix
  have hpush : ∀ (rooted : Bool) (n : GoString), 3 ≤ n.length →
      (List.foldl (pushElem rooted) [] (L ++ [n])).reverse =
        (List.foldl (pushElem rooted) [] L).reverse ++ [n] := by
    intro rooted n hn
    rw [List.foldl_append, List.foldl_cons, List.foldl_nil, pushElem_of_length hn,
      List.reverse_cons]
  have hnonempty : ∀ (L' : List GoString), [47].intercalate (L' ++ [name]) ≠ [] := by
    intro L' h
    have hmem := intercalate_append_suffix [47] L' [] name
    rw [List.nil_append, h] at hmem
    have := congrArg List.length hmem
    rw [List.length_append, List.length_nil] at this
    omega
  simp only [cleanPath, hsplit _ hname, hsplit _ hboth, hhead, hpush _ name hlen,
    hpush _ (name ++ suffix) (by rw [List.length_append]; omega), intercalate_append_suffix]
  split_ifs with hroot hnil hnil' hnil'
  · rfl
  · exact absurd (List.append_eq_nil_iff.mp hnil).1 (hnonempty _)
  · exact absurd (List.append_eq_nil_iff.mp hnil).1 (hnonempty _)
  · exact absurd hnil' (hnonempty _)
  · rfl

/-- Every path is an element without a slash after what it is split into before. -/
theorem exists_split_append (path : GoString) :
    ∃ pre name L, path = pre ++ name ∧ 47 ∉ name ∧
      ∀ n : GoString, 47 ∉ n → split (pre ++ n) 47 = L ++ [n] := by
  cases h : lastIndex path 47 with
  | none =>
    exact ⟨[], path, [], rfl, lastIndex_eq_none.mp h, fun n hn => split_of_notMem hn⟩
  | some r =>
    obtain ⟨rest, hpath, hrest⟩ := exists_of_lastIndex h
    refine ⟨path.take r ++ [47], rest, split (path.take r) 47, ?_, hrest, ?_⟩
    · rw [List.append_assoc]
      exact hpath
    · intro n hn
      rw [List.append_assoc, List.singleton_append, split_append_cons, split_of_notMem hn]

/-- Two files whose names differ by a suffix have paths that differ by it. -/
theorem joinPath_append {dir base ext suffix : GoString} (hext : 47 ∉ ext) (hlen : 3 ≤ ext.length)
    (hsuffix : 47 ∉ suffix) :
    joinPath dir (base ++ ext ++ suffix) = joinPath dir (base ++ ext) ++ suffix := by
  have hclean : ∀ before : GoString, cleanPath (before ++ ext ++ suffix) =
      cleanPath (before ++ ext) ++ suffix := by
    intro before
    obtain ⟨pre, name, L, hpath, hname, hsplit⟩ := exists_split_append before
    rw [hpath, List.append_assoc, List.append_assoc, List.append_assoc, ← List.append_assoc name]
    refine cleanPath_append hsplit ?_ ?_ hsuffix
    · exact fun h => (List.mem_append.mp h).elim hname hext
    · rw [List.length_append]
      omega
  have hne : ∀ rest : GoString, base ++ ext ++ rest ≠ [] := by
    intro rest h
    have := congrArg List.length h
    simp only [List.length_append, List.length_nil] at this
    omega
  have hne' : base ++ ext ≠ [] := by simpa using hne []
  unfold joinPath
  by_cases hdir : dir ≠ []
  · rw [if_pos hdir, if_pos hdir]
    have := hclean (dir ++ 47 :: base)
    simpa only [List.append_assoc, List.cons_append] using this
  · rw [if_neg hdir, if_neg hdir, if_pos (hne suffix), if_pos hne']
    exact hclean base

/-! ## Package `strconv` -/

/-- The value of a decimal digit. -/
def digit (b : UInt8) : Option ℕ := if 48 ≤ b ∧ b ≤ 57 then some (b.toNat - 48) else none

/-- The loop `n = n*10 + int(ch)` of `strconv.Atoi`. -/
def parseDigits : ℕ → GoString → Option ℕ
  | n, [] => some n
  | n, b :: s => (digit b).bind fun d => parseDigits (n * 10 + d) s

/-- The magnitude part of `strconv.Atoi`: at least one digit, nothing else, and
    a value up to `limit`. -/
def parseUint (limit : ℕ) (s : GoString) : Option ℕ :=
  if s = [] then none
  else (parseDigits 0 s).bind fun n => if n ≤ limit then some n else none

/-- `strconv.Atoi(s)`, `none` when it returns an error. -/
def atoi : GoString → Option ℤ
  | [] => none
  | b :: s =>
    if b = 45 then (parseUint (maxInt + 1) s).map fun n : ℕ => -(n : ℤ)
    else if b = 43 then (parseUint maxInt s).map fun n : ℕ => (n : ℤ)
    else (parseUint maxInt (b :: s)).map fun n : ℕ => (n : ℤ)

theorem digit_eq_some {b : UInt8} {d : ℕ} (h : digit b = some d) : 48 ≤ b ∧ b ≤ 57 := by
  unfold digit at h
  split_ifs at h with hb
  exact hb

theorem parseUint_cons {limit n : ℕ} {b : UInt8} {s : GoString}
    (h : parseUint limit (b :: s) = some n) : 48 ≤ b ∧ b ≤ 57 := by
  unfold parseUint at h
  rw [if_neg (List.cons_ne_nil b s)] at h
  obtain ⟨m, hm, _⟩ := Option.bind_eq_some_iff.mp h
  obtain ⟨d, hd, _⟩ := Option.bind_eq_some_iff.mp hm
  exact digit_eq_some hd

/-- A number starts with a sign or a digit, -/
theorem atoi_cons {b : UInt8} {s : GoString} {n : ℤ} (h : atoi (b :: s) = some n) :
    b = 45 ∨ b = 43 ∨ (48 ≤ b ∧ b ≤ 57) := by
  simp only [atoi] at h
  split_ifs at h with h1 h2
  · exact Or.inl h1
  · exact Or.inr (Or.inl h2)
  · obtain ⟨m, hm, _⟩ := Option.map_eq_some_iff.mp h
    exact Or.inr (Or.inr (parseUint_cons hm))

/-- and a number of one byte is a digit. -/
theorem atoi_singleton {b : UInt8} {n : ℤ} (h : atoi [b] = some n) : 48 ≤ b ∧ b ≤ 57 := by
  rcases atoi_cons h with rfl | rfl | hb
  · cases h
  · cases h
  · exact hb

/-- The byte of a decimal digit. -/
def digitByte (d : ℕ) : UInt8 := UInt8.ofNat (48 + d)

/-- `strconv.Itoa(n)` for `n ≥ 0`. -/
def itoa (n : ℕ) : GoString :=
  if n = 0 then [48] else ((Nat.digits 10 n).map digitByte).reverse

theorem digitByte_toNat {d : ℕ} (h : d < 10) : (digitByte d).toNat = 48 + d := by
  simp only [digitByte, UInt8.toNat_ofNat']
  omega

theorem digit_digitByte {d : ℕ} (h : d < 10) : digit (digitByte d) = some d := by
  have hb := digitByte_toNat h
  have h1 : (48 : UInt8) ≤ digitByte d := by rw [UInt8.le_iff_toNat_le, hb]; simp
  have h2 : digitByte d ≤ (57 : UInt8) := by rw [UInt8.le_iff_toNat_le, hb]; simp; omega
  rw [digit, if_pos ⟨h1, h2⟩, hb]
  simp

theorem parseDigits_map {ds : List ℕ} (h : ∀ d ∈ ds, d < 10) (n : ℕ) :
    parseDigits n (ds.map digitByte) = some (ds.foldl (fun n d => n * 10 + d) n) := by
  induction ds generalizing n with
  | nil => rfl
  | cons d ds ih =>
    rw [List.map_cons, parseDigits, digit_digitByte (h d (by simp)), Option.bind_some,
      ih (fun e he => h e (by simp [he])), List.foldl_cons]

/-- The bytes of a number are digits. -/
theorem mem_itoa {n : ℕ} {b : UInt8} (h : b ∈ itoa n) : 48 ≤ b ∧ b ≤ 57 := by
  unfold itoa at h
  split_ifs at h with h0
  · rw [List.mem_singleton] at h
    subst h
    decide
  · rw [List.mem_reverse, List.mem_map] at h
    obtain ⟨d, hd, rfl⟩ := h
    have hd' := Nat.digits_lt_base (by norm_num : 1 < 10) hd
    have hb := digitByte_toNat hd'
    constructor <;> rw [UInt8.le_iff_toNat_le, hb] <;> simp
    omega

theorem itoa_ne_nil (n : ℕ) : itoa n ≠ [] := by
  unfold itoa
  split_ifs with h0
  · simp
  · simp [Nat.digits_ne_nil_iff_ne_zero.mpr h0]

theorem parseDigits_itoa (n : ℕ) : parseDigits 0 (itoa n) = some n := by
  unfold itoa
  split_ifs with h0
  · subst h0; decide
  · rw [← List.map_reverse, parseDigits_map]
    · rw [List.foldl_reverse]
      have := Nat.ofDigits_digits 10 n
      rw [Nat.ofDigits_eq_foldr] at this
      conv_rhs => rw [← this]
      congr 2
      funext d m
      simp only [Nat.cast_id]
      ring
    · intro d hd
      exact Nat.digits_lt_base (by norm_num) (List.mem_reverse.mp hd)

theorem parseUint_itoa {n limit : ℕ} (h : n ≤ limit) : parseUint limit (itoa n) = some n := by
  rw [parseUint, if_neg (itoa_ne_nil n), parseDigits_itoa, Option.bind_some, if_pos h]

theorem atoi_itoa {n : ℕ} (h : n ≤ maxInt) : atoi (itoa n) = some (n : ℤ) := by
  obtain ⟨b, s, hbs⟩ := List.exists_cons_of_ne_nil (itoa_ne_nil n)
  have hb : 48 ≤ b ∧ b ≤ 57 := mem_itoa (n := n) (by rw [hbs]; simp)
  have h45 : b ≠ 45 := by rintro rfl; exact absurd hb.1 (by decide)
  have h43 : b ≠ 43 := by rintro rfl; exact absurd hb.1 (by decide)
  rw [hbs, atoi, if_neg h45, if_neg h43, ← hbs, parseUint_itoa h]
  rfl

/-- `strconv.Itoa(z)`. -/
def itoaInt (z : ℤ) : GoString := if z < 0 then 45 :: itoa z.natAbs else itoa z.toNat

theorem atoi_itoaInt {z : ℤ} (hlo : -(maxInt + 1 : ℤ) ≤ z) (hhi : z ≤ maxInt) :
    atoi (itoaInt z) = some z := by
  unfold itoaInt
  split_ifs with hz
  · rw [atoi, if_pos rfl, parseUint_itoa (by omega), Option.map_some]
    congr 1
    omega
  · rw [atoi_itoa (by omega)]
    congr 1
    omega

/-! ## Strings without outer spaces -/

/-- The bytes outside the printable ASCII range. -/
def outsidePrintable (b : UInt8) : Bool := b < 33 || 126 < b

/-- A string that begins with a printable byte begins with no rune whose first
    byte is not printable. -/
theorem trimRunes_of_printable {runes : List GoString}
    (hr : ∀ r ∈ runes, r.head?.any outsidePrintable = true) {b : UInt8} {s : GoString}
    (hb : outsidePrintable b = false) (fuel : ℕ) : trimRunes runes fuel (b :: s) = b :: s := by
  cases fuel with
  | zero => rfl
  | succ fuel =>
    have hnone : ∀ r ∈ runes, (b :: s).dropPrefix? r = none := by
      intro r hmem
      have := hr r hmem
      cases r with
      | nil => simp at this
      | cons x r =>
        have hne : ¬ b = x := by
          rintro rfl
          simp [hb] at this
        simp [List.dropPrefix?, hne]
    rw [trimRunes, List.findSome?_eq_none_iff.mpr hnone]

theorem trimSpace_of_printable {s : GoString} (hne : s ≠ [])
    (hs : ∀ b ∈ s, outsidePrintable b = false) : trimSpace s = s := by
  obtain ⟨b, t, rfl⟩ := List.exists_cons_of_ne_nil hne
  obtain ⟨c, u, hcu⟩ := List.exists_cons_of_ne_nil (l := (b :: t).reverse) (by simp)
  have hc : outsidePrintable c = false := hs c (by rw [← List.mem_reverse, hcu]; simp)
  rw [trimSpace, trimRunes_of_printable (by decide) (hs b (by simp))]
  rw [hcu, trimRunes_of_printable (by decide) hc, ← hcu, List.reverse_reverse]

theorem trimSpace_itoa (n : ℕ) : trimSpace (itoa n) = itoa n := by
  apply trimSpace_of_printable (itoa_ne_nil n)
  intro b hb
  obtain ⟨h1, h2⟩ := mem_itoa hb
  rw [UInt8.le_iff_toNat_le] at h1 h2
  simp only [outsidePrintable, Bool.or_eq_false_iff, decide_eq_false_iff_not, UInt8.lt_iff_toNat_lt]
  simp only [UInt8.toNat_ofNat] at h1 h2 ⊢
  omega

/-- Numbers have no letters. -/
theorem Casing.toLower_itoa (C : Casing) (n : ℕ) : C.toLower (itoa n) = itoa n := by
  rw [C.toLower_ascii]
  · conv_rhs => rw [← List.map_id (itoa n)]
    apply List.map_congr_left
    intro b hb
    obtain ⟨_, h2⟩ := mem_itoa hb
    have : ¬ (65 : UInt8) ≤ b := by
      rw [UInt8.le_iff_toNat_le] at h2 ⊢
      simp only [UInt8.toNat_ofNat] at h2 ⊢
      omega
    simp [asciiLower, this]
  · intro b hb
    obtain ⟨_, h2⟩ := mem_itoa hb
    rw [UInt8.le_iff_toNat_le] at h2
    rw [UInt8.lt_iff_toNat_lt]
    simp only [UInt8.toNat_ofNat] at h2 ⊢
    omega

end GoJump.Go
