import GoJump.Go.Strings

/-!
# UTF-8

Package `unicode/utf8` on Go strings, and what `encoding/json` makes of the bytes of a
string: it decodes rune by rune, and a byte at which no rune begins comes back as
U+FFFD, whose encoding has three bytes.

* `isRune_cases`: the bytes of a rune, by its length.
* `fullRune_append`, `fullRune_of_prefix`: a rune is complete with its last byte, and not
  before.
* `utf8Valid_iff`: the valid strings are the concatenations of runes.
* `ofRunes_runes_eq_iff`: a string comes back from its code points exactly if it is valid.
* `flatten_toValidUTF8_iff`: replacing the invalid bytes of each part of a text by
  itself gives back the text exactly if every part is valid.
-/

namespace GoJump.Go

/-! ## Runes -/

/-- A byte that continues a rune. -/
def isTail (b : UInt8) : Bool := decide (0x80 ≤ b.toNat ∧ b.toNat ≤ 0xBF)

/-- The byte is in the range. -/
def inRange (lo hi : ℕ) (b : UInt8) : Bool := decide (lo ≤ b.toNat ∧ b.toNat ≤ hi)

/-- The encodings of one rune: no surrogates, nothing above U+10FFFF, and only the
    shortest form. -/
def isRune : GoString → Bool
  | [a] => inRange 0x00 0x7F a
  | [a, b] => inRange 0xC2 0xDF a && isTail b
  | [a, b, c] =>
    (inRange 0xE0 0xE0 a && inRange 0xA0 0xBF b || inRange 0xE1 0xEC a && isTail b ||
      inRange 0xED 0xED a && inRange 0x80 0x9F b || inRange 0xEE 0xEF a && isTail b) && isTail c
  | [a, b, c, d] =>
    (inRange 0xF0 0xF0 a && inRange 0x90 0xBF b || inRange 0xF1 0xF3 a && isTail b ||
      inRange 0xF4 0xF4 a && inRange 0x80 0x8F b) && isTail c && isTail d
  | _ => false

/-- The length of a rune that begins with this byte. -/
def leadLen (a : UInt8) : ℕ :=
  if a.toNat ≤ 0x7F then 1 else if a.toNat ≤ 0xDF then 2 else if a.toNat ≤ 0xEF then 3 else 4

/-- The number of bytes of the rune at the beginning, or 0 if there is none:
    `utf8.DecodeRune`, which then returns `RuneError` and width 1. -/
def runeLen : GoString → ℕ
  | [] => 0
  | a :: rest => if isRune ((a :: rest).take (leadLen a)) then leadLen a else 0

theorem leadLen_pos (a : UInt8) : 0 < leadLen a := by
  unfold leadLen
  split_ifs <;> omega

/-- What the bytes of a rune are, by its length. -/
theorem isRune_cases {r : GoString} (h : isRune r = true) :
    (∃ a : UInt8, r = [a] ∧ a.toNat ≤ 0x7F) ∨
    (∃ a b : UInt8, r = [a, b] ∧ 0xC2 ≤ a.toNat ∧ a.toNat ≤ 0xDF ∧
      0x80 ≤ b.toNat ∧ b.toNat ≤ 0xBF) ∨
    (∃ a b c : UInt8, r = [a, b, c] ∧ 0xE0 ≤ a.toNat ∧ a.toNat ≤ 0xEF ∧
      0x80 ≤ b.toNat ∧ b.toNat ≤ 0xBF ∧ (a.toNat = 0xE0 → 0xA0 ≤ b.toNat) ∧
      (a.toNat = 0xED → b.toNat ≤ 0x9F) ∧ 0x80 ≤ c.toNat ∧ c.toNat ≤ 0xBF) ∨
    ∃ a b c d : UInt8, r = [a, b, c, d] ∧ 0xF0 ≤ a.toNat ∧ a.toNat ≤ 0xF4 ∧
      0x80 ≤ b.toNat ∧ b.toNat ≤ 0xBF ∧ (a.toNat = 0xF0 → 0x90 ≤ b.toNat) ∧
      (a.toNat = 0xF4 → b.toNat ≤ 0x8F) ∧ 0x80 ≤ c.toNat ∧ c.toNat ≤ 0xBF ∧
      0x80 ≤ d.toNat ∧ d.toNat ≤ 0xBF := by
  match r with
  | [] => cases h
  | [a] =>
    simp only [isRune, inRange, decide_eq_true_eq] at h
    exact Or.inl ⟨a, rfl, h.2⟩
  | [a, b] =>
    simp only [isRune, isTail, inRange, Bool.and_eq_true, decide_eq_true_eq] at h
    exact Or.inr (Or.inl ⟨a, b, rfl, by omega⟩)
  | [a, b, c] =>
    simp only [isRune, isTail, inRange, Bool.and_eq_true, Bool.or_eq_true, decide_eq_true_eq] at h
    exact Or.inr (Or.inr (Or.inl ⟨a, b, c, rfl, by omega⟩))
  | [a, b, c, d] =>
    simp only [isRune, isTail, inRange, Bool.and_eq_true, Bool.or_eq_true, decide_eq_true_eq] at h
    exact Or.inr (Or.inr (Or.inr ⟨a, b, c, d, rfl, by omega⟩))
  | a :: b :: c :: d :: e :: rest => cases h

/-- The first byte of a rune tells its length. -/
theorem length_of_isRune {r : GoString} (h : isRune r = true) :
    ∃ a rest, r = a :: rest ∧ r.length = leadLen a := by
  unfold leadLen
  obtain ⟨a, rfl, ha⟩ | ⟨a, b, rfl, hab⟩ | ⟨a, b, c, rfl, habc⟩ | ⟨a, b, c, d, rfl, habcd⟩ :=
    isRune_cases h
  · exact ⟨a, [], rfl, by rw [if_pos ha]; rfl⟩
  · exact ⟨a, [b], rfl, by rw [if_neg (by omega), if_pos (by omega)]; rfl⟩
  · exact ⟨a, [b, c], rfl, by rw [if_neg (by omega), if_neg (by omega), if_pos (by omega)]; rfl⟩
  · exact ⟨a, [b, c, d], rfl, by
      rw [if_neg (by omega), if_neg (by omega), if_neg (by omega)]; rfl⟩

theorem runeLen_append {r : GoString} (h : isRune r = true) (s : GoString) :
    runeLen (r ++ s) = r.length := by
  obtain ⟨a, rest, rfl, hlen⟩ := length_of_isRune h
  have htake : (a :: (rest ++ s)).take (leadLen a) = a :: rest := by
    rw [← hlen, ← List.cons_append, List.take_left]
  rw [List.cons_append, runeLen, htake, if_pos h, hlen]

/-- A rune at the beginning of the string, and what follows it. -/
theorem exists_of_runeLen {s : GoString} {n : ℕ} (h : runeLen s = n + 1) :
    ∃ r rest, s = r ++ rest ∧ isRune r = true ∧ r.length = n + 1 := by
  cases s with
  | nil => cases h
  | cons a t =>
    rw [runeLen] at h
    split_ifs at h with hr
    refine ⟨(a :: t).take (leadLen a), (a :: t).drop (leadLen a),
      (List.take_append_drop _ _).symm, hr, ?_⟩
    obtain ⟨a', rest, heq, hlen⟩ := length_of_isRune hr
    obtain ⟨m, hm⟩ := Nat.exists_eq_succ_of_ne_zero (Nat.ne_of_gt (leadLen_pos a))
    rw [hm, List.take_succ_cons] at heq
    obtain ⟨rfl, _⟩ := List.cons.inj heq
    rw [hlen, h]

/-- `utf8.RuneError`, U+FFFD. -/
def runeError : ℕ := 0xFFFD

/-- The encoding of U+FFFD. -/
def replacement : GoString := [0xEF, 0xBF, 0xBD]

/-- The code point of the encoding of one rune. -/
def runeValue : GoString → ℕ
  | [a] => a.toNat
  | [a, b] => a.toNat % 32 * 64 + b.toNat % 64
  | [a, b, c] => (a.toNat % 16 * 64 + b.toNat % 64) * 64 + c.toNat % 64
  | [a, b, c, d] => ((a.toNat % 8 * 64 + b.toNat % 64) * 64 + c.toNat % 64) * 64 + d.toNat % 64
  | _ => runeError

/-- `utf8.DecodeRune`: the code point and the number of its bytes. -/
def decodeRune : GoString → ℕ × ℕ
  | [] => (runeError, 0)
  | a :: rest =>
    match runeLen (a :: rest) with
    | 0 => (runeError, 1)
    | n + 1 => (runeValue ((a :: rest).take (n + 1)), n + 1)

/-- The code points after the next `skip` bytes. -/
def runesFrom : ℕ → GoString → List ℕ
  | _, [] => []
  | skip + 1, _ :: rest => runesFrom skip rest
  | 0, b :: rest =>
    (decodeRune (b :: rest)).1 :: runesFrom ((decodeRune (b :: rest)).2 - 1) rest

/-- The code points of a string, as `range` and `[]rune(s)` go through them. -/
def runes (s : GoString) : List ℕ := runesFrom 0 s

/-- There are no more code points than bytes. -/
theorem length_runes_le (s : GoString) : (runes s).length ≤ s.length := by
  have hfrom : ∀ (s : GoString) (skip : ℕ), (runesFrom skip s).length ≤ s.length := by
    intro s
    induction s with
    | nil => intro skip; cases skip <;> exact le_rfl
    | cons b s ih =>
      intro skip
      cases skip with
      | zero => exact Nat.succ_le_succ (ih _)
      | succ skip => exact (ih skip).trans (Nat.le_succ _)
  exact hfrom s 0

/-- The size of the rune that this byte begins, 1 if it begins none, and the range of its
    second byte: the table `first` of package `unicode/utf8`. -/
def firstByte (a : UInt8) : ℕ × ℕ × ℕ :=
  if inRange 0xC2 0xDF a then (2, 0x80, 0xBF)
  else if inRange 0xE0 0xE0 a then (3, 0xA0, 0xBF)
  else if inRange 0xED 0xED a then (3, 0x80, 0x9F)
  else if inRange 0xE1 0xEF a then (3, 0x80, 0xBF)
  else if inRange 0xF0 0xF0 a then (4, 0x90, 0xBF)
  else if inRange 0xF1 0xF3 a then (4, 0x80, 0xBF)
  else if inRange 0xF4 0xF4 a then (4, 0x80, 0x8F)
  else (1, 0x80, 0xBF)

/-- `utf8.FullRune`: the bytes begin with a complete rune, or with none. -/
def fullRune : GoString → Bool
  | [] => false
  | a :: rest =>
    let (size, lo, hi) := firstByte a
    if size ≤ rest.length + 1 then true
    else match rest with
      | [] => false
      | [b] => !inRange lo hi b
      | b :: c :: _ => !inRange lo hi b || !isTail c

/-- The encoding of a code point, as `string(r)` writes it: U+FFFD for what is none. -/
def runeBytes (r : ℕ) : GoString :=
  if r < 0x80 then [UInt8.ofNat r]
  else if r < 0x800 then [UInt8.ofNat (0xC0 + r / 64), UInt8.ofNat (0x80 + r % 64)]
  else if 0xD800 ≤ r ∧ r < 0xE000 ∨ 0x10FFFF < r then replacement
  else if r < 0x10000 then
    [UInt8.ofNat (0xE0 + r / 4096), UInt8.ofNat (0x80 + r / 64 % 64), UInt8.ofNat (0x80 + r % 64)]
  else [UInt8.ofNat (0xF0 + r / 262144), UInt8.ofNat (0x80 + r / 4096 % 64),
    UInt8.ofNat (0x80 + r / 64 % 64), UInt8.ofNat (0x80 + r % 64)]

/-- `string(runes)`. -/
def ofRunes (rs : List ℕ) : GoString := rs.flatMap runeBytes

theorem runeBytes_ne_nil (r : ℕ) : runeBytes r ≠ [] := by
  unfold runeBytes
  split_ifs <;> exact List.cons_ne_nil _ _

theorem ofRunes_eq_nil {rs : List ℕ} (h : ofRunes rs = []) : rs = [] := by
  cases rs with
  | nil => rfl
  | cons r rs => exact absurd (List.append_eq_nil_iff.mp h).1 (runeBytes_ne_nil r)

theorem ofRunes_append (rs rs' : List ℕ) : ofRunes (rs ++ rs') = ofRunes rs ++ ofRunes rs' :=
  List.flatMap_append

theorem decodeRune_append {r : GoString} (h : isRune r = true) (s : GoString) :
    decodeRune (r ++ s) = (runeValue r, r.length) := by
  obtain ⟨a, rest, rfl, hlen⟩ := length_of_isRune h
  have hrune := runeLen_append h s
  rw [List.cons_append] at hrune
  rw [List.cons_append, decodeRune, hrune]
  show (runeValue ((a :: (rest ++ s)).take (rest.length + 1)), rest.length + 1) = _
  rw [List.take_succ_cons, List.take_left]
  rfl

/-- The bytes of a rune of more than one byte are not ASCII. -/
theorem le_of_mem_rune {r : GoString} (h : isRune r = true) (hlen : 1 < r.length) :
    ∀ b ∈ r, 0x80 ≤ b.toNat := by
  obtain ⟨a, rfl, ha⟩ | ⟨a, b, rfl, hab⟩ | ⟨a, b, c, rfl, habc⟩ | ⟨a, b, c, d, rfl, habcd⟩ :=
    isRune_cases h
  · exact absurd hlen (by simp)
  all_goals
    simp only [List.forall_mem_cons, List.not_mem_nil, false_imp_iff, implies_true, and_true]
    omega

/-- No rune goes on with an ASCII byte. -/
theorem decodeRune_le {x t : GoString} {b : UInt8} (hx : x ≠ []) (hb : b.toNat < 0x80) :
    (decodeRune (x ++ b :: t)).2 ≤ x.length := by
  obtain ⟨a, x, rfl⟩ := List.exists_cons_of_ne_nil hx
  rw [List.cons_append, decodeRune]
  split
  · exact Nat.succ_le_succ (Nat.zero_le _)
  · rename_i n hn
    obtain ⟨r, rest, heq, hr, hlen⟩ := exists_of_runeLen hn
    by_contra hlt
    rw [← List.cons_append] at heq
    have hin : (a :: x) ++ [b] <+: r := by
      apply List.prefix_of_prefix_length_le ⟨t, List.append_assoc _ _ _⟩ ⟨rest, heq.symm⟩
      rw [List.length_append, List.length_singleton]
      dsimp only at hlt
      omega
    have hmem := hin.subset (List.mem_append_right _ (List.mem_singleton_self b))
    have := le_of_mem_rune hr (by rw [List.length_cons] at hlt; dsimp only at hlt; omega) b hmem
    omega

/-- The first byte of a rune tells its size, and the range of the second byte. -/
theorem firstByte_of_isRune {a : UInt8} {rest : GoString} (h : isRune (a :: rest) = true) :
    (firstByte a).1 = rest.length + 1 ∧
      ∀ b, rest.head? = some b → inRange (firstByte a).2.1 (firstByte a).2.2 b = true := by
  obtain ⟨_, hr, ha⟩ | ⟨_, b, hr, hab⟩ | ⟨_, b, c, hr, habc⟩ | ⟨_, b, c, d, hr, habcd⟩ :=
    isRune_cases h
  all_goals
    obtain ⟨rfl, rfl⟩ := List.cons.inj hr
    simp only [firstByte, inRange, decide_eq_true_eq, List.head?_nil, List.head?_cons,
      Option.some.injEq, reduceCtorEq, forall_eq', false_imp_iff, implies_true, and_true,
      List.length_nil, List.length_cons]
  · rw [if_neg (by omega), if_neg (by omega), if_neg (by omega), if_neg (by omega),
      if_neg (by omega), if_neg (by omega), if_neg (by omega)]
  · rw [if_pos (by omega)]
    exact ⟨rfl, by dsimp only; omega⟩
  · rw [if_neg (by omega)]
    by_cases h0 : a.toNat = 0xE0
    · rw [if_pos (by omega)]
      exact ⟨rfl, by dsimp only; omega⟩
    by_cases hd : a.toNat = 0xED
    · rw [if_neg (by omega), if_pos (by omega)]
      exact ⟨rfl, by dsimp only; omega⟩
    · rw [if_neg (by omega), if_neg (by omega), if_pos (by omega)]
      exact ⟨rfl, by dsimp only; omega⟩
  · rw [if_neg (by omega), if_neg (by omega), if_neg (by omega), if_neg (by omega)]
    by_cases h0 : a.toNat = 0xF0
    · rw [if_pos (by omega)]
      exact ⟨rfl, by dsimp only; omega⟩
    by_cases h4 : a.toNat = 0xF4
    · rw [if_neg (by omega), if_neg (by omega), if_pos (by omega)]
      exact ⟨rfl, by dsimp only; omega⟩
    · rw [if_neg (by omega), if_pos (by omega)]
      exact ⟨rfl, by dsimp only; omega⟩

theorem fullRune_append {r : GoString} (h : isRune r = true) (s : GoString) :
    fullRune (r ++ s) = true := by
  obtain ⟨a, rest, rfl, _⟩ := length_of_isRune h
  have hsize := (firstByte_of_isRune h).1
  show (if (firstByte a).1 ≤ (rest ++ s).length + 1 then true else _) = true
  rw [if_pos (by rw [hsize, List.length_append]; omega)]

/-- Four bytes are enough for every rune. -/
theorem fullRune_of_length {b : GoString} (h : 4 ≤ b.length) : fullRune b = true := by
  cases b with
  | nil => cases h
  | cons a rest =>
    have hsize : (firstByte a).1 ≤ 4 := by
      unfold firstByte
      split_ifs <;> decide
    exact if_pos (hsize.trans h)

/-- With fewer bytes than the rune has, those that are there decide. -/
theorem fullRune_cons (a : UInt8) (p : GoString) : p.length + 1 < (firstByte a).1 →
    fullRune (a :: p) = match p with
      | [] => false
      | [b] => !inRange (firstByte a).2.1 (firstByte a).2.2 b
      | b :: c :: _ => !inRange (firstByte a).2.1 (firstByte a).2.2 b || !isTail c :=
  fun h => if_neg (Nat.not_le.mpr h)

/-- A rune that is cut off is not complete. -/
theorem fullRune_of_prefix {r p : GoString} (h : isRune r = true) (hp : p <+: r)
    (hlt : p.length < r.length) : fullRune p = false := by
  match p with
  | [] => rfl
  | a :: p =>
    obtain ⟨t, rfl⟩ := hp
    rw [List.cons_append] at h hlt
    obtain ⟨hsize, hsecond⟩ := firstByte_of_isRune h
    rw [List.length_cons, List.length_cons] at hlt
    rw [fullRune_cons a p (by omega)]
    match p with
    | [] => rfl
    | [b] => simp [hsecond b rfl]
    | b :: c :: p =>
      have htail : isTail c = true := by
        match p, t with
        | [], [] => simp at hlt
        | [], [d] =>
          simp only [isRune, List.cons_append, List.nil_append, Bool.and_eq_true] at h
          exact h.1.2
        | [], d :: e :: t => cases h
        | d :: p, [] => simp at hlt
        | d :: p, e :: t => cases p <;> cases h
      simp [hsecond b rfl, htail]

/-- Only the encoding of U+FFFD has its value. -/
theorem eq_of_runeValue_eq {r : GoString} (h : isRune r = true) (hv : runeValue r = runeError) :
    r = replacement := by
  unfold runeError at hv
  obtain ⟨a, rfl, ha⟩ | ⟨a, b, rfl, hab⟩ | ⟨a, b, c, rfl, habc⟩ | ⟨a, b, c, d, rfl, habcd⟩ :=
    isRune_cases h
  all_goals simp only [runeValue] at hv
  · omega
  · omega
  · have ha : a = 0xEF := UInt8.toNat.inj (show a.toNat = 0xEF by omega)
    have hb : b = 0xBF := UInt8.toNat.inj (show b.toNat = 0xBF by omega)
    have hc : c = 0xBD := UInt8.toNat.inj (show c.toNat = 0xBD by omega)
    rw [ha, hb, hc, replacement]
  · omega

/-- No rune is a surrogate. -/
theorem runeValue_not_surrogate {r : GoString} (h : isRune r = true) :
    runeValue r < 0xD800 ∨ 0xDFFF < runeValue r := by
  obtain ⟨a, rfl, ha⟩ | ⟨a, b, rfl, hab⟩ | ⟨a, b, c, rfl, habc⟩ | ⟨a, b, c, d, rfl, habcd⟩ :=
    isRune_cases h
  all_goals
    simp only [runeValue]
    omega

theorem decodeRune_not_surrogate (s : GoString) :
    (decodeRune s).1 < 0xD800 ∨ 0xDFFF < (decodeRune s).1 := by
  cases s with
  | nil => exact Or.inr (show 0xDFFF < runeError by decide)
  | cons a rest =>
    rw [decodeRune]
    cases hlen : runeLen (a :: rest) with
    | zero => exact Or.inr (show 0xDFFF < runeError by decide)
    | succ n =>
      obtain ⟨r, rest', heq, hr, hrlen⟩ := exists_of_runeLen hlen
      show runeValue ((a :: rest).take (n + 1)) < _ ∨ _ < runeValue ((a :: rest).take (n + 1))
      rw [heq, ← hrlen, List.take_left]
      exact runeValue_not_surrogate hr

/-! ## Validity -/

/-- Valid after the next `skip` bytes, which belong to a rune that has begun. -/
def validFrom : ℕ → GoString → Bool
  | _, [] => true
  | skip + 1, _ :: rest => validFrom skip rest
  | 0, b :: rest =>
    match runeLen (b :: rest) with
    | 0 => false
    | n + 1 => validFrom n rest

/-- `utf8.Valid`. -/
def utf8Valid (s : GoString) : Bool := validFrom 0 s

/-- Keep the next `skip` bytes, then each rune, and put U+FFFD in the place of every
    other byte. -/
def toValidFrom : ℕ → GoString → GoString
  | _, [] => []
  | skip + 1, b :: rest => b :: toValidFrom skip rest
  | 0, b :: rest =>
    match runeLen (b :: rest) with
    | 0 => replacement ++ toValidFrom 0 rest
    | n + 1 => b :: toValidFrom n rest

/-- What `encoding/json` gives back of a string. -/
def toValidUTF8 (s : GoString) : GoString := toValidFrom 0 s

theorem validFrom_append (s rest : GoString) :
    validFrom s.length (s ++ rest) = validFrom 0 rest := by
  induction s with
  | nil => rfl
  | cons b s ih => exact ih

/-- A rune before a valid string, -/
theorem utf8Valid_append {r : GoString} (h : isRune r = true) (s : GoString) :
    utf8Valid (r ++ s) = utf8Valid s := by
  obtain ⟨a, rest, rfl, _⟩ := length_of_isRune h
  have hlen : runeLen (a :: (rest ++ s)) = rest.length + 1 := runeLen_append h s
  rw [List.cons_append, utf8Valid, validFrom, hlen]
  dsimp only
  rw [validFrom_append, utf8Valid]

/-- and a valid string begins with one. -/
theorem exists_rune {s : GoString} (h : utf8Valid s = true) (hne : s ≠ []) :
    ∃ r rest, s = r ++ rest ∧ isRune r = true ∧ utf8Valid rest = true := by
  cases hlen : runeLen s with
  | zero =>
    cases s with
    | nil => exact absurd rfl hne
    | cons b t =>
      rw [utf8Valid, validFrom, hlen] at h
      cases h
  | succ n =>
    obtain ⟨r, rest, rfl, hr, _⟩ := exists_of_runeLen hlen
    rw [utf8Valid_append hr] at h
    exact ⟨r, rest, rfl, hr, h⟩

theorem length_rune_pos {r : GoString} (h : isRune r = true) : 0 < r.length := by
  obtain ⟨a, rest, rfl, _⟩ := length_of_isRune h
  exact Nat.zero_lt_succ _

/-- The valid strings are the concatenations of runes. -/
theorem utf8Valid_iff {s : GoString} :
    utf8Valid s = true ↔ ∃ runes : List GoString, (∀ r ∈ runes, isRune r = true) ∧
      runes.flatten = s := by
  constructor
  · intro h
    induction hn : s.length using Nat.strong_induction_on generalizing s with
    | _ n ih =>
      subst hn
      by_cases hne : s = []
      · exact ⟨[], by simp, hne.symm⟩
      obtain ⟨r, rest, rfl, hr, hrest⟩ := exists_rune h hne
      have hpos := length_rune_pos hr
      obtain ⟨runes, hrunes, hflat⟩ := ih rest.length (by rw [List.length_append]; omega) hrest rfl
      refine ⟨r :: runes, List.forall_mem_cons.mpr ⟨hr, hrunes⟩, ?_⟩
      rw [List.flatten_cons, hflat]
  · rintro ⟨runes, hrunes, rfl⟩
    induction runes with
    | nil => rfl
    | cons r runes ih =>
      obtain ⟨hr, hrest⟩ := List.forall_mem_cons.mp hrunes
      rw [List.flatten_cons, utf8Valid_append hr]
      exact ih hrest

/-- Valid strings one after the other. -/
theorem utf8Valid_append_of_valid {s : GoString} (h : utf8Valid s = true) (t : GoString) :
    utf8Valid (s ++ t) = utf8Valid t := by
  obtain ⟨runes, hrunes, rfl⟩ := utf8Valid_iff.mp h
  induction runes with
  | nil => rfl
  | cons r runes ih =>
    obtain ⟨hr, hrest⟩ := List.forall_mem_cons.mp hrunes
    rw [List.flatten_cons, List.append_assoc, utf8Valid_append hr]
    exact ih hrest (utf8Valid_iff.mpr ⟨runes, hrest, rfl⟩)

/-- Within the next three bytes of a valid string a rune begins. -/
theorem exists_utf8Valid_drop {s : GoString} (h : utf8Valid s = true) {n : ℕ}
    (hn : n ≤ s.length) : ∃ m, n ≤ m ∧ m ≤ n + 3 ∧ m ≤ s.length ∧ utf8Valid (s.drop m) = true := by
  induction hlen : s.length using Nat.strong_induction_on generalizing s n with
  | _ k ih =>
    subst hlen
    rcases Nat.eq_zero_or_pos n with rfl | hpos
    · exact ⟨0, le_rfl, Nat.zero_le _, Nat.zero_le _, h⟩
    have hne : s ≠ [] := List.ne_nil_of_length_pos (by omega)
    obtain ⟨r, rest, rfl, hr, hrest⟩ := exists_rune h hne
    have hrlen : 0 < r.length ∧ r.length ≤ 4 := by
      obtain ⟨a, t, rfl, hlead⟩ := length_of_isRune hr
      rw [hlead, leadLen]
      split_ifs <;> omega
    rw [List.length_append] at hn ⊢
    rcases Nat.lt_or_ge r.length n with hlt | hge
    · obtain ⟨m, h1, h2, h3, hvalid⟩ := ih rest.length (by rw [List.length_append]; omega) hrest
        (show n - r.length ≤ rest.length by omega) rfl
      refine ⟨r.length + m, by omega, by omega, by omega, ?_⟩
      rw [← List.drop_drop, List.drop_left]
      exact hvalid
    · refine ⟨r.length, hge, by omega, by omega, ?_⟩
      rw [List.drop_left]
      exact hrest

/-- What follows an ASCII byte of a valid string is valid. -/
theorem utf8Valid_of_ascii {s t : GoString} {b : UInt8} (h : utf8Valid (s ++ b :: t) = true)
    (hb : b.toNat < 0x80) : utf8Valid t = true := by
  induction hn : s.length using Nat.strong_induction_on generalizing s with
  | _ n ih =>
    subst hn
    obtain ⟨r, rest, heq, hr, hrest⟩ := exists_rune h (by simp)
    have hpos := length_rune_pos hr
    rcases Nat.lt_or_ge s.length r.length with hlt | hge
    · -- the byte belongs to the first rune, which then has no other
      have hmem : b ∈ r := by
        have hat : (r ++ rest)[s.length]? = some b := by rw [← heq]; simp
        rw [List.getElem?_append_left hlt] at hat
        exact List.mem_of_getElem? hat
      have hone : r.length = 1 := by
        by_contra hlen
        exact absurd (le_of_mem_rune hr (by omega) b hmem) (by omega)
      have hs : s = [] := List.length_eq_zero_iff.mp (by omega)
      subst hs
      obtain ⟨c, rfl⟩ := List.length_eq_one_iff.mp hone
      obtain ⟨-, rfl⟩ := List.cons.inj heq
      exact hrest
    · obtain ⟨s', rfl⟩ : r <+: s :=
        List.prefix_of_prefix_length_le (List.prefix_append r rest) ⟨b :: t, heq⟩ hge
      rw [List.append_assoc] at heq
      rw [← List.append_cancel_left heq] at hrest
      exact ih s'.length (by rw [List.length_append]; omega) hrest rfl

/-! ## Invalid bytes -/

theorem toValidFrom_of_validFrom (skip : ℕ) (s : GoString) (h : validFrom skip s = true) :
    toValidFrom skip s = s := by
  induction s generalizing skip with
  | nil => cases skip <;> rfl
  | cons b s ih =>
    cases skip with
    | succ skip => exact congrArg (b :: ·) (ih skip h)
    | zero =>
      rw [validFrom] at h
      rw [toValidFrom]
      cases hlen : runeLen (b :: s) with
      | zero =>
        rw [hlen] at h
        cases h
      | succ n =>
        rw [hlen] at h
        exact congrArg (b :: ·) (ih n h)

/-- Replacing never shortens, and lengthens what is not valid. -/
theorem length_toValidFrom (skip : ℕ) (s : GoString) :
    s.length ≤ (toValidFrom skip s).length ∧
      (validFrom skip s = false → s.length < (toValidFrom skip s).length) := by
  induction s generalizing skip with
  | nil => cases skip <;> exact ⟨le_rfl, fun h => by cases h⟩
  | cons b s ih =>
    cases skip with
    | succ skip =>
      obtain ⟨hle, hlt⟩ := ih skip
      rw [toValidFrom, validFrom, List.length_cons, List.length_cons]
      exact ⟨Nat.succ_le_succ hle, fun h => Nat.succ_lt_succ (hlt h)⟩
    | zero =>
      rw [toValidFrom, validFrom]
      cases hlen : runeLen (b :: s) with
      | zero =>
        have hle := (ih 0).1
        simp only [replacement, List.length_append, List.length_cons, List.length_nil]
        omega
      | succ n =>
        obtain ⟨hle, hlt⟩ := ih n
        dsimp only
        rw [List.length_cons, List.length_cons]
        exact ⟨Nat.succ_le_succ hle, fun h => Nat.succ_lt_succ (hlt h)⟩

/-- Each part of a text comes back as it was exactly if every part is valid. -/
theorem flatten_toValidUTF8_iff (parts : List GoString) :
    (parts.map toValidUTF8).flatten = parts.flatten ↔ ∀ s ∈ parts, utf8Valid s = true := by
  constructor
  · intro h s hs
    by_contra hinv
    rw [Bool.not_eq_true] at hinv
    -- the part that is not valid makes the whole longer
    have hlt : (parts.map List.length).sum < (parts.map fun t => (toValidUTF8 t).length).sum :=
      List.sum_lt_sum _ _ (fun t _ => (length_toValidFrom 0 t).1)
        ⟨s, hs, (length_toValidFrom 0 s).2 hinv⟩
    have hlen := congrArg List.length h
    rw [List.length_flatten, List.length_flatten, List.map_map] at hlen
    exact absurd hlen (Nat.ne_of_gt hlt)
  · intro h
    have hmap : parts.map toValidUTF8 = parts.map fun s => s :=
      List.map_congr_left fun s hs => toValidFrom_of_validFrom 0 s (h s hs)
    rw [hmap, List.map_id']

theorem toValidUTF8_eq_iff {s : GoString} : toValidUTF8 s = s ↔ utf8Valid s = true := by
  have hparts := flatten_toValidUTF8_iff [s]
  rw [List.map_singleton, List.flatten_singleton, List.flatten_singleton] at hparts
  rw [hparts]
  exact List.forall_mem_singleton

/-! ## Code points -/

/-- The encoding of the code point of a rune is the rune. -/
theorem runeBytes_runeValue {r : GoString} (h : isRune r = true) : runeBytes (runeValue r) = r := by
  have hbyte : ∀ {n : ℕ} {a : UInt8}, n = a.toNat → UInt8.ofNat n = a := by
    rintro n a rfl
    exact UInt8.ofNat_toNat
  unfold runeBytes
  obtain ⟨a, rfl, ha⟩ | ⟨a, b, rfl, hab⟩ | ⟨a, b, c, rfl, habc⟩ | ⟨a, b, c, d, rfl, habcd⟩ :=
    isRune_cases h
  · rw [runeValue, if_pos (by omega), UInt8.ofNat_toNat]
  · rw [runeValue, if_neg (by omega), if_pos (by omega), hbyte (a := a) (by omega),
      hbyte (a := b) (by omega)]
  · rw [runeValue, if_neg (by omega), if_neg (by omega), if_neg (by omega), if_pos (by omega),
      hbyte (a := a) (by omega), hbyte (a := b) (by omega), hbyte (a := c) (by omega)]
  · rw [runeValue, if_neg (by omega), if_neg (by omega), if_neg (by omega), if_neg (by omega),
      hbyte (a := a) (by omega), hbyte (a := b) (by omega), hbyte (a := c) (by omega),
      hbyte (a := d) (by omega)]

theorem toValidFrom_eq (skip : ℕ) (s : GoString) :
    toValidFrom skip s = s.take skip ++ ofRunes (runesFrom skip s) := by
  induction s generalizing skip with
  | nil => cases skip <;> rfl
  | cons b s ih =>
    cases skip with
    | succ skip => exact congrArg (b :: ·) (ih skip)
    | zero =>
      rw [toValidFrom, runesFrom, decodeRune, List.take_zero, List.nil_append]
      cases hlen : runeLen (b :: s) with
      | zero =>
        have herror : runeBytes runeError = replacement := by decide
        show replacement ++ toValidFrom 0 s = runeBytes runeError ++ ofRunes (runesFrom 0 s)
        rw [herror, ih 0]
        rfl
      | succ n =>
        obtain ⟨r, rest, heq, hr, hrlen⟩ := exists_of_runeLen hlen
        have htake : (b :: s).take (n + 1) = r := by rw [heq, ← hrlen, List.take_left]
        show b :: toValidFrom n s =
            runeBytes (runeValue ((b :: s).take (n + 1))) ++ ofRunes (runesFrom n s)
        rw [htake, runeBytes_runeValue hr, ← htake, ih n]
        rfl

/-- `string([]rune(s))`. -/
theorem ofRunes_runes (s : GoString) : ofRunes (runes s) = toValidUTF8 s :=
  (toValidFrom_eq 0 s).symm

/-- A string comes back from its code points exactly if it is valid. -/
theorem ofRunes_runes_eq_iff {s : GoString} : ofRunes (runes s) = s ↔ utf8Valid s = true := by
  rw [ofRunes_runes, toValidUTF8_eq_iff]

/-- The encoding of every code point is a rune. -/
theorem isRune_runeBytes (r : ℕ) : isRune (runeBytes r) = true := by
  have hbyte : ∀ {n : ℕ}, n < 256 → (UInt8.ofNat n).toNat = n := by
    intro n hn
    rw [UInt8.toNat_ofNat']
    omega
  unfold runeBytes
  split_ifs with h1 h2 h3 h4
  · simp only [isRune, inRange, decide_eq_true_eq]
    rw [hbyte (by omega)]
    omega
  · simp only [isRune, isTail, inRange, Bool.and_eq_true, decide_eq_true_eq]
    rw [hbyte (by omega), hbyte (by omega)]
    omega
  · rfl
  · simp only [isRune, isTail, inRange, Bool.and_eq_true, Bool.or_eq_true, decide_eq_true_eq]
    rw [hbyte (by omega), hbyte (by omega), hbyte (by omega)]
    omega
  · simp only [isRune, isTail, inRange, Bool.and_eq_true, Bool.or_eq_true, decide_eq_true_eq]
    rw [hbyte (by omega), hbyte (by omega), hbyte (by omega), hbyte (by omega)]
    omega

theorem utf8Valid_ofRunes (rs : List ℕ) : utf8Valid (ofRunes rs) = true := by
  induction rs with
  | nil => rfl
  | cons r rs ih =>
    show utf8Valid (runeBytes r ++ ofRunes rs) = true
    rw [utf8Valid_append (isRune_runeBytes r)]
    exact ih

theorem runesFrom_append (s rest : GoString) :
    runesFrom s.length (s ++ rest) = runesFrom 0 rest := by
  induction s with
  | nil => rfl
  | cons b s ih => exact ih

/-- The code point of a rune before the others. -/
theorem runes_append {r : GoString} (h : isRune r = true) (s : GoString) :
    runes (r ++ s) = runeValue r :: runes s := by
  obtain ⟨a, rest, rfl, -⟩ := length_of_isRune h
  have hdecode := decodeRune_append h s
  rw [List.cons_append] at hdecode ⊢
  rw [runes, runesFrom, hdecode]
  exact congrArg _ (runesFrom_append rest s)

/-- There are as many code points in the string as it is made of. -/
theorem length_runes_ofRunes (rs : List ℕ) : (runes (ofRunes rs)).length = rs.length := by
  induction rs with
  | nil => rfl
  | cons r rs ih =>
    show (runes (runeBytes r ++ ofRunes rs)).length = _
    rw [runes_append (isRune_runeBytes r), List.length_cons, List.length_cons, ih]

/-- A code point that has an encoding. -/
def IsScalar (r : ℕ) : Prop := r ≤ 0x10FFFF ∧ ¬ (0xD800 ≤ r ∧ r < 0xE000)

instance : DecidablePred IsScalar := fun r =>
  inferInstanceAs (Decidable (r ≤ 0x10FFFF ∧ ¬ (0xD800 ≤ r ∧ r < 0xE000)))

theorem runeValue_runeBytes {r : ℕ} (h : IsScalar r) : runeValue (runeBytes r) = r := by
  have hbyte : ∀ {n : ℕ}, n < 256 → (UInt8.ofNat n).toNat = n := by
    intro n hn
    rw [UInt8.toNat_ofNat']
    omega
  obtain ⟨hmax, hsurrogate⟩ := h
  unfold runeBytes
  split_ifs with h1 h2 h3 h4
  · rw [runeValue, hbyte (by omega)]
  · rw [runeValue, hbyte (by omega), hbyte (by omega)]
    omega
  · omega
  · rw [runeValue, hbyte (by omega), hbyte (by omega), hbyte (by omega)]
    omega
  · rw [runeValue, hbyte (by omega), hbyte (by omega), hbyte (by omega), hbyte (by omega)]
    omega

/-- The code points behind a valid string. -/
theorem runes_append_ofRunes {s : GoString} (hs : utf8Valid s = true) {rs : List ℕ}
    (hrs : ∀ r ∈ rs, IsScalar r) : runes (s ++ ofRunes rs) = runes s ++ rs := by
  obtain ⟨parts, hparts, rfl⟩ := utf8Valid_iff.mp hs
  clear hs
  induction parts with
  | nil =>
    induction rs with
    | nil => rfl
    | cons r rs ih =>
      obtain ⟨hr, hrest⟩ := List.forall_mem_cons.mp hrs
      have htail : runes (ofRunes rs) = rs := ih hrest
      show runes (runeBytes r ++ ofRunes rs) = r :: rs
      rw [runes_append (isRune_runeBytes r), runeValue_runeBytes hr, htail]
  | cons p parts ih =>
    obtain ⟨hp, hrest⟩ := List.forall_mem_cons.mp hparts
    rw [List.flatten_cons, List.append_assoc, runes_append hp, runes_append hp, ih hrest,
      List.cons_append]

end GoJump.Go
