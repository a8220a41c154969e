import GoJump.Go.Utf8

/-!
# JSON strings

A string between quotes as in JSON, and its reading. The writer goes through the string rune
by rune; a byte at which no rune begins is written as `\ufffd`. It is simpler than that of
`encoding/json`, with which it differs in U+2028, U+2029, backspace, form feed and the way an
invalid byte is replaced.

* `unquote_quote`: reading what was written gives the string with its invalid bytes
  replaced by U+FFFD.
* `printable_quote`: what is written has no control characters, so no line break.
-/

namespace GoJump.Go

/-! ## Writing -/

/-- A hexadecimal digit. -/
def hexDigit (n : ℕ) : UInt8 := UInt8.ofNat (if n < 10 then 48 + n else 87 + n)

/-- An ASCII character inside a string: the quote, the backslash, control characters and
    `<`, `>`, `&` are escaped. -/
def escape (b : UInt8) : GoString :=
  if b = 34 ∨ b = 92 then [92, b]
  else if b = 10 then str "\\n"
  else if b = 13 then str "\\r"
  else if b = 9 then str "\\t"
  else if b.toNat < 0x20 ∨ b = 60 ∨ b = 62 ∨ b = 38 then
    str "\\u00" ++ [hexDigit (b.toNat / 16), hexDigit (b.toNat % 16)]
  else [b]

/-- The next `skip` bytes belong to a rune of several bytes and stand for themselves. -/
def quoteFrom : ℕ → GoString → GoString
  | _, [] => []
  | skip + 1, b :: rest => b :: quoteFrom skip rest
  | 0, b :: rest =>
    match runeLen (b :: rest) with
    | 0 => str "\\ufffd" ++ quoteFrom 0 rest
    | 1 => escape b ++ quoteFrom 0 rest
    | n + 2 => b :: quoteFrom (n + 1) rest

/-- The string between quotes. -/
def quote (s : GoString) : GoString := 34 :: (quoteFrom 0 s ++ [34])

/-! ## Reading -/

def unhex (b : UInt8) : Option ℕ :=
  if 48 ≤ b.toNat ∧ b.toNat ≤ 57 then some (b.toNat - 48)
  else if 97 ≤ b.toNat ∧ b.toNat ≤ 102 then some (b.toNat - 87)
  else if 65 ≤ b.toNat ∧ b.toNat ≤ 70 then some (b.toNat - 55)
  else none

/-- The number of four hexadecimal digits. -/
def unhex4 (a b c d : UInt8) : Option ℕ := do
  let a ← unhex a
  let b ← unhex b
  let c ← unhex c
  let d ← unhex d
  return ((a * 16 + b) * 16 + c) * 16 + d

/-- The encoding of a code point below U+10000. -/
def encodeRune (n : ℕ) : GoString :=
  if n < 0x80 then [UInt8.ofNat n]
  else if n < 0x800 then [UInt8.ofNat (0xC0 + n / 64), UInt8.ofNat (0x80 + n % 64)]
  else
    [UInt8.ofNat (0xE0 + n / 4096), UInt8.ofNat (0x80 + n / 64 % 64), UInt8.ofNat (0x80 + n % 64)]

/-- The byte that a backslash and this letter stand for. -/
def unescape (b : UInt8) : Option UInt8 :=
  if b = 34 ∨ b = 92 ∨ b = 47 then some b
  else if b = 110 then some 10
  else if b = 114 then some 13
  else if b = 116 then some 9
  else if b = 98 then some 8
  else if b = 102 then some 12
  else none

/-- The rest of a string after its first quote, and what follows it. -/
def unquoteBody : GoString → Option (GoString × GoString)
  | [] => none
  | 34 :: rest => some ([], rest)
  | 92 :: 117 :: a :: b :: c :: d :: rest =>
    (unhex4 a b c d).bind fun n => (unquoteBody rest).map fun r => (encodeRune n ++ r.1, r.2)
  | 92 :: b :: rest =>
    (unescape b).bind fun c => (unquoteBody rest).map fun r => (c :: r.1, r.2)
  | b :: rest => (unquoteBody rest).map fun r => (b :: r.1, r.2)

/-- A string literal at the beginning, and what follows it. -/
def unquote : GoString → Option (GoString × GoString)
  | 34 :: rest => unquoteBody rest
  | _ => none

/-! ## The round trip -/

theorem unquoteBody_raw {b : UInt8} (hq : b ≠ 34) (hb : b ≠ 92) (rest : GoString) :
    unquoteBody (b :: rest) = (unquoteBody rest).map fun r => (b :: r.1, r.2) := by
  rw [unquoteBody.eq_def]
  split
  · rename_i h; cases h
  · rename_i h; exact absurd (List.cons.inj h).1 hq
  · rename_i h; exact absurd (List.cons.inj h).1 hb
  · rename_i h; exact absurd (List.cons.inj h).1 hb
  · rename_i h; cases h; rfl

theorem unhex_hexDigit : ∀ n < 16, unhex (hexDigit n) = some n := by decide

/-- Every ASCII character is read as it was written. -/
theorem unquoteBody_escape {b : UInt8} (h : b.toNat < 0x80) (rest : GoString) :
    unquoteBody (escape b ++ rest) = (unquoteBody rest).map fun r => (b :: r.1, r.2) := by
  unfold escape
  split_ifs with h1 h2 h3 h4 h5
  · rcases h1 with rfl | rfl <;> rfl
  · subst h2; rfl
  · subst h3; rfl
  · subst h4; rfl
  · have hhex : unhex4 48 48 (hexDigit (b.toNat / 16)) (hexDigit (b.toNat % 16)) =
        some b.toNat := by
      have hzero : unhex 48 = some 0 := rfl
      simp only [unhex4, hzero, unhex_hexDigit _ (show b.toNat / 16 < 16 by omega),
        unhex_hexDigit _ (show b.toNat % 16 < 16 by omega)]
      show some _ = some _
      congr 1
      omega
    have hread : unquoteBody (str "\\u00" ++ [hexDigit (b.toNat / 16), hexDigit (b.toNat % 16)] ++
        rest) = (unhex4 48 48 (hexDigit (b.toNat / 16)) (hexDigit (b.toNat % 16))).bind fun n =>
          (unquoteBody rest).map fun r => (encodeRune n ++ r.1, r.2) := rfl
    have hrune : encodeRune b.toNat = [b] := by
      rw [encodeRune, if_pos h, UInt8.ofNat_toNat]
    rw [hread, hhex, Option.bind_some, hrune]
    rfl
  · rw [not_or] at h1
    exact unquoteBody_raw h1.1 h1.2 rest

/-- The bytes of a rune of several bytes are not ASCII. -/
theorem isRune_not_ascii {r : GoString} (h : isRune r = true) (hlen : 1 < r.length) :
    ∀ b ∈ r, 0x80 ≤ b.toNat := by
  match r with
  | [] => cases h
  | [a] => exact absurd hlen (by simp)
  | [a, b] =>
    simp only [isRune, isTail, inRange, Bool.and_eq_true, decide_eq_true_eq] at h
    simp only [List.mem_cons, List.not_mem_nil, or_false, forall_eq_or_imp, forall_eq]
    omega
  | [a, b, c] =>
    simp only [isRune, isTail, inRange, Bool.and_eq_true, Bool.or_eq_true, decide_eq_true_eq] at h
    simp only [List.mem_cons, List.not_mem_nil, or_false, forall_eq_or_imp, forall_eq]
    omega
  | [a, b, c, d] =>
    simp only [isRune, isTail, inRange, Bool.and_eq_true, Bool.or_eq_true, decide_eq_true_eq] at h
    simp only [List.mem_cons, List.not_mem_nil, or_false, forall_eq_or_imp, forall_eq]
    omega
  | a :: b :: c :: d :: e :: rest => cases h

/-- The text that a string stands for, and the way it is written. -/
inductive Written : GoString → GoString → Prop
  | nil : Written [] []
  /-- a byte of a rune of several bytes -/
  | raw {b : UInt8} {text written : GoString} (hb : 0x80 ≤ b.toNat) :
    Written text written → Written (b :: text) (b :: written)
  | ascii {b : UInt8} {text written : GoString} (hb : b.toNat < 0x80) :
    Written text written → Written (b :: text) (escape b ++ written)
  /-- a byte at which no rune begins -/
  | invalid {text written : GoString} :
    Written text written → Written (replacement ++ text) (str "\\ufffd" ++ written)

theorem written_quoteFrom (skip : ℕ) (s : GoString) (hskip : ∀ b ∈ s.take skip, 0x80 ≤ b.toNat) :
    Written (toValidFrom skip s) (quoteFrom skip s) := by
  induction s generalizing skip with
  | nil => cases skip <;> exact .nil
  | cons b s ih =>
    cases skip with
    | succ skip =>
      rw [List.take_succ_cons, List.forall_mem_cons] at hskip
      exact .raw hskip.1 (ih skip hskip.2)
    | zero =>
      have hnone : ∀ c ∈ s.take 0, 0x80 ≤ c.toNat := by simp
      rw [quoteFrom, toValidFrom]
      cases hlen : runeLen (b :: s) with
      | zero => exact .invalid (ih 0 hnone)
      | succ n =>
        obtain ⟨r, t, heq, hr, hrlen⟩ := exists_of_runeLen hlen
        cases n with
        | zero =>
          obtain ⟨a, rfl⟩ := List.length_eq_one_iff.mp hrlen
          obtain ⟨rfl, _⟩ := List.cons.inj heq
          simp only [isRune, inRange, decide_eq_true_eq] at hr
          exact .ascii (by omega) (ih 0 hnone)
        | succ n =>
          have hall := isRune_not_ascii hr (by omega)
          have htake : (b :: s).take (n + 2) = r := by rw [heq, ← hrlen, List.take_left]
          rw [← htake, List.take_succ_cons, List.forall_mem_cons] at hall
          exact .raw hall.1 (ih (n + 1) hall.2)

theorem Written.unquoteBody {text written : GoString} (h : Written text written)
    (rest : GoString) : unquoteBody (written ++ 34 :: rest) = some (text, rest) := by
  induction h with
  | nil => rfl
  | @raw b text written hb _ ih =>
    have hq : b ≠ 34 ∧ b ≠ 92 := by
      constructor
      · rintro rfl
        exact absurd hb (by decide)
      · rintro rfl
        exact absurd hb (by decide)
    rw [List.cons_append, unquoteBody_raw hq.1 hq.2, ih]
    rfl
  | ascii hb _ ih =>
    rw [List.append_assoc, unquoteBody_escape hb, ih]
    rfl
  | invalid _ ih =>
    have hread : ∀ t, GoJump.Go.unquoteBody (str "\\ufffd" ++ t) =
        (GoJump.Go.unquoteBody t).map fun r => (replacement ++ r.1, r.2) := fun t => rfl
    rw [List.append_assoc, hread, ih]
    rfl

/-- Reading a string that was written. -/
theorem unquote_quote (s rest : GoString) :
    unquote (quote s ++ rest) = some (toValidUTF8 s, rest) := by
  rw [quote, List.cons_append, List.append_assoc]
  exact (written_quoteFrom 0 s (by simp)).unquoteBody rest

/-! ## No line breaks -/

theorem hexDigit_printable : ∀ n < 16, 0x20 ≤ (hexDigit n).toNat := by decide

theorem printable_escape {b : UInt8} (h : b.toNat < 0x80) : ∀ c ∈ escape b, 0x20 ≤ c.toNat := by
  unfold escape
  split_ifs with h1 h2 h3 h4 h5
  · rcases h1 with rfl | rfl <;> decide +kernel
  · decide +kernel
  · decide +kernel
  · decide +kernel
  · have hfix : ∀ c ∈ str "\\u00", 0x20 ≤ c.toNat := by decide +kernel
    intro c hc
    rcases List.mem_append.mp hc with hc | hc
    · exact hfix c hc
    · simp only [List.mem_cons, List.not_mem_nil, or_false] at hc
      rcases hc with rfl | rfl
      · exact hexDigit_printable (b.toNat / 16) (by omega)
      · exact hexDigit_printable (b.toNat % 16) (by omega)
  · intro c hc
    rw [List.mem_singleton.mp hc]
    omega

theorem Written.printable {text written : GoString} (h : Written text written) :
    ∀ c ∈ written, 0x20 ≤ c.toNat := by
  induction h with
  | nil => simp
  | raw hb _ ih => exact List.forall_mem_cons.mpr ⟨by omega, ih⟩
  | ascii hb _ ih => exact List.forall_mem_append.mpr ⟨printable_escape hb, ih⟩
  | invalid _ ih => exact List.forall_mem_append.mpr ⟨by decide +kernel, ih⟩

theorem printable_quote (s : GoString) : ∀ c ∈ quote s, 0x20 ≤ c.toNat := by
  have hbody := (written_quoteFrom 0 s (by simp)).printable
  have hquote : ∀ c ∈ ([34] : GoString), 0x20 ≤ c.toNat := by decide +kernel
  exact List.forall_mem_cons.mpr
    ⟨hquote 34 (by simp), List.forall_mem_append.mpr ⟨hbody, hquote⟩⟩

end GoJump.Go
