import Mathlib

/-!
# Formats that are read from the front

A `Codec` writes values of a type as bytes and reads them back from the front of a byte
string. It is exact in both directions: what is written is read with any bytes behind it,
and what is read has been written that way. Fields one after the other are again a codec.

* `uint32`, `lengthPrefixed`: numbers with the most significant byte first, and byte strings
  behind their length.
-/

namespace GoJump.Lib

/-- A format of values with `valid`. -/
structure Codec (α : Type) where
  put : α → List UInt8
  get : List UInt8 → Option (α × List UInt8)
  valid : α → Prop
  get_put : ∀ {a}, valid a → ∀ rest, get (put a ++ rest) = some (a, rest)
  put_of_get : ∀ {s a rest}, get s = some (a, rest) → valid a ∧ s = put a ++ rest

namespace Codec

variable {α β : Type}

/-- One field after the other. -/
def seq (c : Codec α) (d : Codec β) : Codec (α × β) where
  put p := c.put p.1 ++ d.put p.2
  get s := do
    let (a, s) ← c.get s
    let (b, s) ← d.get s
    return ((a, b), s)
  valid p := c.valid p.1 ∧ d.valid p.2
  get_put := by
    rintro ⟨a, b⟩ ⟨ha, hb⟩ rest
    rw [List.append_assoc, c.get_put ha]
    show (d.get (d.put b ++ rest) >>= _) = _
    rw [d.get_put hb]
    rfl
  put_of_get := by
    rintro s ⟨a, b⟩ rest h
    obtain ⟨⟨a', s'⟩, hc, h⟩ := Option.bind_eq_some_iff.mp h
    obtain ⟨⟨b', s''⟩, hd, h⟩ := Option.bind_eq_some_iff.mp h
    cases h
    obtain ⟨ha, rfl⟩ := c.put_of_get hc
    obtain ⟨hb, rfl⟩ := d.put_of_get hd
    exact ⟨⟨ha, hb⟩, (List.append_assoc _ _ _).symm⟩

end Codec

/-! ## Numbers -/

/-- The number that four bytes are, with the most significant one first. -/
def readUint32 : List UInt8 → ℕ
  | a :: b :: c :: d :: _ => a.toNat * 2 ^ 24 + b.toNat * 2 ^ 16 + c.toNat * 2 ^ 8 + d.toNat
  | _ => 0

/-- The four bytes of a number. -/
def putUint32 (n : ℕ) : List UInt8 :=
  [UInt8.ofNat (n / 2 ^ 24), UInt8.ofNat (n / 2 ^ 16), UInt8.ofNat (n / 2 ^ 8), UInt8.ofNat n]

theorem readUint32_lt (s : List UInt8) : readUint32 s < 2 ^ 32 := by
  unfold readUint32
  split
  · rename_i a b c d _
    have ha := a.toNat_lt
    have hb := b.toNat_lt
    have hc := c.toNat_lt
    have hd := d.toNat_lt
    omega
  · decide

theorem readUint32_append {s : List UInt8} (h : 4 ≤ s.length) (rest : List UInt8) :
    readUint32 (s ++ rest) = readUint32 s := by
  match s, h with
  | _ :: _ :: _ :: _ :: _, _ => rfl

theorem readUint32_putUint32 {n : ℕ} (h : n < 2 ^ 32) : readUint32 (putUint32 n) = n := by
  simp only [putUint32, readUint32, UInt8.toNat_ofNat']
  omega

theorem putUint32_readUint32 {s : List UInt8} (h : s.length = 4) :
    putUint32 (readUint32 s) = s := by
  match s, h with
  | [a, b, c, d], _ =>
    have ha := a.toNat_lt
    have hb := b.toNat_lt
    have hc := c.toNat_lt
    have hd := d.toNat_lt
    have hbyte : ∀ {n : ℕ} {x : UInt8}, n % 2 ^ 8 = x.toNat → UInt8.ofNat n = x := by
      intro n x hn
      apply UInt8.toNat_inj.mp
      rw [UInt8.toNat_ofNat', hn]
    simp only [putUint32, readUint32, List.cons.injEq, and_true]
    refine ⟨hbyte ?_, hbyte ?_, hbyte ?_, hbyte ?_⟩ <;> omega

/-- Numbers of 32 bits. -/
def uint32 : Codec ℕ where
  put := putUint32
  get s := if s.length < 4 then none else some (readUint32 s, s.drop 4)
  valid n := n < 2 ^ 32
  get_put {n} hn rest := by
    have hlen : (putUint32 n).length = 4 := rfl
    rw [if_neg (by rw [List.length_append, hlen]; omega), readUint32_append hlen.ge,
      readUint32_putUint32 hn, List.drop_left' hlen]
  put_of_get {s n rest} h := by
    split_ifs at h with hlen
    cases h
    have htake : (s.take 4).length = 4 := by
      rw [List.length_take]
      omega
    refine ⟨readUint32_lt s, ?_⟩
    have hread : readUint32 s = readUint32 (s.take 4) := by
      conv_lhs => rw [← List.take_append_drop 4 s]
      exact readUint32_append htake.ge _
    rw [hread, putUint32_readUint32 htake, List.take_append_drop]

/-! ## Byte strings -/

/-- A byte string behind its length, of at most `bound` bytes. -/
def lengthPrefixed (bound : ℕ) (hbound : bound < 2 ^ 32) : Codec (List UInt8) where
  put a := putUint32 a.length ++ a
  get s := do
    let (n, s) ← uint32.get s
    if n ≤ s.length ∧ n ≤ bound then some (s.take n, s.drop n) else none
  valid a := a.length ≤ bound
  get_put {a} ha rest := by
    have hlt : a.length < 2 ^ 32 := by omega
    rw [List.append_assoc]
    show (uint32.get (uint32.put a.length ++ (a ++ rest)) >>= _) = _
    rw [uint32.get_put hlt]
    show (if a.length ≤ (a ++ rest).length ∧ a.length ≤ bound then _ else _) = _
    rw [if_pos ⟨by rw [List.length_append]; omega, ha⟩, List.take_left, List.drop_left]
  put_of_get {s a rest} h := by
    obtain ⟨⟨n, s'⟩, hn, h⟩ := Option.bind_eq_some_iff.mp h
    dsimp only at h
    split_ifs at h with hle
    cases h
    obtain ⟨-, rfl⟩ := uint32.put_of_get hn
    have hlen : (s'.take n).length = n := by
      rw [List.length_take]
      omega
    refine ⟨by rw [hlen]; exact hle.2, ?_⟩
    rw [hlen, List.append_assoc, List.take_append_drop]
    rfl

end GoJump.Lib
