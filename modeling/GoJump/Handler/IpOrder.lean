import GoJump.Handler.SearchResult
import GoJump.Lib.Join

/-!
# The order of addresses

`CompareIP` (`pkg/handler/asset.go`, lines 203–222) compares the parts of two addresses
between the dots, each by length and then by bytes; a list of parts that ends is before the
longer one. `assetSortByIP` (`pkg/model/asset.go`, lines 101–121) is the same loop on the
addresses of two assets.

On all strings this is a total order, which also holds of equal ones. A number that is
written without leading zeros is longer than the smaller ones or, at the same length, after
them by its bytes, so the order of dotted quads is that of the 32-bit values.

* `partLt_itoa_iff`: the order of two numbers.
* `compareIP_dotted`: the order of two dotted quads.
* `compareIP_order`: all of it.
-/

namespace GoJump.Handler

open GoJump.Go GoJump.Lib GoJump.Model

/-! ## The loop over the parts -/

/-- The loop of `assetSortByIP` at index `i`, with the parts of the first address from there
    on. -/
def assetSortByIPLoop (jIPs : List GoString) : ℕ → List GoString → Bool
  | _, [] => true
  | i, iIP :: iIPs =>
    match jIPs[i]? with
    | none => false
    | some jIP =>
      if iIP.length = jIP.length then
        if iIP = jIP then assetSortByIPLoop jIPs (i + 1) iIPs else decide (iIP < jIP)
      else decide (iIP.length < jIP.length)

/-- `assetSortByIP`. -/
def assetSortByIP (asset1 asset2 : Asset) : Bool :=
  assetSortByIPLoop (split asset2.ip 46) 0 (split asset1.ip 46)

/-- At each index the loop compares the parts that are left. -/
theorem assetSortByIPLoop_eq (jIPs : List GoString) (i : ℕ) (iIPs : List GoString) :
    assetSortByIPLoop jIPs i iIPs = compareParts iIPs (jIPs.drop i) := by
  induction iIPs generalizing i with
  | nil =>
    rw [assetSortByIPLoop, compareParts]
  | cons iIP iIPs ih =>
    rw [assetSortByIPLoop]
    cases hpart : jIPs[i]? with
    | none =>
      rw [List.drop_eq_nil_of_le (List.getElem?_eq_none_iff.mp hpart)]
      rfl
    | some jIP =>
      obtain ⟨hlt, rfl⟩ := List.getElem?_eq_some_iff.mp hpart
      rw [List.drop_eq_getElem_cons hlt, compareParts, ih]

theorem assetSortByIP_eq (asset1 asset2 : Asset) :
    assetSortByIP asset1 asset2 = compareIP asset1.ip asset2.ip :=
  assetSortByIPLoop_eq _ 0 _

/-! ## A total order -/

theorem PartLt.irrefl (a : GoString) : ¬ PartLt a a := by
  rintro (h | ⟨-, h⟩)
  · exact Nat.lt_irrefl _ h
  · exact List.lt_irrefl a h

theorem compareParts_antisymm {as bs : List GoString} (hab : compareParts as bs = true)
    (hba : compareParts bs as = true) : as = bs := by
  induction as generalizing bs with
  | nil =>
    cases bs with
    | nil => rfl
    | cons b bs => cases hba
  | cons a as ih =>
    cases bs with
    | nil => cases hab
    | cons b bs =>
      rw [compareParts_cons] at hab hba
      rcases hab with hab | ⟨rfl, hab⟩ <;> rcases hba with hba | ⟨heq, hba⟩
      · exact absurd (hab.trans hba) (PartLt.irrefl a)
      · exact absurd (heq ▸ hab) (PartLt.irrefl a)
      · exact absurd hba (PartLt.irrefl a)
      · rw [ih hab hba]

/-- Two addresses with the same parts are the same. -/
theorem compareIP_antisymm {a b : GoString} (hab : compareIP a b = true)
    (hba : compareIP b a = true) :
    a = b :=
  splitOn_injective 46 (compareParts_antisymm hab hba)

/-! ## Numbers -/

/-- At the same length what follows does not matter. -/
theorem lt_append_of_lt {a b : GoString} (h : a < b) (hlen : a.length = b.length) (s t : GoString) :
    a ++ s < b ++ t := by
  induction a generalizing b with
  | nil =>
    cases b with
    | nil => exact absurd h (List.lt_irrefl [])
    | cons y b => cases hlen
  | cons x a ih =>
    cases b with
    | nil => cases hlen
    | cons y b =>
      rw [List.cons_append, List.cons_append, List.cons_lt_cons_iff]
      rcases List.cons_lt_cons_iff.mp h with hxy | ⟨rfl, hab⟩
      · exact Or.inl hxy
      · exact Or.inr ⟨rfl, ih hab (Nat.succ.inj hlen)⟩

theorem PartLt.append_digit {a b : GoString} (h : PartLt a b) (x y : UInt8) :
    PartLt (a ++ [x]) (b ++ [y]) := by
  unfold PartLt
  rw [List.length_append, List.length_append]
  rcases h with hlen | ⟨hlen, hlt⟩
  · exact Or.inl (Nat.add_lt_add_right hlen 1)
  · exact Or.inr ⟨by rw [hlen]; rfl, lt_append_of_lt hlt hlen _ _⟩

theorem digitByte_lt {m n : ℕ} (hn : n < 10) (h : m < n) : digitByte m < digitByte n := by
  rw [UInt8.lt_iff_toNat_lt, digitByte_toNat hn, digitByte_toNat (h.trans hn)]
  omega

theorem partLt_digit (a : GoString) {m n : ℕ} (hn : n < 10) (h : m < n) :
    PartLt (a ++ [digitByte m]) (a ++ [digitByte n]) := by
  refine Or.inr ⟨by rw [List.length_append, List.length_append]; rfl, ?_⟩
  refine List.append_left_lt ?_
  exact List.cons_lt_cons_iff.mpr (Or.inl (digitByte_lt hn h))

theorem itoa_of_lt {n : ℕ} (h : n < 10) : itoa n = [digitByte n] := by
  unfold itoa
  split_ifs with h0
  · rw [h0]
    rfl
  · rw [Nat.digits_of_lt 10 n h0 h]
    rfl

/-- The last digit. -/
theorem itoa_of_le {n : ℕ} (h : 10 ≤ n) : itoa n = itoa (n / 10) ++ [digitByte (n % 10)] := by
  unfold itoa
  rw [if_neg (by omega), if_neg (by omega), Nat.digits_def' (by decide) (by omega), List.map_cons,
    List.reverse_cons]

theorem partLt_itoa {m n : ℕ} (h : m < n) : PartLt (itoa m) (itoa n) := by
  induction n using Nat.strong_induction_on generalizing m with
  | _ n ih =>
    rcases Nat.lt_or_ge n 10 with hn | hn
    · rw [itoa_of_lt hn, itoa_of_lt (h.trans hn)]
      exact partLt_digit [] hn h
    · rw [itoa_of_le hn]
      rcases Nat.lt_or_ge m 10 with hm | hm
      · rw [itoa_of_lt hm]
        have hpos := List.length_pos_of_ne_nil (itoa_ne_nil (n / 10))
        refine Or.inl ?_
        rw [List.length_append]
        exact Nat.lt_add_of_pos_left hpos
      · rw [itoa_of_le hm]
        rcases Nat.lt_or_eq_of_le (Nat.div_le_div_right h.le) with hlt | heq
        · exact (ih (n / 10) (by omega) hlt).append_digit _ _
        · rw [heq]
          exact partLt_digit _ (Nat.mod_lt n (by decide)) (by omega)

/-- Numbers are compared by their values. -/
theorem partLt_itoa_iff {m n : ℕ} : PartLt (itoa m) (itoa n) ↔ m < n := by
  refine ⟨fun h => ?_, partLt_itoa⟩
  rcases Nat.lt_trichotomy m n with hlt | rfl | hgt
  · exact hlt
  · exact absurd h (PartLt.irrefl _)
  · exact absurd (h.trans (partLt_itoa hgt)) (PartLt.irrefl _)

theorem itoa_injective : Function.Injective itoa := by
  intro m n h
  have hparse := parseDigits_itoa m
  rw [h, parseDigits_itoa] at hparse
  exact (Option.some.inj hparse).symm

theorem compareParts_itoa (m n : ℕ) (as bs : List GoString) :
    compareParts (itoa m :: as) (itoa n :: bs) = true ↔
      m < n ∨ (m = n ∧ compareParts as bs = true) := by
  rw [compareParts_cons, partLt_itoa_iff, itoa_injective.eq_iff]

/-! ## Dotted quads -/

/-- An IPv4 address by its four bytes. -/
structure Quad where
  a : UInt8
  b : UInt8
  c : UInt8
  d : UInt8

/-- Its bytes as numbers without leading zeros, with dots between them. -/
def Quad.dotted (q : Quad) : GoString :=
  itoa q.a.toNat ++ 46 :: (itoa q.b.toNat ++ 46 :: (itoa q.c.toNat ++ 46 :: itoa q.d.toNat))

/-- Its value as a 32-bit number. -/
def Quad.value (q : Quad) : ℕ := ((q.a.toNat * 256 + q.b.toNat) * 256 + q.c.toNat) * 256 + q.d.toNat

theorem split_itoa (n : ℕ) : split (itoa n) 46 = [itoa n] :=
  split_of_notMem fun h => absurd (mem_itoa h).1 (by decide)

theorem split_dotted (q : Quad) :
    split q.dotted 46 = [itoa q.a.toNat, itoa q.b.toNat, itoa q.c.toNat, itoa q.d.toNat] := by
  unfold Quad.dotted
  rw [split_append_cons, split_append_cons, split_append_cons, split_itoa, split_itoa, split_itoa,
    split_itoa]
  rfl

theorem compareIP_dotted (q r : Quad) :
    compareIP q.dotted r.dotted = true ↔ q.value ≤ r.value := by
  rw [compareIP, split_dotted, split_dotted, compareParts_itoa, compareParts_itoa,
    compareParts_itoa, compareParts_itoa]
  have hb := q.b.toNat_lt
  have hc := q.c.toNat_lt
  have hd := q.d.toNat_lt
  have hb' := r.b.toNat_lt
  have hc' := r.c.toNat_lt
  have hd' := r.d.toNat_lt
  have hend : compareParts [] [] = true := rfl
  unfold Quad.value
  simp only [hend, and_true]
  omega

/-- `CompareIP` is a total order on all strings, `assetSortByIP` is the same comparison, and
    dotted quads are ordered by value. -/
theorem compareIP_order (a b c : GoString) (asset1 asset2 : Asset) (q r : Quad) :
    compareIP a a = true ∧
    (compareIP a b = true → compareIP b a = true → a = b) ∧
    (compareIP a b = true → compareIP b c = true → compareIP a c = true) ∧
    (compareIP a b = true ∨ compareIP b a = true) ∧
    assetSortByIP asset1 asset2 = compareIP asset1.ip asset2.ip ∧
    (compareIP q.dotted r.dotted = true ↔ q.value ≤ r.value) := by
  have htotal : ∀ a b, compareIP a b = true ∨ compareIP b a = true :=
    fun _ _ => compareParts_total _ _
  exact ⟨(htotal a a).elim id id, compareIP_antisymm, compareParts_trans, htotal a b,
    assetSortByIP_eq asset1 asset2, compareIP_dotted q r⟩

theorem compareIP_nine_ten : compareIP (str "9.0.0.1") (str "10.0.0.1") = true ∧
    compareIP (str "9.0.0.1") (str "10.0.0.1.x") = true :=
  have h := compareIP_order (str "9.0.0.1") (str "10.0.0.1") (str "10.0.0.1.x") default default
    ⟨9, 0, 0, 1⟩ ⟨10, 0, 0, 1⟩
  ⟨by decide, h.2.2.1 (by decide) (by decide)⟩

end GoJump.Handler
