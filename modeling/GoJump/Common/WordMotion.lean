import GoJump.Common.Terminal

/-!
# Moving by words

`countToLeftWord` and `countToRightWord` (`pkg/common/terminal.go`, lines 383–423) with the
keys Alt-Left, Alt-Right and Ctrl-W. A word begins at a character that is no space, at the
beginning of the line or behind a space.

To the right the loops stop where they should. To the left the second loop ends at index 0
without a look at the character there, so that a word at index 1, behind a single space, is
missed.

* `leftOfSpaces_spec`, `leftOfWord_spec`: where the two loops to the left stop.
* `countToRightWord_spec`: the next word, or the end of the line.
* `wordMotions_iff`: when the keys move to the beginning of a word.
* `altLeft_misses_word`: a word behind a single space.
-/

namespace GoJump.Common

open GoJump.Go

/-! ## Beginnings of words -/

/-- A word begins at this index. -/
def WordStart (runes : List ℕ) (i : ℕ) : Prop :=
  i < runes.length ∧ runes[i]? ≠ some 32 ∧ (i = 0 ∨ runes[i - 1]? = some 32)

/-- The last beginning of a word before the position, or the beginning of the line. -/
def LeftTarget (runes : List ℕ) (pos i : ℕ) : Prop :=
  (i < pos ∧ WordStart runes i ∧ ∀ j, i < j → j < pos → ¬ WordStart runes j) ∨
    (i = 0 ∧ ∀ j < pos, ¬ WordStart runes j)

/-- The first beginning of a word behind the position, or the end of the line. -/
def RightTarget (runes : List ℕ) (pos i : ℕ) : Prop :=
  (pos < i ∧ WordStart runes i ∧ ∀ j, pos < j → j < i → ¬ WordStart runes j) ∨
    (i = runes.length ∧ ∀ j, pos < j → ¬ WordStart runes j)

/-- There is one such index at most. -/
theorem LeftTarget.unique {runes : List ℕ} {pos i i' : ℕ} (h : LeftTarget runes pos i)
    (h' : LeftTarget runes pos i') : i = i' := by
  rcases h with ⟨hlt, hstart, hlast⟩ | ⟨rfl, hnone⟩ <;>
    rcases h' with ⟨hlt', hstart', hlast'⟩ | ⟨rfl, hnone'⟩
  · rcases Nat.lt_trichotomy i i' with hi | hi | hi
    · exact absurd hstart' (hlast i' hi hlt')
    · exact hi
    · exact absurd hstart (hlast' i hi hlt)
  · exact absurd hstart (hnone' i hlt)
  · exact absurd hstart' (hnone i' hlt')
  · rfl

namespace Editor

/-! ## The loops -/

/-- The first loop goes over the spaces before the position. -/
theorem leftOfSpaces_spec (runes : List ℕ) (p : ℕ) :
    leftOfSpaces runes p ≤ p ∧
      (leftOfSpaces runes p = 0 ∨ runes[leftOfSpaces runes p]? ≠ some 32) ∧
      ∀ j, leftOfSpaces runes p < j → j ≤ p → runes[j]? = some 32 := by
  induction p with
  | zero => exact ⟨le_rfl, Or.inl rfl, fun j hlt hle => absurd (hlt.trans_le hle) (Nat.lt_irrefl _)⟩
  | succ p ih =>
    rw [leftOfSpaces]
    split_ifs with hspace
    · obtain ⟨hle, hstop, hspaces⟩ := ih
      refine ⟨hle.trans (Nat.le_succ p), hstop, fun j hlt hj => ?_⟩
      rcases Nat.lt_or_eq_of_le hj with hj | rfl
      · exact hspaces j hlt (Nat.le_of_lt_succ hj)
      · exact hspace
    · exact ⟨le_rfl, Or.inr hspace, fun j hlt hj => absurd (hlt.trans_le hj) (Nat.lt_irrefl _)⟩

/-- The second loop goes to the last space, but not to one at index 0. -/
theorem leftOfWord_spec (runes : List ℕ) (q : ℕ) :
    (leftOfWord runes q = 0 ∧ ∀ j, 0 < j → j ≤ q → runes[j]? ≠ some 32) ∨
      ∃ k, leftOfWord runes q = k + 1 ∧ 0 < k ∧ k ≤ q ∧ runes[k]? = some 32 ∧
        ∀ j, k < j → j ≤ q → runes[j]? ≠ some 32 := by
  induction q with
  | zero => exact Or.inl ⟨rfl, fun j hpos hle => absurd (hpos.trans_le hle) (Nat.lt_irrefl _)⟩
  | succ q ih =>
    rw [leftOfWord]
    split_ifs with hspace
    · refine Or.inr ⟨q + 1, rfl, Nat.succ_pos q, le_rfl, hspace, fun j hlt hle => ?_⟩
      exact absurd (hlt.trans_le hle) (Nat.lt_irrefl _)
    -- the character belongs to the word
    · have hextend : ∀ k, (∀ j, k < j → j ≤ q → runes[j]? ≠ some 32) →
          ∀ j, k < j → j ≤ q + 1 → runes[j]? ≠ some 32 := by
        intro k hall j hlt hle
        rcases Nat.lt_or_eq_of_le hle with hj | rfl
        · exact hall j hlt (Nat.le_of_lt_succ hj)
        · exact hspace
      rcases ih with ⟨hzero, hall⟩ | ⟨k, hk, hpos, hle, hspace', hall⟩
      · exact Or.inl ⟨hzero, hextend 0 hall⟩
      · exact Or.inr ⟨k, hk, hpos, hle.trans (Nat.le_succ q), hspace', hextend k hall⟩

/-- A scan goes over the characters with the property, and stops at the first one without. -/
theorem takeWhile_spec {p : ℕ → Bool} (l : List ℕ) :
    (∀ j < (l.takeWhile p).length, ∃ r, l[j]? = some r ∧ p r = true) ∧
      ∀ r, l[(l.takeWhile p).length]? = some r → p r = false := by
  induction l with
  | nil => exact ⟨fun j hj => absurd hj (Nat.not_lt_zero j), fun r hr => by cases hr⟩
  | cons a l ih =>
    by_cases ha : p a = true
    · rw [List.takeWhile_cons_of_pos ha, List.length_cons]
      refine ⟨fun j hj => ?_, ih.2⟩
      cases j with
      | zero => exact ⟨a, rfl, ha⟩
      | succ j => exact ih.1 j (Nat.lt_of_succ_lt_succ hj)
    · rw [List.takeWhile_cons_of_neg ha]
      refine ⟨fun j hj => absurd hj (Nat.not_lt_zero j), fun r hr => ?_⟩
      obtain rfl : a = r := Option.some.inj hr
      exact Bool.eq_false_iff.mpr ha

/-- The same from a position of the line on: the first index behind the scan. -/
theorem exists_scanEnd (runes : List ℕ) (p : ℕ → Bool) (pos : ℕ) :
    ∃ a, a = pos + ((runes.drop pos).takeWhile p).length ∧
      (∀ j, pos ≤ j → j < a → ∃ r, runes[j]? = some r ∧ p r = true) ∧
      ∀ r, runes[a]? = some r → p r = false := by
  obtain ⟨hscan, hstop⟩ := takeWhile_spec (p := p) (runes.drop pos)
  refine ⟨_, rfl, fun j hle hlt => ?_, fun r hr => hstop r ?_⟩
  · obtain ⟨r, hr, hp⟩ := hscan (j - pos) (by omega)
    rw [List.getElem?_drop, Nat.add_sub_cancel' hle] at hr
    exact ⟨r, hr, hp⟩
  · rw [List.getElem?_drop]
    exact hr

/-! ## The positions -/

variable (ed : Editor)

theorem countToRightWord_spec :
    RightTarget ed.line ed.pos (ed.pos + ed.countToRightWord) := by
  obtain ⟨a, ha, hword, hwordEnd⟩ := exists_scanEnd ed.line (· ≠ 32) ed.pos
  obtain ⟨b, hb, hspaces, hspacesEnd⟩ := exists_scanEnd ed.line (· = 32) a
  have hcount : ed.pos + ed.countToRightWord = b := by
    unfold countToRightWord
    dsimp only
    rw [← ha, hb, ← Nat.add_assoc, ← ha]
  have hle : b ≤ ed.line.length := hcount ▸ ed.pos_add_countToRightWord_le
  rw [hcount]
  simp only [decide_eq_true_eq, decide_eq_false_iff_not, not_not]
    at hword hwordEnd hspaces hspacesEnd
  have hpa : ed.pos ≤ a := ha ▸ Nat.le_add_right _ _
  have hab : a ≤ b := hb ▸ Nat.le_add_right _ _
  -- no word begins before: in the word there is no space, and behind it only spaces
  have hnone : ∀ j, ed.pos < j → j < b → ¬ WordStart ed.line j := by
    rintro j hpos hj ⟨-, hrune, hbefore⟩
    rcases Nat.lt_or_ge a j with haj | hja
    · obtain ⟨r, hr, rfl⟩ := hspaces j haj.le hj
      exact hrune hr
    · obtain ⟨r, hr, hne⟩ := hword (j - 1) (by omega) (by omega)
      rcases hbefore with h0 | hspace
      · omega
      · rw [hr] at hspace
        exact hne (Option.some.inj hspace)
  rcases Nat.lt_or_eq_of_le hle with hlt | hend
  · -- the word ends before `b`, at a space
    obtain ⟨r, hr⟩ : ∃ r, ed.line[b]? = some r := ⟨_, List.getElem?_eq_getElem hlt⟩
    have hne : a ≠ b := by
      rintro rfl
      exact hspacesEnd r hr (hwordEnd r hr)
    obtain ⟨r', hr', rfl⟩ := hspaces (b - 1) (by omega) (by omega)
    refine Or.inl ⟨by omega, ⟨hlt, ?_, Or.inr hr'⟩, hnone⟩
    rw [hr]
    exact fun h => hspacesEnd r hr (Option.some.inj h)
  · refine Or.inr ⟨hend, fun j hpos hstart => ?_⟩
    exact hnone j hpos (hend ▸ hstart.1) hstart

/-- The last word before the position begins at index 1, behind a single space. -/
def BehindSpace (runes : List ℕ) (pos : ℕ) : Prop :=
  1 < pos ∧ WordStart runes 1 ∧ ∀ j, 1 < j → j < pos → ¬ WordStart runes j

instance (runes : List ℕ) (i : ℕ) : Decidable (WordStart runes i) :=
  inferInstanceAs (Decidable (_ ∧ _ ∧ _))

/-- Where the two loops stop: at the last beginning of a word, or at 0 instead of 1. -/
theorem leftOfWord_target {runes : List ℕ} {p : ℕ} (hp : p < runes.length) :
    (LeftTarget runes (p + 1) (leftOfWord runes (leftOfSpaces runes p)) ∨
        leftOfWord runes (leftOfSpaces runes p) = 0 ∧ BehindSpace runes (p + 1)) ∧
      leftOfWord runes (leftOfSpaces runes p) ≤ p + 1 := by
  obtain ⟨hq, hstop, hspaces⟩ := leftOfSpaces_spec runes p
  have hspec := leftOfWord_spec runes (leftOfSpaces runes p)
  generalize leftOfSpaces runes p = q at *
  generalize leftOfWord runes q = i at *
  -- no word begins among the spaces, nor inside of the word
  have hnone : ∀ k, (∀ j, k < j → j ≤ q → runes[j]? ≠ some 32) →
      ∀ j, k + 1 < j → j < p + 1 → ¬ WordStart runes j := by
    rintro k hall j hlt hj ⟨-, hrune, hbefore⟩
    rcases Nat.lt_or_ge q j with hqj | hjq
    · exact hrune (hspaces j hqj (Nat.le_of_lt_succ hj))
    · rcases hbefore with h0 | hspace
      · omega
      · exact hall (j - 1) (by omega) (by omega) hspace
  rcases hspec with ⟨rfl, hall⟩ | ⟨k, rfl, hpos, hkq, hspace, hall⟩
  · refine ⟨?_, Nat.zero_le _⟩
    by_cases hfirst : runes[0]? = some 32
    · rcases Nat.eq_zero_or_pos q with rfl | hq0
      · refine Or.inl (Or.inr ⟨rfl, fun j hj hstart => ?_⟩)
        rcases Nat.eq_zero_or_pos j with rfl | hj0
        · exact hstart.2.1 hfirst
        · exact hstart.2.1 (hspaces j hj0 (Nat.le_of_lt_succ hj))
      · -- the loop does not see the space at index 0
        exact Or.inr
          ⟨rfl, by omega, ⟨by omega, hall 1 Nat.one_pos hq0, Or.inr hfirst⟩, hnone 0 hall⟩
    · refine Or.inl
        (Or.inl ⟨Nat.succ_pos p, ⟨by omega, hfirst, Or.inl rfl⟩, fun j hj0 hj hstart => ?_⟩)
      rcases Nat.lt_or_eq_of_le (Nat.succ_le_of_lt hj0) with hj1 | rfl
      · exact hnone 0 hall j hj1 hj hstart
      · exact hstart.2.2.elim (by omega) hfirst
  · have hne : k ≠ q := by
      rintro rfl
      exact hstop.elim (by omega) fun h => h hspace
    have hstart : WordStart runes (k + 1) :=
      ⟨by omega, hall (k + 1) (by omega) (by omega), Or.inr hspace⟩
    exact ⟨Or.inl (Or.inl ⟨by omega, hstart, hnone k hall⟩), by omega⟩

/-- The position to the left is the beginning of a word, unless a word behind a single space
    is missed. -/
theorem countToLeftWord_iff :
    LeftTarget ed.line ed.pos (ed.pos - ed.countToLeftWord) ↔ ¬ BehindSpace ed.line ed.pos := by
  have hpos := ed.pos_le
  unfold countToLeftWord
  rcases Nat.eq_zero_or_pos ed.pos with h0 | h0
  · rw [h0]
    refine iff_of_true (Or.inr ⟨rfl, fun j hj => absurd hj (Nat.not_lt_zero j)⟩) fun h => ?_
    exact absurd h.1 (Nat.not_lt_zero 1)
  rw [if_neg h0.ne']
  obtain ⟨p, hp⟩ := Nat.exists_eq_succ_of_ne_zero h0.ne'
  rw [hp, Nat.succ_sub_one]
  obtain ⟨htarget, hle⟩ := leftOfWord_target (show p < ed.line.length by omega)
  rw [Nat.sub_sub_self hle]
  constructor
  · rintro h hbehind
    -- the loops never stop at index 1
    have hone := h.unique (Or.inl hbehind)
    rcases leftOfWord_spec ed.line (leftOfSpaces ed.line p) with ⟨hzero, -⟩ | ⟨k, hk, hkpos, -⟩
    · omega
    · omega
  · intro hnot
    exact htarget.resolve_right fun h => hnot h.2

end Editor

/-! ## The keys -/

/-- The two counts lead to beginnings of words, and so do the keys: Alt-Left and Alt-Right
    move there, and Ctrl-W deletes what is in between. -/
structure WordMotions (ed : Editor) : Prop where
  left : LeftTarget ed.line ed.pos (ed.pos - ed.countToLeftWord)
  right : RightTarget ed.line ed.pos (ed.pos + ed.countToRightWord)
  altLeft : ed.pasteActive = false → ∃ i, LeftTarget ed.line ed.pos i ∧
    (ed.handleKey keyAltLeft).1.line = ed.line ∧ (ed.handleKey keyAltLeft).1.pos = i
  altRight : ed.pasteActive = false → ∃ i, RightTarget ed.line ed.pos i ∧
    (ed.handleKey keyAltRight).1.line = ed.line ∧ (ed.handleKey keyAltRight).1.pos = i
  deleteWord : ed.pasteActive = false → ∃ i, LeftTarget ed.line ed.pos i ∧
    (ed.handleKey keyDeleteWord).1.line = ed.line.take i ++ ed.line.drop ed.pos ∧
    (ed.handleKey keyDeleteWord).1.pos = i

/-- The keys do what they should, unless the last word before the cursor begins at index 1. -/
theorem wordMotions_iff (ed : Editor) : WordMotions ed ↔ ¬ Editor.BehindSpace ed.line ed.pos := by
  rw [← Editor.countToLeftWord_iff]
  refine ⟨fun h => h.left, fun hleft => ⟨hleft, ed.countToRightWord_spec, fun hpaste => ?_,
    fun hpaste => ?_, fun hpaste => ?_⟩⟩
  · refine ⟨_, hleft, ?_⟩
    rw [Editor.handleKey_of_typed hpaste]
    exact ⟨rfl, rfl⟩
  · refine ⟨_, ed.countToRightWord_spec, ?_⟩
    rw [Editor.handleKey_of_typed hpaste]
    exact ⟨rfl, rfl⟩
  · refine ⟨_, hleft, ?_⟩
    rw [Editor.handleKey_of_typed hpaste]
    exact ⟨rfl, rfl⟩

/-- From the end of a line with a word behind a single space, Alt-Left goes to the beginning
    of the line, and Ctrl-W deletes the space too. -/
theorem altLeft_misses_word :
    let ed : Editor := { Editor.new with line := runes (str " ab"), pos := 3, pos_le := by decide }
    WordStart ed.line 1 ∧ (ed.handleKey keyAltLeft).1.pos = 0 ∧
      (ed.handleKey keyDeleteWord).1.line = [] := by
  decide

end GoJump.Common
