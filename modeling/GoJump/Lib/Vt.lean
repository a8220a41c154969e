import Mathlib

/-!
# A screen

What terminals do with the characters that they are sent: `height` rows of `width` cells,
each of which shows one code point. In the last column the cursor stays where it is, and
the next character goes to the beginning of the next row (`wrapNext`); below the lowest row
the screen scrolls; no sequence moves the cursor out of the screen. Rows are counted from
the first one that was ever shown, so a row keeps its number when it is scrolled out.

`Page` describes the cells as a text that begins with the row `base` and goes on from row to
row; `Stands` and `Hangs` say to which place of the text the next character goes. A screen
can be described in this way from any row that has not been scrolled out.

* `feed_csi`: a sequence is read as a whole.
* `feed_text`: characters replace the text from the cursor on.
* `feed_line`: the same with a new row begun where the text ends with a row.
* `Stands.move`: how the sequences move the cursor from one place of the text to another.
* `Page.newRow`: the text is left behind.
-/

namespace GoJump.Lib

/-- Outside of a sequence, behind ESC, or behind `ESC [` with the characters since. -/
inductive VtParse
  | ground
  | escape
  | csi (params : List ℕ)

structure Vt where
  width : ℕ
  height : ℕ
  top : ℕ
  row : ℕ
  col : ℕ
  wrapNext : Bool
  parse : VtParse
  cell : ℕ → ℕ → ℕ

namespace Vt

/-- The code points that take a cell; the others are control characters. -/
def Printable (c : ℕ) : Prop := 32 ≤ c ∧ ¬ (127 ≤ c ∧ c < 160)

instance : DecidablePred Printable :=
  fun c => inferInstanceAs (Decidable (32 ≤ c ∧ ¬ (127 ≤ c ∧ c < 160)))

/-- The cursor goes to the next row, and the screen scrolls if it has to. -/
def index (v : Vt) : Vt := { v with row := v.row + 1, top := max v.top (v.row + 2 - v.height) }

/-- The row in which the next character is put, if the last column has been written. -/
def wrapped (v : Vt) : Vt := if v.wrapNext then { v.index with col := 0 } else v

/-- A character at the cursor. -/
def put (v : Vt) (c : ℕ) : Vt :=
  { v.wrapped with
    cell := fun r k => if r = v.wrapped.row ∧ k = v.wrapped.col then c else v.wrapped.cell r k
    col := min (v.wrapped.col + 1) (v.wrapped.width - 1)
    wrapNext := decide (v.wrapped.width ≤ v.wrapped.col + 1) }

def up (v : Vt) (n : ℕ) : Vt := { v with row := max v.top (v.row - n), wrapNext := false }

def down (v : Vt) (n : ℕ) : Vt :=
  { v with row := min (v.top + v.height - 1) (v.row + n), wrapNext := false }

def right (v : Vt) (n : ℕ) : Vt :=
  { v with col := min (v.width - 1) (v.col + n), wrapNext := false }

def left (v : Vt) (n : ℕ) : Vt := { v with col := v.col - n, wrapNext := false }

def home (v : Vt) : Vt := { v with row := v.top, col := 0, wrapNext := false }

/-- All rows of the screen are erased. -/
def eraseDisplay (v : Vt) : Vt := { v with cell := fun r k => if v.top ≤ r then 32 else v.cell r k }

/-- The row of the cursor is erased from the cursor on. -/
def eraseToRight (v : Vt) : Vt :=
  { v with cell := fun r k => if r = v.row ∧ v.col ≤ k then 32 else v.cell r k, wrapNext := false }

/-- The number that the digits of a sequence stand for. -/
def number (params : List ℕ) : ℕ := params.foldl (fun n c => n * 10 + (c - 48)) 0

/-- The sequence `ESC [ params final`. Without a number, or with zero, the cursor moves by
    one place. -/
def csi (v : Vt) (params : List ℕ) (final : ℕ) : Vt :=
  if final = 65 then v.up (max 1 (number params))
  else if final = 66 then v.down (max 1 (number params))
  else if final = 67 then v.right (max 1 (number params))
  else if final = 68 then v.left (max 1 (number params))
  else if final = 72 ∧ params = [] then v.home
  else if final = 74 ∧ params = [50] then v.eraseDisplay
  else if final = 75 ∧ params = [] then v.eraseToRight
  else v

/-- One code point. -/
def char (v : Vt) (c : ℕ) : Vt :=
  match v.parse with
  | .escape => { v with parse := if c = 91 then .csi [] else .ground }
  | .csi params =>
    if 64 ≤ c ∧ c ≤ 126 then { v with parse := .ground }.csi params c
    else { v with parse := .csi (params ++ [c]) }
  | .ground =>
    if c = 27 then { v with parse := .escape }
    else if c = 13 then { v with col := 0, wrapNext := false }
    else if c = 10 then { v.index with wrapNext := false }
    else if Printable c then v.put c
    else v

/-- All code points that the screen is sent. -/
def feed (v : Vt) (cs : List ℕ) : Vt := cs.foldl char v

variable {v : Vt} {cs : List ℕ}

theorem feed_append (v : Vt) (cs cs' : List ℕ) : v.feed (cs ++ cs') = (v.feed cs).feed cs' :=
  List.foldl_append

theorem feed_cons (v : Vt) (c : ℕ) (cs : List ℕ) : v.feed (c :: cs) = (v.char c).feed cs := rfl

@[simp] theorem wrapped_width (v : Vt) : v.wrapped.width = v.width := by
  unfold wrapped
  split_ifs <;> rfl

@[simp] theorem wrapped_height (v : Vt) : v.wrapped.height = v.height := by
  unfold wrapped
  split_ifs <;> rfl

theorem csi_size (v : Vt) (params : List ℕ) (final : ℕ) :
    (v.csi params final).width = v.width ∧ (v.csi params final).height = v.height := by
  unfold csi
  split_ifs <;> exact ⟨rfl, rfl⟩

/-- The screen keeps its size. -/
theorem char_size (v : Vt) (c : ℕ) : (v.char c).width = v.width ∧ (v.char c).height = v.height := by
  unfold char
  split
  · exact ⟨rfl, rfl⟩
  · split_ifs
    · exact csi_size _ _ _
    · exact ⟨rfl, rfl⟩
  · split_ifs
    · exact ⟨rfl, rfl⟩
    · exact ⟨rfl, rfl⟩
    · exact ⟨rfl, rfl⟩
    · exact ⟨wrapped_width v, wrapped_height v⟩
    · exact ⟨rfl, rfl⟩

theorem feed_size (v : Vt) (cs : List ℕ) :
    (v.feed cs).width = v.width ∧ (v.feed cs).height = v.height := by
  induction cs generalizing v with
  | nil => exact ⟨rfl, rfl⟩
  | cons c cs ih =>
    have hchar := v.char_size c
    have hrest := ih (v.char c)
    exact ⟨hrest.1.trans hchar.1, hrest.2.trans hchar.2⟩

@[simp] theorem feed_width (v : Vt) (cs : List ℕ) : (v.feed cs).width = v.width :=
  (v.feed_size cs).1

@[simp] theorem feed_height (v : Vt) (cs : List ℕ) : (v.feed cs).height = v.height :=
  (v.feed_size cs).2

theorem char_printable {c : ℕ} (hparse : v.parse = .ground) (hc : Printable c) :
    v.char c = v.put c := by
  have hlow := hc.1
  unfold char
  rw [hparse]
  dsimp only
  rw [if_neg (by omega), if_neg (by omega), if_neg (by omega), if_pos hc]

/-- A sequence, read as a whole. -/
theorem feed_csi (params : List ℕ) (final : ℕ) (hparse : v.parse = .ground)
    (hparams : ∀ c ∈ params, c < 64)
    (hfinal : 64 ≤ final ∧ final ≤ 126) :
    v.feed ([27, 91] ++ params ++ [final]) = v.csi params final := by
  have hread : ∀ (read rest : List ℕ), (∀ c ∈ rest, c < 64) →
      feed { v with parse := .csi read } rest = { v with parse := .csi (read ++ rest) } := by
    intro read rest hrest
    induction rest generalizing read with
    | nil => rw [List.append_nil]; rfl
    | cons c rest ih =>
      have hc := hrest c List.mem_cons_self
      have hchar : char { v with parse := .csi read } c = { v with parse := .csi (read ++ [c]) } :=
        if_neg (by omega)
      rw [feed_cons, hchar, ih _ fun c' hc' => hrest c' (List.mem_cons_of_mem _ hc'),
        List.append_assoc]
      rfl
  have hescape : v.feed [27, 91] = { v with parse := .csi [] } := by
    have hfirst : v.char 27 = { v with parse := .escape } := by
      unfold char
      rw [hparse]
      rfl
    rw [feed_cons, hfirst]
    rfl
  rw [feed_append, feed_append, hescape, hread [] params hparams, List.nil_append]
  show char { v with parse := .csi params } final = _
  have hchar : char { v with parse := .csi params } final =
    csi { v with parse := .ground } params final :=
    if_pos hfinal
  rw [hchar, ← hparse]

/-! ## Texts -/

/-- The cells of the screen: above the row `base` those of `paper`, from there on the
    characters of `text`, row after row. The rows of the text up to `base + rows` are on the
    screen, and nothing from `base` on has been scrolled out. -/
structure Page (paper : ℕ → ℕ → ℕ) (base : ℕ) (text : ℕ → ℕ) (rows : ℕ) (v : Vt) : Prop where
  width_pos : 0 < v.width
  parse_eq : v.parse = .ground
  cell_eq : ∀ r c, c < v.width →
    v.cell r c = if r < base then paper r c else text ((r - base) * v.width + c)
  top_le : v.top ≤ base
  rows_lt : base + rows < v.top + v.height

/-- The cursor is at the place `i` of the text, in a row that is on the screen. -/
structure Stands (base rows i : ℕ) (v : Vt) : Prop where
  wrap_eq : v.wrapNext = false
  row_eq : v.row = base + i / v.width
  col_eq : v.col = i % v.width
  row_le : i / v.width ≤ rows

/-- The cursor is in the last column, and the place `i` begins the next row. -/
structure Hangs (base i : ℕ) (v : Vt) : Prop where
  wrap_eq : v.wrapNext = true
  row_eq : v.row + 1 = base + i / v.width
  mod_eq : i % v.width = 0

/-- The text with the characters `cs` at the place `i`. -/
def overwrite (text : ℕ → ℕ) (i : ℕ) (cs : List ℕ) : ℕ → ℕ := fun k =>
  if i ≤ k ∧ k < i + cs.length then cs.getD (k - i) 32 else text k

theorem overwrite_nil (text : ℕ → ℕ) (i : ℕ) : overwrite text i [] = text := by
  funext k
  exact if_neg (by rw [List.length_nil]; omega)

theorem overwrite_append (text : ℕ → ℕ) (i : ℕ) (cs cs' : List ℕ) :
    overwrite (overwrite text i cs) (i + cs.length) cs' = overwrite text i (cs ++ cs') := by
  funext k
  unfold overwrite
  rw [List.length_append]
  by_cases hlater : i + cs.length ≤ k ∧ k < i + cs.length + cs'.length
  · rw [if_pos hlater, if_pos (by omega), List.getD_append_right _ _ _ _ (by omega)]
    congr 1
    omega
  · rw [if_neg hlater]
    by_cases hfirst : i ≤ k ∧ k < i + cs.length
    · rw [if_pos hfirst, if_pos (by omega), List.getD_append _ _ _ _ (by omega)]
    · rw [if_neg hfirst, if_neg (by omega)]

section Places

variable {w i : ℕ}

theorem succ_div_mod_of_last (h : i % w + 1 = w) : (i + 1) / w = i / w + 1 ∧ (i + 1) % w = 0 := by
  refine (Nat.div_mod_unique (by omega)).mpr ⟨?_, by omega⟩
  have hsplit := Nat.div_add_mod i w
  rw [Nat.mul_add]
  omega

theorem succ_div_mod_of_lt (h : i % w + 1 < w) : (i + 1) / w = i / w ∧ (i + 1) % w = i % w + 1 := by
  refine (Nat.div_mod_unique (by omega)).mpr ⟨?_, h⟩
  have hsplit := Nat.div_add_mod i w
  omega

/-- The cell of a place. -/
theorem place_eq_iff (base : ℕ) {r c : ℕ} (hw : 0 < w) (hr : base ≤ r) (hc : c < w) :
    (r - base) * w + c = i ↔ r = base + i / w ∧ c = i % w := by
  have hunique := Nat.div_mod_unique (a := i) (c := c) (d := r - base) hw
  rw [Nat.mul_comm]
  constructor
  · intro h
    have heq := hunique.mpr ⟨by omega, hc⟩
    omega
  · rintro ⟨hrow, hcol⟩
    have heq := (hunique.mp ⟨by omega, hcol.symm⟩).1
    omega

end Places

variable {paper : ℕ → ℕ → ℕ} {base rows i : ℕ} {text : ℕ → ℕ}

/-- Before the character is put, the cursor is at its place. -/
theorem wrapped_spec (hpage : Page paper base text rows v)
    (h : Stands base rows i v ∨ Hangs base i v) (hfits : i / v.width < v.height) :
    Page paper base text (max rows (i / v.width)) v.wrapped ∧
      v.wrapped.row = base + i / v.width ∧ v.wrapped.col = i % v.width := by
  have htop := hpage.top_le
  have hrows := hpage.rows_lt
  unfold wrapped
  obtain h | h := h
  · rw [if_neg (by simp [h.wrap_eq])]
    have hle := h.row_le
    rw [max_eq_left hle]
    exact ⟨hpage, h.row_eq, h.col_eq⟩
  · have hrow := h.row_eq
    rw [if_pos h.wrap_eq]
    refine ⟨⟨hpage.width_pos, hpage.parse_eq, hpage.cell_eq, ?_, ?_⟩, hrow, h.mod_eq.symm⟩
    · show max v.top (v.row + 2 - v.height) ≤ base
      omega
    · show base + max rows (i / v.width) < max v.top (v.row + 2 - v.height) + v.height
      omega

/-- One character. -/
theorem put_spec (hpage : Page paper base text rows v) (h : Stands base rows i v ∨ Hangs base i v)
    (hfits : i / v.width < v.height) (c : ℕ) :
    Page paper base (overwrite text i [c]) (max rows (i / v.width)) (v.put c) ∧
      (if (i + 1) % v.width = 0 then Hangs base (i + 1) (v.put c)
        else Stands base (max rows (i / v.width)) (i + 1) (v.put c)) := by
  obtain ⟨hpage', hrow, hcol⟩ := wrapped_spec hpage h hfits
  have hwidth := v.wrapped_width
  have hw := hpage.width_pos
  have hlt : i % v.width < v.width := Nat.mod_lt _ hw
  have hw' : (v.put c).width = v.width := hwidth
  refine ⟨⟨hpage'.width_pos, hpage'.parse_eq, ?_, hpage'.top_le, hpage'.rows_lt⟩, ?_⟩
  · intro r k hk
    rw [hw'] at hk ⊢
    show (if r = v.wrapped.row ∧ k = v.wrapped.col then c else v.wrapped.cell r k) = _
    rw [hrow, hcol, hpage'.cell_eq r k (by rw [hwidth]; exact hk), hwidth]
    by_cases hr : r < base
    · have hne : ¬ (r = base + i / v.width ∧ k = i % v.width) := fun h =>
        absurd hr (by rw [h.1]; exact Nat.not_lt.mpr (Nat.le_add_right _ _))
      rw [if_pos hr, if_pos hr, if_neg hne]
    · rw [if_neg hr, if_neg hr]
      have hplace := place_eq_iff (i := i) base hw (by omega : base ≤ r) hk
      by_cases heq : r = base + i / v.width ∧ k = i % v.width
      · have hi := hplace.mpr heq
        rw [if_pos heq, hi, overwrite, if_pos ⟨le_rfl, Nat.lt_succ_self i⟩, Nat.sub_self]
        rfl
      · have hi := mt hplace.mp heq
        rw [if_neg heq]
        exact (if_neg (by rw [List.length_singleton]; omega)).symm
  · have hwrap : (v.put c).wrapNext = decide (v.width ≤ i % v.width + 1) := by
      show decide (v.wrapped.width ≤ v.wrapped.col + 1) = _
      rw [hwidth, hcol]
    have hcol' : (v.put c).col = min (i % v.width + 1) (v.width - 1) := by
      show min (v.wrapped.col + 1) (v.wrapped.width - 1) = _
      rw [hwidth, hcol]
    have hrow' : (v.put c).row = base + i / v.width := hrow
    by_cases hlast : i % v.width + 1 = v.width
    · obtain ⟨hdiv, hmod⟩ := succ_div_mod_of_last hlast
      rw [if_pos hmod]
      refine ⟨?_, ?_, ?_⟩
      · rw [hwrap, decide_eq_true_eq]
        omega
      · rw [hrow', hw', hdiv]
        omega
      · rw [hw', hmod]
    · obtain ⟨hdiv, hmod⟩ := succ_div_mod_of_lt (w := v.width) (i := i) (by omega)
      rw [if_neg (by omega)]
      refine ⟨?_, ?_, ?_, ?_⟩
      · rw [hwrap, decide_eq_false_iff_not]
        omega
      · rw [hrow', hw', hdiv]
      · rw [hcol', hw', hmod]
        omega
      · rw [hw', hdiv]
        omega

/-- Characters, one after the other. -/
theorem feed_text (hpage : Page paper base text rows v) (h : Stands base rows i v ∨ Hangs base i v)
    (hne : cs ≠ []) (hcs : ∀ c ∈ cs, Printable c)
    (hfits : (i + cs.length - 1) / v.width < v.height) :
    Page paper base (overwrite text i cs) (max rows ((i + cs.length - 1) / v.width)) (v.feed cs) ∧
      (if (i + cs.length) % v.width = 0 then Hangs base (i + cs.length) (v.feed cs)
        else Stands base (max rows ((i + cs.length - 1) / v.width)) (i + cs.length)
          (v.feed cs)) := by
  induction cs generalizing v i rows text with
  | nil => exact absurd rfl hne
  | cons c cs ih =>
    have hchar := char_printable hpage.parse_eq (hcs c List.mem_cons_self)
    have hlast : i + (c :: cs).length - 1 = i + cs.length := by
      rw [List.length_cons]
      omega
    have hlen : i + (c :: cs).length = i + 1 + cs.length := by
      rw [List.length_cons]
      omega
    have hdiv : i / v.width ≤ (i + cs.length) / v.width :=
      Nat.div_le_div_right (Nat.le_add_right _ _)
    rw [hlast] at hfits ⊢
    obtain ⟨hput, hnext⟩ := put_spec hpage h (hdiv.trans_lt hfits) c
    rw [feed_cons, hchar]
    have hwidth : (v.put c).width = v.width := v.wrapped_width
    have hheight : (v.put c).height = v.height := v.wrapped_height
    cases hrest : cs with
    | nil => exact ⟨hput, hnext⟩
    | cons c' cs' =>
      rw [← hrest]
      have hcons : cs ≠ [] := by
        rw [hrest]
        exact List.cons_ne_nil _ _
      have hpos : 0 < cs.length := List.length_pos_of_ne_nil hcons
      have hplace : i + 1 + cs.length - 1 = i + cs.length := by omega
      have hor : Stands base (max rows (i / v.width)) (i + 1) (v.put c) ∨
          Hangs base (i + 1) (v.put c) := by
        split_ifs at hnext
        · exact .inr hnext
        · exact .inl hnext
      have hall := ih hput hor hcons (fun c hc => hcs c (List.mem_cons_of_mem _ hc))
        (by rw [hplace, hwidth, hheight]; exact hfits)
      have hover : overwrite (overwrite text i [c]) (i + 1) cs = overwrite text i (c :: cs) :=
        overwrite_append text i [c] cs
      rw [hplace, hwidth, max_assoc, max_eq_right hdiv, hover] at hall
      rw [hlen]
      exact hall

theorem char_return (hparse : v.parse = .ground) :
    v.char 13 = { v with col := 0, wrapNext := false } := by
  unfold char
  rw [hparse]
  rfl

theorem char_lineFeed (hparse : v.parse = .ground) :
    v.char 10 = { v.index with wrapNext := false } := by
  unfold char
  rw [hparse]
  rfl

theorem feed_newline (hparse : v.parse = .ground) :
    v.feed [13, 10] = { v.index with col := 0, wrapNext := false } := by
  rw [feed_cons, char_return hparse]
  exact char_lineFeed (v := { v with col := 0, wrapNext := false }) hparse

/-- A new row where the text ends with a row. -/
theorem Hangs.feed_newline (hpage : Page paper base text rows v) (h : Hangs base i v)
    (hfits : i / v.width < v.height) :
    Page paper base text (max rows (i / v.width)) (v.feed [13, 10]) ∧
      Stands base (max rows (i / v.width)) i (v.feed [13, 10]) := by
  have htop := hpage.top_le
  have hrows := hpage.rows_lt
  have hrow := h.row_eq
  rw [Vt.feed_newline hpage.parse_eq]
  refine ⟨⟨hpage.width_pos, hpage.parse_eq, hpage.cell_eq, ?_, ?_⟩, rfl, hrow, h.mod_eq.symm,
    le_max_right _ _⟩
  · show max v.top (v.row + 2 - v.height) ≤ base
    omega
  · show base + max rows (i / v.width) < max v.top (v.row + 2 - v.height) + v.height
    omega

/-- Characters, and a new row if the last of them is in the last column. -/
theorem feed_line (hpage : Page paper base text rows v) (h : Stands base rows i v)
    (hcs : ∀ c ∈ cs, Printable c) (hfits : (i + cs.length) / v.width < v.height) :
    let v' := v.feed (cs ++ if 0 < cs.length ∧ (i + cs.length) % v.width = 0 then [13, 10] else [])
    Page paper base (overwrite text i cs) (max rows ((i + cs.length) / v.width)) v' ∧
      Stands base (max rows ((i + cs.length) / v.width)) (i + cs.length) v' := by
  intro v'
  by_cases hnil : cs = []
  · subst hnil
    rw [overwrite_nil]
    have hrows : max rows ((i + ([] : List ℕ).length) / v.width) = rows := max_eq_left h.row_le
    rw [hrows]
    exact ⟨hpage, h⟩
  have hpos : 0 < cs.length := List.length_pos_of_ne_nil hnil
  have hdiv : (i + cs.length - 1) / v.width ≤ (i + cs.length) / v.width :=
    Nat.div_le_div_right (Nat.sub_le _ _)
  obtain ⟨htext, hnext⟩ := feed_text hpage (.inl h) hnil hcs (hdiv.trans_lt hfits)
  by_cases hmod : (i + cs.length) % v.width = 0
  · rw [if_pos hmod] at hnext
    have hv' : v' = (v.feed cs).feed [13, 10] := by
      show v.feed (cs ++ if _ then _ else _) = _
      rw [if_pos ⟨hpos, hmod⟩, feed_append]
    have hnew := hnext.feed_newline htext (by rw [feed_width, feed_height]; exact hfits)
    rw [feed_width, max_assoc, max_eq_right hdiv] at hnew
    rw [hv']
    exact hnew
  · rw [if_neg hmod] at hnext
    have hv' : v' = v.feed cs := by
      show v.feed (cs ++ if _ then _ else _) = _
      rw [if_neg (fun hc => hmod hc.2), List.append_nil]
    have hsame : (i + cs.length) / v.width = (i + cs.length - 1) / v.width := by
      have hlt := Nat.mod_lt (i + cs.length - 1) hpage.width_pos
      have hback : i + cs.length - 1 + 1 = i + cs.length := by omega
      by_cases hlast : (i + cs.length - 1) % v.width + 1 = v.width
      · have hzero := (succ_div_mod_of_last hlast).2
        rw [hback] at hzero
        exact absurd hzero hmod
      · have hnext :=
          (succ_div_mod_of_lt (by omega : (i + cs.length - 1) % v.width + 1 < v.width)).1
        rwa [hback] at hnext
    rw [hv', hsame]
    exact ⟨htext, hnext⟩

/-! ## The cursor -/

/-- Where the sequences that move the cursor begin and end. -/
structure OnScreen (v : Vt) : Prop where
  wrap_eq : v.wrapNext = false
  row_ge : v.top ≤ v.row
  row_lt : v.row < v.top + v.height
  col_lt : v.col < v.width

theorem Stands.onScreen (hpage : Page paper base text rows v) (h : Stands base rows i v) :
    OnScreen v where
  wrap_eq := h.wrap_eq
  row_ge := by
    rw [h.row_eq]
    exact hpage.top_le.trans (Nat.le_add_right _ _)
  row_lt := by
    rw [h.row_eq]
    exact (Nat.add_le_add_left h.row_le base).trans_lt hpage.rows_lt
  col_lt := by
    rw [h.col_eq]
    exact Nat.mod_lt _ hpage.width_pos

theorem OnScreen.up (h : OnScreen v) (n : ℕ) : OnScreen (v.up n) := by
  obtain ⟨-, hge, hlt, hcol⟩ := h
  refine ⟨rfl, le_max_left _ _, ?_, hcol⟩
  show max v.top (v.row - n) < v.top + v.height
  omega

theorem OnScreen.down (h : OnScreen v) (n : ℕ) : OnScreen (v.down n) := by
  obtain ⟨-, hge, hlt, hcol⟩ := h
  refine ⟨rfl, ?_, ?_, hcol⟩
  · show v.top ≤ min (v.top + v.height - 1) (v.row + n)
    omega
  · show min (v.top + v.height - 1) (v.row + n) < v.top + v.height
    omega

theorem OnScreen.right (h : OnScreen v) (n : ℕ) : OnScreen (v.right n) := by
  obtain ⟨-, hge, hlt, hcol⟩ := h
  refine ⟨rfl, hge, hlt, ?_⟩
  show min (v.width - 1) (v.col + n) < v.width
  omega

theorem OnScreen.up_zero (h : OnScreen v) : v.up 0 = v := by
  have hrow : max v.top (v.row - 0) = v.row := max_eq_right h.row_ge
  rw [Vt.up, hrow, ← h.wrap_eq]

theorem OnScreen.down_zero (h : OnScreen v) : v.down 0 = v := by
  have hlt := h.row_lt
  have hrow : min (v.top + v.height - 1) (v.row + 0) = v.row := by omega
  rw [Vt.down, hrow, ← h.wrap_eq]

theorem OnScreen.right_zero (h : OnScreen v) : v.right 0 = v := by
  have hlt := h.col_lt
  have hcol : min (v.width - 1) (v.col + 0) = v.col := by omega
  rw [Vt.right, hcol, ← h.wrap_eq]

theorem OnScreen.left_zero (h : OnScreen v) : v.left 0 = v := by
  rw [Vt.left, Nat.sub_zero, ← h.wrap_eq]

/-- From one place of the text to another, as the sequences move it. -/
theorem Stands.move {j : ℕ} (hpage : Page paper base text rows v) (h : Stands base rows i v)
    (hj : j / v.width ≤ rows) :
    let v' := (((v.up (i / v.width - j / v.width)).down (j / v.width - i / v.width)).right
      (j % v.width - i % v.width)).left (i % v.width - j % v.width)
    Page paper base text rows v' ∧ Stands base rows j v' := by
  intro v'
  have htop := hpage.top_le
  have hrows := hpage.rows_lt
  have hfrom := Nat.mod_lt i hpage.width_pos
  have hto := Nat.mod_lt j hpage.width_pos
  refine ⟨⟨hpage.width_pos, hpage.parse_eq, hpage.cell_eq, htop, hrows⟩, rfl, ?_, ?_, hj⟩
  · show min (v.top + v.height - 1) (max v.top (v.row - (i / v.width - j / v.width)) +
      (j / v.width - i / v.width)) = base + j / v.width
    rw [h.row_eq]
    generalize i / v.width = a
    generalize j / v.width = b at hj
    omega
  · show min (v.width - 1) (v.col + (j % v.width - i % v.width)) - (i % v.width - j % v.width) =
        j % v.width
    rw [h.col_eq]
    generalize i % v.width = a at hfrom
    generalize j % v.width = b at hto
    omega

/-- The text is left behind: a new row below the cursor, seen from there. -/
theorem Page.newRow (hpage : Page paper base text rows v) {n : ℕ} (hrow : v.row = base + n) :
    Page v.cell (base + n + 1) (fun k => text (k + (n + 1) * v.width)) 0 (v.feed [13, 10]) ∧
      Stands (base + n + 1) 0 0 (v.feed [13, 10]) := by
  have htop := hpage.top_le
  have hrows := hpage.rows_lt
  rw [Vt.feed_newline hpage.parse_eq]
  refine ⟨⟨hpage.width_pos, hpage.parse_eq, ?_, ?_, ?_⟩, rfl, ?_, ?_, ?_⟩
  · intro r c hc
    show v.cell r c = if r < base + n + 1 then v.cell r c
        else text ((r - (base + n + 1)) * v.width + c + _)
    by_cases hr : r < base + n + 1
    · rw [if_pos hr]
    · rw [if_neg hr, hpage.cell_eq r c hc, if_neg (by omega)]
      have hsub : r - base = r - (base + n + 1) + (n + 1) := by omega
      rw [hsub, Nat.add_mul]
      congr 1
      omega
  · show max v.top (v.row + 2 - v.height) ≤ base + n + 1
    omega
  · show base + n + 1 + 0 < max v.top (v.row + 2 - v.height) + v.height
    omega
  · show v.row + 1 = base + n + 1 + 0 / v.width
    rw [Nat.zero_div, hrow]
  · exact (Nat.zero_mod _).symm
  · show 0 / v.width ≤ 0
    rw [Nat.zero_div]

/-- The screen is erased, and seen from its first row. -/
theorem Page.clear (hpage : Page paper base text rows v) :
    Page v.cell v.top (fun _ => 32) 0 (v.eraseDisplay.home) ∧
      Stands v.top 0 0 (v.eraseDisplay.home) := by
  have htop := hpage.top_le
  have hrows := hpage.rows_lt
  refine ⟨⟨hpage.width_pos, hpage.parse_eq, ?_, le_rfl, ?_⟩, rfl, ?_, ?_, ?_⟩
  · intro r c _
    show (if v.top ≤ r then 32 else v.cell r c) = if r < v.top then v.cell r c else 32
    by_cases hr : r < v.top
    · rw [if_pos hr, if_neg (by omega)]
    · rw [if_neg hr, if_pos (by omega)]
  · show v.top + 0 < v.top + v.height
    omega
  · show v.top = v.top + 0 / v.width
    rw [Nat.zero_div, Nat.add_zero]
  · exact (Nat.zero_mod _).symm
  · show 0 / v.width ≤ 0
    rw [Nat.zero_div]

/-- A row of the text is erased, with the cursor at its beginning. -/
theorem Page.eraseRow (hpage : Page paper base text rows v) (h : Stands base rows i v)
    (hi : i % v.width = 0) :
    Page paper base (overwrite text i (List.replicate v.width 32)) rows v.eraseToRight ∧
      Stands base rows i v.eraseToRight := by
  refine ⟨⟨hpage.width_pos, hpage.parse_eq, ?_, hpage.top_le, hpage.rows_lt⟩, rfl, h.row_eq,
    h.col_eq, h.row_le⟩
  intro r c hc
  have hc : c < v.width := hc
  have hi' : v.width * (i / v.width) = i := by
    have hsplit := Nat.div_add_mod i v.width
    rwa [hi, Nat.add_zero] at hsplit
  show (if r = v.row ∧ v.col ≤ c then 32 else v.cell r c) =
    if r < base then paper r c else overwrite text i _ ((r - base) * v.width + c)
  rw [h.row_eq, h.col_eq, hi, hpage.cell_eq r c hc]
  by_cases hr : r < base
  · have hne : ¬ (r = base + i / v.width ∧ 0 ≤ c) := fun h =>
      absurd hr (by rw [h.1]; exact Nat.not_lt.mpr (Nat.le_add_right _ _))
    rw [if_pos hr, if_pos hr, if_neg hne]
  · rw [if_neg hr, if_neg hr, overwrite, List.length_replicate]
    by_cases heq : r = base + i / v.width
    · have hplace : (r - base) * v.width + c = i + c := by
        rw [heq, Nat.add_sub_cancel_left, Nat.mul_comm, hi']
      rw [if_pos ⟨heq, Nat.zero_le c⟩, hplace, if_pos (by omega), Nat.add_sub_cancel_left,
        List.getD_eq_getElem _ _ (by rw [List.length_replicate]; exact hc), List.getElem_replicate]
    · have hdiv : ((r - base) * v.width + c) / v.width = r - base := by
        rw [Nat.mul_comm, Nat.mul_add_div hpage.width_pos, Nat.div_eq_of_lt hc, Nat.add_zero]
      have hout : ¬ (i ≤ (r - base) * v.width + c ∧ (r - base) * v.width + c < i + v.width) := by
        rintro ⟨hlo, hhi⟩
        have hlo' := Nat.div_le_div_right (c := v.width) hlo
        have hhi' : ((r - base) * v.width + c) / v.width < i / v.width + 1 := by
          rw [Nat.div_lt_iff_lt_mul hpage.width_pos, Nat.add_mul, Nat.one_mul,
            Nat.mul_comm (i / v.width), hi']
          exact hhi
        rw [hdiv] at hlo' hhi'
        generalize i / v.width = q at heq hlo' hhi'
        omega
      rw [if_neg (fun h => heq h.1), if_neg hout]

end Vt

end GoJump.Lib
