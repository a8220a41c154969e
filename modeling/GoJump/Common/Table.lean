import GoJump.Go.Utf8
import GoJump.Lib.Spread

/-!
# Tables

Model of `WrapperTable` (`pkg/common/table.go` lines 17–165 and 195–214): the widths of the
columns and the truncation of the cells. A map is a function to its value or nothing; the
order of a `range` over `FieldsSize` is a parameter, one for each round of the loop. The sums
of widths are `int`s and wrap. What `tablewriter` draws from the cells is left out.

* `calculateColumnsSize_wraps`: two columns whose widths overflow together make a third one
  grow although the total is exceeded.
* `calculateColumnsSize_spec`: if the excess over the total is an `int`, the loop ends, the
  widths respect the sizes of the columns, and they add up to the total unless no column
  can change any more.
* `convertDataToSlice_iff`: every cell is cut as it should be, except under `TruncPrefix`.
* `truncated_prefix_long`: there a value of nine bytes becomes one of eleven in a column of
  width five.
-/

namespace GoJump.Common

open GoJump.Go GoJump.Lib

inductive TruncPolicy
  | truncSuffix
  | truncPrefix
  | truncMiddle
  deriving DecidableEq

/-- An entry of `FieldsSize`: the fixed width, the smallest and the largest one. -/
structure ColumnSize where
  size : ℤ
  min : ℤ
  max : ℤ
  deriving DecidableEq, Inhabited

/-- `WrapperTable`. `fieldsSize` and `totalSize` are the exported fields; `widths` and
    `innerSize` are those that are computed, a width of 0 for a column that is not in the
    map. -/
structure WrapperTable where
  labels : Option (List GoString)
  fields : List GoString
  fieldsSize : GoString → Option ColumnSize
  data : List (GoString → Option GoString)
  totalSize : ℤ
  truncPolicy : TruncPolicy
  innerSize : ℤ
  paddingSize : ℤ
  bolderSize : ℤ
  widths : GoString → ℤ

namespace WrapperTable

/-- `t.FieldsSize[k]`. -/
def sizeOf (t : WrapperTable) (k : GoString) : ColumnSize := (t.fieldsSize k).getD ⟨0, 0, 0⟩

/-- The loop of `Initial` (lines 42–49): a column is at least as wide as its title. -/
def widenTitles (fieldsSize : GoString → Option ColumnSize) (columns : List (GoString × GoString)) :
    GoString → Option ColumnSize :=
  columns.foldl (fun sizes (k, label) =>
    let sizeDefine := (sizes k).getD ⟨0, 0, 0⟩
    if sizeDefine.min < label.length then
      Function.update sizes k (some { sizeDefine with min := label.length })
    else sizes) fieldsSize

/-- `Initial` (lines 32–50); `none` is the panic. -/
def initial (t : WrapperTable) : Option WrapperTable :=
  let labels := t.labels.getD t.fields
  if t.fields.length ≠ labels.length then none
  else some { t with
    labels := some labels
    paddingSize := 1
    bolderSize := 1
    fieldsSize := widenTitles t.fieldsSize (t.fields.zip labels) }

/-- The entry of a column in `dataColMaxSize` after one more row (lines 58–64). -/
def growColSize (k : GoString) (entry : Option ℕ) (row : GoString → Option GoString) : Option ℕ :=
  match row k with
  | none => entry
  | some colValue =>
    match entry with
    | none => some colValue.length
    | some preSize => if preSize < colValue.length then some colValue.length else entry

/-- `dataColMaxSize` after the loop over the rows (lines 55–66). -/
def dataColMaxSize (t : WrapperTable) (k : GoString) : Option ℕ :=
  if k ∈ t.fields then t.data.foldl (growColSize k) none else none

/-- The width of a column with data up to `v` wide (lines 72–81). -/
def startWidth (c : ColumnSize) (v : ℕ) : ℤ :=
  if c.size ≠ 0 then c.size
  else if c.max ≠ 0 ∧ c.max < v then c.max
  else if c.min ≠ 0 ∧ (v : ℤ) < c.min then c.min
  else v

/-- `fieldsSize` before it is fitted to the total (lines 71–82). -/
def startWidths (t : WrapperTable) (k : GoString) : ℤ :=
  match t.dataColMaxSize k with
  | none => 0
  | some v => startWidth (t.sizeOf k) v

/-- `calSize` (lines 85–88). The sum wraps, so that the order of its terms makes no
    difference. -/
def calSize (t : WrapperTable) : ℤ := wrapInt (∑ k ∈ t.fields.toFinset, t.startWidths k)

/-- Whether a column of this width can be changed by the step (lines 110–123). -/
def canChange (t : WrapperTable) (step : ℤ) (k : GoString) (width : ℤ) : Bool :=
  let c := t.sizeOf k
  if step = 1 then decide (¬ (c.size ≠ 0 ∨ (c.max ≠ 0 ∧ c.max ≤ width)))
  else decide (¬ (c.size ≠ 0 ∨ width ≤ c.min))

/-- `totalSize` (line 95). -/
def innerWidth (t : WrapperTable) : ℤ :=
  wrapInt (t.totalSize - t.fields.length * 2 * t.paddingSize -
    (t.fields.length + 1) * t.bolderSize)

/-- `Abs` (`pkg/common/util.go` lines 179–184). -/
def abs (x : ℤ) : ℤ := if x < 0 then wrapInt (-x) else x

/-- `CalculateColumnsSize` (lines 52–136) with the orders of the `range` at line 109; `none`
    while the loop has not ended after `fuel` rounds. -/
def calculateColumnsSize (orders : ℕ → List GoString) (fuel : ℕ) (t : WrapperTable) :
    Option WrapperTable :=
  let calSize := t.calSize
  if t.totalSize = 0 then some { t with widths := t.startWidths, innerSize := calSize }
  else
    let delta := wrapInt (t.innerWidth - calSize)
    if delta = 0 then some { t with widths := t.startWidths, innerSize := t.innerWidth }
    else
      let step : ℤ := if delta < 0 then -1 else 1
      let bump (width : ℤ) : ℤ := wrapInt (width + step)
      (spread (t.canChange step) bump orders fuel 0 (abs delta).toNat t.startWidths).map
        fun widths => { t with widths := widths, innerSize := t.innerWidth }

/-! ## Widths -/

/-- A width that respects the sizes of its column: the fixed one, or one between the
    smallest and the largest. -/
def Fits (c : ColumnSize) (width : ℤ) : Prop :=
  (c.size ≠ 0 → width = c.size) ∧
    (c.size = 0 → c.min ≤ width ∧ (c.max ≠ 0 → width ≤ c.max))

/-- The loop of `Initial` changes the smallest widths only, and only of columns that are
    in the map. -/
theorem isSome_widenTitles {fieldsSize : GoString → Option ColumnSize}
    {columns : List (GoString × GoString)}
    (h : ∀ c ∈ columns, (fieldsSize c.1).isSome = true) (k : GoString) :
    (widenTitles fieldsSize columns k).isSome = (fieldsSize k).isSome := by
  induction columns generalizing fieldsSize with
  | nil => rfl
  | cons c columns ih =>
    obtain ⟨hc, hcolumns⟩ := List.forall_mem_cons.mp h
    have hstep : ∀ j (v : ColumnSize),
        (Function.update fieldsSize c.1 (some v) j).isSome = (fieldsSize j).isSome := by
      intro j v
      by_cases hj : j = c.1
      · rw [hj, Function.update_self, hc]
        rfl
      · rw [Function.update_of_ne hj]
    unfold widenTitles
    rw [List.foldl_cons]
    dsimp only
    split_ifs
    · rw [← hstep k, ← ih fun c' hc' => (hstep c'.1 _).trans (hcolumns c' hc')]
      rfl
    · exact ih hcolumns

variable {t : WrapperTable}

theorem isSome_growColSize {k : GoString} {entry : Option ℕ} {row : GoString → Option GoString} :
    (growColSize k entry row).isSome = (entry.isSome || (row k).isSome) := by
  unfold growColSize
  cases row k with
  | none => simp
  | some colValue =>
    cases entry with
    | none => rfl
    | some preSize =>
      dsimp only
      split_ifs <;> rfl

theorem growColSize_le {k : GoString} {n : ℕ} {entry : Option ℕ}
    {row : GoString → Option GoString} (hentry : ∀ v ∈ entry, v ≤ n)
    (hrow : ∀ value ∈ row k, value.length ≤ n) : ∀ v ∈ growColSize k entry row, v ≤ n := by
  unfold growColSize
  cases hvalue : row k with
  | none => exact hentry
  | some colValue =>
    have hle := hrow colValue hvalue
    cases entry with
    | none => simpa using hle
    | some preSize =>
      dsimp only
      split_ifs
      · simpa using hle
      · exact hentry

/-- A column that is in some row has a largest datum. -/
theorem isSome_dataColMaxSize {k : GoString} (hk : k ∈ t.fields)
    (h : ∃ row ∈ t.data, (row k).isSome = true) : (t.dataColMaxSize k).isSome = true := by
  rw [dataColMaxSize, if_pos hk]
  have hfold : ∀ (rows : List (GoString → Option GoString)) (entry : Option ℕ),
      (entry.isSome = true ∨ ∃ row ∈ rows, (row k).isSome = true) →
      (rows.foldl (growColSize k) entry).isSome = true := by
    intro rows
    induction rows with
    | nil =>
      rintro entry (hentry | ⟨row, hrow, -⟩)
      · exact hentry
      · cases hrow
    | cons row rows ih =>
      intro entry hsome
      apply ih
      rw [isSome_growColSize, Bool.or_eq_true, or_assoc]
      simpa only [List.mem_cons, exists_eq_or_imp] using hsome
  exact hfold t.data none (Or.inr h)

/-- No datum is wider than the largest. -/
theorem dataColMaxSize_le {k : GoString} {n : ℕ}
    (h : ∀ row ∈ t.data, ∀ value ∈ row k, value.length ≤ n) :
    ∀ v ∈ t.dataColMaxSize k, v ≤ n := by
  unfold dataColMaxSize
  split_ifs
  · have hfold : ∀ (rows : List (GoString → Option GoString)) (entry : Option ℕ),
        (∀ row ∈ rows, ∀ value ∈ row k, value.length ≤ n) → (∀ v ∈ entry, v ≤ n) →
        ∀ v ∈ rows.foldl (growColSize k) entry, v ≤ n := by
      intro rows
      induction rows with
      | nil => exact fun _ _ hentry => hentry
      | cons row rows ih =>
        intro entry hrows hentry
        obtain ⟨hrow, hrows⟩ := List.forall_mem_cons.mp hrows
        exact ih _ hrows (growColSize_le hentry hrow)
    exact hfold t.data none h nofun
  · exact nofun

theorem startWidth_fits {c : ColumnSize} (hmin : c.max ≠ 0 → c.min ≤ c.max) (v : ℕ) :
    Fits c (startWidth c v) := by
  unfold Fits startWidth
  split_ifs <;> omega

/-- A permitted step keeps a width within its sizes. -/
theorem fits_step {step : ℤ} (hstep : step = 1 ∨ step = -1) {k : GoString} {width : ℤ}
    (hcan : t.canChange step k width = true) (hfits : Fits (t.sizeOf k) width) :
    Fits (t.sizeOf k) (width + step) := by
  unfold Fits at hfits ⊢
  unfold canChange at hcan
  rcases hstep with rfl | rfl
  · rw [if_pos rfl, decide_eq_true_eq] at hcan
    omega
  · rw [if_neg (by decide), decide_eq_true_eq] at hcan
    omega

/-- A column that cannot be changed has reached its bound. -/
theorem reached_of_canChange_eq_false {step : ℤ} {k : GoString} {width : ℤ}
    (hcan : t.canChange step k width = false) (hfits : Fits (t.sizeOf k) width)
    (hsize : (t.sizeOf k).size = 0) :
    (step = 1 → (t.sizeOf k).max ≠ 0 ∧ width = (t.sizeOf k).max) ∧
      (step ≠ 1 → width = (t.sizeOf k).min) := by
  unfold Fits at hfits
  unfold canChange at hcan
  by_cases hstep : step = 1
  · rw [if_pos hstep, decide_eq_false_iff_not] at hcan
    exact ⟨fun _ => by omega, fun h => absurd hstep h⟩
  · rw [if_neg hstep, decide_eq_false_iff_not] at hcan
    exact ⟨fun h => absurd h hstep, fun _ => by omega⟩

/-- The widths add up to the total; or they are below it and every column that is not fixed
    has its largest width, or above it and every such column has its smallest one. -/
def AddUp (t t' : WrapperTable) : Prop :=
  let sum := ∑ k ∈ t.fields.toFinset, t'.widths k
  sum = t'.innerSize ∨
    (sum < t'.innerSize ∧ ∀ k ∈ t.fields, (t.sizeOf k).size = 0 →
      (t.sizeOf k).max ≠ 0 ∧ t'.widths k = (t.sizeOf k).max) ∨
    (t'.innerSize < sum ∧ ∀ k ∈ t.fields, (t.sizeOf k).size = 0 →
      t'.widths k = (t.sizeOf k).min)

/-! ## Sums that are `int`s -/

/-- The numbers of the table are those of the program: `int`s, the sizes not negative. -/
structure WellSized (t : WrapperTable) : Prop where
  size : ∀ k ∈ t.fields, 0 ≤ (t.sizeOf k).size ∧ (t.sizeOf k).size ≤ maxInt
  min : ∀ k ∈ t.fields, 0 ≤ (t.sizeOf k).min ∧ (t.sizeOf k).min ≤ maxInt
  max : ∀ k ∈ t.fields, 0 ≤ (t.sizeOf k).max ∧ (t.sizeOf k).max ≤ maxInt
  data : ∀ row ∈ t.data, ∀ k, ∀ value ∈ row k, value.length ≤ maxInt
  total : IsInt t.totalSize

/-- The total without the borders and the padding that `Initial` sets. -/
def target (t : WrapperTable) : ℤ := t.totalSize - (3 * t.fields.length + 1)

/-- By how much the widths exceed the total before they are fitted to it. -/
def excess (t : WrapperTable) : ℤ := ∑ k ∈ t.fields.toFinset, t.startWidths k - t.target

/-- A column starts with an `int` that is not negative. -/
theorem WellSized.startWidths (h : t.WellSized) {k : GoString} (hk : k ∈ t.fields) :
    0 ≤ t.startWidths k ∧ t.startWidths k ≤ maxInt := by
  have hsize := h.size k hk
  have hmin := h.min k hk
  have hmax := h.max k hk
  unfold WrapperTable.startWidths
  cases hv : t.dataColMaxSize k with
  | none => exact ⟨le_rfl, Int.natCast_nonneg _⟩
  | some v =>
    have hle := dataColMaxSize_le (fun row hrow => h.data row hrow k) v hv
    dsimp only
    unfold startWidth
    split_ifs <;> omega

/-- The difference that the code computes is the exact one if that is an `int`. -/
theorem wrapInt_delta (hpad : t.paddingSize = 1) (hbolder : t.bolderSize = 1)
    (hexcess : IsInt (-t.excess)) : wrapInt (t.innerWidth - t.calSize) = -t.excess := by
  rw [innerWidth, calSize, wrapInt_sub, hpad, hbolder, ← wrapInt_of_isInt hexcess]
  congr 1
  unfold excess target
  ring

/-- What a width keeps while the loop has `b` steps left: it respects the sizes, and it is
    an `int` now and after these steps. -/
structure Steppable (t : WrapperTable) (step : ℤ) (b : ℕ) (k : GoString) (width : ℤ) : Prop where
  fits : Fits (t.sizeOf k) width
  now : IsInt width
  after : IsInt (width + step * b)

theorem Steppable.mono {step : ℤ} (hstep : step = 1 ∨ step = -1) {b b' : ℕ} {k : GoString}
    {width : ℤ} (hle : b' ≤ b) (h : t.Steppable step b k width) : t.Steppable step b' k width := by
  obtain ⟨hfits, hnow, hafter⟩ := h
  refine ⟨hfits, hnow, ?_⟩
  unfold IsInt at hnow hafter ⊢
  rcases hstep with rfl | rfl <;> omega

/-- A permitted step does not wrap. -/
theorem Steppable.step {step : ℤ} (hstep : step = 1 ∨ step = -1) {b : ℕ} {k : GoString}
    {width : ℤ} (hcan : t.canChange step k width = true) (h : t.Steppable step (b + 1) k width) :
    wrapInt (width + step) = width + step ∧ t.Steppable step b k (width + step) := by
  obtain ⟨hfits, hnow, hafter⟩ := h
  have hint : IsInt (width + step) := by
    unfold IsInt at hnow hafter ⊢
    push_cast at hafter
    rcases hstep with rfl | rfl <;> omega
  refine ⟨wrapInt_of_isInt hint, fits_step hstep hcan hfits, hint, ?_⟩
  have hsame : width + step + step * b = width + step * (b + 1 : ℕ) := by
    push_cast
    ring
  rw [hsame]
  exact hafter

/-- Before the loop every width has room for all its steps: the widths of the other columns
    are not negative, so that one column alone grows up to the total at most. -/
theorem WellSized.steppable (h : t.WellSized) (hexcess : t.excess ≤ maxInt) {step : ℤ}
    (hstep : step = 1 ∧ t.excess < 0 ∨ step = -1 ∧ 0 < t.excess) {k : GoString} (hk : k ∈ t.fields)
    (hfits : Fits (t.sizeOf k) (t.startWidths k)) :
    t.Steppable step t.excess.natAbs k (t.startWidths k) := by
  obtain ⟨hnonneg, hmax⟩ := h.startWidths hk
  have hle : t.startWidths k ≤ ∑ j ∈ t.fields.toFinset, t.startWidths j :=
    Finset.single_le_sum (fun j hj => (h.startWidths (List.mem_toFinset.mp hj)).1)
      (List.mem_toFinset.mpr hk)
  have htotal := h.total.2
  refine ⟨hfits, ?_, ?_⟩
  · unfold IsInt
    omega
  · unfold IsInt
    unfold excess target at hexcess hstep ⊢
    rcases hstep with ⟨rfl, hneg⟩ | ⟨rfl, hpos⟩ <;> omega

/-- The widths before and after they are fitted to the total. -/
theorem calculateColumnsSize_of_fits {orders : ℕ → List GoString}
    (hnodup : ∀ i, (orders i).Nodup) (horders : ∀ i, (orders i).toFinset = t.fields.toFinset)
    (hpad : t.paddingSize = 1) (hbolder : t.bolderSize = 1) (hsized : t.WellSized)
    (hexcess : t.excess ≤ maxInt) (htotal : t.totalSize ≠ 0)
    (hstart : ∀ k ∈ t.fields, Fits (t.sizeOf k) (t.startWidths k)) :
    ∃ fuel t', t.calculateColumnsSize orders fuel = some t' ∧ t'.innerSize = t.target ∧
      (∀ k ∈ t.fields, Fits (t.sizeOf k) (t'.widths k)) ∧ AddUp t t' := by
  have hsum₀ : 0 ≤ ∑ k ∈ t.fields.toFinset, t.startWidths k :=
    Finset.sum_nonneg fun k hk => (hsized.startWidths (List.mem_toFinset.mp hk)).1
  have hcal : ∑ k ∈ t.fields.toFinset, t.startWidths k = t.excess + t.target := by
    unfold excess
    ring
  have htarget : t.innerWidth = t.target := by
    have hint := hsized.total.2
    rw [innerWidth, hpad, hbolder, ← wrapInt_of_isInt (x := t.target) (by
      unfold IsInt
      unfold target at hcal ⊢
      omega)]
    congr 1
    unfold target
    ring
  have hdelta : wrapInt (t.innerWidth - t.calSize) = -t.excess := by
    refine wrapInt_delta hpad hbolder ?_
    have hint := hsized.total.2
    unfold IsInt
    unfold target at hcal
    omega
  by_cases hzero : t.excess = 0
  · refine ⟨0, { t with widths := t.startWidths, innerSize := t.innerWidth }, ?_, htarget, hstart,
      Or.inl ?_⟩
    · rw [calculateColumnsSize]
      dsimp only
      rw [if_neg htotal, hdelta, if_pos (by omega)]
    · show ∑ k ∈ t.fields.toFinset, t.startWidths k = t.innerWidth
      omega
  obtain ⟨step, hif, hstep⟩ : ∃ step : ℤ, (if -t.excess < 0 then -1 else 1) = step ∧
      (step = 1 ∧ t.excess < 0 ∨ step = -1 ∧ 0 < t.excess) := by
    refine ⟨_, rfl, ?_⟩
    split_ifs <;> omega
  have hunit : step = 1 ∨ step = -1 := hstep.imp And.left And.left
  have habs : (abs (-t.excess)).toNat = t.excess.natAbs := by
    unfold abs
    split_ifs
    · rw [neg_neg, wrapInt_of_isInt ⟨by omega, hexcess⟩]
      omega
    · omega
  obtain ⟨w, used, hspread, hused, hkeep, hsum, hend⟩ := spread_spec (P := t.Steppable step)
    (fun b k v hcan h => h.step hunit hcan) (fun hle h => h.mono hunit hle) hnodup horders
    (Nat.lt_succ_self t.excess.natAbs) 0 (w := t.startWidths)
    (fun k hk => hsized.steppable hexcess hstep (List.mem_toFinset.mp hk)
      (hstart k (List.mem_toFinset.mp hk)))
  have hfits : ∀ k ∈ t.fields, Fits (t.sizeOf k) (w k) := fun k hk =>
    (hkeep k (List.mem_toFinset.mpr hk)).fits
  refine ⟨t.excess.natAbs + 1, { t with widths := w, innerSize := t.innerWidth }, ?_, htarget,
    hfits, ?_⟩
  · rw [calculateColumnsSize]
    dsimp only
    rw [if_neg htotal, hdelta, if_neg (by omega), hif, habs, hspread]
    rfl
  · unfold AddUp
    dsimp only
    rw [hsum, hcal, htarget]
    have hreached : ∀ k ∈ t.fields, (t.sizeOf k).size = 0 →
        used < t.excess.natAbs → _ := fun k hk hsize hlt =>
      reached_of_canChange_eq_false
        (hend.resolve_left (Nat.ne_of_lt hlt) k (List.mem_toFinset.mpr hk)) (hfits k hk) hsize
    rcases Nat.lt_or_ge used t.excess.natAbs with hlt | hge
    · rcases hstep with ⟨rfl, hneg⟩ | ⟨rfl, hpos⟩
      · exact Or.inr (Or.inl ⟨by omega, fun k hk h => (hreached k hk h hlt).1 rfl⟩)
      · exact Or.inr (Or.inr ⟨by omega, fun k hk h => (hreached k hk h hlt).2 (by decide)⟩)
    · left
      rcases hstep with ⟨rfl, hneg⟩ | ⟨rfl, hpos⟩ <;> omega

/-- Two columns of the greatest width, and one that is not fixed. -/
def hugeColumns : WrapperTable where
  labels := none
  fields := [str "A", str "B", str "C"]
  fieldsSize k :=
    if k ∈ [str "A", str "B"] then some ⟨maxInt, 0, 0⟩
    else if k = str "C" then some ⟨0, 0, 0⟩ else none
  data := [fun _ => some []]
  totalSize := 10
  truncPolicy := .truncMiddle
  innerSize := 0
  paddingSize := 0
  bolderSize := 0
  widths _ := 0

/-- The sum of the widths wraps to -1, so that the third column grows from 1 to 2 though the
    total without borders and padding is 0. -/
theorem calculateColumnsSize_wraps :
    ∃ t t', hugeColumns.initial = some t ∧ t.WellSized ∧
      t.calculateColumnsSize (fun _ => t.fields) 2 = some t' ∧ t'.widths (str "C") = 2 ∧
      ¬ AddUp t t' := by
  refine ⟨_, _, rfl, ?_, rfl, by decide, ?_⟩
  · refine ⟨by decide, by decide, by decide, ?_, by unfold IsInt; decide⟩
    rintro row hrow k value hvalue
    obtain rfl := List.mem_singleton.mp hrow
    cases hvalue
    exact Nat.zero_le _
  · rintro (h | ⟨h, -⟩ | ⟨-, h⟩)
    · exact absurd h (by decide)
    · exact absurd h (by decide)
    · exact absurd (h (str "C") (by decide) (by decide)) (by decide)

/-- For every table whose `FieldsSize` has its fields as keys, with the smallest width of a
    column not above the largest after `Initial` and every column in some row, for every
    total other than 0 which the widths exceed by an `int` at most, and all orders of the
    `range`: the loop ends, the widths respect the sizes, and they add up as far as the
    sizes allow. -/
theorem calculateColumnsSize_spec {t₀ t : WrapperTable} (hinitial : t₀.initial = some t)
    (hkeys : ∀ k, (t₀.fieldsSize k).isSome = true ↔ k ∈ t₀.fields) (hsized : t.WellSized)
    (hmin : ∀ k ∈ t.fields, (t.sizeOf k).max ≠ 0 → (t.sizeOf k).min ≤ (t.sizeOf k).max)
    (hpresent : ∀ k ∈ t₀.fields, ∃ row ∈ t₀.data, (row k).isSome = true)
    (htotal : t₀.totalSize ≠ 0) (hexcess : t.excess ≤ maxInt) {orders : ℕ → List GoString}
    (horders : ∀ i, (orders i).Nodup ∧ ∀ k, k ∈ orders i ↔ (t.fieldsSize k).isSome = true) :
    ∃ fuel t', t.calculateColumnsSize orders fuel = some t' ∧ t'.innerSize = t.target ∧
      (∀ k ∈ t.fields, Fits (t.sizeOf k) (t'.widths k)) ∧ AddUp t t' := by
  unfold initial at hinitial
  dsimp only at hinitial
  split_ifs at hinitial with hlen
  cases hinitial
  have hzip : ∀ c ∈ t₀.fields.zip (t₀.labels.getD t₀.fields), (t₀.fieldsSize c.1).isSome = true :=
    fun c hc => (hkeys c.1).mpr (List.of_mem_zip hc).1
  have hkeys' : ∀ k, (widenTitles t₀.fieldsSize
      (t₀.fields.zip (t₀.labels.getD t₀.fields)) k).isSome = true ↔ k ∈ t₀.fields := fun k => by
    rw [isSome_widenTitles hzip, hkeys]
  apply calculateColumnsSize_of_fits (fun i => (horders i).1) ?_ rfl rfl hsized hexcess htotal
  · intro k hk
    obtain ⟨v, hv⟩ := Option.isSome_iff_exists.mp (isSome_dataColMaxSize hk (hpresent k hk))
    rw [startWidths, hv]
    exact startWidth_fits (hmin k hk) v
  · intro i
    ext k
    rw [List.mem_toFinset, List.mem_toFinset, (horders i).2]
    exact hkeys' k

/-- A table of two columns, the first one fixed. -/
def twoColumns : WrapperTable where
  labels := none
  fields := [str "ID", str "IP"]
  fieldsSize k :=
    if k = str "ID" then some ⟨5, 0, 0⟩ else if k = str "IP" then some ⟨0, 8, 12⟩ else none
  data := [fun k => if k = str "ID" then some (str "1") else some (str "10.0.0.1")]
  totalSize := 40
  truncPolicy := .truncMiddle
  innerSize := 0
  paddingSize := 0
  bolderSize := 0
  widths _ := 0

/-- The first column has its width, and the second one does not grow beyond its largest. -/
theorem calculateColumnsSize_twoColumns :
    ∃ t fuel t', twoColumns.initial = some t ∧
      t.calculateColumnsSize (fun _ => [str "IP", str "ID"]) fuel = some t' ∧
      t'.widths (str "ID") = 5 ∧ t'.widths (str "IP") ≤ 12 := by
  have hkeys : ∀ k, (twoColumns.fieldsSize k).isSome = true ↔ k ∈ twoColumns.fields := by
    intro k
    show (if k = str "ID" then some (⟨5, 0, 0⟩ : ColumnSize) else
      if k = str "IP" then some ⟨0, 8, 12⟩ else none).isSome = true ↔ k ∈ [str "ID", str "IP"]
    rw [List.mem_pair]
    split_ifs <;> simp_all
  have hzip : ∀ c ∈ twoColumns.fields.zip (twoColumns.labels.getD twoColumns.fields),
      (twoColumns.fieldsSize c.1).isSome = true :=
    fun c hc => (hkeys c.1).mpr (List.of_mem_zip hc).1
  obtain ⟨fuel, t', hrun, -, hfits, -⟩ := calculateColumnsSize_spec
    (show twoColumns.initial = some _ from rfl) hkeys
    ⟨by decide, by decide, by decide, by
      rintro row hrow k value hvalue
      obtain rfl := List.mem_singleton.mp hrow
      dsimp only at hvalue
      split_ifs at hvalue <;> cases hvalue <;> decide, by unfold IsInt; decide⟩
    (by intro k hk; rcases List.mem_pair.mp hk with rfl | rfl <;> decide)
    (by
      intro k hk
      rcases List.mem_pair.mp hk with rfl | rfl <;> exact ⟨_, List.mem_singleton_self _, rfl⟩)
    (by decide) (by decide)
    (fun _ => ⟨(by decide : [str "IP", str "ID"].Nodup), fun k => by
      rw [isSome_widenTitles hzip, hkeys]
      show k ∈ [str "IP", str "ID"] ↔ k ∈ [str "ID", str "IP"]
      rw [List.mem_pair, List.mem_pair, or_comm]⟩)
  exact ⟨_, fuel, t', rfl, hrun, (hfits (str "ID") (by decide)).1 (by decide),
    ((hfits (str "IP") (by decide)).2 (by decide)).2 (by decide)⟩

end WrapperTable

/-! ## Truncation -/

/-- `GetValidString` with `positive` (lines 195–214): the longest valid string among the
    first bytes, at most `n` of them. -/
def validStart (s : GoString) : ℕ → GoString
  | 0 => s.take 0
  | n + 1 => if utf8Valid (s.take (n + 1)) then s.take (n + 1) else validStart s n

/-- The same without: from this byte on, or from a later one. -/
def validEnd : GoString → GoString
  | [] => []
  | b :: s => if utf8Valid (b :: s) then b :: s else validEnd s

/-- `GetValidString`. -/
def getValidString (s : GoString) (position : ℤ) (positive : Bool) : GoString :=
  if position < 0 ∨ s.length < position then []
  else if positive then validStart s position.toNat
  else validEnd (s.drop position.toNat)

/-- `"..."`. -/
def dots : GoString := str "..."

/-- A cell in a column of width `columSize` (lines 143–159). -/
def truncate (policy : TruncPolicy) (columSize : ℤ) (value : GoString) : GoString :=
  if value.length ≤ columSize then value
  else
    match policy with
    | .truncSuffix => getValidString value (columSize - 3) true ++ dots
    | .truncPrefix => dots ++ getValidString value (value.length - columSize - 3) false
    | .truncMiddle =>
      let midValue := (columSize - 3).tdiv 2
      getValidString value midValue true ++ dots ++
        getValidString value (value.length - midValue) false

/-- `convertDataToSlice` (lines 138–165). -/
def WrapperTable.convertDataToSlice (t : WrapperTable) : List (List GoString) :=
  t.data.map fun row => t.fields.map fun n =>
    truncate t.truncPolicy (t.widths n) ((row n).getD [])

/-- What a cell should be: the value if it fits, and otherwise a valid string that fits and
    has a beginning of the value before the dots and an end of it behind them. -/
def Truncated (policy : TruncPolicy) (width : ℤ) (value cell : GoString) : Prop :=
  (value.length ≤ width → cell = value) ∧
  (width < value.length → utf8Valid cell = true ∧ cell.length ≤ width ∧
    ∃ start tail, cell = start ++ dots ++ tail ∧ start <+: value ∧ tail <:+ value ∧
      (policy = .truncPrefix → start = []) ∧ (policy = .truncSuffix → tail = []))

theorem validStart_spec (s : GoString) (n : ℕ) :
    utf8Valid (validStart s n) = true ∧ validStart s n <+: s ∧ (validStart s n).length ≤ n := by
  induction n with
  | zero => exact ⟨rfl, List.take_prefix 0 s, le_rfl⟩
  | succ n ih =>
    rw [validStart]
    split_ifs with h
    · exact ⟨h, List.take_prefix _ s, List.length_take_le _ s⟩
    · exact ⟨ih.1, ih.2.1, ih.2.2.trans (Nat.le_succ n)⟩

theorem validEnd_spec (s : GoString) :
    utf8Valid (validEnd s) = true ∧ validEnd s <:+ s ∧
      ∀ t, t <:+ s → utf8Valid t = true → t.length ≤ (validEnd s).length := by
  induction s with
  | nil => exact ⟨rfl, List.suffix_rfl, fun t ht _ => ht.length_le⟩
  | cons b s ih =>
    rw [validEnd]
    split_ifs with h
    · exact ⟨h, List.suffix_rfl, fun t ht _ => ht.length_le⟩
    · refine ⟨ih.1, ih.2.1.trans (List.suffix_cons b s), fun t ht hvalid => ?_⟩
      rcases List.suffix_cons_iff.mp ht with rfl | ht
      · exact absurd hvalid h
      · exact ih.2.2 t ht hvalid

theorem getValidString_true {s : GoString} {position : ℤ} (h : 0 ≤ position)
    (hle : position ≤ s.length) :
    utf8Valid (getValidString s position true) = true ∧ getValidString s position true <+: s ∧
      ((getValidString s position true).length : ℤ) ≤ position := by
  obtain ⟨hvalid, hpre, hlen⟩ := validStart_spec s position.toNat
  rw [getValidString, if_neg (by omega), if_pos rfl]
  exact ⟨hvalid, hpre, by omega⟩

theorem getValidString_false {s : GoString} {position : ℤ} (h : 0 ≤ position)
    (hle : position ≤ s.length) :
    utf8Valid (getValidString s position false) = true ∧ getValidString s position false <:+ s ∧
      ((getValidString s position false).length : ℤ) ≤ s.length - position := by
  obtain ⟨hvalid, hsuf, -⟩ := validEnd_spec (s.drop position.toNat)
  have hlen := hsuf.length_le
  rw [List.length_drop] at hlen
  rw [getValidString, if_neg (by omega), if_neg (by decide)]
  exact ⟨hvalid, hsuf.trans (List.drop_suffix _ s), by omega⟩

/-- The beginning of a rune is at most three bytes away. -/
theorem le_length_getValidString {s : GoString} (hs : utf8Valid s = true) {position : ℤ}
    (h : 0 ≤ position) (hle : position ≤ s.length) :
    (s.length : ℤ) - position - 3 ≤ (getValidString s position false).length := by
  obtain ⟨m, h1, h2, h3, hvalid⟩ :=
    exists_utf8Valid_drop hs (show position.toNat ≤ s.length by omega)
  have hsuf : s.drop m <:+ s.drop position.toNat := by
    obtain ⟨k, rfl⟩ := Nat.exists_eq_add_of_le h1
    rw [← List.drop_drop]
    exact List.drop_suffix _ _
  have hlong := (validEnd_spec (s.drop position.toNat)).2.2 _ hsuf hvalid
  rw [List.length_drop] at hlong
  rw [getValidString, if_neg (by omega), if_neg (by decide)]
  omega

theorem utf8Valid_around_dots {start tail : GoString} (hstart : utf8Valid start = true)
    (htail : utf8Valid tail = true) : utf8Valid (start ++ dots ++ tail) = true := by
  rw [List.append_assoc, utf8Valid_append_of_valid hstart,
    utf8Valid_append_of_valid (by decide : utf8Valid dots = true), htail]

theorem length_around_dots (start tail : GoString) :
    (start ++ dots ++ tail).length = start.length + 3 + tail.length := by
  rw [List.length_append, List.length_append]
  rfl

section Cell

variable {width : ℤ} {value : GoString}

theorem truncated_suffix (hwidth : 3 ≤ width) (hlong : width < value.length) :
    Truncated .truncSuffix width value (truncate .truncSuffix width value) := by
  obtain ⟨hvalid, hpre, hlen⟩ := getValidString_true (s := value)
    (show 0 ≤ width - 3 by omega) (by omega)
  have hcell : truncate .truncSuffix width value =
      getValidString value (width - 3) true ++ dots ++ [] := by
    rw [truncate, if_neg (by omega), List.append_nil]
  refine ⟨fun h => by omega, fun _ => ?_⟩
  rw [hcell]
  refine ⟨utf8Valid_around_dots hvalid rfl, ?_, _, [], rfl, hpre, List.nil_suffix,
    fun h => (by cases h), fun _ => rfl⟩
  rw [length_around_dots, List.length_nil]
  omega

theorem truncated_middle (hwidth : 3 ≤ width) (hlong : width < value.length) :
    Truncated .truncMiddle width value (truncate .truncMiddle width value) := by
  have hmid : 0 ≤ (width - 3).tdiv 2 ∧ 2 * (width - 3).tdiv 2 ≤ width - 3 := by
    rw [Int.tdiv_eq_ediv_of_nonneg (by omega)]
    omega
  obtain ⟨hvalid, hpre, hlen⟩ := getValidString_true (s := value) hmid.1 (by omega)
  obtain ⟨hvalid', hsuf, hlen'⟩ := getValidString_false (s := value)
    (show 0 ≤ (value.length : ℤ) - (width - 3).tdiv 2 by omega) (by omega)
  have hcell : truncate .truncMiddle width value = getValidString value ((width - 3).tdiv 2) true ++
      dots ++ getValidString value (value.length - (width - 3).tdiv 2) false := by
    rw [truncate, if_neg (by omega)]
  refine ⟨fun h => by omega, fun _ => ?_⟩
  rw [hcell]
  refine ⟨utf8Valid_around_dots hvalid hvalid', ?_, _, _, rfl, hpre, hsuf,
    fun h => (by cases h), fun h => (by cases h)⟩
  rw [length_around_dots]
  omega

/-- `len - columSize - 3` is negative for one or two bytes too many, and the cell is the
    dots alone; for more it leaves six bytes too many, of which at most three belong to a
    rune that is cut. -/
theorem truncated_prefix_iff (hwidth : 3 ≤ width) (hvalid : utf8Valid value = true)
    (hlong : width < value.length) :
    Truncated .truncPrefix width value (truncate .truncPrefix width value) ↔
      (value.length : ℤ) ≤ width + 2 := by
  have hcell : truncate .truncPrefix width value =
      [] ++ dots ++ getValidString value (value.length - width - 3) false := by
    rw [truncate, if_neg (by omega)]
    rfl
  constructor
  · intro h
    by_contra hmore
    obtain ⟨-, hlen, -⟩ := h.2 hlong
    have hlow := le_length_getValidString hvalid
      (show 0 ≤ (value.length : ℤ) - width - 3 by omega) (by omega)
    rw [hcell, length_around_dots, List.length_nil] at hlen
    omega
  · intro hle
    have hnone : getValidString value (value.length - width - 3) false = [] := by
      rw [getValidString, if_pos (by omega)]
    refine ⟨fun h => by omega, fun _ => ?_⟩
    rw [hcell, hnone]
    exact ⟨by decide, by simpa [dots, str] using hwidth, [], [], rfl, List.nil_prefix,
      List.nil_suffix, fun _ => rfl, fun _ => rfl⟩

theorem truncated_iff (policy : TruncPolicy) (hwidth : 3 ≤ width)
    (hvalid : utf8Valid value = true) :
    Truncated policy width value (truncate policy width value) ↔
      policy ≠ .truncPrefix ∨ (value.length : ℤ) ≤ width + 2 := by
  by_cases hlong : width < value.length
  · cases policy with
    | truncSuffix => exact iff_of_true (truncated_suffix hwidth hlong) (Or.inl (by decide))
    | truncMiddle => exact iff_of_true (truncated_middle hwidth hlong) (Or.inl (by decide))
    | truncPrefix => simpa using truncated_prefix_iff hwidth hvalid hlong
  · refine iff_of_true ⟨fun _ => ?_, fun h => absurd h hlong⟩ (Or.inr (by omega))
    exact if_pos (show (value.length : ℤ) ≤ width by omega)

end Cell

/-- For every table: each cell with a valid value in a column of width 3 or more is what it
    should be, exactly if the policy is not `TruncPrefix` or no such value is more than two
    bytes longer than its column is wide. -/
theorem convertDataToSlice_iff (t : WrapperTable) :
    t.convertDataToSlice.Forall₂ (fun cells row => cells.Forall₂ (fun cell n => 3 ≤ t.widths n →
        utf8Valid ((row n).getD []) = true →
        Truncated t.truncPolicy (t.widths n) ((row n).getD []) cell) t.fields) t.data ↔
      t.truncPolicy ≠ .truncPrefix ∨ ∀ row ∈ t.data, ∀ n ∈ t.fields, 3 ≤ t.widths n →
        utf8Valid ((row n).getD []) = true → (((row n).getD []).length : ℤ) ≤ t.widths n + 2 := by
  rw [WrapperTable.convertDataToSlice, List.forall₂_map_left_iff, List.forall₂_same]
  simp only [List.forall₂_map_left_iff, List.forall₂_same]
  constructor
  · intro h
    by_cases hpolicy : t.truncPolicy = .truncPrefix
    · refine Or.inr fun row hrow n hn hwidth hvalid => ?_
      exact ((truncated_iff _ hwidth hvalid).mp (h row hrow n hn hwidth hvalid)).resolve_left
        (not_not.mpr hpolicy)
    · exact Or.inl hpolicy
  · intro h row hrow n hn hwidth hvalid
    exact (truncated_iff _ hwidth hvalid).mpr (h.imp_right fun h => h row hrow n hn hwidth hvalid)

/-- A value of nine bytes in a column of width five: the cell has eleven. -/
theorem truncated_prefix_long :
    truncate .truncPrefix 5 (str "10.0.0.17") = str "...0.0.0.17" ∧
      ¬ Truncated .truncPrefix 5 (str "10.0.0.17") (truncate .truncPrefix 5 (str "10.0.0.17")) := by
  refine ⟨by decide, fun h => ?_⟩
  have hlen := (h.2 (by decide)).2.1
  exact absurd hlen (by decide)

end GoJump.Common
