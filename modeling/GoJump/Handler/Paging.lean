import GoJump.Handler.SelectHandler

/-!
# Walking through the pages

`Search`, `MoveNextPage` and `MovePrePage` (`pkg/handler/selectHandler.go` lines 99–126)
one after the other. A `PageView` is the handler with the page that `Retrieve` returned
last; `Stands` says which slice of the matches that page is, and what the paging fields
then are. Every operation leads from one such position to another.

* `walk_complete_iff`: when paging forward under changing page sizes shows every match.
* `pages_aligned_iff`: when the pages of a fixed size stay aligned under any sequence of
  operations.
-/

namespace GoJump.Handler

open GoJump.Go GoJump.Model GoJump.Core

/-! ## Page numbers -/

theorem pagesOf_le_iff {k : ℕ} (hk : 0 < k) (n p : ℕ) : pagesOf n k ≤ p ↔ n ≤ k * p := by
  unfold pagesOf
  split_ifs with h
  · rw [Nat.div_le_iff_le_mul_add_pred hk]
    obtain ⟨q, rfl⟩ := Nat.dvd_of_mod_eq_zero h
    constructor
    · intro hle
      have hlt : k * q < k * (p + 1) := by rw [Nat.mul_add, Nat.mul_one]; omega
      exact Nat.mul_le_mul_left k (Nat.lt_succ_iff.mp (Nat.lt_of_mul_lt_mul_left hlt))
    · intro hle
      omega
  · rw [Nat.succ_le_iff, Nat.div_lt_iff_lt_mul hk, Nat.mul_comm p k]
    constructor
    · exact Nat.le_of_lt
    · intro hle
      exact Nat.lt_of_le_of_ne hle fun heq => h (by rw [heq, Nat.mul_mod_right])

theorem lt_pagesOf_iff {k : ℕ} (hk : 0 < k) (n p : ℕ) : p < pagesOf n k ↔ k * p < n := by
  rw [← not_le, pagesOf_le_iff hk, not_le]

/-- The page on which the row before position `n` stands. -/
theorem pagesOf_eq_succ_iff {k : ℕ} (hk : 0 < k) (n p : ℕ) :
    pagesOf n k = p + 1 ↔ k * p < n ∧ n ≤ k * (p + 1) := by
  rw [← lt_pagesOf_iff hk, ← pagesOf_le_iff hk]
  omega

/-! ## Operations -/

/-- The handler, and the page that `Retrieve` returned last. -/
structure PageView where
  handler : SelectHandler
  page : List AssetItem

inductive PageOp
  | search (key : GoString)
  | next
  | prev
  deriving DecidableEq

/-- An operation of the user, with the page it retrieves, if any. -/
def PageView.step (env : TermEnv) (v : PageView) : PageOp → PageView
  | .search key => ⟨(search env v.handler key).1, (retrieve v.handler (getPageSize env) 0 [key]).1⟩
  | .next =>
    ⟨(moveNextPage env v.handler).1,
      if v.handler.hasNext then
        (retrieve v.handler (getPageSize env) v.handler.pageInfo.currentOffset
          v.handler.searchKeys).1
      else v.page⟩
  | .prev =>
    ⟨(movePrePage env v.handler).1,
      if v.handler.hasPre then
        (retrieve v.handler (getPageSize env)
          (v.handler.pageInfo.currentOffset - getPageSize env * 2) v.handler.searchKeys).1
      else v.page⟩

/-- All matches of the keys in the current view. -/
def matchesOf (s : SelectHandler) (keys : List GoString) : List AssetItem :=
  retrieveLocal s s.viewType keys

/-- The handlers list the same assets, whatever is searched. -/
def SameData (s t : SelectHandler) : Prop := ∀ keys, matchesOf t keys = matchesOf s keys

/-- The page was cut out of the matches `R` from `start` with page size `k`. -/
structure Stands (R : List AssetItem) (k start : ℕ) (v : PageView) : Prop where
  page : v.page = (R.drop start).take k
  offset : v.handler.pageInfo.currentOffset = min (start + k) R.length
  total : v.handler.pageInfo.totalCount = R.length
  current : v.handler.pageInfo.currentPage = pagesOf (min (start + k) R.length) k
  hasPre : v.handler.hasPre = true ↔ 1 < pagesOf (min (start + k) R.length) k
  hasNext : v.handler.hasNext = true ↔
    pagesOf (min (start + k) R.length) k < pagesOf R.length k

/-! ## What a retrieval leaves -/

theorem displayCurrentResult_fst (env : TermEnv) (s : SelectHandler) :
    ∃ rows, (displayCurrentResult env s).1 = { s with currentResult := rows } := by
  unfold displayCurrentResult
  split
  · exact ⟨s.currentResult, rfl⟩
  · dsimp only
    split_ifs
    · exact ⟨s.currentResult, rfl⟩
    · exact ⟨_, rfl⟩

/-- A retrieval without a type is one of the assets. -/
theorem retrieve_eq (s : SelectHandler) (k offset : ℕ) (keys : List GoString) :
    retrieve s k offset keys =
      retrieveAs { s with currentType := some s.viewType } s.viewType k offset keys := by
  unfold retrieve SelectHandler.viewType
  cases h : s.currentType with
  | some type =>
    rw [show { s with currentType := some ((some type : Option SelectType).getD .asset) } = s by
      rw [Option.getD_some, ← h]]
    rfl
  | none => rfl

theorem sameData_retrieveAndDisplay (env : TermEnv) (s : SelectHandler) (offset : ℕ)
    (keys : List GoString) :
    SameData s (retrieveAndDisplay env s offset keys).1 ∧
      (retrieveAndDisplay env s offset keys).1.searchKeys = s.searchKeys := by
  unfold retrieveAndDisplay
  dsimp only
  obtain ⟨rows, hrows⟩ := displayCurrentResult_fst env
    { (retrieve s (getPageSize env) offset keys).2 with
      currentResult := (retrieve s (getPageSize env) offset keys).1 }
  rw [hrows, retrieve_eq]
  exact ⟨fun _ => rfl, rfl⟩

/-- A page from a position within the matches. -/
theorem stands_retrieve {env : TermEnv} {s : SelectHandler} {start : ℕ} {keys : List GoString}
    (hk : 0 < getPageSize env) (hstart : start ≤ (matchesOf s keys).length) :
    Stands (matchesOf s keys) (getPageSize env) start
      ⟨(retrieveAndDisplay env s start keys).1, (retrieve s (getPageSize env) start keys).1⟩ := by
  have hoffset : start + (((matchesOf s keys).drop start).take (getPageSize env)).length =
      min (start + getPageSize env) (matchesOf s keys).length := by
    rw [List.length_take, List.length_drop]
    omega
  have hne : getPageSize env ≠ 0 := Nat.ne_of_gt hk
  unfold retrieveAndDisplay
  dsimp only
  obtain ⟨rows, hrows⟩ := displayCurrentResult_fst env
    { (retrieve s (getPageSize env) start keys).2 with
      currentResult := (retrieve s (getPageSize env) start keys).1 }
  rw [hrows, retrieve_eq]
  have hlocal : retrieveLocal { s with currentType := some s.viewType } s.viewType keys =
      matchesOf s keys := rfl
  unfold retrieveAs
  simp only [hlocal, if_neg hne, updatePageInfo, hoffset]
  exact ⟨rfl, rfl, rfl, rfl, decide_eq_true_iff, decide_eq_true_iff⟩

/-! ## One operation -/

/-- The position of a view in the matches of one key: `s` is the handler at the
    beginning, whose data stay. -/
structure At (s : SelectHandler) (key : GoString) (k start : ℕ) (v : PageView) : Prop where
  data : SameData s v.handler
  keys : v.handler.searchKeys = [key]
  stands : Stands (matchesOf s [key]) k start v

variable {env : TermEnv} {s : SelectHandler} {key : GoString} {k start : ℕ} {v : PageView}

theorem at_retrieve {t : SelectHandler} (hk : 0 < getPageSize env) (hdata : SameData s t)
    (hkeys : t.searchKeys = [key]) (hstart : start ≤ (matchesOf s [key]).length) :
    At s key (getPageSize env) start
      ⟨(retrieveAndDisplay env t start [key]).1, (retrieve t (getPageSize env) start [key]).1⟩ := by
  obtain ⟨hdata', hkeys'⟩ := sameData_retrieveAndDisplay env t start [key]
  refine ⟨fun keys => (hdata' keys).trans (hdata keys), hkeys'.trans hkeys, ?_⟩
  rw [← hdata [key]] at hstart ⊢
  exact stands_retrieve hk hstart

theorem at_search (hk : 0 < getPageSize env) (hdata : SameData s v.handler) (key : GoString) :
    At s key (getPageSize env) 0 (v.step env (.search key)) := by
  have hpage : (retrieve v.handler (getPageSize env) 0 [key]).1 =
      (retrieve { v.handler with searchKeys := [key] } (getPageSize env) 0 [key]).1 := by
    rw [retrieve_eq, retrieve_eq]
    rfl
  rw [PageView.step, hpage]
  exact at_retrieve (t := { v.handler with searchKeys := [key] }) hk hdata rfl (Nat.zero_le _)

/-- Displaying again changes neither the position nor the data. -/
theorem At.display (h : At s key k start v) :
    At s key k start ⟨(displayCurrentResult env v.handler).1, v.page⟩ := by
  obtain ⟨rows, hrows⟩ := displayCurrentResult_fst env v.handler
  rw [hrows]
  exact ⟨h.data, h.keys, h.stands.page, h.stands.offset, h.stands.total, h.stands.current,
    h.stands.hasPre, h.stands.hasNext⟩

theorem At.next (h : At s key k start v) (hk : 0 < getPageSize env)
    (hnext : v.handler.hasNext = true) :
    At s key (getPageSize env) (min (start + k) (matchesOf s [key]).length)
      (v.step env .next) := by
  rw [PageView.step, moveNextPage, if_pos hnext, if_pos hnext, h.keys, h.stands.offset]
  exact at_retrieve hk h.data h.keys (Nat.min_le_right _ _)

theorem At.next_of_not (h : At s key k start v) (hnext : v.handler.hasNext = false) :
    At s key k start (v.step env .next) := by
  rw [PageView.step, moveNextPage, if_neg (by simp [hnext]), if_neg (by simp [hnext])]
  exact h.display

theorem At.prev (h : At s key k start v) (hk : 0 < getPageSize env)
    (hpre : v.handler.hasPre = true) :
    At s key (getPageSize env)
      (min (start + k) (matchesOf s [key]).length - getPageSize env * 2) (v.step env .prev) := by
  rw [PageView.step, movePrePage, if_pos hpre, if_pos hpre, h.keys, h.stands.offset]
  exact at_retrieve hk h.data h.keys (by omega)

theorem At.prev_of_not (h : At s key k start v) (hpre : v.handler.hasPre = false) :
    At s key k start (v.step env .prev) := by
  rw [PageView.step, movePrePage, if_neg (by simp [hpre]), if_neg (by simp [hpre])]
  exact h.display

/-! ## Paging forward under resizing -/

/-- `MoveNextPage` while there is a next page, at most `fuel` times; the terminal is as
    `env i` at the `i`-th call. -/
def movesNext (env : ℕ → TermEnv) : ℕ → ℕ → PageView → List PageView
  | 0, _, _ => []
  | fuel + 1, i, v =>
    if v.handler.hasNext then
      v.step (env i) .next :: movesNext env fuel (i + 1) (v.step (env i) .next)
    else []

/-- `Search`, then `MoveNextPage` as long as `HasNext`; the matches bound the number of
    calls (`walk_ends`). -/
def walk (env : ℕ → TermEnv) (s : SelectHandler) (key : GoString) : List PageView :=
  let v := PageView.step (env 0) ⟨s, []⟩ (.search key)
  v :: movesNext env (matchesOf s [key]).length 1 v

/-- The pages retrieved on a walk, one after the other. -/
def retrieved (views : List PageView) : List AssetItem := (views.map PageView.page).flatten

/-- The offset after the pages of the sizes `size 0` to `size i`. -/
def sizesUpTo (size : ℕ → ℕ) (i : ℕ) : ℕ := ∑ j ∈ Finset.range (i + 1), size j

/-- If the pages up to the `i`-th leave something over, it does not fit on the last of the
    pages of the `i`-th size that they fill, whole or in part. -/
def LeavesPageAt (size : ℕ → ℕ) (n i : ℕ) : Prop :=
  sizesUpTo size i < n → size i * pagesOf (sizesUpTo size i) (size i) < n

theorem sizesUpTo_succ (size : ℕ → ℕ) (i : ℕ) :
    sizesUpTo size (i + 1) = sizesUpTo size i + size (i + 1) :=
  Finset.sum_range_succ _ _

theorem sizesUpTo_mono (size : ℕ → ℕ) {i j : ℕ} (h : i ≤ j) :
    sizesUpTo size i ≤ sizesUpTo size j :=
  Finset.sum_le_sum_of_subset (Finset.range_subset_range.mpr (Nat.succ_le_succ h))

/-- The sizes leave a page from `i` on: at `i`, and from the next one on. -/
theorem leavesFrom_iff (size : ℕ → ℕ) (n i : ℕ) :
    (∀ j ≥ i, LeavesPageAt size n j) ↔
      LeavesPageAt size n i ∧ ∀ j ≥ i + 1, LeavesPageAt size n j := by
  constructor
  · intro hall
    exact ⟨hall i le_rfl, fun j hj => hall j (by omega)⟩
  · rintro ⟨hi, hall⟩ j hj
    rcases Nat.eq_or_lt_of_le hj with rfl | hj
    · exact hi
    · exact hall j hj

/-- `HasNext`, from the offset alone. -/
theorem At.hasNext_iff (h : At s key k start v) (hk : 0 < k) :
    v.handler.hasNext = true ↔
      k * pagesOf (min (start + k) (matchesOf s [key]).length) k < (matchesOf s [key]).length := by
  rw [h.stands.hasNext, lt_pagesOf_iff hk]

/-- Only what has been shown completely has no rows after the offset, so a next page is
    never empty. -/
theorem At.lt_of_hasNext (h : At s key k start v) (hk : 0 < k)
    (hnext : v.handler.hasNext = true) : start + k < (matchesOf s [key]).length := by
  have hlt := (h.hasNext_iff hk).mp hnext
  have hle := (pagesOf_le_iff hk (min (start + k) (matchesOf s [key]).length) _).mp le_rfl
  omega

/-- `HasNext` tells at the view whether something is left. -/
def PageView.NextIffLeft (v : PageView) : Prop :=
  v.handler.hasNext = true ↔ v.handler.pageInfo.currentOffset < v.handler.pageInfo.totalCount

theorem At.nextIffLeft_iff (h : At s key k start v) (hk : 0 < k) :
    v.NextIffLeft ↔ (start + k < (matchesOf s [key]).length →
      k * pagesOf (start + k) k < (matchesOf s [key]).length) := by
  rw [PageView.NextIffLeft, h.hasNext_iff hk, h.stands.offset, h.stands.total]
  by_cases hlt : start + k < (matchesOf s [key]).length
  · simp [min_eq_left hlt.le, hlt]
  · have hle := (pagesOf_le_iff hk (matchesOf s [key]).length _).mp le_rfl
    rw [min_eq_right (not_lt.mp hlt)]
    simp only [hlt, false_implies, iff_true, lt_self_iff_false, iff_false, not_lt]
    exact hle

/-- Without a next page, what has been shown is everything if and only if nothing is left
    for `HasNext` to announce. -/
theorem At.le_of_not_hasNext (h : At s key k start v) (hv : v.NextIffLeft)
    (hnext : v.handler.hasNext = false) : (matchesOf s [key]).length ≤ start + k := by
  rw [PageView.NextIffLeft, hnext, h.stands.offset, h.stands.total] at hv
  by_contra hlt
  cases hv.mpr (by omega)

section Walk

variable {env : ℕ → TermEnv} (henv : ∀ i, 0 < getPageSize (env i))

include henv

/-- The walk ends: enough calls lead to a view without a next page. -/
theorem movesNext_ends {fuel i k start : ℕ} {v : PageView} (hk : 0 < k)
    (h : At s key k start v) (hfuel : (matchesOf s [key]).length ≤ start + k + fuel) :
    ∀ w ∈ (v :: movesNext env fuel i v).getLast?, w.handler.hasNext = false := by
  induction fuel generalizing i k start v with
  | zero =>
    intro w hw
    obtain rfl : v = w := by simpa [movesNext] using hw
    by_contra hnext
    have := h.lt_of_hasNext hk (by simpa using hnext)
    omega
  | succ fuel ih =>
    intro w hw
    rw [movesNext] at hw
    by_cases hnext : v.handler.hasNext = true
    · rw [if_pos hnext, List.getLast?_cons_cons] at hw
      have hlt := h.lt_of_hasNext hk hnext
      have hsize := henv i
      exact ih hsize (h.next hsize hnext) (by omega) w hw
    · rw [if_neg hnext] at hw
      obtain rfl : v = w := by simpa using hw
      simpa using hnext

/-- The rest of a walk shows the rest of the matches, and `HasNext` is right at each of
    its views, exactly if the sizes from there on leave a page. -/
theorem movesNext_complete_iff (size : ℕ → ℕ) (hsize : ∀ i, getPageSize (env i) = size i)
    {fuel i start : ℕ} {v : PageView} (h : At s key (size i) start v)
    (hstart : start + size i = sizesUpTo size i)
    (hfuel : (matchesOf s [key]).length ≤ sizesUpTo size i + fuel) :
    ((matchesOf s [key]).take (sizesUpTo size i) ++ retrieved (movesNext env fuel (i + 1) v) =
        matchesOf s [key] ∧
      ∀ w ∈ v :: movesNext env fuel (i + 1) v, w.NextIffLeft) ↔
    ∀ j ≥ i, LeavesPageAt size (matchesOf s [key]).length j := by
  induction fuel generalizing i start v with
  | zero =>
    -- everything has been shown
    rw [Nat.add_zero] at hfuel
    have hview : v.NextIffLeft := by
      rw [h.nextIffLeft_iff (hsize i ▸ henv i), hstart]
      omega
    have hnone : ∀ j ≥ i, LeavesPageAt size (matchesOf s [key]).length j := by
      intro j hj hlt
      have := sizesUpTo_mono size hj
      omega
    simpa [movesNext, retrieved, hview, hfuel] using hnone
  | succ fuel ih =>
    have hview : v.NextIffLeft ↔ LeavesPageAt size (matchesOf s [key]).length i := by
      rw [h.nextIffLeft_iff (hsize i ▸ henv i), hstart]
      rfl
    rw [movesNext, leavesFrom_iff, ← hview, List.forall_mem_cons]
    by_cases hnext : v.handler.hasNext = true
    · have hlt := h.lt_of_hasNext (hsize i ▸ henv i) hnext
      have h' := h.next (henv (i + 1)) hnext
      rw [min_eq_left hlt.le, hstart, hsize] at h'
      have hcut : (matchesOf s [key]).take (sizesUpTo size i) ++ (v.step (env (i + 1)) .next).page =
          (matchesOf s [key]).take (sizesUpTo size (i + 1)) := by
        rw [h'.stands.page, sizesUpTo_succ, List.take_add]
      have hpos : 0 < size (i + 1) := hsize (i + 1) ▸ henv (i + 1)
      have hrest := ih h' (sizesUpTo_succ size i).symm (by rw [sizesUpTo_succ]; omega)
      rw [← hcut, List.append_assoc] at hrest
      rw [if_pos hnext, ← hrest]
      exact and_left_comm
    · rw [if_neg hnext]
      have hnext : v.handler.hasNext = false := by simpa using hnext
      constructor
      · rintro ⟨_, hv, _⟩
        have hle := h.le_of_not_hasNext hv hnext
        refine ⟨hv, fun j hj hlt => ?_⟩
        have := sizesUpTo_mono size (Nat.le_of_succ_le hj)
        omega
      · rintro ⟨hv, _⟩
        have hle := h.le_of_not_hasNext hv hnext
        refine ⟨?_, hv, List.forall_mem_nil _⟩
        rw [retrieved, List.map_nil, List.flatten_nil, List.append_nil,
          List.take_of_length_le (by omega)]

end Walk

/-- For every list of matches and all page sizes of at least one: the walk ends; and the
    pages retrieved on it are the whole list, with `HasNext` right about the offset at
    every view, exactly if the sizes leave a page. -/
theorem walk_complete_iff (env : ℕ → TermEnv) (henv : ∀ i, 1 ≤ getPageSize (env i))
    (s : SelectHandler) (key : GoString) :
    (∀ w ∈ (walk env s key).getLast?, w.handler.hasNext = false) ∧
    ((retrieved (walk env s key) = matchesOf s [key] ∧
        ∀ w ∈ walk env s key, w.NextIffLeft) ↔
      ∀ i, LeavesPageAt (fun i => getPageSize (env i)) (matchesOf s [key]).length i) := by
  have h : At s key (getPageSize (env 0)) 0 (PageView.step (env 0) ⟨s, []⟩ (.search key)) :=
    at_search (v := ⟨s, []⟩) (henv 0) (fun _ => rfl) key
  refine ⟨movesNext_ends henv (henv 0) h (by omega), ?_⟩
  have hiff := movesNext_complete_iff henv (fun i => getPageSize (env i)) (fun _ => rfl) h
    (by simp [sizesUpTo]) (Nat.le_add_left _ _)
  have hfirst : (PageView.step (env 0) ⟨s, []⟩ (.search key)).page =
      (matchesOf s [key]).take (sizesUpTo (fun i => getPageSize (env i)) 0) := by
    rw [h.stands.page, List.drop_zero, sizesUpTo, Finset.sum_range_one]
  rw [← hfirst] at hiff
  rw [walk, retrieved, List.map_cons, List.flatten_cons]
  exact hiff.trans ⟨fun hall i => hall i (Nat.zero_le i), fun hall i _ => hall i⟩

/-- A terminal of this height that is filled by each page. -/
def autoEnv (height : ℤ) : TermEnv := ⟨height, ⟨str "auto", false⟩, insertionSorting AssetItem⟩

/-- Four assets, a page of one and, after the terminal has grown by a row, one of two: the
    three rows shown fill two pages of two, as the four do, and the last is not shown. -/
theorem walk_misses_last :
    let s := freshHandler [webItem "web1", webItem "web2", webItem "web3", webItem "web4"]
    let env : ℕ → TermEnv := fun i => if i = 0 then autoEnv 9 else autoEnv 10
    (∀ i, 1 ≤ getPageSize (env i)) ∧
    matchesOf s [str "web"] = [webItem "web1", webItem "web2", webItem "web3", webItem "web4"] ∧
    retrieved (walk env s (str "web")) = [webItem "web1", webItem "web2", webItem "web3"] ∧
    ∃ w ∈ walk env s (str "web"), w.handler.hasNext = false ∧
      w.handler.pageInfo.currentOffset < w.handler.pageInfo.totalCount := by
  refine ⟨fun i => ?_, by decide, by decide, by decide⟩
  cases i with
  | zero => decide
  | succ i => exact (by decide : 1 ≤ getPageSize (autoEnv 10))

theorem walk_complete_of_two :
    retrieved (walk (fun _ => fixedEnv "2")
      (freshHandler [webItem "web1", webItem "web2", webItem "web3"]) (str "web")) =
    [webItem "web1", webItem "web2", webItem "web3"] := by
  have hsize : getPageSize (fixedEnv "2") = 2 := by decide
  refine ((walk_complete_iff (fun _ => fixedEnv "2") (fun _ => by decide)
    (freshHandler [webItem "web1", webItem "web2", webItem "web3"]) (str "web")).2.mpr
    fun i hlt => ?_).1
  have hsum : sizesUpTo (fun _ => getPageSize (fixedEnv "2")) i = (i + 1) * 2 := by
    rw [sizesUpTo, hsize, Finset.sum_const, Finset.card_range, smul_eq_mul]
  have hlen : (matchesOf (freshHandler [webItem "web1", webItem "web2", webItem "web3"])
    [str "web"]).length = 3 := by decide
  rw [hsum, hlen] at hlt
  obtain rfl : i = 0 := by omega
  decide

/-! ## Pages of a fixed size -/

/-- The key of a search is one of `K`. -/
def PageOp.KeyIn (K : Set GoString) : PageOp → Prop
  | .search key => key ∈ K
  | .next => True
  | .prev => True

/-- A run of operations. -/
def PageView.run (env : TermEnv) (v : PageView) (ops : List PageOp) : PageView :=
  ops.foldl (PageView.step env) v

/-- The page retrieved is the one with the number of the current page. -/
def PageView.Aligned (k : ℕ) (v : PageView) : Prop :=
  let R := matchesOf v.handler v.handler.searchKeys
  let p := v.handler.pageInfo.currentPage
  0 < R.length → v.page = (R.drop ((p - 1) * k)).take (min (p * k) R.length - (p - 1) * k)

/-- A next page, and then the one before it, is the page shown first. -/
def PageView.ComesBack (env : TermEnv) (v : PageView) : Prop :=
  v.handler.hasNext = true → ((v.step env .next).step env .prev).page = v.page

/-- The view shows page `p + 1` of the matches of the key. -/
structure OnPage (s : SelectHandler) (key : GoString) (k p : ℕ) (v : PageView) : Prop where
  position : At s key k (p * k) v
  inside : p = 0 ∨ p * k < (matchesOf s [key]).length

theorem OnPage.current {p : ℕ} (h : OnPage s key k p v) (hk : 0 < k)
    (hpos : 0 < (matchesOf s [key]).length) :
    pagesOf (min (p * k + k) (matchesOf s [key]).length) k = p + 1 := by
  rw [pagesOf_eq_succ_iff hk, Nat.mul_add, Nat.mul_one, Nat.mul_comm k p]
  have hinside := h.inside
  rcases hinside with rfl | hinside
  · rw [Nat.zero_mul]
    omega
  · omega

theorem OnPage.aligned {p : ℕ} (h : OnPage s key k p v) (hk : 0 < k) : v.Aligned k := by
  unfold PageView.Aligned
  rw [h.position.keys, h.position.data]
  dsimp only
  intro hpos
  rw [h.position.stands.current, h.current hk hpos, h.position.stands.page, Nat.add_sub_cancel,
    Nat.add_mul, Nat.one_mul, List.take_eq_take_iff, List.length_drop]
  omega

/-- `MoveNextPage` with a next page leads to the next page. -/
theorem OnPage.next {p : ℕ} (h : OnPage s key (getPageSize env) p v) (hk : 0 < getPageSize env)
    (hnext : v.handler.hasNext = true) :
    OnPage s key (getPageSize env) (p + 1) (v.step env .next) := by
  have hlt := h.position.lt_of_hasNext hk hnext
  have hnew := h.position.next hk hnext
  rw [min_eq_left hlt.le] at hnew
  rw [← Nat.succ_mul] at hlt hnew
  exact ⟨hnew, Or.inr hlt⟩

/-- On every page but the first one there is a page before. -/
theorem OnPage.hasPre {p : ℕ} (h : OnPage s key (getPageSize env) (p + 1) v)
    (hk : 0 < getPageSize env) :
    v.handler.hasPre = true := by
  have hinside : (p + 1) * getPageSize env < (matchesOf s [key]).length :=
    h.inside.resolve_left (Nat.succ_ne_zero p)
  rw [h.position.stands.hasPre, h.current hk (by omega)]
  omega

/-- `MovePrePage` with a page before leads to it, when the pages are full or there are at
    most two. -/
theorem OnPage.prev {p : ℕ} (h : OnPage s key (getPageSize env) (p + 1) v)
    (hk : 0 < getPageSize env)
    (hfull : getPageSize env ∣ (matchesOf s [key]).length ∨
      (matchesOf s [key]).length ≤ 2 * getPageSize env) :
    OnPage s key (getPageSize env) p (v.step env .prev) := by
  have hinside : (p + 1) * getPageSize env < (matchesOf s [key]).length :=
    h.inside.resolve_left (Nat.succ_ne_zero p)
  have hpre := h.hasPre hk
  have hnew := h.position.prev hk hpre
  have hstart : min ((p + 1) * getPageSize env + getPageSize env) (matchesOf s [key]).length -
      getPageSize env * 2 = p * getPageSize env := by
    rw [Nat.succ_mul] at hinside ⊢
    rcases hfull with ⟨q, hq⟩ | htwo
    · -- the last page is full
      have hlt : p + 1 < q := by
        rw [hq, ← Nat.succ_mul, Nat.mul_comm] at hinside
        exact Nat.lt_of_mul_lt_mul_left hinside
      have hle : (p + 2) * getPageSize env ≤ getPageSize env * q := by
        rw [Nat.mul_comm]
        exact Nat.mul_le_mul_left _ hlt
      rw [← hq, Nat.add_mul] at hle
      omega
    · -- there are two pages, and the first one begins at zero
      have hp : p = 0 := by
        by_contra hne
        have := Nat.le_mul_of_pos_left (getPageSize env) (Nat.pos_of_ne_zero hne)
        omega
      subst hp
      rw [Nat.zero_mul] at hinside ⊢
      omega
  rw [hstart] at hnew
  refine ⟨hnew, Or.inr ?_⟩
  rw [Nat.succ_mul] at hinside
  omega

theorem onPage_search (hk : 0 < getPageSize env) (hdata : SameData s v.handler) (key : GoString) :
    OnPage s key (getPageSize env) 0 (v.step env (.search key)) := by
  refine ⟨?_, Or.inl rfl⟩
  rw [Nat.zero_mul]
  exact at_search hk hdata key

/-- The matches of the key fill their pages, or at most two. -/
def FullPages (s : SelectHandler) (k : ℕ) (key : GoString) : Prop :=
  k ∣ (matchesOf s [key]).length ∨ (matchesOf s [key]).length ≤ 2 * k

/-- One operation leads from a page to a page. -/
theorem OnPage.step {K : Set GoString} {p : ℕ} {op : PageOp}
    (h : OnPage s key (getPageSize env) p v) (hkey : key ∈ K) (hk : 0 < getPageSize env)
    (hfull : ∀ key ∈ K, FullPages s (getPageSize env) key) (hop : op.KeyIn K) :
    ∃ key ∈ K, ∃ p, OnPage s key (getPageSize env) p (v.step env op) := by
  cases op with
  | search key' => exact ⟨key', hop, 0, onPage_search hk h.position.data key'⟩
  | next =>
    by_cases hnext : v.handler.hasNext = true
    · exact ⟨key, hkey, p + 1, h.next hk hnext⟩
    · exact ⟨key, hkey, p, h.position.next_of_not (by simpa using hnext), h.inside⟩
  | prev =>
    cases p with
    | succ p => exact ⟨key, hkey, p, h.prev hk (hfull key hkey)⟩
    | zero =>
      -- on the first page there is none before
      have hpre : v.handler.hasPre = false := by
        rw [← Bool.not_eq_true, h.position.stands.hasPre, lt_pagesOf_iff hk]
        omega
      exact ⟨key, hkey, 0, h.position.prev_of_not hpre, Or.inl rfl⟩

/-- A run of operations stays on pages. -/
theorem OnPage.run {K : Set GoString} (hk : 0 < getPageSize env)
    (hfull : ∀ key ∈ K, FullPages s (getPageSize env) key) (ops : List PageOp)
    (hops : ∀ op ∈ ops, op.KeyIn K) :
    ∀ {key : GoString} {p : ℕ} {v : PageView}, key ∈ K → OnPage s key (getPageSize env) p v →
      ∃ key ∈ K, ∃ p, OnPage s key (getPageSize env) p (v.run env ops) := by
  induction ops with
  | nil => exact fun hkey h => ⟨_, hkey, _, h⟩
  | cons op ops ih =>
    intro key p v hkey h
    obtain ⟨hop, hops⟩ := List.forall_mem_cons.mp hops
    obtain ⟨key', hkey', p', h'⟩ := h.step hkey hk hfull hop
    exact ih hops hkey' h'

theorem OnPage.comesBack {p : ℕ} (h : OnPage s key (getPageSize env) p v)
    (hk : 0 < getPageSize env) (hfull : FullPages s (getPageSize env) key) :
    v.ComesBack env := by
  intro hnext
  rw [((h.next hk hnext).prev hk hfull).position.stands.page, h.position.stands.page]

/-- From the first page, `MoveNextPage` reaches every page. -/
theorem OnPage.nexts (h : OnPage s key (getPageSize env) 0 v) (hk : 0 < getPageSize env) (j : ℕ)
    (hj : j * getPageSize env < (matchesOf s [key]).length) :
    OnPage s key (getPageSize env) j (v.run env (List.replicate j .next)) := by
  induction j with
  | zero => exact h
  | succ j ih =>
    have hlt : j * getPageSize env < (matchesOf s [key]).length := by
      rw [Nat.succ_mul] at hj
      omega
    have hpage := ih hlt
    have hnext : (v.run env (List.replicate j .next)).handler.hasNext = true := by
      rw [hpage.position.stands.hasNext, hpage.current hk (by omega), lt_pagesOf_iff hk,
        Nat.mul_comm]
      exact hj
    rw [List.replicate_succ', PageView.run, List.foldl_append]
    exact hpage.next hk hnext

/-- From a last page that is not full, after two others, the page before and the next one
    again: a full page is shown in its place. -/
theorem OnPage.not_aligned {q : ℕ} (h : OnPage s key (getPageSize env) (q + 2) v)
    (hk : 0 < getPageSize env)
    (hshort : (matchesOf s [key]).length < (q + 3) * getPageSize env) :
    ¬ ((v.step env .prev).step env .next).Aligned (getPageSize env) := by
  have hinside : (q + 2) * getPageSize env < (matchesOf s [key]).length :=
    h.inside.resolve_left (Nat.succ_ne_zero _)
  have hmul : (q + 3) * getPageSize env = (q + 2) * getPageSize env + getPageSize env :=
    Nat.succ_mul _ _
  have hmul' : (q + 2) * getPageSize env = (q + 1) * getPageSize env + getPageSize env :=
    Nat.succ_mul _ _
  have hmul'' : (q + 1) * getPageSize env = q * getPageSize env + getPageSize env :=
    Nat.succ_mul _ _
  have hpre := h.hasPre hk
  -- the page before begins two page sizes before the end
  have hprev := h.position.prev hk hpre
  rw [← hmul, min_eq_right hshort.le] at hprev
  have hend : (matchesOf s [key]).length - getPageSize env * 2 + getPageSize env =
      (matchesOf s [key]).length - getPageSize env := by
    omega
  have hcurrent : pagesOf ((matchesOf s [key]).length - getPageSize env) (getPageSize env) =
      q + 2 := by
    rw [pagesOf_eq_succ_iff hk, Nat.mul_comm, Nat.mul_comm _ (q + 2)]
    omega
  have hnext : (v.step env .prev).handler.hasNext = true := by
    rw [hprev.hasNext_iff hk, hend, min_eq_left (Nat.sub_le _ _), hcurrent, Nat.mul_comm]
    exact hinside
  have hlast := hprev.next hk hnext
  rw [hend, min_eq_left (Nat.sub_le _ _)] at hlast
  -- so the last page is full, but the rows with its number are fewer
  have hsize : (matchesOf s [key]).length - getPageSize env + getPageSize env =
      (matchesOf s [key]).length := by
    omega
  intro haligned
  unfold PageView.Aligned at haligned
  rw [hlast.keys, hlast.data] at haligned
  dsimp only at haligned
  have hpage := congrArg List.length (haligned (by omega))
  rw [hlast.stands.page, hlast.stands.current, hsize, min_self,
    (pagesOf_eq_succ_iff hk _ (q + 2)).mpr
      ⟨by rw [Nat.mul_comm]; exact hinside, by rw [Nat.mul_comm]; exact hshort.le⟩,
    Nat.add_sub_cancel, min_eq_right hshort.le] at hpage
  simp only [List.length_take, List.length_drop] at hpage
  omega

/-- For every view, page size of at least one and set of keys: after every run of searches
    for these keys and moves the page retrieved is the one with the number of the current
    page, and a move back returns to the page before, exactly if for each key the matches
    fill their pages or at most two. -/
theorem pages_aligned_iff (env : TermEnv) (hk : 1 ≤ getPageSize env) (s : SelectHandler)
    (K : Set GoString) :
    (∀ key ∈ K, ∀ ops : List PageOp, (∀ op ∈ ops, op.KeyIn K) →
      let v := PageView.run env ⟨s, []⟩ (.search key :: ops)
      v.Aligned (getPageSize env) ∧ v.ComesBack env) ↔
    ∀ key ∈ K, FullPages s (getPageSize env) key := by
  have hfirst : ∀ key, OnPage s key (getPageSize env) 0 (PageView.step env ⟨s, []⟩ (.search key)) :=
    fun key => onPage_search (v := ⟨s, []⟩) hk (fun _ => rfl) key
  constructor
  · intro hall key hkey
    by_contra hnot
    unfold FullPages at hnot
    push Not at hnot
    obtain ⟨hdvd, htwo⟩ := hnot
    have hdiv := Nat.div_add_mod (matchesOf s [key]).length (getPageSize env)
    have hmod := Nat.mod_lt (matchesOf s [key]).length hk
    have hrest : (matchesOf s [key]).length % getPageSize env ≠ 0 := fun h =>
      hdvd (Nat.dvd_of_mod_eq_zero h)
    obtain ⟨q, hq⟩ : ∃ q, (matchesOf s [key]).length / getPageSize env = q + 2 := by
      refine ⟨(matchesOf s [key]).length / getPageSize env - 2, ?_⟩
      have := (Nat.le_div_iff_mul_le hk).mpr htwo.le
      omega
    rw [hq, Nat.mul_comm] at hdiv
    have hlast := (hfirst key).nexts hk (q + 2) (by omega)
    refine hlast.not_aligned hk (by rw [Nat.succ_mul]; omega) ?_
    have haligned := (hall key hkey (List.replicate (q + 2) .next ++ [.prev, .next]) ?_).1
    · rwa [PageView.run, List.foldl_cons, List.foldl_append] at haligned
    · intro op hop
      rcases List.mem_append.mp hop with hop | hop
      · rw [List.eq_of_mem_replicate hop]
        trivial
      · rcases List.mem_pair.mp hop with rfl | rfl <;> trivial
  · intro hfull key hkey ops hops
    obtain ⟨key', hkey', p, hpage⟩ := OnPage.run hk hfull ops hops hkey (hfirst key)
    exact ⟨hpage.aligned hk, hpage.comesBack hk (hfull key' hkey')⟩

/-- Five assets in pages of two: the page before the last is shown one row too early. -/
theorem page_before_last_shifted :
    let s := freshHandler [webItem "web1", webItem "web2", webItem "web3", webItem "web4",
      webItem "web5"]
    let v := PageView.run (fixedEnv "2") ⟨s, []⟩ [.search (str "web"), .next, .next]
    let before := PageView.run (fixedEnv "2") ⟨s, []⟩ [.search (str "web"), .next]
    v.page = [webItem "web5"] ∧ before.page = [webItem "web3", webItem "web4"] ∧
    (v.step (fixedEnv "2") .prev).page = [webItem "web2", webItem "web3"] ∧
    (v.step (fixedEnv "2") .prev).handler.pageInfo.currentPage = 2 := by
  decide

theorem pages_aligned_of_four :
    let s := freshHandler [webItem "web1", webItem "web2", webItem "web3", webItem "web4"]
    (PageView.run (fixedEnv "2") ⟨s, []⟩ [.search (str "web"), .next, .prev, .next]).Aligned 2 :=
  ((pages_aligned_iff (fixedEnv "2") (by decide)
    (freshHandler [webItem "web1", webItem "web2", webItem "web3", webItem "web4"])
    {str "web"}).mpr (by rintro _ rfl; exact Or.inl (by decide)) (str "web") rfl
    [.next, .prev, .next] (by simp [PageOp.KeyIn])).1

end GoJump.Handler
