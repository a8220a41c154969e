import GoJump.Handler.Paging

/-!
# What a search shows

The tables on the terminal are the pages of a search, each sorted by itself
(`displaySortedAssets`, `pkg/handler/asset.go` lines 52–122); a page is cut out of the
matches before it is sorted, and several keys are matched one against all fields
(`containKeysInMapItemFields`, `pkg/handler/selectHandler.go` lines 277–300).

* `tables_sorted_iff`: when the tables of a walk are sorted as a whole.
* `searchAgain_narrows_iff`: when searching again keeps the assets that contain all keys.
-/

namespace GoJump.Handler

open GoJump.Go GoJump.Model GoJump.Core

/-! ## The order of the assets -/

/-- `a` does not come after `b` in the configured order; `CompareIP` also holds of equal
    addresses. -/
def InOrder (sortByIp : Bool) (a b : AssetItem) : Prop :=
  if sortByIp then compareIP a.ip b.ip = true else a.hostname ≤ b.hostname

/-- The order of two parts of an address: by length, then by bytes. -/
def PartLt (a b : GoString) : Prop := a.length < b.length ∨ (a.length = b.length ∧ a < b)

theorem PartLt.trans {a b c : GoString} (hab : PartLt a b) (hbc : PartLt b c) : PartLt a c := by
  rcases hab with hab | ⟨hab, hlt⟩ <;> rcases hbc with hbc | ⟨hbc, hlt'⟩
  · exact Or.inl (by omega)
  · exact Or.inl (by omega)
  · exact Or.inl (by omega)
  · exact Or.inr ⟨hab.trans hbc, List.lt_trans hlt hlt'⟩

theorem partLt_trichotomy (a b : GoString) : PartLt a b ∨ a = b ∨ PartLt b a := by
  rcases Nat.lt_trichotomy a.length b.length with h | h | h
  · exact Or.inl (Or.inl h)
  · by_cases hab : a < b
    · exact Or.inl (Or.inr ⟨h, hab⟩)
    by_cases hba : b < a
    · exact Or.inr (Or.inr (Or.inr ⟨h.symm, hba⟩))
    · exact Or.inr (Or.inl (List.le_antisymm hba hab))
  · exact Or.inr (Or.inr (Or.inl h))

theorem compareParts_cons (a b : GoString) (as bs : List GoString) :
    compareParts (a :: as) (b :: bs) = true ↔
      PartLt a b ∨ (a = b ∧ compareParts as bs = true) := by
  rw [compareParts]
  unfold PartLt
  split_ifs with hlen hab
  · simp [hab, List.lt_irrefl]
  · simp [hlen, hab]
  · have hne : a ≠ b := fun h => hlen (by rw [h])
    simp [hlen, hne]

theorem compareParts_total (as bs : List GoString) :
    compareParts as bs = true ∨ compareParts bs as = true := by
  induction as generalizing bs with
  | nil => exact Or.inl rfl
  | cons a as ih =>
    cases bs with
    | nil => exact Or.inr rfl
    | cons b bs =>
      rw [compareParts_cons, compareParts_cons]
      rcases partLt_trichotomy a b with h | rfl | h
      · exact Or.inl (Or.inl h)
      · exact (ih bs).imp (fun h => Or.inr ⟨rfl, h⟩) fun h => Or.inr ⟨rfl, h⟩
      · exact Or.inr (Or.inl h)

theorem compareParts_trans {as bs cs : List GoString} (hab : compareParts as bs = true)
    (hbc : compareParts bs cs = true) : compareParts as cs = true := by
  induction as generalizing bs cs with
  | nil => rfl
  | cons a as ih =>
    cases bs with
    | nil => cases hab
    | cons b bs =>
      cases cs with
      | nil => cases hbc
      | cons c cs =>
        rw [compareParts_cons] at hab hbc ⊢
        rcases hab with hab | ⟨rfl, hab⟩ <;> rcases hbc with hbc | ⟨rfl, hbc⟩
        · exact Or.inl (hab.trans hbc)
        · exact Or.inl hab
        · exact Or.inl hbc
        · exact Or.inr ⟨rfl, ih hab hbc⟩

/-- Both orders are transitive orderings, but that of the addresses is not strict. -/
theorem transitiveOrdering_lessBy (sortByIp : Bool) (l : List AssetItem) :
    TransitiveOrdering (lessBy sortByIp) l := by
  unfold lessBy
  cases sortByIp with
  | true =>
    refine ⟨fun a _ b _ c _ => compareParts_trans, fun a _ b _ c _ hab hbc => ?_⟩
    rw [if_pos rfl, ← Bool.not_eq_true] at *
    intro hac
    have hba := (compareParts_total _ _).resolve_left hab
    exact hbc (compareParts_trans hba hac)
  | false =>
    refine ⟨fun a _ b _ c _ hab hbc => ?_, fun a _ b _ c _ hab hbc => ?_⟩
    · simp only [Bool.false_eq_true, if_false, compareString, decide_eq_true_eq] at *
      exact List.lt_trans hab hbc
    · simp only [Bool.false_eq_true, if_false, compareString, decide_eq_false_iff_not] at *
      exact List.not_lt.mpr (List.le_trans (List.not_lt.mp hbc) (List.not_lt.mp hab))

theorem mayPrecede_lessBy {sortByIp : Bool} {a b : AssetItem} :
    MayPrecede (lessBy sortByIp) a b ↔ InOrder sortByIp a b := by
  unfold MayPrecede InOrder lessBy
  split_ifs
  · constructor
    · rintro (h | h)
      · exact h
      · exact (compareParts_total _ _).resolve_right (Bool.eq_false_iff.mp h)
    · exact Or.inl
  · simp only [compareString, decide_eq_true_eq, decide_eq_false_iff_not, List.not_lt]
    constructor
    · rintro (h | h)
      · exact List.le_of_lt h
      · exact h
    · exact Or.inr

/-! ## The tables of a walk -/

/-- The rows that an operation writes to the terminal. -/
def Outcome.rows : Outcome → List AssetItem
  | .displayed table => table
  | .noTable => []
  | .proxied _ => []

/-- What an operation does besides changing the handler. -/
def PageView.outcome (env : TermEnv) (v : PageView) : PageOp → Outcome
  | .search key => (search env v.handler key).2
  | .next => (moveNextPage env v.handler).2
  | .prev => (movePrePage env v.handler).2

/-- The tables of `MoveNextPage` while there is a next page. -/
def tablesNext (env : TermEnv) : ℕ → PageView → List (List AssetItem)
  | 0, _ => []
  | fuel + 1, v =>
    if v.handler.hasNext then
      (v.outcome env .next).rows :: tablesNext env fuel (v.step env .next)
    else []

/-- The tables of `Search` and of `MoveNextPage` to the last page (`walk`), with a terminal
    that stays as it is. -/
def tables (env : TermEnv) (s : SelectHandler) (key : GoString) : List (List AssetItem) :=
  (PageView.outcome env ⟨s, []⟩ (.search key)).rows ::
    tablesNext env (matchesOf s [key]).length (PageView.step env ⟨s, []⟩ (.search key))

/-- The assets of `R` on different pages of `k` are in order. -/
def OrderedAcrossPages (sortByIp : Bool) (k : ℕ) (R : List AssetItem) : Prop :=
  ∀ i j a b, i / k < j / k → R[i]? = some a → R[j]? = some b → InOrder sortByIp a b

variable {env : TermEnv} {s : SelectHandler} {key : GoString} {v : PageView}

/-- The rows of a page are sorted by themselves. -/
theorem retrieveAndDisplay_rows (env : TermEnv) (s : SelectHandler) (offset : ℕ)
    (keys : List GoString) :
    (retrieveAndDisplay env s offset keys).2.rows =
      env.sorting.sort (lessBy env.conf.assetListSortByIp)
        (retrieve s (getPageSize env) offset keys).1 := by
  have htype := retrieve_currentType s (getPageSize env) offset keys
  unfold retrieveAndDisplay displayCurrentResult
  dsimp only
  rw [htype]
  dsimp only
  split_ifs with hlen
  · rw [List.eq_nil_of_length_eq_zero hlen]
    exact (List.perm_nil.mp (env.sorting.perm _ [])).symm
  · rfl

theorem outcome_search_rows (env : TermEnv) (v : PageView) (key : GoString) :
    (v.outcome env (.search key)).rows =
      env.sorting.sort (lessBy env.conf.assetListSortByIp) (v.step env (.search key)).page := by
  rw [PageView.outcome, search, retrieveAndDisplay_rows, PageView.step, retrieve_eq, retrieve_eq]
  rfl

theorem outcome_next_rows (env : TermEnv) {v : PageView} (hnext : v.handler.hasNext = true) :
    (v.outcome env .next).rows =
      env.sorting.sort (lessBy env.conf.assetListSortByIp) (v.step env .next).page := by
  rw [PageView.outcome, moveNextPage, if_pos hnext, retrieveAndDisplay_rows, PageView.step,
    if_pos hnext]

/-- On page `p + 1` there is a next page exactly if that is not the last. -/
theorem OnPage.hasNext_iff {p : ℕ} (h : OnPage s key (getPageSize env) p v)
    (hk : 0 < getPageSize env) :
    v.handler.hasNext = true ↔ p + 1 < pagesOf (matchesOf s [key]).length (getPageSize env) := by
  rw [h.position.stands.hasNext]
  rcases Nat.eq_zero_or_pos (matchesOf s [key]).length with hzero | hpos
  · rw [hzero, Nat.min_zero, lt_pagesOf_iff hk, lt_pagesOf_iff hk]
    omega
  · rw [h.current hk hpos]

/-- Page `p + 1` of the matches, as it is displayed. -/
def sortedPage (env : TermEnv) (R : List AssetItem) (p : ℕ) : List AssetItem :=
  env.sorting.sort (lessBy env.conf.assetListSortByIp)
    ((R.drop (p * getPageSize env)).take (getPageSize env))

/-- From page `p + 1` on, a walk shows the pages that follow, each sorted. -/
theorem tablesNext_eq (hk : 0 < getPageSize env) {fuel p : ℕ}
    (h : OnPage s key (getPageSize env) p v)
    (hfuel : pagesOf (matchesOf s [key]).length (getPageSize env) ≤ p + 1 + fuel) :
    tablesNext env fuel v =
      (List.range' (p + 1) (pagesOf (matchesOf s [key]).length (getPageSize env) - (p + 1))).map
        (sortedPage env (matchesOf s [key])) := by
  induction fuel generalizing p v with
  | zero =>
    rw [Nat.sub_eq_zero_of_le hfuel]
    rfl
  | succ fuel ih =>
    have hiff := h.hasNext_iff hk
    rw [tablesNext]
    by_cases hnext : v.handler.hasNext = true
    · have hpage := h.next hk hnext
      have hlt := hiff.mp hnext
      rw [if_pos hnext, outcome_next_rows env hnext, hpage.position.stands.page,
        ih hpage (by omega), show pagesOf (matchesOf s [key]).length (getPageSize env) - (p + 1) =
          pagesOf (matchesOf s [key]).length (getPageSize env) - (p + 1 + 1) + 1 by omega]
      rfl
    · rw [if_neg hnext, Nat.sub_eq_zero_of_le (not_lt.mp (hiff.not.mp hnext))]
      rfl

/-- The tables of a walk are the pages, each sorted; the first one is shown even when it
    is empty. -/
theorem tables_eq (hk : 0 < getPageSize env) (s : SelectHandler) (key : GoString) :
    tables env s key =
      (List.range (max 1 (pagesOf (matchesOf s [key]).length (getPageSize env)))).map
        (sortedPage env (matchesOf s [key])) := by
  have h : OnPage s key (getPageSize env) 0 (PageView.step env ⟨s, []⟩ (.search key)) :=
    onPage_search (v := ⟨s, []⟩) hk (fun _ => rfl) key
  have hfuel : pagesOf (matchesOf s [key]).length (getPageSize env) ≤
      0 + 1 + (matchesOf s [key]).length := by
    rw [pagesOf_le_iff hk]
    calc (matchesOf s [key]).length ≤ 0 + 1 + (matchesOf s [key]).length := by omega
      _ ≤ getPageSize env * (0 + 1 + (matchesOf s [key]).length) := Nat.le_mul_of_pos_left _ hk
  rw [tables, outcome_search_rows, h.position.stands.page, tablesNext_eq hk h hfuel,
    show max 1 (pagesOf (matchesOf s [key]).length (getPageSize env)) =
      pagesOf (matchesOf s [key]).length (getPageSize env) - 1 + 1 by omega,
    List.range_eq_range', List.range'_succ]
  rfl

theorem mem_sortedPage {R : List AssetItem} {p : ℕ} {a : AssetItem} (hk : 0 < getPageSize env) :
    a ∈ sortedPage env R p ↔ ∃ i, i / getPageSize env = p ∧ R[i]? = some a := by
  rw [sortedPage, (env.sorting.perm _ _).mem_iff, List.mem_iff_getElem?]
  simp only [List.getElem?_take, List.getElem?_drop]
  constructor
  · rintro ⟨j, hj⟩
    split_ifs at hj with hlt
    refine ⟨p * getPageSize env + j, ?_, hj⟩
    rw [Nat.mul_comm, Nat.mul_add_div hk, Nat.div_eq_of_lt hlt, Nat.add_zero]
  · rintro ⟨i, rfl, hi⟩
    refine ⟨i % getPageSize env, ?_⟩
    rw [if_pos (Nat.mod_lt i hk), Nat.mul_comm, Nat.div_add_mod, hi]

/-- A position in the matches is on one of the pages. -/
theorem div_lt_pagesOf {R : List AssetItem} {i : ℕ} {a : AssetItem} {k : ℕ} (hk : 0 < k)
    (hi : R[i]? = some a) : i / k < pagesOf R.length k := by
  rw [lt_pagesOf_iff hk]
  exact lt_of_le_of_lt (Nat.mul_div_le i k) (List.getElem?_eq_some_iff.mp hi).1

/-- For every list of assets, search key and fixed page size of at least one, and a sorting
    procedure as documented: the tables from `Search` to the last page show the assets in
    order as a whole exactly if the assets on different pages are in order before any of
    the pages is sorted. -/
theorem tables_sorted_iff (env : TermEnv) (hk : 1 ≤ getPageSize env)
    (hsort : env.sorting.Documented) (s : SelectHandler) (key : GoString) :
    (tables env s key).flatten.Pairwise (InOrder env.conf.assetListSortByIp) ↔
      OrderedAcrossPages env.conf.assetListSortByIp (getPageSize env) (matchesOf s [key]) := by
  have hwithin : ∀ p, (sortedPage env (matchesOf s [key]) p).Pairwise
      (InOrder env.conf.assetListSortByIp) := fun p =>
    (hsort _ _ (transitiveOrdering_lessBy _ _)).imp mayPrecede_lessBy.mp
  rw [tables_eq hk, List.pairwise_flatten, List.pairwise_map]
  constructor
  · rintro ⟨_, hacross⟩ i j a b hij ha hb
    have hj := div_lt_pagesOf hk hb
    have hpages := List.pairwise_iff_getElem.mp hacross (i / getPageSize env) (j / getPageSize env)
      (by rw [List.length_range]; omega) (by rw [List.length_range]; omega) hij
    rw [List.getElem_range, List.getElem_range] at hpages
    exact hpages a ((mem_sortedPage hk).mpr ⟨i, rfl, ha⟩) b ((mem_sortedPage hk).mpr ⟨j, rfl, hb⟩)
  · intro hordered
    constructor
    · intro page hpage
      obtain ⟨p, _, rfl⟩ := List.mem_map.mp hpage
      exact hwithin p
    · refine List.pairwise_lt_range.imp fun {p q} hpq a ha b hb => ?_
      obtain ⟨i, rfl, hi⟩ := (mem_sortedPage hk).mp ha
      obtain ⟨j, rfl, hj⟩ := (mem_sortedPage hk).mp hb
      exact hordered i j a b hpq hi hj

/-- Two assets in pages of one, in the order of the database. -/
theorem tables_not_sorted :
    let s := freshHandler [webItem "web2", webItem "web1"]
    tables (fixedEnv "1") s (str "web") = [[webItem "web2"], [webItem "web1"]] ∧
    ¬ InOrder false (webItem "web2") (webItem "web1") := by
  unfold InOrder
  decide

theorem tables_sorted_of_one_page :
    let s := freshHandler [webItem "web2", webItem "web1"]
    (tables (fixedEnv "2") s (str "web")).flatten.Pairwise (InOrder false) :=
  (tables_sorted_iff (fixedEnv "2") (by decide) (insertionSorting_documented AssetItem)
    (freshHandler [webItem "web2", webItem "web1"]) (str "web")).mpr (by
    intro i j a b hij _ hb
    have hj := div_lt_pagesOf (k := 2) (by decide) hb
    have hsize : getPageSize (fixedEnv "2") = 2 := by decide
    have hpages : pagesOf (matchesOf (freshHandler [webItem "web2", webItem "web1"])
      [str "web"]).length 2 = 1 := by decide
    rw [hsize] at hij
    omega)

/-! ## Searching again -/

/-- `Search(k0)`, then `SearchAgain` for each of the other keys. -/
def searches (env : TermEnv) (s : SelectHandler) (k0 : GoString) (ks : List GoString) :
    SelectHandler :=
  ks.foldl (fun t key => (searchAgain env t key).1) (search env s k0).1

/-- The matches over all pages: what `Retrieve` returns for the keys of the handler when
    all rows are on one page. -/
def allMatches (t : SelectHandler) : List AssetItem := (retrieve t 0 0 t.searchKeys).1

/-- Some searchable field contains the key. -/
def hasKey (key : GoString) (item : AssetItem) : Bool :=
  (searchFields item).any fun value => contains value key

/-- What the searches are for. -/
structure Narrows (env : TermEnv) (s : SelectHandler) (k0 : GoString) (ks : List GoString) :
    Prop where
  /-- after each search the matches are the assets of the view that contain every key -/
  exact : ∀ n ≤ ks.length, ∀ a, a ∈ allMatches (searches env s k0 (ks.take n)) ↔
    a ∈ view s ∧ ∀ key ∈ k0 :: ks.take n, key ≠ [] → hasKey key a = true
  /-- searching again keeps some of the matches -/
  subset : ∀ n < ks.length, ∀ a ∈ allMatches (searches env s k0 (ks.take (n + 1))),
    a ∈ allMatches (searches env s k0 (ks.take n))
  /-- the order of the keys does not matter -/
  anyOrder : ∀ k0' ks', (k0' :: ks').Perm (k0 :: ks) → ∀ a,
    a ∈ allMatches (searches env s k0' ks') ↔ a ∈ allMatches (searches env s k0 ks)

/-- The condition on assets and keys. In the list of all assets, an asset that contains
    one of the keys contains all of them; in a node, every asset contains every key. The
    empty key is contained in everything. -/
def KeysAgree (s : SelectHandler) (keys : List GoString) : Prop :=
  match s.viewType with
  | .asset => ∀ a ∈ view s, (∃ key ∈ keys, hasKey key a = true) → ∀ key ∈ keys, hasKey key a = true
  | .nodeAsset => ∀ a ∈ view s, ∀ key ∈ keys, hasKey key a = true

theorem hasKey_nil (item : AssetItem) : hasKey [] item = true :=
  List.any_eq_true.mpr ⟨item.hostname, List.mem_cons_self, contains_iff.mpr List.nil_infix⟩

theorem containKeys_eq_true {item : AssetItem} {keys : List GoString} (hkeys : keys ≠ []) :
    containKeys item keys = true ↔ ∃ key ∈ keys, hasKey key item = true := by
  unfold containKeys
  split_ifs with h
  · have hone : keys = [[]] := h.resolve_left hkeys
    simp [hone, hasKey_nil]
  · simp only [hasKey, List.any_eq_true]
    constructor
    · rintro ⟨value, hvalue, key, hkey, hc⟩
      exact ⟨key, hkey, value, hvalue, hc⟩
    · rintro ⟨key, hkey, value, hvalue, hc⟩
      exact ⟨value, hvalue, key, hkey, hc⟩

/-- The searches leave the data as they were, and all keys in the handler. -/
theorem searches_keys (env : TermEnv) (s : SelectHandler) (k0 : GoString) (ks : List GoString) :
    SameData s (searches env s k0 ks) ∧ (searches env s k0 ks).searchKeys = k0 :: ks := by
  induction ks using List.reverseRecOn with
  | nil => exact sameData_retrieveAndDisplay env { s with searchKeys := [k0] } 0 [k0]
  | append_singleton ks key ih =>
    obtain ⟨hdata, hkeys⟩ := ih
    rw [searches, List.foldl_append, ← searches, List.foldl_cons, List.foldl_nil, searchAgain]
    obtain ⟨hdata', hkeys'⟩ := sameData_retrieveAndDisplay env
      { searches env s k0 ks with searchKeys := (searches env s k0 ks).searchKeys ++ [key] } 0
      ((searches env s k0 ks).searchKeys ++ [key])
    refine ⟨fun keys => (hdata' keys).trans (hdata keys), ?_⟩
    rw [hkeys', hkeys]
    rfl

/-- Over all pages: in the list of all assets those that contain one of the keys, in a
    node all. -/
theorem mem_allMatches_searches (env : TermEnv) (s : SelectHandler) (k0 : GoString)
    (ks : List GoString) (a : AssetItem) :
    a ∈ allMatches (searches env s k0 ks) ↔ a ∈ view s ∧
      (s.viewType = .asset → ∃ key ∈ k0 :: ks, hasKey key a = true) := by
  obtain ⟨hdata, hkeys⟩ := searches_keys env s k0 ks
  have hmatches : allMatches (searches env s k0 ks) = matchesOf s (k0 :: ks) := by
    rw [allMatches, retrieve_fst, hkeys]
    exact hdata (k0 :: ks)
  rw [hmatches]
  unfold matchesOf view retrieveLocal
  cases s.viewType with
  | asset => simp [containKeys_eq_true]
  | nodeAsset => simp

/-- Only keys that are not empty have to be asked. -/
theorem hasKey_all_iff {keys : List GoString} {a : AssetItem} :
    (∀ key ∈ keys, key ≠ [] → hasKey key a = true) ↔ ∀ key ∈ keys, hasKey key a = true := by
  constructor
  · intro h key hkey
    by_cases hnil : key = []
    · rw [hnil]
      exact hasKey_nil a
    · exact h key hkey hnil
  · exact fun h key hkey _ => h key hkey

/-- The matches of one sequence of searches are exact if and only if the keys agree. -/
theorem exact_iff_keysAgree (env : TermEnv) (s : SelectHandler) (k0 : GoString)
    (ks : List GoString) :
    (∀ a, a ∈ allMatches (searches env s k0 ks) ↔
      a ∈ view s ∧ ∀ key ∈ k0 :: ks, key ≠ [] → hasKey key a = true) ↔
    KeysAgree s (k0 :: ks) := by
  simp only [mem_allMatches_searches, hasKey_all_iff]
  unfold KeysAgree
  cases s.viewType with
  | asset =>
    constructor
    · intro h a ha hsome
      exact ((h a).mp ⟨ha, fun _ => hsome⟩).2
    · intro h a
      constructor
      · rintro ⟨ha, hsome⟩
        exact ⟨ha, h a ha (hsome rfl)⟩
      · rintro ⟨ha, hall⟩
        exact ⟨ha, fun _ => ⟨k0, List.mem_cons_self, hall k0 List.mem_cons_self⟩⟩
  | nodeAsset =>
    constructor
    · intro h a ha
      exact ((h a).mp ⟨ha, fun hasset => by cases hasset⟩).2
    · intro h a
      exact ⟨fun ⟨ha, _⟩ => ⟨ha, h a ha⟩, fun ⟨ha, _⟩ => ⟨ha, fun hasset => by cases hasset⟩⟩

/-- Keys that agree still do when some of them are left out. -/
theorem KeysAgree.mono {s : SelectHandler} {keys keys' : List GoString} (h : KeysAgree s keys)
    (hsub : ∀ key ∈ keys', key ∈ keys) : KeysAgree s keys' := by
  unfold KeysAgree at *
  cases hview : s.viewType with
  | asset =>
    rw [hview] at h
    rintro a ha ⟨key, hkey, hhas⟩ key' hkey'
    exact h a ha ⟨key, hsub key hkey, hhas⟩ key' (hsub key' hkey')
  | nodeAsset =>
    rw [hview] at h
    exact fun a ha key hkey => h a ha key (hsub key hkey)

/-- The order of the keys never matters. -/
theorem mem_allMatches_of_perm (env : TermEnv) (s : SelectHandler) {k0 k0' : GoString}
    {ks ks' : List GoString} (hperm : (k0' :: ks').Perm (k0 :: ks)) (a : AssetItem) :
    a ∈ allMatches (searches env s k0' ks') ↔ a ∈ allMatches (searches env s k0 ks) := by
  rw [mem_allMatches_searches, mem_allMatches_searches]
  simp only [hperm.mem_iff]

/-- For every list of assets, view and sequence of keys: searching again narrows the
    matches to the assets that contain every key exactly if the keys agree. -/
theorem searchAgain_narrows_iff (env : TermEnv) (s : SelectHandler) (k0 : GoString)
    (ks : List GoString) : Narrows env s k0 ks ↔ KeysAgree s (k0 :: ks) := by
  constructor
  · intro h
    have hexact := h.exact ks.length le_rfl
    rw [List.take_length] at hexact
    exact (exact_iff_keysAgree env s k0 ks).mp hexact
  · intro h
    have hexact : ∀ n, ∀ a, a ∈ allMatches (searches env s k0 (ks.take n)) ↔
        a ∈ view s ∧ ∀ key ∈ k0 :: ks.take n, key ≠ [] → hasKey key a = true := by
      intro n
      apply (exact_iff_keysAgree env s k0 (ks.take n)).mpr
      exact h.mono fun key hkey => List.cons_subset_cons k0 (List.take_subset n ks) hkey
    refine ⟨fun n _ => hexact n, fun n _ a ha => ?_, fun k0' ks' hperm =>
      mem_allMatches_of_perm env s hperm⟩
    rw [hexact] at ha ⊢
    refine ⟨ha.1, fun key hkey => ha.2 key ?_⟩
    exact List.cons_subset_cons k0 (List.take_subset_take_left ks (Nat.le_succ n)) hkey

/-- Searching again for a second key adds what contains only that. -/
theorem searchAgain_widens :
    let s := freshHandler [webItem "web1", webItem "db1"]
    allMatches (searches (fixedEnv "20") s (str "web") []) = [webItem "web1"] ∧
    allMatches (searches (fixedEnv "20") s (str "web") [str "db"]) =
      [webItem "web1", webItem "db1"] ∧
    ¬ Narrows (fixedEnv "20") s (str "web") [str "db"] := by
  refine ⟨by decide, by decide, fun h => ?_⟩
  exact absurd (h.subset 0 Nat.zero_lt_one (webItem "db1") (by decide)) (by decide)

end GoJump.Handler
