import GoJump.Go.Sort
import GoJump.Handler.DirectHandler

/-!
# The asset list

Model of `UserSelectHandler` (`pkg/handler/selectHandler.go` lines 21–370), of its
`pageInfo` (`pkg/handler/pageInfo.go`), of `getPageSize` (`pkg/handler/interactive.go`
lines 237–261) and of the two ways to display a result (`pkg/handler/asset.go` lines
15–122). The operations are functions on the handler's state; `Proxy(target)` is the
outcome `proxied target`, a table on the terminal is the outcome `displayed`.

* `proxied_first_of_page`: a search for a key with several matches that logs into
  the first of them, because the page holds only one.
* `proxied_unique_iff`: when a search logs in only to the one asset that matches, or
  the one that is named exactly.
-/

namespace GoJump.Handler

open GoJump.Go GoJump.Model GoJump.Core

/-! ## Sorting -/

/-- `CompareString` (`pkg/handler/asset.go` lines 224–226). -/
def compareString (a b : GoString) : Bool := decide (a < b)

/-- The loop of `CompareIP` over the parts of the two addresses. -/
def compareParts : List GoString → List GoString → Bool
  | [], _ => true
  | _ :: _, [] => false
  | a :: as, b :: bs =>
    if a.length = b.length then
      if a = b then compareParts as bs else decide (a < b)
    else decide (a.length < b.length)

/-- `CompareIP` (lines 203–222); 46 is the dot. -/
def compareIP (ipA ipB : GoString) : Bool := compareParts (split ipA 46) (split ipB 46)

/-- `Less` of `IPAssetList` and of `HostnameAssetList`. -/
def lessBy (sortByIp : Bool) (a b : AssetItem) : Bool :=
  if sortByIp then compareIP a.ip b.ip else compareString a.hostname b.hostname

/-! ## Pages -/

/-- `pageInfo` (`pkg/handler/pageInfo.go` lines 5–15). -/
structure PageInfo where
  pageSize : ℕ
  currentTotal : ℕ
  currentOffset : ℕ
  totalPage : ℕ
  currentPage : ℕ
  totalCount : ℕ
  deriving DecidableEq, Inhabited

/-- The number of pages of `k` that `n` rows fill (`update`, lines 35–46). -/
def pagesOf (n k : ℕ) : ℕ := if n % k = 0 then n / k else n / k + 1

/-- `updatePageInfo` and `update` (lines 17–47). -/
def updatePageInfo (pageSize currTotal offset total : ℕ) : PageInfo where
  pageSize := pageSize
  currentTotal := currTotal
  currentOffset := offset
  totalPage := if pageSize = 0 then 1 else pagesOf total pageSize
  currentPage := if pageSize = 0 then 1 else pagesOf offset pageSize
  totalCount := total

/-- The terminal and configuration an operation runs with. -/
structure TermEnv where
  height : ℤ
  conf : TerminalConfig
  sorting : Sorting AssetItem

/-- `getPageSize`; zero is `PAGESIZEALL`. -/
def getPageSize (env : TermEnv) : ℕ :=
  let atLeastOne (n : ℤ) : ℕ := if n ≤ 0 then 1 else n.toNat
  if env.conf.assetListPageSize = str "auto" then atLeastOne (env.height - 8)
  else if env.conf.assetListPageSize = str "all" then 0
  else
    match atoi env.conf.assetListPageSize with
    | some value => atLeastOne value
    | none => atLeastOne (env.height - 8)

/-- The first page of a result: all of it for `PAGESIZEALL`. -/
def firstPage {α : Type} (pageSize : ℕ) (l : List α) : List α :=
  if pageSize = 0 then l else l.take pageSize

/-! ## The handler -/

inductive SelectType
  | asset
  | nodeAsset
  deriving DecidableEq

/-- `UserSelectHandler` (lines 21–37); `currentType` is not set at first. -/
structure SelectHandler where
  currentType : Option SelectType
  searchKeys : List GoString
  hasPre : Bool
  hasNext : Bool
  allLocalData : List AssetItem
  selectedNode : Node
  currentResult : List AssetItem
  pageInfo : PageInfo
  deriving DecidableEq

/-- A handler that has just been made, with these assets. -/
def freshHandler (data : List AssetItem) : SelectHandler :=
  ⟨none, [], false, false, data, default, [], default⟩

/-- The fields of an item that `searchLocalAsset` searches; an item has no `name`. -/
def searchFields (item : AssetItem) : List GoString :=
  [item.hostname, item.ip, item.platform, item.comment]

/-- `containKeysInMapItemFields` (lines 277–300). -/
def containKeys (item : AssetItem) (keys : List GoString) : Bool :=
  if keys = [] ∨ keys = [[]] then true
  else (searchFields item).any fun value => keys.any fun key => contains value key

/-- `retrieveLocalNodeAsset` with `containAssetIDinMap` (lines 317–339). -/
def inNode (node : Node) (item : AssetItem) : Bool := decide (item.id ∈ node.assetIDs)

/-- `retrieveLocal` for a type that is set (lines 253–258). -/
def retrieveLocal (s : SelectHandler) (type : SelectType) (searches : List GoString) :
    List AssetItem :=
  match type with
  | .asset => s.allLocalData.filter (containKeys · searches)
  | .nodeAsset => s.allLocalData.filter (inNode s.selectedNode)

/-- `Retrieve` (lines 207–251) for a type that is set: the page and the handler with
    its paging fields updated. -/
def retrieveAs (s : SelectHandler) (type : SelectType) (pageSize offset : ℕ)
    (searches : List GoString) : List AssetItem × SelectHandler :=
  let searchResult := retrieveLocal s type searches
  let totalData := searchResult.drop offset
  let currentPageSize := if pageSize = 0 then totalData.length else pageSize
  let currentData := totalData.take currentPageSize
  let info := updatePageInfo currentPageSize totalData.length (offset + currentData.length)
    searchResult.length
  (currentData, { s with
    pageInfo := info
    hasPre := decide (1 < info.currentPage)
    hasNext := decide (info.currentPage < info.totalPage) })

/-- `SetSelectType` (lines 39–48). For assets it retrieves all of them for the
    completion, which moves the paging fields. -/
def setSelectType (s : SelectHandler) (type : SelectType) : SelectHandler :=
  let s := { s with currentType := some type }
  match type with
  | .asset => (retrieveAs s .asset 0 0 [[]]).2
  | .nodeAsset => s

/-- `Retrieve`; without a type it sets that of assets (lines 259–263). -/
def retrieve (s : SelectHandler) (pageSize offset : ℕ) (searches : List GoString) :
    List AssetItem × SelectHandler :=
  match s.currentType with
  | some type => retrieveAs s type pageSize offset searches
  | none => retrieveAs (setSelectType s .asset) .asset pageSize offset searches

/-- `SetNode` (lines 84–87). -/
def setNode (s : SelectHandler) (node : Node) : SelectHandler :=
  { setSelectType s .nodeAsset with selectedNode := node }

/-- What an operation does besides changing the handler. -/
inductive Outcome
  /-- a table of these assets is written to the terminal -/
  | displayed (table : List AssetItem)
  /-- a message is written, but no table -/
  | noTable
  /-- `Proxy(target)` is called -/
  | proxied (target : AssetItem)
  deriving DecidableEq

/-- `DisplayCurrentResult` (lines 172–182) with `displaySortedAssets`, which sorts
    `currentResult` in place. -/
def displayCurrentResult (env : TermEnv) (s : SelectHandler) : SelectHandler × Outcome :=
  match s.currentType with
  | none => (s, .noTable)
  | some _ =>
    if s.currentResult.length = 0 then (s, .noTable)
    else
      let sorted := env.sorting.sort (lessBy env.conf.assetListSortByIp) s.currentResult
      ({ s with currentResult := sorted }, .displayed sorted)

/-- Retrieve a page, make it the current result and display it. -/
def retrieveAndDisplay (env : TermEnv) (s : SelectHandler) (offset : ℕ)
    (searches : List GoString) : SelectHandler × Outcome :=
  let r := retrieve s (getPageSize env) offset searches
  displayCurrentResult env { r.2 with currentResult := r.1 }

/-- `MoveNextPage` (lines 99–106). -/
def moveNextPage (env : TermEnv) (s : SelectHandler) : SelectHandler × Outcome :=
  if s.hasNext then retrieveAndDisplay env s s.pageInfo.currentOffset s.searchKeys
  else displayCurrentResult env s

/-- `MovePrePage` (lines 108–119); a negative start is zero. -/
def movePrePage (env : TermEnv) (s : SelectHandler) : SelectHandler × Outcome :=
  if s.hasPre then
    retrieveAndDisplay env s (s.pageInfo.currentOffset - getPageSize env * 2) s.searchKeys
  else displayCurrentResult env s

/-- `Search` (lines 121–126). -/
def search (env : TermEnv) (s : SelectHandler) (key : GoString) : SelectHandler × Outcome :=
  retrieveAndDisplay env { s with searchKeys := [key] } 0 [key]

/-- `SearchAgain` (lines 128–133). -/
def searchAgain (env : TermEnv) (s : SelectHandler) (key : GoString) : SelectHandler × Outcome :=
  retrieveAndDisplay env { s with searchKeys := s.searchKeys ++ [key] } 0 (s.searchKeys ++ [key])

/-- The key is the address or the host name of the item. -/
def named (key : GoString) (item : AssetItem) : Bool := decide (key = item.ip ∨ key = item.hostname)

/-- `getUniqueAssetFromKey` (lines 356–370). -/
def getUniqueAssetFromKey (key : GoString) (currentResult : List AssetItem) : Option AssetItem :=
  match currentResult.filter (named key) with
  | [item] => some item
  | _ => none

/-- `SearchOrProxy` from the retrieval on (lines 143–161). -/
def searchThenProxy (env : TermEnv) (s : SelectHandler) (key : GoString) :
    SelectHandler × Outcome :=
  let r := retrieve s (getPageSize env) 0 [key]
  let s := { r.2 with currentResult := r.1, searchKeys := [key] }
  match r.1 with
  | [item] => (s, .proxied item)
  | currentResult =>
    if s.currentType = some .asset ∧ trimSpace key ≠ [] then
      match getUniqueAssetFromKey key currentResult with
      | some item => (s, .proxied item)
      | none => displayCurrentResult env s
    else displayCurrentResult env s

/-- `SearchOrProxy` (lines 135–162). -/
def searchOrProxy (env : TermEnv) (s : SelectHandler) (key : GoString) :
    SelectHandler × Outcome :=
  match pickIndex s.currentResult key with
  | some item => (s, .proxied item)
  | none => searchThenProxy env s key

/-! ## What a retrieval returns -/

/-- The type a retrieval works with. -/
def SelectHandler.viewType (s : SelectHandler) : SelectType := s.currentType.getD .asset

/-- The assets of the current view: all, or those of the selected node. -/
def view (s : SelectHandler) : List AssetItem :=
  match s.viewType with
  | .asset => s.allLocalData
  | .nodeAsset => s.allLocalData.filter (inNode s.selectedNode)

/-- Some searchable field contains the key. -/
def matchesKey (key : GoString) (item : AssetItem) : Bool := containKeys item [key]

theorem take_pageSize {α : Type} (k : ℕ) (l : List α) :
    l.take (if k = 0 then l.length else k) = firstPage k l := by
  unfold firstPage
  split_ifs
  · exact List.take_length
  · rfl

theorem retrieve_fst (s : SelectHandler) (k : ℕ) (keys : List GoString) :
    (retrieve s k 0 keys).1 = firstPage k (retrieveLocal s s.viewType keys) := by
  unfold retrieve SelectHandler.viewType
  cases s.currentType with
  | some type => exact take_pageSize k _
  | none => exact take_pageSize k _

theorem retrieve_currentType (s : SelectHandler) (k offset : ℕ) (keys : List GoString) :
    (retrieve s k offset keys).2.currentType = some s.viewType := by
  unfold retrieve SelectHandler.viewType
  cases h : s.currentType with
  | some type => exact h
  | none => rfl

/-- A search in the list of all assets keeps those that match; in a node it keeps
    all of them, whatever the key. -/
theorem retrieveLocal_eq (s : SelectHandler) (key : GoString) :
    retrieveLocal s s.viewType [key] =
      match s.viewType with
      | .asset => (view s).filter (matchesKey key)
      | .nodeAsset => view s := by
  unfold view retrieveLocal
  cases s.viewType with
  | asset => rfl
  | nodeAsset => rfl

/-- An asset that the key names matches it. -/
theorem matchesKey_of_named {key : GoString} {item : AssetItem} (h : named key item = true) :
    matchesKey key item = true := by
  have hfield : ∃ value ∈ searchFields item, contains value key = true := by
    rcases of_decide_eq_true h with rfl | rfl
    · exact ⟨item.ip, by simp [searchFields], contains_self _⟩
    · exact ⟨item.hostname, by simp [searchFields], contains_self _⟩
  unfold matchesKey containKeys
  by_cases hkey : [key] = [] ∨ [key] = [[]]
  · rw [if_pos hkey]
  · obtain ⟨value, hmem, hc⟩ := hfield
    rw [if_neg hkey]
    exact List.any_eq_true.mpr ⟨value, hmem, by simp [hc]⟩

theorem filter_named_filter_matches (key : GoString) (l : List AssetItem) :
    (l.filter (matchesKey key)).filter (named key) = l.filter (named key) := by
  rw [List.filter_filter]
  apply List.filter_congr
  intro item _
  by_cases h : named key item = true
  · rw [h, matchesKey_of_named h]
    rfl
  · simp [h]

theorem getUniqueAssetFromKey_eq_some {key : GoString} {l : List AssetItem} {a : AssetItem} :
    getUniqueAssetFromKey key l = some a ↔ l.filter (named key) = [a] := by
  unfold getUniqueAssetFromKey
  split
  · rename_i item h
    rw [h]
    simp
  · rename_i h
    constructor
    · intro hnone
      cases hnone
    · intro heq
      exact absurd heq (h a)

/-! ## When a search logs in -/

theorem displayCurrentResult_not_proxied (env : TermEnv) (s : SelectHandler) (a : AssetItem) :
    (displayCurrentResult env s).2 ≠ .proxied a := by
  unfold displayCurrentResult
  cases s.currentType with
  | none => simp
  | some type =>
    dsimp only
    split_ifs <;> simp

/-- What a search does with the first page: log in to its only asset; log in to the
    only one that the key names, in the list of all assets; or display it. -/
theorem searchThenProxy_cases (env : TermEnv) (s : SelectHandler) (key : GoString) :
    ∃ s' : SelectHandler, s'.currentResult = (retrieve s (getPageSize env) 0 [key]).1 ∧
      s'.currentType = some s.viewType ∧
      ((∃ a, s'.currentResult = [a] ∧ searchThenProxy env s key = (s', .proxied a)) ∨
      (s'.currentResult.length ≠ 1 ∧ s.viewType = .asset ∧ trimSpace key ≠ [] ∧
        ∃ a, s'.currentResult.filter (named key) = [a] ∧
          searchThenProxy env s key = (s', .proxied a)) ∨
      (s'.currentResult.length ≠ 1 ∧ (s.viewType = .asset → trimSpace key ≠ [] →
          (s'.currentResult.filter (named key)).length ≠ 1) ∧
        searchThenProxy env s key = displayCurrentResult env s')) := by
  have htype := retrieve_currentType s (getPageSize env) 0 [key]
  unfold searchThenProxy
  generalize retrieve s (getPageSize env) 0 [key] = r at htype
  obtain ⟨page, t⟩ := r
  refine ⟨{ t with currentResult := page, searchKeys := [key] }, rfl, htype, ?_⟩
  dsimp only at htype ⊢
  split
  · rename_i item
    exact Or.inl ⟨item, rfl, rfl⟩
  · rename_i hone
    have hlen : page.length ≠ 1 := by
      intro hlen
      obtain ⟨b, rfl⟩ := List.length_eq_one_iff.mp hlen
      exact hone b rfl
    right
    split_ifs with hcond
    · rw [htype, Option.some.injEq] at hcond
      cases hu : getUniqueAssetFromKey key page with
      | some item =>
        exact Or.inl ⟨hlen, hcond.1, hcond.2, item, getUniqueAssetFromKey_eq_some.mp hu, rfl⟩
      | none =>
        refine Or.inr ⟨hlen, fun _ _ hfil => ?_, rfl⟩
        obtain ⟨b, hb⟩ := List.length_eq_one_iff.mp hfil
        rw [getUniqueAssetFromKey_eq_some.mpr hb] at hu
        cases hu
    · refine Or.inr ⟨hlen, fun hview hblank => ?_, rfl⟩
      exact absurd ⟨by rw [htype, hview], hblank⟩ hcond

/-- A search logs in to the only asset of the page, or, in the list of all assets, to
    the only one of the page that the key names. -/
theorem searchThenProxy_proxied (env : TermEnv) (s : SelectHandler) (key : GoString)
    (a : AssetItem) :
    (searchThenProxy env s key).2 = .proxied a ↔
      (retrieve s (getPageSize env) 0 [key]).1 = [a] ∨
      ((retrieve s (getPageSize env) 0 [key]).1.length ≠ 1 ∧ s.viewType = .asset ∧
        trimSpace key ≠ [] ∧
        (retrieve s (getPageSize env) 0 [key]).1.filter (named key) = [a]) := by
  obtain ⟨s', hpage, _, h⟩ := searchThenProxy_cases env s key
  rw [← hpage]
  rcases h with ⟨b, hb, heq⟩ | ⟨hlen, hview, hblank, b, hb, heq⟩ | ⟨hlen, hnone, heq⟩
  · simp [heq, hb]
  · have hne : s'.currentResult ≠ [a] := fun h => hlen (by rw [h]; rfl)
    simp [heq, hb, hne, hlen, hview, hblank]
  · have hne : s'.currentResult ≠ [a] := fun h => hlen (by rw [h]; rfl)
    rw [heq]
    constructor
    · intro h
      exact absurd h (displayCurrentResult_not_proxied env s' a)
    · rintro (h | ⟨_, hview, hblank, hfil⟩)
      · exact absurd h hne
      · exact absurd (by rw [hfil]; rfl) (hnone hview hblank)

/-! ## Logging in to a unique match -/

/-- `a` matches the key, and it is the only asset of `l` that does or the only one
    that the key names. -/
def UniqueTarget (l : List AssetItem) (key : GoString) (a : AssetItem) : Prop :=
  matchesKey key a = true ∧ (l.filter (matchesKey key) = [a] ∨ l.filter (named key) = [a])

/-- What comes after the first page. -/
def laterPages {α : Type} (pageSize : ℕ) (l : List α) : List α :=
  if pageSize = 0 then [] else l.drop pageSize

theorem firstPage_append_laterPages {α : Type} (k : ℕ) (l : List α) :
    firstPage k l ++ laterPages k l = l := by
  unfold firstPage laterPages
  split_ifs
  · exact List.append_nil l
  · exact List.take_append_drop k l

theorem firstPage_eq_singleton {α : Type} {k : ℕ} {l : List α} {a : α} :
    firstPage k l = [a] ↔ l = [a] ∨ (k = 1 ∧ l.head? = some a) := by
  unfold firstPage
  split_ifs with hk
  · simp [hk]
  · obtain ⟨k, rfl⟩ := Nat.exists_eq_succ_of_ne_zero hk
    cases l with
    | nil => simp
    | cons b l =>
      simp only [Nat.succ_eq_add_one, List.take_succ_cons, List.cons.injEq, List.take_eq_nil_iff,
        List.head?_cons, Option.some.injEq]
      constructor
      · rintro ⟨rfl, rfl | rfl⟩
        · exact Or.inr ⟨rfl, rfl⟩
        · exact Or.inl ⟨rfl, rfl⟩
      · rintro (⟨rfl, rfl⟩ | ⟨hk, rfl⟩)
        · exact ⟨rfl, Or.inr rfl⟩
        · exact ⟨rfl, Or.inl (by omega)⟩

theorem length_firstPage_ne_one {α : Type} {k : ℕ} {l : List α} :
    (firstPage k l).length ≠ 1 ↔ l.length = 0 ∨ (2 ≤ l.length ∧ k ≠ 1) := by
  unfold firstPage
  split_ifs with hk
  · omega
  · rw [List.length_take]
    omega

/-- The condition on view, page size and key. In the list of all assets: at most one
    asset matches; or a page holds one asset and the first match is the only asset
    named by the key; or the one asset of the first page that the key names is the
    only one. In a node: it has no assets; or several that do not make pages of one;
    or its first asset is the unique match. -/
def OnlyUniqueHits (pageSize : ℕ) (type : SelectType) (l : List AssetItem) (key : GoString) :
    Prop :=
  match type with
  | .asset =>
    (l.filter (matchesKey key)).length ≤ 1 ∨
    (pageSize = 1 ∧ ∃ a, (l.filter (matchesKey key)).head? = some a ∧ l.filter (named key) = [a]) ∨
    (pageSize ≠ 1 ∧ (trimSpace key ≠ [] →
      ((firstPage pageSize (l.filter (matchesKey key))).filter (named key)).length = 1 →
      (laterPages pageSize (l.filter (matchesKey key))).filter (named key) = []))
  | .nodeAsset =>
    l = [] ∨ (2 ≤ l.length ∧ pageSize ≠ 1) ∨ ∃ a, l.head? = some a ∧ UniqueTarget l key a

/-- The named assets of the view are those of the first page and those after it. -/
theorem filter_named_split (k : ℕ) (key : GoString) (l : List AssetItem) :
    l.filter (named key) =
      (firstPage k (l.filter (matchesKey key))).filter (named key) ++
        (laterPages k (l.filter (matchesKey key))).filter (named key) := by
  rw [← List.filter_append, firstPage_append_laterPages, filter_named_filter_matches]

/-- What a search in the list of all assets logs in to, from its matches `R`. -/
def Hit (k : ℕ) (R : List AssetItem) (key : GoString) (a : AssetItem) : Prop :=
  firstPage k R = [a] ∨
    ((firstPage k R).length ≠ 1 ∧ trimSpace key ≠ [] ∧ (firstPage k R).filter (named key) = [a])

theorem hit_of_length_le_one {k : ℕ} {R : List AssetItem} {key : GoString} {a : AssetItem}
    (hR : R.length ≤ 1) (h : Hit k R key a) : R = [a] := by
  rcases h with h | ⟨hlen, _, hfil⟩
  · rcases firstPage_eq_singleton.mp h with hRa | ⟨_, hhead⟩
    · exact hRa
    · obtain ⟨rest, rfl⟩ := List.head?_eq_some_iff.mp hhead
      have : rest = [] := List.eq_nil_of_length_eq_zero (by simpa using hR)
      rw [this]
  · have hnil : R = [] := List.eq_nil_of_length_eq_zero (by
      have := length_firstPage_ne_one.mp hlen
      omega)
    simp [hnil, firstPage] at hfil

/-- With pages of one, the first match is taken. -/
theorem hit_pageSize_one {R : List AssetItem} {key : GoString} {a : AssetItem} (hR : 2 ≤ R.length) :
    Hit 1 R key a ↔ R.head? = some a := by
  constructor
  · rintro (h | ⟨hlen, _⟩)
    · rcases firstPage_eq_singleton.mp h with rfl | ⟨_, hhead⟩
      · rfl
      · exact hhead
    · have := length_firstPage_ne_one.mp hlen
      omega
  · intro h
    exact Or.inl (firstPage_eq_singleton.mpr (Or.inr ⟨rfl, h⟩))

/-- With longer pages, only a match that the key names is taken. -/
theorem hit_pageSize_ne_one {k : ℕ} {R : List AssetItem} {key : GoString} {a : AssetItem}
    (hR : 2 ≤ R.length) (hk : k ≠ 1) :
    Hit k R key a ↔ trimSpace key ≠ [] ∧ (firstPage k R).filter (named key) = [a] := by
  have hlen : (firstPage k R).length ≠ 1 := length_firstPage_ne_one.mpr (Or.inr ⟨hR, hk⟩)
  constructor
  · rintro (h | ⟨_, h⟩)
    · exact absurd (by rw [h]; rfl) hlen
    · exact h
  · intro h
    exact Or.inr ⟨hlen, h⟩

/-- The list of all assets: what the search proxies is unique exactly under the
    condition. -/
theorem asset_unique_iff (k : ℕ) (l : List AssetItem) (key : GoString) :
    (∀ a, Hit k (l.filter (matchesKey key)) key a → UniqueTarget l key a) ↔
      OnlyUniqueHits k .asset l key := by
  have hsplit := filter_named_split k key l
  have hnamed : ∀ a, l.filter (named key) = [a] → matchesKey key a = true := by
    intro a ha
    apply matchesKey_of_named
    exact (List.mem_filter.mp (by rw [ha]; exact List.mem_singleton_self a)).2
  have hmatch : ∀ a, l.filter (matchesKey key) = [a] → matchesKey key a = true := fun a ha =>
    (List.mem_filter.mp (by rw [ha]; exact List.mem_singleton_self a)).2
  unfold UniqueTarget OnlyUniqueHits
  dsimp only
  generalize l.filter (matchesKey key) = R at hsplit hmatch
  by_cases h1 : R.length ≤ 1
  · refine ⟨fun _ => Or.inl h1, fun _ a ha => ?_⟩
    have hRa := hit_of_length_le_one h1 ha
    exact ⟨hmatch a hRa, Or.inl hRa⟩
  have hR : ∀ a, R ≠ [a] := by
    rintro a rfl
    exact h1 (Nat.le_refl 1)
  by_cases hk : k = 1
  · subst hk
    have hhit : ∀ a, Hit 1 R key a ↔ R.head? = some a := fun a => hit_pageSize_one (by omega)
    constructor
    · intro h
      obtain ⟨a, ha⟩ : ∃ a, R.head? = some a := by
        obtain ⟨a, rest, rfl⟩ := List.exists_cons_of_length_pos (l := R) (by omega)
        exact ⟨a, rfl⟩
      exact Or.inr (Or.inl ⟨rfl, a, ha, (h a ((hhit a).mpr ha)).2.resolve_left (hR a)⟩)
    · rintro (h | ⟨_, b, hb, hone⟩ | ⟨h, _⟩) a ha
      · exact absurd h h1
      · rw [hhit, hb] at ha
        cases ha
        exact ⟨hnamed b hone, Or.inr hone⟩
      · exact absurd rfl h
  · have hhit : ∀ a, Hit k R key a ↔ trimSpace key ≠ [] ∧
        (firstPage k R).filter (named key) = [a] := fun a => hit_pageSize_ne_one (by omega) hk
    constructor
    · intro h
      refine Or.inr (Or.inr ⟨hk, fun hblank hlen => ?_⟩)
      obtain ⟨a, ha⟩ := List.length_eq_one_iff.mp hlen
      have hone := (h a ((hhit a).mpr ⟨hblank, ha⟩)).2.resolve_left (hR a)
      rw [hsplit, ha] at hone
      exact (List.cons.inj hone).2
    · rintro (h | ⟨h, _⟩ | ⟨_, hlater⟩) a hita
      · exact absurd h h1
      · exact absurd h hk
      · obtain ⟨hblank, ha⟩ := (hhit a).mp hita
        have hone : l.filter (named key) = [a] := by
          rw [hsplit, ha, hlater hblank (by rw [ha]; rfl)]
          rfl
        exact ⟨hnamed a hone, Or.inr hone⟩

/-- A node: only a page of one asset is proxied, whatever the key. -/
theorem node_unique_iff (k : ℕ) (l : List AssetItem) (key : GoString) :
    (∀ a, firstPage k l = [a] → UniqueTarget l key a) ↔ OnlyUniqueHits k .nodeAsset l key := by
  unfold OnlyUniqueHits
  dsimp only
  constructor
  · intro h
    cases l with
    | nil => exact Or.inl rfl
    | cons a rest =>
      by_cases hmany : 2 ≤ (a :: rest).length ∧ k ≠ 1
      · exact Or.inr (Or.inl hmany)
      · refine Or.inr (Or.inr ⟨a, rfl, h a (firstPage_eq_singleton.mpr ?_)⟩)
        by_cases hk : k = 1
        · exact Or.inr ⟨hk, rfl⟩
        · left
          have : rest = [] := by
            by_contra hne
            have := List.length_pos_iff.mpr hne
            exact hmany ⟨by simp only [List.length_cons]; omega, hk⟩
          rw [this]
  · rintro (rfl | ⟨hlen, hk⟩ | ⟨b, hb, hunique⟩) a ha
    · simp [firstPage] at ha
    · have := length_firstPage_ne_one.mpr (Or.inr ⟨hlen, hk⟩)
      rw [ha] at this
      exact absurd rfl this
    · have hhead : l.head? = some a := by
        rcases firstPage_eq_singleton.mp ha with rfl | ⟨_, h⟩
        · rfl
        · exact h
      rw [hb] at hhead
      cases hhead
      exact hunique

/-- For every list of assets, view, page size and key that is not a valid index into
    the current result: whatever `SearchOrProxy` logs in to is the unique match of
    the whole view, exactly under the condition. -/
theorem proxied_unique_iff (env : TermEnv) (s : SelectHandler) (key : GoString)
    (hkey : pickIndex s.currentResult key = none) :
    (∀ a, (searchOrProxy env s key).2 = .proxied a → UniqueTarget (view s) key a) ↔
      OnlyUniqueHits (getPageSize env) s.viewType (view s) key := by
  have hsearch : searchOrProxy env s key = searchThenProxy env s key := by
    rw [searchOrProxy, hkey]
  simp only [hsearch, searchThenProxy_proxied, retrieve_fst, retrieveLocal_eq]
  cases htype : s.viewType with
  | asset =>
    simp only [true_and]
    exact asset_unique_iff (getPageSize env) (view s) key
  | nodeAsset =>
    simp only [reduceCtorEq, false_and, and_false, or_false]
    exact node_unique_iff (getPageSize env) (view s) key

/-! ### Pages of one, and a node of one -/

/-- A terminal with a fixed page size. -/
def fixedEnv (size : String) : TermEnv := ⟨24, ⟨str size, false⟩, insertionSorting AssetItem⟩

def webItem (host : String) : AssetItem := ⟨str host, str host, str "10.0.0.1", [], []⟩

theorem proxied_first_of_page :
    let s := freshHandler [webItem "web1", webItem "web2"]
    let n := setNode s ⟨str "n", str "1", str "node", [str "web1"]⟩
    (searchOrProxy (fixedEnv "1") s (str "web")).2 = .proxied (webItem "web1") ∧
    ¬ UniqueTarget (view s) (str "web") (webItem "web1") ∧
    (searchOrProxy (fixedEnv "20") n (str "db")).2 = .proxied (webItem "web1") ∧
    ¬ UniqueTarget (view n) (str "db") (webItem "web1") := by
  unfold UniqueTarget
  decide

theorem proxied_unique_match :
    let s := freshHandler [webItem "web1", webItem "web2"]
    (searchOrProxy (fixedEnv "20") s (str "web2")).2 = .proxied (webItem "web2") ∧
    UniqueTarget (view s) (str "web2") (webItem "web2") :=
  ⟨by decide, (proxied_unique_iff (fixedEnv "20") (freshHandler [webItem "web1", webItem "web2"])
    (str "web2") (by decide)).mpr (Or.inl (by decide)) (webItem "web2") (by decide)⟩

end GoJump.Handler
