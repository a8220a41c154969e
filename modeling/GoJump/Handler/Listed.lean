import GoJump.Handler.Dispatch

/-!
# Where the assets of the menu come from

The interactive loop logs in to assets of its current result, or of a retrieval from its list.
Both come from the database: when the handler was made, or when the list was refreshed. The
current result is not refreshed with the list.

* `dispatch_listed`: what holds of all assets in these databases holds of every asset that a
  line logs in to.
-/

namespace GoJump.Handler

open GoJump.Go GoJump.Lib GoJump.Model GoJump.Core

theorem pickIndex_mem {α : Type} {items : List α} {line : GoString} {a : α}
    (h : pickIndex items line = some a) : a ∈ items := by
  unfold pickIndex at h
  split at h
  · split_ifs at h
    exact List.mem_of_getElem? h
  · cases h

theorem chooseSystemUser_mem {cs : Casing} {systemUsers : List SystemUser} {lines : List GoString}
    {s : SystemUser} (h : chooseSystemUser cs systemUsers lines = some s) : s ∈ systemUsers := by
  have hloop : ∀ lines, chooseLoop cs systemUsers lines = some s → s ∈ systemUsers := by
    intro lines
    induction lines with
    | nil => exact nofun
    | cons line rest ih =>
      intro h
      unfold chooseLoop at h
      dsimp only at h
      split_ifs at h
      split at h
      · rename_i hpick
        cases h
        exact pickIndex_mem hpick
      · exact ih h
  unfold chooseSystemUser at h
  split at h
  · cases h
  · cases h
    exact List.mem_singleton_self _
  · exact hloop lines h

section Listed

variable {P : AssetItem → Prop}

/-- Every asset that the handler knows has the property. -/
def Listed (P : AssetItem → Prop) (s : SelectHandler) : Prop :=
  (∀ item ∈ s.allLocalData, P item) ∧ ∀ item ∈ s.currentResult, P item

/-- After an operation, and so has the one that it logs in to. -/
def KeepsListed (P : AssetItem → Prop) (r : SelectHandler × Outcome) : Prop :=
  Listed P r.1 ∧ ∀ item, r.2 = .proxied item → P item

theorem retrieveAs_listed {s : SelectHandler} (h : Listed P s) (type : SelectType)
    (pageSize offset : ℕ) (searches : List GoString) :
    (∀ item ∈ (retrieveAs s type pageSize offset searches).1, P item) ∧
      Listed P (retrieveAs s type pageSize offset searches).2 := by
  refine ⟨fun item hitem => ?_, h⟩
  have hlocal : item ∈ retrieveLocal s type searches :=
    List.mem_of_mem_drop (List.mem_of_mem_take hitem)
  cases type with
  | asset => exact h.1 item (List.mem_filter.mp hlocal).1
  | nodeAsset => exact h.1 item (List.mem_filter.mp hlocal).1

theorem setSelectType_listed {s : SelectHandler} (h : Listed P s) (type : SelectType) :
    Listed P (setSelectType s type) := by
  cases type with
  | asset => exact h
  | nodeAsset => exact h

theorem retrieve_listed {s : SelectHandler} (h : Listed P s) (pageSize offset : ℕ)
    (searches : List GoString) :
    (∀ item ∈ (retrieve s pageSize offset searches).1, P item) ∧
      Listed P (retrieve s pageSize offset searches).2 := by
  unfold retrieve
  cases s.currentType with
  | some type => exact retrieveAs_listed h type pageSize offset searches
  | none => exact retrieveAs_listed (setSelectType_listed h .asset) .asset pageSize offset searches

theorem displayCurrentResult_listed (env : TermEnv) {s : SelectHandler} (h : Listed P s) :
    KeepsListed P (displayCurrentResult env s) := by
  refine ⟨?_, fun item hp => absurd hp (displayCurrentResult_not_proxied env s item)⟩
  unfold displayCurrentResult
  cases s.currentType with
  | none => exact h
  | some type =>
    dsimp only
    split_ifs
    · exact h
    · exact ⟨h.1, fun item hitem => h.2 item ((env.sorting.perm _ _).mem_iff.mp hitem)⟩

theorem retrieveAndDisplay_listed (env : TermEnv) {s : SelectHandler} (h : Listed P s) (offset : ℕ)
    (searches : List GoString) : KeepsListed P (retrieveAndDisplay env s offset searches) := by
  obtain ⟨hpage, hs⟩ := retrieve_listed h (getPageSize env) offset searches
  exact displayCurrentResult_listed env ⟨hs.1, hpage⟩

theorem searchOrProxy_listed (env : TermEnv) {s : SelectHandler} (h : Listed P s) (key : GoString) :
    KeepsListed P (searchOrProxy env s key) := by
  unfold searchOrProxy
  cases hpick : pickIndex s.currentResult key with
  | some item =>
    refine ⟨h, ?_⟩
    rintro _ ⟨⟩
    exact h.2 item (pickIndex_mem hpick)
  | none =>
    obtain ⟨hpage, hs⟩ := retrieve_listed h (getPageSize env) 0 [key]
    have hs' : Listed P { (retrieve s (getPageSize env) 0 [key]).2 with
        currentResult := (retrieve s (getPageSize env) 0 [key]).1, searchKeys := [key] } :=
          ⟨hs.1, hpage⟩
    unfold searchThenProxy
    dsimp only
    split
    · rename_i item hone
      refine ⟨hs', ?_⟩
      rintro _ ⟨⟩
      exact hpage item (by rw [hone]; exact List.mem_singleton_self item)
    · split_ifs
      · split
        · rename_i item hunique
          refine ⟨hs', ?_⟩
          rintro _ ⟨⟩
          have hnamed := getUniqueAssetFromKey_eq_some.mp hunique
          exact hpage item (List.mem_filter.mp (hnamed ▸ List.mem_singleton_self item)).1
        · exact displayCurrentResult_listed env hs'
      · exact displayCurrentResult_listed env hs'

theorem moveNextPage_listed (env : TermEnv) {s : SelectHandler} (h : Listed P s) :
    KeepsListed P (moveNextPage env s) := by
  unfold moveNextPage
  split_ifs
  · exact retrieveAndDisplay_listed env h _ _
  · exact displayCurrentResult_listed env h

theorem movePrePage_listed (env : TermEnv) {s : SelectHandler} (h : Listed P s) :
    KeepsListed P (movePrePage env s) := by
  unfold movePrePage
  split_ifs
  · exact retrieveAndDisplay_listed env h _ _
  · exact displayCurrentResult_listed env h

theorem search_listed (env : TermEnv) {s : SelectHandler} (h : Listed P s) (key : GoString) :
    KeepsListed P (search env s key) :=
  retrieveAndDisplay_listed env (s := { s with searchKeys := [key] }) h 0 [key]

theorem listCommand_listed (env : TermEnv) (initialed : Bool) {s : SelectHandler} (h : Listed P s)
    (cmd : Command) : KeepsListed P (listCommand env initialed s cmd) := by
  cases cmd with
  | default =>
    show KeepsListed P
        (if initialed then moveNextPage env s else search env (setSelectType s .asset) [])
    split_ifs
    · exact moveNextPage_listed env h
    · exact search_listed env (setSelectType_listed h .asset) []
  | list => exact search_listed env (setSelectType_listed h .asset) []
  | prePage => exact movePrePage_listed env h
  | nextPage => exact moveNextPage_listed env h
  | search key => exact search_listed env h key
  | searchAgain key =>
    exact retrieveAndDisplay_listed env (s := { s with searchKeys := s.searchKeys ++ [key] }) h 0 _
  | node n => exact search_listed env (s := setNode s n) (setSelectType_listed h .nodeAsset) []
  | searchOrProxy key => exact searchOrProxy_listed env h key
  | nodeTree | help | refresh | quit => exact ⟨h, nofun⟩

/-- A round of the loop knows the assets it knew before, or those of the database that it has
    refreshed its list from. -/
theorem dispatch_listed (env : DispatchEnv) {st : Interactive} (line : GoString)
    (h : Listed P st.select)
    (hdb : ∀ items nodes, env.db.getAllUserPermsAssets st.user.nodeIDs = .ok (items, nodes) →
      ∀ item ∈ items, P item) :
    Listed P (dispatch env st line).1.select ∧ (dispatch env st line).1.user = st.user ∧
      ∀ item, (dispatch env st line).2 = .proxied item → P item := by
  obtain ⟨hlist, hproxied⟩ := listCommand_listed (st.termEnv env) st.initialed h
    (parseLine env.cs st.nodes (trimSpace line))
  unfold dispatch
  dsimp only
  split
  · exact ⟨hlist, rfl, hproxied⟩
  · exact ⟨hlist, rfl, hproxied⟩
  · unfold Interactive.refresh
    cases hall : env.db.getAllUserPermsAssets st.user.nodeIDs with
    | error err =>
      dsimp only [Interactive.after]
      rw [hall]
      cases env.db.getTerminalConfig <;> exact ⟨hlist, rfl, hproxied⟩
    | ok r =>
      dsimp only [Interactive.after]
      rw [hall]
      cases env.db.getTerminalConfig <;> exact ⟨⟨hdb r.1 r.2 hall, hlist.2⟩, rfl, hproxied⟩
  · exact ⟨hlist, rfl, hproxied⟩
  · exact ⟨hlist, rfl, hproxied⟩

end Listed

end GoJump.Handler
