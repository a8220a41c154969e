import GoJump.Core.Queries

/-!
# Direct and interactive login

Two paths lead to `proxy.NewServer` for a terminal. `NewDirectHandler`
(`pkg/handler/directHandler.go` lines 23–47) resolves the names of a direct-login
string with `QueryDirectLoginInfo`. The interactive path offers the assets of
`GetAllUserPermsAssets`, and for the chosen one runs `UserSelectHandler.Proxy`
(`pkg/handler/selectHandler.go` lines 184–205), `proxyAsset` (`pkg/handler/asset.go`
lines 124–148) and `chooseSystemUser` (`pkg/handler/interactive.go` lines 141–207).

* `direct_inactive_asset`: a direct login to an inactive asset outside the user's
  nodes, which the interactive path refuses.
* `direct_within_interactive_iff`: what the rows must satisfy for the interactive
  path to hand over whatever the direct path does.
-/

namespace GoJump.Handler

open GoJump.Go GoJump.Lib GoJump.Model GoJump.Core

/-! ## The interactive path -/

/-- The words that leave `chooseSystemUser`. -/
def backWords : List GoString := [str "q", str "b", str "quit", str "exit", str "back"]

/-- `if num, err := strconv.Atoi(line); err == nil && num > 0 && num <= len(items)`
    and then `items[num-1]`. -/
def pickIndex {α : Type} (items : List α) (line : GoString) : Option α :=
  match atoi line with
  | some num => if 0 < num ∧ num ≤ items.length then items[(num - 1).toNat]? else none
  | none => none

/-- The loop of `chooseSystemUser` (lines 186–206) over the lines typed. -/
def chooseLoop (cs : Casing) (systemUsers : List SystemUser) : List GoString → Option SystemUser
  | [] => none
  | line :: rest =>
    let line := trimSpace line
    if cs.toLower line ∈ backWords then none
    else
      match pickIndex systemUsers line with
      | some systemUser => some systemUser
      | none => chooseLoop cs systemUsers rest

/-- `chooseSystemUser` (lines 141–207). -/
def chooseSystemUser (cs : Casing) (systemUsers : List SystemUser) (lines : List GoString) :
    Option SystemUser :=
  match systemUsers with
  | [] => none
  | [systemUser] => some systemUser
  | _ => chooseLoop cs systemUsers lines

/-- `proxyAsset`: the pair handed to `proxy.NewServer`. -/
def proxyAsset (cs : Casing) (db : DB) (user : User) (asset : Asset) (lines : List GoString) :
    Option (Asset × SystemUser) :=
  match db.getSystemUsersByUserIdAndAssetId user.id asset.id with
  | .error _ => none
  | .ok systemUsers => (chooseSystemUser cs systemUsers lines).map fun s => (asset, s)

/-- `UserSelectHandler.Proxy` for an asset: the pair handed to `proxy.NewServer`. -/
def proxyTarget (cs : Casing) (db : DB) (user : User) (targetId : GoString)
    (lines : List GoString) : Option (Asset × SystemUser) :=
  match db.getAssetById targetId with
  | .error _ => none
  | .ok asset =>
    if asset.id = [] then none
    else if !asset.isActive then none
    else proxyAsset cs db user asset lines

/-- Some asset of the user's list and some lines typed lead to the pair. -/
def InteractiveHands (cs : Casing) (db : DB) (user : User) (asset : Asset)
    (sysUser : SystemUser) : Prop :=
  ∃ items nodes, db.getAllUserPermsAssets user.nodeIDs = .ok (items, nodes) ∧
    ∃ item ∈ items, ∃ lines, proxyTarget cs db user item.id lines = some (asset, sysUser)

/-! ## The direct path -/

/-- `NewDirectHandler`: the pair that `DirectHandler.Proxy` hands to
    `proxy.NewServer`. -/
def newDirectHandler (db : DB) (user : User) (login : DirectLogin) :
    Except GoString (Asset × SystemUser) :=
  db.queryDirectLoginInfo user.id login

/-- Whatever the direct path hands over, the interactive path would. -/
def DirectWithinInteractive (cs : Casing) (db : DB) (user : User) (login : DirectLogin) : Prop :=
  ∀ asset sysUser, newDirectHandler db user login = .ok (asset, sysUser) →
    InteractiveHands cs db user asset sysUser

/-! ## Choosing a system user -/

theorem pickIndex_of_atoi {α : Type} {items : List α} {line : GoString} {i : ℕ} {a : α}
    (hline : atoi line = some ((i + 1 : ℕ) : ℤ)) (h : items[i]? = some a) :
    pickIndex items line = some a := by
  have hi : i < items.length := (List.getElem?_eq_some_iff.mp h).1
  unfold pickIndex
  rw [hline]
  dsimp only
  rw [if_pos (by constructor <;> omega)]
  have : ((i + 1 : ℕ) - 1 : ℤ).toNat = i := by omega
  rw [this]
  exact h

theorem pickIndex_itoa {α : Type} {items : List α} {i : ℕ} {a : α} (h : items[i]? = some a)
    (hlen : items.length ≤ maxInt) : pickIndex items (itoa (i + 1)) = some a := by
  have hi : i < items.length := (List.getElem?_eq_some_iff.mp h).1
  exact pickIndex_of_atoi (atoi_itoa (by omega)) h

theorem itoa_not_backWord (cs : Casing) (n : ℕ) : cs.toLower (itoa n) ∉ backWords := by
  have hletter : ∀ word ∈ backWords, ∃ b ∈ word, 57 < b := by decide
  rw [cs.toLower_itoa]
  intro h
  obtain ⟨b, hb, hlt⟩ := hletter _ h
  exact absurd (mem_itoa hb).2 (UInt8.not_le.mpr hlt)

/-- Every granted system user can be chosen. -/
theorem exists_lines_choose (cs : Casing) {systemUsers : List SystemUser} {s : SystemUser}
    (hs : s ∈ systemUsers) (hlen : systemUsers.length ≤ maxInt) :
    ∃ lines, chooseSystemUser cs systemUsers lines = some s := by
  obtain ⟨i, hi⟩ := List.mem_iff_getElem?.mp hs
  match systemUsers, hs, hlen, hi with
  | [u], hs, _, _ => exact ⟨[], congrArg some (List.mem_singleton.mp hs).symm⟩
  | u :: v :: rest, _, hlen, hi =>
    refine ⟨[itoa (i + 1)], ?_⟩
    show chooseLoop cs (u :: v :: rest) [itoa (i + 1)] = some s
    unfold chooseLoop
    dsimp only
    rw [trimSpace_itoa, if_neg (itoa_not_backWord cs _), pickIndex_itoa hi hlen]

/-! ## What the interactive path requires -/

theorem proxyTarget_eq_some {cs : Casing} {db : DB} {user : User} {targetId : GoString}
    {lines : List GoString} {asset : Asset} {sysUser : SystemUser} :
    proxyTarget cs db user targetId lines = some (asset, sysUser) ↔
      db.getAssetById targetId = .ok asset ∧ asset.id ≠ [] ∧ asset.isActive = true ∧
      ∃ systemUsers, db.getSystemUsersByUserIdAndAssetId user.id asset.id = .ok systemUsers ∧
        chooseSystemUser cs systemUsers lines = some sysUser := by
  unfold proxyTarget
  cases hget : db.getAssetById targetId with
  | error err => simp
  | ok a =>
    simp only [proxyAsset, Except.ok.injEq]
    constructor
    · intro h
      split_ifs at h with hid hact
      cases hsys : db.getSystemUsersByUserIdAndAssetId user.id a.id with
      | error err => simp [hsys] at h
      | ok us =>
        simp only [hsys, Option.map_eq_some_iff, Prod.mk.injEq] at h
        obtain ⟨s, hs, rfl, rfl⟩ := h
        exact ⟨rfl, hid, by simpa using hact, us, hsys, hs⟩
    · rintro ⟨rfl, hid, hact, us, hsys, hs⟩
      simp [hid, hact, hsys, hs]

/-- The asset is listed in one of the user's nodes. -/
def InUserNode (db : DB) (user : User) (assetId : GoString) : Prop :=
  ∃ n ∈ db.node, n.id ∈ user.nodeIDs ∧ assetId ∈ n.assetIDs

/-- The ids asked for by `GetAllUserPermsAssets`. -/
def permittedIds (db : DB) (nodeIDs : List GoString) : List GoString :=
  (db.node.filter fun n => n.id ∈ nodeIDs).flatMap (·.assetIDs)

theorem mem_permittedIds {db : DB} {user : User} {assetId : GoString} :
    assetId ∈ permittedIds db user.nodeIDs ↔ InUserNode db user assetId := by
  simp [permittedIds, InUserNode, and_assoc]

theorem getAllUserPermsAssets_eq_ok {db : DB} {nodeIDs : List GoString}
    {res : List AssetItem × List Node} :
    db.getAllUserPermsAssets nodeIDs = .ok res ↔
      db.fails (.nodes nodeIDs) = none ∧ db.fails (.assets (permittedIds db nodeIDs)) = none ∧
      ((db.asset.filter fun a => a.id ∈ permittedIds db nodeIDs).map AssetItem.ofAsset,
        db.node.filter fun n => n.id ∈ nodeIDs) = res := by
  unfold DB.getAllUserPermsAssets DB.getNodes DB.getAssets permittedIds
  simp only [ok_bind_iff, DB.query_eq_ok, ok_pure_iff, and_assoc, exists_and_left, exists_eq_left]

theorem default_ne_of_id {a : Asset} (hid : a.id ≠ []) : (default : Asset) ≠ a := by
  rintro rfl
  exact hid rfl

theorem getAssetById_iff {db : DB} {id : GoString} {a : Asset} (hid : a.id ≠ []) :
    db.getAssetById id = .ok a ↔
      db.fails (.assetById id) = none ∧ IsLast (fun b => b.id = id) db.asset a := by
  rw [DB.getAssetById_eq_ok, getLastD_filter_eq (default_ne_of_id hid)]

theorem getAssetByName_iff {db : DB} {name : GoString} {a : Asset} (hid : a.id ≠ []) :
    db.getAssetByName name = .ok a ↔
      db.fails (.assetByName name) = none ∧ IsLast (fun b => b.name = name) db.asset a := by
  rw [DB.getAssetByName_eq_ok, getLastD_filter_eq (default_ne_of_id hid)]

/-- What the menu needs to lead to the asset row `a`: it is active, its id is listed in a
    node of the user, and no later row has this id; and the queries on the way succeed. -/
structure MenuRows (db : DB) (user : User) (a : Asset) : Prop where
  active : a.isActive = true
  inNode : InUserNode db user a.id
  lastRow : IsLast (fun b => b.id = a.id) db.asset a
  byIdOk : db.fails (.assetById a.id) = none
  nodesOk : db.fails (.nodes user.nodeIDs) = none
  assetsOk : db.fails (.assets (permittedIds db user.nodeIDs)) = none

/-! ## What the direct path requires -/

/-- The rows that a direct login leads to: the last asset with the name, the last grant of
    the user on it, and the last system user with the name that the grant lists; and the
    queries for them succeed. -/
structure DirectRows (db : DB) (user : User) (login : DirectLogin) (a : Asset)
    (g : AssetUserInfo) (s : SystemUser) : Prop where
  asset : IsLast (fun b => b.name = login.asset) db.asset a
  assetId : a.id ≠ []
  grant : IsLast (fun h => h.userId = user.id ∧ h.assetId = a.id) db.assetUserInfo g
  sysUser : IsLast (fun t => t.username = login.sysuser ∧ t.id ∈ g.sysUserId) db.systemUser s
  sysUserId : s.id ≠ []
  byNameOk : db.fails (.assetByName login.asset) = none
  sysUserIdsOk : db.fails (.sysUserIds user.id a.id) = none
  systemUsersOk : db.fails (.systemUsers g.sysUserId) = none

/-- The last of the system users that a query has found. -/
theorem systemUser_scan_iff {db : DB} {ids : List GoString} {name : GoString} {s : SystemUser}
    (hsid : s.id ≠ []) :
    ((db.systemUser.filter fun t => t.id ∈ ids).filter fun t => t.username = name).getLastD
        default = s ↔
      IsLast (fun t => t.username = name ∧ t.id ∈ ids) db.systemUser s := by
  have hne : (default : SystemUser) ≠ s := by
    rintro rfl
    exact hsid rfl
  rw [← getLastD_filter_eq hne, List.filter_filter]
  simp only [Bool.decide_and]

theorem newDirectHandler_eq_ok {db : DB} {user : User} {login : DirectLogin} {a : Asset}
    {s : SystemUser} :
    newDirectHandler db user login = .ok (a, s) ↔ ∃ g, DirectRows db user login a g s := by
  unfold newDirectHandler
  rw [DB.queryDirectLoginInfo_eq_ok]
  constructor
  · rintro ⟨hname, hid, us, hus, hs, hsid⟩
    obtain ⟨hnameOk, hasset⟩ := (getAssetByName_iff hid).mp hname
    obtain ⟨hidsOk, hsys⟩ := DB.getSystemUsersByUserIdAndAssetId_eq_ok.mp hus
    obtain ⟨husersOk, rfl⟩ := DB.query_eq_ok.mp hsys
    have hlast := (systemUser_scan_iff hsid).mp hs.symm
    cases hg : db.grant user.id a.id with
    | none =>
      rw [hg] at hlast
      exact absurd hlast.prop.2 List.not_mem_nil
    | some g =>
      rw [hg] at hlast husersOk
      exact ⟨g, hasset, hid, DB.grant_eq_some.mp hg, hlast, hsid, hnameOk, hidsOk, husersOk⟩
  · rintro ⟨g, h⟩
    refine ⟨(getAssetByName_iff h.assetId).mpr ⟨h.byNameOk, h.asset⟩, h.assetId,
      db.systemUser.filter fun t => t.id ∈ g.sysUserId, ?_,
      ((systemUser_scan_iff h.sysUserId).mpr h.sysUser).symm, h.sysUserId⟩
    rw [DB.getSystemUsersByUserIdAndAssetId_eq_ok, DB.grant_eq_some.mpr h.grant]
    exact ⟨h.sysUserIdsOk, DB.query_eq_ok.mpr ⟨h.systemUsersOk, rfl⟩⟩

/-! ## The two paths -/

/-- The rows of a direct login are reached through the menu exactly if the asset is; the
    system user always is one that can be chosen. -/
theorem interactiveHands_iff {cs : Casing} {db : DB} {user : User} {login : DirectLogin}
    {a : Asset} {g : AssetUserInfo} {s : SystemUser} (h : DirectRows db user login a g s) :
    InteractiveHands cs db user a s ↔ MenuRows db user a := by
  constructor
  · rintro ⟨items, nodes, hall, item, hitem, lines, htarget⟩
    obtain ⟨hnodes, hassets, heq⟩ := getAllUserPermsAssets_eq_ok.mp hall
    obtain ⟨hget, _, hact, _⟩ := proxyTarget_eq_some.mp htarget
    obtain ⟨hok, hlast⟩ := (getAssetById_iff h.assetId).mp hget
    have hitemId : a.id = item.id := hlast.prop
    obtain ⟨rfl, -⟩ := Prod.mk.inj heq
    obtain ⟨b, hb, rfl⟩ := List.mem_map.mp hitem
    have hbid : b.id ∈ permittedIds db user.nodeIDs := by
      simpa using (List.mem_filter.mp hb).2
    rw [← hitemId] at hok hlast
    refine ⟨hact, mem_permittedIds.mp ?_, hlast, hok, hnodes, hassets⟩
    rw [hitemId]
    exact hbid
  · intro hmenu
    have hitem : AssetItem.ofAsset a ∈
        (db.asset.filter fun b => b.id ∈ permittedIds db user.nodeIDs).map AssetItem.ofAsset :=
      List.mem_map.mpr ⟨a, List.mem_filter.mpr
        ⟨hmenu.lastRow.mem, by simpa using mem_permittedIds.mpr hmenu.inNode⟩, rfl⟩
    have hgranted : db.getSystemUsersByUserIdAndAssetId user.id a.id =
        .ok (db.systemUser.filter fun t => t.id ∈ g.sysUserId) := by
      rw [DB.getSystemUsersByUserIdAndAssetId_eq_ok, DB.grant_eq_some.mpr h.grant]
      exact ⟨h.sysUserIdsOk, DB.query_eq_ok.mpr ⟨h.systemUsersOk, rfl⟩⟩
    have hmem : s ∈ db.systemUser.filter fun t => t.id ∈ g.sysUserId :=
      List.mem_filter.mpr ⟨h.sysUser.mem, decide_eq_true h.sysUser.prop.2⟩
    obtain ⟨lines, hlines⟩ := exists_lines_choose cs hmem
      ((List.length_filter_le _ _).trans db.systemUser_length)
    have hbyId := (getAssetById_iff h.assetId).mpr ⟨hmenu.byIdOk, hmenu.lastRow⟩
    exact ⟨_, _, getAllUserPermsAssets_eq_ok.mpr ⟨hmenu.nodesOk, hmenu.assetsOk, rfl⟩, _, hitem,
      lines, proxyTarget_eq_some.mpr ⟨hbyId, h.assetId, hmenu.active, _, hgranted, hlines⟩⟩

/-- For every database, user and direct-login string: the interactive path would hand over
    whatever the direct path does, exactly when of the rows that carry the names of the
    direct login and the grant the asset's is active, listed in a node of the user and the
    last with its id. -/
theorem direct_within_interactive_iff (cs : Casing) (db : DB) (user : User)
    (login : DirectLogin) :
    DirectWithinInteractive cs db user login ↔
      ∀ a g s, DirectRows db user login a g s → MenuRows db user a := by
  unfold DirectWithinInteractive
  constructor
  · intro h a g s hrows
    exact (interactiveHands_iff hrows).mp (h a s (newDirectHandler_eq_ok.mpr ⟨g, hrows⟩))
  · intro h a s hdirect
    obtain ⟨g, hrows⟩ := newDirectHandler_eq_ok.mp hdirect
    exact (interactiveHands_iff hrows).mpr (h a g s hrows)

/-- An inactive asset that is in no node, with a grant for the user. -/
def inactiveDB : DB where
  asset := [{ (default : Asset) with id := str "a", name := str "web" }]
  node := []
  systemUser := [{ (default : SystemUser) with id := str "s", username := str "root" }]
  assetUserInfo := [⟨str "u", str "a", 0, [str "s"], false, false⟩]
  terminalConf := []
  fails := fun _ => none

theorem direct_inactive_asset :
    newDirectHandler inactiveDB ⟨str "u", str "bob", []⟩ ⟨str "web", str "root"⟩ =
      .ok ({ (default : Asset) with id := str "a", name := str "web" },
        { (default : SystemUser) with id := str "s", username := str "root" }) ∧
    ¬ DirectWithinInteractive asciiCasing inactiveDB ⟨str "u", str "bob", []⟩
      ⟨str "web", str "root"⟩ := by
  have hd : newDirectHandler inactiveDB ⟨str "u", str "bob", []⟩ ⟨str "web", str "root"⟩ =
      .ok ({ (default : Asset) with id := str "a", name := str "web" },
        { (default : SystemUser) with id := str "s", username := str "root" }) := rfl
  refine ⟨hd, fun h => ?_⟩
  obtain ⟨items, nodes, hall, item, hitem, _⟩ := h _ _ hd
  cases hall
  simp at hitem

end GoJump.Handler
