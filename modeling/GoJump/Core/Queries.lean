import GoJump.Lib.Fallible
import GoJump.Lib.Table
import GoJump.Model.Records

/-!
# The queries of `pkg/core`

The tables are lists of rows in the order in which the database iterates over
them. A query may fail; otherwise `QueryOneField` and `QueryStruct`
(`pkg/core/genji.go` lines 52–63, 78–89) scan every matching row into the same
destination, so the last one stays and the initial value stays when there is
none, and `QueryStructs` (lines 96–135) returns all matching rows.

`queryDirectLoginInfo_eq_ok` says what a direct login has found when it succeeds.
-/

namespace GoJump.Core

open GoJump.Go GoJump.Lib GoJump.Model

/-- The queries of this model, each with its arguments. -/
inductive Query
  | assetById (id : GoString)
  | assetByName (name : GoString)
  | nodes (ids : List GoString)
  | assets (ids : List GoString)
  | sysUserIds (userId assetId : GoString)
  | systemUsers (ids : List GoString)
  | expireAt (userId assetId : GoString)
  | enableVscode (userId assetId : GoString)
  | terminalConf
  deriving DecidableEq

/-- The tables, and the queries that fail with their error text. -/
structure DB where
  asset : List Asset
  node : List Node
  systemUser : List SystemUser
  assetUserInfo : List AssetUserInfo
  terminalConf : List TerminalConfig
  fails : Query → Option GoString
  /-- the length of a slice is an `int` -/
  systemUser_length : systemUser.length ≤ maxInt := by decide

/-- An item of the asset list, `map[string]interface{}` in the source. -/
structure AssetItem where
  id : GoString
  hostname : GoString
  ip : GoString
  platform : GoString
  comment : GoString
  deriving DecidableEq

/-- The item of an asset (`pkg/core/asset.go` lines 43–50). -/
def AssetItem.ofAsset (a : Asset) : AssetItem := ⟨a.id, a.hostname, a.ip, a.platform, a.comment⟩

/-- The two names of a direct login, `directLogin["asset"]` and
    `directLogin["sysuser"]`. -/
structure DirectLogin where
  asset : GoString
  sysuser : GoString
  deriving DecidableEq

namespace DB

/-- The rows that match, or the error of the query. -/
def query {α : Type} (db : DB) (q : Query) (rows : List α) (cond : α → Bool) :
    Except GoString (List α) :=
  match db.fails q with
  | some err => .error err
  | none => .ok (rows.filter cond)

theorem query_eq_ok {α : Type} {db : DB} {q : Query} {rows res : List α} {cond : α → Bool} :
    db.query q rows cond = .ok res ↔ db.fails q = none ∧ res = rows.filter cond := by
  unfold query
  cases db.fails q with
  | none => simp [eq_comm]
  | some err => simp

/-- `GetAssetById` (`pkg/core/asset.go` lines 13–17); `default` is the zero value
    `model.Asset{}`. -/
def getAssetById (db : DB) (id : GoString) : Except GoString Asset :=
  (db.query (.assetById id) db.asset fun a => a.id = id).map fun rows => rows.getLastD default

/-- `GetAssetByName` (lines 19–23). -/
def getAssetByName (db : DB) (name : GoString) : Except GoString Asset :=
  (db.query (.assetByName name) db.asset fun a => a.name = name).map fun rows =>
    rows.getLastD default

/-- `getNodes` (`pkg/core/node.go` lines 11–22): `WHERE id IN ?`. -/
def getNodes (db : DB) (nodeIDs : List GoString) : Except GoString (List Node) :=
  db.query (.nodes nodeIDs) db.node fun n => n.id ∈ nodeIDs

/-- `getAssets` (`pkg/core/asset.go` lines 56–67). -/
def getAssets (db : DB) (assetIDs : List GoString) : Except GoString (List Asset) :=
  db.query (.assets assetIDs) db.asset fun a => a.id ∈ assetIDs

/-- The rows of `ASSETUSERINFO` for a user and an asset. -/
def isGrant (userId assetId : GoString) (g : AssetUserInfo) : Bool :=
  decide (g.userId = userId ∧ g.assetId = assetId)

/-- The row of `ASSETUSERINFO` that the one-field queries leave behind. -/
def grant (db : DB) (userId assetId : GoString) : Option AssetUserInfo :=
  (db.assetUserInfo.filter (isGrant userId assetId)).getLast?

/-- `getSystemUsers` (`pkg/core/systemUser.go` lines 20–31). -/
def getSystemUsers (db : DB) (ids : List GoString) : Except GoString (List SystemUser) :=
  db.query (.systemUsers ids) db.systemUser fun s => s.id ∈ ids

/-- `GetSystemUsersByUserIdAndAssetId` (lines 10–18). -/
def getSystemUsersByUserIdAndAssetId (db : DB) (userId assetId : GoString) :
    Except GoString (List SystemUser) := do
  let rows ← db.query (.sysUserIds userId assetId) db.assetUserInfo (isGrant userId assetId)
  db.getSystemUsers ((rows.getLast?.map (·.sysUserId)).getD [])

/-- `QueryAssetUserExpire` (`pkg/core/utils.go` lines 24–35). -/
def queryAssetUserExpire (db : DB) (userId assetId : GoString) : Except GoString ExpireInfo := do
  let rows ← db.query (.expireAt userId assetId) db.assetUserInfo (isGrant userId assetId)
  return ⟨(rows.getLast?.map (·.expireAt)).getD 0⟩

/-- `QueryAssetUserVscodePerm` (lines 37–45). -/
def queryAssetUserVscodePerm (db : DB) (userId assetId : GoString) : Except GoString Bool := do
  let rows ← db.query (.enableVscode userId assetId) db.assetUserInfo (isGrant userId assetId)
  return (rows.getLast?.map (·.enableVscode)).getD false

/-- `GetTerminalConfig` (lines 47–54). -/
def getTerminalConfig (db : DB) : Except GoString TerminalConfig :=
  (db.query .terminalConf db.terminalConf fun _ => true).map fun rows => rows.getLastD default

/-- `GetAllUserPermsAssets` (`pkg/core/asset.go` lines 25–54). -/
def getAllUserPermsAssets (db : DB) (nodeIDs : List GoString) :
    Except GoString (List AssetItem × List Node) := do
  let nas ← db.getNodes nodeIDs
  let ats ← db.getAssets (nas.flatMap (·.assetIDs))
  return (ats.map AssetItem.ofAsset, nas)

/-- `QueryDirectLoginInfo` (`pkg/core/utils.go` lines 67–92). The loop over the
    system users keeps the last one with the name. -/
def queryDirectLoginInfo (db : DB) (userId : GoString) (login : DirectLogin) :
    Except GoString (Asset × SystemUser) := do
  let asset ← db.getAssetByName login.asset
  if asset.id = [] then
    throw (str "asset " ++ login.asset ++ str " not found")
  let sysUsers ← db.getSystemUsersByUserIdAndAssetId userId asset.id
  let sysUser := (sysUsers.filter fun v => v.username = login.sysuser).getLastD default
  if sysUser.id = [] then
    throw (str "system user " ++ login.sysuser ++ str " not found")
  return (asset, sysUser)

theorem getAssetById_eq_ok {db : DB} {id : GoString} {a : Asset} :
    db.getAssetById id = .ok a ↔ db.fails (.assetById id) = none ∧
      (db.asset.filter fun a => a.id = id).getLastD default = a := by
  unfold getAssetById
  rw [ok_map_iff]
  simp only [query_eq_ok, and_assoc, exists_and_left, exists_eq_left]

theorem getAssetByName_eq_ok {db : DB} {name : GoString} {a : Asset} :
    db.getAssetByName name = .ok a ↔ db.fails (.assetByName name) = none ∧
      (db.asset.filter fun a => a.name = name).getLastD default = a := by
  unfold getAssetByName
  rw [ok_map_iff]
  simp only [query_eq_ok, and_assoc, exists_and_left, exists_eq_left]

theorem queryAssetUserExpire_eq_ok {db : DB} {userId assetId : GoString} {e : ExpireInfo} :
    db.queryAssetUserExpire userId assetId = .ok e ↔ db.fails (.expireAt userId assetId) = none ∧
      ⟨((db.grant userId assetId).map (·.expireAt)).getD 0⟩ = e := by
  unfold queryAssetUserExpire grant
  rw [ok_bind_iff]
  simp only [query_eq_ok, ok_pure_iff, and_assoc, exists_and_left, exists_eq_left]

theorem queryAssetUserVscodePerm_eq_ok {db : DB} {userId assetId : GoString} {b : Bool} :
    db.queryAssetUserVscodePerm userId assetId = .ok b ↔
      db.fails (.enableVscode userId assetId) = none ∧
        ((db.grant userId assetId).map (·.enableVscode)).getD false = b := by
  unfold queryAssetUserVscodePerm grant
  rw [ok_bind_iff]
  simp only [query_eq_ok, ok_pure_iff, and_assoc, exists_and_left, exists_eq_left]

theorem getSystemUsersByUserIdAndAssetId_eq_ok {db : DB} {userId assetId : GoString}
    {sysUsers : List SystemUser} :
    db.getSystemUsersByUserIdAndAssetId userId assetId = .ok sysUsers ↔
      db.fails (.sysUserIds userId assetId) = none ∧
        db.getSystemUsers (((db.grant userId assetId).map (·.sysUserId)).getD []) =
          .ok sysUsers := by
  unfold getSystemUsersByUserIdAndAssetId grant
  rw [ok_bind_iff]
  simp only [query_eq_ok, and_assoc, exists_and_left, exists_eq_left]

theorem grant_eq_some {db : DB} {userId assetId : GoString} {g : AssetUserInfo} :
    db.grant userId assetId = some g ↔
      IsLast (fun h => h.userId = userId ∧ h.assetId = assetId) db.assetUserInfo g :=
  getLast?_filter_eq_some

/-- The destination of a scan is one of the rows, or has kept its initial value. -/
theorem getLastD_mem_or_eq {α : Type} (l : List α) (d : α) :
    l.getLastD d ∈ l ∨ l.getLastD d = d := by
  rw [List.getLastD_eq_getLast?]
  cases h : l.getLast? with
  | none => exact Or.inr rfl
  | some a => exact Or.inl (List.mem_of_getLast? h)

/-- A direct login that succeeds has found an asset with an id, and among the
    system users granted to the user on it one with the name. -/
theorem queryDirectLoginInfo_eq_ok {db : DB} {userId : GoString} {login : DirectLogin}
    {asset : Asset} {sysUser : SystemUser} :
    db.queryDirectLoginInfo userId login = .ok (asset, sysUser) ↔
      db.getAssetByName login.asset = .ok asset ∧ asset.id ≠ [] ∧
      ∃ sysUsers, db.getSystemUsersByUserIdAndAssetId userId asset.id = .ok sysUsers ∧
        sysUser = (sysUsers.filter fun v => v.username = login.sysuser).getLastD default ∧
        sysUser.id ≠ [] := by
  unfold queryDirectLoginInfo
  simp only [ok_bind_iff, ok_throw_if_iff, ok_pure_iff, Prod.mk.injEq]
  constructor
  · rintro ⟨a, ha, hid, us, hus, hsid, rfl, rfl⟩
    exact ⟨ha, hid, us, hus, rfl, hsid⟩
  · rintro ⟨ha, hid, us, hus, rfl, hsid⟩
    exact ⟨asset, ha, hid, us, hus, hsid, rfl, rfl⟩

end DB

end GoJump.Core
