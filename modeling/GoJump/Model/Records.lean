import GoJump.Go.Strings

/-!
# Records of `pkg/model`

The rows of the tables, the two predicates on them that decide whether a login
may connect, `Asset.IsSupportProtocol` and `ExpireInfo.IsExpired`, and the port it
connects to, `Asset.ProtocolPort`. Field names follow the source.

`portAgrees_iff`: when a protocol that is supported has a port, and that of an entry
with its name.
-/

namespace GoJump.Model

open GoJump.Go

/-- `model.Asset` (`pkg/model/asset.go` lines 14–24). The field `Os` is only
    listed. -/
structure Asset where
  id : GoString
  name : GoString
  hostname : GoString
  ip : GoString
  comment : GoString
  protocols : List GoString
  platform : GoString
  isActive : Bool
  deriving DecidableEq, Inhabited

/-- `model.AssetUserInfo` (lines 26–34): what a user is granted on an asset. -/
structure AssetUserInfo where
  userId : GoString
  assetId : GoString
  expireAt : ℤ
  sysUserId : List GoString
  enableVscode : Bool
  needConfirm : Bool
  deriving DecidableEq, Inhabited

/-- `model.Node` (`pkg/model/node.go` lines 11–16). -/
structure Node where
  id : GoString
  key : GoString
  name : GoString
  assetIDs : List GoString
  deriving DecidableEq, Inhabited

/-- `model.SystemUser` (`pkg/model/systemUser.go` lines 9–17). -/
structure SystemUser where
  id : GoString
  username : GoString
  protocol : GoString
  password : GoString
  privateKey : GoString
  deriving DecidableEq, Inhabited

/-- The fields of `model.User` (`pkg/model/user.go` lines 6–15) that a login on an
    asset reads. -/
structure User where
  id : GoString
  username : GoString
  nodeIDs : List GoString
  deriving DecidableEq, Inhabited

/-- `model.ExpireInfo` (`pkg/model/expire.go` lines 7–9). -/
structure ExpireInfo where
  expireAt : ℤ
  deriving DecidableEq, Inhabited

/-- `IsExpired(now)` (lines 11–16), with `now` in seconds as `now.Unix()`. -/
def ExpireInfo.isExpired (e : ExpireInfo) (now : ℤ) : Bool :=
  if e.expireAt = 0 then false else decide (e.expireAt < now)

theorem ExpireInfo.isExpired_eq_false {e : ExpireInfo} {now : ℤ} :
    e.isExpired now = false ↔ e.expireAt = 0 ∨ now ≤ e.expireAt := by
  unfold isExpired
  split_ifs with h
  · simp [h]
  · simp [h]

/-- `ProtocolSSH`. -/
def protocolSSH : GoString := str "ssh"

/-- `IsSupportProtocol(protocol)` (`pkg/model/asset.go` lines 54–61). -/
def Asset.isSupportProtocol (cs : Casing) (a : Asset) (protocol : GoString) : Bool :=
  a.protocols.any fun item => contains (cs.toLower item) (cs.toLower protocol)

/-! ## The port of a protocol -/

/-- The number of an entry that reads `name/number`; 47 is the slash. -/
def portOf (item : GoString) : Option ℤ :=
  match split item 47 with
  | [_, port] => atoi port
  | _ => none

/-- The body of the loop of `ProtocolPort` (lines 42–49): what it returns for an entry. -/
def entryPort (cs : Casing) (protocol item : GoString) : Option ℤ :=
  if contains (cs.toLower item) (cs.toLower protocol) then portOf item else none

/-- `ProtocolPort(protocol)` (lines 40–52). -/
def Asset.protocolPort (cs : Casing) (a : Asset) (protocol : GoString) : ℤ :=
  (a.protocols.findSome? (entryPort cs protocol)).getD 0

/-- The entry reads `name/port`, and the name is that of the protocol but for case. -/
def NamesPort (cs : Casing) (protocol : GoString) (port : ℤ) (item : GoString) : Prop :=
  ∃ name number, split item 47 = [name, number] ∧ cs.toLower name = cs.toLower protocol ∧
    atoi number = some port

/-- The entry reads `name/port` with whatever name, and the protocol occurs in it. -/
def GivesPort (cs : Casing) (protocol : GoString) (port : ℤ) (item : GoString) : Prop :=
  contains (cs.toLower item) (cs.toLower protocol) = true ∧
    ∃ name number, split item 47 = [name, number] ∧ atoi number = some port

/-- What is dialled is the port of the protocol: one of TCP, and of an entry that names it. -/
def Asset.PortAgrees (cs : Casing) (a : Asset) (protocol : GoString) : Prop :=
  1 ≤ a.protocolPort cs protocol ∧ a.protocolPort cs protocol ≤ 65535 ∧
    ∃ item ∈ a.protocols, NamesPort cs protocol (a.protocolPort cs protocol) item

section Port

variable {cs : Casing} {a : Asset} {protocol item : GoString} {port : ℤ}

theorem isSupportProtocol_iff : a.isSupportProtocol cs protocol = true ↔
    ∃ item ∈ a.protocols, contains (cs.toLower item) (cs.toLower protocol) = true :=
  List.any_eq_true

theorem portOf_eq_some : portOf item = some port ↔
    ∃ name number, split item 47 = [name, number] ∧ atoi number = some port := by
  unfold portOf
  split
  · rename_i name number hsplit
    simp [hsplit]
  · rename_i hno
    refine ⟨nofun, ?_⟩
    rintro ⟨name, number, hsplit, -⟩
    exact absurd hsplit (hno name number)

theorem entryPort_eq_some : entryPort cs protocol item = some port ↔
    GivesPort cs protocol port item := by
  unfold entryPort GivesPort
  rw [← portOf_eq_some]
  split_ifs with hc
  · simp [hc]
  · simp [hc]

/-- The name of an entry occurs in it: the slash does not interfere with the case mapping. -/
theorem NamesPort.givesPort (h : NamesPort cs protocol port item) :
    GivesPort cs protocol port item := by
  obtain ⟨name, number, hsplit, hname, hnumber⟩ := h
  refine ⟨?_, name, number, hsplit, hnumber⟩
  rw [eq_of_split_pair hsplit, cs.toLower_append name 47 number (by decide), ← hname, contains_iff]
  exact (List.prefix_append _ _).isInfix

theorem protocolPort_of_findSome? (h : a.protocols.findSome? (entryPort cs protocol) = some port) :
    a.protocolPort cs protocol = port := by
  rw [Asset.protocolPort, h, Option.getD_some]

/-- The port of the protocol if `item` names it and no entry before gives another port first. -/
theorem protocolPort_eq {before after : List GoString}
    (hsplit : a.protocols = before ++ item :: after) (hitem : NamesPort cs protocol port item)
    (hbefore : ∀ pre e post other, before = pre ++ e :: post → GivesPort cs protocol other e →
      other = port ∨ ∃ d ∈ pre, GivesPort cs protocol port d) :
    a.protocolPort cs protocol = port := by
  apply protocolPort_of_findSome?
  rw [hsplit, List.findSome?_append]
  cases hfind : before.findSome? (entryPort cs protocol) with
  | none =>
    rw [Option.none_or, List.findSome?_cons, entryPort_eq_some.mpr hitem.givesPort]
  | some other =>
    obtain ⟨pre, e, post, rfl, he, hpre⟩ := List.findSome?_eq_some_iff.mp hfind
    rcases hbefore pre e post other rfl (entryPort_eq_some.mp he) with rfl | ⟨d, hd, hgives⟩
    · rfl
    · rw [← entryPort_eq_some, hpre d hd] at hgives
      cases hgives

/-- An entry that gives another port than the one found comes after one that gives it. -/
theorem givesPort_before {pre post : List GoString} {other : ℤ}
    (hsplit : a.protocols = pre ++ item :: post) (hitem : GivesPort cs protocol other item) :
    other = a.protocolPort cs protocol ∨
      ∃ d ∈ pre, GivesPort cs protocol (a.protocolPort cs protocol) d := by
  cases hfind : pre.findSome? (entryPort cs protocol) with
  | none =>
    left
    symm
    apply protocolPort_of_findSome?
    rw [hsplit, List.findSome?_append, hfind, Option.none_or, List.findSome?_cons,
      entryPort_eq_some.mpr hitem]
  | some first =>
    right
    have hport : a.protocolPort cs protocol = first := by
      apply protocolPort_of_findSome?
      rw [hsplit, List.findSome?_append, hfind, Option.some_or]
    obtain ⟨d, hd, hfirst⟩ := List.exists_of_findSome?_eq_some hfind
    exact ⟨d, hd, hport ▸ entryPort_eq_some.mp hfirst⟩

/-- For every list of protocols and every name: when the protocol is supported, its port is
    one of TCP and of an entry that names it, exactly if no entry contains the name at all, or
    one names the protocol with a port of TCP and every entry before it that gives another
    port comes after one that gives the same. -/
theorem portAgrees_iff (cs : Casing) (a : Asset) (protocol : GoString) :
    (a.isSupportProtocol cs protocol = true → a.PortAgrees cs protocol) ↔
      (∀ item ∈ a.protocols, contains (cs.toLower item) (cs.toLower protocol) = false) ∨
      ∃ before item after port, a.protocols = before ++ item :: after ∧
        NamesPort cs protocol port item ∧ 1 ≤ port ∧ port ≤ 65535 ∧
        ∀ pre e post other, before = pre ++ e :: post → GivesPort cs protocol other e →
          other = port ∨ ∃ d ∈ pre, GivesPort cs protocol port d := by
  constructor
  · intro h
    by_cases hsup : a.isSupportProtocol cs protocol = true
    · obtain ⟨hpos, hmax, item, hitem, hnames⟩ := h hsup
      obtain ⟨before, after, hsplit⟩ := List.append_of_mem hitem
      refine Or.inr ⟨before, item, after, _, hsplit, hnames, hpos, hmax, ?_⟩
      rintro pre e post other rfl hgives
      rw [List.append_assoc, List.cons_append] at hsplit
      exact givesPort_before hsplit hgives
    · refine Or.inl fun item hitem => ?_
      by_contra hc
      exact hsup (isSupportProtocol_iff.mpr ⟨item, hitem, by simpa using hc⟩)
  · rintro (hnone | ⟨before, item, after, port, hsplit, hnames, hpos, hmax, hbefore⟩)
    · intro hsup
      obtain ⟨item, hmem, hc⟩ := isSupportProtocol_iff.mp hsup
      rw [hnone item hmem] at hc
      cases hc
    · intro _
      unfold Asset.PortAgrees
      rw [protocolPort_eq hsplit hnames hbefore]
      exact ⟨hpos, hmax, item, hsplit ▸ List.mem_append_right _ List.mem_cons_self, hnames⟩

end Port

/-- An asset that lists another protocol with `ssh` in its name before `ssh`, -/
def otherFirst : Asset := { (default : Asset) with protocols := [str "xssh/2022", str "ssh/22"] }

/-- and one that lists `ssh` without a port. -/
def withoutPort : Asset := { (default : Asset) with protocols := [str "ssh"] }

/-- Both support `ssh`; the port is that of the other protocol, and 0. -/
theorem port_of_other_entry :
    (otherFirst.isSupportProtocol asciiCasing protocolSSH = true ∧
      otherFirst.protocolPort asciiCasing protocolSSH = 2022 ∧
      ¬ otherFirst.PortAgrees asciiCasing protocolSSH) ∧
    withoutPort.isSupportProtocol asciiCasing protocolSSH = true ∧
      withoutPort.protocolPort asciiCasing protocolSSH = 0 ∧
      ¬ withoutPort.PortAgrees asciiCasing protocolSSH := by
  have hother : otherFirst.protocolPort asciiCasing protocolSSH = 2022 := by decide
  refine ⟨⟨by decide, hother, ?_⟩, by decide, by decide, fun h => absurd h.1 (by decide)⟩
  rintro ⟨-, -, item, hitem, name, number, hsplit, hname, hnumber⟩
  rw [hother] at hnumber
  rcases List.mem_pair.mp hitem with rfl | rfl
  · obtain ⟨rfl, -⟩ : str "xssh" = name ∧ _ := List.cons.inj hsplit
    exact absurd hname (by decide)
  · obtain ⟨-, hrest⟩ : str "ssh" = name ∧ [str "22"] = [number] := List.cons.inj hsplit
    obtain rfl := List.singleton_inj.mp hrest
    exact absurd hnumber (by decide)

/-- The fields of `model.TerminalConfig` (`pkg/model/terminal.go`) that the asset
    list reads. -/
structure TerminalConfig where
  assetListPageSize : GoString
  assetListSortByIp : Bool
  deriving DecidableEq, Inhabited

end GoJump.Model
