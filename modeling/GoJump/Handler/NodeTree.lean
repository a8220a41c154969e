import GoJump.Handler.Dispatch
import GoJump.Handler.Paging
import GoJump.Lib.Forest
import GoJump.Lib.Join

/-!
# The tree of nodes

Model of `ConstructNodeTree`, `constructDisplayTree` and `convertToDisplayTrees`
(`pkg/handler/interactive.go` lines 263–335). A `*displayTree` is the number of a cell of
the heap, in the order of allocation; `nodeTreeMap` is a map from keys to pointers.

* `convert_spec`: what `convertToDisplayTrees` leaves in the heap, for arbitrary keys.
* `keySort_eq_decide`: on keys of the documented form `keySort` compares lists of integers.
* `nodeTree_spec`: every node once, under its parent, with the number that selects it.
-/

namespace GoJump.Handler

open GoJump.Go GoJump.Lib GoJump.Model GoJump.Core

/-! ## Building the trees -/

/-- `displayTree` (lines 313–317). -/
structure DisplayTree where
  key : GoString
  node : Node
  subTrees : List ℕ
  deriving DecidableEq, Inhabited

/-- `AddSubNode` (lines 319–321). -/
def DisplayTree.addSubNode (t : DisplayTree) (sub : ℕ) : DisplayTree :=
  { t with subTrees := t.subTrees ++ [sub] }

/-- The heap and the local variables of `convertToDisplayTrees`. -/
structure DisplayTrees where
  heap : List DisplayTree
  rootNodeTrees : List ℕ
  nodeTreeMap : GoString → Option ℕ

/-- One round of the loop (lines 289–309); 58 is the colon. -/
def convertNode (t : DisplayTrees) (node : Node) : DisplayTrees :=
  let currentTree := t.heap.length
  let heap := t.heap ++ [⟨node.key, node, []⟩]
  let nodeTreeMap := Function.update t.nodeTreeMap node.key (some currentTree)
  match lastIndex node.key 58 with
  | none => ⟨heap, t.rootNodeTrees ++ [currentTree], nodeTreeMap⟩
  | some r =>
    match nodeTreeMap (node.key.take r) with
    | none => ⟨heap, t.rootNodeTrees ++ [currentTree], nodeTreeMap⟩
    | some parentTree =>
      ⟨heap.modify parentTree (·.addSubNode currentTree), t.rootNodeTrees, nodeTreeMap⟩

/-- `convertToDisplayTrees` (lines 286–311). -/
def convertToDisplayTrees (assetNodes : List Node) : DisplayTrees :=
  assetNodes.foldl convertNode ⟨[], [], fun _ => none⟩

/-- The node in a cell. -/
def nodeAt (heap : List DisplayTree) (p : ℕ) : Node := (heap[p]?.map (·.node)).getD default

/-- The pointers in a cell. -/
def subTreesAt (heap : List DisplayTree) (p : ℕ) : List ℕ :=
  (heap[p]?.map (·.subTrees)).getD []

/-- The forest that begins at the roots. No chain of pointers is longer than the heap. -/
def DisplayTrees.forest (t : DisplayTrees) : Forest Node :=
  Forest.unfold (nodeAt t.heap) (subTreesAt t.heap) (t.heap.length + 1) t.rootNodeTrees

/-! ## Rendering -/

/-- `keyIndexMap` (lines 265–268). -/
def keyIndexMap (assetNodes : List Node) : GoString → Option ℕ :=
  assetNodes.zipIdx.foldl (fun m p => Function.update m p.1.key (some p.2)) fun _ => none

/-- `keyMap[key]+1`; a key that is not in the map has the value 0. -/
def shownNumber (keyMap : GoString → Option ℕ) (node : Node) : ℕ := (keyMap node.key).getD 0 + 1

/-- `fmt.Sprintf("%d.%s(%d)", …)` (lines 276–278). -/
def branchLabel (keyMap : GoString → Option ℕ) (node : Node) : GoString :=
  itoa (shownNumber keyMap node) ++ str "." ++ node.name ++ str "(" ++
    itoa node.assetIDs.length ++ str ")"

/-- `Less` of `nodeTrees` (lines 333–335), on pointers. -/
def nodeTreesLess (heap : List DisplayTree) (i j : ℕ) : Bool :=
  decide ((nodeAt heap i).name < (nodeAt heap j).name)

/-- The pointers in a cell as they are rendered: in the order of `sort.Sort`. -/
def sortedSubTrees (sorting : Sorting ℕ) (heap : List DisplayTree) (p : ℕ) : List ℕ :=
  if 0 < (subTreesAt heap p).length then sorting.sort (nodeTreesLess heap) (subTreesAt heap p)
  else subTreesAt heap p

/-- `constructDisplayTree` (lines 274–284): the branches that are added. -/
def constructDisplayTree (sorting : Sorting ℕ) (t : DisplayTrees)
    (keyMap : GoString → Option ℕ) : Forest GoString :=
  Forest.unfold (fun p => branchLabel keyMap (nodeAt t.heap p)) (sortedSubTrees sorting t.heap)
    (t.heap.length + 1) t.rootNodeTrees

/-- `SortNodesByKey` (`pkg/model/node.go` lines 72–74), in place. -/
def sortNodesByKey (sorting : Sorting Node) (nodes : List Node) : List Node :=
  sorting.sort keySort nodes

/-- `ConstructNodeTree` (lines 263–272). -/
def constructNodeTree (nodeSorting : Sorting Node) (treeSorting : Sorting ℕ)
    (assetNodes : List Node) : Forest GoString :=
  let assetNodes := sortNodesByKey nodeSorting assetNodes
  constructDisplayTree treeSorting (convertToDisplayTrees assetNodes) (keyIndexMap assetNodes)

/-! ## What the loop leaves in the heap -/

/-- The parts of a key. -/
def components (node : Node) : List GoString := split node.key 58

/-- The key of `p` is that of `c` minus the last component. -/
def IsParent (p c : Node) : Prop := components p = (components c).dropLast

instance : DecidableRel IsParent := fun p c =>
  inferInstanceAs (Decidable (components p = (components c).dropLast))

/-- Node `p` is the last of the list with this key. -/
def LastWith (nodes : List Node) (key : GoString) (p : ℕ) : Prop :=
  (∃ n, nodes[p]? = some n ∧ n.key = key) ∧ ∀ q n, p < q → nodes[q]? = some n → n.key ≠ key

/-- Node `p` is the last one before node `c` with the key of `c` up to the last colon. -/
def Attached (nodes : List Node) (p c : ℕ) : Prop :=
  ∃ m r, nodes[c]? = some m ∧ lastIndex m.key 58 = some r ∧
    LastWith (nodes.take c) (m.key.take r) p

/-- What the heap and the variables hold after the nodes. -/
structure Converted (nodes : List Node) (t : DisplayTrees) : Prop where
  cells : t.heap.map (·.node) = nodes
  map : ∀ key p, t.nodeTreeMap key = some p ↔ LastWith nodes key p
  arranged : Forest.Arranged nodes.length t.rootNodeTrees (subTreesAt t.heap)
  attached : ∀ p c, c ∈ subTreesAt t.heap p ↔ Attached nodes p c

theorem LastWith.lt {nodes : List Node} {key : GoString} {p : ℕ} (h : LastWith nodes key p) :
    p < nodes.length := by
  obtain ⟨⟨n, hn, _⟩, _⟩ := h
  exact (List.getElem?_eq_some_iff.mp hn).1

theorem Attached.lt {nodes : List Node} {p c : ℕ} (h : Attached nodes p c) :
    p < c ∧ c < nodes.length := by
  obtain ⟨m, r, hm, _, hlast⟩ := h
  have hp := hlast.lt
  rw [List.length_take] at hp
  exact ⟨by omega, (List.getElem?_eq_some_iff.mp hm).1⟩

/-- A new node is the last one with its key. -/
theorem lastWith_append (nodes : List Node) (m : Node) (key : GoString) (p : ℕ) :
    LastWith (nodes ++ [m]) key p ↔
      if key = m.key then p = nodes.length else LastWith nodes key p := by
  have hlast : (nodes ++ [m])[nodes.length]? = some m := by simp
  split_ifs with hkey
  · constructor
    · rintro ⟨⟨n, hn, _⟩, hlater⟩
      have hlt := (List.getElem?_eq_some_iff.mp hn).1
      rw [List.length_append, List.length_singleton] at hlt
      by_contra hne
      exact hlater nodes.length m (by omega) hlast hkey.symm
    · rintro rfl
      refine ⟨⟨m, hlast, hkey.symm⟩, fun q n hq hn => ?_⟩
      have hlt := (List.getElem?_eq_some_iff.mp hn).1
      rw [List.length_append, List.length_singleton] at hlt
      omega
  · constructor
    · rintro ⟨⟨n, hn, rfl⟩, hlater⟩
      have hp : p < nodes.length := by
        have hlt := (List.getElem?_eq_some_iff.mp hn).1
        rw [List.length_append, List.length_singleton] at hlt
        by_contra hge
        obtain rfl : p = nodes.length := by omega
        rw [hlast] at hn
        cases hn
        exact hkey rfl
      rw [List.getElem?_append_left hp] at hn
      refine ⟨⟨n, hn, rfl⟩, fun q n' hq hn' => hlater q n' hq ?_⟩
      rw [List.getElem?_append_left (List.getElem?_eq_some_iff.mp hn').1, hn']
    · intro h
      have hp := h.lt
      obtain ⟨⟨n, hn, rfl⟩, hlater⟩ := h
      refine ⟨⟨n, by rw [List.getElem?_append_left hp, hn], rfl⟩, fun q n' hq hn' => ?_⟩
      by_cases hlt : q < nodes.length
      · rw [List.getElem?_append_left hlt] at hn'
        exact hlater q n' hq hn'
      · have hq' := (List.getElem?_eq_some_iff.mp hn').1
        rw [List.length_append, List.length_singleton] at hq'
        obtain rfl : q = nodes.length := by omega
        rw [hlast] at hn'
        cases hn'
        exact fun h => hkey h.symm

/-- What is attached among the nodes stays so, and the new node is attached to the last
    node with its parent's key. -/
theorem attached_append (nodes : List Node) (m : Node) (p c : ℕ) :
    Attached (nodes ++ [m]) p c ↔ Attached nodes p c ∨
      (c = nodes.length ∧ ∃ r, lastIndex m.key 58 = some r ∧ LastWith nodes (m.key.take r) p) := by
  constructor
  · rintro ⟨m', r, hm, hr, hlast⟩
    have hlt := (List.getElem?_eq_some_iff.mp hm).1
    rw [List.length_append, List.length_singleton] at hlt
    by_cases hc : c < nodes.length
    · rw [List.getElem?_append_left hc] at hm
      rw [List.take_append_of_le_length hc.le] at hlast
      exact Or.inl ⟨m', r, hm, hr, hlast⟩
    · obtain rfl : c = nodes.length := by omega
      obtain rfl : m = m' := by simpa using hm
      rw [List.take_left] at hlast
      exact Or.inr ⟨rfl, r, hr, hlast⟩
  · rintro (h | ⟨rfl, r, hr, hlast⟩)
    · have hc := h.lt.2
      obtain ⟨m', r, hm, hr, hlast⟩ := h
      refine ⟨m', r, by rw [List.getElem?_append_left hc, hm], hr, ?_⟩
      rwa [List.take_append_of_le_length hc.le]
    · exact ⟨m, r, by simp, hr, by rwa [List.take_left]⟩

variable {nodes : List Node} {t : DisplayTrees}

theorem Converted.length (h : Converted nodes t) : t.heap.length = nodes.length := by
  rw [← h.cells, List.length_map]

theorem subTreesAt_length (heap : List DisplayTree) : subTreesAt heap heap.length = [] := by
  rw [subTreesAt, List.getElem?_length]
  rfl

/-- A new cell has no subtrees. -/
theorem subTreesAt_append (heap : List DisplayTree) (key : GoString) (node : Node) :
    subTreesAt (heap ++ [⟨key, node, []⟩]) = subTreesAt heap := by
  funext p
  unfold subTreesAt
  rcases Nat.lt_trichotomy p heap.length with h | rfl | h
  · rw [List.getElem?_append_left h]
  · rw [List.getElem?_concat_length, List.getElem?_length]
    rfl
  · rw [List.getElem?_eq_none (by simp; omega), List.getElem?_eq_none (by omega)]

/-- `AddSubNode` changes one cell. -/
theorem subTreesAt_modify (heap : List DisplayTree) {q : ℕ} (hq : q < heap.length) (c : ℕ) :
    subTreesAt (heap.modify q (·.addSubNode c)) =
      Function.update (subTreesAt heap) q (subTreesAt heap q ++ [c]) := by
  funext p
  unfold subTreesAt
  rw [List.getElem?_modify]
  by_cases hp : q = p
  · subst hp
    rw [Function.update_self, List.getElem?_eq_getElem hq]
    simp [DisplayTree.addSubNode]
  · rw [Function.update_of_ne (Ne.symm hp)]
    simp [hp]

theorem map_node_modify (heap : List DisplayTree) (q c : ℕ) :
    (heap.modify q (·.addSubNode c)).map (·.node) = heap.map (·.node) := by
  apply List.ext_getElem?
  intro p
  rw [List.getElem?_map, List.getElem?_modify, List.getElem?_map]
  by_cases hp : q = p
  · subst hp
    cases heap[q]? <;> simp [DisplayTree.addSubNode]
  · simp [hp]

/-- The map after a node: its key leads to its cell. -/
theorem Converted.map_update (h : Converted nodes t) (m : Node) (key : GoString) (p : ℕ) :
    Function.update t.nodeTreeMap m.key (some t.heap.length) key = some p ↔
      LastWith (nodes ++ [m]) key p := by
  rw [lastWith_append, Function.update_apply]
  split_ifs
  · rw [Option.some.injEq, h.length, eq_comm]
  · exact h.map key p

/-- A node that is attached to nothing becomes a root. -/
theorem Converted.addRoot (h : Converted nodes t) (m : Node)
    (hnone : ∀ r p, lastIndex m.key 58 = some r → ¬ LastWith nodes (m.key.take r) p) :
    Converted (nodes ++ [m]) ⟨t.heap ++ [⟨m.key, m, []⟩], t.rootNodeTrees ++ [t.heap.length],
      Function.update t.nodeTreeMap m.key (some t.heap.length)⟩ where
  cells := by rw [List.map_append, h.cells]; rfl
  map := h.map_update m
  arranged := by
    rw [subTreesAt_append, h.length, List.length_append]
    exact h.arranged.addRoot (h.length ▸ subTreesAt_length t.heap)
  attached p c := by
    rw [subTreesAt_append, attached_append, h.attached]
    constructor
    · exact Or.inl
    · rintro (hold | ⟨_, r, hr, hlast⟩)
      · exact hold
      · exact absurd hlast (hnone r p hr)

/-- A node is attached to the last node with its parent's key. -/
theorem Converted.addSub (h : Converted nodes t) {m : Node} {r q : ℕ}
    (hr : lastIndex m.key 58 = some r) (hq : LastWith nodes (m.key.take r) q) :
    Converted (nodes ++ [m])
      ⟨List.modify (t.heap ++ [⟨m.key, m, []⟩]) q (·.addSubNode t.heap.length), t.rootNodeTrees,
        Function.update t.nodeTreeMap m.key (some t.heap.length)⟩ := by
  have hlt : q < t.heap.length := h.length ▸ hq.lt
  have hsubs := subTreesAt_modify (t.heap ++ [⟨m.key, m, []⟩]) (q := q)
    (by rw [List.length_append]; omega) t.heap.length
  rw [subTreesAt_append] at hsubs
  refine ⟨?_, h.map_update m, ?_, fun p c => ?_⟩
  · rw [map_node_modify, List.map_append, h.cells]
    rfl
  · rw [hsubs, h.length, List.length_append]
    exact h.arranged.addSub (h.length ▸ subTreesAt_length t.heap) hq.lt
  · dsimp only
    rw [hsubs, attached_append, Function.update_apply, ← h.attached]
    -- the last node with the key is unique, since the map finds it
    have hunique : ∀ p, LastWith nodes (m.key.take r) p → p = q := by
      intro p hp
      rw [← h.map] at hp hq
      exact Option.some.inj (hp.symm.trans hq)
    split_ifs with hpq
    · subst hpq
      rw [List.mem_append, List.mem_singleton, h.length]
      constructor
      · rintro (hold | rfl)
        · exact Or.inl hold
        · exact Or.inr ⟨rfl, r, hr, hq⟩
      · rintro (hold | ⟨hc, _⟩)
        · exact Or.inl hold
        · exact Or.inr hc
    · constructor
      · exact Or.inl
      · rintro (hold | ⟨_, r', hr', hlast⟩)
        · exact hold
        · rw [hr] at hr'
          cases hr'
          exact absurd (hunique p hlast) hpq

theorem lastIndex_lt {s : GoString} {sep : UInt8} {r : ℕ} (h : lastIndex s sep = some r) :
    r < s.length := by
  obtain ⟨rest, hs, _⟩ := exists_of_lastIndex h
  have hlen := congrArg List.length hs
  rw [List.length_append, List.length_cons, List.length_take] at hlen
  omega

/-- One round of the loop. -/
theorem Converted.convertNode (h : Converted nodes t) (m : Node) :
    Converted (nodes ++ [m]) (convertNode t m) := by
  unfold Handler.convertNode
  dsimp only
  split
  · rename_i hnone
    apply h.addRoot m
    intro r p hr
    rw [hnone] at hr
    cases hr
  · rename_i r hr
    have hne : m.key.take r ≠ m.key := by
      intro heq
      have hlen := congrArg List.length heq
      have hlt := lastIndex_lt hr
      rw [List.length_take] at hlen
      omega
    rw [Function.update_of_ne hne]
    split
    · rename_i hnone
      apply h.addRoot m
      intro r' p hr' hlast
      rw [hr] at hr'
      cases hr'
      rw [← h.map, hnone] at hlast
      cases hlast
    · rename_i q hq
      exact h.addSub hr ((h.map _ q).mp hq)

/-- What `convertToDisplayTrees` leaves, for arbitrary keys. -/
theorem convert_spec (nodes : List Node) : Converted nodes (convertToDisplayTrees nodes) := by
  induction nodes using List.reverseRecOn with
  | nil =>
    refine ⟨rfl, fun key p => ?_, ⟨List.Perm.refl _, ?_⟩, fun p c => ?_⟩
    · simp [convertToDisplayTrees, LastWith]
    · simp [convertToDisplayTrees, subTreesAt]
    · simp [convertToDisplayTrees, subTreesAt, Attached]
  | append_singleton nodes m ih =>
    rw [convertToDisplayTrees, List.foldl_append]
    exact ih.convertNode m

/-! ## Every node once -/

theorem Converted.nodeAt_eq (h : Converted nodes t) (p : ℕ) :
    nodeAt t.heap p = (nodes[p]?).getD default := by
  rw [nodeAt, ← List.getElem?_map, h.cells]

theorem Converted.map_nodeAt (h : Converted nodes t) :
    (List.range nodes.length).map (nodeAt t.heap) = nodes := by
  apply List.ext_getElem?
  intro p
  rw [List.getElem?_map]
  by_cases hp : p < nodes.length
  · rw [List.getElem?_range hp, Option.map_some, h.nodeAt_eq, List.getElem?_eq_getElem hp]
    rfl
  · rw [List.getElem?_eq_none (by simpa using hp), List.getElem?_eq_none (by omega)]
    rfl

theorem sortedSubTrees_perm (sorting : Sorting ℕ) (heap : List DisplayTree) (p : ℕ) :
    (sortedSubTrees sorting heap p).Perm (subTreesAt heap p) := by
  unfold sortedSubTrees
  split_ifs
  · exact sorting.perm _ _
  · exact List.Perm.refl _

/-- The forest with each list of subtrees in another order. -/
def DisplayTrees.forestBy (t : DisplayTrees) (subs : ℕ → List ℕ) : Forest Node :=
  Forest.unfold (nodeAt t.heap) subs (t.heap.length + 1) t.rootNodeTrees

/-- What is rendered are the labels of the forest with sorted subtrees. -/
theorem constructDisplayTree_eq (sorting : Sorting ℕ) (t : DisplayTrees)
    (keyMap : GoString → Option ℕ) :
    constructDisplayTree sorting t keyMap =
      (t.forestBy (sortedSubTrees sorting t.heap)).map (branchLabel keyMap) := by
  rw [DisplayTrees.forestBy, Forest.map_unfold]
  rfl

theorem Converted.flatten_forestBy (h : Converted nodes t) {subs : ℕ → List ℕ}
    (hsubs : ∀ p, (subs p).Perm (subTreesAt t.heap p)) :
    (t.forestBy subs).flatten.Perm nodes := by
  have hflat := (h.arranged.congr hsubs).flatten_unfold (nodeAt t.heap)
  rwa [h.map_nodeAt, ← h.length] at hflat

/-! ## Keys of the documented form -/

/-- A decimal integer without leading zeros that fits in `int`. -/
def IsDecimal (part : GoString) : Prop :=
  ∃ z : ℤ, -(maxInt + 1 : ℤ) ≤ z ∧ z ≤ maxInt ∧ part = itoaInt z

/-- The integer of a part. -/
def partValue (part : GoString) : ℤ := (atoi part).getD 0

theorem IsDecimal.atoi_eq {part : GoString} (h : IsDecimal part) :
    atoi part = some (partValue part) := by
  obtain ⟨z, hlo, hhi, rfl⟩ := h
  rw [partValue, atoi_itoaInt hlo hhi]
  rfl

theorem IsDecimal.itoaInt_partValue {part : GoString} (h : IsDecimal part) :
    itoaInt (partValue part) = part := by
  obtain ⟨z, hlo, hhi, rfl⟩ := h
  rw [partValue, atoi_itoaInt hlo hhi]
  rfl

instance : DecidablePred IsDecimal := fun part =>
  decidable_of_iff (-(maxInt + 1 : ℤ) ≤ partValue part ∧ partValue part ≤ maxInt ∧
      part = itoaInt (partValue part))
    ⟨fun h => ⟨partValue part, h⟩, fun h => by
      obtain ⟨z, hlo, hhi, rfl⟩ := h
      rw [partValue, atoi_itoaInt hlo hhi]
      exact ⟨hlo, hhi, rfl⟩⟩

/-- A key is colon-separated decimal integers. -/
def WellFormed (node : Node) : Prop := ∀ part ∈ components node, IsDecimal part

instance : DecidablePred WellFormed := fun node =>
  inferInstanceAs (Decidable (∀ part ∈ components node, IsDecimal part))

/-- The integers of a key. -/
def keyValues (node : Node) : List ℤ := (components node).map partValue

theorem WellFormed.components_eq {node : Node} (h : WellFormed node) :
    (keyValues node).map itoaInt = components node := by
  rw [keyValues, List.map_map]
  conv_rhs => rw [← List.map_id (components node)]
  exact List.map_congr_left fun part hpart => (h part hpart).itoaInt_partValue

theorem key_eq_of_components_eq {n m : Node} (h : components n = components m) : n.key = m.key :=
  splitOn_injective 58 h

theorem WellFormed.key_eq {n m : Node} (hn : WellFormed n) (hm : WellFormed m)
    (h : keyValues n = keyValues m) : n.key = m.key := by
  apply key_eq_of_components_eq
  rw [← hn.components_eq, ← hm.components_eq, h]

theorem nil_le_list (as : List ℤ) : [] ≤ as := not_lt.mp (List.not_lt_nil as)

theorem cons_le_cons_iff (a b : ℤ) (as bs : List ℤ) :
    a :: as ≤ b :: bs ↔ a < b ∨ (a = b ∧ as ≤ bs) := by
  rw [← not_lt, ← not_lt (a := bs) (b := as), List.cons_lt_cons_iff]
  rcases lt_trichotomy a b with h | h | h
  · simp [h, h.not_gt, h.ne']
  · simp [h]
  · simp [h, h.not_gt, h.ne']

/-- A prefix comes first. -/
theorem le_append_right (as bs : List ℤ) : as ≤ as ++ bs := by
  induction as with
  | nil => exact nil_le_list bs
  | cons a as ih => exact (cons_le_cons_iff a a as (as ++ bs)).mpr (Or.inr ⟨rfl, ih⟩)

theorem keySortParts_eq {as bs : List GoString} (ha : ∀ part ∈ as, IsDecimal part)
    (hb : ∀ part ∈ bs, IsDecimal part) :
    keySortParts as bs = decide (as.map partValue ≤ bs.map partValue) := by
  induction as generalizing bs with
  | nil => exact (decide_eq_true (nil_le_list _)).symm
  | cons a as ih =>
    cases bs with
    | nil => simp [keySortParts]
    | cons b bs =>
      obtain ⟨ha, has⟩ := List.forall_mem_cons.mp ha
      obtain ⟨hb, hbs⟩ := List.forall_mem_cons.mp hb
      rw [keySortParts, List.map_cons, List.map_cons]
      split_ifs with hab
      · rw [ih has hbs, hab]
        simp [cons_le_cons_iff]
      · have hne : partValue a ≠ partValue b := by
          intro heq
          rw [← ha.itoaInt_partValue, ← hb.itoaInt_partValue, heq] at hab
          exact hab rfl
        rw [ha.atoi_eq, hb.atoi_eq]
        simp [cons_le_cons_iff, hne]

/-- On keys of the documented form `keySort` compares lists of integers, where a prefix
    comes first. -/
theorem keySort_eq_decide {n m : Node} (hn : WellFormed n) (hm : WellFormed m) :
    keySort n m = decide (keyValues n ≤ keyValues m) :=
  keySortParts_eq hn hm

/-- So it is a strict total order on nodes with different keys. -/
theorem totalOnDistinct_keySort {nodes : List Node} (hwf : ∀ n ∈ nodes, WellFormed n)
    (hkeys : (nodes.map (·.key)).Nodup) : TotalOnDistinct keySort nodes := by
  have hne : ∀ n ∈ nodes, ∀ m ∈ nodes, n ≠ m → keyValues n ≠ keyValues m := by
    intro n hn m hm hnm heq
    exact hnm (List.inj_on_of_nodup_map hkeys hn hm ((hwf n hn).key_eq (hwf m hm) heq))
  refine ⟨fun n hn m hm hnm => ?_, fun a ha b hb c hc _ _ _ hab hbc => ?_⟩
  · rw [keySort_eq_decide (hwf n hn) (hwf m hm), keySort_eq_decide (hwf m hm) (hwf n hn),
      ← decide_not, decide_eq_decide]
    constructor
    · intro hle hle'
      exact hne n hn m hm hnm (le_antisymm hle hle')
    · intro hnot
      exact (le_total _ _).resolve_right hnot
  · rw [keySort_eq_decide (hwf a ha) (hwf b hb), decide_eq_true_eq] at hab
    rw [keySort_eq_decide (hwf b hb) (hwf c hc), decide_eq_true_eq] at hbc
    rw [keySort_eq_decide (hwf a ha) (hwf c hc), decide_eq_true_eq]
    exact le_trans hab hbc

/-- A parent comes before its children. -/
theorem keyValues_le_of_isParent {p c : Node} (h : IsParent p c) : keyValues p ≤ keyValues c := by
  have hne : (components c).map partValue ≠ [] := by
    rw [Ne, List.map_eq_nil_iff]
    exact List.splitOn_ne_nil 58 c.key
  unfold keyValues
  rw [h, List.map_dropLast]
  conv_rhs => rw [← List.dropLast_append_getLast hne]
  exact le_append_right _ _

/-! ## Every node under its parent -/

/-- Every node once, directly under its parent if that is one of the nodes, and a root
    otherwise. -/
structure Placed (nodes : List Node) (f : Forest Node) : Prop where
  once : f.flatten.Perm nodes
  under : ∀ p c, f.ChildOf p c ↔ p ∈ nodes ∧ c ∈ nodes ∧ IsParent p c
  root : ∀ c, c ∈ f.roots ↔ c ∈ nodes ∧ ∀ p ∈ nodes, ¬ IsParent p c

/-- The parent's key is the key up to the last colon. -/
theorem isParent_iff {p c : Node} :
    IsParent p c ↔ ∃ r, lastIndex c.key 58 = some r ∧ p.key = c.key.take r := by
  constructor
  · intro h
    cases hr : lastIndex c.key 58 with
    | none =>
      rw [IsParent, components, components, split_of_notMem (lastIndex_eq_none.mp hr)] at h
      exact absurd h (List.splitOn_ne_nil 58 p.key)
    | some r =>
      refine ⟨r, rfl, splitOn_injective 58 ?_⟩
      exact h.trans (split_take_lastIndex hr).symm
  · rintro ⟨r, hr, hkey⟩
    rw [IsParent, components, components, hkey]
    exact split_take_lastIndex hr

theorem IsParent.components_ne {p c : Node} (h : IsParent p c) : components p ≠ components c := by
  intro heq
  have hpos := List.length_pos_iff.mpr (List.splitOn_ne_nil 58 c.key)
  have hlen := congrArg List.length (heq.symm.trans h)
  rw [List.length_dropLast] at hlen
  have : 0 < (components c).length := hpos
  omega

/-- In a sorted list of different well-formed keys a parent stands before its children. -/
theorem lt_of_isParent {p c : ℕ} {n m : Node} (hwf : ∀ n ∈ nodes, WellFormed n)
    (hsorted : nodes.Pairwise fun a b => keySort a b = true) (hn : nodes[p]? = some n)
    (hm : nodes[c]? = some m) (h : IsParent n m) : p < c := by
  obtain ⟨hp, hnp⟩ := List.getElem?_eq_some_iff.mp hn
  obtain ⟨hc, hmc⟩ := List.getElem?_eq_some_iff.mp hm
  have hwfn := hwf n (List.mem_of_getElem? hn)
  have hwfm := hwf m (List.mem_of_getElem? hm)
  by_contra hge
  rcases Nat.eq_or_lt_of_le (not_lt.mp hge) with rfl | hlt
  · rw [hn] at hm
    cases hm
    exact h.components_ne rfl
  · have hsort := List.pairwise_iff_getElem.mp hsorted c p hc hp hlt
    rw [hmc, hnp, keySort_eq_decide hwfm hwfn, decide_eq_true_eq] at hsort
    have heq := le_antisymm (keyValues_le_of_isParent h) hsort
    apply h.components_ne
    rw [components, hwfn.key_eq hwfm heq]
    rfl

/-- For such a list, the nodes are attached to their parents. -/
theorem attached_iff (hwf : ∀ n ∈ nodes, WellFormed n) (hkeys : (nodes.map (·.key)).Nodup)
    (hsorted : nodes.Pairwise fun a b => keySort a b = true) (p c : ℕ) :
    Attached nodes p c ↔
      ∃ n m, nodes[p]? = some n ∧ nodes[c]? = some m ∧ IsParent n m := by
  constructor
  · rintro ⟨m, r, hm, hr, ⟨n, hn, hkey⟩, _⟩
    refine ⟨n, m, ?_, hm, isParent_iff.mpr ⟨r, hr, hkey⟩⟩
    rw [List.getElem?_take] at hn
    split_ifs at hn
    exact hn
  · rintro ⟨n, m, hn, hm, h⟩
    have hlt := lt_of_isParent hwf hsorted hn hm h
    obtain ⟨r, hr, hkey⟩ := isParent_iff.mp h
    refine ⟨m, r, hm, hr, ⟨n, by rw [List.getElem?_take, if_pos hlt, hn], hkey⟩, ?_⟩
    intro q n' hq hn' hkey'
    rw [List.getElem?_take] at hn'
    split_ifs at hn'
    -- a second node with the key
    have hp := (List.getElem?_eq_some_iff.mp hn).1
    have heq : (nodes.map (·.key))[p]? = (nodes.map (·.key))[q]? := by
      rw [List.getElem?_map, List.getElem?_map, hn, hn', Option.map_some, Option.map_some, hkey,
        hkey']
    have := (List.getElem?_inj (by rwa [List.length_map]) hkeys).mp heq
    omega

theorem Converted.placed (h : Converted nodes t) (hwf : ∀ n ∈ nodes, WellFormed n)
    (hkeys : (nodes.map (·.key)).Nodup)
    (hsorted : nodes.Pairwise fun a b => keySort a b = true) {subs : ℕ → List ℕ}
    (hsubs : ∀ p, (subs p).Perm (subTreesAt t.heap p)) : Placed nodes (t.forestBy subs) := by
  have harr := h.arranged.congr hsubs
  have hmem : ∀ p c, c ∈ subs p ↔ ∃ n m, nodes[p]? = some n ∧ nodes[c]? = some m ∧ IsParent n m :=
    fun p c => by rw [(hsubs p).mem_iff, h.attached, attached_iff hwf hkeys hsorted]
  have hat : ∀ {p n}, nodes[p]? = some n → nodeAt t.heap p = n := by
    intro p n hn
    rw [h.nodeAt_eq, hn]
    rfl
  refine ⟨h.flatten_forestBy hsubs, fun a b => ?_, fun b => ?_⟩
  · rw [DisplayTrees.forestBy, h.length, harr.childOf_unfold_iff]
    constructor
    · rintro ⟨p, _, rfl, c, hc, rfl⟩
      obtain ⟨n, m, hn, hm, hpar⟩ := (hmem p c).mp hc
      rw [hat hn, hat hm]
      exact ⟨List.mem_of_getElem? hn, List.mem_of_getElem? hm, hpar⟩
    · rintro ⟨ha, hb, hpar⟩
      obtain ⟨p, hp⟩ := List.mem_iff_getElem?.mp ha
      obtain ⟨c, hc⟩ := List.mem_iff_getElem?.mp hb
      exact ⟨p, (List.getElem?_eq_some_iff.mp hp).1, hat hp, c,
        (hmem p c).mpr ⟨a, b, hp, hc, hpar⟩, hat hc⟩
  · rw [DisplayTrees.forestBy, Forest.roots_unfold, List.mem_map]
    constructor
    · rintro ⟨c, hc, rfl⟩
      obtain ⟨hlt, hnone⟩ := (harr.mem_roots_iff c).mp hc
      have hget := List.getElem?_eq_getElem hlt
      rw [hat hget]
      refine ⟨List.mem_of_getElem? hget, fun a ha hpar => ?_⟩
      obtain ⟨p, hp⟩ := List.mem_iff_getElem?.mp ha
      exact hnone p (List.getElem?_eq_some_iff.mp hp).1 ((hmem p c).mpr ⟨a, _, hp, hget, hpar⟩)
    · rintro ⟨hb, hnone⟩
      obtain ⟨c, hc⟩ := List.mem_iff_getElem?.mp hb
      refine ⟨c, (harr.mem_roots_iff c).mpr ⟨(List.getElem?_eq_some_iff.mp hc).1, ?_⟩, hat hc⟩
      intro p _ hsub
      obtain ⟨n, m, hn, hm, hpar⟩ := (hmem p c).mp hsub
      rw [hc] at hm
      cases hm
      exact hnone n (List.mem_of_getElem? hn) hpar

/-! ## The numbers -/

theorem keyIndexMap_append (nodes : List Node) (m : Node) :
    keyIndexMap (nodes ++ [m]) = Function.update (keyIndexMap nodes) m.key (some nodes.length) := by
  rw [keyIndexMap, List.zipIdx_append, List.foldl_append]
  simp [keyIndexMap]

/-- With different keys the map gives each node its position. -/
theorem keyIndexMap_eq (hkeys : (nodes.map (·.key)).Nodup) {i : ℕ} {n : Node}
    (hn : nodes[i]? = some n) : keyIndexMap nodes n.key = some i := by
  induction nodes using List.reverseRecOn with
  | nil => cases hn
  | append_singleton nodes m ih =>
    rw [List.map_append, List.nodup_append] at hkeys
    rw [keyIndexMap_append]
    have hlt := (List.getElem?_eq_some_iff.mp hn).1
    rw [List.length_append, List.length_singleton] at hlt
    by_cases hi : i < nodes.length
    · rw [List.getElem?_append_left hi] at hn
      have hne : n.key ≠ m.key := hkeys.2.2 n.key (List.mem_map_of_mem (List.mem_of_getElem? hn))
        m.key (by simp)
      rw [Function.update_of_ne hne, ih hkeys.1 hn]
    · obtain rfl : i = nodes.length := by omega
      obtain rfl : m = n := by simpa using hn
      rw [Function.update_self]

/-- The line `g` with a number has no outer spaces. -/
theorem trimSpace_g_itoa (N : ℕ) : trimSpace (str "g" ++ itoa N) = str "g" ++ itoa N := by
  apply trimSpace_of_printable (by simp [str])
  intro b hb
  rcases List.mem_append.mp hb with hb | hb
  · rw [List.mem_singleton.mp hb]
    decide
  · obtain ⟨h1, h2⟩ := mem_itoa hb
    rw [UInt8.le_iff_toNat_le] at h1 h2
    simp only [outsidePrintable, Bool.or_eq_false_iff, decide_eq_false_iff_not,
      UInt8.lt_iff_toNat_lt]
    simp only [UInt8.toNat_ofNat] at h1 h2 ⊢
    omega

/-- The line `g` with a number selects the node at that place. -/
theorem parseLine_g (cs : Casing) {i : ℕ} {n : Node} (hn : nodes[i]? = some n)
    (hlen : nodes.length ≤ maxInt) : parseLine cs nodes (str "g" ++ itoa (i + 1)) = .node n := by
  obtain ⟨b, rest, hitoa⟩ := List.exists_cons_of_ne_nil (itoa_ne_nil (i + 1))
  have hpick : pickIndex nodes (trimSpace (itoa (i + 1))) = some n := by
    rw [trimSpace_itoa, pickIndex_itoa hn hlen]
  have hline : str "g" ++ itoa (i + 1) = 103 :: itoa (i + 1) := rfl
  have hparse : parseLine cs nodes (103 :: itoa (i + 1)) =
      parseLong nodes (103 :: itoa (i + 1)) := by
    rw [hitoa]
    rfl
  have hword : ¬ (103 :: itoa (i + 1) = str "exit" ∨ 103 :: itoa (i + 1) = str "quit") := by
    rintro (h | h) <;> exact absurd (List.cons.inj h).1 (by decide)
  rw [hline, hparse, parseLong, if_neg hword]
  simp only [hpick]

/-- Displaying the tree sorts the nodes of the handler. -/
theorem dispatch_g (env : DispatchEnv) (st : Interactive) :
    (dispatch env st (str "g")).1.nodes = sortNodesByKey env.nodeSorting st.nodes := by
  have hlower : env.cs.toLower (str "g") = str "g" := by
    rw [env.cs.toLower_ascii]
    · rfl
    · intro b hb
      rw [List.mem_singleton.mp hb]
      decide
  have hparse : parseLine env.cs st.nodes (trimSpace (str "g")) = .nodeTree := by
    have htrim : trimSpace (str "g") = str "g" := by decide
    have hshort : parseLine env.cs st.nodes (str "g") = parseShort env.cs (str "g") := rfl
    rw [htrim, hshort, parseShort, hlower]
    decide
  unfold dispatch
  rw [hparse]
  rfl

/-- A search keeps the selected node. -/
theorem search_selectedNode (env : TermEnv) (s : SelectHandler) (key : GoString) :
    (search env s key).1.selectedNode = s.selectedNode ∧
      (search env s key).1.currentType = some s.viewType := by
  unfold search retrieveAndDisplay
  dsimp only
  obtain ⟨rows, hrows⟩ := displayCurrentResult_fst env
    { (retrieve { s with searchKeys := [key] } (getPageSize env) 0 [key]).2 with
      currentResult := (retrieve { s with searchKeys := [key] } (getPageSize env) 0 [key]).1 }
  rw [hrows, retrieve_eq]
  exact ⟨rfl, rfl⟩

theorem dispatch_node (env : DispatchEnv) (st : Interactive) {line : GoString} {n : Node}
    (hline : parseLine env.cs st.nodes (trimSpace line) = .node n) :
    (dispatch env st line).1.select.selectedNode = n ∧
      (dispatch env st line).1.select.currentType = some .nodeAsset := by
  unfold dispatch
  rw [hline]
  exact search_selectedNode (st.termEnv env) (setNode st.select n) []

theorem Placed.perm {nodes' : List Node} {f : Forest Node} (h : Placed nodes f)
    (hperm : nodes.Perm nodes') : Placed nodes' f where
  once := h.once.trans hperm
  under p c := by rw [h.under, hperm.mem_iff, hperm.mem_iff]
  root c := by simp only [h.root, hperm.mem_iff]

/-- For every list of nodes with arbitrary keys the forest, and what is rendered of it,
    contains every node exactly once. With different keys of the documented form, after
    the tree has been displayed every node stands under its parent, or at a root if that
    is not in the list, and the number in front of a node, entered after `g`, selects it. -/
theorem nodeTree_spec (env : DispatchEnv) (treeSorting : Sorting ℕ) (st : Interactive) :
    (∀ nodes keyMap, (convertToDisplayTrees nodes).forest.flatten.Perm nodes ∧
      (constructDisplayTree treeSorting (convertToDisplayTrees nodes) keyMap).flatten.Perm
        (nodes.map (branchLabel keyMap))) ∧
    (env.nodeSorting.OrdersDistinct → st.nodes.length ≤ maxInt →
      (∀ n ∈ st.nodes, WellFormed n) → (st.nodes.map (·.key)).Nodup →
      let shown := (dispatch env st (str "g")).1
      let keyMap := keyIndexMap shown.nodes
      Placed st.nodes (convertToDisplayTrees shown.nodes).forest ∧
      (∃ f, Placed st.nodes f ∧
        constructNodeTree env.nodeSorting treeSorting st.nodes = f.map (branchLabel keyMap)) ∧
      ∀ n ∈ st.nodes, ∀ env',
        let s := (dispatch env' shown (str "g" ++ itoa (shownNumber keyMap n))).1.select
        s.selectedNode = n ∧ s.currentType = some .nodeAsset) := by
  constructor
  · intro nodes keyMap
    have hconv := convert_spec nodes
    refine ⟨hconv.flatten_forestBy fun p => List.Perm.refl _, ?_⟩
    rw [constructDisplayTree_eq, Forest.flatten_map]
    exact (hconv.flatten_forestBy (sortedSubTrees_perm treeSorting _)).map _
  · intro hsort hlen hwf hkeys
    have hperm : (sortNodesByKey env.nodeSorting st.nodes).Perm st.nodes := env.nodeSorting.perm _ _
    have hsorted := hsort keySort st.nodes hkeys.of_map (totalOnDistinct_keySort hwf hkeys)
    have hwf' : ∀ n ∈ sortNodesByKey env.nodeSorting st.nodes, WellFormed n :=
      fun n hn => hwf n (hperm.mem_iff.mp hn)
    have hkeys' : ((sortNodesByKey env.nodeSorting st.nodes).map (·.key)).Nodup :=
      (hperm.map _).nodup_iff.mpr hkeys
    have hconv := convert_spec (sortNodesByKey env.nodeSorting st.nodes)
    dsimp only
    rw [dispatch_g]
    refine ⟨(hconv.placed hwf' hkeys' hsorted fun p => List.Perm.refl _).perm hperm,
      ⟨_, (hconv.placed hwf' hkeys' hsorted (sortedSubTrees_perm treeSorting _)).perm hperm,
        constructDisplayTree_eq _ _ _⟩, fun n hn env' => ?_⟩
    -- the number is the place of the node in the sorted list
    obtain ⟨i, hi⟩ := List.mem_iff_getElem?.mp (hperm.mem_iff.mpr hn)
    rw [shownNumber, keyIndexMap_eq hkeys' hi, Option.getD_some]
    apply dispatch_node
    rw [trimSpace_g_itoa, dispatch_g]
    exact parseLine_g env'.cs hi (by rwa [hperm.length_eq])

/-! ### A list with a child before its parent -/

def treeNode (key name : String) : Node := ⟨str key, str key, str name, []⟩

def treeState : Interactive :=
  ⟨default, freshHandler [], [treeNode "1:10" "b", treeNode "1:9" "a", treeNode "1" "root"],
    default, false, true, []⟩

theorem nodeTree_of_three :
    (convertToDisplayTrees (dispatch twoHosts treeState (str "g")).1.nodes).forest =
      .cons (treeNode "1" "root")
        (.cons (treeNode "1:9" "a") .nil (.cons (treeNode "1:10" "b") .nil .nil)) .nil ∧
    Placed treeState.nodes
      (convertToDisplayTrees (dispatch twoHosts treeState (str "g")).1.nodes).forest := by
  refine ⟨by decide, ((nodeTree_spec twoHosts (insertionSorting ℕ) treeState).2
    (insertionSorting_documented Node).ordersDistinct (by decide) (by decide) (by decide)).1⟩

end GoJump.Handler
