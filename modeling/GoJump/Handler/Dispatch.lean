import GoJump.Handler.SelectHandler
import GoJump.Lib.Run

/-!
# The interactive loop

Model of `Dispatch` (`pkg/handler/dispatch.go` lines 11–96) with
`refreshAssetsAndNodesData` and the sorting of the nodes by `displayNodeTree`. One
step is one line read from the user; the size of the terminal and the content of the
database may differ from step to step. `screen` is not in the code: it is the asset
table that was displayed last.

* `number_not_on_screen`: after a search that logged in by itself, a number connects
  to another asset than the one it stands for on the screen.
* `number_on_screen`: in every run in which a search logs in by itself only with a
  page that the screen shows, a number connects to the asset shown with it.
* `not_numbersOnScreen_step`: after any other such login, some number does not.
-/

namespace GoJump.Handler

open GoJump.Go GoJump.Lib GoJump.Model GoJump.Core

/-! ## Commands -/

/-- What a line asks for. -/
inductive Command
  /-- an empty line -/
  | default
  | list
  | prePage
  | nextPage
  | nodeTree
  | help
  | refresh
  | quit
  | search (key : GoString)
  | searchAgain (key : GoString)
  | node (n : Node)
  | searchOrProxy (key : GoString)
  deriving DecidableEq

/-- A line of one byte (lines 44–68). -/
def parseShort (cs : Casing) (line : GoString) : Command :=
  let lower := cs.toLower line
  if lower = str "p" then .list
  else if lower = str "b" then .prePage
  else if lower = str "n" then .nextPage
  else if lower = str "g" then .nodeTree
  else if lower = str "h" then .help
  else if lower = str "r" then .refresh
  else if lower = str "q" then .quit
  else .searchOrProxy line

/-- A longer line (lines 69–92); 47 is the slash and 103 the letter `g`. -/
def parseLong (nodes : List Node) (line : GoString) : Command :=
  if line = str "exit" ∨ line = str "quit" then .quit
  else
    match line with
    | 47 :: 47 :: rest => .searchAgain (trimSpace rest)
    | 47 :: rest => .search (trimSpace rest)
    | 103 :: rest =>
      match pickIndex nodes (trimSpace rest) with
      | some n => .node n
      | none => .searchOrProxy line
    | _ => .searchOrProxy line

/-- The dispatch on a line from which the surrounding space has been removed. -/
def parseLine (cs : Casing) (nodes : List Node) (line : GoString) : Command :=
  match line.length with
  | 0 => .default
  | 1 => parseShort cs line
  | _ => parseLong nodes line

/-! ## The loop -/

/-- `keySort` (`pkg/model/node.go` lines 49–70) over the parts of the two keys. -/
def keySortParts : List GoString → List GoString → Bool
  | [], _ => true
  | _ :: _, [] => false
  | a :: as, b :: bs =>
    if a = b then keySortParts as bs
    else
      match atoi a with
      | none => true
      | some x =>
        match atoi b with
        | none => false
        | some y => decide (x < y)

/-- `keySort`; 58 is the colon. -/
def keySort (n₁ n₂ : Node) : Bool := keySortParts (split n₁.key 58) (split n₂.key 58)

/-- What the loop finds when it handles a line. -/
structure DispatchEnv where
  cs : Casing
  height : ℤ
  sorting : Sorting AssetItem
  nodeSorting : Sorting Node
  db : DB

/-- `InteractiveHandler` and the local variable `initialed`. -/
structure Interactive where
  user : User
  select : SelectHandler
  nodes : List Node
  terminalConf : TerminalConfig
  initialed : Bool
  running : Bool
  screen : List AssetItem

/-- The terminal and configuration of this step. -/
def Interactive.termEnv (st : Interactive) (env : DispatchEnv) : TermEnv :=
  ⟨env.height, st.terminalConf, env.sorting⟩

/-- The table on the screen after an operation. -/
def screenAfter (screen : List AssetItem) : Outcome → List AssetItem
  | .displayed table => table
  | .noTable | .proxied _ => screen

/-- Take over what an operation of the asset list did. -/
def Interactive.after (st : Interactive) (r : SelectHandler × Outcome) : Interactive :=
  { st with select := r.1, screen := screenAfter st.screen r.2 }

/-- `refreshAssetsAndNodesData` (`pkg/handler/interactive.go` lines 209–235). -/
def Interactive.refresh (st : Interactive) (env : DispatchEnv) : Interactive :=
  let st := match env.db.getAllUserPermsAssets st.user.nodeIDs with
    | .error _ => st
    | .ok (items, nodes) => { st with select := { st.select with allLocalData := items }, nodes }
  match env.db.getTerminalConfig with
  | .error _ => st
  | .ok conf => { st with terminalConf := conf }

/-- What a command of the asset list does; the others leave it alone. -/
def listCommand (env : TermEnv) (initialed : Bool) (s : SelectHandler) :
    Command → SelectHandler × Outcome
  | .default =>
    if initialed then moveNextPage env s else search env (setSelectType s .asset) []
  | .list => search env (setSelectType s .asset) []
  | .prePage => movePrePage env s
  | .nextPage => moveNextPage env s
  | .search key => search env s key
  | .searchAgain key => searchAgain env s key
  | .node n => search env (setNode s n) []
  | .searchOrProxy key => searchOrProxy env s key
  | .nodeTree | .help | .refresh | .quit => (s, .noTable)

/-- One round of the loop: the state after the line and the asset it connects to. -/
def dispatch (env : DispatchEnv) (st : Interactive) (line : GoString) : Interactive × Outcome :=
  let cmd := parseLine env.cs st.nodes (trimSpace line)
  let r := listCommand (st.termEnv env) st.initialed st.select cmd
  let st' := { st.after r with initialed := true }
  match cmd with
  | .nodeTree => ({ st' with nodes := env.nodeSorting.sort keySort st.nodes }, r.2)
  | .help => ({ st' with initialed := false }, r.2)
  | .refresh => (st'.refresh env, r.2)
  | .quit => ({ st' with running := false }, r.2)
  | _ => (st', r.2)

/-- `NewInteractiveHandler` and the beginning of `Dispatch` (lines 11–21): with just
    one asset the loop is not entered. -/
def startDispatch (env : DispatchEnv) (user : User) (conf : TerminalConfig) : Interactive :=
  let data := match env.db.getAllUserPermsAssets user.nodeIDs with
    | .error _ => ([], [])
    | .ok r => r
  let st : Interactive := ⟨user, freshHandler data.1, data.2, conf, false, true, []⟩
  if data.1.length = 1 then
    { st.after (searchOrProxy (st.termEnv env) st.select []) with running := false }
  else st

/-- The loop as a transition function: a line is read only while it runs. -/
def step (st : Interactive) (input : DispatchEnv × GoString) : Option Interactive :=
  if st.running then some (dispatch input.1 st input.2).1 else none

/-- Typing a number of the current result connects to the asset that the table on the
    screen shows with it. -/
def NumbersOnScreen (st : Interactive) : Prop :=
  ∀ (env : DispatchEnv) (line : GoString) (n : ℕ), st.running = true →
    atoi (trimSpace line) = some (n : ℤ) → 1 ≤ n → n ≤ st.select.currentResult.length →
    ∃ a, st.screen[n - 1]? = some a ∧ (dispatch env st line).2 = .proxied a

/-! ## Lines that are numbers -/

theorem asciiLower_of_digit {b : UInt8} (h : 48 ≤ b ∧ b ≤ 57) : asciiLower b = b := by
  unfold asciiLower
  rw [if_neg]
  rintro ⟨h1, _⟩
  exact absurd (UInt8.le_trans h1 h.2) (by decide)

/-- A digit is none of the one-letter commands. -/
theorem parseShort_digit (cs : Casing) {b : UInt8} (hb : 48 ≤ b ∧ b ≤ 57) :
    parseShort cs [b] = .searchOrProxy [b] := by
  have hlow : cs.toLower [b] = [b] := by
    rw [cs.toLower_ascii [b] (by
      intro c hc
      rw [List.mem_singleton.mp hc]
      exact UInt8.lt_of_le_of_lt hb.2 (by decide))]
    simp [asciiLower_of_digit hb]
  have hne : ∀ word : GoString, (∃ c ∈ word, 57 < c) → [b] ≠ word := by
    rintro word ⟨c, hc, hlt⟩ rfl
    rw [List.mem_singleton.mp hc] at hlt
    exact absurd hb.2 (UInt8.not_le.mpr hlt)
  unfold parseShort
  dsimp only
  rw [hlow, if_neg (hne (str "p") (by decide)), if_neg (hne (str "b") (by decide)),
    if_neg (hne (str "n") (by decide)), if_neg (hne (str "g") (by decide)),
    if_neg (hne (str "h") (by decide)), if_neg (hne (str "r") (by decide)),
    if_neg (hne (str "q") (by decide))]

/-- A longer line is a search unless it begins with the slash, `e`, `g` or `q`. -/
theorem parseLong_other (nodes : List Node) {b : UInt8} {rest : GoString}
    (hb : b ≠ 47 ∧ b ≠ 101 ∧ b ≠ 103 ∧ b ≠ 113) :
    parseLong nodes (b :: rest) = .searchOrProxy (b :: rest) := by
  unfold parseLong
  rw [if_neg (by
    rintro (heq | heq)
    · exact hb.2.1 (List.cons.inj heq).1
    · exact hb.2.2.2 (List.cons.inj heq).1)]
  split
  · rename_i heq
    exact absurd (List.cons.inj heq).1 hb.1
  · rename_i heq
    exact absurd (List.cons.inj heq).1 hb.1
  · rename_i heq
    exact absurd (List.cons.inj heq).1 hb.2.2.1
  · rfl

/-- A number is never taken for another command. -/
theorem parseLine_number (cs : Casing) (nodes : List Node) {line : GoString} {n : ℤ}
    (h : atoi line = some n) : parseLine cs nodes line = .searchOrProxy line := by
  match line, h with
  | [b], h => exact parseShort_digit cs (atoi_singleton h)
  | b :: c :: rest, h =>
    apply parseLong_other nodes
    rcases atoi_cons h with rfl | rfl | hb
    · decide
    · decide
    · refine ⟨?_, ?_, ?_, ?_⟩ <;> rintro rfl <;> revert hb <;> decide

/-- A number in the range of the current result connects to that entry of it. -/
theorem dispatch_number (env : DispatchEnv) (st : Interactive) {line : GoString} {n : ℕ}
    (hline : atoi (trimSpace line) = some (n : ℤ)) (h1 : 1 ≤ n)
    (hn : n ≤ st.select.currentResult.length) :
    ∃ a, st.select.currentResult[n - 1]? = some a ∧ (dispatch env st line).2 = .proxied a := by
  have hlt : n - 1 < st.select.currentResult.length := by omega
  have hget := List.getElem?_eq_getElem hlt
  have hpick : pickIndex st.select.currentResult (trimSpace line) =
      some st.select.currentResult[n - 1] := by
    apply pickIndex_of_atoi _ hget
    rw [hline]
    congr 2
    omega
  refine ⟨st.select.currentResult[n - 1], hget, ?_⟩
  unfold dispatch
  rw [parseLine_number env.cs st.nodes hline]
  simp only [listCommand, searchOrProxy, hpick]

/-- The numbers stand for what is on the screen if the table shows the current result
    from its top. -/
theorem numbersOnScreen_of_prefix {st : Interactive}
    (h : st.running = true → st.select.currentResult <+: st.screen) : NumbersOnScreen st := by
  intro env line n hrun hline h1 hn
  obtain ⟨a, ha, hproxied⟩ := dispatch_number env st hline h1 hn
  obtain ⟨rest, hrest⟩ := h hrun
  refine ⟨a, ?_, hproxied⟩
  rw [← hrest, List.getElem?_append_left (by omega)]
  exact ha

/-- And only then. -/
theorem prefix_of_numbersOnScreen (env : DispatchEnv) {st : Interactive} (hrun : st.running = true)
    (hlen : st.select.currentResult.length ≤ maxInt) (h : NumbersOnScreen st) :
    st.select.currentResult <+: st.screen := by
  rw [List.prefix_iff_getElem?]
  intro i hi
  have hline : atoi (trimSpace (itoa (i + 1))) = some ((i + 1 : ℕ) : ℤ) := by
    rw [trimSpace_itoa, atoi_itoa (by omega)]
  obtain ⟨a, hscreen, ha⟩ := h env _ (i + 1) hrun hline (by omega) (by omega)
  obtain ⟨b, hb, hb'⟩ := dispatch_number env st hline (by omega) (by omega)
  have hab : a = b := by
    rw [ha] at hb'
    exact Outcome.proxied.inj hb'
  rw [← List.getElem?_eq_getElem hi, ← Nat.add_sub_cancel i 1, hscreen, hb, hab]

/-! ## The table on the screen -/

/-- The current result is shown by the table on the screen. -/
def Shown (screen : List AssetItem) (r : SelectHandler × Outcome) : Prop :=
  r.1.currentResult <+: screenAfter screen r.2

theorem shown_displayCurrentResult {env : TermEnv} {s : SelectHandler} {screen : List AssetItem}
    (h : s.currentResult <+: screen ∨ s.currentType ≠ none) :
    Shown screen (displayCurrentResult env s) := by
  unfold Shown displayCurrentResult
  cases htype : s.currentType with
  | none => exact h.resolve_right (fun hne => hne htype)
  | some type =>
    dsimp only
    split_ifs with hlen
    · rw [List.eq_nil_of_length_eq_zero hlen]
      exact List.nil_prefix
    · exact List.prefix_refl _

/-- A page that was retrieved and displayed is on the screen. -/
theorem shown_retrieveAndDisplay (env : TermEnv) (s : SelectHandler) (offset : ℕ)
    (keys : List GoString) (screen : List AssetItem) :
    Shown screen (retrieveAndDisplay env s offset keys) := by
  unfold retrieveAndDisplay
  apply shown_displayCurrentResult
  right
  dsimp only
  rw [retrieve_currentType]
  exact Option.some_ne_none _

/-- The first page of what a search for the key finds. -/
def firstHits (env : TermEnv) (s : SelectHandler) (key : GoString) : List AssetItem :=
  firstPage (getPageSize env) (retrieveLocal s s.viewType [key])

/-- The condition of a login without a number: the first page holds one asset, or, in
    the list of all assets, one that the key names. -/
def AutoLogin (env : TermEnv) (s : SelectHandler) (key : GoString) : Prop :=
  (firstHits env s key).length = 1 ∨
    (s.viewType = .asset ∧ trimSpace key ≠ [] ∧
      ((firstHits env s key).filter (named key)).length = 1)

instance (env : TermEnv) (s : SelectHandler) (key : GoString) : Decidable (AutoLogin env s key) :=
  inferInstanceAs (Decidable (_ ∨ _))

/-- A search that logs in leaves its first page as the current result and the screen
    as it was; any other displays that page. -/
theorem searchThenProxy_screen (env : TermEnv) (s : SelectHandler) (key : GoString)
    (screen : List AssetItem) :
    (AutoLogin env s key → (searchThenProxy env s key).1.currentResult = firstHits env s key ∧
      screenAfter screen (searchThenProxy env s key).2 = screen) ∧
    (¬ AutoLogin env s key → Shown screen (searchThenProxy env s key)) := by
  obtain ⟨s', hpage, htype, h⟩ := searchThenProxy_cases env s key
  rw [retrieve_fst] at hpage
  unfold AutoLogin firstHits
  rw [← hpage]
  rcases h with ⟨a, ha, heq⟩ | ⟨_, hview, hblank, a, ha, heq⟩ | ⟨hlen, hnone, heq⟩
  · rw [heq]
    exact ⟨fun _ => ⟨rfl, rfl⟩, fun hno => absurd (Or.inl (by rw [ha]; rfl)) hno⟩
  · rw [heq]
    exact ⟨fun _ => ⟨rfl, rfl⟩, fun hno => absurd (Or.inr ⟨hview, hblank, by rw [ha]; rfl⟩) hno⟩
  · rw [heq]
    constructor
    · rintro (h | ⟨hview, hblank, h⟩)
      · exact absurd h hlen
      · exact absurd h (hnone hview hblank)
    · intro _
      apply shown_displayCurrentResult
      right
      rw [htype]
      exact Option.some_ne_none _

theorem shown_searchThenProxy {env : TermEnv} {s : SelectHandler} {key : GoString}
    {screen : List AssetItem} (h : AutoLogin env s key → firstHits env s key <+: screen) :
    Shown screen (searchThenProxy env s key) := by
  obtain ⟨hlogin, hdisplay⟩ := searchThenProxy_screen env s key screen
  by_cases hauto : AutoLogin env s key
  · unfold Shown
    rw [(hlogin hauto).1, (hlogin hauto).2]
    exact h hauto
  · exact hdisplay hauto

/-- The condition on a step: a search that logs in without a number does so only with
    a page that the table on the screen shows from its top. -/
def LogsInShown (st : Interactive) (input : DispatchEnv × GoString) : Prop :=
  match parseLine input.1.cs st.nodes (trimSpace input.2) with
  | .searchOrProxy key =>
    pickIndex st.select.currentResult key = none → AutoLogin (st.termEnv input.1) st.select key →
      firstHits (st.termEnv input.1) st.select key <+: st.screen
  | _ => True

instance (st : Interactive) (input : DispatchEnv × GoString) :
    Decidable (LogsInShown st input) := by
  unfold LogsInShown
  split <;> infer_instance

/-- Every command of the asset list keeps the current result on the screen. -/
theorem shown_listCommand {env : TermEnv} {initialed : Bool} {s : SelectHandler}
    {screen : List AssetItem} {cmd : Command} (h : s.currentResult <+: screen)
    (hcmd : ∀ key, cmd = .searchOrProxy key → pickIndex s.currentResult key = none →
      AutoLogin env s key → firstHits env s key <+: screen) :
    Shown screen (listCommand env initialed s cmd) := by
  have hnext : Shown screen (moveNextPage env s) := by
    unfold moveNextPage
    split_ifs
    · exact shown_retrieveAndDisplay _ _ _ _ _
    · exact shown_displayCurrentResult (Or.inl h)
  cases cmd with
  | default =>
    cases initialed with
    | true => exact hnext
    | false =>
      show Shown screen (search env (setSelectType s .asset) [])
      exact shown_retrieveAndDisplay _ _ _ _ _
  | list => exact shown_retrieveAndDisplay _ _ _ _ _
  | prePage =>
    show Shown screen (movePrePage env s)
    unfold movePrePage
    split_ifs
    · exact shown_retrieveAndDisplay _ _ _ _ _
    · exact shown_displayCurrentResult (Or.inl h)
  | nextPage => exact hnext
  | search key => exact shown_retrieveAndDisplay _ _ _ _ _
  | searchAgain key => exact shown_retrieveAndDisplay _ _ _ _ _
  | node n => exact shown_retrieveAndDisplay _ _ _ _ _
  | searchOrProxy key =>
    show Shown screen (searchOrProxy env s key)
    unfold searchOrProxy
    cases hpick : pickIndex s.currentResult key with
    | some item => exact h
    | none => exact shown_searchThenProxy (hcmd key rfl hpick)
  | nodeTree | help | refresh | quit => exact h

/-- The rest of a round changes neither the current result nor the screen. -/
theorem dispatch_frame (env : DispatchEnv) (st : Interactive) (line : GoString) :
    let r := listCommand (st.termEnv env) st.initialed st.select
      (parseLine env.cs st.nodes (trimSpace line))
    (dispatch env st line).1.select.currentResult = r.1.currentResult ∧
      (dispatch env st line).1.screen = screenAfter st.screen r.2 := by
  dsimp only
  unfold dispatch
  dsimp only
  split
  · exact ⟨rfl, rfl⟩
  · exact ⟨rfl, rfl⟩
  · unfold Interactive.refresh
    cases env.db.getAllUserPermsAssets _ <;> cases env.db.getTerminalConfig <;> exact ⟨rfl, rfl⟩
  · exact ⟨rfl, rfl⟩
  · exact ⟨rfl, rfl⟩

/-- While the loop runs, the screen shows the current result. -/
def ScreenInv (st : Interactive) : Prop :=
  st.running = true → st.select.currentResult <+: st.screen

theorem step_screenInv {st st' : Interactive} {input : DispatchEnv × GoString}
    (hinv : ScreenInv st) (hG : LogsInShown st input) (h : step st input = some st') :
    ScreenInv st' := by
  unfold step at h
  split_ifs at h with hrun
  cases h
  intro _
  obtain ⟨hres, hscreen⟩ := dispatch_frame input.1 st input.2
  rw [hres, hscreen]
  refine shown_listCommand (hinv hrun) fun key hkey => ?_
  unfold LogsInShown at hG
  rw [hkey] at hG
  exact hG

theorem start_screenInv (env : DispatchEnv) (user : User) (conf : TerminalConfig) :
    ScreenInv (startDispatch env user conf) := by
  unfold startDispatch
  dsimp only
  split_ifs
  · intro h
    cases h
  · intro _
    exact List.nil_prefix

/-- From any database, for any user and any lines typed, in any terminal sizes and
    with any changes of the database in between, as long as a search logs in without
    a number only with a page that the screen shows: in every state reached, a number
    connects to the asset that the table displayed last shows with it. -/
theorem number_on_screen (env : DispatchEnv) (user : User) (conf : TerminalConfig)
    (inputs : List (DispatchEnv × GoString)) (st : Interactive)
    (hG : Meets step LogsInShown (startDispatch env user conf) inputs)
    (hrun : run step (startDispatch env user conf) inputs = some st) : NumbersOnScreen st := by
  apply numbersOnScreen_of_prefix
  have hstep : ∀ st input st', ScreenInv st → LogsInShown st input → step st input = some st' →
      ScreenInv st' := fun st input st' h hG hs => step_screenInv h hG hs
  exact run_inv hstep inputs _ st (start_screenInv env user conf) hG hrun

/-- The condition is exact: a step that does not meet it leads to a state in which some
    number connects to an asset that is not shown with it. -/
theorem not_numbersOnScreen_step {st st' : Interactive} {input : DispatchEnv × GoString}
    (hG : ¬ LogsInShown st input) (h : step st input = some st')
    (hlen : st'.select.currentResult.length ≤ maxInt) : ¬ NumbersOnScreen st' := by
  intro hnum
  apply hG
  unfold step at h
  split_ifs at h with hrun
  cases h
  unfold LogsInShown
  split
  · rename_i key hkey
    intro hpick hauto
    obtain ⟨hres, hscreen⟩ := dispatch_frame input.1 st input.2
    have hlogin := (searchThenProxy_screen (st.termEnv input.1) st.select key st.screen).1 hauto
    have hlist : listCommand (st.termEnv input.1) st.initialed st.select (.searchOrProxy key) =
        searchThenProxy (st.termEnv input.1) st.select key := by
      rw [listCommand, searchOrProxy, hpick]
    have hrun' : (dispatch input.1 st input.2).1.running = true := by
      unfold dispatch
      rw [hkey]
      exact hrun
    have hprefix := prefix_of_numbersOnScreen input.1 hrun' hlen hnum
    rw [hkey, hlist] at hres hscreen
    rw [hres, hscreen, hlogin.1, hlogin.2] at hprefix
    exact hprefix
  · trivial

/-! ### A login between two tables -/

def hostAsset (host : String) : Asset :=
  ⟨str host, str host, str host, str "10.0.0.1", [], [protocolSSH], [], true⟩

/-- Two hosts in one node, and a page that holds both. -/
def twoHosts : DispatchEnv :=
  ⟨asciiCasing, 24, insertionSorting AssetItem, insertionSorting Node,
    { asset := [hostAsset "a1", hostAsset "b1"]
      node := [⟨str "n", str "1", str "node", [str "a1", str "b1"]⟩]
      systemUser := []
      assetUserInfo := []
      terminalConf := []
      fails := fun _ => none }⟩

def nodeUser : User := ⟨str "u", str "u", [str "n"]⟩

def pageOf20 : TerminalConfig := ⟨str "20", false⟩

/-- An empty line lists `a1` and `b1`; the key `b1` logs in to the second one without
    displaying anything. Then 1 connects to `b1`, where the screen shows `a1`. -/
theorem number_not_on_screen :
    ∃ st, run step (startDispatch twoHosts nodeUser pageOf20)
        [(twoHosts, []), (twoHosts, str "b1")] = some st ∧ ¬ NumbersOnScreen st := by
  refine ⟨_, rfl, fun h => ?_⟩
  obtain ⟨a, hscreen, hproxied⟩ := h twoHosts (str "1") 1 rfl (by decide) (by decide) (by decide)
  have hshown : a = AssetItem.ofAsset (hostAsset "a1") := (Option.some.inj hscreen).symm
  have hb1 : (Outcome.proxied (AssetItem.ofAsset (hostAsset "b1"))) = .proxied a := hproxied
  rw [hshown] at hb1
  revert hb1
  decide

/-- Here the search `/b` has displayed `b1` before the key logs in to it. -/
def listedRun : List (DispatchEnv × GoString) :=
  [(twoHosts, []), (twoHosts, str "2"), (twoHosts, str "/b"), (twoHosts, str "b1")]

theorem number_on_screen_listed :
    ∃ st, run step (startDispatch twoHosts nodeUser pageOf20) listedRun = some st ∧
      NumbersOnScreen st :=
  ⟨_, rfl, number_on_screen twoHosts nodeUser pageOf20 listedRun _ (by decide) rfl⟩

end GoJump.Handler
