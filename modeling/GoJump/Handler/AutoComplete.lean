import GoJump.Common.Completion
import GoJump.Common.Screen
import GoJump.Go.Sort
import GoJump.Handler.SelectHandler

/-!
# Completing a host name with Tab

Model of `AutoCompletion` (`pkg/handler/selectHandler.go`, lines 50–82): the callback of the
terminal lists the host names that begin with what has been typed, and replaces the line by
their longest common prefix. The listing is written to the terminal, so that a fault of
`Pretty` is one of the key.

* `handleKey_tab`: the line after Tab.
* `tab_sound_iff`: when Tab completes the line as far as the host names agree.
* `tab_unsound`: a narrow terminal, host names that share a part of a character, and an empty
  line.
-/

namespace GoJump.Handler

open GoJump.Go GoJump.Lib GoJump.Core GoJump.Common

/-! ## The callback -/

/-- The callback (lines 64–81). Only the key Tab completes, and only what has been typed. -/
def completeHost (suggests : List GoString) : AutoCompleteCallback := fun t line _ key =>
  if key = 9 then
    let termWidth := t.display.termWidth
    if 1 ≤ line.length then
      let sugs := filterPrefix suggests line
      if 1 ≤ sugs.length then do
        let commonPrefix ← longestCommonPrefix sugs
        let listing ← pretty sugs termWidth
        let t ← t.write (str "[Host]> " ++ line ++ [10] ++ listing ++ [10])
        return (t, some (commonPrefix, commonPrefix.length))
      else some (t, none)
    else some (t, none)
  else some (t, none)

/-- The callback for these host names, which are sorted (lines 51–63). -/
def hostCompletion (sorting : Sorting GoString) (hostnames : List GoString) :
    AutoCompleteCallback :=
  completeHost (sorting.sort compareString hostnames)

/-- `AutoCompletion` (lines 50–82): the assets of the handler. -/
def autoCompletion (sorting : Sorting GoString) (s : SelectHandler) : AutoCompleteCallback :=
  hostCompletion sorting ((retrieve s 0 0 [[]]).1.map (·.hostname))

/-- `SetSelectType` sets it for all the assets of the user. -/
theorem autoCompletion_setSelectType (sorting : Sorting GoString) (s : SelectHandler) :
    autoCompletion sorting (setSelectType s .asset) =
      hostCompletion sorting (s.allLocalData.map (·.hostname)) := by
  have hall : ∀ item : AssetItem, containKeys item [[]] = true := fun item => if_pos (Or.inr rfl)
  have hretrieve : (retrieve (setSelectType s .asset) 0 0 [[]]).1 =
      (s.allLocalData.filter (containKeys · [[]])).take
        (s.allLocalData.filter (containKeys · [[]])).length := rfl
  rw [autoCompletion, hretrieve, List.take_length, List.filter_eq_self.mpr fun item _ => hall item]

/-- The string that `ReadLine` would return. -/
def lineText (t : Screen) : GoString := ofRunes t.line.elems

/-! ## What completion is for -/

/-- The line is as long as the host names that begin with `typed` agree. -/
structure Completed (hostnames : List GoString) (typed : GoString) (t : Screen) : Prop where
  starts : typed <+: lineText t
  common : ∀ h ∈ hostnames, typed <+: h → lineText t <+: h
  longest : ∀ q : GoString, (∀ h ∈ hostnames, typed <+: h → q <+: h) →
    q.length ≤ (lineText t).length
  atEnd : t.pos = t.line.len

/-- The key Tab completes the line, and once more it changes nothing. -/
def TabSound (callback : AutoCompleteCallback) (hostnames : List GoString) (t : Screen) : Prop :=
  ∃ t₁ t₂, t.handleKey (some callback) 9 = some (t₁, none) ∧ Completed hostnames (lineText t) t₁ ∧
    t₁.handleKey (some callback) 9 = some (t₂, none) ∧ t₂.line.elems = t₁.line.elems

/-- There is no paste in progress; the listing fits, unless there is a single host name; the
    host names agree on whole characters; from an empty line there is nothing to complete. -/
structure Completable (hostnames : List GoString) (t : Screen) : Prop where
  noPaste : t.pasteActive = false
  fits : lineText t ≠ [] → (filterPrefix hostnames (lineText t)).length ≤ 1 ∨
    columnWidth (filterPrefix hostnames (lineText t)) ≤ t.display.termWidth
  agree : ∃ p, LongestCommon (filterPrefix hostnames (lineText t)) p ∧
    (if lineText t = [] then p = [] else utf8Valid p = true)

/-! ## The key Tab -/

section Tab

variable {w : ℕ} {t : Screen} {sorting : Sorting GoString} {hostnames : List GoString}
    {p : GoString}

/-- Outside of a paste the callback gets the whole line. -/
theorem handleKey_tab_eq (hpos : t.pos ≤ t.line.len) (hpaste : t.pasteActive = false)
    (callback : AutoCompleteCallback) :
    ∃ n, t.handleKey (some callback) 9 = (do
      match ← callback t (lineText t) n 9 with
      | (t, some (newLine, newPos)) =>
        if newPos ≤ newLine.length then
          t.setLine (Slice.ofList (runes newLine)) (runes (newLine.take newPos)).length
        else none
      | (t, none) => t.typeKey 9).map (·, none) := by
  obtain ⟨before, hbefore, helems⟩ := Slice.upTo_spec hpos
  refine ⟨(ofRunes before.elems).length, ?_⟩
  have hline : ofRunes before.elems ++ ofRunes (t.line.elems.drop t.pos) = lineText t := by
    rw [helems, ← ofRunes_append, List.take_append_drop, lineText]
  rw [Screen.handleKey, keyCase_of_typed hpaste]
  show (Screen.otherKey (some callback) t 9).map (·, none) = _
  rw [Screen.otherKey, hbefore, Slice.after_spec hpos, ← hline]
  rfl

/-- An empty line stays as it is. -/
theorem handleKey_tab_empty (hpos : t.pos ≤ t.line.len) (hpaste : t.pasteActive = false)
    (hempty : lineText t = []) (suggests : List GoString) :
    t.handleKey (some (completeHost suggests)) 9 = some (t, none) := by
  obtain ⟨n, heq⟩ := handleKey_tab_eq hpos hpaste (completeHost suggests)
  rw [heq, hempty]
  rfl

/-- With host names to complete to, all that can fail is the listing. -/
theorem completeHost_tab {suggests : List GoString} {line : GoString} (hne : line ≠ [])
    (hsugs : filterPrefix suggests line ≠ []) (n : ℕ) :
    ∃ p, LongestCommon (filterPrefix suggests line) p ∧ completeHost suggests t line n 9 = (do
      let listing ← pretty (filterPrefix suggests line) t.display.termWidth
      let t ← t.write (str "[Host]> " ++ line ++ [10] ++ listing ++ [10])
      return (t, some (p, p.length))) := by
  obtain ⟨p, hp, hcommon⟩ := longestCommonPrefix_spec hsugs
  refine ⟨p, hcommon, ?_⟩
  unfold completeHost
  have hline : 1 ≤ line.length := List.length_pos_of_ne_nil hne
  have hlen : 1 ≤ (filterPrefix suggests line).length := List.length_pos_of_ne_nil hsugs
  dsimp only
  rw [if_pos rfl, if_pos hline, if_pos hlen, hp]
  rfl

/-- Several host names on a terminal that is narrower than a column: division by zero. -/
theorem handleKey_tab_narrow (hpos : t.pos ≤ t.line.len) (hpaste : t.pasteActive = false)
    (hne : lineText t ≠ [])
    (hnarrow : ¬ ((filterPrefix hostnames (lineText t)).length ≤ 1 ∨
      columnWidth (filterPrefix hostnames (lineText t)) ≤ t.display.termWidth)) :
    t.handleKey (some (hostCompletion sorting hostnames)) 9 = none := by
  obtain ⟨n, heq⟩ := handleKey_tab_eq hpos hpaste (hostCompletion sorting hostnames)
  have hperm := perm_filterPrefix (sorting.perm compareString hostnames) (lineText t)
  rw [← hperm.length_eq, ← columnWidth_perm hperm] at hnarrow
  have hsugs : filterPrefix (sorting.sort compareString hostnames) (lineText t) ≠ [] := by
    intro hnil
    rw [hnil] at hnarrow
    exact hnarrow (Or.inl (Nat.zero_le _))
  rw [← isSome_pretty, Bool.not_eq_true, Option.isSome_eq_false_iff,
    Option.isNone_iff_eq_none] at hnarrow
  obtain ⟨p, -, hcallback⟩ := completeHost_tab (t := t) hne hsugs n
  rw [heq, hostCompletion, hcallback, hnarrow]
  rfl

/-- The line after Tab. -/
theorem handleKey_tab (sorting : Sorting GoString) (hok : t.display.Within w)
    (hpos : t.pos ≤ t.line.len) (hpaste : t.pasteActive = false) (hne : lineText t ≠ [])
    (hhost : ∃ h ∈ hostnames, lineText t <+: h)
    (hfits : (filterPrefix hostnames (lineText t)).length ≤ 1 ∨
      columnWidth (filterPrefix hostnames (lineText t)) ≤ t.display.termWidth)
    (hp : LongestCommon (filterPrefix hostnames (lineText t)) p) :
    Returns (t.handleKey (some (hostCompletion sorting hostnames)) 9) fun r =>
      r.2 = none ∧ Screen.Edits w t (runes p) (runes p).length r.1 := by
  obtain ⟨n, heq⟩ := handleKey_tab_eq hpos hpaste (hostCompletion sorting hostnames)
  have hperm := perm_filterPrefix (sorting.perm compareString hostnames) (lineText t)
  rw [← hperm.length_eq, ← columnWidth_perm hperm, ← isSome_pretty,
    Option.isSome_iff_exists] at hfits
  obtain ⟨listing, hlisting⟩ := hfits
  have hsugs : filterPrefix (sorting.sort compareString hostnames) (lineText t) ≠ [] := by
    obtain ⟨h, hmem, hpre⟩ := hhost
    exact List.ne_nil_of_mem (hperm.mem_iff.mpr (mem_filterPrefix.mpr ⟨hmem, hpre⟩))
  obtain ⟨q, hq, hcallback⟩ := completeHost_tab (t := t) hne hsugs n
  obtain rfl : q = p := hq.unique (hp.of_mem_iff fun s => hperm.mem_iff.symm)
  rw [heq, hostCompletion, hcallback, hlisting]
  obtain ⟨t₁, hwrite, hpaint⟩ :=
    Screen.write_returns hok (str "[Host]> " ++ lineText t ++ [10] ++ listing ++ [10])
  have hset := Screen.setLine_returns hpaint.ok (Slice.ofList (runes q)) (runes q).length
  rw [Slice.elems_ofList] at hset
  dsimp only [bind, Option.bind]
  rw [hwrite]
  dsimp only [pure]
  rw [if_pos le_rfl, List.take_length]
  refine hset.map fun t₂ h₂ => ⟨rfl, ?_⟩
  exact hpaint.edits.trans h₂.toEdits

/-- In a paste Tab is a character like any other. -/
theorem handleKey_tab_paste (hok : t.display.Within w) (hpos : t.pos ≤ t.line.len)
    (hpaste : t.pasteActive = true) (callback : Option AutoCompleteCallback) :
    Returns (t.handleKey callback 9) fun r => r.1.display.Within w ∧ r.1.pos ≤ r.1.line.len ∧
      r.1.pasteActive = true ∧ r.1.line.len = t.line.len + 1 := by
  rw [Screen.handleKey, keyCase_of_pasted ⟨hpaste, by decide⟩]
  refine (Screen.addKeyToLine_returns hok hpos 9).map fun t₁ h₁ => ⟨h₁.ok, ?_, ?_, ?_⟩
  · rw [h₁.pos_eq, h₁.len_eq, List.length_append, List.length_take, List.length_cons,
      List.length_drop, Slice.length_elems]
    omega
  · rw [h₁.eq]
    exact hpaste
  · rw [h₁.len_eq, List.length_append, List.length_take, List.length_cons, List.length_drop,
      Slice.length_elems]
    omega

/-! ## When it completes -/

/-- The line after Tab, as a string. -/
theorem lineText_of_edits {t₁ : Screen} {pos : ℕ} (h : Screen.Edits w t (runes p) pos t₁) :
    lineText t₁ = toValidUTF8 p := by
  rw [lineText, h.line_eq, ofRunes_runes]

/-- The host names that begin with the longest common prefix are those that begin with what
    has been typed. -/
theorem filterPrefix_of_longestCommon {typed : GoString}
    (hp : LongestCommon (filterPrefix hostnames typed) p)
    (htyped : typed <+: p) : filterPrefix hostnames p = filterPrefix hostnames typed := by
  rw [filterPrefix_eq, filterPrefix_eq]
  refine List.filter_congr fun v hv => decide_eq_decide.mpr ⟨htyped.trans, fun hpre => ?_⟩
  exact hp.common v (mem_filterPrefix.mpr ⟨hv, hpre⟩)

theorem tabSound_of_completable (hok : t.display.Within w) (hpos : t.pos ≤ t.line.len)
    (hhost : ∃ h ∈ hostnames, lineText t <+: h) (h : Completable hostnames t) :
    TabSound (hostCompletion sorting hostnames) hostnames t := by
  obtain ⟨hpaste, hfits, p, hp, hagree⟩ := h
  have hlongest : ∀ q : GoString, (∀ h ∈ hostnames, lineText t <+: h → q <+: h) → q <+: p :=
    fun q hq => hp.longest q fun s hs => hq s (mem_filterPrefix.mp hs).1 (mem_filterPrefix.mp hs).2
  by_cases hempty : lineText t = []
  · rw [if_pos hempty] at hagree
    have hstay := handleKey_tab_empty hpos hpaste hempty (sorting.sort compareString hostnames)
    have hnil : t.line.len = 0 := by
      rw [← Slice.length_elems, ofRunes_eq_nil hempty, List.length_nil]
    refine ⟨t, t, hstay, ⟨List.prefix_rfl, fun h _ hpre => hpre, fun q hq => ?_, by omega⟩, hstay,
      rfl⟩
    rw [hempty, ← hagree]
    exact (hlongest q hq).length_le
  · rw [if_neg hempty] at hagree
    have htyped : lineText t <+: p := hlongest _ fun _ _ hpre => hpre
    obtain ⟨⟨t₁, out⟩, hfirst, rfl, hedit⟩ :=
      handleKey_tab sorting hok hpos hpaste hempty hhost (hfits hempty) hp
    replace hedit : Screen.Edits w t (runes p) (runes p).length t₁ := hedit
    have htext : lineText t₁ = p := (lineText_of_edits hedit).trans (toValidUTF8_eq_iff.mpr hagree)
    have hend : t₁.pos = t₁.line.len := by rw [hedit.pos_eq, hedit.len_eq]
    have hpaste₁ : t₁.pasteActive = false := by
      rw [hedit.eq]
      exact hpaste
    -- the second time the same host names are found
    have hsame := filterPrefix_of_longestCommon hp htyped
    have hwidth : t₁.display.termWidth = t.display.termWidth := by
      rw [hedit.ok.width_eq, hok.width_eq]
    have hagain : Returns (t₁.handleKey (some (hostCompletion sorting hostnames)) 9) fun r =>
        r.2 = none ∧ Screen.Edits w t₁ (runes p) (runes p).length r.1 := by
      refine handleKey_tab sorting hedit.ok hend.le hpaste₁ ?_ ?_ ?_ ?_
      · rw [htext]
        rintro rfl
        exact hempty (List.prefix_nil.mp htyped)
      · obtain ⟨h, hmem, hpre⟩ := hhost
        rw [htext]
        exact ⟨h, hmem, hp.common h (mem_filterPrefix.mpr ⟨hmem, hpre⟩)⟩
      · rw [htext, hsame, hwidth]
        exact hfits hempty
      · rw [htext, hsame]
        exact hp
    obtain ⟨⟨t₂, out₂⟩, hsecond, rfl, hedit₂⟩ := hagain
    refine ⟨t₁, t₂, hfirst, ⟨?_, fun h hmem hpre => ?_, fun q hq => ?_, hend⟩, hsecond, ?_⟩
    · rw [htext]
      exact htyped
    · rw [htext]
      exact hp.common h (mem_filterPrefix.mpr ⟨hmem, hpre⟩)
    · rw [htext]
      exact (hlongest q hq).length_le
    · rw [hedit₂.line_eq, hedit.line_eq]

theorem completable_of_tabSound (hok : t.display.Within w) (hpos : t.pos ≤ t.line.len)
    (hhost : ∃ h ∈ hostnames, lineText t <+: h)
    (h : TabSound (hostCompletion sorting hostnames) hostnames t) : Completable hostnames t := by
  obtain ⟨t₁, t₂, hfirst, hcompleted, hsecond, hline⟩ := h
  have hpaste : t.pasteActive = false := by
    rw [← Bool.not_eq_true]
    intro hactive
    -- the second Tab is inserted too
    obtain ⟨r₁, hr₁, hok₁, hpos₁, hactive₁, -⟩ := handleKey_tab_paste hok hpos hactive
      (some (hostCompletion sorting hostnames))
    rw [hfirst] at hr₁
    cases hr₁
    obtain ⟨r₂, hr₂, -, -, -, hlen₂⟩ := handleKey_tab_paste hok₁ hpos₁ hactive₁
      (some (hostCompletion sorting hostnames))
    rw [hsecond] at hr₂
    cases hr₂
    have hlen : t₂.line.len = t₁.line.len := by rw [← Slice.length_elems, hline, Slice.length_elems]
    exact Nat.succ_ne_self _ (hlen₂.symm.trans hlen)
  have hfits : lineText t ≠ [] → (filterPrefix hostnames (lineText t)).length ≤ 1 ∨
      columnWidth (filterPrefix hostnames (lineText t)) ≤ t.display.termWidth := by
    intro hne
    by_contra hnarrow
    rw [handleKey_tab_narrow hpos hpaste hne hnarrow] at hfirst
    cases hfirst
  have hsome : filterPrefix hostnames (lineText t) ≠ [] := by
    obtain ⟨h, hmem, hpre⟩ := hhost
    exact List.ne_nil_of_mem (mem_filterPrefix.mpr ⟨hmem, hpre⟩)
  obtain ⟨p, -, hp⟩ := longestCommonPrefix_spec hsome
  have hle : p.length ≤ (lineText t₁).length :=
    hcompleted.longest p fun h hmem hpre => hp.common h (mem_filterPrefix.mpr ⟨hmem, hpre⟩)
  refine ⟨hpaste, hfits, p, hp, ?_⟩
  by_cases hempty : lineText t = []
  · rw [if_pos hempty]
    rw [hostCompletion, handleKey_tab_empty hpos hpaste hempty] at hfirst
    cases hfirst
    rw [hempty] at hle
    exact List.length_eq_zero_iff.mp (Nat.le_zero.mp hle)
  · rw [if_neg hempty]
    obtain ⟨r, hr, -, hedit⟩ :=
      handleKey_tab sorting hok hpos hpaste hempty hhost (hfits hempty) hp
    rw [hfirst] at hr
    cases hr
    have hpre : lineText t₁ <+: p := hp.longest _ fun s hs =>
      hcompleted.common s (mem_filterPrefix.mp hs).1 (mem_filterPrefix.mp hs).2
    rw [← toValidUTF8_eq_iff, ← lineText_of_edits hedit]
    exact hpre.eq_of_length_le hle

end Tab

/-- Tab completes exactly if there is no paste in progress, the listing fits, the host names
    agree on whole characters, and an empty line has nothing to be completed to. -/
theorem tab_sound_iff (sorting : Sorting GoString) (hostnames : List GoString) (t : Screen)
    (hwidth : 0 < t.display.termWidth) (hcursor : t.display.cursorX < t.display.termWidth)
    (hpos : t.pos ≤ t.line.len) (hhost : ∃ h ∈ hostnames, lineText t <+: h) :
    TabSound (hostCompletion sorting hostnames) hostnames t ↔ Completable hostnames t :=
  ⟨completable_of_tabSound ⟨rfl, hwidth, hcursor⟩ hpos hhost,
    tabSound_of_completable ⟨rfl, hwidth, hcursor⟩ hpos hhost⟩

/-- A terminal of this width on which this line has been typed behind the prompt. -/
def typing (width : ℕ) (line : GoString) : Screen :=
  let column := 8 + (runes line).length
  { Screen.new (str "[Host]> ") with
    display := ⟨width, 24, column % width, column / width, column / width, [], []⟩
    line := Slice.ofList (runes line)
    pos := (runes line).length }

theorem tab_sound_web :
    TabSound (hostCompletion (insertionSorting _) [str "web2", str "db", str "web1"])
      [str "web2", str "db", str "web1"] (typing 80 (str "w")) := by
  refine (tab_sound_iff _ _ _ (by decide) (by decide) (by decide)
    ⟨str "web1", by decide, by decide⟩).mpr ⟨rfl, fun _ => by decide, ?_⟩
  have hne : filterPrefix [str "web2", str "db", str "web1"] (lineText (typing 80 (str "w"))) ≠
      [] := by
    decide
  obtain ⟨p, hp, hcommon⟩ := longestCommonPrefix_spec hne
  obtain rfl : str "web" = p := Option.some_injective _ (Eq.trans (by decide) hp)
  exact ⟨_, hcommon, by decide⟩

/-- A terminal that is narrower than a column, host names with a part of a character in
    common (é and è have the first of two bytes in common), and an empty line. -/
theorem tab_unsound :
    (typing 7 (str "w")).handleKey (some (hostCompletion (insertionSorting _)
        [str "web1", str "web2"])) 9 = none ∧
      ((typing 80 (str "h")).handleKey (some (hostCompletion (insertionSorting _)
        [[104, 0xC3, 0xA9], [104, 0xC3, 0xA8]])) 9).map (fun r => lineText r.1) =
          some (104 :: replacement) ∧
      ((typing 80 []).handleKey (some (hostCompletion (insertionSorting _) [str "web1"])) 9).map
        (fun r => lineText r.1) = some [] := by
  refine ⟨?_, ?_, ?_⟩
  · decide
  · decide
  · decide

end GoJump.Handler
