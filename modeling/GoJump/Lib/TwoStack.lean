import Mathlib

/-!
# The editor with two stacks

The text before the cursor is a stack with its nearest element on top, and so is the text
behind the cursor. Every command works on the tops of the stacks, or empties one of them.

An editor that keeps the text as a list and the cursor as a position in it has the stacks
`TwoStack.ofList`; the lemmas say which list and position each command leads to.
-/

namespace GoJump.Lib

variable {α : Type*}

/-- What stands before the cursor, the nearest first, and what stands behind it. -/
structure TwoStack (α : Type*) where
  before : List α
  after : List α
  deriving DecidableEq

/-- The commands. `cancel` gives up the text, `enter` delivers it. -/
inductive EditCommand (α : Type*)
  | insert (a : α)
  | left
  | right
  | home
  | toEnd
  | backspace
  | delete
  | clearBefore
  | clearAfter
  | stay
  | cancel
  | enter

namespace TwoStack

/-- The whole text. -/
def text (z : TwoStack α) : List α := z.before.reverse ++ z.after

/-- One command, and the text if it is delivered. -/
def step (z : TwoStack α) : EditCommand α → TwoStack α × Option (List α)
  | .insert a => (⟨a :: z.before, z.after⟩, none)
  | .left => (match z.before with
    | [] => z
    | a :: before => ⟨before, a :: z.after⟩, none)
  | .right => (match z.after with
    | [] => z
    | a :: after => ⟨a :: z.before, after⟩, none)
  | .home => (⟨[], z.text⟩, none)
  | .toEnd => (⟨z.text.reverse, []⟩, none)
  | .backspace => (⟨z.before.tail, z.after⟩, none)
  | .delete => (⟨z.before, z.after.tail⟩, none)
  | .clearBefore => (⟨[], z.after⟩, none)
  | .clearAfter => (⟨z.before, []⟩, none)
  | .stay => (z, none)
  | .cancel => (⟨[], []⟩, some [])
  | .enter => (⟨[], []⟩, some z.text)

/-- The stacks of a text with the cursor before the element at `pos`. -/
def ofList (l : List α) (pos : ℕ) : TwoStack α := ⟨(l.take pos).reverse, l.drop pos⟩

variable {l : List α} {pos : ℕ}

theorem text_ofList : (ofList l pos).text = l := by
  rw [text, ofList, List.reverse_reverse, List.take_append_drop]

theorem before_succ (h : pos < l.length) :
    (l.take (pos + 1)).reverse = l[pos] :: (l.take pos).reverse := by
  rw [List.take_add_one, List.getElem?_eq_getElem h, List.reverse_append]
  rfl

theorem ofList_insert (h : pos ≤ l.length) (a : α) :
    ofList (l.take pos ++ a :: l.drop pos) (pos + 1) = ((ofList l pos).step (.insert a)).1 := by
  have hlen : (l.take pos).length = pos := List.length_take_of_le h
  have htake : (l.take pos ++ a :: l.drop pos).take (pos + 1) = l.take pos ++ [a] := by
    rw [List.take_append, hlen, List.take_of_length_le (by omega), Nat.add_sub_cancel_left]
    rfl
  have hdrop : (l.take pos ++ a :: l.drop pos).drop (pos + 1) = l.drop pos := by
    rw [List.drop_append, hlen, List.drop_eq_nil_of_le (by omega), Nat.add_sub_cancel_left]
    rfl
  rw [ofList, htake, hdrop, List.reverse_concat]
  rfl

theorem ofList_left (h : pos ≤ l.length) :
    ofList l (pos - 1) = ((ofList l pos).step .left).1 := by
  cases pos with
  | zero => rfl
  | succ pos =>
    simp only [ofList, step, before_succ h, Nat.add_sub_cancel]
    rw [List.drop_eq_getElem_cons h]

theorem ofList_right (h : pos < l.length) :
    ofList l (pos + 1) = ((ofList l pos).step .right).1 := by
  simp only [ofList, step, List.drop_eq_getElem_cons h, before_succ h]

theorem right_of_length (h : l.length ≤ pos) : ((ofList l pos).step .right).1 = ofList l pos := by
  simp only [ofList, step, List.drop_eq_nil_of_le h]

theorem ofList_home : ofList l 0 = ((ofList l pos).step .home).1 := by
  rw [step, text_ofList]
  rfl

theorem ofList_toEnd : ofList l l.length = ((ofList l pos).step .toEnd).1 := by
  rw [step, text_ofList, ofList, List.take_length, List.drop_length]

/-- The elements between two positions cut out, with the cursor in their place. -/
theorem ofList_cut {m : ℕ} (h : m ≤ pos) (hpos : pos ≤ l.length) :
    ofList (l.take m ++ l.drop pos) m = ⟨(l.take m).reverse, l.drop pos⟩ := by
  have hlen : (l.take m).length = m := List.length_take_of_le (h.trans hpos)
  rw [ofList, List.take_left' hlen, List.drop_left' hlen]

theorem ofList_backspace (h : pos ≤ l.length) :
    ofList (l.take (pos - 1) ++ l.drop pos) (pos - 1) = ((ofList l pos).step .backspace).1 := by
  rw [ofList_cut (Nat.sub_le _ _) h]
  simp only [step, ofList]
  congr 1
  cases pos with
  | zero => rfl
  | succ pos =>
    rw [Nat.add_sub_cancel, before_succ h, List.tail_cons]

theorem ofList_delete (h : pos < l.length) :
    ofList (l.take pos ++ l.drop (pos + 1)) pos = ((ofList l pos).step .delete).1 := by
  rw [ofList_cut (Nat.le_succ _) h]
  simp only [step, ofList, List.tail_drop]

theorem delete_of_length (h : l.length ≤ pos) : ((ofList l pos).step .delete).1 = ofList l pos := by
  simp only [ofList, step, List.drop_eq_nil_of_le h, List.tail_nil]

theorem ofList_clearBefore : ofList (l.drop pos) 0 = ((ofList l pos).step .clearBefore).1 := rfl

theorem ofList_clearAfter :
    ofList (l.take pos) pos = ((ofList l pos).step .clearAfter).1 := by
  simp only [ofList, step, List.take_take, min_self, List.drop_take, Nat.sub_self, List.take_zero]

end TwoStack

end GoJump.Lib
