import GoJump.Handler.IdleCheck

/-!
# The commands of the administrator's console

`AdminSystem` (`pkg/handler/admin.go` lines 16–66) looks at the first byte of a line, then
splits the line at every single space and takes `words[1]` for the argument. The commands
and their arguments are those that `displayAdminHelp` prints (`pkg/handler/banner.go` lines
62–90), with `help`, `exit` and `quit`. Here the model of that dispatch, `parseAdmin`, is
compared with what the words of the line ask for.

* `list_without_table`: a line that is a command without its argument ends the program;
  with two spaces in front of the argument the command is executed with an empty one; and
  every line that begins with `q` ends the session.
* `parseAdmin_iff`: on which lines the console does what the words ask for.
-/

namespace GoJump.Handler

open GoJump.Go

/-! ## Specification -/

/-- The words of a line are what stands between its spaces. -/
def wordsOf (line : GoString) : List GoString := (split (trimSpace line) 32).filter (· ≠ [])

/-- A command that needs an argument is no command without it. -/
def withArgument (args : List GoString) (command : GoString → AdminCommand) : AdminCommand :=
  match args with
  | arg :: _ => command arg
  | [] => .nothing

/-- What words ask for. Words behind a complete command are ignored. -/
def requested : List GoString → AdminCommand
  | [] => .nothing
  | word :: args =>
    if word = str "list" then withArgument args .listTable
    else if word = str "ticket" then .listTable (str "PENDINGTICKET")
    else if word = str "approve" then withArgument args (.updateTicketState · true)
    else if word = str "reject" then withArgument args (.updateTicketState · false)
    else if word = str "otp" then withArgument args .genOTPassword
    else if word = str "h" ∨ word = str "help" then .help
    else if word = str "q" ∨ word = str "exit" ∨ word = str "quit" then .quit
    else .nothing

/-- The commands with an argument. -/
def argumentCommands : List GoString := [str "list", str "approve", str "reject", str "otp"]

/-- The first part of the line is no longer word with `h` or `q` in front, and behind a
    command with an argument there is one space and then the argument. -/
def PlainlyTyped (line : GoString) : Prop :=
  ∀ word args, split (trimSpace line) 32 = word :: args →
    (word.head? = some 104 → word = str "h" ∨ word = str "help") ∧
    (word.head? = some 113 → word = str "q" ∨ word = str "quit") ∧
    (word ∈ argumentCommands → ∃ arg rest, args = arg :: rest ∧ arg ≠ [])

/-! ## One line -/

/-- The first part of a line that does not begin with a space. -/
theorem split_cons {b : UInt8} (hb : b ≠ 32) (t : GoString) :
    ∃ w args, split (b :: t) 32 = (b :: w) :: args := by
  obtain ⟨w, args, hsplit⟩ := List.exists_cons_of_ne_nil (List.splitOnP_ne_nil (· == 32) t)
  refine ⟨w, args, ?_⟩
  show List.splitOnP (· == 32) (b :: t) = _
  rw [List.splitOnP_cons_eq_if_modifyHead, if_neg (by simpa using hb), hsplit, List.modifyHead_cons]

/-- `words[1]` is the argument exactly if it is there and not empty. -/
theorem withWord_eq_withArgument {command : GoString → AdminCommand}
    (hinj : Function.Injective command)
    (hne : ∀ arg, command arg ≠ .nothing ∧ command arg ≠ .outOfRange)
    (word : GoString) (args : List GoString) :
    withWord (word :: args) command = withArgument (args.filter (· ≠ [])) command ↔
      ∃ arg rest, args = arg :: rest ∧ arg ≠ [] := by
  cases args with
  | nil => simp [withWord, withArgument]
  | cons arg rest =>
    by_cases harg : arg = []
    · subst harg
      have hright : ¬ ∃ arg rest', ([] : GoString) :: rest = arg :: rest' ∧ arg ≠ [] := by
        rintro ⟨_, _, heq, hne⟩
        exact hne (List.cons.inj heq).1.symm
      refine iff_of_false ?_ hright
      rw [List.filter_cons_of_neg (by simp)]
      show command [] ≠ _
      cases hrest : rest.filter (· ≠ []) with
      | nil => exact (hne []).1
      | cons arg' rest' =>
        have harg' : arg' ∈ rest.filter (· ≠ []) := by rw [hrest]; simp
        intro heq
        rw [← hinj heq] at harg'
        simpa using List.of_mem_filter harg'
    · refine iff_of_true ?_ ⟨arg, rest, rfl, harg⟩
      rw [List.filter_cons_of_pos (by simpa using harg)]
      rfl

section Word

variable {line t w : GoString} {b : UInt8} {args : List GoString}

/-- The dispatch on a line with this first word. -/
theorem parseAdmin_eq (hline : trimSpace line = b :: t)
    (hsplit : split (b :: t) 32 = (b :: w) :: args) :
    parseAdmin line =
      if b = 104 then .help
      else if b = 113 then .quit
      else if b :: w = str "list" then withWord ((b :: w) :: args) .listTable
      else if b :: w = str "ticket" then .listTable (str "PENDINGTICKET")
      else if b :: w = str "approve" then withWord ((b :: w) :: args) (.updateTicketState · true)
      else if b :: w = str "reject" then withWord ((b :: w) :: args) (.updateTicketState · false)
      else if b :: w = str "otp" then withWord ((b :: w) :: args) .genOTPassword
      else if b :: w = str "help" then .help
      else if b :: w = str "exit" ∨ b :: w = str "quit" then .quit
      else .nothing := by
  unfold parseAdmin
  rw [hline]
  split
  · cases ‹_ = []›
  · rename_i heq
    rw [if_pos (List.cons.inj heq).1]
  · rename_i heq
    rw [if_neg (by rw [(List.cons.inj heq).1]; decide), if_pos (List.cons.inj heq).1]
  · rename_i hh hq
    have hb : b ≠ 104 := fun hb => hh t (by rw [hb])
    have hb' : b ≠ 113 := fun hb => hq t (by rw [hb])
    rw [hsplit]
    exact ((if_neg hb).trans (if_neg hb')).symm

theorem requested_h : requested ((104 :: w) :: args) =
    if 104 :: w = str "h" ∨ 104 :: w = str "help" then .help else .nothing := by
  simp [requested, str]

theorem requested_q : requested ((113 :: w) :: args) =
    if 113 :: w = str "q" ∨ 113 :: w = str "quit" then .quit else .nothing := by
  simp [requested, str]

/-- `words[1]` of a command with an argument. -/
theorem withWord_iff {command : GoString → AdminCommand} (hinj : Function.Injective command)
    (hne : ∀ arg, command arg ≠ .nothing ∧ command arg ≠ .outOfRange)
    (hmem : b :: w ∈ argumentCommands) :
    withWord ((b :: w) :: args) command = withArgument (args.filter (· ≠ [])) command ↔
      (b :: w ∈ argumentCommands → ∃ arg rest, args = arg :: rest ∧ arg ≠ []) :=
  (withWord_eq_withArgument hinj hne _ _).trans ⟨fun h _ => h, fun h => h hmem⟩

/-- On a word that begins with another letter than `h` and `q` the dispatch is that of the
    words, except for the argument. -/
theorem parseAdmin_word_iff (hline : trimSpace line = b :: t)
    (hsplit : split (b :: t) 32 = (b :: w) :: args) (hh : b ≠ 104) (hq : b ≠ 113) :
    parseAdmin line = requested ((b :: w) :: args.filter (· ≠ [])) ↔
      (b :: w ∈ argumentCommands → ∃ arg rest, args = arg :: rest ∧ arg ≠ []) := by
  have hno : ∀ c : UInt8, b ≠ c → ∀ s : GoString, b :: w ≠ c :: s := fun c hc s h =>
    hc (List.cons.inj h).1
  rw [parseAdmin_eq hline hsplit, if_neg hh, if_neg hq, requested]
  by_cases h1 : b :: w = str "list"
  · rw [if_pos h1, if_pos h1]
    exact withWord_iff (fun _ _ h => AdminCommand.listTable.inj h) (by simp) (by rw [h1]; decide)
  by_cases h2 : b :: w = str "ticket"
  · rw [if_neg h1, if_neg h1, if_pos h2, if_pos h2]
    exact iff_of_true rfl fun h => absurd (h2 ▸ h) (by decide)
  by_cases h3 : b :: w = str "approve"
  · rw [if_neg h1, if_neg h1, if_neg h2, if_neg h2, if_pos h3, if_pos h3]
    exact withWord_iff (fun _ _ h => (AdminCommand.updateTicketState.inj h).1) (by simp)
      (by rw [h3]; decide)
  by_cases h4 : b :: w = str "reject"
  · rw [if_neg h1, if_neg h1, if_neg h2, if_neg h2, if_neg h3, if_neg h3, if_pos h4, if_pos h4]
    exact withWord_iff (fun _ _ h => (AdminCommand.updateTicketState.inj h).1) (by simp)
      (by rw [h4]; decide)
  by_cases h5 : b :: w = str "otp"
  · rw [if_neg h1, if_neg h1, if_neg h2, if_neg h2, if_neg h3, if_neg h3, if_neg h4, if_neg h4,
      if_pos h5, if_pos h5]
    exact withWord_iff (fun _ _ h => AdminCommand.genOTPassword.inj h) (by simp)
      (by rw [h5]; decide)
  · have hargs : b :: w ∉ argumentCommands := by
      simp [argumentCommands, h1, h3, h4, h5]
    refine iff_of_true ?_ fun h => absurd h hargs
    have hletter : b :: w ≠ str "h" ∧ b :: w ≠ str "help" ∧ b :: w ≠ str "q" ∧
        b :: w ≠ str "quit" := ⟨hno 104 hh _, hno 104 hh _, hno 113 hq _, hno 113 hq _⟩
    simp only [h1, h2, h3, h4, h5, hletter, if_false, false_or, or_false]

end Word

/-- On every line the console does what the words of the line ask for, exactly if the line
    is plainly typed. It then executes at most one command, one with an argument only with
    a word of the line, ignores a line that names no complete command, and never indexes
    past the words. -/
theorem parseAdmin_iff (line : GoString) :
    parseAdmin line = requested (wordsOf line) ↔ PlainlyTyped line := by
  cases hline : trimSpace line with
  | nil =>
    have hparse : parseAdmin line = .nothing := by rw [parseAdmin, hline]
    have hwords : requested (wordsOf line) = .nothing := by rw [wordsOf, hline]; rfl
    refine iff_of_true (by rw [hparse, hwords]) ?_
    intro word args hsplit
    rw [hline] at hsplit
    obtain ⟨rfl, rfl⟩ := List.cons.inj (show [] :: [] = word :: args from hsplit)
    exact ⟨fun h => (by cases h), fun h => (by cases h), fun h => absurd h (by decide)⟩
  | cons b t =>
    have hspace : b ≠ 32 := fun hb => head_trimSpace hline (by rw [hb]; decide)
    obtain ⟨w, args, hsplit⟩ := split_cons hspace t
    have htyped : PlainlyTyped line ↔
        (b = 104 → b :: w = str "h" ∨ b :: w = str "help") ∧
        (b = 113 → b :: w = str "q" ∨ b :: w = str "quit") ∧
        (b :: w ∈ argumentCommands → ∃ arg rest, args = arg :: rest ∧ arg ≠ []) := by
      unfold PlainlyTyped
      rw [hline, hsplit]
      constructor
      · intro h
        simpa using h _ _ rfl
      · rintro h word args' heq
        obtain ⟨rfl, rfl⟩ := List.cons.inj heq
        simpa using h
    have hwords : wordsOf line = (b :: w) :: args.filter (· ≠ []) := by
      rw [wordsOf, hline, hsplit, List.filter_cons_of_pos (by simp)]
    have hargs : b = 104 ∨ b = 113 → b :: w ∉ argumentCommands := by
      rintro (rfl | rfl) <;> simp [argumentCommands, str]
    rw [htyped, hwords]
    by_cases hh : b = 104
    · subst hh
      rw [parseAdmin_eq hline hsplit, if_pos rfl, requested_h]
      split_ifs with hw
      · exact iff_of_true rfl
          ⟨fun _ => hw, fun h => absurd h (by decide), fun h => absurd h (hargs (Or.inl rfl))⟩
      · exact iff_of_false (by decide) fun h => hw (h.1 rfl)
    by_cases hq : b = 113
    · subst hq
      rw [parseAdmin_eq hline hsplit, if_neg hh, if_pos rfl, requested_q]
      split_ifs with hw
      · exact iff_of_true rfl
          ⟨fun h => absurd h hh, fun _ => hw, fun h => absurd h (hargs (Or.inr rfl))⟩
      · exact iff_of_false (by decide) fun h => hw (h.2.1 rfl)
    · rw [parseAdmin_word_iff hline hsplit hh hq]
      simp only [hh, hq, false_imp_iff, true_and]

/-- `list` without a table is an index out of range, `approve` with two spaces decides the
    ticket with the empty id, and `query` is taken for `q`. -/
theorem list_without_table :
    (parseAdmin (str "list") = .outOfRange ∧ requested (wordsOf (str "list")) = .nothing) ∧
    (parseAdmin (str "approve  7") = .updateTicketState [] true ∧
      requested (wordsOf (str "approve  7")) = .updateTicketState (str "7") true) ∧
    parseAdmin (str "query") = .quit ∧ requested (wordsOf (str "query")) = .nothing := by
  decide

end GoJump.Handler
