import GoJump.Go.Json

/-!
# The replay of a session

Model of `ReplyRecorder.Record` (`pkg/proxy/record.go` lines 87–101) over `AsciiWriter`
(`pkg/common/asciinema.go` lines 36–84): a header line before the first row, and for
each chunk of server output that is not empty one row `[ts, "o", data]`. Of
`encoding/json` only what a `JsonCodec` says is used; `goCodec` is one that satisfies it.

A chunk becomes a JSON string by itself, so a character that is cut between two chunks
is not valid in either of them.

* `replay_cut_character`: the two bytes of a character recorded in two chunks come back
  as two replacement characters.
* `replay_iff`: the replay gives back the server output exactly if every chunk is valid
  UTF-8 by itself.
-/

namespace GoJump.Proxy.Record

open GoJump.Go

/-! ## The recorder -/

/-- `Header` and `Env` (`pkg/common/asciinema.go` lines 86–98). -/
structure Header where
  version : ℕ
  width : ℤ
  height : ℤ
  timestamp : ℤ
  title : GoString
  shell : GoString
  term : GoString
  deriving DecidableEq

/-- What is assumed of `encoding/json`: it writes a header and a row without line breaks,
    and a row is read back with the invalid bytes of its strings replaced. -/
structure JsonCodec where
  marshalHeader : Header → GoString
  /-- of the time in nanoseconds, the type of the event and the data -/
  marshalRow : ℤ → GoString → GoString → GoString
  unmarshalRow : GoString → Option (GoString × GoString)
  header_line : ∀ h, 10 ∉ marshalHeader h
  row_line : ∀ ts type data, 10 ∉ marshalRow ts type data
  unmarshalRow_marshalRow : ∀ ts type data,
    unmarshalRow (marshalRow ts type data) = some (toValidUTF8 type, toValidUTF8 data)

/-- `ReplyInfo` (`pkg/proxy/record.go` lines 128–132), the time in nanoseconds. -/
structure ReplyInfo where
  width : ℤ
  height : ℤ
  timeStamp : ℤ
  deriving DecidableEq

/-- `ReplyRecorder` with its `once`, and what has been written to the file. -/
structure ReplyRecorder where
  disableRecorder : Bool
  info : ReplyInfo
  once : Bool
  file : GoString

/-- `NewReplayRecord` (lines 22–65), when directory and file can be created. -/
def newReplayRecord (disableRecorder : Bool) (info : ReplyInfo) : ReplyRecorder :=
  ⟨disableRecorder, info, false, []⟩

/-- The header of `WriteHeader` (`pkg/common/asciinema.go` lines 42–53), for the options
    of `NewReplayRecord`. -/
def ReplyInfo.header (info : ReplyInfo) : Header :=
  ⟨2, info.width, info.height, info.timeStamp / 10 ^ 9, [], str "/bin/bash", str "xterm"⟩

/-- Two writes: the line and `newLine`. -/
def ReplyRecorder.writeLine (r : ReplyRecorder) (line : GoString) : ReplyRecorder :=
  { r with file := r.file ++ line ++ [10] }

/-- `WriteHeader` under `once.Do`. -/
def ReplyRecorder.writeHeader (r : ReplyRecorder) (codec : JsonCodec) : ReplyRecorder :=
  if r.once then r else { r.writeLine (codec.marshalHeader r.info.header) with once := true }

/-- `WriteRow` and `WriteStdout` (lines 66–84). -/
def ReplyRecorder.writeRow (r : ReplyRecorder) (codec : JsonCodec) (now : ℤ) (p : GoString) :
    ReplyRecorder :=
  r.writeLine (codec.marshalRow (now - r.info.timeStamp) (str "o") p)

/-- `Record(p)` at the time `now` (`pkg/proxy/record.go` lines 87–101). -/
def ReplyRecorder.record (codec : JsonCodec) (r : ReplyRecorder) (chunk : ℤ × GoString) :
    ReplyRecorder :=
  if r.disableRecorder then r
  else if 0 < chunk.2.length then (r.writeHeader codec).writeRow codec chunk.1 chunk.2
  else r

theorem ReplyRecorder.record_disableRecorder (codec : JsonCodec) (r : ReplyRecorder)
    (chunk : ℤ × GoString) : (r.record codec chunk).disableRecorder = r.disableRecorder := by
  unfold ReplyRecorder.record ReplyRecorder.writeRow ReplyRecorder.writeHeader
    ReplyRecorder.writeLine
  split_ifs <;> rfl

/-- The recorder after a session. -/
def recordAll (codec : JsonCodec) (r : ReplyRecorder) (chunks : List (ℤ × GoString)) :
    ReplyRecorder :=
  chunks.foldl (ReplyRecorder.record codec) r

/-! ## The player -/

/-- The lines of a file in which every line is ended. -/
def castLines (file : GoString) : List GoString := (split file 10).dropLast

/-- The events of a recording: the first line is the header. -/
def parseCast (codec : JsonCodec) (file : GoString) : Option (List (GoString × GoString)) :=
  ((castLines file).drop 1).mapM codec.unmarshalRow

/-- The data of the output events. -/
def replayOutput (codec : JsonCodec) (file : GoString) : Option GoString :=
  (parseCast codec file).map fun rows =>
    ((rows.filter fun row => row.1 = str "o").map Prod.snd).flatten

/-! ## Lines -/

/-- Every line, ended. -/
def unlines (ls : List GoString) : GoString := (ls.map fun l => l ++ [10]).flatten

theorem castLines_unlines {ls : List GoString} (h : ∀ l ∈ ls, 10 ∉ l) :
    castLines (unlines ls) = ls := by
  have hsplit : split (unlines ls) 10 = ls ++ [[]] := by
    induction ls with
    | nil => rfl
    | cons l ls ih =>
      obtain ⟨hl, hls⟩ := List.forall_mem_cons.mp h
      have hline : unlines (l :: ls) = l ++ 10 :: unlines ls := by simp [unlines]
      rw [hline, split_append_cons, split_of_notMem hl, ih hls]
      rfl
  rw [castLines, hsplit, List.dropLast_concat]

/-! ## The file -/

/-- The chunks that are recorded. -/
def recorded (chunks : List (ℤ × GoString)) : List (ℤ × GoString) :=
  chunks.filter fun chunk => 0 < chunk.2.length

/-- The row of a chunk. -/
def rowLine (codec : JsonCodec) (info : ReplyInfo) (chunk : ℤ × GoString) : GoString :=
  codec.marshalRow (chunk.1 - info.timeStamp) (str "o") chunk.2

/-- The lines a recorder writes for the chunks: the header comes before the first row. -/
def castOf (codec : JsonCodec) (info : ReplyInfo) (once : Bool) (chunks : List (ℤ × GoString)) :
    List GoString :=
  (if once || (recorded chunks).isEmpty then [] else [codec.marshalHeader info.header]) ++
    (recorded chunks).map (rowLine codec info)

theorem file_recordAll (codec : JsonCodec) (chunks : List (ℤ × GoString)) (r : ReplyRecorder)
    (h : r.disableRecorder = false) :
    (recordAll codec r chunks).file = r.file ++ unlines (castOf codec r.info r.once chunks) := by
  induction chunks generalizing r with
  | nil => simp [recordAll, castOf, recorded, unlines]
  | cons chunk chunks ih =>
    have hstep : recordAll codec r (chunk :: chunks) =
        recordAll codec (r.record codec chunk) chunks := rfl
    rw [hstep, ih _ ((r.record_disableRecorder codec chunk).trans h)]
    by_cases hlen : 0 < chunk.2.length
    · have hrec : recorded (chunk :: chunks) = chunk :: recorded chunks := by simp [recorded, hlen]
      have hr : r.record codec chunk = (r.writeHeader codec).writeRow codec chunk.1 chunk.2 := by
        simp [ReplyRecorder.record, h, hlen]
      -- the header is written with this row or has been before
      cases ho : r.once with
      | true =>
        simp [castOf, hrec, hr, ReplyRecorder.writeHeader, ReplyRecorder.writeRow,
          ReplyRecorder.writeLine, ho, unlines, rowLine]
      | false =>
        simp [castOf, hrec, hr, ReplyRecorder.writeHeader, ReplyRecorder.writeRow,
          ReplyRecorder.writeLine, ho, unlines, rowLine]
    · have hrec : recorded (chunk :: chunks) = recorded chunks := by simp [recorded, hlen]
      have hr : r.record codec chunk = r := by simp [ReplyRecorder.record, h, hlen]
      rw [hr, castOf, castOf, hrec]

theorem castLines_recordAll (codec : JsonCodec) (info : ReplyInfo) (chunks : List (ℤ × GoString)) :
    castLines (recordAll codec (newReplayRecord false info) chunks).file =
      castOf codec info false chunks := by
  have hfile : (recordAll codec (newReplayRecord false info) chunks).file =
      unlines (castOf codec info false chunks) := by
    rw [file_recordAll codec chunks _ rfl]
    rfl
  rw [hfile]
  apply castLines_unlines
  intro l hl
  rcases List.mem_append.mp hl with hl | hl
  · split_ifs at hl
    · cases hl
    · rw [List.mem_singleton.mp hl]
      exact codec.header_line _
  · obtain ⟨chunk, _, rfl⟩ := List.mem_map.mp hl
    exact codec.row_line _ _ _

theorem parseCast_recordAll (codec : JsonCodec) (info : ReplyInfo) (chunks : List (ℤ × GoString)) :
    parseCast codec (recordAll codec (newReplayRecord false info) chunks).file =
      some ((recorded chunks).map fun chunk => (str "o", toValidUTF8 chunk.2)) := by
  have hrows : ((castOf codec info false chunks).drop 1) =
      (recorded chunks).map (rowLine codec info) := by
    unfold castOf
    cases recorded chunks with
    | nil => rfl
    | cons chunk rest => rfl
  have hparse : ∀ l : List (ℤ × GoString), (l.map (rowLine codec info)).mapM codec.unmarshalRow =
      some (l.map fun chunk => (str "o", toValidUTF8 chunk.2)) := by
    intro l
    induction l with
    | nil => rfl
    | cons chunk l ih =>
      rw [List.map_cons, List.mapM_cons, ih, rowLine, codec.unmarshalRow_marshalRow]
      rfl
  rw [parseCast, castLines_recordAll, hrows, hparse]

/-- An empty chunk has no row, and nothing to give back. -/
theorem flatten_recorded (chunks : List (ℤ × GoString)) :
    ((recorded chunks).map fun chunk => toValidUTF8 chunk.2).flatten =
      ((chunks.map Prod.snd).map toValidUTF8).flatten := by
  induction chunks with
  | nil => rfl
  | cons chunk chunks ih =>
    by_cases hlen : 0 < chunk.2.length
    · have hrec : recorded (chunk :: chunks) = chunk :: recorded chunks := by simp [recorded, hlen]
      rw [hrec, List.map_cons, List.flatten_cons, ih]
      rfl
    · have hrec : recorded (chunk :: chunks) = recorded chunks := by simp [recorded, hlen]
      have hnil : chunk.2 = [] := List.length_eq_zero_iff.mp (by omega)
      rw [hrec, ih, List.map_cons, List.map_cons, hnil]
      rfl

/-- The replay has the chunks with their invalid bytes replaced, each by itself. -/
theorem replayOutput_recordAll (codec : JsonCodec) (info : ReplyInfo)
    (chunks : List (ℤ × GoString)) :
    replayOutput codec (recordAll codec (newReplayRecord false info) chunks).file =
      some ((chunks.map Prod.snd).map toValidUTF8).flatten := by
  have hall : ((recorded chunks).map fun chunk => (str "o", toValidUTF8 chunk.2)).filter
      (fun row => row.1 = str "o") =
        (recorded chunks).map fun chunk => (str "o", toValidUTF8 chunk.2) := by
    rw [List.filter_eq_self]
    intro row hrow
    obtain ⟨chunk, _, rfl⟩ := List.mem_map.mp hrow
    simp
  rw [replayOutput, parseCast_recordAll, Option.map_some, hall, List.map_map, ← flatten_recorded]
  rfl

/-- For every session, every way its output is cut and whatever the times: the file has a
    header line and one row for each chunk that is not empty, and its replay is the
    server output exactly if every chunk is valid UTF-8 by itself. -/
theorem replay_iff (codec : JsonCodec) (info : ReplyInfo) (chunks : List (ℤ × GoString)) :
    let file := (recordAll codec (newReplayRecord false info) chunks).file
    castLines file = (if (recorded chunks).isEmpty then [] else
      codec.marshalHeader info.header :: (recorded chunks).map (rowLine codec info)) ∧
    (replayOutput codec file = some (chunks.map Prod.snd).flatten ↔
      ∀ chunk ∈ chunks, utf8Valid chunk.2 = true) := by
  intro file
  constructor
  · rw [castLines_recordAll, castOf, Bool.false_or]
    cases recorded chunks with
    | nil => rfl
    | cons chunk rest => rfl
  · rw [replayOutput_recordAll, Option.some.injEq, flatten_toValidUTF8_iff, List.forall_mem_map]

/-! ## A codec -/

/-- An integer as JSON writes it. -/
def number (n : ℤ) : GoString := if n < 0 then 45 :: itoa n.natAbs else itoa n.natAbs

/-- A byte of a number. -/
def isNumberByte (b : UInt8) : Bool := decide (b = 45 ∨ 48 ≤ b ∧ b ≤ 57)

theorem isNumberByte_number (n : ℤ) : ∀ b ∈ number n, isNumberByte b = true := by
  have hitoa : ∀ m, ∀ b ∈ itoa m, isNumberByte b = true := fun m b hb =>
    decide_eq_true (Or.inr (mem_itoa hb))
  unfold number
  split_ifs
  · exact List.forall_mem_cons.mpr ⟨rfl, hitoa _⟩
  · exact hitoa _

/-- A field of an object, after what stands before it; 58 is the colon. -/
def field (before : GoString) (name : String) (value : GoString) : GoString :=
  before ++ quote (str name) ++ 58 :: value

/-- The header as an object; 123 and 125 are the braces, 44 is the comma. -/
def headerJson (h : Header) : GoString :=
  field [123] "version" (number h.version) ++ field [44] "width" (number h.width) ++
    field [44] "height" (number h.height) ++ field [44] "timestamp" (number h.timestamp) ++
    field [44] "title" (quote h.title) ++
    field [44] "env" (field [123] "SHELL" (quote h.shell) ++ field [44] "TERM" (quote h.term)) ++
    [125, 125]

/-- The row as an array; 91 and 93 are the brackets. -/
def rowJson (ts : ℤ) (type data : GoString) : GoString :=
  91 :: (number ts ++ 44 :: (quote type ++ 44 :: (quote data ++ [93])))

/-- The two strings of a row. -/
def readStrings (s : GoString) : Option (GoString × GoString) :=
  match unquote s with
  | some (type, 44 :: rest) =>
    match unquote rest with
    | some (data, [93]) => some (type, data)
    | _ => none
  | _ => none

def readRow : GoString → Option (GoString × GoString)
  | 91 :: rest =>
    match rest.dropWhile isNumberByte with
    | 44 :: rest => readStrings rest
    | _ => none
  | _ => none

theorem readRow_rowJson (ts : ℤ) (type data : GoString) :
    readRow (rowJson ts type data) = some (toValidUTF8 type, toValidUTF8 data) := by
  have hdrop : (number ts ++ 44 :: (quote type ++ 44 :: (quote data ++ [93]))).dropWhile
      isNumberByte = 44 :: (quote type ++ 44 :: (quote data ++ [93])) := by
    rw [List.dropWhile_append_of_pos (isNumberByte_number ts)]
    rfl
  have hread : readStrings (quote type ++ 44 :: (quote data ++ [93])) =
      some (toValidUTF8 type, toValidUTF8 data) := by
    simp only [readStrings, unquote_quote]
  simp only [readRow, rowJson, hdrop, hread]

/-- No control characters. -/
def Printable (s : GoString) : Prop := ∀ b ∈ s, 0x20 ≤ b.toNat

instance (s : GoString) : Decidable (Printable s) :=
  inferInstanceAs (Decidable (∀ b ∈ s, 0x20 ≤ b.toNat))

theorem Printable.append {s t : GoString} (hs : Printable s) (ht : Printable t) :
    Printable (s ++ t) :=
  List.forall_mem_append.mpr ⟨hs, ht⟩

theorem Printable.cons {b : UInt8} {s : GoString} (hb : 0x20 ≤ b.toNat) (hs : Printable s) :
    Printable (b :: s) :=
  List.forall_mem_cons.mpr ⟨hb, hs⟩

theorem Printable.not_mem {s : GoString} (h : Printable s) : 10 ∉ s := by
  intro hmem
  exact absurd (h 10 hmem) (by decide)

theorem printable_number (n : ℤ) : Printable (number n) := by
  intro b hb
  have hbyte := isNumberByte_number n b hb
  rcases of_decide_eq_true hbyte with rfl | ⟨h, _⟩
  · decide
  · exact Nat.le_trans (by decide) (UInt8.le_iff_toNat_le.mp h)

theorem Printable.field {before value : GoString} (hb : Printable before) (hv : Printable value)
    (name : String) : Printable (field before name value) :=
  (hb.append (printable_quote _)).append (.cons (by decide) hv)

theorem printable_headerJson (h : Header) : Printable (headerJson h) := by
  have hopen : Printable [123] := by decide +kernel
  have hcomma : Printable [44] := by decide +kernel
  have hclose : Printable [125, 125] := by decide +kernel
  have hnum := printable_number
  have henv : Printable (Record.field [123] "SHELL" (quote h.shell) ++
      Record.field [44] "TERM" (quote h.term)) :=
    (hopen.field (printable_quote _) _).append (hcomma.field (printable_quote _) _)
  exact (hopen.field (hnum _) _).append (hcomma.field (hnum _) _)
    |>.append (hcomma.field (hnum _) _) |>.append (hcomma.field (hnum _) _)
    |>.append (hcomma.field (printable_quote _) _) |>.append (hcomma.field henv _)
    |>.append hclose

/-- One codec that satisfies the laws. Strings are written by `quote`, which differs from
    `encoding/json` in details such as U+2028, backspace and invalid bytes; times are written
    in nanoseconds. -/
def goCodec : JsonCodec where
  marshalHeader := headerJson
  marshalRow := rowJson
  unmarshalRow := readRow
  header_line h := (printable_headerJson h).not_mem
  row_line ts type data := by
    refine Printable.not_mem (.cons (by decide) (.append (printable_number ts) (.cons (by decide)
      (.append (printable_quote type) (.cons (by decide) (.append (printable_quote data) ?_))))))
    decide +kernel
  unmarshalRow_marshalRow := readRow_rowJson

/-- The two bytes of U+00E9, recorded in two chunks. -/
def cutCharacter : List (ℤ × GoString) := [(1, [0xC3]), (2, [0xA9])]

theorem replay_cut_character :
    utf8Valid (cutCharacter.map Prod.snd).flatten = true ∧
    replayOutput goCodec (recordAll goCodec (newReplayRecord false ⟨80, 24, 0⟩) cutCharacter).file =
      some [0xEF, 0xBF, 0xBD, 0xEF, 0xBF, 0xBD] ∧
    replayOutput goCodec (recordAll goCodec (newReplayRecord false ⟨80, 24, 0⟩) cutCharacter).file ≠
      some (cutCharacter.map Prod.snd).flatten := by
  rw [replayOutput_recordAll]
  decide

end GoJump.Proxy.Record
