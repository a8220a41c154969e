import GoJump.Proxy.Record

/-!
# The life of a replay file

Model of `NewReplayRecord`, `Record`, `End` and `compressReplay` (`pkg/proxy/record.go`
lines 22–126) on the recorder that `GetReplayRecorder` returns (`pkg/proxy/server.go`
lines 502–515), with `FileExists` and `GzipCompressFile` (`pkg/common/util.go` lines
269–311). Every call to the operating system can fail by itself.

When the directory or the file cannot be created, the error is logged and the recorder
has no writer. When the session is over, the file is compressed and removed, and what
`GzipCompressFile` returns is dropped. `gzip.Writer` stores the name of the file in its
header and refuses a name that is not Latin-1.

* `bridge_faultless_iff`: the calls of a session on its recorder end without a fault
  exactly if the recorder has a writer or nothing is to be recorded.
* `replay_kept_iff`: what was recorded is still there after `compressReplay` exactly if
  no step of `GzipCompressFile` fails or the original is not removed.
* `bridge_archives`: without failures the archive holds what `recordAll` wrote.
-/

namespace GoJump.Proxy.Replay

open GoJump.Go
open GoJump.Proxy.Record (JsonCodec ReplyInfo ReplyRecorder recordAll recorded)

/-! ## The recorder -/

/-- The entries of the configuration that are read. -/
structure Config where
  disableRecorder : Bool
  replayFolderPath : GoString

/-- `info.TimeStamp` in the formats `20060102` and `150405`. -/
structure Stamp where
  today : GoString
  clock : GoString

/-- Which calls of `NewReplayRecord` succeed. -/
structure Outcome where
  ensureDirExist : Bool
  create : Bool

/-- The call whose error is kept in `err`. -/
inductive CreateError
  | ensureDirExist
  | create
  deriving DecidableEq

/-- `ReplyRecorder` (lines 67–81). `file` and `Writer` are set together; the writer is
    the one that the rows are written with. -/
structure Recorder where
  sessionID : GoString
  info : ReplyInfo
  absFilePath : GoString
  absGzipFilePath : GoString
  target : GoString
  writer : Option ReplyRecorder
  err : Option CreateError
  disableRecorder : Bool

def replayFilenameSuffix : GoString := str ".cast"

def replayGzFilenameSuffix : GoString := str ".gz"

/-- The name of the replay file (line 42). -/
def replayFilename (sid user asset : GoString) (stamp : Stamp) : GoString :=
  user ++ str "_" ++ asset ++ str "_" ++ stamp.clock ++ str "_" ++ sid.take 8 ++
    replayFilenameSuffix

/-- `NewReplayRecord` (lines 22–65); `none` when `sid[:8]` is out of range. -/
def newReplayRecord (conf : Config) (sid user asset : GoString) (info : ReplyInfo) (stamp : Stamp)
    (outcome : Outcome) : Option Recorder :=
  let recorder : Recorder := ⟨sid, info, [], [], [], none, none, conf.disableRecorder⟩
  if conf.disableRecorder then some recorder
  else
    let sessionReplayDirPath := joinPath conf.replayFolderPath stamp.today
    if !outcome.ensureDirExist then some { recorder with err := some .ensureDirExist }
    else if sid.length < 8 then none
    else
      let filename := replayFilename sid user asset stamp
      let gzFilename := filename ++ replayGzFilenameSuffix
      let recorder := { recorder with
        absGzipFilePath := joinPath sessionReplayDirPath gzFilename
        absFilePath := joinPath sessionReplayDirPath filename
        target := [47].intercalate [stamp.today, gzFilename] }
      if !outcome.create then some { recorder with err := some .create }
      else some { recorder with writer := some (Record.newReplayRecord false info) }

/-- `GetReplayRecorder` (`pkg/proxy/server.go` lines 502–515): the error is logged, and
    the recorder returned as it is. -/
def getReplayRecorder (conf : Config) (sid user asset : GoString) (info : ReplyInfo)
    (stamp : Stamp) (outcome : Outcome) : Option Recorder :=
  newReplayRecord conf sid user asset info stamp outcome

/-- `Record(p)` (lines 87–101); `none` when it goes through the missing writer. -/
def Recorder.record (codec : JsonCodec) (r : Recorder) (chunk : ℤ × GoString) : Option Recorder :=
  if r.disableRecorder then some r
  else if 0 < chunk.2.length then
    r.writer.map fun w => { r with writer := some (w.record codec chunk) }
  else some r

/-! ## Files -/

/-- The contents of the files, by path. -/
abbrev Files := GoString → Option GoString

/-- What `os.IsNotExist` can tell. -/
inductive StatError
  | notExist
  | other
  deriving DecidableEq

/-- Which steps of `End` and `compressReplay` fail. A copy or a `Close` of the gzip writer
    that fails has written that many bytes, and never all of them. -/
structure Failures where
  statCast : Bool
  statSize : Bool
  statGz : Bool
  openSrc : Bool
  statSrc : Bool
  createDst : Bool
  copy : Option ℕ
  gzipClose : Option ℕ
  remove : Bool

/-- `os.Stat`, with the size of the file. An existing file is never reported missing. -/
def stat (fails : Bool) (files : Files) (name : GoString) : Except StatError ℕ :=
  if fails then .error .other
  else match files name with
    | some content => .ok content.length
    | none => .error .notExist

/-- `FileExists` (`pkg/common/util.go` lines 269–276). -/
def fileExists (fails : Bool) (files : Files) (name : GoString) : Bool :=
  match stat fails files name with
  | .error .notExist => false
  | _ => true

/-- `os.Remove`. -/
def remove (fails : Bool) (files : Files) (name : GoString) : Files :=
  if fails then files else Function.update files name none

/-! ## Compression -/

/-- The names that `gzip.Writer` accepts in its header. -/
def isLatin1 (name : GoString) : Bool := (runes name).all fun r => decide (0 < r ∧ r ≤ 0xFF)

example : isLatin1 (str "web.cast") = true := by decide
example : isLatin1 ([0xE4, 0xB8, 0xBB, 0xE6, 0x9C, 0xBA] ++ str ".cast") = false := by decide

/-- What is assumed of `compress/gzip`: the archive of a name, a time and a content gives
    the content back, and no archive that is cut off does. The first ten bytes are the
    fixed part of the header. -/
structure Gzip where
  compress : GoString → ℤ → GoString → GoString
  decompress : GoString → Option GoString
  decompress_compress : ∀ name modTime content,
    decompress (compress name modTime content) = some content
  decompress_take : ∀ name modTime content n, n < (compress name modTime content).length →
    decompress ((compress name modTime content).take n) = none
  header_lt : ∀ name modTime content, 10 < (compress name modTime content).length

/-- Every byte after a mark, and a last mark. -/
def markBytes : GoString → GoString
  | [] => [0]
  | b :: content => 1 :: b :: markBytes content

def unmarkBytes : GoString → Option GoString
  | [0] => some []
  | 1 :: b :: rest => (unmarkBytes rest).map (b :: ·)
  | _ => none

theorem unmarkBytes_markBytes (content : GoString) :
    unmarkBytes (markBytes content) = some content := by
  induction content with
  | nil => rfl
  | cons b content ih =>
    show (unmarkBytes (markBytes content)).map (b :: ·) = _
    rw [ih]
    rfl

theorem unmarkBytes_take {content : GoString} {n : ℕ} (h : n < (markBytes content).length) :
    unmarkBytes ((markBytes content).take n) = none := by
  induction content generalizing n with
  | nil =>
    have hn : n = 0 := Nat.lt_one_iff.mp h
    rw [hn]
    rfl
  | cons b content ih =>
    match n with
    | 0 => rfl
    | 1 => rfl
    | n + 2 =>
      have hlt : n < (markBytes content).length := Nat.lt_of_add_lt_add_right h
      show (unmarkBytes ((markBytes content).take n)).map (b :: ·) = none
      rw [ih hlt]
      rfl

theorem length_markBytes_pos (content : GoString) : 0 < (markBytes content).length := by
  cases content with
  | nil => exact Nat.zero_lt_one
  | cons b content => exact Nat.zero_lt_succ _

/-- A codec with these properties. -/
def markedGzip : Gzip where
  compress _ _ content := List.replicate 10 0 ++ markBytes content
  decompress archive := unmarkBytes (archive.drop 10)
  decompress_compress _ _ content := by
    rw [List.drop_left' List.length_replicate, unmarkBytes_markBytes]
  decompress_take _ _ content n h := by
    have hpos := length_markBytes_pos content
    rw [List.length_append, List.length_replicate] at h
    rw [List.drop_take, List.drop_left' List.length_replicate]
    exact unmarkBytes_take (by omega)
  header_lt _ _ content := by
    have hpos := length_markBytes_pos content
    rw [List.length_append, List.length_replicate]
    omega

/-- The steps of `GzipCompressFile` that return an error. -/
inductive GzipStep
  | openSrc
  | statSrc
  | createDst
  | copy
  | gzipClose
  deriving DecidableEq

/-- `GzipCompressFile` (`pkg/common/util.go` lines 285–311) at the time `now`: the error, and
    the files afterwards. The header is written with the first byte of the content, or in
    `Close` if there is none. -/
def gzipCompressFile (gzip : Gzip) (fails : Failures) (now : ℤ) (files : Files)
    (srcPath dstPath : GoString) : Option GzipStep × Files :=
  match files srcPath with
  | none => (some .openSrc, files)
  | some content =>
    let name := baseName srcPath
    let out := gzip.compress name now content
    let leaving (written : GoString) := Function.update files dstPath (some written)
    if fails.openSrc then (some .openSrc, files)
    else if fails.statSrc then (some .statSrc, files)
    else if fails.createDst then (some .createDst, files)
    else match fails.copy with
      | some n => (some .copy, leaving (out.dropLast.take n))
      | none =>
        if !isLatin1 name then
          (some (if content = [] then .gzipClose else .copy), leaving (out.take 10))
        else match fails.gzipClose with
          | some n => (some .gzipClose, leaving (out.dropLast.take n))
          | none => (none, leaving out)

/-- `compressReplay` (`pkg/proxy/record.go` lines 111–126). -/
def Recorder.compressReplay (r : Recorder) (gzip : Gzip) (fails : Failures) (now : ℤ)
    (files : Files) : Files :=
  if !fileExists fails.statCast files r.absFilePath then files
  else if stat fails.statSize files r.absFilePath = .ok 0 then
    remove fails.remove files r.absFilePath
  else if !fileExists fails.statGz files r.absGzipFilePath then
    remove fails.remove
      (gzipCompressFile gzip fails now files r.absFilePath r.absGzipFilePath).2 r.absFilePath
  else files

/-- `End` (lines 103–109), and the goroutine that it starts. `Close` of a missing file
    returns an error, which is dropped. -/
def Recorder.endReplay (r : Recorder) (gzip : Gzip) (fails : Failures) (now : ℤ) (files : Files) :
    Files :=
  if r.disableRecorder then files else r.compressReplay gzip fails now files

/-- The files when the session is over: what was written is in the replay file. -/
def Recorder.written (r : Recorder) (files : Files) : Files :=
  match r.writer with
  | some w => Function.update files r.absFilePath (some w.file)
  | none => files

/-- The calls of `Bridge` on its recorder: one `Record` for each chunk of server output,
    and `End` when it returns. -/
def bridge (codec : JsonCodec) (gzip : Gzip) (recorder : Option Recorder)
    (chunks : List (ℤ × GoString)) (fails : Failures) (now : ℤ) (files : Files) :
    Option (Recorder × Files) := do
  let r ← recorder
  let r ← chunks.foldlM (Recorder.record codec) r
  return (r, r.endReplay gzip fails now (r.written files))

/-! ## A session on its recorder -/

theorem foldlM_record_disabled (codec : JsonCodec) {r : Recorder} (h : r.disableRecorder = true)
    (chunks : List (ℤ × GoString)) : chunks.foldlM (Recorder.record codec) r = some r := by
  induction chunks with
  | nil => rfl
  | cons chunk chunks ih =>
    have hstep : r.record codec chunk = some r := if_pos h
    rw [List.foldlM_cons, hstep]
    exact ih

/-- With a writer every chunk is written, as in `recordAll`. -/
theorem foldlM_record_writer (codec : JsonCodec) {r : Recorder} {w : ReplyRecorder}
    (h : r.disableRecorder = false) (hw : r.writer = some w) (chunks : List (ℤ × GoString)) :
    ∃ w', chunks.foldlM (Recorder.record codec) r = some { r with writer := some w' } ∧
      (w.disableRecorder = false → w' = recordAll codec w chunks) := by
  induction chunks generalizing r w with
  | nil => exact ⟨w, by rw [← hw]; rfl, fun _ => rfl⟩
  | cons chunk chunks ih =>
    rw [List.foldlM_cons, Recorder.record, if_neg (by rw [h]; decide)]
    by_cases hlen : 0 < chunk.2.length
    · rw [if_pos hlen, hw]
      obtain ⟨w', hfold, hall⟩ := ih (r := { r with writer := some (w.record codec chunk) }) h rfl
      exact ⟨w', hfold, fun hd => hall ((w.record_disableRecorder codec chunk).trans hd)⟩
    · rw [if_neg hlen]
      obtain ⟨w', hfold, hall⟩ := ih h hw
      refine ⟨w', hfold, fun hd => ?_⟩
      have hsame : w.record codec chunk = w := by
        rw [ReplyRecorder.record, if_neg (by rw [hd]; decide), if_neg hlen]
      rw [hall hd, recordAll, recordAll, List.foldl_cons, hsame]

/-- Without a writer the first chunk that is not empty is a fault. -/
theorem isSome_foldlM_record_iff (codec : JsonCodec) {r : Recorder} (h : r.disableRecorder = false)
    (hw : r.writer = none) (chunks : List (ℤ × GoString)) :
    (chunks.foldlM (Recorder.record codec) r).isSome = true ↔ ∀ chunk ∈ chunks, chunk.2 = [] := by
  induction chunks with
  | nil => simp
  | cons chunk chunks ih =>
    rw [List.foldlM_cons, Recorder.record, if_neg (by rw [h]; decide), List.forall_mem_cons]
    by_cases hlen : 0 < chunk.2.length
    · rw [if_pos hlen, hw]
      have hne : chunk.2 ≠ [] := List.ne_nil_of_length_pos hlen
      simp [hne]
    · rw [if_neg hlen]
      have hnil : chunk.2 = [] := List.length_eq_zero_iff.mp (by omega)
      simpa [hnil] using ih

theorem isSome_bridge (codec : JsonCodec) (gzip : Gzip) (r : Recorder)
    (chunks : List (ℤ × GoString)) (fails : Failures) (now : ℤ) (files : Files) :
    (bridge codec gzip (some r) chunks fails now files).isSome =
      (chunks.foldlM (Recorder.record codec) r).isSome := by
  show ((chunks.foldlM (Recorder.record codec) r).bind _).isSome = _
  cases chunks.foldlM (Recorder.record codec) r with
  | none => rfl
  | some r' => rfl

/-- A session that is recorded, or one of which nothing is to be recorded. -/
theorem isSome_bridge_iff (codec : JsonCodec) (gzip : Gzip) {r : Recorder}
    (h : r.disableRecorder = false) (chunks : List (ℤ × GoString)) (fails : Failures) (now : ℤ)
    (files : Files) :
    (bridge codec gzip (some r) chunks fails now files).isSome = true ↔
      r.writer.isSome = true ∨ ∀ chunk ∈ chunks, chunk.2 = [] := by
  rw [isSome_bridge]
  cases hw : r.writer with
  | none =>
    rw [isSome_foldlM_record_iff codec h hw]
    simp
  | some w =>
    obtain ⟨w', hfold, _⟩ := foldlM_record_writer codec h hw chunks
    simp [hfold]

/-- For every session, every outcome of `NewReplayRecord` and whatever fails at the end:
    the calls on the recorder end without a fault exactly if recording is disabled, or the
    session id has the eight bytes of the file name, should that be reached, and the file
    is there or no chunk has a byte. -/
theorem bridge_faultless_iff (codec : JsonCodec) (gzip : Gzip) (conf : Config)
    (sid user asset : GoString) (info : ReplyInfo) (stamp : Stamp) (outcome : Outcome)
    (chunks : List (ℤ × GoString)) (fails : Failures) (now : ℤ) (files : Files) :
    (bridge codec gzip (getReplayRecorder conf sid user asset info stamp outcome) chunks fails now
      files).isSome = true ↔
      conf.disableRecorder = true ∨
        (outcome.ensureDirExist = true → 8 ≤ sid.length) ∧
          (outcome.ensureDirExist = true ∧ outcome.create = true ∨
            ∀ chunk ∈ chunks, chunk.2 = []) := by
  unfold getReplayRecorder newReplayRecord
  cases hconf : conf.disableRecorder with
  | true =>
    have hfold := foldlM_record_disabled codec (r := ⟨sid, info, [], [], [], none, none, true⟩) rfl
      chunks
    simp [isSome_bridge, hfold]
  | false =>
    cases hdir : outcome.ensureDirExist with
    | false =>
      simp only [Bool.not_false, if_true, Bool.false_eq_true, if_false]
      rw [isSome_bridge_iff codec gzip rfl]
      simp
    | true =>
      by_cases hsid : sid.length < 8
      · have hshort : ¬ 8 ≤ sid.length := by omega
        simp [hsid, hshort, bridge]
      · have hlong : 8 ≤ sid.length := by omega
        cases hcreate : outcome.create with
        | false =>
          simp only [Bool.not_false, Bool.not_true, if_true, Bool.false_eq_true, if_false, hsid]
          rw [isSome_bridge_iff codec gzip rfl]
          simp [hlong]
        | true =>
          simp only [Bool.not_true, Bool.false_eq_true, if_false, hsid]
          rw [isSome_bridge_iff codec gzip rfl]
          simp [hlong]

/-- No failure. -/
def noFailures : Failures := ⟨false, false, false, false, false, false, none, none, false⟩

/-- One file and nothing else. -/
def onlyFile (name content : GoString) : Files :=
  Function.update (fun _ => none) name (some content)

/-- What `GetReplayRecorder` returns for a session of `bob` on `web`. -/
def bobReplay (outcome : Outcome) : Option Recorder :=
  getReplayRecorder ⟨false, str "/replay"⟩ (str "0123456789") (str "bob") (str "web") ⟨80, 24, 0⟩
    ⟨str "20240101", str "120000"⟩ outcome

/-- The first row of a session whose replay file could not be created. -/
theorem record_without_writer :
    bridge Record.goCodec markedGzip (bobReplay ⟨true, false⟩) [(1, str "$")] noFailures 2
      (fun _ => none) = none := rfl

/-- The recorder of the session when the file could be created. -/
def bobRecorder : Recorder where
  sessionID := str "0123456789"
  info := ⟨80, 24, 0⟩
  absFilePath := str "/replay/20240101/bob_web_120000_01234567.cast"
  absGzipFilePath := str "/replay/20240101/bob_web_120000_01234567.cast.gz"
  target := str "20240101/bob_web_120000_01234567.cast.gz"
  writer := some (Record.newReplayRecord false ⟨80, 24, 0⟩)
  err := none
  disableRecorder := false

example : (bobReplay ⟨true, true⟩).map (fun r => (r.absFilePath, r.absGzipFilePath, r.target)) =
    some (bobRecorder.absFilePath, bobRecorder.absGzipFilePath, bobRecorder.target) := by
  decide +kernel

/-! ## What is left of a recording -/

theorem fileExists_iff {fails : Bool} {files : Files} {name : GoString} :
    fileExists fails files name = true ↔ fails = true ∨ (files name).isSome = true := by
  unfold fileExists stat
  cases fails with
  | true => simp
  | false => cases files name <;> simp

theorem stat_ne_zero {fails : Bool} {files : Files} {name content : GoString}
    (hfile : files name = some content) (hne : content ≠ []) :
    stat fails files name ≠ .ok 0 := by
  unfold stat
  rw [hfile]
  cases fails with
  | true => simp
  | false => simpa using hne

/-- No step of `GzipCompressFile` fails for a file of this name. -/
def Compresses (fails : Failures) (name : GoString) : Prop :=
  fails.openSrc = false ∧ fails.statSrc = false ∧ fails.createDst = false ∧ fails.copy = none ∧
    isLatin1 name = true ∧ fails.gzipClose = none

instance (fails : Failures) (name : GoString) : Decidable (Compresses fails name) :=
  inferInstanceAs (Decidable (_ ∧ _ ∧ _ ∧ _ ∧ _ ∧ _))

/-- Cut off before its last byte. -/
theorem Gzip.decompress_dropLast (gzip : Gzip) (name : GoString) (modTime : ℤ)
    (content : GoString) (n : ℕ) :
    gzip.decompress ((gzip.compress name modTime content).dropLast.take n) = none := by
  have hlt := gzip.header_lt name modTime content
  rw [List.dropLast_eq_take, List.take_take]
  exact gzip.decompress_take _ _ _ _ (by omega)

theorem gzipCompressFile_of_compresses {gzip : Gzip} {fails : Failures} {now : ℤ} {files : Files}
    {srcPath dstPath content : GoString} (hfile : files srcPath = some content)
    (h : Compresses fails (baseName srcPath)) :
    (gzipCompressFile gzip fails now files srcPath dstPath).2 =
      Function.update files dstPath (some (gzip.compress (baseName srcPath) now content)) := by
  obtain ⟨hopen, hstat, hcreate, hcopy, hname, hclose⟩ := h
  simp [gzipCompressFile, hfile, hopen, hstat, hcreate, hcopy, hname, hclose]

/-- A step has failed: the files are as they were, or the archive is broken. -/
theorem gzipCompressFile_of_not_compresses {gzip : Gzip} {fails : Failures} {now : ℤ}
    {files : Files} {srcPath dstPath content : GoString} (hfile : files srcPath = some content)
    (h : ¬ Compresses fails (baseName srcPath)) :
    (gzipCompressFile gzip fails now files srcPath dstPath).2 = files ∨
      ∃ z, gzip.decompress z = none ∧
        (gzipCompressFile gzip fails now files srcPath dstPath).2 =
          Function.update files dstPath (some z) := by
  unfold gzipCompressFile
  rw [hfile]
  dsimp only
  by_cases hopen : fails.openSrc = true
  · exact Or.inl (by rw [if_pos hopen])
  by_cases hstat : fails.statSrc = true
  · exact Or.inl (by rw [if_neg hopen, if_pos hstat])
  by_cases hcreate : fails.createDst = true
  · exact Or.inl (by rw [if_neg hopen, if_neg hstat, if_pos hcreate])
  · right
    rw [if_neg hopen, if_neg hstat, if_neg hcreate]
    cases hcopy : fails.copy with
    | some n => exact ⟨_, gzip.decompress_dropLast _ _ _ n, rfl⟩
    | none =>
      cases hname : isLatin1 (baseName srcPath) with
      | false => exact ⟨_, gzip.decompress_take _ _ _ 10 (gzip.header_lt _ _ _), rfl⟩
      | true =>
        cases hclose : fails.gzipClose with
        | some n => exact ⟨_, gzip.decompress_dropLast _ _ _ n, rfl⟩
        | none => exact absurd ⟨by simpa using hopen, by simpa using hstat,
            by simpa using hcreate, hcopy, hname, hclose⟩ h

/-- The recording is in the original file or in the archive. -/
def Kept (gzip : Gzip) (r : Recorder) (content : GoString) (files : Files) : Prop :=
  files r.absFilePath = some content ∨
    ∃ z, files r.absGzipFilePath = some z ∧ gzip.decompress z = some content

section Enabled

variable {gzip : Gzip} {r : Recorder} {fails : Failures} {now : ℤ} {files : Files}
  {content : GoString} (hfile : files r.absFilePath = some content) (hne : content ≠ [])
  (hd : r.disableRecorder = false)

include hfile hne hd

/-- `End` on an enabled recorder whose file has a content: the archive is there already, or
    cannot be examined, or is made. -/
theorem endReplay_eq :
    r.endReplay gzip fails now files =
      if fails.statGz = true ∨ (files r.absGzipFilePath).isSome = true then files
      else remove fails.remove
        (gzipCompressFile gzip fails now files r.absFilePath r.absGzipFilePath).2
        r.absFilePath := by
  have hcast : fileExists fails.statCast files r.absFilePath = true :=
    fileExists_iff.mpr (Or.inr (by rw [hfile]; rfl))
  rw [Recorder.endReplay, if_neg (by rw [hd]; decide), Recorder.compressReplay, hcast,
    if_neg (by decide), if_neg (stat_ne_zero hfile hne)]
  by_cases hgz : fileExists fails.statGz files r.absGzipFilePath = true
  · rw [if_pos (fileExists_iff.mp hgz), hgz]
    rfl
  · rw [if_neg (mt fileExists_iff.mpr hgz), Bool.not_eq_true _ |>.mp hgz]
    rfl

variable (hstat : fails.statGz = false) (hgz : files r.absGzipFilePath = none)

include hstat hgz

/-- There is no archive: one is made, and the original removed. -/
theorem endReplay_eq_remove :
    r.endReplay gzip fails now files = remove fails.remove
      (gzipCompressFile gzip fails now files r.absFilePath r.absGzipFilePath).2 r.absFilePath ∧
    r.absGzipFilePath ≠ r.absFilePath := by
  constructor
  · rw [endReplay_eq hfile hne hd, hstat, hgz, if_neg (by decide)]
  · intro heq
    rw [← heq, hgz] at hfile
    cases hfile

/-- The compression succeeds: the archive is complete. -/
theorem endReplay_archive (hc : Compresses fails (baseName r.absFilePath)) :
    r.endReplay gzip fails now files r.absGzipFilePath =
      some (gzip.compress (baseName r.absFilePath) now content) := by
  obtain ⟨hend, hpaths⟩ := endReplay_eq_remove hfile hne hd hstat hgz
  rw [hend, gzipCompressFile_of_compresses hfile hc, remove]
  split_ifs
  · rw [Function.update_self]
  · rw [Function.update_of_ne hpaths, Function.update_self]

/-- The original is gone unless its removal fails, whatever became of the archive. -/
theorem endReplay_original (hremove : fails.remove = false) :
    r.endReplay gzip fails now files r.absFilePath = none := by
  rw [(endReplay_eq_remove hfile hne hd hstat hgz).1, remove, hremove, if_neg (by decide),
    Function.update_self]

/-- The removal fails: the original is as it was. -/
theorem endReplay_of_remove (hremove : fails.remove = true)
    (hc : ¬ Compresses fails (baseName r.absFilePath)) :
    r.endReplay gzip fails now files r.absFilePath = some content := by
  obtain ⟨hend, hpaths⟩ := endReplay_eq_remove hfile hne hd hstat hgz
  rw [hend, remove, hremove, if_pos rfl]
  rcases gzipCompressFile_of_not_compresses hfile hc with hsame | ⟨z, _, hz⟩
  · rw [hsame, hfile]
  · rw [hz, Function.update_of_ne hpaths.symm, hfile]

/-- A step of the compression fails: there is no archive that gives the content back. -/
theorem endReplay_broken (hremove : fails.remove = false)
    (hc : ¬ Compresses fails (baseName r.absFilePath)) {z : GoString}
    (hz : r.endReplay gzip fails now files r.absGzipFilePath = some z) :
    gzip.decompress z = none := by
  obtain ⟨hend, hpaths⟩ := endReplay_eq_remove hfile hne hd hstat hgz
  rw [hend, remove, hremove, if_neg (by decide), Function.update_of_ne hpaths] at hz
  rcases gzipCompressFile_of_not_compresses hfile hc with hsame | ⟨z', hz', hupd⟩
  · rw [hsame, hgz] at hz
    cases hz
  · rw [hupd, Function.update_self] at hz
    cases hz
    exact hz'

end Enabled

/-- For every file system with a recording in it and every pattern of failures: after `End`
    and `compressReplay` the recording is in the original file or completely in the
    archive exactly if recording is disabled, the original is not removed, the archive
    existed or could not be examined, or every step of the compression succeeds, for
    which the name of the file has to be Latin-1. -/
theorem replay_kept_iff (gzip : Gzip) (r : Recorder) (fails : Failures) (now : ℤ) (files : Files)
    (content : GoString) (hfile : files r.absFilePath = some content) (hne : content ≠ []) :
    Kept gzip r content (r.endReplay gzip fails now files) ↔
      r.disableRecorder = true ∨ fails.remove = true ∨ fails.statGz = true ∨
        (files r.absGzipFilePath).isSome = true ∨ Compresses fails (baseName r.absFilePath) := by
  cases hd : r.disableRecorder with
  | true =>
    have hsame : r.endReplay gzip fails now files = files := if_pos hd
    rw [hsame]
    exact iff_of_true (Or.inl hfile) (Or.inl rfl)
  | false =>
    by_cases hgz : fails.statGz = true ∨ (files r.absGzipFilePath).isSome = true
    · rw [endReplay_eq hfile hne hd, if_pos hgz]
      exact iff_of_true (Or.inl hfile) (by tauto)
    obtain ⟨hstat, hgone⟩ := not_or.mp hgz
    rw [Bool.not_eq_true] at hstat
    rw [Bool.not_eq_true, Option.isSome_eq_false_iff, Option.isNone_iff_eq_none] at hgone
    by_cases hc : Compresses fails (baseName r.absFilePath)
    · exact iff_of_true (Or.inr ⟨_, endReplay_archive hfile hne hd hstat hgone hc,
        gzip.decompress_compress _ now content⟩) (by tauto)
    cases hremove : fails.remove with
    | true =>
      exact iff_of_true (Or.inl (endReplay_of_remove hfile hne hd hstat hgone hremove hc))
        (by tauto)
    | false =>
      have hlost : ¬ Kept gzip r content (r.endReplay gzip fails now files) := by
        rintro (hcast | ⟨z, hz, hdec⟩)
        · rw [endReplay_original hfile hne hd hstat hgone hremove] at hcast
          cases hcast
        · rw [endReplay_broken hfile hne hd hstat hgone hremove hc hz] at hdec
          cases hdec
      refine iff_of_false hlost ?_
      simp [hstat, hgone, hc]

/-- The archive cannot be created, and the original is removed all the same. -/
theorem replay_lost :
    ¬ Kept markedGzip bobRecorder (str "row")
      (bobRecorder.endReplay markedGzip { noFailures with createDst := true } 2
        (onlyFile bobRecorder.absFilePath (str "row"))) := by
  have hgz : bobRecorder.endReplay markedGzip { noFailures with createDst := true } 2
      (onlyFile bobRecorder.absFilePath (str "row")) bobRecorder.absGzipFilePath = none := by
        decide +kernel
  rintro (hcast | ⟨z, hz, _⟩)
  · exact absurd hcast (by decide +kernel)
  · rw [hgz] at hz
    cases hz

/-- The archive is made. -/
theorem replay_kept_of_noFailures :
    Kept markedGzip bobRecorder (str "row")
      (bobRecorder.endReplay markedGzip noFailures 2
        (onlyFile bobRecorder.absFilePath (str "row"))) :=
  (replay_kept_iff markedGzip bobRecorder noFailures 2
    (onlyFile bobRecorder.absFilePath (str "row"))
    (str "row") (by decide +kernel) (by decide +kernel)).mpr (by decide +kernel)

/-! ## Without failures -/

theorem file_recordAll_ne_nil (codec : JsonCodec) (info : ReplyInfo)
    {chunks : List (ℤ × GoString)} (h : recorded chunks ≠ []) :
    (recordAll codec (Record.newReplayRecord false info) chunks).file ≠ [] := by
  rw [Record.file_recordAll codec chunks _ rfl]
  cases hr : recorded chunks with
  | nil => exact absurd hr h
  | cons chunk rest => simp [Record.newReplayRecord, Record.castOf, hr, Record.unlines]

/-- A session whose directory and file could be created, of which something was recorded
    and whose compression meets no failure: at its end the file is gone, and the archive
    gives back what the writer wrote. -/
theorem bridge_archives (codec : JsonCodec) (gzip : Gzip) {conf : Config}
    {sid user asset : GoString}
    {info : ReplyInfo} {stamp : Stamp} {chunks : List (ℤ × GoString)} {fails : Failures} (now : ℤ)
    {files : Files} {r : Recorder} (hconf : conf.disableRecorder = false)
    (hr : getReplayRecorder conf sid user asset info stamp ⟨true, true⟩ = some r)
    (hchunks : recorded chunks ≠ []) (hgz : files r.absGzipFilePath = none)
    (hstat : fails.statGz = false) (hremove : fails.remove = false)
    (hc : Compresses fails (baseName r.absFilePath)) :
    ∃ r' files', bridge codec gzip (some r) chunks fails now files = some (r', files') ∧
      files' r.absFilePath = none ∧ ∃ z, files' r.absGzipFilePath = some z ∧
        gzip.decompress z =
          some (recordAll codec (Record.newReplayRecord false info) chunks).file := by
  have hshape : r.disableRecorder = false ∧
      r.writer = some (Record.newReplayRecord false info) ∧
      r.absGzipFilePath = r.absFilePath ++ replayGzFilenameSuffix := by
    unfold getReplayRecorder newReplayRecord at hr
    simp only [hconf, Bool.not_true, Bool.false_eq_true, if_false] at hr
    split_ifs at hr
    cases hr
    exact ⟨rfl, rfl, joinPath_append (by decide) (by decide) (by decide)⟩
  obtain ⟨hd, hw, hpath⟩ := hshape
  obtain ⟨w', hfold, hall⟩ := foldlM_record_writer codec hd hw chunks
  have hpaths : r.absGzipFilePath ≠ r.absFilePath := by
    intro heq
    rw [hpath] at heq
    exact absurd (List.append_right_eq_self.mp heq) (by decide)
  let r' : Recorder := { r with writer := some w' }
  have hfile : r'.written files r'.absFilePath = some w'.file := Function.update_self ..
  have hgone : r'.written files r'.absGzipFilePath = none :=
    (Function.update_of_ne hpaths ..).trans hgz
  have hne : w'.file ≠ [] := by
    rw [hall rfl]
    exact file_recordAll_ne_nil codec info hchunks
  refine ⟨r', r'.endReplay gzip fails now (r'.written files), ?_, ?_, ?_⟩
  · show (chunks.foldlM (Recorder.record codec) r).bind _ = _
    rw [hfold]
    rfl
  · exact endReplay_original hfile hne hd hstat hgone hremove
  · refine ⟨_, endReplay_archive hfile hne hd hstat hgone hc, ?_⟩
    rw [gzip.decompress_compress, hall rfl]

end GoJump.Proxy.Replay
