/- DuckdbOpendalfs/FileSystem/HandleMetadata
   digest: What is answered about a file that is open: a snapshot to readers, the object to writers. -/

import DuckdbOpendalfs.FileSystem.RoundTrip

set_option autoImplicit false
set_option relaxedAutoImplicit false

namespace DuckdbOpendalfs.FileSystem.HandleMetadata

open Text.ByteString
open Collections.Stores
open Execution.Programs Execution.Runs
open Address.Uri
open Operators.LayerOptions Operators.Objects
open Operators.Configuration (Backend FileOpener FileSystemM OpenDALFileSystem Operator call)
open Handles.FileHandle Handles.WriteHandle Handles.RetriedUploads
open Handles.AppendRuns (bufferOf)
open Handles.Readers Handles.ReadHandle
open Operations Isolation Sessions RoundTrip

inductive MetadataQuery
  | getFileSize
  | stats
  | getLastModifiedTime
  | getVersionTag
  | getFileType
  deriving DecidableEq, Repr

inductive MetadataAnswer
  | fileSize (size : Int64)
  | metadata (metadata : FileMetadata)
  | lastModifiedTime (time : Option Int)
  | versionTag (tag : Bytes)
  | fileType (type : FileType)
  deriving DecidableEq, Repr

def MetadataQuery.ask (metadata : FileMetadata) : MetadataQuery → MetadataAnswer
  | .getFileSize => .fileSize metadata.fileSize
  | .stats => .metadata metadata
  | .getLastModifiedTime => .lastModifiedTime metadata.lastModificationTime
  | .getVersionTag => .versionTag metadata.versionTag
  | .getFileType => .fileType metadata.fileType

section ReadHandles

variable {c : Bytes} {R : Reader c}

def queryReadHandle (handle_p : OpenDALReadHandle R) : MetadataQuery → Except Exception MetadataAnswer
  | .getFileSize => handle_p.size.map fun size => .fileSize size.toInt64
  | .stats => handle_p.stats.map .metadata
  | .getLastModifiedTime =>
    handle_p.stats.map fun metadata => .lastModifiedTime metadata.lastModificationTime
  | .getVersionTag => handle_p.stats.map fun metadata => .versionTag metadata.versionTag
  | .getFileType => handle_p.stats.map fun metadata => .fileType metadata.fileType

def fileStep (R : Reader c) (handle : OpenDALReadHandle R) : ReadOp ⊕ MetadataQuery →
    (Except Exception ReadReply ⊕ Except Exception MetadataAnswer) × OpenDALReadHandle R
  | .inl op =>
    let answer := handleStep R handle op
    (.inl answer.1, answer.2)
  | .inr query => (.inr (queryReadHandle handle query), handle)

/-- The questions among the uses of a file as a snapshot answers them, until the file is closed. -/
def snapshotAnswers (metadata : FileMetadata) : Bool → List (ReadOp ⊕ MetadataQuery) →
    List (Except Exception MetadataAnswer)
  | _, [] => []
  | _, .inl .close :: steps => snapshotAnswers metadata false steps
  | isOpen, .inl (.call _) :: steps => snapshotAnswers metadata isOpen steps
  | isOpen, .inr query :: steps =>
    (if isOpen then .ok (query.ask metadata) else .error handleClosed) ::
      snapshotAnswers metadata isOpen steps

private theorem queryReadHandle_eq (handle : OpenDALReadHandle R) (query : MetadataQuery) :
    queryReadHandle handle query =
      if handle.closed then .error handleClosed else .ok (query.ask handle.metadata) := by
  obtain ⟨flags, metadata, reader, position, closed⟩ := handle
  cases closed with
  | true => cases query <;> rfl
  | false =>
    cases query with
    | getFileSize =>
      change Except.ok (MetadataAnswer.fileSize metadata.fileSize.toUInt64.toInt64) = _
      rw [Int64.toInt64_toUInt64]
      rfl
    | stats | getLastModifiedTime | getVersionTag | getFileType => rfl

def Same (before after : OpenDALReadHandle R) : Prop :=
  after.metadata = before.metadata ∧ after.closed = before.closed

private theorem read_same (handle : OpenDALReadHandle R) (null : Bool) (size : UInt64) :
    Same handle (handle.read null size).2 := by
  unfold OpenDALReadHandle.read
  split_ifs
  iterate 5 exact ⟨rfl, rfl⟩
  split
  · exact ⟨rfl, rfl⟩
  · split <;> exact ⟨rfl, rfl⟩

private theorem readAt_same (handle : OpenDALReadHandle R) (null : Bool) (size offset : UInt64) :
    Same handle (handle.readAt null size offset).2 := by
  unfold OpenDALReadHandle.readAt
  split_ifs
  iterate 4 exact ⟨rfl, rfl⟩
  split <;> exact ⟨rfl, rfl⟩

private theorem seek_same (handle : OpenDALReadHandle R) (offset : UInt64) :
    Same handle (handle.seek offset).2 := by
  unfold OpenDALReadHandle.seek
  split_ifs
  iterate 2 exact ⟨rfl, rfl⟩
  split
  · exact ⟨rfl, rfl⟩
  · split <;> exact ⟨rfl, rfl⟩

theorem readStep_same (handle : OpenDALReadHandle R) (call : ReadCall) :
    Same handle (readStep R handle call).2 := by
  cases call with
  | seek location => exact seek_same handle location
  | reset => exact seek_same handle 0
  | read null size =>
    rw [readStep, Handles.ReadHandle.OpenDALFileSystem.read]
    split_ifs
    · exact ⟨rfl, rfl⟩
    · exact read_same handle null size.toUInt64
  | readAt null size offset =>
    rw [readStep, Handles.ReadHandle.OpenDALFileSystem.readAt]
    split_ifs
    · exact ⟨rfl, rfl⟩
    · have hsame := readAt_same handle null size.toUInt64 offset
      generalize handle.readAt null size.toUInt64 offset = answer at hsame ⊢
      obtain ⟨e | filled, handle'⟩ := answer
      · exact hsame
      · dsimp only
        split_ifs <;> exact hsame
  | seekPosition =>
    rw [readStep, Handles.ReadHandle.OpenDALFileSystem.seekPosition]
    split_ifs <;> exact ⟨rfl, rfl⟩

private theorem close_same (handle : OpenDALReadHandle R) :
    handle.close.metadata = handle.metadata ∧ handle.close.closed = true := by
  unfold OpenDALReadHandle.close
  split_ifs with hclosed
  · exact ⟨rfl, hclosed⟩
  · exact ⟨rfl, rfl⟩

private theorem fileSteps (handle : OpenDALReadHandle R) (steps : List (ReadOp ⊕ MetadataQuery)) :
    (run (fileStep R) handle steps).1.filterMap Sum.getRight? =
        snapshotAnswers handle.metadata (!handle.closed) steps ∧
      (run (fileStep R) handle steps).1.filterMap Sum.getLeft? =
        (run (handleStep R) handle (steps.filterMap Sum.getLeft?)).1 := by
  induction steps generalizing handle with
  | nil => exact ⟨rfl, rfl⟩
  | cons step steps ih =>
    obtain ⟨hquestions, huses⟩ := ih (fileStep R handle step).2
    rw [run_cons_answers]
    cases step with
    | inr query =>
      refine ⟨?_, huses⟩
      rw [List.filterMap_cons_some (rfl : Sum.getRight? (fileStep R handle (.inr query)).1 =
        some (queryReadHandle handle query)), hquestions, queryReadHandle_eq]
      cases hclosed : handle.closed <;> simp [snapshotAnswers, fileStep, hclosed]
    | inl op =>
      refine ⟨?_, congrArg ((handleStep R handle op).1 :: ·) huses⟩
      cases op with
      | close =>
        obtain ⟨hmetadata, hclosed⟩ := close_same handle
        refine hquestions.trans ?_
        change snapshotAnswers handle.close.metadata (!handle.close.closed) steps = _
        rw [hmetadata, hclosed]
        rfl
      | call call =>
        obtain ⟨hmetadata, hclosed⟩ := readStep_same handle call
        refine hquestions.trans ?_
        change snapshotAnswers (readStep R handle call).2.metadata
          (!(readStep R handle call).2.closed) steps = _
        rw [hmetadata, hclosed]
        rfl

/-- Whatever its reader answers and in any order of uses and questions: until it is closed, a read
handle answers every question from the metadata it was opened with, afterwards it throws; and the
questions make no difference to what the uses are answered. -/
theorem readHandle_snapshot (R : Reader c) (flags : FileOpenFlags) (metadata : FileMetadata)
    (steps : List (ReadOp ⊕ MetadataQuery)) :
    let answers := (run (fileStep R) (OpenDALReadHandle.opened R flags metadata) steps).1
    answers.filterMap Sum.getRight? = snapshotAnswers metadata true steps ∧
      answers.filterMap Sum.getLeft? = (run (handleStep R) (OpenDALReadHandle.opened R flags metadata)
        (steps.filterMap Sum.getLeft?)).1 :=
  fileSteps (OpenDALReadHandle.opened R flags metadata) steps

end ReadHandles

section WriteHandles

/-- The metadata of a file that is open for writing are those of its object. -/
def writeHandleStats (op : Operator) (path : Bytes) (handle_p : OpenDALWriteHandle) :
    FileSystemM FileMetadata := do
  ensureOpen handle_p.closed
  let metadata ← call (.stat op path)
  convertMetadata metadata

/-- The questions about a write handle. Its size is what it has accepted. -/
def queryWriteHandle (op : Operator) (path : Bytes) (handle_p : OpenDALWriteHandle) :
    MetadataQuery → FileSystemM MetadataAnswer
  | .getFileSize => do
    let size ← Handles.WriteHandle.OpenDALFileSystem.getFileSize handle_p
    return .fileSize size
  | .stats => do
    let metadata ← writeHandleStats op path handle_p
    return .metadata metadata
  | .getLastModifiedTime => do
    let metadata ← writeHandleStats op path handle_p
    return .lastModifiedTime metadata.lastModificationTime
  | .getVersionTag => do
    let metadata ← writeHandleStats op path handle_p
    return .versionTag metadata.versionTag
  | .getFileType => do
    let metadata ← writeHandleStats op path handle_p
    return .fileType metadata.fileType

variable {ι κ : Type} [DecidableEq κ] [DecidableEq ι]
  {locate : Bytes → StringMapValue → Bytes → κ} {backend : Backend (Store κ Bytes)}
  {uploads : Nat → Uploader} {w₀ : Store κ Bytes} {contents : Nat → Bytes} {world : World ι κ}

omit [DecidableEq κ] in
private theorem run_writeHandleStats {op : Operator} {path : Bytes} {handle : OpenDALWriteHandle}
    {w : Store κ Bytes} {metadata : FileMetadata} (isOpen : ¬ handle.closed = true)
    (stats : StatsAs backend op path w metadata) :
    (writeHandleStats op path handle).run backend w = (.ok metadata, w) := by
  obtain ⟨found, hstat, hconvert⟩ := stats
  rw [writeHandleStats, ensureOpen, if_neg isOpen, Program.run_bind, Program.run_lift]
  dsimp only
  rw [Program.run_bind, Program.run_perform, hstat]
  dsimp only
  rw [Program.run_lift, hconvert]

private theorem step_stays_open (backend : Backend (Store κ Bytes)) (uploads : Nat → Uploader)
    (consistent : Consistent w₀ contents world) {event : Event ι}
    {h : Nat} {writer : OpenWriter κ} (inUse : world.writers[h]? = some writer)
    (isOpen : ¬ writer.isClosed) (alone : LeavesAlone locate writer.target world event) :
    ∃ writer' : OpenWriter κ, (step backend uploads world event).2.writers[h]? = some writer' ∧
      ¬ writer'.isClosed ∧ writer'.target = writer.target := by
  rcases step_cases backend uploads consistent event with habsent | ⟨i, -, hstep⟩ |
    ⟨h', writer', session, resumed⟩
  · rw [habsent]
    exact ⟨writer, inUse, isOpen, rfl⟩
  · rw [hstep]
    exact ⟨writer, joined_kept uploads _ inUse, isOpen, rfl⟩
  · rw [resumed.writers, resume_writers]
    by_cases hh : h' = h
    · subst hh
      obtain rfl : writer = writer' := Option.some.inj (inUse.symm.trans resumed.inUse)
      rw [if_pos rfl, inUse]
      refine ⟨_, rfl, fun hclosed => isOpen ?_, rfl⟩
      rcases resumed.closing isOpen hclosed with rfl | rfl
      · exact alone rfl writer inUse rfl
      · exact alone writer inUse rfl
    · rw [if_neg hh]
      exact ⟨writer, inUse, isOpen, rfl⟩

private theorem run_stays_open (honest : Provenance.HonestBackend locate backend)
    (lawful : ∀ n, AllOrNothing (uploads n)) (consistent : Consistent w₀ contents world)
    {events : List (Event ι)} {h : Nat}
    {writer : OpenWriter κ} (inUse : world.writers[h]? = some writer) (isOpen : ¬ writer.isClosed)
    (alone : AllLeaveAlone locate backend uploads writer.target world events) :
    ∃ writer' : OpenWriter κ,
      (after (step backend uploads) world events).writers[h]? = some writer' ∧
        ¬ writer'.isClosed := by
  induction events generalizing contents world writer with
  | nil => exact ⟨writer, inUse, isOpen⟩
  | cons event events ih =>
    obtain ⟨writer', hwriter', isOpen', htarget⟩ :=
      step_stays_open backend uploads consistent inUse isOpen alone.1
    refine ih (step_consistent honest lawful consistent event) hwriter' isOpen' ?_
    rw [htarget]
    exact alone.2

/-- A handle for writing is open, and for a while nothing changes its object. Then the size of the
file is all that the handle has accepted so far (in 64 bits, read as a signed number), and every
other question is answered from the metadata that the backend has of the object. -/
theorem open_writer_metadata [StringUtil] (serving : ServingBackend locate backend)
    (lawful : ∀ n, AllOrNothing (uploads n)) (fs : OpenDALFileSystem)
    (openers : ι → Option FileOpener) (operations : ι → List FileOperation) (w : Store κ Bytes)
    (front later : List (Event ι)) {h : Nat} {writer : OpenWriter κ}
    (inUse : (after (step backend uploads) (start locate fs openers operations w) front).writers[h]? =
      some writer)
    (isOpen : ¬ writer.isClosed)
    (alone : AllLeaveAlone locate backend uploads writer.target
      (after (step backend uploads) (start locate fs openers operations w) front) later)
    {data : Bytes}
    (present : (after (step backend uploads) (start locate fs openers operations w) front).store
      writer.target = some data)
    (small : data.length < 2 ^ 63) {op : Operator} {path : Bytes}
    (names : object locate op path = writer.target) :
    let ended := run (step backend uploads) (start locate fs openers operations w) (front ++ later)
    ended.2.store (object locate op path) = some data ∧
      ∃ writer' : OpenWriter κ, ended.2.writers[h]? = some writer' ∧
        (queryWriteHandle op path writer'.session.handle .getFileSize).run backend ended.2.store =
          (.ok (.fileSize (UInt64.ofNat (contentOf h (front ++ later) ended.1).length).toInt64),
            ended.2.store) ∧
        ∃ metadata : FileMetadata, StatsAs backend op path ended.2.store metadata ∧
          metadata.fileSize.toInt = data.length ∧
          ∀ query, query ≠ .getFileSize →
            (queryWriteHandle op path writer'.session.handle query).run backend ended.2.store =
              (.ok (query.ask metadata), ended.2.store) := by
  intro ended
  have hfront := run_consistent serving.toHonestBackend lawful
    (consistent_start locate fs openers operations w) front
  have hended := run_consistent serving.toHonestBackend lawful
    (consistent_start locate fs openers operations w) (front ++ later)
  obtain ⟨writer', hwriter', isOpen'⟩ :=
    run_stays_open serving.toHonestBackend lawful hfront inUse isOpen alone
  rw [← after_append] at hwriter'
  have hstore : ended.2.store (object locate op path) = some data := by
    change (after (step backend uploads) (start locate fs openers operations w)
      (front ++ later)).store _ = _
    rw [after_append, names, run_alone serving lawful hfront alone, present]
  have hopen : ¬ writer'.session.handle.closed = true := isOpen'
  refine ⟨hstore, writer', hwriter', ?_, ?_⟩
  · have hposition := (hended.writers h writer' hwriter').position
    rw [List.nil_append] at hposition
    rw [queryWriteHandle, Handles.WriteHandle.OpenDALFileSystem.getFileSize, OpenDALWriteHandle.size,
      ensureOpen, if_neg hopen, hposition]
    rfl
  · obtain ⟨metadata, hstatsAs, hsize⟩ := serving.statsAs hstore small
    have hstats := run_writeHandleStats hopen hstatsAs
    refine ⟨metadata, hstatsAs, hsize, fun query other => ?_⟩
    cases query with
    | getFileSize => exact absurd rfl other
    | stats | getLastModifiedTime | getVersionTag | getFileType =>
      rw [queryWriteHandle, Program.run_bind, hstats]
      rfl

theorem open_writer_metadata_uncommitted :
    letI : StringUtil := percentDecoding
    let writing : FileOpenFlags := { openForWriting := true, overwriteExistingFile := true }
    let operations : Bool → List FileOperation := fun i =>
      if i then [.openFile (bytes "gs://b/a") writing]
      else [.openFile (bytes "gs://b/b") writing]
    let uploads : Nat → Uploader := fun _ => stagingUploader fun _ _ => .ok ()
    let front : List (Event Bool) := List.replicate 6 (.step true) ++
      List.replicate 6 (.step false) ++ [.write 0 (.write (bufferOf (bytes "ab")) 2)]
    let later : List (Event Bool) :=
      [.step false, .write 1 (.write (bufferOf (bytes "z")) 1), .write 1 .close]
    let ended := run (step (storeBackend byPath) uploads)
      (start byPath {} (fun _ => none) operations fun _ => none) (front ++ later)
    let op : Operator := ⟨bytes "gcs", AList.singleton (bytes "bucket") (bytes "b"), []⟩
    ∃ writer' : OpenWriter Bytes, ended.2.writers[0]? = some writer' ∧
      (queryWriteHandle op (bytes "a") writer'.session.handle .getFileSize).run (storeBackend byPath)
        ended.2.store = (.ok (.fileSize 2), ended.2.store) ∧
      ∃ metadata : FileMetadata, StatsAs (storeBackend byPath) op (bytes "a") ended.2.store metadata ∧
        metadata.fileSize.toInt = 0 ∧
        (queryWriteHandle op (bytes "a") writer'.session.handle .stats).run (storeBackend byPath)
          ended.2.store = (.ok (.metadata metadata), ended.2.store) := by
  let _ : StringUtil := percentDecoding
  intro writing operations uploads front later ended op
  let machine : World Bool Bytes → Event Bool → Observation × World Bool Bytes :=
    step (storeBackend byPath) uploads
  let origin : World Bool Bytes := start byPath {} (fun _ => none) operations fun _ => none
  obtain ⟨writer, hwriter⟩ : ∃ writer, (after machine origin front).writers[0]? = some writer :=
    Option.isSome_iff_exists.mp (by decide +kernel)
  have hopen : (after machine origin front).writers[0]?.map
      (fun writer => (writer.target, writer.session.handle.closed)) = some (bytes "a", false) := by
    decide +kernel
  rw [hwriter, Option.map_some, Option.some_inj, Prod.mk.injEq] at hopen
  have hidle : ((after machine origin front).threads false).programs = [] :=
    List.isEmpty_iff.mp (by decide +kernel)
  have hother : (machine (after machine origin front) (.step false)).2.writers[1]?.map
      OpenWriter.target = some (bytes "b") := by decide +kernel
  have hother' : (machine (machine (after machine origin front) (.step false)).2
      (.write 1 (.write (bufferOf (bytes "z")) 1))).2.writers[1]?.map OpenWriter.target =
        some (bytes "b") := by decide +kernel
  have hcontent : contentOf 0 (front ++ later) ended.1 = bytes "ab" := by decide +kernel
  have hempty : (after machine origin front).store (bytes "a") = some [] := by decide +kernel
  have hapart : bytes "b" ≠ writer.target := by
    rw [hopen.1]
    decide
  have halone (w₁ : World Bool Bytes) (idle : (w₁.threads false).programs = [])
      (other : (machine w₁ (.step false)).2.writers[1]?.map OpenWriter.target = some (bytes "b"))
      (other' : (machine (machine w₁ (.step false)).2 (.write 1 (.write (bufferOf (bytes "z"))
        1))).2.writers[1]?.map OpenWriter.target = some (bytes "b")) :
      AllLeaveAlone byPath (storeBackend byPath) uploads writer.target w₁ later :=
    ⟨leavesAlone_idle _ idle, leavesAlone_other other hapart _, leavesAlone_other other' hapart _,
      trivial⟩
  have isOpen : ¬ writer.isClosed := by
    rw [OpenWriter.isClosed, hopen.2]
    exact Bool.false_ne_true
  have hnames : object byPath op (bytes "a") = writer.target := hopen.1.symm
  have hlater := halone _ hidle hother hother'
  rw [← hopen.1] at hempty
  have hlawful (n : Nat) : AllOrNothing (uploads n) := stagingUploader_allOrNothing _
  clear_value operations uploads front later
  obtain ⟨-, writer', hwriter', hsize, metadata, hstats, hlength, hquery⟩ := open_writer_metadata
    (storeBackend_serving byPath) hlawful {} (fun _ => none) operations (fun _ => none) front later
    hwriter isOpen hlater hempty (by decide) hnames
  rw [hcontent] at hsize
  exact ⟨writer', hwriter', hsize, metadata, hstats, hlength, hquery .stats (by decide)⟩

end WriteHandles

end DuckdbOpendalfs.FileSystem.HandleMetadata
