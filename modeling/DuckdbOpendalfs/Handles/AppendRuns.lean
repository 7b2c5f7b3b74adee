/- DuckdbOpendalfs/Handles/AppendRuns
   digest: Over a writer that throws nothing, a write handle commits what it accepted, once. -/

import DuckdbOpendalfs.Handles.OpenFile
import DuckdbOpendalfs.Operators.Objects

set_option autoImplicit false
set_option relaxedAutoImplicit false

namespace DuckdbOpendalfs.Handles.AppendRuns

open Text.ByteString
open Execution.Runs Execution.Programs
open Address.Prefixes Address.Uri
open Operators.LayerOptions
open Operators.Configuration (Backend FileOpener)
open Operators.Objects (storeBackend)
open FileHandle WriteHandle OpenFile

structure Upload where
  buffered : Bytes := []
  committed : List Bytes := []
  deriving DecidableEq, Repr

def Upload.step (upload : Upload) : WriterCall → Upload
  | .write data => { upload with buffered := upload.buffered ++ data }
  | .flush => upload
  | .close => { upload with committed := upload.committed ++ [upload.buffered] }

def uploadOf (calls : List WriterCall) : Upload := calls.foldl Upload.step {}

@[simp] theorem uploadOf_concat (calls : List WriterCall) (c : WriterCall) :
    uploadOf (calls ++ [c]) = (uploadOf calls).step c := by
  rw [uploadOf, List.foldl_append]
  rfl

def answersAll : WriterAnswers := fun _ _ => .ok ()

def accepted (op : WriteOp) : Except Exception WriteReply → Bytes
  | .ok _ => payload op
  | .error _ => []

def acceptedBytes : List WriteOp → List (Except Exception WriteReply) → Bytes
  | op :: ops, answer :: answers => accepted op answer ++ acceptedBytes ops answers
  | _, _ => []

section Invariant

structure Appending (session : WriteSession) (content : Bytes) : Prop where
  sound : Sound session
  position : session.handle.position = UInt64.ofNat content.length
  upload : uploadOf session.calls =
    { buffered := content, committed := if session.handle.closed then [content] else [] }

theorem appending_opened (flags : FileOpenFlags) : Appending (WriteSession.opened flags) [] where
  sound := sound_opened flags
  position := rfl
  upload := rfl

variable {session : WriteSession} {content : Bytes}

theorem writeStep_appends_of_ok (answers : WriterAnswers) (appending : Appending session content)
    {op : WriteOp} {reply : WriteReply} (returns : (writeStep answers session op).1 = .ok reply) :
    Appending (writeStep answers session op).2 (content ++ payload op) := by
  have heffect := writeStep_effect answers appending.sound op
  have hsound := writeStep_sound answers appending.sound op
  generalize writeStep answers session op = result at heffect hsound returns
  cases heffect with
  | rejected | threw => cases returns
  | observed reply' empty closing => rwa [empty, List.append_nil]
  | wrote reply' isOpen accepts =>
    refine ⟨hsound, ?_, ?_⟩
    · rw [WriteSession.advance_position, WriteSession.called_handle, appending.position,
        List.length_append, UInt64.ofNat_add]
    · rw [WriteSession.advance_calls, WriteSession.called_calls, uploadOf_concat, appending.upload,
        WriteSession.advance_closed, WriteSession.called_handle, isOpen]
      rfl
  | flushed sync isOpen answered =>
    have hnothing : content ++ payload op = content := by
      rw [sync]
      exact List.append_nil content
    rw [hnothing]
    refine ⟨hsound, appending.position, ?_⟩
    rw [WriteSession.called_calls, uploadOf_concat]
    exact appending.upload
  | closed closing isOpen answered =>
    have hnothing : content ++ payload op = content := by
      rw [closing]
      exact List.append_nil content
    rw [hnothing]
    refine ⟨hsound, appending.position, ?_⟩
    rw [WriteSession.reset_calls, WriteSession.called_calls, uploadOf_concat, appending.upload,
      isOpen]
    rfl

private theorem writeStep_error (sound : Sound session) {op : WriteOp} {e : Exception}
    (throws : (writeStep answersAll session op).1 = .error e) :
    (writeStep answersAll session op).2 = session := by
  have heffect := writeStep_effect answersAll sound op
  generalize writeStep answersAll session op = result at heffect throws
  cases heffect with
  | rejected => rfl
  | threw c e isOpen thrown => cases thrown
  | observed | wrote | flushed | closed => cases throws

theorem writeStep_appends (appending : Appending session content) (op : WriteOp) :
    Appending (writeStep answersAll session op).2
      (content ++ accepted op (writeStep answersAll session op).1) := by
  cases hanswer : (writeStep answersAll session op).1 with
  | error e => rwa [writeStep_error appending.sound hanswer, accepted, List.append_nil]
  | ok reply => exact writeStep_appends_of_ok answersAll appending hanswer

theorem run_appends (appending : Appending session content) (ops : List WriteOp) :
    Appending (run (writeStep answersAll) session ops).2
      (content ++ acceptedBytes ops (run (writeStep answersAll) session ops).1) := by
  induction ops generalizing session content with
  | nil => exact (List.append_nil content).symm ▸ appending
  | cons op ops ih =>
    have hstep := ih (writeStep_appends appending op)
    rwa [List.append_assoc] at hstep

theorem writeStep_closed_iff (sound : Sound session) (op : WriteOp) :
    (writeStep answersAll session op).2.handle.closed = true ↔
      session.handle.closed = true ∨ op = .close := by
  by_cases hclose : op = .close
  · subst hclose
    refine iff_of_true ?_ (Or.inr rfl)
    simp only [writeStep, OpenDALWriteHandle.close]
    by_cases hclosed : session.handle.closed = true
    · rwa [if_pos hclosed]
    · rw [if_neg hclosed, sound.callWriter answersAll (Bool.eq_false_of_not_eq_true hclosed)]
      rfl
  · have heffect := writeStep_effect answersAll sound op
    generalize writeStep answersAll session op = result at heffect
    cases heffect with
    | rejected | observed | threw | wrote | flushed => simp [hclose]
    | closed closing => exact absurd closing hclose

theorem writeStep_flags (sound : Sound session) (op : WriteOp) :
    (writeStep answersAll session op).2.handle.flags = session.handle.flags := by
  have heffect := writeStep_effect answersAll sound op
  generalize writeStep answersAll session op = result at heffect
  cases heffect <;> rfl

theorem run_closed_iff (sound : Sound session) (ops : List WriteOp) :
    (run (writeStep answersAll) session ops).2.handle.closed = true ↔
      session.handle.closed = true ∨ .close ∈ ops := by
  induction ops generalizing session with
  | nil => simp [run]
  | cons op ops ih =>
    change (run (writeStep answersAll) (writeStep answersAll session op).2 ops).2.handle.closed =
      true ↔ _
    rw [ih (writeStep_sound answersAll sound op), writeStep_closed_iff sound, List.mem_cons,
      or_assoc, @eq_comm _ op .close]

theorem run_flags (sound : Sound session) (ops : List WriteOp) :
    (run (writeStep answersAll) session ops).2.handle.flags = session.handle.flags := by
  have hkeeps (s : WriteSession) (op : WriteOp)
      (kept : Sound s ∧ s.handle.flags = session.handle.flags) :
      Sound (writeStep answersAll s op).2 ∧
        (writeStep answersAll s op).2.handle.flags = session.handle.flags :=
    ⟨writeStep_sound answersAll kept.1 op, (writeStep_flags kept.1 op).trans kept.2⟩
  have hstart : Sound session ∧ session.handle.flags = session.handle.flags := ⟨sound, rfl⟩
  exact (after_invariant hkeeps hstart ops).2

end Invariant

section Promise

variable {session : WriteSession} {content : Bytes}

theorem destroy_appends (appending : Appending session content) :
    (destroy answersAll session).1 = .destroyed ∧
      (uploadOf (destroy answersAll session).2.calls).committed = [content] := by
  unfold destroy
  by_cases hclosed : session.handle.closed = true
  · rw [close_closed answersAll hclosed]
    refine ⟨rfl, ?_⟩
    change (uploadOf session.calls).committed = _
    rw [appending.upload, if_pos hclosed]
  · rw [close_open answersAll appending.sound (Bool.eq_false_of_not_eq_true hclosed)]
    refine ⟨rfl, ?_⟩
    change (uploadOf (session.calls ++ [.close])).committed = _
    rw [uploadOf_concat, appending.upload, if_neg hclosed]
    rfl

/-- What a write handle keeps after the calls `ops` with the answers `answers`. The counters have
64 bits, so they count modulo `2 ^ 64`, and a size is read as a signed number. -/
structure Promise (ops : List WriteOp) (answers : List (Except Exception WriteReply))
    (session : WriteSession) : Prop where
  committed_once : (destroy answersAll session).1 = .destroyed ∧
    (uploadOf (destroy answersAll session).2.calls).committed = [acceptedBytes ops answers]
  committed_at_close : .close ∈ ops →
    (uploadOf session.calls).committed = [acceptedBytes ops answers] ∧
      (destroy answersAll session).2.calls = session.calls
  not_before : .close ∉ ops → (uploadOf session.calls).committed = []
  counters : .close ∉ ops →
    OpenDALFileSystem.seekPosition session.handle =
        .ok (UInt64.ofNat (acceptedBytes ops answers).length) ∧
      OpenDALFileSystem.getFileSize session.handle =
        .ok (UInt64.ofNat (acceptedBytes ops answers).length).toInt64
  exact_counters : .close ∉ ops → (acceptedBytes ops answers).length < 2 ^ 63 →
    ∃ offset size, OpenDALFileSystem.seekPosition session.handle = .ok offset ∧
      OpenDALFileSystem.getFileSize session.handle = .ok size ∧
      offset.toNat = (acceptedBytes ops answers).length ∧
      size.toInt = (acceptedBytes ops answers).length
  positional : ∀ buffer size offset reply,
    (writeStep answersAll session (.writeAt buffer size offset)).1 = .ok reply →
      OpenDALFileSystem.seekPosition session.handle = .ok offset
  positional_throws : ∀ buffer size offset e,
    (writeStep answersAll session (.writeAt buffer size offset)).1 = .error e →
      (writeStep answersAll session (.writeAt buffer size offset)).2 = session
  closed : .close ∈ ops → ∀ op, op ≠ .close →
    ∃ e, writeStep answersAll session op = (.error e, session)
  closed_again : .close ∈ ops → writeStep answersAll session .close = (.ok .done, session)

private theorem seekPosition_open (writing : session.handle.flags.openForReading = false)
    (isOpen : session.handle.closed = false) :
    OpenDALFileSystem.seekPosition session.handle = .ok session.handle.position := by
  simp [OpenDALFileSystem.seekPosition, OpenDALWriteHandle.tell, ensureOpen, writing, isOpen,
    Except.map]

private theorem getFileSize_open (isOpen : session.handle.closed = false) :
    OpenDALFileSystem.getFileSize session.handle = .ok session.handle.position.toInt64 := by
  simp [OpenDALFileSystem.getFileSize, OpenDALWriteHandle.size, ensureOpen, isOpen, Except.map]

theorem opened_promise (flags : FileOpenFlags) (writing : flags.openForReading = false)
    (ops : List WriteOp) :
    Promise ops (run (writeStep answersAll) (WriteSession.opened flags) ops).1
      (run (writeStep answersAll) (WriteSession.opened flags) ops).2 := by
  have hopened := sound_opened flags
  have happends := run_appends (appending_opened flags) ops
  have hclosed := run_closed_iff hopened ops
  have hflags := run_flags hopened ops
  generalize run (writeStep answersAll) (WriteSession.opened flags) ops = result at *
  obtain ⟨answers, session⟩ := result
  rw [List.nil_append] at happends
  have hwriting : session.handle.flags.openForReading = false := hflags ▸ writing
  have hstill (open_ : .close ∉ ops) : session.handle.closed = false := by
    by_contra hne
    rcases hclosed.mp (Bool.eq_true_of_not_eq_false hne) with h | h
    · cases h
    · exact open_ h
  have hcounters (open_ : .close ∉ ops) := And.intro
    (happends.position ▸ seekPosition_open hwriting (hstill open_))
    (happends.position ▸ getFileSize_open (hstill open_))
  refine
    { committed_once := destroy_appends happends
      committed_at_close := fun hclose => ?_
      not_before := fun open_ => ?_
      counters := hcounters
      exact_counters := fun open_ hlength => ?_
      positional := fun buffer size offset reply hok => ?_
      positional_throws := fun buffer size offset e throws => writeStep_error happends.sound throws
      closed := fun hclose op other =>
        writeStep_closed answersAll happends.sound (hclosed.mpr (Or.inr hclose)) other
      closed_again := fun hclose =>
        writeStep_close_closed answersAll (hclosed.mpr (Or.inr hclose)) }
  · have hend := hclosed.mpr (Or.inr hclose)
    refine ⟨by rw [happends.upload, if_pos hend], ?_⟩
    rw [destroy, close_closed answersAll hend]
  · rw [happends.upload, if_neg (by simp [hstill open_])]
  · refine ⟨_, _, (hcounters open_).1, (hcounters open_).2, ?_, ?_⟩
    · rw [UInt64.toNat_ofNat']
      omega
    · rw [UInt64.toInt64_ofNat', Int64.toInt_ofNat_of_lt hlength]
  · obtain ⟨isOpen, rfl⟩ := writeAt_ok answersAll hok
    exact seekPosition_open hwriting isOpen

/-- A handle that `openFile` returns for writing keeps the promise in every run, whatever the
backend answered while it was opened. -/
theorem openFile_promise [StringUtil] {σ : Type} {backend : Backend σ}
    {fs : Operators.Configuration.OpenDALFileSystem} {path : Bytes} {flags : FileOpenFlags}
    {opener : Option FileOpener} {w w' : σ} {handle : OpenDALWriteHandle}
    (opened : (openFile fs path flags opener).run backend w = (.ok (some (.write handle)), w'))
    (ops : List WriteOp) :
    Promise ops (run (writeStep answersAll) ⟨handle, []⟩ ops).1
      (run (writeStep answersAll) ⟨handle, []⟩ ops).2 := by
  obtain ⟨rfl, writing⟩ := (openFile_returns fs path flags opener).of_run backend opened
  exact opened_promise flags writing ops

end Promise

def bufferOf (data : Bytes) : Buffer := .memory fun i => data.getD i 0

theorem openFile_promise_memory :
    letI : StringUtil := percentDecoding
    let opened := (openFile {} (bytes "memory://hello.txt")
      { openForWriting := true, createFileIfNotExists := true } none).run
      (storeBackend fun _ _ path => path) fun _ => none
    let handle := OpenDALWriteHandle.opened { openForWriting := true, createFileIfNotExists := true }
    let result := run (writeStep answersAll) ⟨handle, []⟩
      [.write (bufferOf (bytes "hello ")) 6, .writeAt (bufferOf (bytes "x")) 1 3,
        .write (bufferOf (bytes "world")) 5, .close, .close]
    opened.1 = .ok (some (.write handle)) ∧
      (uploadOf (destroy answersAll result.2).2.calls).committed = [bytes "hello world"] := by
  let _ : StringUtil := percentDecoding
  intro opened handle result
  have hopened : opened.1 = .ok (some (.write handle)) := by decide +kernel
  have hpromise : Promise _ result.1 result.2 :=
    openFile_promise (Prod.ext hopened rfl)
      [.write (bufferOf (bytes "hello ")) 6, .writeAt (bufferOf (bytes "x")) 1 3,
        .write (bufferOf (bytes "world")) 5, .close, .close]
  refine ⟨hopened, hpromise.committed_once.2.trans ?_⟩
  decide +kernel

/-- Two writes of `2 ^ 62` bytes leave a size that reads as negative, and a second close returns. -/
theorem writes_wrap_fileSize :
    let half : WriteOp := .write (.memory fun _ => 0) (2 ^ 62)
    let result := run (writeStep answersAll) (WriteSession.opened { openForWriting := true })
      [half, half]
    let closed := (writeStep answersAll result.2 .close).2
    (acceptedBytes [half, half] result.1).length = 2 ^ 63 ∧
      OpenDALFileSystem.getFileSize result.2.handle = .ok Int64.minValue ∧
      writeStep answersAll closed .close = (.ok .done, closed) := by
  intro half result closed
  have hpayload : (payload half).length = 2 ^ 62 := by
    simp only [half, payload, Buffer.take, List.length_map, List.length_range]
    decide +kernel
  have hanswers : result.1 = [.ok (.count (2 ^ 62)), .ok (.count (2 ^ 62))] := by decide +kernel
  have hclosed : closed.handle.closed = true := by decide +kernel
  refine ⟨?_, by decide +kernel, writeStep_close_closed answersAll hclosed⟩
  rw [hanswers]
  simp only [acceptedBytes, accepted, List.append_nil, List.length_append, hpayload]
  rfl

end DuckdbOpendalfs.Handles.AppendRuns
