/- DuckdbOpendalfs/Handles/WriteHandle
   digest: Write handles against a writer that answers by any schedule, and what one call can do. -/

import DuckdbOpendalfs.Execution.Runs
import DuckdbOpendalfs.Handles.FileHandle

set_option autoImplicit false
set_option relaxedAutoImplicit false

namespace DuckdbOpendalfs.Handles.WriteHandle

open Text.ByteString
open Operators.LayerOptions
open FileHandle

inductive Buffer
  | null
  | memory (contents : Nat → UInt8)

def Buffer.take : Buffer → Nat → Bytes
  | .null, _ => []
  | .memory contents, size => (List.range size).map contents

inductive WriterCall
  | write (data : Bytes)
  | flush
  | close
  deriving DecidableEq, Repr

/-- How the calls of a writer are answered, by the calls before them. -/
abbrev WriterAnswers := List WriterCall → WriterCall → Except Exception Unit

/-- A handle for writing; `writer` tells whether it holds its writer. -/
structure OpenDALWriteHandle where
  flags : FileOpenFlags
  writer : Bool
  position : UInt64 := 0
  closed : Bool := false
  deriving DecidableEq, Repr

def OpenDALWriteHandle.opened (flags_p : FileOpenFlags) : OpenDALWriteHandle where
  flags := flags_p
  writer := true

structure WriteSession where
  handle : OpenDALWriteHandle
  calls : List WriterCall := []
  deriving DecidableEq, Repr

def WriteSession.opened (flags_p : FileOpenFlags) : WriteSession where
  handle := OpenDALWriteHandle.opened flags_p

namespace WriteSession

def called (session : WriteSession) (c : WriterCall) : WriteSession :=
  { session with calls := session.calls ++ [c] }

def advance (session : WriteSession) (write_size : UInt64) : WriteSession :=
  { session with
    handle := { session.handle with position := session.handle.position + write_size } }

def reset (session : WriteSession) : WriteSession :=
  { session with handle := { session.handle with writer := false, closed := true } }

variable (session : WriteSession)

@[simp] theorem called_handle (c : WriterCall) : (session.called c).handle = session.handle := rfl

@[simp] theorem called_calls (c : WriterCall) :
    (session.called c).calls = session.calls ++ [c] := rfl

@[simp] theorem advance_calls (n : UInt64) : (session.advance n).calls = session.calls := rfl

@[simp] theorem advance_closed (n : UInt64) :
    (session.advance n).handle.closed = session.handle.closed := rfl

@[simp] theorem advance_position (n : UInt64) :
    (session.advance n).handle.position = session.handle.position + n := rfl

@[simp] theorem advance_zero : session.advance 0 = session := by
  rw [advance, UInt64.add_zero]

@[simp] theorem reset_calls : session.reset.calls = session.calls := rfl

end WriteSession

namespace OpenDALWriteHandle

def nullBuffer : Exception := .invalidInput (bytes "write buffer must not be null")

def nonSequential : Exception :=
  .io (bytes "Non-sequential OpenDAL writes are not supported")

variable (answers : WriterAnswers) (session : WriteSession)

/-- A member call of the writer, through its pointer. -/
def callWriter (c : WriterCall) : Except Exception Unit × WriteSession :=
  if session.handle.writer then (answers session.calls c, session.called c)
  else (.error nullPointer, session)

def writeAt (buffer_p : Buffer) (size_p : UInt64) : Except Exception UInt64 × WriteSession :=
  if size_p = 0 then (.ok 0, session)
  else
    match buffer_p with
    | .null => (.error nullBuffer, session)
    | .memory contents =>
      let answer := callWriter answers session
        (.write ((Buffer.memory contents).take size_p.toNat))
      (answer.1.map fun _ => size_p, answer.2)

def writePositional (buffer_p : Buffer) (size_p offset_p : UInt64) :
    Except Exception UInt64 × WriteSession :=
  if session.handle.closed then (.error handleClosed, session)
  else if offset_p ≠ session.handle.position then (.error nonSequential, session)
  else
    match writeAt answers session buffer_p size_p with
    | (.error e, session) => (.error e, session)
    | (.ok write_size, session) => (.ok write_size, session.advance write_size)

def write (buffer_p : Buffer) (size_p : UInt64) : Except Exception UInt64 × WriteSession :=
  writePositional answers session buffer_p size_p session.handle.position

def tell (handle : OpenDALWriteHandle) : Except Exception UInt64 :=
  (ensureOpen handle.closed).map fun _ => handle.position

def size (handle : OpenDALWriteHandle) : Except Exception UInt64 :=
  (ensureOpen handle.closed).map fun _ => handle.position

def flush : Except Exception Unit × WriteSession :=
  if session.handle.closed then (.error handleClosed, session)
  else callWriter answers session .flush

/-- A writer that throws leaves the handle open, with its writer. -/
def close : Except Exception Unit × WriteSession :=
  if session.handle.closed then (.ok (), session)
  else
    match callWriter answers session .close with
    | (.error e, session) => (.error e, session)
    | (.ok _, session) => (.ok (), session.reset)

end OpenDALWriteHandle

inductive WriteReply
  | done
  | count (write_size : Int64)
  | position (offset : UInt64)
  | fileSize (size : Int64)
  deriving DecidableEq, Repr

namespace OpenDALFileSystem

def negativeWrite : Exception := .invalidInput (bytes "OpenDAL write size must not be negative")

def incompleteWrite : Exception :=
  .io (bytes "Could not write the requested number of bytes to OpenDAL")

variable (answers : WriterAnswers) (session : WriteSession)

def write (buffer_p : Buffer) (size_p : Int64) : Except Exception WriteReply × WriteSession :=
  if size_p < 0 then (.error negativeWrite, session)
  else
    let answer := OpenDALWriteHandle.write answers session buffer_p size_p.toUInt64
    (answer.1.map fun write_size => .count write_size.toInt64, answer.2)

def writeAt (buffer_p : Buffer) (size_p : Int64) (offset_p : UInt64) :
    Except Exception WriteReply × WriteSession :=
  if size_p < 0 then (.error incompleteWrite, session)
  else
    match OpenDALWriteHandle.writePositional answers session buffer_p size_p.toUInt64 offset_p with
    | (.error e, session) => (.error e, session)
    | (.ok write_size, session) =>
      if write_size ≠ size_p.toUInt64 then (.error incompleteWrite, session)
      else (.ok .done, session)

def fileSync : Except Exception WriteReply × WriteSession :=
  let answer := OpenDALWriteHandle.flush answers session
  (answer.1.map fun _ => .done, answer.2)

/-- With the reading flag the handle is taken for a read handle. -/
def seekPosition (handle_p : OpenDALWriteHandle) : Except Exception UInt64 :=
  if handle_p.flags.openForReading then .error badCast else handle_p.tell

def getFileSize (handle_p : OpenDALWriteHandle) : Except Exception Int64 :=
  handle_p.size.map UInt64.toInt64

end OpenDALFileSystem

/-- The calls on a write handle. Sizes and offsets are those of DuckDB. -/
inductive WriteOp
  | write (buffer_p : Buffer) (size_p : Int64)
  | writeAt (buffer_p : Buffer) (size_p : Int64) (offset_p : UInt64)
  | fileSync
  | seekPosition
  | getFileSize
  | close

def writeStep (answers : WriterAnswers) (session : WriteSession) :
    WriteOp → Except Exception WriteReply × WriteSession
  | .write buffer_p size_p => OpenDALFileSystem.write answers session buffer_p size_p
  | .writeAt buffer_p size_p offset_p =>
    OpenDALFileSystem.writeAt answers session buffer_p size_p offset_p
  | .fileSync => OpenDALFileSystem.fileSync answers session
  | .seekPosition => ((OpenDALFileSystem.seekPosition session.handle).map .position, session)
  | .getFileSize => ((OpenDALFileSystem.getFileSize session.handle).map .fileSize, session)
  | .close =>
    let answer := OpenDALWriteHandle.close answers session
    (answer.1.map fun _ => .done, answer.2)

/-- How the destruction of a handle ends. An exception that leaves a destructor ends the process. -/
inductive Destruction
  | destroyed
  | terminated
  deriving DecidableEq, Repr

/-- The destructor closes the handle; the destructor of the base class only marks it closed. -/
def destroy (answers : WriterAnswers) (session : WriteSession) : Destruction × WriteSession :=
  match OpenDALWriteHandle.close answers session with
  | (.error _, session) => (.terminated, session)
  | (.ok _, session) =>
    (.destroyed, { session with handle := { session.handle with closed := true } })

def payload : WriteOp → Bytes
  | .write buffer size | .writeAt buffer size _ => buffer.take size.toNatClampNeg
  | _ => []

section Effects

def Sound (session : WriteSession) : Prop :=
  session.handle.writer = !session.handle.closed

theorem sound_opened (flags : FileOpenFlags) : Sound (WriteSession.opened flags) := rfl

/-- What one call can do to a session. -/
inductive Effect (answers : WriterAnswers) (session : WriteSession) (op : WriteOp) :
    Except Exception WriteReply × WriteSession → Prop
  | rejected (e : Exception) : Effect answers session op (.error e, session)
  | observed (reply : WriteReply) (empty : payload op = [])
      (closing : session.handle.closed = true → op = .close) :
      Effect answers session op (.ok reply, session)
  | threw (c : WriterCall) (e : Exception) (isOpen : session.handle.closed = false)
      (thrown : answers session.calls c = .error e) :
      Effect answers session op (.error e, session.called c)
  | wrote (reply : WriteReply) (isOpen : session.handle.closed = false)
      (accepted : answers session.calls (.write (payload op)) = .ok ()) :
      Effect answers session op (.ok reply,
        (session.called (.write (payload op))).advance (UInt64.ofNat (payload op).length))
  | flushed (sync : op = .fileSync) (isOpen : session.handle.closed = false)
      (answered : answers session.calls .flush = .ok ()) :
      Effect answers session op (.ok .done, session.called .flush)
  | closed (closing : op = .close) (isOpen : session.handle.closed = false)
      (answered : answers session.calls .close = .ok ()) :
      Effect answers session op (.ok .done, (session.called .close).reset)

variable (answers : WriterAnswers) {session : WriteSession}

theorem Sound.callWriter (sound : Sound session) (isOpen : session.handle.closed = false)
    (c : WriterCall) : OpenDALWriteHandle.callWriter answers session c =
      (answers session.calls c, session.called c) := by
  have hwriter : session.handle.writer = true := by rw [sound, isOpen, Bool.not_false]
  rw [OpenDALWriteHandle.callWriter, if_pos hwriter]

private theorem writeAt_size {buffer : Buffer} {size write_size : UInt64}
    {session' : WriteSession}
    (h : OpenDALWriteHandle.writeAt answers session buffer size = (.ok write_size, session')) :
    write_size = size := by
  unfold OpenDALWriteHandle.writeAt at h
  split at h
  · rename_i hzero
    rw [hzero]
    exact (Except.ok.inj (Prod.mk.inj h).1).symm
  · split at h
    · cases h
    · rename_i contents
      dsimp only at h
      cases hcall : (OpenDALWriteHandle.callWriter answers session
        (.write ((Buffer.memory contents).take size.toNat))).1 with
      | error e =>
        rw [hcall] at h
        cases h
      | ok done =>
        rw [hcall] at h
        exact (Except.ok.inj (Prod.mk.inj h).1).symm

private theorem writePositional_size {buffer : Buffer} {size offset write_size : UInt64}
    {session' : WriteSession}
    (h : OpenDALWriteHandle.writePositional answers session buffer size offset =
      (.ok write_size, session')) : write_size = size := by
  unfold OpenDALWriteHandle.writePositional at h
  split_ifs at h
  · cases h
  · cases h
  · split at h
    · cases h
    · rename_i hwrite
      obtain rfl := Except.ok.inj (Prod.mk.inj h).1
      exact writeAt_size answers hwrite

private theorem writePositional_effect (sound : Sound session) (op : WriteOp) (buffer : Buffer)
    {size : UInt64} (bytesOf : payload op = buffer.take size.toNat) (offset : UInt64)
    (reply : WriteReply) :
    Effect answers session op
      (match OpenDALWriteHandle.writePositional answers session buffer size offset with
        | (.error e, session) => (.error e, session)
        | (.ok _, session) => (.ok reply, session)) := by
  unfold OpenDALWriteHandle.writePositional
  by_cases hclosed : session.handle.closed = true
  · rw [if_pos hclosed]
    exact .rejected handleClosed
  have isOpen : session.handle.closed = false := Bool.eq_false_of_not_eq_true hclosed
  rw [if_neg hclosed]
  by_cases hoffset : offset = session.handle.position
  · rw [if_neg (not_not_intro hoffset)]
    unfold OpenDALWriteHandle.writeAt
    by_cases hzero : size = 0
    · subst hzero
      have hempty : payload op = [] := by
        rw [bytesOf]
        cases buffer <;> rfl
      rw [if_pos rfl]
      simp only [WriteSession.advance_zero]
      exact .observed reply hempty (fun h => absurd h hclosed)
    rw [if_neg hzero]
    cases buffer with
    | null => exact .rejected OpenDALWriteHandle.nullBuffer
    | memory contents =>
      dsimp only
      rw [sound.callWriter answers isOpen, ← bytesOf]
      cases hanswer : answers session.calls (.write (payload op)) with
      | error e => exact .threw _ e isOpen hanswer
      | ok done =>
        have hsize : size = UInt64.ofNat (payload op).length := by
          rw [bytesOf, Buffer.take, List.length_map, List.length_range, UInt64.ofNat_toNat]
        rw [hsize]
        exact .wrote reply isOpen hanswer
  · rw [if_pos hoffset]
    exact .rejected OpenDALWriteHandle.nonSequential

private theorem write_effect (sound : Sound session) (buffer : Buffer) (size : Int64) :
    Effect answers session (.write buffer size)
      (OpenDALFileSystem.write answers session buffer size) := by
  unfold OpenDALFileSystem.write
  by_cases hnegative : size < 0
  · rw [if_pos hnegative]
    exact .rejected OpenDALFileSystem.negativeWrite
  have hsize := Int64.toNat_toUInt64_of_le (Int64.not_lt.mp hnegative)
  have heffect := writePositional_effect answers sound (.write buffer size) buffer
    (congrArg buffer.take hsize.symm) session.handle.position (.count size)
  rw [if_neg hnegative]
  dsimp only
  unfold OpenDALWriteHandle.write
  rcases hcall : OpenDALWriteHandle.writePositional answers session buffer size.toUInt64
    session.handle.position with ⟨e | write_size, s⟩
  · rw [hcall] at heffect
    exact heffect
  · rw [hcall] at heffect
    obtain rfl := writePositional_size answers hcall
    rw [Except.map, Int64.toInt64_toUInt64]
    exact heffect

private theorem writeAt_effect (sound : Sound session) (buffer : Buffer) (size : Int64)
    (offset : UInt64) :
    Effect answers session (.writeAt buffer size offset)
      (OpenDALFileSystem.writeAt answers session buffer size offset) := by
  unfold OpenDALFileSystem.writeAt
  by_cases hnegative : size < 0
  · rw [if_pos hnegative]
    exact .rejected OpenDALFileSystem.incompleteWrite
  have hsize := Int64.toNat_toUInt64_of_le (Int64.not_lt.mp hnegative)
  have heffect := writePositional_effect answers sound (.writeAt buffer size offset)
    buffer (congrArg buffer.take hsize.symm) offset .done
  rw [if_neg hnegative]
  rcases hcall : OpenDALWriteHandle.writePositional answers session buffer size.toUInt64
    offset with ⟨e | write_size, s⟩
  · rw [hcall] at heffect
    exact heffect
  · rw [hcall] at heffect
    obtain rfl := writePositional_size answers hcall
    dsimp only
    rw [if_neg (not_not_intro rfl)]
    exact heffect

theorem close_closed (closed : session.handle.closed = true) :
    OpenDALWriteHandle.close answers session = (.ok (), session) := by
  rw [OpenDALWriteHandle.close, if_pos closed]

theorem writeStep_close_closed (closed : session.handle.closed = true) :
    writeStep answers session .close = (.ok .done, session) := by
  rw [writeStep, close_closed answers closed]
  rfl

theorem close_open (sound : Sound session) (isOpen : session.handle.closed = false) :
    OpenDALWriteHandle.close answers session =
      match answers session.calls .close with
      | .error e => (.error e, session.called .close)
      | .ok _ => (.ok (), (session.called .close).reset) := by
  have hclosed : ¬ session.handle.closed = true := by simp [isOpen]
  rw [OpenDALWriteHandle.close, if_neg hclosed, sound.callWriter answers isOpen]
  cases answers session.calls .close <;> rfl

private theorem close_effect (sound : Sound session) :
    Effect answers session .close (writeStep answers session .close) := by
  by_cases hclosed : session.handle.closed = true
  · rw [writeStep_close_closed answers hclosed]
    exact .observed .done rfl fun _ => rfl
  have isOpen : session.handle.closed = false := Bool.eq_false_of_not_eq_true hclosed
  rw [writeStep, close_open answers sound isOpen]
  cases hanswer : answers session.calls .close with
  | error e => exact .threw .close e isOpen hanswer
  | ok done => exact .closed rfl isOpen hanswer

private theorem fileSync_effect (sound : Sound session) :
    Effect answers session .fileSync (OpenDALFileSystem.fileSync answers session) := by
  unfold OpenDALFileSystem.fileSync OpenDALWriteHandle.flush
  by_cases hclosed : session.handle.closed = true
  · rw [if_pos hclosed]
    exact .rejected handleClosed
  have isOpen : session.handle.closed = false := Bool.eq_false_of_not_eq_true hclosed
  rw [if_neg hclosed, sound.callWriter answers isOpen]
  cases hanswer : answers session.calls .flush with
  | error e => exact .threw .flush e isOpen hanswer
  | ok done => exact .flushed rfl isOpen hanswer

private theorem observed_effect {α : Type} (op : WriteOp) (empty : payload op = [])
    {answer : Except Exception α} (reply : α → WriteReply)
    (whenClosed : session.handle.closed = true → ∃ e, answer = .error e) :
    Effect answers session op (answer.map reply, session) := by
  cases answer with
  | error e => exact .rejected e
  | ok value =>
    refine .observed (reply value) empty fun hclosed => ?_
    obtain ⟨e, he⟩ := whenClosed hclosed
    cases he

theorem writeStep_effect (sound : Sound session) (op : WriteOp) :
    Effect answers session op (writeStep answers session op) := by
  cases op with
  | write buffer size => exact write_effect answers sound buffer size
  | writeAt buffer size offset => exact writeAt_effect answers sound buffer size offset
  | fileSync => exact fileSync_effect answers sound
  | seekPosition =>
    refine observed_effect answers .seekPosition rfl .position fun hclosed => ?_
    unfold OpenDALFileSystem.seekPosition OpenDALWriteHandle.tell ensureOpen
    rw [hclosed]
    split
    · exact ⟨badCast, rfl⟩
    · exact ⟨handleClosed, rfl⟩
  | getFileSize =>
    refine observed_effect answers .getFileSize rfl .fileSize fun hclosed => ?_
    unfold OpenDALFileSystem.getFileSize OpenDALWriteHandle.size ensureOpen
    rw [hclosed]
    exact ⟨handleClosed, rfl⟩
  | close => exact close_effect answers sound

theorem writeAt_ok {buffer : Buffer} {size : Int64} {offset : UInt64} {reply : WriteReply}
    (h : (OpenDALFileSystem.writeAt answers session buffer size offset).1 = .ok reply) :
    session.handle.closed = false ∧ offset = session.handle.position := by
  unfold OpenDALFileSystem.writeAt OpenDALWriteHandle.writePositional at h
  split at h
  · cases h
  · split_ifs at h with hclosed hoffset
    exact ⟨Bool.eq_false_of_not_eq_true hclosed, not_not.mp hoffset⟩

theorem writeStep_closed (sound : Sound session) (closed : session.handle.closed = true)
    {op : WriteOp} (other : op ≠ .close) : ∃ e, writeStep answers session op = (.error e, session) := by
  have heffect := writeStep_effect answers sound op
  generalize writeStep answers session op = result at heffect
  cases heffect with
  | rejected e => exact ⟨e, rfl⟩
  | observed reply empty closing => exact absurd (closing closed) other
  | threw c e isOpen => exact absurd closed (by simp [isOpen])
  | wrote reply isOpen => exact absurd closed (by simp [isOpen])
  | flushed sync isOpen => exact absurd closed (by simp [isOpen])
  | closed closing isOpen => exact absurd closing other

theorem writeStep_sound (sound : Sound session) (op : WriteOp) :
    Sound (writeStep answers session op).2 := by
  have heffect := writeStep_effect answers sound op
  generalize writeStep answers session op = result at heffect
  cases heffect with
  | rejected | observed | threw | wrote | flushed => exact sound
  | closed => rfl

end Effects

end DuckdbOpendalfs.Handles.WriteHandle
