/- DuckdbOpendalfs/Handles/ReadHandle
   digest: Read handles, and the calls of the file system on them as one deterministic machine. -/

import DuckdbOpendalfs.Execution.Runs
import DuckdbOpendalfs.Handles.Readers

set_option autoImplicit false
set_option relaxedAutoImplicit false

namespace DuckdbOpendalfs.Handles.ReadHandle

open Text.ByteString
open Operators.LayerOptions
open FileHandle Readers

variable {c : Bytes}

/-- The reader of a handle over the contents `c`, its own position, and the closed flag. -/
structure OpenDALReadHandle (R : Reader c) where
  flags : FileOpenFlags
  metadata : FileMetadata
  reader : Option R.State
  position : UInt64 := 0
  closed : Bool := false

def OpenDALReadHandle.opened (R : Reader c) (flags_p : FileOpenFlags) (metadata_p : FileMetadata) :
    OpenDALReadHandle R where
  flags := flags_p
  metadata := metadata_p
  reader := some R.start

variable {R : Reader c}

namespace OpenDALReadHandle

def nullBuffer : Exception := .invalidInput (bytes "read buffer must not be null")
def readSizeExceeded : Exception := .io (bytes "Read size exceeds OpenDAL reader range")
def seekOffsetExceeded : Exception := .io (bytes "Seek offset exceeds OpenDAL reader range")

def stats (handle : OpenDALReadHandle R) : Except Exception FileMetadata :=
  (ensureOpen handle.closed).map fun _ => handle.metadata

def size (handle : OpenDALReadHandle R) : Except Exception UInt64 :=
  handle.stats.map fun metadata => metadata.fileSize.toUInt64

/-- The sequential read; a null buffer is marked. It returns the bytes it filled in. -/
def read (handle : OpenDALReadHandle R) (null_p : Bool) (size_p : UInt64) :
    Except Exception Bytes × OpenDALReadHandle R :=
  if handle.closed then (.error handleClosed, handle)
  else if size_p = 0 then (.ok [], handle)
  else if null_p then (.error nullBuffer, handle)
  else if streamMax < handle.position.toNat then (.error readRangeExceeded, handle)
  else if streamMax < size_p.toNat then (.error readSizeExceeded, handle)
  else
    match handle.reader with
    | none => (.error nullPointer, handle)
    | some reader =>
      match readFromOpenDAL R reader size_p.toNat [] with
      | (.error e, reader) => (.error e, { handle with reader := some reader })
      | (.ok filled, reader) =>
        (.ok filled,
          { handle with
            reader := some reader, position := handle.position + UInt64.ofNat filled.length })

def readAt (handle : OpenDALReadHandle R) (null_p : Bool) (size_p offset_p : UInt64) :
    Except Exception Bytes × OpenDALReadHandle R :=
  if handle.closed then (.error handleClosed, handle)
  else if size_p = 0 then (.ok [], handle)
  else if null_p then (.error nullBuffer, handle)
  else if streamMax < size_p.toNat then (.error readSizeExceeded, handle)
  else
    match handle.reader with
    | none => (.error nullPointer, handle)
    | some reader =>
      let answer := readAtFromOpenDAL R reader size_p.toNat offset_p.toNat []
      (answer.1, { handle with reader := some answer.2 })

def seek (handle : OpenDALReadHandle R) (offset_p : UInt64) :
    Except Exception Unit × OpenDALReadHandle R :=
  if handle.closed then (.error handleClosed, handle)
  else if streamMax < offset_p.toNat then (.error seekOffsetExceeded, handle)
  else
    match handle.reader with
    | none => (.error nullPointer, handle)
    | some reader =>
      match R.seek reader offset_p.toNat with
      | (.error e, reader) => (.error e, { handle with reader := some reader })
      | (.ok _, reader) => (.ok (), { handle with reader := some reader, position := offset_p })

def tell (handle : OpenDALReadHandle R) : Except Exception UInt64 :=
  (ensureOpen handle.closed).map fun _ => handle.position

def close (handle : OpenDALReadHandle R) : OpenDALReadHandle R :=
  if handle.closed then handle else { handle with reader := none, closed := true }

section Closed

variable {handle : OpenDALReadHandle R} (closed : handle.closed = true)
include closed

theorem read_closed (null : Bool) (size : UInt64) :
    handle.read null size = (.error handleClosed, handle) := by simp [read, closed]

theorem readAt_closed (null : Bool) (size offset : UInt64) :
    handle.readAt null size offset = (.error handleClosed, handle) := by simp [readAt, closed]

theorem seek_closed (offset : UInt64) : handle.seek offset = (.error handleClosed, handle) := by
  simp [seek, closed]

theorem tell_closed : handle.tell = .error handleClosed := by
  simp [tell, ensureOpen, closed, Except.map]

end Closed

section Open

variable {handle : OpenDALReadHandle R} (isOpen : handle.closed = false)
include isOpen

theorem read_zero (null : Bool) : handle.read null 0 = (.ok [], handle) := by simp [read, isOpen]

theorem read_null {size : UInt64} (asked : size ≠ 0) :
    handle.read true size = (.error nullBuffer, handle) := by simp [read, isOpen, asked]

theorem read_range {size : UInt64} (asked : size ≠ 0) (far : streamMax < handle.position.toNat) :
    handle.read false size = (.error readRangeExceeded, handle) := by
  simp [read, isOpen, asked, far]

theorem read_ok {size : UInt64} (asked : size ≠ 0) (near : handle.position.toNat ≤ streamMax)
    (small : size.toNat ≤ streamMax) {s s' : R.State} (reader : handle.reader = some s)
    {filled : Bytes} (loop : readFromOpenDAL R s size.toNat [] = (.ok filled, s')) :
    handle.read false size =
      (.ok filled, { handle with
        reader := some s', position := handle.position + UInt64.ofNat filled.length }) := by
  simp [read, isOpen, asked, Nat.not_lt.mpr near, Nat.not_lt.mpr small, reader, loop]

theorem read_throws {size : UInt64} (asked : size ≠ 0) (near : handle.position.toNat ≤ streamMax)
    (small : size.toNat ≤ streamMax) {s s' : R.State} (reader : handle.reader = some s)
    {e : Exception} (loop : readFromOpenDAL R s size.toNat [] = (.error e, s')) :
    handle.read false size = (.error e, { handle with reader := some s' }) := by
  simp [read, isOpen, asked, Nat.not_lt.mpr near, Nat.not_lt.mpr small, reader, loop]

theorem readAt_zero (null : Bool) (offset : UInt64) :
    handle.readAt null 0 offset = (.ok [], handle) := by simp [readAt, isOpen]

theorem readAt_null {size : UInt64} (asked : size ≠ 0) (offset : UInt64) :
    handle.readAt true size offset = (.error nullBuffer, handle) := by
  simp [readAt, isOpen, asked]

theorem readAt_eq {size : UInt64} (asked : size ≠ 0) (small : size.toNat ≤ streamMax)
    {s : R.State} (reader : handle.reader = some s) (offset : UInt64) :
    handle.readAt false size offset =
      ((readAtFromOpenDAL R s size.toNat offset.toNat []).1, { handle with
        reader := some (readAtFromOpenDAL R s size.toNat offset.toNat []).2 }) := by
  simp [readAt, isOpen, asked, Nat.not_lt.mpr small, reader]

theorem seek_range {offset : UInt64} (far : streamMax < offset.toNat) :
    handle.seek offset = (.error seekOffsetExceeded, handle) := by simp [seek, isOpen, far]

theorem seek_ok {offset : UInt64} (near : offset.toNat ≤ streamMax) {s : R.State}
    (reader : handle.reader = some s) :
    ∃ s', R.tell s' = offset.toNat ∧
      handle.seek offset = (.ok (), { handle with reader := some s', position := offset }) := by
  have haccepts := R.seek_accepts s offset.toNat near
  refine ⟨(R.seek s offset.toNat).2, R.seek_tell s offset.toNat haccepts, ?_⟩
  rcases hcall : R.seek s offset.toNat with ⟨answer, s'⟩
  rw [hcall] at haccepts
  obtain rfl : answer = .ok () := haccepts
  simp [seek, isOpen, Nat.not_lt.mpr near, reader, hcall]

theorem tell_open : handle.tell = .ok handle.position := by
  simp [tell, ensureOpen, isOpen, Except.map]

end Open

end OpenDALReadHandle

/-- The calls of the file system on an open read handle. Sizes and offsets are those of DuckDB. -/
inductive ReadCall
  | seek (location_p : UInt64)
  | reset
  | read (null_p : Bool) (size_p : Int64)
  | readAt (null_p : Bool) (size_p : Int64) (offset_p : UInt64)
  | seekPosition
  deriving DecidableEq, Repr

inductive ReadReply
  | done
  | count (read_size : Int64) (buffer : Bytes)
  | filled (buffer : Bytes)
  | position (offset : UInt64)
  deriving DecidableEq, Repr

namespace OpenDALFileSystem

def negativeRead : Exception := .invalidInput (bytes "OpenDAL read size must not be negative")

def incompleteRead : Exception :=
  .io (bytes "Could not read the requested number of bytes from OpenDAL")

/-- The sequential read of the file system. -/
def read (handle_p : OpenDALReadHandle R) (null_p : Bool) (size_p : Int64) :
    Except Exception ReadReply × OpenDALReadHandle R :=
  if size_p < 0 then (.error negativeRead, handle_p)
  else
    let answer := handle_p.read null_p size_p.toUInt64
    (answer.1.map fun filled => .count (UInt64.ofNat filled.length).toInt64 filled, answer.2)

def readAt (handle_p : OpenDALReadHandle R) (null_p : Bool) (size_p : Int64) (offset_p : UInt64) :
    Except Exception ReadReply × OpenDALReadHandle R :=
  if size_p < 0 then (.error incompleteRead, handle_p)
  else
    match handle_p.readAt null_p size_p.toUInt64 offset_p with
    | (.error e, handle) => (.error e, handle)
    | (.ok filled, handle) =>
      if UInt64.ofNat filled.length ≠ size_p.toUInt64 then (.error incompleteRead, handle)
      else (.ok (.filled filled), handle)

def seek (handle_p : OpenDALReadHandle R) (location_p : UInt64) :
    Except Exception ReadReply × OpenDALReadHandle R :=
  let answer := handle_p.seek location_p
  (answer.1.map fun _ => .done, answer.2)

def reset (handle_p : OpenDALReadHandle R) : Except Exception ReadReply × OpenDALReadHandle R :=
  seek handle_p 0

/-- The position of a handle. Without the reading flag the handle is taken for a write handle. -/
def seekPosition (handle_p : OpenDALReadHandle R) :
    Except Exception ReadReply × OpenDALReadHandle R :=
  if handle_p.flags.openForReading then (handle_p.tell.map .position, handle_p)
  else (.error badCast, handle_p)

end OpenDALFileSystem

def readStep (R : Reader c) (handle : OpenDALReadHandle R) :
    ReadCall → Except Exception ReadReply × OpenDALReadHandle R
  | .seek location_p => OpenDALFileSystem.seek handle location_p
  | .reset => OpenDALFileSystem.reset handle
  | .read null_p size_p => OpenDALFileSystem.read handle null_p size_p
  | .readAt null_p size_p offset_p => OpenDALFileSystem.readAt handle null_p size_p offset_p
  | .seekPosition => OpenDALFileSystem.seekPosition handle

inductive ReadOp
  | call (c : ReadCall)
  | close
  deriving DecidableEq, Repr

def handleStep (R : Reader c) (handle : OpenDALReadHandle R) :
    ReadOp → Except Exception ReadReply × OpenDALReadHandle R
  | .call c => readStep R handle c
  | .close => (.ok .done, handle.close)

section Loops

theorem toUInt64_eq_zero {size : Int64} : size.toUInt64 = 0 ↔ size = 0 := by
  constructor
  · intro h
    have hback : size.toUInt64.toInt64 = (0 : UInt64).toInt64 := congrArg UInt64.toInt64 h
    rwa [Int64.toInt64_toUInt64] at hback
  · rintro rfl
    rfl

theorem size_toNat {size : Int64} (nonneg : ¬ size < 0) :
    size.toUInt64.toNat = size.toNatClampNeg ∧ size.toUInt64.toNat ≤ streamMax := by
  have hle : 0 ≤ size := Int64.not_lt.mp nonneg
  have hlt := Int64.toNatClampNeg_lt size
  have heq := Int64.toNat_toUInt64_of_le hle
  refine ⟨heq, ?_⟩
  rw [heq, streamMax]
  omega

def Loops (handle : OpenDALReadHandle R) (null : Bool) (size : Int64) : Prop :=
  null = false ∧ 0 < size ∧ handle.position.toNat ≤ streamMax

theorem read_unlooped {handle : OpenDALReadHandle R} (isOpen : handle.closed = false)
    {null : Bool} {size : Int64} (unlooped : ¬ Loops handle null size) :
    (size = 0 ∧ OpenDALFileSystem.read handle null size = (.ok (.count 0 []), handle)) ∨
      (size ≠ 0 ∧ ∃ e, OpenDALFileSystem.read handle null size = (.error e, handle)) := by
  unfold OpenDALFileSystem.read
  by_cases hnegative : size < 0
  · rw [if_pos hnegative]
    have hne : size ≠ 0 := fun h => Int64.lt_irrefl (h ▸ hnegative)
    exact Or.inr ⟨hne, _, rfl⟩
  rw [if_neg hnegative]
  by_cases hzero : size = 0
  · subst hzero
    rw [show (0 : Int64).toUInt64 = 0 from rfl, OpenDALReadHandle.read_zero isOpen]
    exact Or.inl ⟨rfl, rfl⟩
  have hasked : size.toUInt64 ≠ 0 := fun h => hzero (toUInt64_eq_zero.mp h)
  refine Or.inr ⟨hzero, ?_⟩
  cases null with
  | true =>
    rw [OpenDALReadHandle.read_null isOpen hasked]
    exact ⟨_, rfl⟩
  | false =>
    have hpositive : 0 < size := Int64.lt_of_le_of_ne (Int64.not_lt.mp hnegative) (Ne.symm hzero)
    have hfar : streamMax < handle.position.toNat := by
      by_contra hnear
      exact unlooped ⟨rfl, hpositive, Nat.le_of_not_lt hnear⟩
    rw [OpenDALReadHandle.read_range isOpen hasked hfar]
    exact ⟨_, rfl⟩

theorem read_loops {handle : OpenDALReadHandle R} (isOpen : handle.closed = false)
    {null : Bool} {size : Int64} (loops : Loops handle null size) {s : R.State}
    (reader : handle.reader = some s) :
    OpenDALFileSystem.read handle null size =
      match readFromOpenDAL R s size.toNatClampNeg [] with
      | (.error e, s') => (.error e, { handle with reader := some s' })
      | (.ok filled, s') => (.ok (.count (UInt64.ofNat filled.length).toInt64 filled),
          { handle with
            reader := some s', position := handle.position + UInt64.ofNat filled.length }) := by
  obtain ⟨rfl, hpositive, hnear⟩ := loops
  have hnegative : ¬ size < 0 := fun h => Int64.lt_irrefl (Int64.lt_trans h hpositive)
  have hasked : size.toUInt64 ≠ 0 :=
    fun h => Int64.lt_irrefl (toUInt64_eq_zero.mp h ▸ hpositive)
  obtain ⟨hsize, hsmall⟩ := size_toNat hnegative
  unfold OpenDALFileSystem.read
  rw [if_neg hnegative, ← hsize]
  dsimp only
  rcases hloop : readFromOpenDAL R s size.toUInt64.toNat [] with ⟨e | filled, s'⟩
  · rw [OpenDALReadHandle.read_throws isOpen hasked hnear hsmall reader hloop]
    rfl
  · rw [OpenDALReadHandle.read_ok isOpen hasked hnear hsmall reader hloop]
    rfl

end Loops

end DuckdbOpendalfs.Handles.ReadHandle
