/- DuckdbOpendalfs/Handles/SharedReads
   digest: One read handle shared by threads: positional reads beside one thread of sequential calls. -/

import DuckdbOpendalfs.Execution.Threads
import DuckdbOpendalfs.Handles.CursorRefinement

set_option autoImplicit false
set_option relaxedAutoImplicit false

namespace DuckdbOpendalfs.Handles.SharedReads

open Text.ByteString
open Execution.Programs Execution.RelyGuarantee Execution.Runs Execution.Threads
open Operators.LayerOptions
open FileHandle Readers ReadHandle CursorRefinement

variable {c : Bytes}

/-- What the member functions of a read handle read and change of it, one access at a time. -/
inductive HandleAccess
  | isClosed
  | openForReading
  | position
  | advance (read_size : UInt64)
  | moveTo (offset : UInt64)
  | read (size : Nat)
  | readAt (size offset : Nat)
  | seek (offset : Nat)

@[reducible] def HandleAccess.Reply : HandleAccess → Type
  | .isClosed | .openForReading => Bool
  | .position => UInt64
  | .read _ | .readAt _ _ => Bytes
  | .advance _ | .moveTo _ | .seek _ => Unit

def onReader {α : Type} {R : Reader c} (handle : OpenDALReadHandle R)
    (ask : R.State → Except Exception α × R.State) : Except Exception α × OpenDALReadHandle R :=
  match handle.reader with
  | none => (.error nullPointer, handle)
  | some reader => ((ask reader).1, { handle with reader := some (ask reader).2 })

def handleAccess (R : Reader c) : Handler HandleAccess.Reply Exception (OpenDALReadHandle R)
  | .isClosed, handle => (.ok handle.closed, handle)
  | .openForReading, handle => (.ok handle.flags.openForReading, handle)
  | .position, handle => (.ok handle.position, handle)
  | .advance read_size, handle =>
    (.ok (), { handle with position := handle.position + read_size })
  | .moveTo offset, handle => (.ok (), { handle with position := offset })
  | .read size, handle => onReader handle (R.read · size)
  | .readAt size offset, handle => onReader handle (R.readAt · size offset)
  | .seek offset, handle => onReader handle (R.seek · offset)

section Functions

abbrev HandleM (α : Type) := Program HandleAccess.Reply Exception α

abbrev access (a : HandleAccess) : HandleM a.Reply := Program.perform a

def ensureOpen : HandleM Unit := do
  let closed ← access .isClosed
  if closed then .fail handleClosed else return ()

def readLoop (size_p : Nat) (delivered : Bytes) : HandleM Bytes :=
  if delivered.length < size_p then
    .call (.read (size_p - delivered.length)) fun chunk =>
      if chunk = [] then .done delivered else readLoop size_p (delivered ++ chunk)
  else .done delivered
termination_by size_p - delivered.length
decreasing_by
  rename_i hempty
  have hpos := List.length_pos_iff.mpr hempty
  simp only [List.length_append]
  omega

def readAtLoop (size_p offset_p : Nat) (delivered : Bytes) : HandleM Bytes :=
  if delivered.length < size_p then
    if 2 ^ 64 - 1 - delivered.length < offset_p then .fail readRangeExceeded
    else
      .call (.readAt (size_p - delivered.length) (offset_p + delivered.length)) fun chunk =>
        if chunk = [] then .done delivered else readAtLoop size_p offset_p (delivered ++ chunk)
  else .done delivered
termination_by size_p - delivered.length
decreasing_by
  rename_i hempty
  have hpos := List.length_pos_iff.mpr hempty
  simp only [List.length_append]
  omega

def read (null_p : Bool) (size_p : UInt64) : HandleM Bytes := do
  ensureOpen
  if size_p = 0 then return []
  else if null_p then .fail OpenDALReadHandle.nullBuffer
  else
    let position ← access .position
    if streamMax < position.toNat then .fail readRangeExceeded
    else if streamMax < size_p.toNat then .fail OpenDALReadHandle.readSizeExceeded
    else
      let filled ← readLoop size_p.toNat []
      access (.advance (UInt64.ofNat filled.length))
      return filled

def readAt (null_p : Bool) (size_p offset_p : UInt64) : HandleM Bytes := do
  ensureOpen
  if size_p = 0 then return []
  else if null_p then .fail OpenDALReadHandle.nullBuffer
  else if streamMax < size_p.toNat then .fail OpenDALReadHandle.readSizeExceeded
  else readAtLoop size_p.toNat offset_p.toNat []

def seek (offset_p : UInt64) : HandleM Unit := do
  ensureOpen
  if streamMax < offset_p.toNat then .fail OpenDALReadHandle.seekOffsetExceeded
  else
    access (.seek offset_p.toNat)
    access (.moveTo offset_p)

def tell : HandleM UInt64 := do
  ensureOpen
  access .position

def callProgram : ReadCall → HandleM ReadReply
  | .seek location_p => do
    seek location_p
    return .done
  | .reset => do
    seek 0
    return .done
  | .read null_p size_p =>
    if size_p < 0 then .fail OpenDALFileSystem.negativeRead
    else do
      let filled ← read null_p size_p.toUInt64
      return .count (UInt64.ofNat filled.length).toInt64 filled
  | .readAt null_p size_p offset_p =>
    if size_p < 0 then .fail OpenDALFileSystem.incompleteRead
    else do
      let filled ← readAt null_p size_p.toUInt64 offset_p
      if UInt64.ofNat filled.length ≠ size_p.toUInt64 then .fail OpenDALFileSystem.incompleteRead
      else return .filled filled
  | .seekPosition => do
    let reading ← access .openForReading
    if reading then
      let position ← tell
      return .position position
    else .fail badCast

end Functions

section Alone

variable {R : Reader c} {handle : OpenDALReadHandle R}

@[simp] theorem run_ensureOpen : ensureOpen.run (handleAccess R) handle =
    (FileHandle.ensureOpen handle.closed, handle) := by
  unfold ensureOpen FileHandle.ensureOpen
  rw [Program.run_bind, Program.run_perform]
  dsimp only [handleAccess]
  split <;> rfl

private theorem run_readLoop {s : R.State} (reader : handle.reader = some s) (size : Nat)
    (delivered : Bytes) :
    (readLoop size delivered).run (handleAccess R) handle =
      ((readFromOpenDAL R s size delivered).1,
        { handle with reader := some (readFromOpenDAL R s size delivered).2 }) := by
  have hsame : { handle with reader := some s } = handle := by rw [← reader]
  fun_induction readFromOpenDAL R s size delivered generalizing handle with
  | case1 s delivered hlt e s' hread =>
    rw [readLoop, if_pos hlt, Program.run, handleAccess, onReader, reader]
    dsimp only
    rw [hread]
  | case2 s delivered hlt s' hread =>
    rw [readLoop, if_pos hlt, Program.run, handleAccess, onReader, reader]
    dsimp only
    rw [hread]
    rfl
  | case3 s delivered hlt chunk s' hread hne ih =>
    rw [readLoop, if_pos hlt, Program.run, handleAccess, onReader, reader]
    dsimp only
    rw [hread]
    dsimp only
    rw [if_neg hne]
    exact ih rfl rfl
  | case4 s delivered hge =>
    rw [readLoop, if_neg hge, Program.run, hsame]

private theorem run_readAtLoop {s : R.State} (reader : handle.reader = some s) (size offset : Nat)
    (delivered : Bytes) :
    (readAtLoop size offset delivered).run (handleAccess R) handle =
      ((readAtFromOpenDAL R s size offset delivered).1,
        { handle with reader := some (readAtFromOpenDAL R s size offset delivered).2 }) := by
  have hsame : { handle with reader := some s } = handle := by rw [← reader]
  fun_induction readAtFromOpenDAL R s size offset delivered generalizing handle with
  | case1 s delivered hlt hrange =>
    rw [readAtLoop, if_pos hlt, if_pos hrange, Program.run, hsame]
  | case2 s delivered hlt hrange e s' hread =>
    rw [readAtLoop, if_pos hlt, if_neg hrange, Program.run, handleAccess, onReader, reader]
    dsimp only
    rw [hread]
  | case3 s delivered hlt hrange s' hread =>
    rw [readAtLoop, if_pos hlt, if_neg hrange, Program.run, handleAccess, onReader, reader]
    dsimp only
    rw [hread]
    rfl
  | case4 s delivered hlt hrange chunk s' hread hne ih =>
    rw [readAtLoop, if_pos hlt, if_neg hrange, Program.run, handleAccess, onReader, reader]
    dsimp only
    rw [hread]
    dsimp only
    rw [if_neg hne]
    exact ih rfl rfl
  | case5 s delivered hge =>
    rw [readAtLoop, if_neg hge, Program.run, hsame]

private theorem run_read (null : Bool) (size : UInt64) :
    (read null size).run (handleAccess R) handle = handle.read null size := by
  unfold read OpenDALReadHandle.read
  rw [Program.run_bind, run_ensureOpen, FileHandle.ensureOpen]
  by_cases hclosed : handle.closed = true
  · rw [if_pos hclosed, if_pos hclosed]
  rw [if_neg hclosed, if_neg hclosed]
  dsimp only
  by_cases hzero : size = 0
  · rw [if_pos hzero, if_pos hzero]
    rfl
  rw [if_neg hzero, if_neg hzero]
  by_cases hnull : null = true
  · rw [if_pos hnull, if_pos hnull]
    rfl
  rw [if_neg hnull, if_neg hnull, Program.run_bind, Program.run_perform, handleAccess]
  dsimp only
  by_cases hfar : streamMax < handle.position.toNat
  · rw [if_pos hfar, if_pos hfar]
    rfl
  rw [if_neg hfar, if_neg hfar]
  by_cases hlarge : streamMax < size.toNat
  · rw [if_pos hlarge, if_pos hlarge]
    rfl
  rw [if_neg hlarge, if_neg hlarge, Program.run_bind]
  cases hreader : handle.reader with
  | none =>
    have hasked : ([] : Bytes).length < size.toNat := by
      have hne : size.toNat ≠ 0 := fun h => hzero (UInt64.toNat_inj.mp h)
      exact Nat.pos_of_ne_zero hne
    rw [readLoop, if_pos hasked, Program.run, handleAccess, onReader, hreader]
  | some s =>
    rw [run_readLoop hreader]
    dsimp only
    rcases readFromOpenDAL R s size.toNat [] with ⟨e | filled, s'⟩ <;> rfl

private theorem run_readAt (null : Bool) (size offset : UInt64) :
    (readAt null size offset).run (handleAccess R) handle = handle.readAt null size offset := by
  unfold readAt OpenDALReadHandle.readAt
  rw [Program.run_bind, run_ensureOpen, FileHandle.ensureOpen]
  by_cases hclosed : handle.closed = true
  · rw [if_pos hclosed, if_pos hclosed]
  rw [if_neg hclosed, if_neg hclosed]
  dsimp only
  by_cases hzero : size = 0
  · rw [if_pos hzero, if_pos hzero]
    rfl
  rw [if_neg hzero, if_neg hzero]
  by_cases hnull : null = true
  · rw [if_pos hnull, if_pos hnull]
    rfl
  rw [if_neg hnull, if_neg hnull]
  by_cases hlarge : streamMax < size.toNat
  · rw [if_pos hlarge, if_pos hlarge]
    rfl
  rw [if_neg hlarge, if_neg hlarge]
  cases hreader : handle.reader with
  | none =>
    have hasked : ([] : Bytes).length < size.toNat := by
      have hne : size.toNat ≠ 0 := fun h => hzero (UInt64.toNat_inj.mp h)
      exact Nat.pos_of_ne_zero hne
    have hrange : ¬ 2 ^ 64 - 1 - ([] : Bytes).length < offset.toNat := by
      have hlt := offset.toNat_lt
      rw [List.length_nil]
      omega
    rw [readAtLoop, if_pos hasked, if_neg hrange, Program.run, handleAccess, onReader, hreader]
  | some s => rw [run_readAtLoop hreader]

private theorem run_seek (offset : UInt64) :
    (seek offset).run (handleAccess R) handle = handle.seek offset := by
  unfold seek OpenDALReadHandle.seek
  rw [Program.run_bind, run_ensureOpen, FileHandle.ensureOpen]
  by_cases hclosed : handle.closed = true
  · rw [if_pos hclosed, if_pos hclosed]
  rw [if_neg hclosed, if_neg hclosed]
  dsimp only
  by_cases hfar : streamMax < offset.toNat
  · rw [if_pos hfar, if_pos hfar]
    rfl
  rw [if_neg hfar, if_neg hfar, Program.run_bind, Program.run_perform, handleAccess, onReader]
  cases handle.reader with
  | none => rfl
  | some s =>
    dsimp only
    rcases R.seek s offset.toNat with ⟨e | done, s'⟩ <;> rfl

/-- With no other thread the accesses of a call do what the call does. -/
theorem run_callProgram (call : ReadCall) :
    (callProgram call).run (handleAccess R) handle = readStep R handle call := by
  cases call with
  | seek location =>
    rw [callProgram, Program.run_bind, run_seek, readStep, OpenDALFileSystem.seek]
    rcases handle.seek location with ⟨e | done, handle'⟩ <;> rfl
  | reset =>
    rw [callProgram, Program.run_bind, run_seek, readStep, OpenDALFileSystem.reset,
      OpenDALFileSystem.seek]
    rcases handle.seek 0 with ⟨e | done, handle'⟩ <;> rfl
  | read null size =>
    rw [callProgram, readStep, OpenDALFileSystem.read]
    by_cases hnegative : size < 0
    · rw [if_pos hnegative, if_pos hnegative]
      rfl
    rw [if_neg hnegative, if_neg hnegative, Program.run_bind, run_read]
    rcases handle.read null size.toUInt64 with ⟨e | filled, handle'⟩ <;> rfl
  | readAt null size offset =>
    rw [callProgram, readStep, OpenDALFileSystem.readAt]
    by_cases hnegative : size < 0
    · rw [if_pos hnegative, if_pos hnegative]
      rfl
    rw [if_neg hnegative, if_neg hnegative, Program.run_bind, run_readAt]
    rcases handle.readAt null size.toUInt64 offset with ⟨e | filled, handle'⟩
    · rfl
    · dsimp only
      split_ifs <;> rfl
  | seekPosition =>
    rw [callProgram, readStep, OpenDALFileSystem.seekPosition, Program.run_bind,
      Program.run_perform, handleAccess]
    dsimp only
    by_cases hreading : handle.flags.openForReading = true
    · rw [if_pos hreading, if_pos hreading, tell, Program.run_bind, Program.run_bind,
        run_ensureOpen, OpenDALReadHandle.tell]
      cases FileHandle.ensureOpen handle.closed <;> rfl
    · rw [if_neg hreading, if_neg hreading]
      rfl

end Alone

section Threads

variable {R : Reader c} {handle handle' handle'' : OpenDALReadHandle R} {cursor : Cursor}

def Positional : ReadCall → Prop
  | .readAt _ _ _ => True
  | _ => False

structure Readable (handle : OpenDALReadHandle R) : Prop where
  isOpen : handle.closed = false
  reader : ∃ s, handle.reader = some s

/-- What a positional read does to a handle: its reader may change, but not where the stream is. -/
structure Undisturbed (handle handle' : OpenDALReadHandle R) : Prop where
  closed : handle'.closed = handle.closed
  flags : handle'.flags = handle.flags
  position : handle'.position = handle.position
  stream : ∀ s, handle.reader = some s → ∃ s', handle'.reader = some s' ∧ R.tell s' = R.tell s

def StaysReadable (handle handle' : OpenDALReadHandle R) : Prop :=
  Readable handle → Readable handle'

theorem undisturbed_interference : Interference (Undisturbed (R := R)) where
  refl handle := ⟨rfl, rfl, rfl, fun s hs => ⟨s, hs, rfl⟩⟩
  trans first second := by
    refine ⟨second.closed.trans first.closed, second.flags.trans first.flags,
      second.position.trans first.position, fun s hs => ?_⟩
    obtain ⟨s', hs', htell⟩ := first.stream s hs
    obtain ⟨s'', hs'', htell'⟩ := second.stream s' hs'
    exact ⟨s'', hs'', htell'.trans htell⟩

theorem staysReadable_interference : Interference (StaysReadable (R := R)) where
  refl _ := id
  trans first second := second ∘ first

theorem Undisturbed.staysReadable (undisturbed : Undisturbed handle handle') :
    StaysReadable handle handle' := by
  rintro ⟨isOpen, s, hs⟩
  obtain ⟨s', hs', -⟩ := undisturbed.stream s hs
  exact ⟨undisturbed.closed.trans isOpen, s', hs'⟩

theorem Undisturbed.tracks (undisturbed : Undisturbed handle handle')
    (tracks : Tracks handle cursor) : Tracks handle' cursor where
  closed := undisturbed.closed.trans tracks.closed
  reading := (congrArg (·.openForReading) undisturbed.flags).trans tracks.reading
  stream isOpen := by
    obtain ⟨s, hs, htell, hposition, hbound⟩ := tracks.stream isOpen
    obtain ⟨s', hs', htell'⟩ := undisturbed.stream s hs
    refine ⟨s', hs', htell'.trans htell, ?_, hbound⟩
    rw [undisturbed.position, hposition]

private theorem tracks_readable (tracks : Tracks handle cursor) (isOpen : cursor.isOpen = true) :
    Readable handle := by
  obtain ⟨s, hs, -⟩ := tracks.stream isOpen
  exact ⟨by simp [tracks.closed, isOpen], s, hs⟩

private theorem onReader_eq {α : Type} {s : R.State} (reader : handle.reader = some s)
    (ask : R.State → Except Exception α × R.State) :
    onReader handle ask = ((ask s).1, { handle with reader := some (ask s).2 }) := by
  rw [onReader, reader]

private theorem size_ne_zero (size : Int64) : size.toUInt64.toNat ≠ 0 ↔ size ≠ 0 := by
  rw [ne_eq, ne_eq, not_iff_not, ← toUInt64_eq_zero, ← UInt64.toNat_inj]
  rfl

private theorem rejected_iff {null : Bool} {size : Int64} (nonneg : ¬ size < 0) :
    Rejected null size ↔ size.toUInt64.toNat ≠ 0 ∧ null = true := by
  rw [size_ne_zero]
  exact or_iff_right nonneg

private theorem next_chunk {chunk delivered : Bytes} {pos size : Nat}
    (here : chunk <+: c.drop (pos + delivered.length))
    (short : chunk.length ≤ size - delivered.length)
    (whole : (c.drop pos).take size =
      delivered ++ (c.drop (pos + delivered.length)).take (size - delivered.length)) :
    (c.drop pos).take size = (delivered ++ chunk) ++
      (c.drop (pos + (delivered ++ chunk).length)).take (size - (delivered ++ chunk).length) := by
  rw [whole, take_chunk here short, List.append_assoc, List.length_append, Nat.add_assoc,
    Nat.sub_add_eq]

section Positional

variable {rely guarantee : OpenDALReadHandle R → OpenDALReadHandle R → Prop}
  {good : OpenDALReadHandle R → Prop}

/-- What positional reads need of the other threads: `good` handles are readable, they stay good
whatever the others do, and so they do in positional reads. -/
structure Hospitable (rely guarantee : OpenDALReadHandle R → OpenDALReadHandle R → Prop)
    (good : OpenDALReadHandle R → Prop) : Prop where
  interference : Interference rely
  readable : ∀ {handle}, good handle → Readable handle
  stable : ∀ {handle handle'}, good handle → rely handle handle' → good handle'
  undisturbed : ∀ {handle handle'}, good handle → Undisturbed handle handle' → good handle'
  within : ∀ {handle handle'}, Undisturbed handle handle' → guarantee handle handle'

private theorem readAtLoop_assured (reliable : R.Reliable) (length : c.length < 2 ^ 63)
    (hospitable : Hospitable rely guarantee good) {size offset : Nat} (word : offset < 2 ^ 64)
    {delivered : Bytes} (inside : delivered ≠ [] → offset + delivered.length ≤ c.length)
    (whole : (c.drop offset).take size =
      delivered ++ (c.drop (offset + delivered.length)).take (size - delivered.length))
    (start : good handle) :
    Assured (handleAccess R) rely guarantee
      (fun answer handle => answer = .ok ((c.drop offset).take size) ∧ good handle)
      (readAtLoop size offset delivered) handle := by
  induction hgap : size - delivered.length using Nat.strongRecOn generalizing delivered handle with
  | ind gap ih =>
    rw [readAtLoop]
    by_cases hlt : delivered.length < size
    swap
    · rw [if_neg hlt]
      have hzero : size - delivered.length = 0 := by omega
      rw [hzero, List.take_zero, List.append_nil] at whole
      exact fun handle' h => ⟨by rw [whole], hospitable.stable start h⟩
    have hrange : ¬ 2 ^ 64 - 1 - delivered.length < offset := by
      by_cases hempty : delivered = []
      · rw [hempty, List.length_nil]
        omega
      · have := inside hempty
        omega
    rw [if_pos hlt, if_neg hrange]
    intro handle' h
    have hgood := hospitable.stable start h
    obtain ⟨-, s, hs⟩ := hospitable.readable hgood
    have htell := R.readAt_tell s (size - delivered.length) (offset + delivered.length)
    have hundisturbed : Undisturbed handle'
        (handleAccess R (.readAt (size - delivered.length) (offset + delivered.length)) handle').2 := by
      rw [handleAccess, onReader_eq hs]
      refine ⟨rfl, rfl, rfl, fun s' hs' => ⟨_, rfl, ?_⟩⟩
      rw [hs] at hs'
      obtain rfl := Option.some.inj hs'
      exact htell
    have hgood' := hospitable.undisturbed hgood hundisturbed
    refine ⟨hospitable.within hundisturbed, fun e he => ?_, fun chunk hchunk => ?_⟩
    · rw [handleAccess, onReader_eq hs] at he
      exact absurd he (reliable.readAt s _ _ e)
    · rw [handleAccess, onReader_eq hs] at hchunk
      obtain ⟨hhere, hshort, hprogress⟩ := R.readAt_chunk s _ _ _ hchunk
      beta_reduce
      by_cases hempty : chunk = []
      · rw [if_pos hempty]
        have hend : c.drop (offset + delivered.length) = [] := by
          subst hempty
          exact Chunk.end_of_file ⟨hhere, hshort, hprogress⟩ (by omega)
        rw [hend, List.take_nil, List.append_nil] at whole
        exact fun handle'' h' => ⟨by rw [whole], hospitable.stable hgood' h'⟩
      · rw [if_neg hempty]
        have hpos := List.length_pos_iff.mpr hempty
        have hnext := next_chunk hhere hshort whole
        refine ih (size - (delivered ++ chunk).length) ?_ (fun _ => ?_) hnext hgood' rfl
        · rw [List.length_append]
          omega
        · have hle := hhere.length_le
          rw [List.length_drop] at hle
          rw [List.length_append]
          omega

private theorem ensureOpen_assured (hospitable : Hospitable rely guarantee good)
    (start : good handle) :
    Assured (handleAccess R) rely guarantee (fun answer handle => answer = .ok () ∧ good handle)
      ensureOpen handle := by
  refine assured_perform_bind (fun handle' _ => ?_) (fun handle' _ e he => ?_)
    fun handle' h closed hclosed => ?_
  · exact hospitable.within (undisturbed_interference.refl handle')
  · cases he
  · have hgood := hospitable.stable start h
    obtain rfl : closed = false :=
      (Except.ok.inj hclosed).symm.trans (hospitable.readable hgood).isOpen
    exact assured_pure fun handle'' h' => ⟨rfl, hospitable.stable hgood h'⟩

private def Delivers (c : Bytes) (null : Bool) (size offset : Nat) (answer : Except Exception Bytes) :
    Prop :=
  if size ≠ 0 ∧ null = true then ∃ e, answer = .error e else answer = .ok ((c.drop offset).take size)

private theorem readAt_assured (reliable : R.Reliable) (length : c.length < 2 ^ 63)
    (hospitable : Hospitable rely guarantee good) (null : Bool) {size : UInt64}
    (small : size.toNat ≤ streamMax) (offset : UInt64) (start : good handle) :
    Assured (handleAccess R) rely guarantee
      (fun answer handle => Delivers c null size.toNat offset.toNat answer ∧ good handle)
      (readAt null size offset) handle := by
  refine assured_bind hospitable.interference (ensureOpen_assured hospitable start)
    (fun e s' h => absurd h.1 (by simp)) fun _ handle' ⟨_, hgood⟩ => ?_
  by_cases hzero : size = 0
  · rw [if_pos hzero]
    refine assured_pure fun handle'' h => ⟨?_, hospitable.stable hgood h⟩
    subst hzero
    simp [Delivers]
  have hasked : size.toNat ≠ 0 := fun h => hzero (UInt64.toNat_inj.mp h)
  rw [if_neg hzero]
  by_cases hnull : null = true
  · rw [if_pos hnull]
    refine assured_fail fun handle'' h => ⟨?_, hospitable.stable hgood h⟩
    rw [Delivers, if_pos ⟨hasked, hnull⟩]
    exact ⟨_, rfl⟩
  rw [if_neg hnull, if_neg (Nat.not_lt.mpr small)]
  refine (readAtLoop_assured reliable length hospitable offset.toNat_lt
    (fun h => absurd rfl h) (by simp) hgood).weaken fun answer s' ⟨hanswer, hs'⟩ => ⟨?_, hs'⟩
  rw [Delivers, if_neg fun h => hnull h.2]
  exact hanswer

theorem callProgram_readAt_assured (reliable : R.Reliable) (length : c.length < 2 ^ 63)
    (hospitable : Hospitable rely guarantee good) (null : Bool) (size : Int64) (offset : UInt64)
    (cursor : Cursor) (start : good handle) :
    Assured (handleAccess R) rely guarantee
      (fun answer handle => view answer = (cursor.readAt c null size offset).1 ∧ good handle)
      (callProgram (.readAt null size offset)) handle := by
  rw [callProgram, Cursor.readAt]
  by_cases hnegative : size < 0
  · rw [if_pos hnegative, if_pos (show Rejected null size from Or.inl hnegative)]
    exact assured_fail fun handle' h => ⟨rfl, hospitable.stable start h⟩
  obtain ⟨hsize, hsmall⟩ := size_toNat hnegative
  have hrejects := (rejected_iff hnegative : Rejected null size ↔ _)
  rw [if_neg hnegative]
  refine assured_bind hospitable.interference
    (readAt_assured reliable length hospitable null hsmall offset start)
    (fun e handle' ⟨hdelivers, hgood⟩ => ⟨?_, hgood⟩) fun filled handle' ⟨hdelivers, hgood⟩ => ?_
  · unfold Delivers at hdelivers
    split_ifs at hdelivers with hnull
    rw [if_pos (hrejects.mpr hnull)]
    rfl
  · unfold Delivers at hdelivers
    split_ifs at hdelivers with hnull
    · obtain ⟨e, he⟩ := hdelivers
      cases he
    obtain rfl := Except.ok.inj hdelivers
    rw [if_neg fun rejected => hnull (hrejects.mp rejected), hsize]
    by_cases hbeyond : 0 < size ∧ c.length < offset.toNat + size.toNatClampNeg
    · have hless := fun h => (slice_whole_iff (c := c) hbeyond.1 offset.toNat).mp h hbeyond.2
      rw [if_pos hbeyond, if_pos hless]
      exact assured_fail fun handle'' h => ⟨rfl, hospitable.stable hgood h⟩
    · have hequal : UInt64.ofNat ((c.drop offset.toNat).take size.toNatClampNeg).length =
          size.toUInt64 := by
        by_cases hpositive : 0 < size
        · exact (slice_whole_iff hpositive offset.toNat).mpr fun h => hbeyond ⟨hpositive, h⟩
        · obtain rfl : size = 0 :=
            Int64.le_antisymm (Int64.not_lt.mp hpositive) (Int64.not_lt.mp hnegative)
          rfl
      rw [if_neg hbeyond, if_neg (not_not_intro hequal)]
      exact assured_pure fun handle'' h => ⟨rfl, hospitable.stable hgood h⟩

end Positional

section Sequential

/-- Between the accesses of a sequential call: the handle stands at `pos`, its reader at `stream`.
-/
private structure Streaming (pos stream : Nat) (handle : OpenDALReadHandle R) : Prop where
  isOpen : handle.closed = false
  reading : handle.flags.openForReading = true
  position : handle.position.toNat = pos
  reader : ∃ s, handle.reader = some s ∧ R.tell s = stream

private theorem Streaming.undisturbed {pos stream : Nat} (streaming : Streaming pos stream handle)
    (undisturbed : Undisturbed handle handle') : Streaming pos stream handle' where
  isOpen := undisturbed.closed.trans streaming.isOpen
  reading := (congrArg (·.openForReading) undisturbed.flags).trans streaming.reading
  position := (congrArg UInt64.toNat undisturbed.position).trans streaming.position
  reader := by
    obtain ⟨s, hs, htell⟩ := streaming.reader
    obtain ⟨s', hs', htell'⟩ := undisturbed.stream s hs
    exact ⟨s', hs', htell'.trans htell⟩

private theorem Streaming.advance {pos stream : Nat} (streaming : Streaming pos stream handle)
    {read_size : UInt64} (caught_up : (handle.position + read_size).toNat = stream) :
    Streaming stream stream { handle with position := handle.position + read_size } :=
  ⟨streaming.isOpen, streaming.reading, caught_up, streaming.reader⟩

private theorem tracks_iff_streaming (isOpen : cursor.isOpen = true) :
    Tracks handle cursor ↔
      Streaming cursor.position cursor.position handle ∧ cursor.position ≤ streamMax := by
  constructor
  · intro tracks
    obtain ⟨s, hs, htell, hposition, hbound⟩ := tracks.stream isOpen
    exact ⟨⟨by simp [tracks.closed, isOpen], tracks.reading, hposition, s, hs, htell⟩, hbound⟩
  · rintro ⟨⟨hclosed, hreading, hposition, s, hs, htell⟩, hbound⟩
    exact ⟨by simp [hclosed, isOpen], hreading, fun _ => ⟨s, hs, htell, hposition, hbound⟩⟩

private theorem tracks_hospitable (isOpen : cursor.isOpen = true) :
    Hospitable (R := R) Undisturbed StaysReadable fun handle => Tracks handle cursor where
  interference := undisturbed_interference
  readable tracks := tracks_readable tracks isOpen
  stable tracks undisturbed := undisturbed.tracks tracks
  undisturbed tracks undisturbed := undisturbed.tracks tracks
  within := Undisturbed.staysReadable

private theorem readLoop_assured (reliable : R.Reliable) (pos size : Nat) (delivered : Bytes)
    (whole : (c.drop pos).take size =
      delivered ++ (c.drop (pos + delivered.length)).take (size - delivered.length))
    (start : Streaming pos (pos + delivered.length) handle) :
    Assured (handleAccess R) Undisturbed StaysReadable
      (fun answer handle => answer = .ok ((c.drop pos).take size) ∧
        Streaming pos (pos + ((c.drop pos).take size).length) handle)
      (readLoop size delivered) handle := by
  induction hgap : size - delivered.length using Nat.strongRecOn generalizing delivered handle with
  | ind gap ih =>
    rw [readLoop]
    by_cases hlt : delivered.length < size
    swap
    · rw [if_neg hlt]
      have hzero : size - delivered.length = 0 := by omega
      rw [hzero, List.take_zero, List.append_nil] at whole
      rw [whole]
      exact fun handle' h => ⟨rfl, start.undisturbed h⟩
    rw [if_pos hlt]
    intro handle' h
    obtain ⟨isOpen, reading, hposition, s, hs, htell⟩ := start.undisturbed h
    refine ⟨fun _ => ?_, fun e he => ?_, fun chunk hchunk => ?_⟩
    · rw [handleAccess, onReader_eq hs]
      exact ⟨isOpen, _, rfl⟩
    · rw [handleAccess, onReader_eq hs] at he
      exact absurd he (reliable.read s _ e)
    · rw [handleAccess, onReader_eq hs] at hchunk ⊢
      have hchunk' := R.read_chunk s _ _ hchunk
      have hmoves := R.read_tell s _ _ hchunk
      rw [htell] at hchunk' hmoves
      beta_reduce
      by_cases hempty : chunk = []
      · rw [if_pos hempty]
        subst hempty
        rw [hchunk'.end_of_file (by omega), List.take_nil, List.append_nil] at whole
        rw [whole]
        have hthere : Streaming pos (pos + delivered.length) { handle' with
            reader := some (R.read s (size - delivered.length)).2 } :=
          ⟨isOpen, reading, hposition, _, rfl, hmoves⟩
        exact fun handle'' h' => ⟨rfl, hthere.undisturbed h'⟩
      · rw [if_neg hempty]
        have hpos := List.length_pos_iff.mpr hempty
        have hnext := next_chunk hchunk'.here hchunk'.short whole
        refine ih (size - (delivered ++ chunk).length) ?_ (delivered ++ chunk) hnext
          ⟨isOpen, reading, hposition, _, rfl, ?_⟩ rfl
        · rw [List.length_append]
          omega
        · rw [hmoves, List.length_append]
          omega

private theorem slice_fits (length : c.length < 2 ^ 63) {pos : Nat} (near : pos ≤ streamMax)
    (size : Nat) : pos + ((c.drop pos).take size).length ≤ streamMax := by
  rw [List.length_take, List.length_drop]
  unfold streamMax at near ⊢
  omega

private def Advances (c : Bytes) (null : Bool) (size pos : Nat) (answer : Except Exception Bytes)
    (handle : OpenDALReadHandle R) : Prop :=
  if size ≠ 0 ∧ null = true then (∃ e, answer = .error e) ∧ Streaming pos pos handle
  else answer = .ok ((c.drop pos).take size) ∧
    Streaming (pos + ((c.drop pos).take size).length) (pos + ((c.drop pos).take size).length) handle

private theorem read_assured (reliable : R.Reliable) (length : c.length < 2 ^ 63)
    (isOpen : cursor.isOpen = true) (null : Bool) {size : UInt64} (small : size.toNat ≤ streamMax)
    (start : Tracks handle cursor) :
    Assured (handleAccess R) Undisturbed StaysReadable
      (Advances c null size.toNat cursor.position) (read null size) handle := by
  refine assured_bind undisturbed_interference
    (ensureOpen_assured (tracks_hospitable isOpen) start) (fun e s' h => absurd h.1 (by simp))
    fun _ handle' ⟨_, htracks⟩ => ?_
  obtain ⟨hstreaming, hnear⟩ := (tracks_iff_streaming isOpen).mp htracks
  by_cases hzero : size = 0
  · rw [if_pos hzero]
    subst hzero
    refine assured_pure fun handle'' h => ?_
    simpa [Advances] using hstreaming.undisturbed h
  have hasked : size.toNat ≠ 0 := fun h => hzero (UInt64.toNat_inj.mp h)
  rw [if_neg hzero]
  by_cases hnull : null = true
  · rw [if_pos hnull]
    refine assured_fail fun handle'' h => ?_
    rw [Advances, if_pos ⟨hasked, hnull⟩]
    exact ⟨⟨_, rfl⟩, hstreaming.undisturbed h⟩
  rw [if_neg hnull]
  refine assured_perform_bind (fun handle'' h hreadable => hreadable) (fun handle'' h e he => ?_)
    fun handle'' h position hposition => ?_
  · cases he
  have hthere := hstreaming.undisturbed h
  have hfar : ¬ streamMax < position.toNat := by
    obtain rfl := Except.ok.inj hposition
    rw [hthere.position]
    exact Nat.not_lt.mpr hnear
  rw [if_neg hfar, if_neg (Nat.not_lt.mpr small)]
  refine assured_bind undisturbed_interference
    (readLoop_assured reliable cursor.position size.toNat [] (by simp) hthere)
    (fun e s' h => absurd h.1 (by simp)) fun filled handle₃ ⟨hfilled, hloop⟩ => ?_
  obtain rfl := Except.ok.inj hfilled
  have hfits := slice_fits length hnear size.toNat
  refine assured_perform_bind (fun handle₄ h' hreadable => ⟨hreadable.isOpen, hreadable.reader⟩)
    (fun handle₄ h' e he => ?_) fun handle₄ h' _ _ => assured_pure fun handle₅ h'' => ?_
  · cases he
  have hthere' := hloop.undisturbed h'
  have hmoved : (handle₄.position +
      UInt64.ofNat ((c.drop cursor.position).take size.toNat).length).toNat =
        cursor.position + ((c.drop cursor.position).take size.toNat).length := by
    rw [UInt64.toNat_add, hthere'.position, UInt64.toNat_ofNat']
    unfold streamMax at hfits
    omega
  rw [Advances, if_neg fun h => hnull h.2]
  exact ⟨rfl, (hthere'.advance hmoved).undisturbed h''⟩

private theorem read_meets (reliable : R.Reliable) (length : c.length < 2 ^ 63)
    (isOpen : cursor.isOpen = true) (null : Bool) (size : Int64) (start : Tracks handle cursor) :
    Assured (handleAccess R) Undisturbed StaysReadable
      (fun answer handle => view answer = (cursor.read c null size).1 ∧
        Tracks handle (cursor.read c null size).2)
      (callProgram (.read null size)) handle := by
  rw [callProgram, Cursor.read]
  by_cases hnegative : size < 0
  · rw [if_pos hnegative, if_pos (show Rejected null size from Or.inl hnegative)]
    exact assured_fail fun handle' h => ⟨rfl, h.tracks start⟩
  obtain ⟨hsize, hsmall⟩ := size_toNat hnegative
  have hrejects := (rejected_iff hnegative : Rejected null size ↔ _)
  have hnear := ((tracks_iff_streaming isOpen).mp start).2
  rw [if_neg hnegative]
  refine assured_bind undisturbed_interference
    (read_assured reliable length isOpen null hsmall start)
    (fun e handle' hadvances => ?_) fun filled handle' hadvances => ?_
  · unfold Advances at hadvances
    split_ifs at hadvances with hnull
    · rw [if_pos (hrejects.mpr hnull)]
      exact ⟨rfl, (tracks_iff_streaming isOpen).mpr ⟨hadvances.2, hnear⟩⟩
    · exact absurd hadvances.1 (by simp)
  · unfold Advances at hadvances
    split_ifs at hadvances with hnull
    · exact absurd hadvances.1 (by simp)
    obtain ⟨hfilled, hstreaming⟩ := hadvances
    obtain rfl := Except.ok.inj hfilled
    have hfits := slice_fits length hnear size.toUInt64.toNat
    have hcount : ((c.drop cursor.position).take size.toUInt64.toNat).length < 2 ^ 63 := by
      unfold streamMax at hfits
      omega
    rw [if_neg fun rejected => hnull (hrejects.mp rejected), ← hsize]
    refine assured_pure fun handle'' h => ⟨?_, h.tracks ((tracks_iff_streaming ?_).mpr ?_)⟩
    · rw [view, count_toInt hcount]
    · exact isOpen
    · exact ⟨hstreaming, hfits⟩

private theorem seek_meets (isOpen : cursor.isOpen = true) (location : UInt64)
    (start : Tracks handle cursor) :
    Assured (handleAccess R) Undisturbed StaysReadable
      (fun answer handle => (match answer with
          | .ok _ => CursorAnswer.done
          | .error _ => CursorAnswer.threw) = (cursor.seek location).1 ∧
        Tracks handle (cursor.seek location).2) (seek location) handle := by
  refine assured_bind undisturbed_interference
    (ensureOpen_assured (tracks_hospitable isOpen) start) (fun e s' h => absurd h.1 (by simp))
    fun _ handle' ⟨_, htracks⟩ => ?_
  unfold Cursor.seek
  by_cases hrange : streamMax < location.toNat
  · rw [if_pos hrange, if_pos hrange]
    exact assured_fail fun handle'' h => ⟨rfl, h.tracks htracks⟩
  rw [if_neg hrange, if_neg hrange]
  have hnear := Nat.le_of_not_lt hrange
  refine assured_perform_bind (fun handle'' h => ?_) (fun handle'' h e he => ?_)
    fun handle'' h _ hseek => ?_
  · obtain ⟨hopen', s, hs⟩ := tracks_readable (h.tracks htracks) isOpen
    rw [handleAccess, onReader_eq hs]
    exact fun _ => ⟨hopen', _, rfl⟩
  · obtain ⟨-, s, hs⟩ := tracks_readable (h.tracks htracks) isOpen
    rw [handleAccess, onReader_eq hs] at he
    have haccepts := R.seek_accepts s location.toNat hnear
    rw [haccepts] at he
    cases he
  · have htracks' := h.tracks htracks
    obtain ⟨hopen', s, hs⟩ := tracks_readable htracks' isOpen
    have htell := R.seek_tell s location.toNat (R.seek_accepts s location.toNat hnear)
    rw [handleAccess, onReader_eq hs]
    intro handle₃ h'
    refine ⟨fun hreadable => ⟨hreadable.isOpen, hreadable.reader⟩, ⟨fun e he => ?_, ?_⟩⟩
    · cases he
    intro _ _ handle₄ h''
    refine ⟨rfl, h''.tracks ?_⟩
    obtain ⟨s', hs', htell'⟩ := h'.stream _ rfl
    refine ⟨h'.closed.trans (by simp [hopen', isOpen]), ?_, fun _ => ⟨s', hs', ?_, rfl, hnear⟩⟩
    · exact (congrArg (·.openForReading) h'.flags).trans htracks'.reading
    · exact htell'.trans htell

private theorem tell_assured (isOpen : cursor.isOpen = true) (start : Tracks handle cursor) :
    Assured (handleAccess R) Undisturbed StaysReadable
      (fun answer handle => ∃ position : UInt64, answer = .ok position ∧
        position.toNat = cursor.position ∧ Tracks handle cursor) tell handle := by
  refine assured_bind undisturbed_interference
    (ensureOpen_assured (tracks_hospitable isOpen) start) (fun e s' h => absurd h.1 (by simp))
    fun _ handle' ⟨_, htracks⟩ => ?_
  intro handle'' h
  have htracks' := h.tracks htracks
  have hat := ((tracks_iff_streaming isOpen).mp htracks').1.position
  refine ⟨fun hreadable => hreadable, ⟨fun e he => ?_, fun position hposition => ?_⟩⟩
  · cases he
  · obtain rfl := Except.ok.inj hposition
    exact fun handle₃ h' => ⟨_, rfl, hat, h'.tracks htracks'⟩

private theorem sequential_implements (reliable : R.Reliable) (length : c.length < 2 ^ 63) :
    Implements (handleAccess R) Undisturbed StaysReadable (cursorCall c) callProgram view
      (fun handle cursor => Tracks handle cursor ∧ cursor.isOpen = true) fun _ => True := by
  rintro handle cursor call - ⟨tracks, isOpen⟩
  have hopened {answer : CursorAnswer} {next : Cursor} (hnext : next.isOpen = true) :
      ∀ (reply : Except Exception ReadReply) (handle : OpenDALReadHandle R),
        view reply = answer ∧ Tracks handle next →
          view reply = answer ∧ Tracks handle next ∧ next.isOpen = true :=
    fun reply handle h => ⟨h.1, h.2, hnext⟩
  have hseek (location : UInt64) : (cursor.seek location).2.isOpen = true := by
    unfold Cursor.seek
    split <;> exact isOpen
  have hread (null : Bool) (size : Int64) : (cursor.read c null size).2.isOpen = true := by
    unfold Cursor.read
    split <;> exact isOpen
  have hseeks (location : UInt64) : Assured (handleAccess R) Undisturbed StaysReadable
      (fun answer handle => view answer = (cursor.seek location).1 ∧
        Tracks handle (cursor.seek location).2)
      (do
        seek location
        return ReadReply.done) handle := by
    refine assured_bind undisturbed_interference (seek_meets isOpen location tracks)
      (fun e handle' h => h) fun _ handle' h => ?_
    exact assured_pure fun handle'' h' => ⟨h.1, h'.tracks h.2⟩
  cases call with
  | seek location => exact (hseeks location).weaken (hopened (hseek location))
  | reset => exact (hseeks 0).weaken (hopened (hseek 0))
  | read null size =>
    exact (read_meets reliable length isOpen null size tracks).weaken (hopened (hread null size))
  | readAt null size offset =>
    have hstays : (cursor.readAt c null size offset).2 = cursor := by
      unfold Cursor.readAt
      split_ifs <;> rfl
    refine (callProgram_readAt_assured reliable length (tracks_hospitable isOpen) null size offset
      cursor tracks).weaken fun answer handle' h => ⟨h.1, ?_⟩
    rw [cursorCall, hstays]
    exact ⟨h.2, isOpen⟩
  | seekPosition =>
    refine assured_perform_bind (fun handle' _ hreadable => hreadable) (fun handle' _ e he => ?_)
      fun handle' h reading hreading => ?_
    · cases he
    have htracks := h.tracks tracks
    obtain rfl : reading = true := (Except.ok.inj hreading).symm.trans htracks.reading
    refine assured_bind undisturbed_interference (tell_assured isOpen htracks)
      (fun e handle'' ⟨_, hposition, _⟩ => by cases hposition) fun position handle'' hafter => ?_
    obtain ⟨position', hposition, hat, htracks'⟩ := hafter
    obtain rfl := Except.ok.inj hposition
    refine assured_pure fun handle₃ h' => ⟨?_, h'.tracks htracks', isOpen⟩
    exact congrArg CursorAnswer.position hat

private theorem positional_implements (reliable : R.Reliable) (length : c.length < 2 ^ 63) :
    Implements (handleAccess R) StaysReadable Undisturbed (cursorCall c) callProgram view
      (fun handle _ => Readable handle) Positional := by
  have hospitable : Hospitable (R := R) StaysReadable Undisturbed Readable :=
    { interference := staysReadable_interference
      readable := id
      stable := fun readable stays => stays readable
      undisturbed := fun readable undisturbed => undisturbed.staysReadable readable
      within := id }
  intro handle cursor call positional readable
  cases call with
  | seek | reset | read | seekPosition => exact absurd positional id
  | readAt null size offset =>
    exact callProgram_readAt_assured reliable length hospitable null size offset cursor readable

end Sequential

/-- Threads share one open handle. One of them, `main`, makes any calls, the others make positional
reads. Under every schedule each of them is answered as by a cursor of its own. -/
theorem sharedReads_follow_cursors {ι : Type} [DecidableEq ι] (reliable : R.Reliable)
    (length : c.length < 2 ^ 63) (flags : FileOpenFlags) (reading : flags.openForReading = true)
    (metadata : FileMetadata) (main : ι) {calls : ι → List ReadCall}
    (positional : ∀ i, i ≠ main → ∀ call ∈ calls i, Positional call) (schedule : List ι) (i : ι) :
    let thread := (interleave (handleAccess R) (fun i => ⟨(calls i).map callProgram, []⟩,
      OpenDALReadHandle.opened R flags metadata) schedule).1 i
    thread.answers.map view <+: (run (cursorCall c) {} (calls i)).1 ∧
      (thread.programs = [] →
        thread.answers.map view = (run (cursorCall c) {} (calls i)).1) := by
  let rely (i : ι) : OpenDALReadHandle R → OpenDALReadHandle R → Prop :=
    if i = main then Undisturbed else StaysReadable
  let guarantee (i : ι) : OpenDALReadHandle R → OpenDALReadHandle R → Prop :=
    if i = main then StaysReadable else Undisturbed
  let relates (i : ι) : OpenDALReadHandle R → Cursor → Prop :=
    if i = main then fun handle cursor => Tracks handle cursor ∧ cursor.isOpen = true
    else fun handle _ => Readable handle
  let good (i : ι) : ReadCall → Prop := if i = main then fun _ => True else Positional
  have htracks : Tracks (OpenDALReadHandle.opened R flags metadata) {} :=
    tracks_opened flags reading metadata
  have hinterference (i : ι) : Interference (rely i) := by
    simp only [rely]
    split_ifs
    · exact undisturbed_interference
    · exact staysReadable_interference
  have hidle (i : ι) (handle : OpenDALReadHandle R) : guarantee i handle handle := by
    simp only [guarantee]
    split_ifs
    · exact staysReadable_interference.refl handle
    · exact undisturbed_interference.refl handle
  have hcompatible (i j : ι) (hij : i ≠ j) (handle handle' : OpenDALReadHandle R)
      (acted : guarantee j handle handle') : rely i handle handle' := by
    simp only [rely, guarantee] at acted ⊢
    by_cases hi : i = main
    · rw [if_neg fun hj => hij (hi.trans hj.symm)] at acted
      rwa [if_pos hi]
    · rw [if_neg hi]
      split_ifs at acted
      · exact acted
      · exact acted.staysReadable
  have hstable (i : ι) (handle handle' : OpenDALReadHandle R) (cursor : Cursor)
      (related : relates i handle cursor) (acted : rely i handle handle') :
      relates i handle' cursor := by
    simp only [rely, relates] at related acted ⊢
    split_ifs at related acted ⊢
    · exact ⟨acted.tracks related.1, related.2⟩
    · exact acted related
  have himplements (i : ι) : Implements (handleAccess R) (rely i) (guarantee i) (cursorCall c)
      callProgram view (relates i) (good i) := by
    simp only [rely, guarantee, relates, good]
    split_ifs
    · exact sequential_implements reliable length
    · exact positional_implements reliable length
  have hgood (i : ι) (call : ReadCall) (member : call ∈ calls i) : good i call := by
    simp only [good]
    split_ifs with hi
    · trivial
    · exact positional i hi call member
  have hrelated (i : ι) : relates i (OpenDALReadHandle.opened R flags metadata) {} := by
    simp only [relates]
    split_ifs
    · exact ⟨htracks, rfl⟩
    · exact tracks_readable htracks rfl
  have hfollows := interleave_follows hinterference hidle hcompatible hstable himplements hgood
    hrelated schedule i
  exact ⟨hfollows.1, fun ended => (hfollows.2 ended).1⟩

end Threads

theorem sharedReads_follow_cursors_chunked :
    let calls : Nat → List ReadCall := fun i =>
      if i = 0 then [.read false 4, .seekPosition] else [.readAt false 3 2, .readAt false 3 4]
    let thread := (interleave (handleAccess (chunkedReader (bytes "abcdef") 1))
      (fun i => ⟨(calls i).map callProgram, []⟩,
        OpenDALReadHandle.opened _ { openForReading := true } ⟨6, .regular, none, []⟩)
      ((List.replicate 9 [0, 1, 2]).flatten)).1
    (thread 0).answers.map view <+: [.count 4 (bytes "abcd"), .position 4] ∧
      (thread 1).answers.map view <+: [.filled (bytes "cde"), .threw] := by
  have hreliable : (chunkedReader (bytes "abcdef") 1).Reliable :=
    ⟨fun _ _ _ => nofun, fun _ _ _ _ => nofun⟩
  have hpositional (i : Nat) (other : i ≠ 0) : ∀ call ∈ (if i = 0 then
      [ReadCall.read false 4, .seekPosition] else [.readAt false 3 2, .readAt false 3 4]),
      Positional call := by
    simp [other, Positional]
  have hfollow (i : Nat) := sharedReads_follow_cursors hreliable (by decide)
    { openForReading := true } rfl ⟨6, .regular, none, []⟩ 0 hpositional
    ((List.replicate 9 [0, 1, 2]).flatten) i
  exact ⟨(hfollow 0).1.trans (by decide), (hfollow 1).1.trans (by decide)⟩

end DuckdbOpendalfs.Handles.SharedReads
