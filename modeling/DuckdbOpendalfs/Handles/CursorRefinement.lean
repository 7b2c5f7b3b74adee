/- DuckdbOpendalfs/Handles/CursorRefinement
   digest: Over a reader that answers in any chunks, a read handle is a plain cursor. -/

import DuckdbOpendalfs.Handles.ReadHandle

set_option autoImplicit false
set_option relaxedAutoImplicit false

namespace DuckdbOpendalfs.Handles.CursorRefinement

open Text.ByteString
open Execution.Runs
open Operators.LayerOptions
open FileHandle Readers ReadHandle

structure Cursor where
  position : Nat := 0
  isOpen : Bool := true

inductive CursorAnswer
  | threw
  | done
  | count (read_size : Int) (buffer : Bytes)
  | filled (buffer : Bytes)
  | position (offset : Nat)
  deriving DecidableEq, Repr

/-- A call is rejected for a negative size, and for a null buffer with anything to fill in. -/
def Rejected (null : Bool) (size : Int64) : Prop := size < 0 ∨ (size ≠ 0 ∧ null = true)

instance (null : Bool) (size : Int64) : Decidable (Rejected null size) :=
  inferInstanceAs (Decidable (_ ∨ _))

def Cursor.seek (cursor : Cursor) (location : UInt64) : CursorAnswer × Cursor :=
  if streamMax < location.toNat then (.threw, cursor)
  else (.done, { cursor with position := location.toNat })

def Cursor.read (c : Bytes) (cursor : Cursor) (null : Bool) (size : Int64) :
    CursorAnswer × Cursor :=
  if Rejected null size then (.threw, cursor)
  else
    let got := (c.drop cursor.position).take size.toNatClampNeg
    (.count got.length got, { cursor with position := cursor.position + got.length })

def Cursor.readAt (c : Bytes) (cursor : Cursor) (null : Bool) (size : Int64) (offset : UInt64) :
    CursorAnswer × Cursor :=
  if Rejected null size then (.threw, cursor)
  else if 0 < size ∧ c.length < offset.toNat + size.toNatClampNeg then (.threw, cursor)
  else (.filled ((c.drop offset.toNat).take size.toNatClampNeg), cursor)

def cursorCall (c : Bytes) (cursor : Cursor) : ReadCall → CursorAnswer × Cursor
  | .seek location => cursor.seek location
  | .reset => cursor.seek 0
  | .read null size => cursor.read c null size
  | .readAt null size offset => cursor.readAt c null size offset
  | .seekPosition => (.position cursor.position, cursor)

def cursorStep (c : Bytes) (cursor : Cursor) : ReadOp → CursorAnswer × Cursor
  | .close => (.done, { cursor with isOpen := false })
  | .call call => if cursor.isOpen then cursorCall c cursor call else (.threw, cursor)

def view : Except Exception ReadReply → CursorAnswer
  | .error _ => .threw
  | .ok .done => .done
  | .ok (.count read_size buffer) => .count read_size.toInt buffer
  | .ok (.filled buffer) => .filled buffer
  | .ok (.position offset) => .position offset.toNat

section Words

theorem count_toInt {n : Nat} (small : n < 2 ^ 63) : (UInt64.ofNat n).toInt64.toInt = n := by
  rw [UInt64.toInt64_ofNat', Int64.toInt_ofNat_of_lt small]

end Words

section Simulation

variable {c : Bytes} {R : Reader c}

/-- The handle and its reader both stand at the position of the cursor. -/
structure Tracks (handle : OpenDALReadHandle R) (cursor : Cursor) : Prop where
  closed : handle.closed = !cursor.isOpen
  reading : handle.flags.openForReading = true
  stream : cursor.isOpen = true → ∃ s, handle.reader = some s ∧ R.tell s = cursor.position ∧
    handle.position.toNat = cursor.position ∧ cursor.position ≤ streamMax

theorem tracks_opened (flags : FileOpenFlags) (reading : flags.openForReading = true)
    (metadata : FileMetadata) : Tracks (OpenDALReadHandle.opened R flags metadata) {} where
  closed := rfl
  reading := reading
  stream _ := ⟨R.start, rfl, R.tell_start, rfl, Nat.zero_le _⟩

/-- The simulation relation after one step of a handle and one step of a cursor. -/
private abbrev Agree (answer : Except Exception ReadReply × OpenDALReadHandle R)
    (expected : CursorAnswer × Cursor) : Prop :=
  view answer.1 = expected.1 ∧ Tracks answer.2 expected.2

private theorem seek_agrees {handle : OpenDALReadHandle R} {cursor : Cursor}
    (tracks : Tracks handle cursor) (isOpen : cursor.isOpen = true) (location : UInt64) :
    Agree (OpenDALFileSystem.seek handle location) (cursor.seek location) := by
  obtain ⟨s, hreader, -⟩ := tracks.stream isOpen
  have hclosed : handle.closed = false := by simp [tracks.closed, isOpen]
  unfold OpenDALFileSystem.seek Cursor.seek
  by_cases hrange : streamMax < location.toNat
  · rw [OpenDALReadHandle.seek_range hclosed hrange, if_pos hrange]
    exact ⟨rfl, tracks⟩
  · have hnear := Nat.le_of_not_lt hrange
    obtain ⟨s', htell, hseek⟩ := OpenDALReadHandle.seek_ok hclosed hnear hreader
    rw [hseek, if_neg hrange]
    exact ⟨rfl, tracks.closed, tracks.reading, fun _ => ⟨s', rfl, htell, rfl, hnear⟩⟩

private theorem read_agrees (reliable : R.Reliable) (length : c.length < 2 ^ 63)
    {handle : OpenDALReadHandle R} {cursor : Cursor} (tracks : Tracks handle cursor)
    (isOpen : cursor.isOpen = true) (null : Bool) (size : Int64) :
    Agree (OpenDALFileSystem.read handle null size) (cursor.read c null size) := by
  obtain ⟨s, hreader, htell, hposition, hbound⟩ := tracks.stream isOpen
  have hclosed : handle.closed = false := by simp [tracks.closed, isOpen]
  have hnear : handle.position.toNat ≤ streamMax := hposition ▸ hbound
  unfold Cursor.read
  by_cases loops : Loops handle null size
  · have haccepted : ¬ Rejected null size := by
      rintro (hnegative | ⟨-, hnull⟩)
      · exact Int64.lt_irrefl (Int64.lt_trans hnegative loops.2.1)
      · exact absurd (loops.1.symm.trans hnull) (by decide)
    obtain ⟨filled, hok⟩ := reliable.readFromOpenDAL_ok s size.toNatClampNeg []
    obtain ⟨got, -, -, hend, hfull⟩ := readFromOpenDAL_spec s size.toNatClampNeg []
    obtain ⟨hfilled, hgot⟩ := hfull filled hok
    rw [htell, List.length_nil, Nat.sub_zero] at hgot
    rcases hloop : readFromOpenDAL R s size.toNatClampNeg [] with ⟨answer, s'⟩
    rw [hloop] at hok hend
    obtain rfl : answer = .ok got := hok.trans (congrArg Except.ok hfilled)
    have hfits : cursor.position + got.length ≤ streamMax := by
      rw [hgot, List.length_take, List.length_drop]
      unfold streamMax at hbound ⊢
      omega
    have hadvance : (handle.position + UInt64.ofNat got.length).toNat =
        cursor.position + got.length := by
      rw [UInt64.toNat_add, hposition, UInt64.toNat_ofNat']
      unfold streamMax at hfits
      omega
    have hcount : got.length < 2 ^ 63 := by
      unfold streamMax at hfits
      omega
    rw [if_neg haccepted, ← hgot, read_loops hclosed loops hreader, hloop]
    refine ⟨?_, tracks.closed, tracks.reading, fun _ => ⟨s', rfl, ?_, hadvance, hfits⟩⟩
    · rw [view, count_toInt hcount]
    · rw [hend, htell]
  · rcases read_unlooped hclosed loops with ⟨rfl, hread⟩ | ⟨hzero, e, hread⟩
    · rw [hread, if_neg (by simp [Rejected])]
      exact ⟨rfl, tracks⟩
    · have hrejected : Rejected null size := by
        by_contra haccepted
        simp only [Rejected, not_or, not_and, Bool.not_eq_true] at haccepted
        have hpositive : 0 < size :=
          Int64.lt_of_le_of_ne (Int64.not_lt.mp haccepted.1) (Ne.symm hzero)
        exact loops ⟨haccepted.2 hzero, hpositive, hnear⟩
      rw [hread, if_pos hrejected]
      exact ⟨rfl, tracks⟩

theorem slice_whole_iff {size : Int64} (positive : 0 < size) (offset : Nat) :
    UInt64.ofNat ((c.drop offset).take size.toNatClampNeg).length = size.toUInt64 ↔
      ¬ c.length < offset + size.toNatClampNeg := by
  have hnegative : ¬ size < 0 := fun h => Int64.lt_irrefl (Int64.lt_trans h positive)
  obtain ⟨hsize, hsmall⟩ := size_toNat hnegative
  have hasked := (Int64.toNatClampNeg_pos_iff size).mpr positive
  rw [← UInt64.toNat_inj, UInt64.toNat_ofNat', hsize, List.length_take, List.length_drop]
  unfold streamMax at hsmall
  omega

private theorem readAt_agrees (reliable : R.Reliable) (length : c.length < 2 ^ 63)
    {handle : OpenDALReadHandle R} {cursor : Cursor} (tracks : Tracks handle cursor)
    (isOpen : cursor.isOpen = true) (null : Bool) (size : Int64) (offset : UInt64) :
    Agree (OpenDALFileSystem.readAt handle null size offset)
      (cursor.readAt c null size offset) := by
  obtain ⟨s, hreader, htell, hposition, hbound⟩ := tracks.stream isOpen
  have hclosed : handle.closed = false := by simp [tracks.closed, isOpen]
  unfold OpenDALFileSystem.readAt Cursor.readAt
  by_cases hnegative : size < 0
  · rw [if_pos hnegative, if_pos (show Rejected null size from Or.inl hnegative)]
    exact ⟨rfl, tracks⟩
  obtain ⟨hsize, hsmall⟩ := size_toNat hnegative
  rw [if_neg hnegative]
  by_cases hzero : size = 0
  · subst hzero
    rw [if_neg (by simp [Rejected]), if_neg (by simp)]
    rw [show (0 : Int64).toUInt64 = 0 from rfl]
    rw [OpenDALReadHandle.readAt_zero hclosed]
    exact ⟨rfl, tracks⟩
  have hasked : size.toUInt64 ≠ 0 := fun h => hzero (toUInt64_eq_zero.mp h)
  cases null with
  | true =>
    rw [if_pos (show Rejected true size from Or.inr ⟨hzero, rfl⟩),
      OpenDALReadHandle.readAt_null hclosed hasked]
    exact ⟨rfl, tracks⟩
  | false =>
    have haccepted : ¬ Rejected false size := by simp [Rejected, hnegative]
    have hpositive : 0 < size := Int64.lt_of_le_of_ne (Int64.not_lt.mp hnegative) (Ne.symm hzero)
    rw [if_neg haccepted, OpenDALReadHandle.readAt_eq hclosed hasked hsmall hreader]
    have hstays := readAtFromOpenDAL_tell s size.toUInt64.toNat offset.toNat []
    have hwhole := slice_whole_iff (c := c) hpositive offset.toNat
    rcases hcall : readAtFromOpenDAL R s size.toUInt64.toNat offset.toNat [] with ⟨answer, s'⟩
    rw [hcall] at hstays
    have htracks : Tracks { handle with reader := some s' } cursor :=
      ⟨tracks.closed, tracks.reading, fun _ => ⟨s', rfl, hstays.trans htell, hposition, hbound⟩⟩
    have hfilled (filled : Bytes) (hok : answer = .ok filled) :
        filled = (c.drop offset.toNat).take size.toNatClampNeg := by
      have hspec := readAtFromOpenDAL_ok ((congrArg Prod.fst hcall).trans hok)
      simpa [hsize] using hspec
    by_cases hbeyond : c.length < offset.toNat + size.toNatClampNeg
    · -- Past the end the loop throws, or returns fewer bytes than were asked for.
      rw [if_pos ⟨hpositive, hbeyond⟩]
      cases answer with
      | error e => exact ⟨rfl, htracks⟩
      | ok filled =>
        have hless : UInt64.ofNat filled.length ≠ size.toUInt64 := by
          rw [hfilled filled rfl]
          exact fun heq => hwhole.mp heq hbeyond
        dsimp only
        rw [if_pos hless]
        exact ⟨rfl, htracks⟩
    · have hrange : offset.toNat + size.toUInt64.toNat < 2 ^ 64 := by omega
      obtain ⟨filled, hok⟩ := reliable.readAtFromOpenDAL_ok s hrange []
      rw [hcall] at hok
      obtain rfl : answer = .ok filled := hok
      have hequal : UInt64.ofNat filled.length = size.toUInt64 := by
        rw [hfilled filled rfl]
        exact hwhole.mpr hbeyond
      rw [if_neg (fun h => hbeyond h.2)]
      dsimp only
      rw [if_neg (fun h => h hequal), ← hfilled filled rfl]
      exact ⟨rfl, htracks⟩

theorem handleStep_agrees (reliable : R.Reliable) (length : c.length < 2 ^ 63)
    {handle : OpenDALReadHandle R} {cursor : Cursor} (tracks : Tracks handle cursor) (op : ReadOp) :
    view (handleStep R handle op).1 = (cursorStep c cursor op).1 ∧
      Tracks (handleStep R handle op).2 (cursorStep c cursor op).2 := by
  cases op with
  | close =>
    refine ⟨rfl, ?_, ?_, fun h => absurd h (by simp [cursorStep])⟩
    · change handle.close.closed = true
      unfold OpenDALReadHandle.close
      split <;> simp_all
    · change handle.close.flags.openForReading = true
      unfold OpenDALReadHandle.close
      split <;> exact tracks.reading
  | call call =>
    by_cases isOpen : cursor.isOpen = true
    · simp only [handleStep, cursorStep, isOpen, ↓reduceIte]
      cases call with
      | seek location => exact seek_agrees tracks isOpen location
      | reset => exact seek_agrees tracks isOpen 0
      | read null size => exact read_agrees reliable length tracks isOpen null size
      | readAt null size offset =>
        exact readAt_agrees reliable length tracks isOpen null size offset
      | seekPosition =>
        obtain ⟨s, -, -, hposition, -⟩ := tracks.stream isOpen
        have hclosed : handle.closed = false := by simp [tracks.closed, isOpen]
        simp only [readStep, OpenDALFileSystem.seekPosition, tracks.reading, ↓reduceIte,
          OpenDALReadHandle.tell_open hclosed, Except.map, view, hposition]
        exact ⟨rfl, tracks⟩
    · have hclosed : handle.closed = true := by simp [tracks.closed, isOpen]
      simp only [handleStep, cursorStep, isOpen, Bool.false_eq_true, ↓reduceIte]
      cases call with
      | seek location =>
        simp only [readStep, OpenDALFileSystem.seek, OpenDALReadHandle.seek_closed hclosed]
        exact ⟨rfl, tracks⟩
      | reset =>
        simp only [readStep, OpenDALFileSystem.reset, OpenDALFileSystem.seek,
          OpenDALReadHandle.seek_closed hclosed]
        exact ⟨rfl, tracks⟩
      | read null size =>
        simp only [readStep, OpenDALFileSystem.read, OpenDALReadHandle.read_closed hclosed]
        split <;> exact ⟨rfl, tracks⟩
      | readAt null size offset =>
        simp only [readStep, OpenDALFileSystem.readAt, OpenDALReadHandle.readAt_closed hclosed]
        split <;> exact ⟨rfl, tracks⟩
      | seekPosition =>
        simp only [readStep, OpenDALFileSystem.seekPosition, tracks.reading, ↓reduceIte,
          OpenDALReadHandle.tell_closed hclosed]
        exact ⟨rfl, tracks⟩

/-- Every run of a read handle is the run of the plain cursor over the contents. -/
theorem readHandle_refines_cursor (reliable : R.Reliable) (length : c.length < 2 ^ 63)
    (flags : FileOpenFlags) (reading : flags.openForReading = true) (metadata : FileMetadata)
    (ops : List ReadOp) :
    (run (handleStep R) (OpenDALReadHandle.opened R flags metadata) ops).1.map view =
      (run (cursorStep c) {} ops).1 :=
  (run_simulation (R := Tracks) (fun _ _ op tracks => handleStep_agrees reliable length tracks op)
    (tracks_opened flags reading metadata) ops).1

end Simulation

def chunkedReader (c : Bytes) (k : Nat) : Reader c where
  State := Nat
  start := 0
  tell s := s
  read s n := (.ok ((c.drop s).take (min n (k + 1))), s + ((c.drop s).take (min n (k + 1))).length)
  readAt s n offset := (.ok ((c.drop offset).take (min n (k + 1))), s)
  seek _ offset := (.ok (), offset)
  tell_start := rfl
  read_chunk s n got h :=
    Except.ok.inj h ▸ chunk_take c s (Nat.min_le_left _ _) (fun asked => by omega)
  read_tell s n got h := by rw [← Except.ok.inj h]
  read_throws _ _ _ := nofun
  readAt_chunk _ n offset got h :=
    Except.ok.inj h ▸ chunk_take c offset (Nat.min_le_left _ _) (fun asked => by omega)
  readAt_tell _ _ _ := rfl
  seek_accepts _ _ _ := rfl
  seek_tell _ _ _ := rfl

theorem readHandle_refines_cursor_chunked :
    (run (handleStep (chunkedReader (bytes "abcdef") 1))
      (OpenDALReadHandle.opened _ { openForReading := true } ⟨6, .regular, none, []⟩)
      [.call (.read false 4), .call (.readAt false 3 2), .call (.readAt false 3 4),
        .call .seekPosition, .close, .call .reset]).1.map view =
      [.count 4 (bytes "abcd"), .filled (bytes "cde"), .threw, .position 4, .done, .threw] := by
  have hreliable : (chunkedReader (bytes "abcdef") 1).Reliable :=
    ⟨fun _ _ _ => nofun, fun _ _ _ _ => nofun⟩
  rw [readHandle_refines_cursor hreliable (by decide) _ rfl]
  decide

end DuckdbOpendalfs.Handles.CursorRefinement
