/- DuckdbOpendalfs/Handles/FailedReads
   digest: Which failed reads leave the position of a handle behind the stream of its reader. -/

import DuckdbOpendalfs.Handles.CursorRefinement

set_option autoImplicit false
set_option relaxedAutoImplicit false

namespace DuckdbOpendalfs.Handles.FailedReads

open Text.ByteString
open Execution.Runs
open Operators.LayerOptions
open FileHandle Readers ReadHandle CursorRefinement

variable {c : Bytes} {R : Reader c}

section Loop

inductive Fails (R : Reader c) : R.State → Nat → Prop
  | now {s s' : R.State} {n : Nat} {e : Exception} (asked : 0 < n)
      (thrown : R.read s n = (.error e, s')) : Fails R s n
  | next {s s' : R.State} {n : Nat} {chunk : Bytes} (more : chunk.length < n)
      (delivered : R.read s n = (.ok chunk, s')) (nonempty : chunk ≠ [])
      (later : Fails R s' (n - chunk.length)) : Fails R s n

/-- The reader delivers some bytes of a read and then throws. -/
def FailsMidway (R : Reader c) (s : R.State) (n : Nat) : Prop :=
  ∃ chunk s', R.read s n = (.ok chunk, s') ∧ chunk ≠ [] ∧ chunk.length < n ∧
    Fails R s' (n - chunk.length)

theorem readFromOpenDAL_error_iff (s : R.State) (size : Nat) (delivered : Bytes) :
    (∃ e, (readFromOpenDAL R s size delivered).1 = .error e) ↔
      Fails R s (size - delivered.length) := by
  fun_induction readFromOpenDAL R s size delivered with
  | case1 s delivered hlt e s' hread => exact iff_of_true ⟨e, rfl⟩ (.now (by omega) hread)
  | case2 s delivered hlt s' hread =>
    refine iff_of_false (by simp) fun fails => ?_
    cases fails with
    | now _ thrown => rw [hread] at thrown; cases thrown
    | next _ answered nonempty _ =>
      rw [hread] at answered
      cases answered
      exact nonempty rfl
  | case3 s delivered hlt chunk s' hread hne ih =>
    have hrest : size - (delivered ++ chunk).length = size - delivered.length - chunk.length := by
      rw [List.length_append, Nat.sub_add_eq]
    rw [ih, hrest]
    constructor
    · intro fails
      have hmore : chunk.length < size - delivered.length := by
        cases fails <;> omega
      exact .next hmore hread hne fails
    · intro fails
      cases fails with
      | now _ thrown => rw [hread] at thrown; cases thrown
      | next _ answered _ later =>
        rw [hread] at answered
        cases answered
        exact later
  | case4 s delivered hge =>
    refine iff_of_false (by simp) fun fails => ?_
    cases fails <;> omega

theorem readFromOpenDAL_moved_iff {s s' : R.State} {size : Nat} {e : Exception}
    (loop : readFromOpenDAL R s size [] = (.error e, s')) :
    R.tell s' ≠ R.tell s ↔ FailsMidway R s size := by
  have hfails : Fails R s size :=
    (readFromOpenDAL_error_iff s size []).mp ⟨e, congrArg Prod.fst loop⟩
  cases hfails with
  | @now _ s₁ _ e₁ asked thrown =>
    have htell := R.read_throws s size e₁ (congrArg Prod.fst thrown)
    rw [thrown] at htell
    have hend : s' = s₁ := by
      rw [readFromOpenDAL, if_pos (show ([] : Bytes).length < size from asked), List.length_nil,
        Nat.sub_zero, thrown] at loop
      exact (Prod.mk.inj loop).2.symm
    refine iff_of_false (by rw [hend]; exact fun h => h htell) ?_
    rintro ⟨chunk, s₂, answered, -⟩
    rw [thrown] at answered
    cases answered
  | @next _ s₁ _ chunk more answered nonempty later =>
    have htell := R.read_tell s size chunk (congrArg Prod.fst answered)
    rw [answered] at htell
    have hrest : readFromOpenDAL R s₁ size chunk = (.error e, s') := by
      rw [readFromOpenDAL, if_pos (show ([] : Bytes).length < size from Nat.zero_lt_of_lt more),
        List.length_nil, Nat.sub_zero, answered] at loop
      simpa [nonempty] using loop
    obtain ⟨got, -, -, hend, -⟩ := readFromOpenDAL_spec s₁ size chunk
    rw [hrest] at hend
    have hpositive := List.length_pos_iff.mpr nonempty
    exact iff_of_true (by simp only at hend htell; omega) ⟨chunk, s₁, answered, nonempty, more, later⟩

end Loop

theorem FailsMidway.fails {s : R.State} {n : Nat} (midway : FailsMidway R s n) : Fails R s n := by
  obtain ⟨chunk, s', delivered, nonempty, more, later⟩ := midway
  exact .next more delivered nonempty later

section Steps

/-- The position the handle tells is the position of the stream of its reader. -/
def InSync (handle : OpenDALReadHandle R) : Prop :=
  ∃ s offset, handle.reader = some s ∧ handle.tell = .ok offset ∧ R.tell s = offset.toNat

/-- The call is a sequential read whose reader delivers some bytes and then throws. -/
def MidReadFailure (handle : OpenDALReadHandle R) : ReadCall → Prop
  | .read null size => Loops handle null size ∧
      ∃ s, handle.reader = some s ∧ FailsMidway R s size.toNatClampNeg
  | _ => False

private theorem inSync_iff {handle : OpenDALReadHandle R} : InSync handle ↔
    handle.closed = false ∧ ∃ s, handle.reader = some s ∧ R.tell s = handle.position.toNat := by
  constructor
  · rintro ⟨s, offset, hreader, htell, hstream⟩
    cases hclosed : handle.closed with
    | true =>
      rw [OpenDALReadHandle.tell_closed hclosed] at htell
      cases htell
    | false =>
      rw [OpenDALReadHandle.tell_open hclosed] at htell
      obtain rfl := Except.ok.inj htell
      exact ⟨rfl, s, hreader, hstream⟩
  · rintro ⟨isOpen, s, hreader, hstream⟩
    exact ⟨s, handle.position, hreader, OpenDALReadHandle.tell_open isOpen, hstream⟩

private theorem seek_inSync {handle : OpenDALReadHandle R} (sync : InSync handle)
    (location : UInt64) : InSync (OpenDALFileSystem.seek handle location).2 := by
  obtain ⟨isOpen, s, hreader, -⟩ := inSync_iff.mp sync
  unfold OpenDALFileSystem.seek
  by_cases hrange : streamMax < location.toNat
  · rw [OpenDALReadHandle.seek_range isOpen hrange]
    exact sync
  · obtain ⟨s', htell, hseek⟩ :=
      OpenDALReadHandle.seek_ok isOpen (Nat.le_of_not_lt hrange) hreader
    rw [hseek]
    exact inSync_iff.mpr ⟨isOpen, s', rfl, htell⟩

private theorem readAt_inSync {handle : OpenDALReadHandle R} (sync : InSync handle)
    (null : Bool) (size : Int64) (offset : UInt64) :
    InSync (OpenDALFileSystem.readAt handle null size offset).2 := by
  obtain ⟨isOpen, s, hreader, hstream⟩ := inSync_iff.mp sync
  have hhandle : InSync (handle.readAt null size.toUInt64 offset).2 := by
    unfold OpenDALReadHandle.readAt
    split_ifs
    any_goals exact sync
    rw [hreader]
    have hstays := readAtFromOpenDAL_tell s size.toUInt64.toNat offset.toNat []
    exact inSync_iff.mpr ⟨isOpen, _, rfl, hstays.trans hstream⟩
  unfold OpenDALFileSystem.readAt
  split
  · exact sync
  · split
    · rename_i hcall
      rwa [hcall] at hhandle
    · rename_i hcall
      rw [hcall] at hhandle
      split <;> exact hhandle

private theorem read_inSync_iff {handle : OpenDALReadHandle R} (sync : InSync handle)
    (null : Bool) (size : Int64) :
    InSync (OpenDALFileSystem.read handle null size).2 ↔
      ¬ MidReadFailure handle (.read null size) := by
  obtain ⟨isOpen, s, hreader, hstream⟩ := inSync_iff.mp sync
  by_cases loops : Loops handle null size
  · have hnear := loops.2.2
    have hfailure : MidReadFailure handle (.read null size) ↔
        FailsMidway R s size.toNatClampNeg := by
      simp [MidReadFailure, loops, hreader]
    rw [hfailure, read_loops isOpen loops hreader]
    rcases hloop : readFromOpenDAL R s size.toNatClampNeg [] with ⟨e | filled, s'⟩
    · rw [← readFromOpenDAL_moved_iff hloop, hstream, inSync_iff]
      simp [isOpen]
    · -- The loop returned, so no read of it threw, and what it took off the stream is counted.
      have hfilled : ¬ Fails R s size.toNatClampNeg := by
        intro fails
        obtain ⟨e, herror⟩ := (readFromOpenDAL_error_iff s size.toNatClampNeg []).mpr fails
        rw [hloop] at herror
        cases herror
      obtain ⟨got, -, hshort, hend, hfull⟩ := readFromOpenDAL_spec s size.toNatClampNeg []
      rw [hloop] at hend hfull
      obtain ⟨rfl, -⟩ := hfull filled rfl
      refine iff_of_true (inSync_iff.mpr ⟨isOpen, s', rfl, ?_⟩) fun midway => hfilled midway.fails
      have hbound := Int64.toNatClampNeg_lt size
      rw [List.length_nil, Nat.sub_zero] at hshort
      dsimp only
      rw [hend, hstream, UInt64.toNat_add, UInt64.toNat_ofNat']
      unfold streamMax at hnear
      omega
  · refine iff_of_true ?_ fun failure => loops failure.1
    rcases read_unlooped isOpen loops with ⟨-, hread⟩ | ⟨-, e, hread⟩
    · rwa [hread]
    · rwa [hread]

theorem readStep_inSync_iff {handle : OpenDALReadHandle R} (sync : InSync handle)
    (call : ReadCall) : InSync (readStep R handle call).2 ↔ ¬ MidReadFailure handle call := by
  cases call with
  | seek location => exact iff_of_true (seek_inSync sync location) id
  | reset => exact iff_of_true (seek_inSync sync 0) id
  | read null size => exact read_inSync_iff sync null size
  | readAt null size offset => exact iff_of_true (readAt_inSync sync null size offset) id
  | seekPosition =>
    refine iff_of_true ?_ id
    change InSync (OpenDALFileSystem.seekPosition handle).2
    unfold OpenDALFileSystem.seekPosition
    split <;> exact sync

theorem read_returns {handle : OpenDALReadHandle R} (sync : InSync handle) {null : Bool}
    {size read_size : Int64} {buffer : Bytes}
    (answer : (OpenDALFileSystem.read handle null size).1 = .ok (.count read_size buffer)) :
    ∃ offset, handle.tell = .ok offset ∧
      buffer = (c.drop offset.toNat).take size.toNatClampNeg := by
  obtain ⟨isOpen, s, hreader, hstream⟩ := inSync_iff.mp sync
  refine ⟨handle.position, OpenDALReadHandle.tell_open isOpen, ?_⟩
  by_cases loops : Loops handle null size
  · rw [read_loops isOpen loops hreader] at answer
    obtain ⟨got, -, -, -, hfull⟩ := readFromOpenDAL_spec s size.toNatClampNeg []
    rcases hloop : readFromOpenDAL R s size.toNatClampNeg [] with ⟨e | filled, s'⟩
    · rw [hloop] at answer
      cases answer
    · rw [hloop] at answer hfull
      obtain ⟨rfl, hgot⟩ := hfull filled rfl
      simp only [Except.ok.injEq, ReadReply.count.injEq] at answer
      rw [← answer.2, hgot, hstream, List.length_nil, Nat.sub_zero]
  · rcases read_unlooped isOpen loops with ⟨rfl, hread⟩ | ⟨-, e, hread⟩
    · rw [hread] at answer
      simp only [Except.ok.injEq, ReadReply.count.injEq] at answer
      rw [← answer.2]
      rfl
    · rw [hread] at answer
      cases answer

end Steps

section Runs

theorem inSync_opened (flags : FileOpenFlags) (metadata : FileMetadata) :
    InSync (OpenDALReadHandle.opened R flags metadata) :=
  inSync_iff.mpr ⟨rfl, R.start, rfl, R.tell_start⟩

/-- A run stays in sync exactly as long as no read of it fails midway; in sync, every sequential
read that succeeds returns the bytes at the position, whatever failed before it. -/
theorem reads_inSync_iff (flags : FileOpenFlags) (metadata : FileMetadata)
    (calls : List ReadCall) :
    ((∀ front, front <+: calls →
        InSync (after (readStep R) (OpenDALReadHandle.opened R flags metadata) front)) ↔
      ∀ front call, front ++ [call] <+: calls →
        ¬ MidReadFailure (after (readStep R) (OpenDALReadHandle.opened R flags metadata) front)
          call) ∧
      ((∀ front call, front ++ [call] <+: calls →
          ¬ MidReadFailure (after (readStep R) (OpenDALReadHandle.opened R flags metadata) front)
            call) →
        ∀ null size read_size buffer,
          (OpenDALFileSystem.read
              (after (readStep R) (OpenDALReadHandle.opened R flags metadata) calls) null size).1 =
            .ok (.count read_size buffer) →
          ∃ offset,
            (after (readStep R) (OpenDALReadHandle.opened R flags metadata) calls).tell =
              .ok offset ∧
            buffer = (c.drop offset.toNat).take size.toNatClampNeg) := by
  have hexact (handle : OpenDALReadHandle R) (call : ReadCall) (sync : InSync handle) :
      InSync (readStep R handle call).2 ↔ ¬ MidReadFailure handle call :=
    readStep_inSync_iff sync call
  have hreached := forall_reached_iff hexact (inSync_opened flags metadata) calls
  refine ⟨hreached, fun steps null size read_size buffer answer => ?_⟩
  exact read_returns (hreached.mpr steps calls (List.prefix_refl calls)) answer

end Runs

def scriptedReader (c : Bytes) (script : List (Option Nat)) : Reader c where
  State := Nat × List (Option Nat)
  start := (0, script)
  tell s := s.1
  read
    | (pos, none :: rest), _ => (.error (.opendal (bytes "connection reset")), (pos, rest))
    | (pos, some k :: rest), n =>
      (.ok ((c.drop pos).take (min n (k + 1))),
        (pos + ((c.drop pos).take (min n (k + 1))).length, rest))
    | (pos, []), n => (.ok ((c.drop pos).take n), (pos + ((c.drop pos).take n).length, []))
  readAt s n offset := (.ok ((c.drop offset).take n), s)
  seek s offset := (.ok (), (offset, s.2))
  tell_start := rfl
  read_chunk
    | (pos, none :: rest), n, got => nofun
    | (pos, some k :: rest), n, got => fun h =>
      Except.ok.inj h ▸ chunk_take c pos (Nat.min_le_left _ _) (fun asked => by omega)
    | (pos, []), n, got => fun h => Except.ok.inj h ▸ chunk_take c pos (Nat.le_refl n) id
  read_tell
    | (pos, none :: rest), n, got => nofun
    | (pos, some k :: rest), n, got => fun h => by rw [← Except.ok.inj h]
    | (pos, []), n, got => fun h => by rw [← Except.ok.inj h]
  read_throws
    | (pos, none :: rest), n, e => fun _ => rfl
    | (pos, some k :: rest), n, e => nofun
    | (pos, []), n, e => nofun
  readAt_chunk _ n offset got h := Except.ok.inj h ▸ chunk_take c offset (Nat.le_refl n) id
  readAt_tell _ _ _ := rfl
  seek_accepts _ _ _ := rfl
  seek_tell _ _ _ := rfl

theorem reads_inSync_retried :
    let R := scriptedReader (bytes "abcdef") [none, some 1]
    let handle := after (readStep R)
      (OpenDALReadHandle.opened R { openForReading := true } ⟨6, .regular, none, []⟩)
      [.read false 4]
    ∃ offset, handle.tell = .ok offset ∧
      bytes "abcd" = ((bytes "abcdef").drop offset.toNat).take 4 := by
  intro R handle
  refine (reads_inSync_iff { openForReading := true } ⟨6, .regular, none, []⟩ [.read false 4]).2
    ?_ false 4 4 (bytes "abcd") (by decide +kernel)
  intro front call hfront
  have hnil : front = [] := by
    have hlength := hfront.length_le
    simp only [List.length_append, List.length_singleton] at hlength
    exact List.length_eq_zero_iff.mp (by omega)
  subst hnil
  obtain rfl : call = .read false 4 := by simpa using hfront
  rintro ⟨-, s, hreader, chunk, s', delivered, -⟩
  obtain rfl : R.start = s := Option.some.inj hreader
  cases delivered

/-- Two bytes are delivered before the reader throws: the position stays at the start, and the next
read returns the bytes behind them. -/
theorem mid_read_failure_shifts :
    let R := scriptedReader (bytes "abcdef") [some 1, none]
    let handle := after (readStep R)
      (OpenDALReadHandle.opened R { openForReading := true } ⟨6, .regular, none, []⟩)
      [.read false 4]
    ¬ InSync handle ∧ handle.tell = .ok 0 ∧ handle.reader.map R.tell = some 2 ∧
      (OpenDALFileSystem.read handle false 2).1 = .ok (.count 2 (bytes "cd")) := by
  intro R handle
  have htell : handle.tell = .ok 0 := by decide +kernel
  have hstream : handle.reader.map R.tell = some 2 := by decide +kernel
  refine ⟨?_, htell, hstream, by decide +kernel⟩
  rintro ⟨s, offset, hreader, hposition, hsync⟩
  rw [htell] at hposition
  rw [hreader] at hstream
  have hmoved : R.tell s = 2 := Option.some.inj hstream
  rw [hsync, ← Except.ok.inj hposition] at hmoved
  exact absurd hmoved (by decide)

end DuckdbOpendalfs.Handles.FailedReads
