/- DuckdbOpendalfs/Handles/Readers
   digest: Stream readers over fixed contents, and the two loops that fill a buffer from one. -/

import DuckdbOpendalfs.Handles.FileHandle

set_option autoImplicit false
set_option relaxedAutoImplicit false

namespace DuckdbOpendalfs.Handles.Readers

open Text.ByteString
open Operators.LayerOptions
open FileHandle

structure Chunk (c got : Bytes) (pos n : Nat) : Prop where
  here : got <+: c.drop pos
  short : got.length ≤ n
  progress : 0 < n → pos < c.length → got ≠ []

/-- A reader over the contents `c`. It may answer in chunks of any size, and it may throw; its own
stream stands at `tell`. -/
structure Reader (c : Bytes) where
  State : Type
  start : State
  tell : State → Nat
  read : State → Nat → Except Exception Bytes × State
  readAt : State → Nat → Nat → Except Exception Bytes × State
  seek : State → Nat → Except Exception Unit × State
  tell_start : tell start = 0
  read_chunk : ∀ s n got, (read s n).1 = .ok got → Chunk c got (tell s) n
  read_tell : ∀ s n got, (read s n).1 = .ok got → tell (read s n).2 = tell s + got.length
  read_throws : ∀ s n e, (read s n).1 = .error e → tell (read s n).2 = tell s
  readAt_chunk : ∀ s n offset got, (readAt s n offset).1 = .ok got → Chunk c got offset n
  readAt_tell : ∀ s n offset, tell (readAt s n offset).2 = tell s
  seek_accepts : ∀ s offset, offset ≤ streamMax → (seek s offset).1 = .ok ()
  seek_tell : ∀ s offset, (seek s offset).1 = .ok () → tell (seek s offset).2 = offset

structure Reader.Reliable {c : Bytes} (R : Reader c) : Prop where
  read : ∀ s n e, (R.read s n).1 ≠ .error e
  readAt : ∀ s n offset e, (R.readAt s n offset).1 ≠ .error e

variable {c : Bytes} (R : Reader c)

/-- `total_read` is the number of bytes delivered so far; an empty answer ends the loop. -/
def readFromOpenDAL (reader_p : R.State) (size_p : Nat) (delivered : Bytes) :
    Except Exception Bytes × R.State :=
  if delivered.length < size_p then
    match R.read reader_p (size_p - delivered.length) with
    | (.error e, reader) => (.error e, reader)
    | (.ok chunk, reader) =>
      if chunk = [] then (.ok delivered, reader)
      else readFromOpenDAL reader size_p (delivered ++ chunk)
  else (.ok delivered, reader_p)
termination_by size_p - delivered.length
decreasing_by
  rename_i hempty
  have hpos := List.length_pos_iff.mpr hempty
  simp only [List.length_append]
  omega

def readRangeExceeded : Exception := .io (bytes "Read offset exceeds OpenDAL reader range")

/-- The positional loop, with its check that the next offset does not wrap around. -/
def readAtFromOpenDAL (reader_p : R.State) (size_p offset_p : Nat) (delivered : Bytes) :
    Except Exception Bytes × R.State :=
  if delivered.length < size_p then
    if 2 ^ 64 - 1 - delivered.length < offset_p then (.error readRangeExceeded, reader_p)
    else
      match R.readAt reader_p (size_p - delivered.length) (offset_p + delivered.length) with
      | (.error e, reader) => (.error e, reader)
      | (.ok chunk, reader) =>
        if chunk = [] then (.ok delivered, reader)
        else readAtFromOpenDAL reader size_p offset_p (delivered ++ chunk)
  else (.ok delivered, reader_p)
termination_by size_p - delivered.length
decreasing_by
  rename_i hempty
  have hpos := List.length_pos_iff.mpr hempty
  simp only [List.length_append]
  omega

section Chunks

theorem drop_chunk {c got : Bytes} {pos : Nat} (here : got <+: c.drop pos) :
    c.drop pos = got ++ c.drop (pos + got.length) := by
  obtain ⟨rest, hrest⟩ := here
  rw [← hrest, ← List.drop_drop, ← hrest, List.drop_left]

theorem take_chunk {c got : Bytes} {pos n : Nat} (here : got <+: c.drop pos)
    (short : got.length ≤ n) :
    (c.drop pos).take n = got ++ (c.drop (pos + got.length)).take (n - got.length) := by
  rw [drop_chunk here, List.take_append, List.take_of_length_le short]

theorem Chunk.end_of_file {c : Bytes} {pos n : Nat} (empty : Chunk c [] pos n) (asked : 0 < n) :
    c.drop pos = [] := by
  by_contra hne
  have hpos : pos < c.length := by
    by_contra hle
    exact hne (List.drop_eq_nil_of_le (Nat.le_of_not_lt hle))
  exact empty.progress asked hpos rfl

theorem chunk_take (c : Bytes) (pos : Nat) {n k : Nat} (short : k ≤ n) (some_byte : 0 < n → 0 < k) :
    Chunk c ((c.drop pos).take k) pos n where
  here := List.take_prefix _ _
  short := (List.length_take_le k _).trans short
  progress asked inside := by
    have hlength : 0 < ((c.drop pos).take k).length := by
      rw [List.length_take, List.length_drop]
      have := some_byte asked
      omega
    exact List.length_pos_iff.mp hlength

end Chunks

section Sequential

variable {R}

/-- What the loop takes off the stream is a run of the contents. When it returns, that run is all
that was asked for, as far as the contents go. -/
theorem readFromOpenDAL_spec (s : R.State) (size : Nat) (delivered : Bytes) :
    ∃ got, got <+: c.drop (R.tell s) ∧ got.length ≤ size - delivered.length ∧
      R.tell (readFromOpenDAL R s size delivered).2 = R.tell s + got.length ∧
      ∀ filled, (readFromOpenDAL R s size delivered).1 = .ok filled →
        filled = delivered ++ got ∧ got = (c.drop (R.tell s)).take (size - delivered.length) := by
  fun_induction readFromOpenDAL R s size delivered with
  | case1 s delivered hlt e s' hread =>
    have htell := R.read_throws s _ e (congrArg Prod.fst hread)
    rw [hread] at htell
    exact ⟨[], by simp, by simp, by simpa using htell, by simp⟩
  | case2 s delivered hlt s' hread =>
    have hchunk := R.read_chunk s _ _ (congrArg Prod.fst hread)
    have htell := R.read_tell s _ _ (congrArg Prod.fst hread)
    rw [hread] at htell
    refine ⟨[], by simp, by simp, htell, fun filled hfilled => ?_⟩
    have hend := hchunk.end_of_file (by omega)
    simp only [Except.ok.injEq] at hfilled
    simp [hend, hfilled]
  | case3 s delivered hlt chunk s' hread hne ih =>
    have hchunk := R.read_chunk s _ _ (congrArg Prod.fst hread)
    have htell := R.read_tell s _ _ (congrArg Prod.fst hread)
    rw [hread] at htell
    obtain ⟨got, hhere, hshort, hend, hfull⟩ := ih
    have hshort' := hchunk.short
    simp only [List.length_append] at hshort
    rw [htell] at hhere hend hfull
    refine ⟨chunk ++ got, ?_, ?_, ?_, fun filled hfilled => ?_⟩
    · rw [drop_chunk hchunk.here]
      exact List.prefix_append_right_inj chunk |>.mpr hhere
    · simp only [List.length_append]
      omega
    · rw [hend, List.length_append]
      omega
    · obtain ⟨hfilled', hgot⟩ := hfull filled hfilled
      refine ⟨by rw [hfilled', List.append_assoc], ?_⟩
      rw [take_chunk hchunk.here hchunk.short, hgot, List.length_append, Nat.sub_add_eq]
  | case4 s delivered hge =>
    refine ⟨[], by simp, by simp, by simp, fun filled hfilled => ?_⟩
    obtain rfl := Except.ok.inj hfilled
    have hzero : size - delivered.length = 0 := by omega
    simp [hzero]

theorem Reader.Reliable.readFromOpenDAL_ok (reliable : R.Reliable) (s : R.State) (size : Nat)
    (delivered : Bytes) : ∃ filled, (readFromOpenDAL R s size delivered).1 = .ok filled := by
  fun_induction readFromOpenDAL R s size delivered with
  | case1 s delivered hlt e s' hread => exact absurd (congrArg Prod.fst hread) (reliable.read s _ e)
  | case2 s delivered hlt s' hread => exact ⟨delivered, rfl⟩
  | case3 s delivered hlt chunk s' hread hne ih => exact ih
  | case4 s delivered hge => exact ⟨delivered, rfl⟩

end Sequential

section Positional

variable {R}

theorem readAtFromOpenDAL_tell (s : R.State) (size offset : Nat) (delivered : Bytes) :
    R.tell (readAtFromOpenDAL R s size offset delivered).2 = R.tell s := by
  fun_induction readAtFromOpenDAL R s size offset delivered with
  | case1 s delivered hlt hrange => rfl
  | case2 s delivered hlt hrange e s' hread =>
    have htell := R.readAt_tell s (size - delivered.length) (offset + delivered.length)
    rwa [hread] at htell
  | case3 s delivered hlt hrange s' hread =>
    have htell := R.readAt_tell s (size - delivered.length) (offset + delivered.length)
    rwa [hread] at htell
  | case4 s delivered hlt hrange chunk s' hread hne ih =>
    have htell := R.readAt_tell s (size - delivered.length) (offset + delivered.length)
    rw [hread] at htell
    rw [ih, htell]
  | case5 s delivered hge => rfl

theorem readAtFromOpenDAL_ok {s : R.State} {size offset : Nat} {delivered filled : Bytes}
    (h : (readAtFromOpenDAL R s size offset delivered).1 = .ok filled) :
    filled = delivered ++
      (c.drop (offset + delivered.length)).take (size - delivered.length) := by
  fun_induction readAtFromOpenDAL R s size offset delivered with
  | case1 s delivered hlt hrange => cases h
  | case2 s delivered hlt hrange e s' hread => cases h
  | case3 s delivered hlt hrange s' hread =>
    have hchunk := R.readAt_chunk s _ _ _ (congrArg Prod.fst hread)
    obtain rfl := Except.ok.inj h
    rw [hchunk.end_of_file (by omega), List.take_nil, List.append_nil]
  | case4 s delivered hlt hrange chunk s' hread hne ih =>
    have hchunk := R.readAt_chunk s _ _ _ (congrArg Prod.fst hread)
    rw [ih h, take_chunk hchunk.here hchunk.short, List.append_assoc, List.length_append,
      Nat.add_assoc, Nat.sub_add_eq]
  | case5 s delivered hge =>
    have hzero : size - delivered.length = 0 := by omega
    obtain rfl := Except.ok.inj h
    simp [hzero]

theorem Reader.Reliable.readAtFromOpenDAL_ok (reliable : R.Reliable) (s : R.State)
    {size offset : Nat} (inside : offset + size < 2 ^ 64) (delivered : Bytes) :
    ∃ filled, (readAtFromOpenDAL R s size offset delivered).1 = .ok filled := by
  fun_induction readAtFromOpenDAL R s size offset delivered with
  | case1 s delivered hlt hrange => omega
  | case2 s delivered hlt hrange e s' hread =>
    exact absurd (congrArg Prod.fst hread) (reliable.readAt s _ _ e)
  | case3 s delivered hlt hrange s' hread => exact ⟨delivered, rfl⟩
  | case4 s delivered hlt hrange chunk s' hread hne ih => exact ih
  | case5 s delivered hge => exact ⟨delivered, rfl⟩

end Positional

end DuckdbOpendalfs.Handles.Readers
