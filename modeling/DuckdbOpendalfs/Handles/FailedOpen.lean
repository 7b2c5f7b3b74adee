/- DuckdbOpendalfs/Handles/FailedOpen
   digest: What opening a file does to the store, and when an open that fails has emptied an object. -/

import DuckdbOpendalfs.Handles.OpenFile
import DuckdbOpendalfs.Operators.Objects

set_option autoImplicit false
set_option relaxedAutoImplicit false

namespace DuckdbOpendalfs.Handles.FailedOpen

open Text.ByteString
open Collections.Stores
open Execution.Programs
open Address.Uri
open Operators.LayerOptions
open Operators.Configuration (Operator Backend FileOpener)
open Operators.Objects
open FileHandle WriteHandle OpenFile

variable {κ : Type} [DecidableEq κ]

/-- A backend whose calls may fail, and change nothing when they do. -/
structure OpenBackend (locate : Bytes → StringMapValue → Bytes → κ)
    (backend : Backend (Store κ Bytes)) : Prop where
  construct : ∀ {op result w w'}, backend (.construct op) w = (result, w') → w' = w
  objectExists_keeps : ∀ {op path result w w'},
    backend (.objectExists op path) w = (result, w') → w' = w
  objectExists : ∀ {op path present w w'}, backend (.objectExists op path) w = (.ok present, w') →
    present = (w (object locate op path)).isSome
  stat : ∀ {op path result w w'}, backend (.stat op path) w = (result, w') → w' = w
  write : ∀ {op path data w w'}, backend (.write op path data) w = (.ok (), w') →
    w' = put w (object locate op path) data
  write_error : ∀ {op path data e w w'}, backend (.write op path data) w = (.error e, w') → w' = w
  getReader : ∀ {op path result w w'}, backend (.getReader op path) w = (result, w') → w' = w
  getWriter : ∀ {op path result w w'}, backend (.getWriter op path) w = (result, w') → w' = w

def NoHandle : Except Exception (Option OpenedFile) → Prop
  | .ok (some _) => False
  | .ok none | .error _ => True

section Outcomes

variable {locate : Bytes → StringMapValue → Bytes → κ} {backend : Backend (Store κ Bytes)}
  {flags : FileOpenFlags} {op : Operator} {path uri : Bytes} {w : Store κ Bytes}

def WriterFails (locate : Bytes → StringMapValue → Bytes → κ) (backend : Backend (Store κ Bytes))
    (op : Operator) (path : Bytes) (w : Store κ Bytes) : Prop :=
  (backend (.write op path []) w).1 = .ok () ∧
    ∃ e, (backend (.getWriter op path) (put w (object locate op path) [])).1 = .error e

structure EmptiesForNothing (locate : Bytes → StringMapValue → Bytes → κ)
    (backend : Backend (Store κ Bytes)) (flags : FileOpenFlags) (op : Operator) (path : Bytes)
    (w : Store κ Bytes) : Prop where
  writing : flags.openForReading = false
  initializes : flags.overwriteExistingFile = true ∨
    (flags.createFileIfNotExists = true ∧ w (object locate op path) = none)
  answered : ∃ present, (backend (.objectExists op path) w).1 = .ok present
  fails : WriterFails locate backend op path w
  changes : w (object locate op path) ≠ some []

theorem openForReading_keeps (laws : OpenBackend locate backend) :
    ((openForReading op path flags).run backend w).2 = w := by
  let Q (outcome : Except Exception (Option OpenedFile) × Store κ Bytes) : Prop := outcome.2 = w
  change Q _
  refine Program.run_bind_ensures backend (fun e w₁ hstat => ?_) fun metadata w₁ hstat => ?_
  · exact laws.stat ((Program.run_perform _ _ _).symm.trans hstat)
  obtain rfl := laws.stat ((Program.run_perform _ _ _).symm.trans hstat)
  refine Program.run_bind_ensures backend (fun e w₂ hconvert => ?_) fun metadata_p w₂ hconvert => ?_
  · rw [Program.run_lift] at hconvert
    exact (Prod.mk.inj hconvert).2.symm
  rw [Program.run_lift] at hconvert
  obtain rfl := (Prod.mk.inj hconvert).2
  refine Program.run_bind_ensures backend (fun e w₂ hreader => ?_) fun _ w₂ hreader => ?_
  · exact laws.getReader ((Program.run_perform _ _ _).symm.trans hreader)
  · exact laws.getReader ((Program.run_perform _ _ _).symm.trans hreader)

theorem openForWriting_keeps (laws : OpenBackend locate backend) :
    ((openForWriting op path flags false).run backend w).2 = w := by
  unfold openForWriting
  rcases hwriter : backend (.getWriter op path) w with ⟨e | done, w₁⟩ <;>
    simpa [hwriter] using laws.getWriter hwriter

theorem openForWriting_unchanged_iff (laws : OpenBackend locate backend) (empty : Bool) :
    (NoHandle ((openForWriting op path flags empty).run backend w).1 →
        ((openForWriting op path flags empty).run backend w).2 = w) ↔
      ¬ (empty = true ∧ WriterFails locate backend op path w ∧
        w (object locate op path) ≠ some []) := by
  cases empty with
  | false => exact iff_of_true (fun _ => openForWriting_keeps laws) (by simp)
  | true =>
    unfold openForWriting
    rcases hwrite : backend (.write op path []) w with ⟨e | done, w₁⟩
    · have hthrew : ¬ WriterFails locate backend op path w := by
        rintro ⟨hok, -⟩
        rw [hwrite] at hok
        cases hok
      simpa [hwrite, hthrew] using fun _ => laws.write_error hwrite
    · obtain rfl := laws.write hwrite
      have hsame : put w (object locate op path) [] = w ↔ w (object locate op path) = some [] :=
        Function.update_eq_self_iff.trans eq_comm
      rcases hwriter : backend (.getWriter op path) (put w (object locate op path) [])
        with ⟨e | done, w₂⟩
      · have hfails : WriterFails locate backend op path w := by
          refine ⟨congrArg Prod.fst hwrite, e, congrArg Prod.fst hwriter⟩
        obtain rfl := laws.getWriter hwriter
        simp [hwrite, hwriter, hfails, hsame, NoHandle]
      · have hopens : ¬ WriterFails locate backend op path w := by
          rintro ⟨-, e, he⟩
          rw [hwriter] at he
          cases he
        simp [hwrite, hwriter, hopens, NoHandle]

private theorem initialize_iff (flags : FileOpenFlags) (present : Option Bytes)
    (found : (!present.isSome && !(OpenDALOpenOptions.ofFlags flags).create) = false) :
    (!present.isSome || (OpenDALOpenOptions.ofFlags flags).truncate) = true ↔
      (flags.overwriteExistingFile = true ∨
        (flags.createFileIfNotExists = true ∧ present = none)) := by
  cases present with
  | none =>
    have hcreate : (OpenDALOpenOptions.ofFlags flags).create = true := by simpa using found
    simpa [OpenDALOpenOptions.ofFlags, or_comm] using hcreate
  | some contents => simp [OpenDALOpenOptions.ofFlags]

theorem openObject_unchanged_iff (laws : OpenBackend locate backend) :
    (NoHandle ((openObject op path uri flags (OpenDALOpenOptions.ofFlags flags)).run backend w).1 →
        ((openObject op path uri flags (OpenDALOpenOptions.ofFlags flags)).run backend w).2 = w) ↔
      ¬ EmptiesForNothing locate backend flags op path w := by
  unfold openObject
  rw [Program.run_bind, Program.run_perform]
  rcases hexists : backend (.objectExists op path) w with ⟨e | present, w₁⟩
  · refine iff_of_true (fun _ => laws.objectExists_keeps hexists) fun empties => ?_
    obtain ⟨present, hpresent⟩ := empties.answered
    rw [hexists] at hpresent
    cases hpresent
  · have hpresent := laws.objectExists hexists
    obtain rfl := laws.objectExists_keeps hexists
    subst hpresent
    dsimp only
    split
    · rename_i hmissing
      refine iff_of_true (fun _ => ?_) fun empties => ?_
      · split <;> rfl
      · have hcreate := empties.initializes
        simp only [OpenDALOpenOptions.ofFlags, Bool.and_eq_true, Bool.not_eq_true',
          Bool.or_eq_false_iff] at hmissing
        rcases hcreate with hoverwrite | ⟨hcreates, -⟩
        · rw [hmissing.2.2] at hoverwrite
          cases hoverwrite
        · rw [hmissing.2.1] at hcreates
          cases hcreates
    · rename_i hfound
      have hinitialize := initialize_iff flags (w₁ (object locate op path)) (by simpa using hfound)
      by_cases hread : flags.openForReading = true
      · have hoption : (OpenDALOpenOptions.ofFlags flags).read = true := hread
        rw [if_pos hoption]
        refine iff_of_true (fun _ => openForReading_keeps laws) fun empties => ?_
        exact absurd hread (by simp [empties.writing])
      · have hoption : ¬ (OpenDALOpenOptions.ofFlags flags).read = true := hread
        rw [if_neg hoption, openForWriting_unchanged_iff laws, hinitialize, not_iff_not]
        constructor
        · exact fun h => ⟨Bool.eq_false_of_not_eq_true hread, h.1,
            ⟨_, congrArg Prod.fst hexists⟩, h.2.1, h.2.2⟩
        · exact fun empties => ⟨empties.initializes, empties.fails, empties.changes⟩

/-- An open that returns no handle leaves the store as it was exactly when it has not emptied or
created the object before the writer could not be opened. -/
theorem openFile_unchanged_iff [StringUtil] (laws : OpenBackend locate backend)
    (fs : Operators.Configuration.OpenDALFileSystem) (uri : Bytes) (flags : FileOpenFlags)
    (opener : Option FileOpener) (w : Store κ Bytes) :
    (NoHandle ((openFile fs uri flags opener).run backend w).1 →
        ((openFile fs uri flags opener).run backend w).2 = w) ↔
      ¬ ∃ op p, Accepted fs uri flags opener op p ∧ (backend (.construct op) w).1 = .ok () ∧
        EmptiesForNothing locate backend flags op p.path w := by
  by_cases haccepted : ∃ op p, Accepted fs uri flags opener op p
  swap
  · have hrejected : ∀ op p, ¬ Accepted fs uri flags opener op p := by simpa using haccepted
    obtain ⟨e, he⟩ := run_openFile_rejected hrejected fun op => laws.construct rfl
    refine iff_of_true (fun _ => congrArg Prod.snd he) ?_
    rintro ⟨op, p, h, -⟩
    exact hrejected op p h
  obtain ⟨op, p, accepted⟩ := haccepted
  rw [run_openFile accepted]
  rcases hconstruct : backend (.construct op) w with ⟨e | done, w₁⟩
  · refine iff_of_true (fun _ => laws.construct hconstruct) ?_
    rintro ⟨op', p', accepted', hok, -⟩
    obtain ⟨rfl, rfl⟩ := accepted.unique accepted'
    rw [hconstruct] at hok
    cases hok
  · obtain rfl := laws.construct hconstruct
    rw [openObject_unchanged_iff laws, not_iff_not]
    constructor
    · exact fun empties => ⟨op, p, accepted, congrArg Prod.fst hconstruct, empties⟩
    · rintro ⟨op', p', accepted', -, empties⟩
      obtain ⟨rfl, rfl⟩ := accepted.unique accepted'
      exact empties

end Outcomes

section Stores

variable (locate : Bytes → StringMapValue → Bytes → κ)

theorem storeBackend_open : OpenBackend locate (storeBackend locate) where
  construct h := (Prod.mk.inj h).2.symm
  objectExists_keeps h := (Prod.mk.inj h).2.symm
  objectExists h := (Except.ok.inj (Prod.mk.inj h).1).symm
  stat {op path result w w'} h := by
    unfold storeBackend at h
    dsimp only at h
    split at h <;> exact (Prod.mk.inj h).2.symm
  write h := (Prod.mk.inj h).2.symm
  write_error h := by cases (Prod.mk.inj h).1
  getReader h := (Prod.mk.inj h).2.symm
  getWriter h := (Prod.mk.inj h).2.symm

def writerlessBackend : Backend (Store κ Bytes)
  | .getWriter _ _, w => (.error (.opendal (bytes "Unexpected")), w)
  | c, w => storeBackend locate c w

theorem writerlessBackend_open : OpenBackend locate (writerlessBackend locate) where
  construct h := (storeBackend_open locate).construct h
  objectExists_keeps h := (storeBackend_open locate).objectExists_keeps h
  objectExists h := (storeBackend_open locate).objectExists h
  stat h := (storeBackend_open locate).stat h
  write h := (storeBackend_open locate).write h
  write_error h := (storeBackend_open locate).write_error h
  getReader h := (storeBackend_open locate).getReader h
  getWriter h := (Prod.mk.inj h).2.symm

end Stores

theorem openFile_unchanged_missing :
    letI : StringUtil := percentDecoding
    let w : Store Bytes Bytes := put (fun _ => none) (bytes "other") (bytes "data")
    let outcome := (openFile {} (bytes "gs://b/f")
      { openForReading := true, returnNullIfNotExists := true } none).run
      (writerlessBackend fun _ _ path => path) w
    outcome.1 = .ok none ∧ outcome.2 = w := by
  let _ : StringUtil := percentDecoding
  intro w outcome
  have hnull : outcome.1 = .ok none := by decide +kernel
  refine ⟨hnull, ?_⟩
  refine (openFile_unchanged_iff (writerlessBackend_open fun _ _ path => path) {} _ _ _ w).mpr ?_ ?_
  · rintro ⟨op, p, -, -, empties⟩
    cases empties.writing
  · change NoHandle outcome.1
    rw [hnull]
    trivial

/-- An open that overwrites empties the object, and then throws. -/
theorem openFile_empties :
    letI : StringUtil := percentDecoding
    let w : Store Bytes Bytes := put (fun _ => none) (bytes "f") (bytes "data")
    let outcome := (openFile {} (bytes "gs://b/f")
      { openForWriting := true, overwriteExistingFile := true } none).run
      (writerlessBackend fun _ _ path => path) w
    outcome.1 = .error (.opendal (bytes "Unexpected")) ∧ w (bytes "f") = some (bytes "data") ∧
      outcome.2 (bytes "f") = some [] := by
  decide +kernel

end DuckdbOpendalfs.Handles.FailedOpen
