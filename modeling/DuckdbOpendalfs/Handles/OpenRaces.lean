/- DuckdbOpendalfs/Handles/OpenRaces
   digest: Opening a file while other clients create, overwrite and remove the same object. -/

import DuckdbOpendalfs.Execution.Interleavings
import DuckdbOpendalfs.Handles.OpenFile
import DuckdbOpendalfs.Operators.Objects

set_option autoImplicit false
set_option relaxedAutoImplicit false

namespace DuckdbOpendalfs.Handles.OpenRaces

open Text.ByteString
open Collections.Stores
open Execution.Programs Execution.Interleavings
open Address.Uri
open Operators.LayerOptions
open Operators.Configuration (Operator Metadata OpenDALCall Backend FileOpener
  operatorPlan_default)
open Operators.Objects
open FileHandle WriteHandle OpenFile

variable {κ : Type} [DecidableEq κ]

/-- A backend whose calls are single steps on the store and fail only on missing objects. A reader
of a missing object may be opened or refused. -/
structure AtomicBackend (locate : Bytes → StringMapValue → Bytes → κ)
    (missing : Except Exception Unit) (backend : Backend (Store κ Bytes)) : Prop where
  construct : ∀ op w, backend (.construct op) w = (.ok (), w)
  objectExists : ∀ op path w,
    backend (.objectExists op path) w = (.ok (w (object locate op path)).isSome, w)
  stat_missing : ∀ op path w, w (object locate op path) = none →
    backend (.stat op path) w = (.error notFound, w)
  stat_present : ∀ op path w, w (object locate op path) ≠ none →
    ∃ metadata : Metadata, backend (.stat op path) w = (.ok metadata, w) ∧
      metadata.contentLength ≤ Int64.maxValue.toUInt64
  write : ∀ op path data w,
    backend (.write op path data) w = (.ok (), put w (object locate op path) data)
  getReader : ∀ op path w, backend (.getReader op path) w =
    (if (w (object locate op path)).isSome then .ok () else missing, w)
  getWriter : ∀ op path w, backend (.getWriter op path) w = (.ok (), w)

/-- What other clients do to an object. A write creates or overwrites it. -/
inductive ClientStep
  | write (contents : Bytes)
  | remove
  deriving DecidableEq, Repr

def ClientStep.act (k : κ) (w : Store κ Bytes) : ClientStep → Store κ Bytes
  | .write contents => put w k contents
  | .remove => erase w k

def Empties (k : κ) (step : Observed OpenDALCall (Store κ Bytes)) : Prop :=
  (∃ contents, step.before k = some contents ∧ contents ≠ []) ∧ step.after k = some []

/-- What an open keeps to whatever other clients do meanwhile. -/
structure Safe (flags : FileOpenFlags) (k : κ) (result : Except Exception (Option OpenedFile))
    (calls : List (Observed OpenDALCall (Store κ Bytes))) : Prop where
  writing : flags.openForWriting = true → flags.overwriteExistingFile = false →
    ∀ step ∈ calls, ¬ Empties k step
  reading : flags.openForReading = true → flags.returnNullIfNotExists = true →
    (∃ opened, result = .ok opened) ∧ result ≠ .error notFound

/-- Nobody acts in a way that matters between the calls that find the object as in `seen`: the
existence check is call 1, the initial write or the stat is call 2, the reader is opened by call 3.
-/
structure Undisturbed (flags : FileOpenFlags) (missing : Except Exception Unit)
    (seen : Nat → Option Bytes) : Prop where
  writing : flags.openForWriting = true → flags.overwriteExistingFile = false →
    flags.createFileIfNotExists = true → seen 1 = none → ∀ contents, seen 2 = some contents →
      contents = []
  reading : flags.openForReading = true → flags.returnNullIfNotExists = true → seen 1 ≠ none →
    seen 2 ≠ none ∧ (seen 3 ≠ none ∨ missing = .ok ())

section Races

variable {locate : Bytes → StringMapValue → Bytes → κ} {missing : Except Exception Unit}
  {backend : Backend (Store κ Bytes)} {flags : FileOpenFlags} {op : Operator} {path uri : Bytes}

omit [DecidableEq κ] in
private theorem empties_kept {k : κ} {c : OpenDALCall} {w : Store κ Bytes} :
    ¬ Empties k ⟨c, w, w⟩ := by
  rintro ⟨⟨contents, hcontents, hne⟩, hempty⟩
  exact hne (Option.some.inj (hcontents.symm.trans hempty))

private theorem empties_write {k : κ} {c : OpenDALCall} {w : Store κ Bytes} :
    Empties k ⟨c, w, put w k []⟩ ↔ ∃ contents, w k = some contents ∧ contents ≠ [] := by
  simp [Empties, put]

theorem openForReading_contended (laws : AtomicBackend locate missing backend)
    (act : Store κ Bytes → ClientStep → Store κ Bytes) (w : Store κ Bytes)
    (log : List (Observed OpenDALCall (Store κ Bytes))) (batches : List (List ClientStep)) :
    (∃ opened, ((openForReading op path flags).run (contended backend act)
        ((w, log), batches)).1 = .ok opened) ↔
      found act w batches 0 (object locate op path) ≠ none ∧
        (found act w batches 1 (object locate op path) ≠ none ∨ missing = .ok ()) := by
  unfold openForReading
  by_cases hstat : found act w batches 0 (object locate op path) = none
  · rw [Program.run_bind, Program.run_perform, contended_call, laws.stat_missing op path _ hstat]
    simp [hstat]
  obtain ⟨metadata, hpresent, hfits⟩ := laws.stat_present op path _ hstat
  have hconvert : ∃ metadata_p, convertMetadata metadata = .ok metadata_p := by
    rw [convertMetadata, if_neg (UInt64.not_lt.mpr hfits)]
    exact ⟨_, rfl⟩
  obtain ⟨metadata_p, hconvert⟩ := hconvert
  rw [run_bind_contended hpresent, Program.run_bind, Program.run_lift, hconvert]
  dsimp only
  rw [Program.run_bind, Program.run_perform, contended_call, laws.getReader]
  have hnext : found act (found act w batches 0) batches.tail 0 = found act w batches 1 := rfl
  rw [hnext]
  cases hreader : found act w batches 1 (object locate op path) with
  | some contents => simp [hstat]
  | none => cases missing <;> simp [hstat]

theorem openForWriting_contended (laws : AtomicBackend locate missing backend)
    (act : Store κ Bytes → ClientStep → Store κ Bytes) (empty : Bool) (w : Store κ Bytes)
    (log : List (Observed OpenDALCall (Store κ Bytes))) (batches : List (List ClientStep))
    (quiet : ∀ step ∈ log, ¬ Empties (object locate op path) step) :
    (∀ step ∈ ((openForWriting op path flags empty).run (contended backend act)
        ((w, log), batches)).2.1.2, ¬ Empties (object locate op path) step) ↔
      (empty = true → ∀ contents, found act w batches 0 (object locate op path) = some contents →
        contents = []) := by
  unfold openForWriting
  cases empty with
  | false =>
    refine iff_of_true ?_ (by simp)
    rw [if_neg Bool.false_ne_true]
    dsimp only
    rw [run_bind_contended (laws.getWriter op path _), Program.run_pure, List.forall_mem_append,
      List.forall_mem_singleton]
    exact ⟨quiet, empties_kept⟩
  | true =>
    rw [if_pos rfl, Program.run_bind, Program.run_perform, contended_call, laws.write]
    dsimp only
    rw [run_bind_contended (laws.getWriter op path _), Program.run_pure, List.forall_mem_append,
      List.forall_mem_append, List.forall_mem_singleton, List.forall_mem_singleton,
      and_iff_left empties_kept, and_iff_right quiet, empties_write]
    simp only [not_exists, not_and, not_not, forall_const]

theorem openObject_reading (laws : AtomicBackend locate missing backend)
    (reading : flags.openForReading = true)
    (present : (OpenDALOpenOptions.ofFlags flags).create = false)
    (null : flags.returnNullIfNotExists = true)
    (act : Store κ Bytes → ClientStep → Store κ Bytes) (w : Store κ Bytes)
    (log : List (Observed OpenDALCall (Store κ Bytes))) (batches : List (List ClientStep)) :
    (∃ opened, ((openObject op path uri flags (OpenDALOpenOptions.ofFlags flags)).run
        (contended backend act) ((w, log), batches)).1 = .ok opened) ↔
      (found act w batches 0 (object locate op path) ≠ none →
        found act w batches 1 (object locate op path) ≠ none ∧
          (found act w batches 2 (object locate op path) ≠ none ∨ missing = .ok ())) := by
  unfold openObject
  rw [run_bind_contended (laws.objectExists op path _), present]
  cases hexists : found act w batches 0 (object locate op path) with
  | none =>
    refine iff_of_true ⟨none, ?_⟩ fun hne => absurd rfl hne
    rw [if_pos (by simp), if_pos null]
    rfl
  | some contents =>
    have hread : (OpenDALOpenOptions.ofFlags flags).read = true := reading
    rw [if_neg (by simp), if_pos hread, openForReading_contended laws,
      forall_prop_of_true (Option.some_ne_none contents)]
    rfl

theorem openObject_writing (laws : AtomicBackend locate missing backend)
    (writing : flags.openForReading = false) (keeps : flags.overwriteExistingFile = false)
    (act : Store κ Bytes → ClientStep → Store κ Bytes) (w : Store κ Bytes)
    {log : List (Observed OpenDALCall (Store κ Bytes))}
    (quiet : ∀ step ∈ log, ¬ Empties (object locate op path) step)
    (batches : List (List ClientStep)) :
    (∀ step ∈ ((openObject op path uri flags (OpenDALOpenOptions.ofFlags flags)).run
        (contended backend act) ((w, log), batches)).2.1.2,
        ¬ Empties (object locate op path) step) ↔
      (flags.createFileIfNotExists = true → found act w batches 0 (object locate op path) = none →
        ∀ contents, found act w batches 1 (object locate op path) = some contents →
          contents = []) := by
  have hread : ¬ (OpenDALOpenOptions.ofFlags flags).read = true := by
    simp [OpenDALOpenOptions.ofFlags, writing]
  have hcreate : (OpenDALOpenOptions.ofFlags flags).create = flags.createFileIfNotExists := by
    simp [OpenDALOpenOptions.ofFlags, keeps]
  have htruncate : (OpenDALOpenOptions.ofFlags flags).truncate = false := keeps
  unfold openObject
  rw [run_bind_contended (laws.objectExists op path _), hcreate, htruncate, Bool.or_false,
    if_neg hread]
  have hquiet : ∀ step ∈ log ++ [⟨.objectExists op path, found act w batches 0,
      found act w batches 0⟩], ¬ Empties (object locate op path) step := by
    rw [List.forall_mem_append, List.forall_mem_singleton]
    exact ⟨quiet, empties_kept⟩
  cases hexists : found act w batches 0 (object locate op path) with
  | some contents =>
    rw [if_neg (by simp), openForWriting_contended laws act _ _ _ _ hquiet]
    simp
  | none =>
    by_cases hcreates : flags.createFileIfNotExists = true
    · rw [if_neg (by simp [hcreates]), openForWriting_contended laws act _ _ _ _ hquiet, hcreates]
      simp only [Option.isSome_none, Bool.not_false, forall_const]
      rfl
    · refine iff_of_true ?_ fun h => absurd h hcreates
      rw [if_pos (by simpa using hcreates)]
      split <;> exact hquiet

theorem openFile_contended [StringUtil] (laws : AtomicBackend locate missing backend)
    {fs : Operators.Configuration.OpenDALFileSystem} {opener : Option FileOpener} {p : OpenDALPath}
    (accepted : Accepted fs uri flags opener op p)
    (act : Store κ Bytes → ClientStep → Store κ Bytes) (w : Store κ Bytes)
    (batches : List (List ClientStep)) :
    (openFile fs uri flags opener).run (contended backend act) ((w, []), batches) =
      (openObject op p.path uri flags (OpenDALOpenOptions.ofFlags flags)).run (contended backend act)
        ((found act w batches 0, [⟨.construct op, found act w batches 0, found act w batches 0⟩]),
          batches.tail) := by
  rw [run_openFile accepted, contended_call, laws.construct, List.nil_append]

/-- An open keeps its promises in a race exactly when nobody disturbs it. -/
theorem openFile_safe_iff [StringUtil] (laws : AtomicBackend locate missing backend)
    {fs : Operators.Configuration.OpenDALFileSystem} {opener : Option FileOpener} {p : OpenDALPath}
    (accepted : Accepted fs uri flags opener op p) (w : Store κ Bytes)
    (batches : List (List ClientStep)) :
    let k := object locate op p.path
    let outcome := (openFile fs uri flags opener).run (contended backend (ClientStep.act k))
      ((w, []), batches)
    Safe flags k outcome.1 outcome.2.1.2 ↔
      Undisturbed flags missing fun n => found (ClientStep.act k) w batches n k := by
  intro k outcome
  have houtcome := openFile_contended laws accepted (ClientStep.act k) w batches
  obtain ⟨hkind, -, hread⟩ := (isValid_iff _).mp accepted.valid
  have hfirst : ∀ step ∈ [⟨.construct op, found (ClientStep.act k) w batches 0,
      found (ClientStep.act k) w batches 0⟩], ¬ Empties k step := by
    rw [List.forall_mem_singleton]
    exact empties_kept
  have hwriting (writes : flags.openForWriting = true) (keeps : flags.overwriteExistingFile = false) :
      (∀ step ∈ outcome.2.1.2, ¬ Empties k step) ↔ _ :=
    houtcome ▸ openObject_writing laws (by simpa [writes, OpenDALOpenOptions.ofFlags] using hkind)
      keeps (ClientStep.act k) (found (ClientStep.act k) w batches 0) hfirst batches.tail
  have hreading (reads : flags.openForReading = true) (null : flags.returnNullIfNotExists = true) :
      (∃ opened, outcome.1 = .ok opened) ↔ _ :=
    houtcome ▸ openObject_reading laws reads
      (hread (by simpa [reads, OpenDALOpenOptions.ofFlags] using hkind)).1 null
      (ClientStep.act k) (found (ClientStep.act k) w batches 0) _ batches.tail
  constructor
  · intro safe
    exact
      { writing := fun writes keeps => (hwriting writes keeps).mp (safe.writing writes keeps)
        reading := fun reads null => (hreading reads null).mp (safe.reading reads null).1 }
  · intro undisturbed
    refine
      { writing := fun writes keeps => (hwriting writes keeps).mpr (undisturbed.writing writes keeps)
        reading := fun reads null => ?_ }
    obtain ⟨opened, hopened⟩ := (hreading reads null).mpr (undisturbed.reading reads null)
    exact ⟨⟨opened, hopened⟩, by simp [hopened]⟩


end Races

section Stores

variable (locate : Bytes → StringMapValue → Bytes → κ)

def servingBackend : Backend (Store κ Bytes)
  | .stat op path, w =>
    match w (object locate op path) with
    | none => (.error notFound, w)
    | some data =>
      (.ok { contentLength := UInt64.ofNat (min data.length streamMax), isFile := true, isDir := false },
        w)
  | .getReader op path, w =>
    (if (w (object locate op path)).isSome then .ok () else .error notFound, w)
  | c, w => storeBackend locate c w

theorem servingBackend_atomic : AtomicBackend locate (.error notFound) (servingBackend locate) where
  construct _ _ := rfl
  objectExists _ _ _ := rfl
  stat_missing op path w absent := by
    unfold servingBackend
    dsimp only
    rw [absent]
  stat_present op path w present := by
    obtain ⟨data, hdata⟩ := Option.ne_none_iff_exists'.mp present
    have hfits : UInt64.ofNat (min data.length streamMax) ≤ Int64.maxValue.toUInt64 := by
      have hmax : Int64.maxValue.toUInt64.toNat = streamMax := by decide
      rw [UInt64.le_iff_toNat_le, UInt64.toNat_ofNat', hmax]
      exact (Nat.mod_le _ _).trans (min_le_right _ _)
    unfold servingBackend
    dsimp only
    rw [hdata]
    exact ⟨_, rfl, hfits⟩
  write _ _ _ _ := rfl
  getReader _ _ _ := rfl
  getWriter _ _ _ := rfl

end Stores

theorem openFile_safe_overwritten :
    letI : StringUtil := percentDecoding
    let flags : FileOpenFlags := { openForReading := true, returnNullIfNotExists := true }
    let w : Store Bytes Bytes := put (fun _ => none) (bytes "f") (bytes "data")
    let outcome := (openFile {} (bytes "gs://b/f") flags none).run
      (contended (servingBackend fun _ _ path => path) (ClientStep.act (bytes "f")))
      ((w, []), [[.remove], [.write (bytes "a")], [.remove, .write (bytes "bc")]])
    Safe flags (bytes "f") outcome.1 outcome.2.1.2 := by
  let _ : StringUtil := percentDecoding
  intro flags w outcome
  let p := (OpenDALPath.tryParse (bytes "gs://b/f") {}).2
  have hparse : (OpenDALPath.tryParse (bytes "gs://b/f") {}).1 = true := by decide +kernel
  obtain ⟨op, hplan⟩ := operatorPlan_default hparse
  have hpath : p.path = bytes "f" := by decide +kernel
  have accepted : Accepted {} (bytes "gs://b/f") flags none op p :=
    { named := by decide
      valid := by decide
      plan := hplan
      addressed := by
        rw [hpath]
        decide }
  have hiff := openFile_safe_iff (servingBackend_atomic fun _ _ path => path) accepted w
    [[.remove], [.write (bytes "a")], [.remove, .write (bytes "bc")]]
  rw [object, hpath] at hiff
  refine hiff.mpr ⟨nofun, fun _ _ _ => ⟨?_, Or.inl ?_⟩⟩ <;> decide

/-- Another client creates the object between the existence check and the initial write, which
empties it, and removes the object between the existence check and the stat, which throws. -/
theorem openFile_races :
    letI : StringUtil := percentDecoding
    let k := bytes "f"
    let handler := contended (servingBackend fun _ _ path => path) (ClientStep.act k)
    let flags : FileOpenFlags := { openForWriting := true, createFileIfNotExists := true }
    let created := (openFile {} (bytes "gs://b/f") flags none).run handler
      ((fun _ => none, []), [[], [], [.write (bytes "data")]])
    let flags' : FileOpenFlags := { openForReading := true, returnNullIfNotExists := true }
    let removed := (openFile {} (bytes "gs://b/f") flags' none).run handler
      ((put (fun _ => none) k (bytes "data"), []), [[], [], [.remove]])
    created.1 = .ok (some (.write (OpenDALWriteHandle.opened flags))) ∧
      created.2.1.2.map (fun step => (step.before k, step.after k)) =
        [(none, none), (none, none), (some (bytes "data"), some []), (some [], some [])] ∧
      removed.1 = .error notFound := by
  decide +kernel

end DuckdbOpendalfs.Handles.OpenRaces
