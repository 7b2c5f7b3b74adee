/- DuckdbOpendalfs/FileSystem/Isolation
   digest: Operations of many threads under any schedule: those apart are each as if alone. -/

import DuckdbOpendalfs.FileSystem.Confinement

set_option autoImplicit false
set_option relaxedAutoImplicit false

namespace DuckdbOpendalfs.FileSystem.Isolation

open Text.ByteString
open Collections.Stores
open Execution.Programs Execution.Footprints Execution.Runs Execution.Threads
open Address.Uri
open Operators.Objects
open Operators.Configuration (Backend FileOpener OpenDALCall OpenDALFileSystem)
open Handles.FileHandle Handles.WriteHandle
open Operations Confinement

section StoreBackend

variable {κ : Type} [DecidableEq κ] (locate : Bytes → StringMapValue → Bytes → κ)

private theorem storeBackend_frame (c : OpenDALCall) (w : Store κ Bytes) (k : κ)
    (outside : k ∉ writes locate c) : (storeBackend locate c w).2 k = w k := by
  cases c with
  | construct op => rfl
  | objectExists op path => rfl
  | stat op path | read op path =>
    simp only [storeBackend]
    split <;> rfl
  | write op path data => exact Function.update_of_ne outside _ w
  | rename op source target =>
    simp only [writes, Set.mem_insert_iff, Set.mem_singleton_iff, not_or] at outside
    simp only [storeBackend]
    split
    · rfl
    · simp [relocate, erase, outside.1, outside.2]
  | remove op path => exact Function.update_of_ne outside _ w
  | removeAll op paths =>
    have hmissing : k ∉ paths.map (object locate op) := by
      intro h
      obtain ⟨path, hpath, rfl⟩ := List.mem_map.mp h
      exact outside ⟨path, hpath, rfl⟩
    simp only [storeBackend, eraseAll_apply, if_neg hmissing]
  | createDir op path => rfl
  | list op path => rfl
  | getReader op path => rfl
  | getWriter op path => rfl

private theorem storeBackend_answer (c : OpenDALCall) (w w' : Store κ Bytes)
    (agree : Set.EqOn w w' (reaches locate c)) :
    (storeBackend locate c w).1 = (storeBackend locate c w').1 := by
  cases c with
  | objectExists op path | stat op path | read op path =>
    have hobject : w (object locate op path) = w' (object locate op path) :=
      agree (Set.mem_singleton _)
    simp only [storeBackend, hobject]
    try split <;> rfl
  | rename op source target =>
    have hobject : w (object locate op source) = w' (object locate op source) :=
      agree (Set.mem_insert _ _)
    simp only [storeBackend, hobject]
    split <;> rfl
  | construct | write | remove | removeAll | createDir | list | getReader | getWriter => rfl

private theorem storeBackend_change (c : OpenDALCall) (w w' : Store κ Bytes)
    (agree : Set.EqOn w w' (reaches locate c)) :
    Set.EqOn (storeBackend locate c w).2 (storeBackend locate c w').2 (reaches locate c) := by
  cases c with
  | construct | objectExists | createDir | list | getReader | getWriter => exact agree
  | stat op path | read op path =>
    have hobject : w (object locate op path) = w' (object locate op path) :=
      agree (Set.mem_singleton _)
    simp only [storeBackend, hobject]
    split <;> exact agree
  | write op path data | remove op path =>
    rintro k rfl
    simp [storeBackend, put, erase]
  | rename op source target =>
    have hobject : w (object locate op source) = w' (object locate op source) :=
      agree (Set.mem_insert _ _)
    simp only [storeBackend, hobject]
    split
    · exact agree
    · intro k hk
      by_cases htarget : k = object locate op target
      · simp [relocate, htarget, hobject]
      · obtain rfl : k = object locate op source := by simpa [reaches, htarget] using hk
        simp [relocate, erase, htarget]
  | removeAll op paths =>
    rintro k hk
    simp only [storeBackend, eraseAll_apply]
    split_ifs
    · rfl
    · exact agree hk

theorem storeBackend_local : Local (storeBackend locate) (reaches locate) (writes locate) where
  writes_reached c := by cases c <;> simp [reaches, writes]
  frame := storeBackend_frame locate
  answer := storeBackend_answer locate
  change := storeBackend_change locate

end StoreBackend

section Threads

variable {κ ι : Type} (locate : Bytes → StringMapValue → Bytes → κ) [StringUtil]
  (fs : OpenDALFileSystem)

def objectsOf (opener : Option FileOpener) (operations : List FileOperation) : Set κ :=
  {k | ∃ operation ∈ operations, k ∈ operation.objects locate fs opener}

def changesOf (opener : Option FileOpener) (operations : List FileOperation) : Set κ :=
  {k | ∃ operation ∈ operations, k ∈ operation.changes locate fs opener}

private theorem programs_confined (opener : Option FileOpener) (operations : List FileOperation) :
    ∀ p ∈ operations.map (FileOperation.program fs opener),
      Issues (Within (reaches locate) (writes locate) (objectsOf locate fs opener operations)
        (changesOf locate fs opener operations)) p := by
  intro p hp
  obtain ⟨operation, hoperation, rfl⟩ := List.mem_map.mp hp
  refine (program_confined locate fs opener operation).mono fun c within =>
    ⟨fun k hk => ?_, fun k hk => ?_⟩
  · exact ⟨operation, hoperation, within.1 hk⟩
  · exact ⟨operation, hoperation, within.2 hk⟩

theorem changes_subset_objects (opener : Option FileOpener) (operation : FileOperation) :
    operation.changes locate fs opener ⊆ operation.objects locate fs opener := by
  cases operation with
  | openFile path flags =>
    rw [FileOperation.changes]
    split_ifs
    · exact Set.Subset.rfl
    · exact Set.empty_subset _
  | fileExists | directoryExists | listFiles => exact Set.empty_subset _
  | createDirectory | createDirectoriesRecursive | moveFile | removeDirectory | removeFile
  | removeFiles | tryRemoveFile => exact Set.Subset.rfl

theorem changesOf_subset (opener : Option FileOpener) (operations : List FileOperation) :
    changesOf locate fs opener operations ⊆ objectsOf locate fs opener operations := by
  rintro k ⟨operation, hoperation, hk⟩
  exact ⟨operation, hoperation, changes_subset_objects locate fs opener operation hk⟩

variable {locate fs} [DecidableEq ι] {backend : Backend (Store κ Bytes)}

/-- Threads run operations of the file system, and none of them changes what another one looks at.
Under every schedule each of them is answered as it is alone, and in the end its objects are what it
leaves of them alone. -/
theorem operations_apart (isLocal : Local backend (reaches locate) (writes locate))
    (openers : ι → Option FileOpener) (operations : ι → List FileOperation)
    (apart : ∀ i j, i ≠ j → Disjoint (objectsOf locate fs (openers i) (operations i))
      (changesOf locate fs (openers j) (operations j)))
    (w : Store κ Bytes) (schedule : List ι) (i : ι) :
    let programs (i : ι) := (operations i).map (FileOperation.program fs (openers i))
    let ended := interleave backend (fun i => ⟨programs i, []⟩, w) schedule
    (ended.1 i).answers <+: (run (alone backend) w (programs i)).1 ∧
      ((ended.1 i).programs = [] →
        (ended.1 i).answers = (run (alone backend) w (programs i)).1 ∧
          Set.EqOn ended.2 (after (alone backend) w (programs i))
            (objectsOf locate fs (openers i) (operations i))) :=
  interleave_apart isLocal (fun i => programs_confined locate fs (openers i) (operations i)) apart w
    schedule i

/-- Under every schedule of any operations, an object that none of them may change stays as it
is. -/
theorem operations_frame (frame : ∀ c w k, k ∉ writes locate c → (backend c w).2 k = w k)
    (openers : ι → Option FileOpener) (operations : ι → List FileOperation) {k : κ}
    (outside : ∀ i, k ∉ changesOf locate fs (openers i) (operations i)) (w : Store κ Bytes)
    (schedule : List ι) :
    (interleave backend
      (fun i => ⟨(operations i).map (FileOperation.program fs (openers i)), []⟩, w) schedule).2 k =
      w k := by
  refine interleave_invariant (I := fun w' : Store κ Bytes => w' k = w k) (fun i p hp => ?_) rfl
    schedule
  refine (programs_confined locate fs _ _ p hp).keeps fun c within w' holds => ?_
  exact (frame c w' k fun hk => outside i (within.2 hk)).trans holds

end Threads

def byPath : Bytes → StringMapValue → Bytes → Bytes := fun _ _ path => path

private theorem eq_of_mem_namedBy [StringUtil] {uri k : Bytes}
    (h : k ∈ namedBy byPath {} none uri) : k = (OpenDALPath.tryParse uri {}).2.path := by
  obtain ⟨parsed, config, ⟨hparse, -⟩, rfl⟩ := h
  rw [hparse]
  rfl

private theorem eq_of_mem_movedTo [StringUtil] {source target k : Bytes}
    (h : k ∈ movedTo byPath {} none source target) :
    k = (OpenDALPath.tryParse target {}).2.path := by
  obtain ⟨parsed, config, parsed', config', -, hparse, rfl, -⟩ := h
  rw [hparse]
  rfl

theorem operations_apart_move :
    letI : StringUtil := percentDecoding
    let flags : FileOpenFlags := { openForWriting := true, createFileIfNotExists := true }
    let operations : Bool → List FileOperation := fun i =>
      if i then [.openFile (bytes "gs://b/a") flags, .tryRemoveFile (bytes "gs://b/a"),
        .fileExists (bytes "gs://b/a")]
      else [.moveFile (bytes "gs://b/b") (bytes "gs://b/c"), .fileExists (bytes "gs://b/c")]
    let threads := (interleave (storeBackend byPath)
      (fun i => ⟨(operations i).map (FileOperation.program {} none), []⟩,
        put (fun _ => none) (bytes "b") (bytes "data"))
      (List.replicate 9 [true, false]).flatten).1
    (threads true).answers <+: [.ok (.opened (some (.write (OpenDALWriteHandle.opened flags)))),
        .ok (.flag true), .ok (.flag false)] ∧
      (threads false).answers <+: [.ok .done, .ok (.flag true)] := by
  let _ : StringUtil := percentDecoding
  intro flags operations threads
  have ha : (OpenDALPath.tryParse (bytes "gs://b/a") {}).2.path = bytes "a" := by decide +kernel
  have hb : (OpenDALPath.tryParse (bytes "gs://b/b") {}).2.path = bytes "b" := by decide +kernel
  have hc : (OpenDALPath.tryParse (bytes "gs://b/c") {}).2.path = bytes "c" := by decide +kernel
  have hfirst {k : Bytes} (h : k ∈ objectsOf byPath {} none (operations true)) : k = bytes "a" := by
    obtain ⟨operation, hoperation, hk⟩ := h
    simp only [operations, ↓reduceIte, List.mem_cons, List.not_mem_nil, or_false] at hoperation
    rcases hoperation with rfl | rfl | rfl <;> exact (eq_of_mem_namedBy hk).trans ha
  have hsecond {k : Bytes} (h : k ∈ objectsOf byPath {} none (operations false)) :
      k = bytes "b" ∨ k = bytes "c" := by
    obtain ⟨operation, hoperation, hk⟩ := h
    simp only [operations, Bool.false_eq_true, ↓reduceIte, List.mem_cons, List.not_mem_nil,
      or_false] at hoperation
    rcases hoperation with rfl | rfl
    · rcases hk with hk | hk
      · exact Or.inl ((eq_of_mem_namedBy hk).trans hb)
      · exact Or.inr ((eq_of_mem_movedTo hk).trans hc)
    · exact Or.inr ((eq_of_mem_namedBy hk).trans hc)
  have hapart (i j : Bool) (hij : i ≠ j) : Disjoint (objectsOf byPath {} none (operations i))
      (changesOf byPath {} none (operations j)) := by
    refine Set.disjoint_left.mpr fun k hk hchanged => ?_
    have hother := changesOf_subset byPath {} none (operations j) hchanged
    cases i <;> cases j
    · exact hij rfl
    · rcases hsecond hk with rfl | rfl <;> exact absurd (hfirst hother) (by decide)
    · rcases hsecond hother with rfl | rfl <;> exact absurd (hfirst hk) (by decide)
    · exact hij rfl
  have halone (i : Bool) := (operations_apart (storeBackend_local byPath) (fun _ => none) operations
    hapart (put (fun _ => none) (bytes "b") (bytes "data"))
    (List.replicate 9 [true, false]).flatten i).1
  exact ⟨(halone true).trans (by decide +kernel), (halone false).trans (by decide +kernel)⟩

theorem operations_frame_beside :
    letI : StringUtil := percentDecoding
    let operations : Bool → List FileOperation := fun _ =>
      [.removeFiles [bytes "gs://b/b", bytes "gs://b/a"],
        .moveFile (bytes "gs://b/a") (bytes "gs://b/b")]
    (interleave (storeBackend byPath)
      (fun i => ⟨(operations i).map (FileOperation.program {} none), []⟩, fun _ => some [])
      [true, false, false, true, true, false, true]).2 (bytes "c") = some [] := by
  let _ : StringUtil := percentDecoding
  intro operations
  have ha : (OpenDALPath.tryParse (bytes "gs://b/a") {}).2.path = bytes "a" := by decide +kernel
  have hb : (OpenDALPath.tryParse (bytes "gs://b/b") {}).2.path = bytes "b" := by decide +kernel
  have houtside (i : Bool) : bytes "c" ∉ changesOf byPath {} none (operations i) := by
    rintro ⟨operation, hoperation, hk⟩
    simp only [operations, List.mem_cons, List.not_mem_nil, or_false] at hoperation
    rcases hoperation with rfl | rfl
    · obtain ⟨path, hpath, hk⟩ := hk
      simp only [List.mem_cons, List.not_mem_nil, or_false] at hpath
      rcases hpath with rfl | rfl
      · exact absurd ((eq_of_mem_namedBy hk).trans hb) (by decide)
      · exact absurd ((eq_of_mem_namedBy hk).trans ha) (by decide)
    · rcases hk with hk | hk
      · exact absurd ((eq_of_mem_namedBy hk).trans ha) (by decide)
      · exact absurd ((eq_of_mem_movedTo hk).trans hb) (by decide)
  clear_value operations
  exact operations_frame (storeBackend_local byPath).frame (fun _ => none) operations houtside
    (fun _ => some []) [true, false, false, true, true, false, true]

end DuckdbOpendalfs.FileSystem.Isolation
