/- DuckdbOpendalfs/FileSystem/Provenance
   digest: Whatever the schedule, objects hold contents that were there before, or nothing. -/

import DuckdbOpendalfs.FileSystem.Isolation

set_option autoImplicit false
set_option relaxedAutoImplicit false

namespace DuckdbOpendalfs.FileSystem.Provenance

open Text.ByteString
open Collections.Stores
open Execution.Programs Execution.Footprints Execution.Threads
open Address.Uri
open Operators.LayerOptions Operators.Configuration Operators.Objects
open Handles.FileHandle
open Operations Confinement Isolation

variable {κ : Type}

/-- A backend that makes no contents up, whether its calls succeed or fail: after a call an object
holds what the call has written, or what some object held before. -/
structure HonestBackend (locate : Bytes → StringMapValue → Bytes → κ)
    (backend : Backend (Store κ Bytes)) : Prop where
  read : ∀ {op path data w}, (backend (.read op path) w).1 = .ok data →
    w (object locate op path) = some data
  contents : ∀ {c w k data}, (backend c w).2 k = some data →
    (∃ k', w k' = some data) ∨ ∃ op path, c = .write op path data

def Known (w : Store κ Bytes) (data : Bytes) : Prop := data = [] ∨ ∃ k, w k = some data

def Inherits (w w' : Store κ Bytes) : Prop := ∀ k data, w' k = some data → Known w data

section Passing

variable {α β : Type}

def contentsRead : (c : OpenDALCall) → c.Reply → Set Bytes
  | .read _ _, data => {data}
  | _, _ => ∅

/-- A program writes no contents but those of `S` and what it has read before. -/
def Passes (S : Set Bytes) : FileSystemM α → Prop
  | .done _ | .fail _ => True
  | .call c next => (∀ op path data, c = .write op path data → data ∈ S) ∧
      ∀ reply, Passes (S ∪ contentsRead c reply) (next reply)

variable {S S' : Set Bytes}

theorem Passes.mono (more : S ⊆ S') {p : FileSystemM α} (passes : Passes S p) : Passes S' p := by
  induction p generalizing S S' with
  | done a => trivial
  | fail e => trivial
  | call c next ih =>
    refine ⟨fun op path data hwrite => more (passes.1 op path data hwrite), fun reply => ?_⟩
    exact ih reply (Set.union_subset_union_left _ more) (passes.2 reply)

theorem passes_bind {p : FileSystemM α} {f : α → FileSystemM β} (first : Passes S p)
    (later : ∀ S', S ⊆ S' → ∀ a, Passes S' (f a)) : Passes S (p >>= f) := by
  change Passes S (p.bind f)
  induction p generalizing S with
  | done a => exact later S Set.Subset.rfl a
  | fail e => trivial
  | call c next ih =>
    refine ⟨first.1, fun reply => ih reply (first.2 reply) fun S' more a => ?_⟩
    exact later S' (Set.subset_union_left.trans more) a

private theorem passes_plain {p : FileSystemM α} (plain : Issues Plain p) (empty : [] ∈ S) :
    Passes S p := by
  induction p generalizing S with
  | done a => trivial
  | fail e => trivial
  | call c next ih =>
    refine ⟨fun op path data hwrite => ?_, fun reply => ih reply (plain.2 reply) (Or.inl empty)⟩
    rw [plain.1 op path data hwrite]
    exact empty

variable [StringUtil] {fs : OpenDALFileSystem} {opener : Option FileOpener}

private theorem passes_createOperator {uri : Bytes} {r : OpenDALPath}
    {f : Operator × OpenDALPath → FileSystemM α}
    (later : ∀ S', S ⊆ S' → ∀ plan, Passes S' (f plan)) :
    Passes S (createOperator fs uri r opener >>= f) := by
  rw [createOperator, createOperatorWith_bind]
  split
  · trivial
  · exact ⟨by rintro op path data ⟨⟩, fun reply => later _ Set.subset_union_left _⟩

private theorem passes_moveFile (source target : Bytes) :
    Passes S (Move.MoveFile.moveFile fs source target opener) := by
  unfold Move.MoveFile.moveFile
  split
  · trivial
  split
  · trivial
  split_ifs
  · trivial
  · refine passes_createOperator fun S' _ plan => ?_
    exact ⟨by rintro op path data ⟨⟩, fun _ => trivial⟩
  · refine passes_createOperator fun S₁ _ plan => passes_createOperator fun S₂ _ plan' => ?_
    refine ⟨by rintro op path data ⟨⟩, fun data => ⟨?_, fun _ => ?_⟩⟩
    swap
    · exact ⟨by rintro op path data ⟨⟩, fun _ => trivial⟩
    rintro op path data' heq
    cases heq
    exact Or.inr rfl

theorem program_passes (empty : [] ∈ S) (operation : FileOperation) :
    Passes S (operation.program fs opener) := by
  by_cases hmove : ∃ source target, operation = .moveFile source target
  · obtain ⟨source, target, rfl⟩ := hmove
    exact passes_bind (passes_moveFile source target) fun _ _ _ => trivial
  · let locate (_ : Bytes) (_ : StringMapValue) (_ : Bytes) : Unit := ()
    refine passes_plain ((program_stays locate fs opener operation).mono fun c stays => ?_) empty
    exact stays.2.resolve_left hmove

end Passing

section Threads

variable {locate : Bytes → StringMapValue → Bytes → κ} {backend : Backend (Store κ Bytes)}

def Holding (S : Set Bytes) (w : Store κ Bytes) : Prop := ∀ k data, w k = some data → data ∈ S

theorem HonestBackend.holding (honest : HonestBackend locate backend) {S : Set Bytes}
    {c : OpenDALCall} (writes : ∀ op path data, c = .write op path data → data ∈ S)
    {w : Store κ Bytes} (holding : Holding S w) :
    Holding S (backend c w).2 ∧ ∀ reply, (backend c w).1 = .ok reply → contentsRead c reply ⊆ S := by
  refine ⟨fun k data hk => ?_, fun reply hreply => ?_⟩
  · rcases honest.contents hk with ⟨k', hk'⟩ | ⟨op, path, hwrite⟩
    · exact holding k' data hk'
    · exact writes op path data hwrite
  · cases c with
    | read op path => exact Set.singleton_subset_iff.mpr (holding _ _ (honest.read hreply))
    | construct | objectExists | stat | write | rename | remove | removeAll | createDir | list
    | getReader | getWriter => exact Set.empty_subset _

theorem Passes.keeps (honest : HonestBackend locate backend) {S : Set Bytes} {α : Type}
    {p : FileSystemM α} (passes : Passes S p) :
    Keeps backend (Holding S) (fun _ => True) p := by
  induction p with
  | done a => trivial
  | fail e => trivial
  | call c next ih =>
    intro w holding
    obtain ⟨hholding, hread⟩ := honest.holding passes.1 holding
    refine ⟨hholding, fun reply hreply => ih reply ?_⟩
    have hpasses := passes.2 reply
    rwa [Set.union_eq_self_of_subset_right (hread reply hreply)] at hpasses

variable [StringUtil]

/-- Under every schedule of any operations, every object holds contents that some object held in the
beginning, or is empty. -/
theorem operations_provenance {ι : Type} [DecidableEq ι] (honest : HonestBackend locate backend)
    (fs : OpenDALFileSystem) (openers : ι → Option FileOpener) (operations : ι → List FileOperation)
    (w : Store κ Bytes) (schedule : List ι) :
    Inherits w (interleave backend
      (fun i => ⟨(operations i).map (FileOperation.program fs (openers i)), []⟩, w) schedule).2 := by
  have hprograms (i : ι) : ∀ p ∈ (operations i).map (FileOperation.program fs (openers i)),
      Keeps backend (Holding {data | Known w data}) (fun _ => True) p := by
    intro p hp
    obtain ⟨operation, -, rfl⟩ := List.mem_map.mp hp
    exact (program_passes (Or.inl rfl) operation).keeps honest
  exact interleave_invariant hprograms (fun k data hk => Or.inr ⟨k, hk⟩) schedule

end Threads

theorem storeBackend_honest [DecidableEq κ] (locate : Bytes → StringMapValue → Bytes → κ) :
    HonestBackend locate (storeBackend locate) where
  read {op path data w} h := by
    simp only [storeBackend] at h
    split at h
    · cases h
    · rename_i data' hdata
      rw [hdata, Except.ok.inj h]
  contents {c w k data} h := by
    by_cases hk : k ∈ writes locate c
    swap
    · rw [(storeBackend_local locate).frame c w k hk] at h
      exact Or.inl ⟨k, h⟩
    cases c with
    | construct | objectExists | stat | read | list | getReader | getWriter => cases hk
    | createDir op path => exact Or.inl ⟨k, h⟩
    | write op path data' =>
      obtain rfl := Set.mem_singleton_iff.mp hk
      simp only [storeBackend, put, Function.update_self, Option.some_inj] at h
      exact Or.inr ⟨op, path, by rw [h]⟩
    | remove op path =>
      obtain rfl := Set.mem_singleton_iff.mp hk
      simp [storeBackend, erase] at h
    | removeAll op paths =>
      simp only [storeBackend, eraseAll_apply] at h
      split_ifs at h
      exact Or.inl ⟨k, h⟩
    | rename op source target =>
      simp only [storeBackend] at h
      split at h
      · exact Or.inl ⟨k, h⟩
      · by_cases htarget : k = object locate op target
        · simp only [relocate, htarget, Function.update_self] at h
          exact Or.inl ⟨_, h⟩
        · obtain rfl : k = object locate op source := by simpa [writes, htarget] using hk
          simp [relocate, erase, htarget] at h

theorem operations_provenance_moves :
    letI : StringUtil := percentDecoding
    let operations : Bool → List FileOperation := fun i =>
      if i then [.moveFile (bytes "gs://b/a") (bytes "fs://b"),
        .openFile (bytes "gs://b/d") { openForWriting := true, overwriteExistingFile := true }]
      else [.moveFile (bytes "gs://b/a") (bytes "fs://c")]
    Inherits (put (fun _ => none) (bytes "a") (bytes "data")) (interleave (storeBackend byPath)
      (fun i => ⟨(operations i).map (FileOperation.program {} none), []⟩,
        put (fun _ => none) (bytes "a") (bytes "data"))
      (List.replicate 9 [true, false]).flatten).2 := by
  let _ : StringUtil := percentDecoding
  intro operations
  clear_value operations
  exact operations_provenance (storeBackend_honest byPath) {} (fun _ => none) operations
    (put (fun _ => none) (bytes "a") (bytes "data")) (List.replicate 9 [true, false]).flatten

end DuckdbOpendalfs.FileSystem.Provenance
