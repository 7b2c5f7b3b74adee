/- DuckdbOpendalfs/FileSystem/Linearizable
   digest: Operations of one backend call: among any threads each of them happens at one moment. -/

import DuckdbOpendalfs.Execution.Linearization
import DuckdbOpendalfs.FileSystem.Isolation

set_option autoImplicit false
set_option relaxedAutoImplicit false

namespace DuckdbOpendalfs.FileSystem.Linearizable

open Text.ByteString
open Collections.StableGrouping Collections.Stores
open Execution.Programs Execution.Footprints Execution.Threads Execution.Linearization
open Address.Uri
open Operators.LayerOptions Operators.Configuration Operators.Objects
open Removal.Groups (Contributes groupRemovePaths_partition Identity OpenDALRemoveGroup
  groupOpenDALRemovePaths)
open Operations Confinement Isolation

def constructs : OpenDALCall → Bool
  | .construct _ => true
  | _ => false

theorem once_call (c : OpenDALCall) : AtMostOne constructs (call c) := by
  change AtMostOne constructs (.call c .done)
  rw [AtMostOne]
  split_ifs
  · exact fun _ => trivial
  · exact fun _ => trivial

section Operations

variable [StringUtil] (fs : OpenDALFileSystem) (opener : Option FileOpener)

/-- An operation with one call for its objects: no open, no move between schemes, and no removal
from several operators. -/
def Single : FileOperation → Prop
  | .openFile _ _ => False
  | .moveFile source target => ∀ s t, OpenDALPath.tryParse source {} = (true, s) →
      OpenDALPath.tryParse target {} = (true, t) → s.scheme = t.scheme
  | .removeFiles paths => ∀ uri ∈ paths, ∀ uri' ∈ paths, ∀ p config p' config',
      Addressed fs opener uri p config → Addressed fs opener uri' p' config' →
        p.scheme = p'.scheme ∧ config.toFinmap = config'.toFinmap
  | .fileExists _ | .directoryExists _ | .createDirectory _ | .createDirectoriesRecursive _
  | .listFiles _ | .removeDirectory _ | .removeFile _ | .tryRemoveFile _ => True

variable {fs opener} {α : Type} {uri : Bytes}

theorem once_createOperator {r : OpenDALPath} {f : Operator × OpenDALPath → FileSystemM α}
    (later : ∀ op p, operatorPlan (createOperatorConfig fs · · opener) uri r opener = .ok (op, p) →
      AtMostOne constructs (f (op, p))) :
    AtMostOne constructs (createOperator fs uri r opener >>= f) := by
  rw [createOperator, createOperatorWith_bind]
  cases hplan : operatorPlan (createOperatorConfig fs · · opener) uri r opener with
  | error e => trivial
  | ok plan =>
    have hquiet : constructs (.construct plan.1) = true := rfl
    dsimp only
    rw [AtMostOne, if_pos hquiet]
    exact fun _ => later plan.1 plan.2 hplan

private theorem once_probe {ask : Operator → Bytes → FileSystemM Bool}
    (asks : ∀ op path, AtMostOne constructs (ask op path)) :
    AtMostOne constructs (Directories.Probes.probe ask fs uri opener) := by
  unfold Directories.Probes.probe
  split
  · trivial
  · split_ifs
    · trivial
    · exact once_createOperator fun op p _ => asks op p.path

private theorem once_unless_empty {e : Exception} (ask : Operator → Bytes → FileSystemM α)
    (asks : ∀ op path, AtMostOne constructs (ask op path)) :
    AtMostOne constructs (do
      let (op, p) ← createOperator fs uri {} opener
      if p.path.isEmpty then .fail e else ask op p.path) := by
  refine once_createOperator fun op p _ => ?_
  dsimp only
  split_ifs
  · trivial
  · exact asks op p.path

private theorem once_moveFile {source target : Bytes}
    (single : Single fs opener (.moveFile source target)) :
    AtMostOne constructs (Move.MoveFile.moveFile fs source target opener) := by
  unfold Move.MoveFile.moveFile
  rcases hsource : OpenDALPath.tryParse source {} with ⟨accepted, s⟩
  cases accepted with
  | false => trivial
  | true =>
    rcases htarget : OpenDALPath.tryParse target {} with ⟨accepted', t⟩
    cases accepted' with
    | false => trivial
    | true =>
      have hscheme : s.scheme = t.scheme := single s t hsource htarget
      dsimp only
      rw [if_pos (beq_iff_eq.mpr hscheme)]
      split_ifs
      · trivial
      · exact once_createOperator fun op p _ => once_call _

private theorem one_group {paths : List Bytes}
    (single : Single fs opener (.removeFiles paths)) {groups : List OpenDALRemoveGroup}
    (grouped : groupOpenDALRemovePaths paths (createOperatorConfig fs · · opener) = .ok groups) :
    groups.length ≤ 1 := by
  obtain ⟨items, hitems, hkeys, hnodup, -⟩ :=
    (groupRemovePaths_partition paths (createOperatorConfig fs · · opener)).2 groups grouped
  have hnamed (identity : Identity) (member : identity ∈ groups.map OpenDALRemoveGroup.identity) :
      ∃ uri ∈ paths, ∃ p config, Addressed fs opener uri p config ∧
        identity = (p.scheme, config.toFinmap) := by
    rw [hkeys, mem_firstOccurrences] at member
    obtain ⟨item, hitem, rfl⟩ := List.mem_map.mp member
    obtain ⟨uri, huri, p, config, hparse, -, hconfig, rfl⟩ := uri_of_item hitems hitem
    exact ⟨uri, huri, p, config, ⟨hparse, hconfig⟩, rfl⟩
  match groups with
  | [] | [_] => simp
  | first :: second :: later =>
    obtain ⟨uri, huri, p, config, haddressed, hidentity⟩ :=
      hnamed first.identity (by simp)
    obtain ⟨uri', huri', p', config', haddressed', hidentity'⟩ :=
      hnamed second.identity (by simp)
    obtain ⟨hscheme, hconfig⟩ := single uri huri uri' huri' p config p' config' haddressed haddressed'
    have hsame : first.identity = second.identity := by rw [hidentity, hidentity', hscheme, hconfig]
    simp [hsame] at hnodup

private theorem once_removeFiles {paths : List Bytes}
    (single : Single fs opener (.removeFiles paths)) :
    AtMostOne constructs (Removal.Batch.removeFiles fs paths opener) := by
  unfold Removal.Batch.removeFiles Removal.Batch.removeFilesWith
  cases hgroups : groupOpenDALRemovePaths paths (createOperatorConfig fs · · opener) with
  | error e => trivial
  | ok groups =>
    have hlength := one_group single hgroups
    change AtMostOne constructs (Removal.Batch.removeGroups opener groups)
    match groups with
    | [] => trivial
    | [group] =>
      rw [Removal.Batch.removeGroups]
      cases operatorOptions opener with
      | error e => trivial
      | ok options =>
        refine AtMostOne.after_quiet (p := call (.construct _)) ⟨rfl, fun _ => trivial⟩ fun _ => ?_
        exact AtMostOne.bind (once_call _) fun _ => trivial
    | _ :: _ :: _ => simp at hlength

variable (fs opener)

theorem program_once {operation : FileOperation} (single : Single fs opener operation) :
    AtMostOne constructs (operation.program fs opener) := by
  cases operation with
  | openFile path flags => exact single.elim
  | fileExists path =>
    exact AtMostOne.bind (once_probe fun op path => once_call _) fun _ => trivial
  | directoryExists path =>
    refine AtMostOne.bind (once_probe fun op path => ?_) fun _ => trivial
    exact AtMostOne.bind (once_call _) fun _ => trivial
  | createDirectory path | createDirectoriesRecursive path =>
    exact AtMostOne.bind (once_unless_empty _ fun op path => once_call (.createDir op path))
      fun _ => trivial
  | listFiles path =>
    refine AtMostOne.bind (once_unless_empty (fun op path => do
      let entries ← call (.list op path)
      return (entries.map Directories.Listing.report, true)) fun op path => ?_) fun _ => trivial
    exact AtMostOne.bind (once_call (.list op path)) fun _ => trivial
  | moveFile source target => exact AtMostOne.bind (once_moveFile single) fun _ => trivial
  | removeDirectory path | removeFile path =>
    exact AtMostOne.bind (once_unless_empty _ fun op path => once_call (.remove op path))
      fun _ => trivial
  | removeFiles paths => exact AtMostOne.bind (once_removeFiles single) fun _ => trivial
  | tryRemoveFile path =>
    refine AtMostOne.bind (once_probe fun op path => ?_) fun _ => trivial
    exact AtMostOne.bind (once_call _) fun _ => trivial

end Operations

theorem silent_of_constructs {σ : Type} {backend : Backend σ}
    (silent : ∀ op, Silent backend (.construct op)) (c : OpenDALCall) (quiet : constructs c = true) :
    Silent backend c := by
  cases c with
  | construct op => exact silent op
  | _ => cases quiet

def programsOf [StringUtil] (fs : OpenDALFileSystem) (opener : Option FileOpener)
    (operations : List FileOperation) : List (FileSystemM FileAnswer) :=
  operations.map (FileOperation.program fs opener)

theorem programsOf_once [StringUtil] {fs : OpenDALFileSystem} {opener : Option FileOpener}
    {operations : List FileOperation}
    (single : ∀ operation ∈ operations, Single fs opener operation) :
    ∀ p ∈ programsOf fs opener operations, AtMostOne constructs p := by
  intro p hp
  obtain ⟨operation, hoperation, rfl⟩ := List.mem_map.mp hp
  exact program_once fs opener (single operation hoperation)

/-- Threads run operations of one call each, over any backend that makes operators without touching
its state. Every schedule is a serial run of whole operations: there is an order of them that grows
with the schedule, by the thread of a step or not at all, in which the backend ends in the same
state and every operation that has ended is answered as it was; no more than one operation of a
thread is ahead of its answer. -/
theorem operations_linearizable {σ ι : Type} [DecidableEq ι] [StringUtil] {backend : Backend σ}
    (silent : ∀ op, Silent backend (.construct op)) (fs : OpenDALFileSystem)
    (openers : ι → Option FileOpener) (operations : ι → List FileOperation)
    (single : ∀ i, ∀ operation ∈ operations i, Single fs (openers i) operation) (w : σ) :
    ∃ order : List ι → List ι, order [] = [] ∧
      (∀ schedule i, order (schedule ++ [i]) = order schedule ∨
        order (schedule ++ [i]) = order schedule ++ [i]) ∧
      ∀ schedule i,
        let programs (i : ι) := programsOf fs (openers i) (operations i)
        let ended := interleave backend (fun i => ⟨programs i, []⟩, w) schedule
        let serial := serially (alone backend) (fun i => ⟨programs i, []⟩, w) (order schedule)
        ended.2 = serial.2 ∧ (ended.1 i).answers <+: (serial.1 i).answers ∧
          (serial.1 i).answers.length ≤ (ended.1 i).answers.length + 1 ∧
          ((ended.1 i).programs = [] → (ended.1 i).answers = (serial.1 i).answers) :=
  ⟨effects constructs backend _ fun _ => false, rfl, effects_concat _ _,
    interleave_serial (silent_of_constructs silent) (fun i => programsOf_once (single i)) w⟩

theorem operations_linearizable_race :
    letI : StringUtil := percentDecoding
    let operations : Bool → List FileOperation := fun i =>
      if i then [.moveFile (bytes "gs://b/a") (bytes "gs://b/b"), .fileExists (bytes "gs://b/a")]
      else [.removeFile (bytes "gs://b/a"), .fileExists (bytes "gs://b/b")]
    let programs (i : Bool) := programsOf {} none (operations i)
    let w : Store Bytes Bytes := put (fun _ => none) (bytes "a") (bytes "data")
    let ended := interleave (storeBackend byPath) (fun i => ⟨programs i, []⟩, w)
      [true, false, false, true, false, true, false, true, false, true, true, false, true]
    ∃ order : List Bool,
      let serial := serially (alone (storeBackend byPath)) (fun i => ⟨programs i, []⟩, w) order
      ended.2 = serial.2 ∧ (ended.1 false).answers = (serial.1 false).answers := by
  let _ : StringUtil := percentDecoding
  intro operations programs w ended
  have hschemes : (OpenDALPath.tryParse (bytes "gs://b/a") {}).2.scheme =
      (OpenDALPath.tryParse (bytes "gs://b/b") {}).2.scheme := by decide +kernel
  have hsingle (i : Bool) : ∀ operation ∈ operations i, Single {} none operation := by
    intro operation hoperation
    cases i with
    | true =>
      simp only [operations, ↓reduceIte, List.mem_cons, List.not_mem_nil, or_false] at hoperation
      rcases hoperation with rfl | rfl
      · intro s t hs ht
        rwa [hs, ht] at hschemes
      · trivial
    | false =>
      simp only [operations, Bool.false_eq_true, ↓reduceIte, List.mem_cons, List.not_mem_nil,
        or_false] at hoperation
      rcases hoperation with rfl | rfl <;> trivial
  have hended : (ended.1 false).programs = [] := List.isEmpty_iff.mp (by decide +kernel)
  have hsilent (op : Operator) : Silent (storeBackend byPath) (.construct op) :=
    ⟨fun w => rfl, fun w w' => rfl⟩
  obtain ⟨order, -, -, horder⟩ := operations_linearizable hsilent {} (fun _ => none) operations
    hsingle w
  obtain ⟨hstate, -, -, hanswers⟩ := horder
    [true, false, false, true, false, true, false, true, false, true, true, false, true] false
  exact ⟨_, hstate, hanswers hended⟩

end DuckdbOpendalfs.FileSystem.Linearizable
