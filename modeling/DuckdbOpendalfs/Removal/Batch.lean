/- DuckdbOpendalfs/Removal/Batch
   digest: Batch removal reaches the store of one-by-one removal, or throws before it deletes. -/

import DuckdbOpendalfs.Operators.Objects
import DuckdbOpendalfs.Removal.Groups

set_option autoImplicit false
set_option relaxedAutoImplicit false

namespace DuckdbOpendalfs.Removal.Batch

open Text.ByteString
open Collections.Attempts Collections.StableGrouping Collections.Stores
open Execution.Programs
open Address.Prefixes Address.Uri
open Operators.LayerOptions Operators.Configuration Operators.Objects
open Groups

section Functions

variable [StringUtil]

def removeFileWith (provider : OpenDALOperatorConfigProvider) (path_p : Bytes)
    (opener_p : Option FileOpener) : FileSystemM Unit := do
  let (op, parsed_path) ← createOperatorWith provider path_p {} opener_p
  if parsed_path.path.isEmpty then .fail emptyObjectPath
  else call (.remove op parsed_path.path)

def removeFile (fs : OpenDALFileSystem) (path_p : Bytes) (opener_p : Option FileOpener) :
    FileSystemM Unit :=
  removeFileWith (createOperatorConfig fs · · opener_p) path_p opener_p

def removeGroups (opener_p : Option FileOpener) : List OpenDALRemoveGroup → FileSystemM Unit
  | [] => pure ()
  | group :: groups => do
    let options ← operatorOptions opener_p
    let op : Operator := { scheme := group.scheme, config := group.config, options := options }
    call (.construct op)
    call (.removeAll op group.paths)
    removeGroups opener_p groups

/-- `removeFiles` over any provider of configurations. -/
def removeFilesWith (provider : OpenDALOperatorConfigProvider) (paths_p : List Bytes)
    (opener_p : Option FileOpener) : FileSystemM Unit := do
  let groups ← groupOpenDALRemovePaths paths_p provider
  removeGroups opener_p groups

def removeFiles (fs : OpenDALFileSystem) (paths_p : List Bytes) (opener_p : Option FileOpener) :
    FileSystemM Unit :=
  removeFilesWith (createOperatorConfig fs · · opener_p) paths_p opener_p

def removeEach (provider : OpenDALOperatorConfigProvider) (opener_p : Option FileOpener) :
    List Bytes → FileSystemM Unit
  | [] => pure ()
  | uri :: uris => do
    removeFileWith provider uri opener_p
    removeEach provider opener_p uris

end Functions

section Backends

variable {κ : Type} [DecidableEq κ]

variable {locate : Bytes → StringMapValue → Bytes → κ} {backend : Backend (Store κ Bytes)}

def itemObject (locate : Bytes → StringMapValue → Bytes → κ) (item : Identity × Bytes) : κ :=
  locate item.1.1 item.1.2 item.2

theorem run_removeGroups (laws : RemovalBackend locate backend) {opener : Option FileOpener}
    {options : List OperatorOption} (accepted : operatorOptions opener = .ok options)
    (groups : List OpenDALRemoveGroup) (w : Store κ Bytes) :
    (removeGroups opener groups).run backend w =
      (.ok (), eraseAll w ((groups.flatMap fun group =>
        group.paths.map fun path => (group.identity, path)).map (itemObject locate))) := by
  induction groups generalizing w with
  | nil => rfl
  | cons group groups ih =>
    rw [removeGroups, accepted]
    simp only [Program.run_bind, Program.run_lift, Program.run_perform, laws.construct,
      laws.removeAll, ih, List.flatMap_cons, List.map_append, eraseAll_append, List.map_map]
    rfl

omit [DecidableEq κ] in
theorem run_removeGroups_rejected {opener : Option FileOpener} {e : Exception}
    (rejected : operatorOptions opener = .error e) (group : OpenDALRemoveGroup)
    (groups : List OpenDALRemoveGroup) (w : Store κ Bytes) :
    (removeGroups opener (group :: groups)).run backend w = (.error e, w) := by
  rw [removeGroups, rejected, Program.run_bind, Program.run_lift]

theorem mem_groupItems_iff {groups : List OpenDALRemoveGroup} {items : List (Identity × Bytes)}
    (partition : groups.map (fun group => (group.identity, group.paths)) = stablePartition items)
    (item : Identity × Bytes) :
    item ∈ (groups.flatMap fun group => group.paths.map fun path => (group.identity, path)) ↔
      item ∈ items := by
  have hflat : (groups.flatMap fun group => group.paths.map fun path => (group.identity, path)) =
      (stablePartition items).flatMap fun group => group.2.map fun path => (group.1, path) := by
    rw [← partition, List.flatMap_map]
  rw [hflat]
  exact mem_flatten_stablePartition

variable [StringUtil]

omit [DecidableEq κ] in
theorem run_removeFilesWith_error {provider : OpenDALOperatorConfigProvider} {uris : List Bytes}
    {e : Exception} (failed : groupOpenDALRemovePaths uris provider = .error e)
    (opener : Option FileOpener) (w : Store κ Bytes) :
    (removeFilesWith provider uris opener).run backend w = (.error e, w) := by
  rw [removeFilesWith, Program.run_bind, failed, Program.run_lift]

omit [DecidableEq κ] in
theorem run_removeFilesWith_ok {provider : OpenDALOperatorConfigProvider} {uris : List Bytes}
    {groups : List OpenDALRemoveGroup} (grouped : groupOpenDALRemovePaths uris provider = .ok groups)
    (opener : Option FileOpener) (w : Store κ Bytes) :
    (removeFilesWith provider uris opener).run backend w =
      (removeGroups opener groups).run backend w := by
  rw [removeFilesWith, Program.run_bind, grouped, Program.run_lift]

theorem run_removeFileWith (laws : RemovalBackend locate backend)
    {provider : OpenDALOperatorConfigProvider} {opener : Option FileOpener}
    {options : List OperatorOption} (accepted : operatorOptions opener = .ok options)
    {uri : Bytes} {item : Identity × Bytes} (contributes : Contributes provider uri item)
    (w : Store κ Bytes) :
    (removeFileWith provider uri opener).run backend w =
      (.ok (), erase w (itemObject locate item)) := by
  obtain ⟨path, config, hparse, hpath, hprovider, rfl⟩ := contributes
  have hplan : operatorPlan provider uri {} opener =
      .ok ({ scheme := path.scheme, config := config, options := options }, path) :=
    operatorPlan_ok_iff.mpr ⟨hparse, hprovider, accepted, rfl⟩
  unfold removeFileWith
  simp only [Program.run_bind, run_createOperatorWith, hplan, laws.construct, List.isEmpty_iff,
    hpath, ↓reduceIte, Program.run_perform, laws.remove]
  rfl

theorem run_removeEach (laws : RemovalBackend locate backend)
    {provider : OpenDALOperatorConfigProvider} {opener : Option FileOpener}
    {options : List OperatorOption} (accepted : operatorOptions opener = .ok options)
    {uris : List Bytes} {items : List (Identity × Bytes)}
    (contribute : List.Forall₂ (Contributes provider) uris items) (w : Store κ Bytes) :
    (removeEach provider opener uris).run backend w =
      (.ok (), eraseAll w (items.map (itemObject locate))) := by
  induction contribute generalizing w with
  | nil => rfl
  | cons first _ ih =>
    rw [removeEach, Program.run_bind, run_removeFileWith laws accepted first]
    exact ih _

def Removable (provider : OpenDALOperatorConfigProvider) (opener : Option FileOpener)
    (uris : List Bytes) : Prop :=
  (∀ uri ∈ uris, ∃ item, Contributes provider uri item) ∧
    ∃ options, operatorOptions opener = .ok options

theorem contributes_of_forall₂ {provider : OpenDALOperatorConfigProvider}
    {uris : List Bytes} {items : List (Identity × Bytes)}
    (contribute : List.Forall₂ (Contributes provider) uris items) :
    ∀ uri ∈ uris, ∃ item, Contributes provider uri item := by
  induction contribute with
  | nil => simp
  | cons first _ ih =>
    intro uri huri
    rcases List.mem_cons.mp huri with rfl | huri
    · exact ⟨_, first⟩
    · exact ih uri huri

private theorem uris_eq_nil {provider : OpenDALOperatorConfigProvider} {uris : List Bytes}
    {items : List (Identity × Bytes)} (contribute : List.Forall₂ (Contributes provider) uris items)
    (empty : stablePartition items = []) : uris = [] := by
  cases contribute with
  | nil => rfl
  | @cons uri item uris items first rest =>
    obtain ⟨group, hgroup, -⟩ := mem_stablePartition (List.mem_cons_self (a := item) (l := items))
    rw [empty] at hgroup
    cases hgroup

/-- Batch removal of URIs that name objects ends in the store of one-by-one removal. Of any other
non-empty list nothing is removed. -/
theorem removeFilesWith_eq_removeEach (laws : RemovalBackend locate backend)
    (provider : OpenDALOperatorConfigProvider) (opener : Option FileOpener) (uris : List Bytes)
    (w : Store κ Bytes) :
    (Removable provider opener uris →
      (removeFilesWith provider uris opener).run backend w =
          (removeEach provider opener uris).run backend w ∧
        ((removeFilesWith provider uris opener).run backend w).1 = .ok ()) ∧
    (¬ Removable provider opener uris → uris ≠ [] →
      ∃ e, (removeFilesWith provider uris opener).run backend w = (.error e, w)) := by
  constructor
  · rintro ⟨hall, options, accepted⟩
    cases hgroups : groupOpenDALRemovePaths uris provider with
    | error e =>
      obtain ⟨front, uri, back, rfl, -, hfailure⟩ := groupRemovePaths_error_iff.mp hgroups
      obtain ⟨item, hitem⟩ := hall uri (by simp)
      exact absurd hfailure (hitem.not_failure e)
    | ok groups =>
      obtain ⟨items, hitems, hview⟩ := groupRemovePaths_ok hgroups
      rw [run_removeFilesWith_ok hgroups, run_removeGroups laws accepted,
        run_removeEach laws accepted hitems]
      refine ⟨congrArg (Prod.mk _) (eraseAll_congr w fun k => ?_), rfl⟩
      simp only [List.mem_map, mem_groupItems_iff hview]
  · intro notRemovable nonempty
    cases hgroups : groupOpenDALRemovePaths uris provider with
    | error e => exact ⟨e, run_removeFilesWith_error hgroups opener w⟩
    | ok groups =>
      obtain ⟨items, hitems, hview⟩ := groupRemovePaths_ok hgroups
      rw [run_removeFilesWith_ok hgroups]
      cases accepted : operatorOptions opener with
      | ok options =>
        refine absurd ⟨fun uri huri => ?_, options, accepted⟩ notRemovable
        exact contributes_of_forall₂ hitems uri huri
      | error e =>
        cases groups with
        | nil => exact absurd (uris_eq_nil hitems hview.symm) nonempty
        | cons group groups => exact ⟨e, run_removeGroups_rejected accepted group groups w⟩

end Backends

theorem removeFilesWith_eq_removeEach_shared :
    letI : StringUtil := percentDecoding
    let backend := storeBackend fun _ _ path => path
    let provider : OpenDALOperatorConfigProvider := fun _ path => .ok path.uriConfig
    let uris := [bytes "gs://d/x", bytes "s3://b/x", bytes "gs://d/x"]
    let w : Store Bytes Bytes := fun _ => some []
    (removeFilesWith provider uris none).run backend w =
        (removeEach provider none uris).run backend w ∧
      ∃ e, (removeFilesWith provider (uris ++ [bytes "x"]) none).run backend w = (.error e, w) := by
  let _ : StringUtil := percentDecoding
  intro backend provider uris w
  have hlaws : RemovalBackend (fun _ _ path => path) backend := storeBackend_removal _
  have hcontributes (uri : Bytes) (haccepted : (OpenDALPath.tryParse uri {}).1 = true)
      (hpath : (OpenDALPath.tryParse uri {}).2.path ≠ []) : ∃ item, Contributes provider uri item :=
    ⟨_, _, _, Prod.ext haccepted rfl, hpath, rfl, rfl⟩
  have hremovable : Removable provider none uris := by
    refine ⟨fun uri huri => ?_, _, rfl⟩
    simp only [uris, List.mem_cons, List.not_mem_nil, or_false] at huri
    rcases huri with rfl | rfl | rfl <;>
      exact hcontributes _ (by decide +kernel) (by decide +kernel)
  have hfails : ¬ Removable provider none (uris ++ [bytes "x"]) := by
    rintro ⟨hall, -⟩
    obtain ⟨item, path, -, haccepted, -⟩ := hall (bytes "x") (by simp)
    have hrejected : (OpenDALPath.tryParse (bytes "x") {}).1 = false := by decide +kernel
    rw [haccepted] at hrejected
    cases hrejected
  exact ⟨((removeFilesWith_eq_removeEach hlaws provider none uris w).1 hremovable).1,
    (removeFilesWith_eq_removeEach hlaws provider none (uris ++ [bytes "x"]) w).2 hfails (by simp)⟩

end DuckdbOpendalfs.Removal.Batch
