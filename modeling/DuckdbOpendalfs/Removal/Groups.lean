/- DuckdbOpendalfs/Removal/Groups
   digest: Grouping of removal paths by operator, and the naive stable partition it equals. -/

import DuckdbOpendalfs.Collections.Attempts
import DuckdbOpendalfs.Collections.StableGrouping
import DuckdbOpendalfs.Operators.Configuration
import DuckdbOpendalfs.Removal.GroupKey

set_option autoImplicit false
set_option relaxedAutoImplicit false

namespace DuckdbOpendalfs.Removal.Groups

open Text.ByteString
open Collections.Attempts Collections.StableGrouping
open Address.Prefixes Address.Uri
open Operators.LayerOptions Operators.Configuration
open GroupKey

structure OpenDALRemoveGroup where
  scheme : Bytes
  config : StringMap
  paths : List Bytes

structure GroupingState where
  groups : List OpenDALRemoveGroup := []
  groupIndex : AList (fun _ : Bytes => Nat) := ∅

def emptyObjectPath : Exception := .invalidInput (bytes "OpenDAL object path must not be empty")

/-- The part of the loop body that may throw: the parsed path and its operator configuration. -/
def planRemovePath [StringUtil] (config_provider_p : OpenDALOperatorConfigProvider)
    (path_string : Bytes) : Except Exception (OpenDALPath × StringMap) :=
  match OpenDALPath.tryParse path_string {} with
  | (false, _) => .error (unsupportedPrefix path_string)
  | (true, path) =>
    if path.path.isEmpty then .error emptyObjectPath
    else (config_provider_p path_string path).map fun operator_config => (path, operator_config)

/-- The rest of the loop body: a new group, or one more path of the group found by its key. -/
def GroupingState.add (state : GroupingState) (planned : OpenDALPath × StringMap) : GroupingState :=
  let group_key := createRemoveGroupKey planned.1.scheme planned.2
  match state.groupIndex.lookup group_key with
  | none =>
    { groups := state.groups ++
        [{ scheme := planned.1.scheme, config := planned.2, paths := [planned.1.path] }]
      groupIndex := state.groupIndex.insert group_key state.groups.length }
  | some index =>
    { state with
      groups := state.groups.modify index fun group =>
        { group with paths := group.paths ++ [planned.1.path] } }

def groupOpenDALRemovePaths [StringUtil] (paths_p : List Bytes)
    (config_provider_p : OpenDALOperatorConfigProvider) :
    Except Exception (List OpenDALRemoveGroup) :=
  (paths_p.foldlM
    (fun state path_string => (planRemovePath config_provider_p path_string).map state.add)
    ({} : GroupingState)).map (·.groups)

/-- An operator identity compares configurations as maps. -/
abbrev Identity := Bytes × StringMapValue

def OpenDALRemoveGroup.identity (group : OpenDALRemoveGroup) : Identity :=
  (group.scheme, group.config.toFinmap)

def removalItem (planned : OpenDALPath × StringMap) : Identity × Bytes :=
  ((planned.1.scheme, planned.2.toFinmap), planned.1.path)

section Invariant

private def view (group : OpenDALRemoveGroup) : Identity × List Bytes :=
  (group.identity, group.paths)

/-- The groups are the partition of the items, and the index finds each group by its key. -/
structure Files (state : GroupingState) (items : List (Identity × Bytes)) : Prop where
  groups : state.groups.map view = stablePartition items
  index : ∀ scheme config, state.groupIndex.lookup (createRemoveGroupKey scheme config) =
    position (state.groups.map view) (scheme, config.toFinmap)

theorem files_empty : Files {} [] where
  groups := rfl
  index := fun _ _ => rfl

private theorem add_of_none {state : GroupingState} {planned : OpenDALPath × StringMap}
    (absent : state.groupIndex.lookup (createRemoveGroupKey planned.1.scheme planned.2) = none) :
    state.add planned =
      { groups := state.groups ++
          [{ scheme := planned.1.scheme, config := planned.2, paths := [planned.1.path] }]
        groupIndex := state.groupIndex.insert
          (createRemoveGroupKey planned.1.scheme planned.2) state.groups.length } := by
  simp [GroupingState.add, absent]

private theorem add_of_some {state : GroupingState} {planned : OpenDALPath × StringMap} {i : Nat}
    (found : state.groupIndex.lookup (createRemoveGroupKey planned.1.scheme planned.2) = some i) :
    state.add planned =
      { state with groups := state.groups.modify i fun group =>
          { group with paths := group.paths ++ [planned.1.path] } } := by
  simp [GroupingState.add, found]

private theorem view_add {state : GroupingState} {items : List (Identity × Bytes)}
    (files : Files state items) (planned : OpenDALPath × StringMap) :
    (state.add planned).groups.map view =
      place (state.groups.map view) (removalItem planned) := by
  have hlookup := files.index planned.1.scheme planned.2
  unfold place
  cases hposition : position (state.groups.map view) (removalItem planned).1 with
  | none =>
    rw [add_of_none (hlookup.trans hposition)]
    simp [view, OpenDALRemoveGroup.identity, removalItem]
  | some i =>
    rw [add_of_some (hlookup.trans hposition)]
    apply List.ext_getElem?
    intro j
    simp only [List.getElem?_map, List.getElem?_modify]
    by_cases hj : i = j <;> cases state.groups[j]? <;>
      simp [hj, view, OpenDALRemoveGroup.identity, removalItem]

theorem files_add {state : GroupingState} {items : List (Identity × Bytes)}
    (files : Files state items) (planned : OpenDALPath × StringMap) :
    Files (state.add planned) (items ++ [removalItem planned]) := by
  have hgroups := view_add files planned
  have hlookup := files.index planned.1.scheme planned.2
  refine ⟨by rw [hgroups, files.groups, place_stablePartition], fun scheme config => ?_⟩
  have hlength : (state.groups.map view).length = state.groups.length := List.length_map _
  rw [hgroups, position_place, hlength]
  cases hposition : position (state.groups.map view) (removalItem planned).1 with
  | none =>
    rw [add_of_none (hlookup.trans hposition)]
    by_cases hkey : (scheme, config.toFinmap) = (removalItem planned).1
    · have hsame : createRemoveGroupKey scheme config =
          createRemoveGroupKey planned.1.scheme planned.2 :=
        groupKey_eq_iff.mpr (Prod.mk.inj hkey)
      rw [if_pos ⟨rfl, hkey⟩, hsame, AList.lookup_insert]
    · have hother : createRemoveGroupKey scheme config ≠
          createRemoveGroupKey planned.1.scheme planned.2 :=
        fun heq => hkey (Prod.ext (groupKey_eq_iff.mp heq).1 (groupKey_eq_iff.mp heq).2)
      rw [if_neg (fun h => hkey h.2), AList.lookup_insert_ne hother]
      exact files.index scheme config
  | some i =>
    rw [add_of_some (hlookup.trans hposition), if_neg (by simp)]
    exact files.index scheme config

theorem files_foldl (planned : List (OpenDALPath × StringMap)) :
    Files (planned.foldl GroupingState.add {}) (planned.map removalItem) := by
  induction planned using List.reverseRecOn with
  | nil => exact files_empty
  | append_singleton planned next ih =>
    rw [List.foldl_append, List.map_append]
    exact files_add ih next

end Invariant

section Specification

variable [StringUtil]

def Contributes (provider : OpenDALOperatorConfigProvider) (uri : Bytes)
    (item : Identity × Bytes) : Prop :=
  ∃ path config, OpenDALPath.tryParse uri {} = (true, path) ∧ path.path ≠ [] ∧
    provider uri path = .ok config ∧ item = ((path.scheme, config.toFinmap), path.path)

inductive RemovalFailure (provider : OpenDALOperatorConfigProvider) (uri : Bytes) : Exception → Prop
  | unsupported {r : OpenDALPath} (rejected : OpenDALPath.tryParse uri {} = (false, r)) :
      RemovalFailure provider uri (unsupportedPrefix uri)
  | emptyPath {path : OpenDALPath} (accepted : OpenDALPath.tryParse uri {} = (true, path))
      (empty : path.path = []) : RemovalFailure provider uri emptyObjectPath
  | provider {path : OpenDALPath} {e : Exception}
      (accepted : OpenDALPath.tryParse uri {} = (true, path)) (nonempty : path.path ≠ [])
      (thrown : provider uri path = .error e) : RemovalFailure provider uri e

theorem planRemovePath_ok_iff {provider : OpenDALOperatorConfigProvider} {uri : Bytes}
    {planned : OpenDALPath × StringMap} :
    planRemovePath provider uri = .ok planned ↔
      OpenDALPath.tryParse uri {} = (true, planned.1) ∧ planned.1.path ≠ [] ∧
        provider uri planned.1 = .ok planned.2 := by
  obtain ⟨path, config⟩ := planned
  unfold planRemovePath
  split
  · rename_i hparse
    simp [hparse]
  · rename_i path' hparse
    rw [hparse]
    by_cases hpath : path'.path = []
    · simp only [hpath, List.isEmpty_nil, ↓reduceIte, reduceCtorEq, false_iff]
      rintro ⟨heq, hne, -⟩
      exact hne ((Prod.mk.inj heq).2 ▸ hpath)
    · simp only [List.isEmpty_iff, hpath, ↓reduceIte]
      cases hprovider : provider uri path' with
      | error e =>
        simp only [Except.map, reduceCtorEq, false_iff]
        rintro ⟨heq, -, hok⟩
        rw [(Prod.mk.inj heq).2.symm, hprovider] at hok
        cases hok
      | ok config' =>
        simp only [Except.map, Except.ok.injEq, Prod.mk.injEq, true_and]
        constructor
        · rintro ⟨rfl, rfl⟩
          exact ⟨rfl, hpath, hprovider⟩
        · rintro ⟨rfl, -, hok⟩
          exact ⟨rfl, Except.ok.inj (hprovider.symm.trans hok)⟩

theorem planRemovePath_error_iff {provider : OpenDALOperatorConfigProvider} {uri : Bytes}
    {e : Exception} : planRemovePath provider uri = .error e ↔ RemovalFailure provider uri e := by
  constructor
  · intro h
    unfold planRemovePath at h
    split at h
    · rename_i hparse
      obtain rfl := Except.error.inj h
      exact .unsupported hparse
    · rename_i path hparse
      split at h
      · rename_i hempty
        obtain rfl := Except.error.inj h
        exact .emptyPath hparse (List.isEmpty_iff.mp hempty)
      · rename_i hempty
        cases hprovider : provider uri path with
        | error e' =>
          rw [hprovider] at h
          obtain rfl := Except.error.inj h
          exact .provider hparse (fun h => hempty (List.isEmpty_iff.mpr h)) hprovider
        | ok config =>
          rw [hprovider] at h
          cases h
  · intro h
    cases h with
    | unsupported rejected => simp [planRemovePath, rejected]
    | emptyPath accepted empty => simp [planRemovePath, accepted, empty]
    | provider accepted nonempty thrown =>
      simp [planRemovePath, accepted, nonempty, thrown, Except.map]

theorem contributes_iff {provider : OpenDALOperatorConfigProvider} {uri : Bytes}
    {item : Identity × Bytes} :
    Contributes provider uri item ↔
      ∃ planned, planRemovePath provider uri = .ok planned ∧ removalItem planned = item := by
  constructor
  · rintro ⟨path, config, hparse, hpath, hprovider, rfl⟩
    exact ⟨(path, config), planRemovePath_ok_iff.mpr ⟨hparse, hpath, hprovider⟩, rfl⟩
  · rintro ⟨planned, hplanned, rfl⟩
    obtain ⟨hparse, hpath, hprovider⟩ := planRemovePath_ok_iff.mp hplanned
    exact ⟨planned.1, planned.2, hparse, hpath, hprovider, rfl⟩

theorem Contributes.not_failure {provider : OpenDALOperatorConfigProvider} {uri : Bytes}
    {item : Identity × Bytes} (contributes : Contributes provider uri item) (e : Exception) :
    ¬ RemovalFailure provider uri e := by
  intro failure
  obtain ⟨planned, hplanned, -⟩ := contributes_iff.mp contributes
  rw [planRemovePath_error_iff.mpr failure] at hplanned
  cases hplanned

theorem groupRemovePaths_eq (paths : List Bytes) (provider : OpenDALOperatorConfigProvider) :
    groupOpenDALRemovePaths paths provider =
      (attemptAll (planRemovePath provider) paths).map fun planned =>
        (planned.foldl GroupingState.add {}).groups := by
  unfold groupOpenDALRemovePaths
  rw [foldlM_attempt]
  cases attemptAll (planRemovePath provider) paths <;> rfl

theorem groupRemovePaths_error_iff {paths : List Bytes}
    {provider : OpenDALOperatorConfigProvider} {e : Exception} :
    groupOpenDALRemovePaths paths provider = .error e ↔
      ∃ front uri back, paths = front ++ uri :: back ∧
        (∀ before ∈ front, ∃ item, Contributes provider before item) ∧
        RemovalFailure provider uri e := by
  have hmap : groupOpenDALRemovePaths paths provider = .error e ↔
      attemptAll (planRemovePath provider) paths = .error e := by
    rw [groupRemovePaths_eq]
    cases attemptAll (planRemovePath provider) paths <;> simp [Except.map]
  have hfront (uri : Bytes) :
      (∃ planned, planRemovePath provider uri = .ok planned) ↔
        ∃ item, Contributes provider uri item := by
    simp only [contributes_iff]
    exact ⟨fun ⟨planned, h⟩ => ⟨_, planned, h, rfl⟩, fun ⟨_, planned, h, _⟩ => ⟨planned, h⟩⟩
  rw [hmap, attemptAll_error_iff]
  simp only [hfront, planRemovePath_error_iff]

theorem groupRemovePaths_ok {paths : List Bytes} {provider : OpenDALOperatorConfigProvider}
    {groups : List OpenDALRemoveGroup} (h : groupOpenDALRemovePaths paths provider = .ok groups) :
    ∃ items, List.Forall₂ (Contributes provider) paths items ∧
      groups.map (fun group => (group.identity, group.paths)) = stablePartition items := by
  rw [groupRemovePaths_eq] at h
  cases hplanned : attemptAll (planRemovePath provider) paths with
  | error e =>
    rw [hplanned] at h
    cases h
  | ok planned =>
    rw [hplanned] at h
    obtain rfl := Except.ok.inj h
    refine ⟨planned.map removalItem, ?_, (files_foldl planned).groups⟩
    rw [List.forall₂_map_right_iff]
    exact (attemptAll_ok_iff.mp hplanned).imp fun _ next hnext =>
      contributes_iff.mpr ⟨next, hnext, rfl⟩

/-- Grouping is the stable partition by operator identity, whatever the order in which the
configurations are iterated. -/
theorem groupRemovePaths_partition (paths : List Bytes)
    (provider : OpenDALOperatorConfigProvider) :
    (∀ e, groupOpenDALRemovePaths paths provider = .error e ↔
      ∃ front uri back, paths = front ++ uri :: back ∧
        (∀ before ∈ front, ∃ item, Contributes provider before item) ∧
        RemovalFailure provider uri e) ∧
    (∀ groups, groupOpenDALRemovePaths paths provider = .ok groups →
      ∃ items, List.Forall₂ (Contributes provider) paths items ∧
        groups.map OpenDALRemoveGroup.identity = firstOccurrences (items.map Prod.fst) ∧
        (groups.map OpenDALRemoveGroup.identity).Nodup ∧
        ∀ group ∈ groups, group.paths ≠ [] ∧
          group.paths = (items.filter fun item => item.1 = group.identity).map Prod.snd) := by
  refine ⟨fun e => groupRemovePaths_error_iff, fun groups h => ?_⟩
  obtain ⟨items, hitems, hview⟩ := groupRemovePaths_ok h
  have hidentities : groups.map OpenDALRemoveGroup.identity =
      (stablePartition items).map Prod.fst := by
    rw [← hview, List.map_map]
    rfl
  refine ⟨items, hitems, ?_, ?_, fun group hgroup => ?_⟩
  · rw [hidentities, stablePartition_keys]
  · rw [hidentities]
    exact stablePartition_nodup _
  · have hmem : (group.identity, group.paths) ∈ stablePartition items := by
      rw [← hview]
      exact List.mem_map_of_mem hgroup
    exact ⟨members_ne_nil hmem, members_eq_of_mem hmem⟩

end Specification

theorem groupRemovePaths_partition_buckets :
    letI : StringUtil := percentDecoding
    let paths := [bytes "s3://first/a.parquet", bytes "s3://second/b.parquet",
      bytes "s3://first/c.parquet"]
    let provider : OpenDALOperatorConfigProvider := fun _ path => .ok path.uriConfig
    ∃ groups items, groupOpenDALRemovePaths paths provider = .ok groups ∧
      List.Forall₂ (Contributes provider) paths items ∧
      groups.map OpenDALRemoveGroup.identity = firstOccurrences (items.map Prod.fst) := by
  let _ : StringUtil := percentDecoding
  intro paths provider
  have hok : (groupOpenDALRemovePaths paths provider).isOk = true := by decide +kernel
  cases hgroups : groupOpenDALRemovePaths paths provider with
  | error e =>
    rw [hgroups] at hok
    cases hok
  | ok groups =>
    obtain ⟨items, hitems, hidentities, -⟩ :=
      (groupRemovePaths_partition paths provider).2 groups hgroups
    exact ⟨groups, items, rfl, hitems, hidentities⟩

end DuckdbOpendalfs.Removal.Groups
