/- DuckdbOpendalfs/Removal/FailedBatch
   digest: What a batch removal has removed where it fails, and that it can be tried again. -/

import DuckdbOpendalfs.Removal.Batch

set_option autoImplicit false
set_option relaxedAutoImplicit false

namespace DuckdbOpendalfs.Removal.FailedBatch

open Text.ByteString
open Collections.StableGrouping Collections.Stores
open Execution.Programs
open Address.Uri
open Operators.LayerOptions Operators.Configuration Operators.Objects
open Groups Batch

variable {κ : Type} [DecidableEq κ]

/-- A backend that may fail to construct an operator or to remove. A batch of paths that fails may
have removed some of them. -/
structure FailingBackend (locate : Bytes → StringMapValue → Bytes → κ)
    (backend : Backend (Store κ Bytes)) : Prop where
  construct : ∀ {op result w w'}, backend (.construct op) w = (result, w') → w' = w
  removeAll : ∀ {op paths w w'}, backend (.removeAll op paths) w = (.ok (), w') →
    w' = eraseAll w (paths.map (object locate op))
  removeAll_error : ∀ {op paths e w w'}, backend (.removeAll op paths) w = (.error e, w') →
    ∃ removed, removed ⊆ paths ∧ w' = eraseAll w (removed.map (object locate op))

def groupItems (group : OpenDALRemoveGroup) : List (Identity × Bytes) :=
  group.paths.map fun path => (group.identity, path)

def groupObjects (locate : Bytes → StringMapValue → Bytes → κ) (groups : List OpenDALRemoveGroup) :
    List κ :=
  (groups.flatMap groupItems).map (itemObject locate)

omit [DecidableEq κ] in
theorem groupObjects_append (locate : Bytes → StringMapValue → Bytes → κ)
    (groups groups' : List OpenDALRemoveGroup) :
    groupObjects locate (groups ++ groups') =
      groupObjects locate groups ++ groupObjects locate groups' := by
  rw [groupObjects, List.flatMap_append, List.map_append]
  rfl

def removeGroup (options : List OperatorOption) (group : OpenDALRemoveGroup) : FileSystemM Unit := do
  let op : Operator := { scheme := group.scheme, config := group.config, options := options }
  call (.construct op)
  call (.removeAll op group.paths)

/-- The calls for the groups before some one have returned, and their objects are removed. A call
for that one has thrown `e` when it had removed some of its paths, and nothing was called for the
others. -/
def StoppedAt (locate : Bytes → StringMapValue → Bytes → κ) (backend : Backend (Store κ Bytes))
    (options : List OperatorOption) (groups : List OpenDALRemoveGroup) (w : Store κ Bytes)
    (e : Exception) (w' : Store κ Bytes) : Prop :=
  ∃ done next later removed, groups = done ++ next :: later ∧
    (∀ front group rest, done = front ++ group :: rest →
      (removeGroup options group).run backend (eraseAll w (groupObjects locate front)) =
        (.ok (), eraseAll w (groupObjects locate (front ++ [group])))) ∧
    (removeGroup options next).run backend (eraseAll w (groupObjects locate done)) = (.error e, w') ∧
    removed ⊆ next.paths ∧
    w' = eraseAll w (groupObjects locate (done ++ [{ next with paths := removed }]))

variable {locate : Bytes → StringMapValue → Bytes → κ} {backend : Backend (Store κ Bytes)}

omit [DecidableEq κ] in
private theorem groupObjects_single (group : OpenDALRemoveGroup) (options : List OperatorOption) :
    groupObjects locate [group] =
      group.paths.map (object locate ⟨group.scheme, group.config, options⟩) := by
  rw [groupObjects, List.flatMap_cons, List.flatMap_nil, List.append_nil, groupItems, List.map_map]
  rfl

private theorem eraseAll_groups (w : Store κ Bytes) (group : OpenDALRemoveGroup)
    (groups : List OpenDALRemoveGroup) :
    eraseAll (eraseAll w (groupObjects locate [group])) (groupObjects locate groups) =
      eraseAll w (groupObjects locate (group :: groups)) := by
  rw [← eraseAll_append, ← groupObjects_append]
  rfl

theorem run_removeGroup (failing : FailingBackend locate backend) (options : List OperatorOption)
    (group : OpenDALRemoveGroup) (w : Store κ Bytes) :
    (removeGroup options group).run backend w =
        (.ok (), eraseAll w (groupObjects locate [group])) ∨
      ∃ e removed, removed ⊆ group.paths ∧ (removeGroup options group).run backend w =
        (.error e, eraseAll w (groupObjects locate [{ group with paths := removed }])) := by
  simp only [removeGroup, Program.run_bind, Program.run_perform, groupObjects_single _ options]
  rcases hconstruct : backend (.construct ⟨group.scheme, group.config, options⟩) w with ⟨e | done, w₁⟩
  · obtain rfl := failing.construct hconstruct
    exact Or.inr ⟨e, [], List.nil_subset _, rfl⟩
  obtain rfl := failing.construct hconstruct
  dsimp only
  rcases hremove : backend (.removeAll ⟨group.scheme, group.config, options⟩ group.paths) w₁ with
    ⟨e | done, w₂⟩
  · obtain ⟨removed, hremoved, rfl⟩ := failing.removeAll_error hremove
    exact Or.inr ⟨e, removed, hremoved, rfl⟩
  · rw [failing.removeAll hremove]
    exact Or.inl rfl

private theorem stoppedAt_first {options : List OperatorOption} {group : OpenDALRemoveGroup}
    (groups : List OpenDALRemoveGroup) {w : Store κ Bytes} {e : Exception} {removed : List Bytes}
    (some_of : removed ⊆ group.paths) (throws : (removeGroup options group).run backend w =
      (.error e, eraseAll w (groupObjects locate [{ group with paths := removed }]))) :
    StoppedAt locate backend options (group :: groups) w e
      (eraseAll w (groupObjects locate [{ group with paths := removed }])) := by
  refine ⟨[], group, groups, removed, rfl, fun front group' rest hdone => ?_, throws, some_of, rfl⟩
  simp at hdone

private theorem stoppedAt_cons {options : List OperatorOption} {group : OpenDALRemoveGroup}
    {groups : List OpenDALRemoveGroup} {w w' : Store κ Bytes} {e : Exception}
    (returns : (removeGroup options group).run backend w =
      (.ok (), eraseAll w (groupObjects locate [group])))
    (stopped : StoppedAt locate backend options groups
      (eraseAll w (groupObjects locate [group])) e w') :
    StoppedAt locate backend options (group :: groups) w e w' := by
  obtain ⟨done, next, later, removed, rfl, hdone, hnext, hremoved, hleft⟩ := stopped
  rw [eraseAll_groups] at hnext hleft
  refine ⟨group :: done, next, later, removed, rfl, fun front group' rest hsplit => ?_, hnext,
    hremoved, hleft⟩
  cases front with
  | nil =>
    obtain ⟨rfl, -⟩ := List.cons.inj hsplit
    exact returns
  | cons first front =>
    obtain ⟨rfl, hrest⟩ := List.cons.inj hsplit
    have hlater := hdone front group' rest hrest
    rwa [eraseAll_groups, eraseAll_groups] at hlater

omit [DecidableEq κ] in
private theorem run_removeGroups_cons {opener : Option FileOpener} {options : List OperatorOption}
    (accepted : operatorOptions opener = .ok options) (group : OpenDALRemoveGroup)
    (groups : List OpenDALRemoveGroup) (w : Store κ Bytes) :
    (removeGroups opener (group :: groups)).run backend w =
      match (removeGroup options group).run backend w with
      | (.error e, w') => (.error e, w')
      | (.ok _, w') => (removeGroups opener groups).run backend w' := by
  rw [removeGroups, accepted]
  simp only [removeGroup, Program.run_bind, Program.run_lift, Program.run_perform]
  rcases backend (.construct ⟨group.scheme, group.config, options⟩) w with ⟨e | done, w₁⟩
  · rfl
  dsimp only
  rcases backend (.removeAll ⟨group.scheme, group.config, options⟩ group.paths) w₁ with ⟨e | done, w₂⟩
  · rfl
  · rfl

theorem run_removeGroups_failing (failing : FailingBackend locate backend)
    {opener : Option FileOpener} {options : List OperatorOption}
    (accepted : operatorOptions opener = .ok options) (groups : List OpenDALRemoveGroup)
    (w : Store κ Bytes) :
    (removeGroups opener groups).run backend w = (.ok (), eraseAll w (groupObjects locate groups)) ∨
      ∃ e w', (removeGroups opener groups).run backend w = (.error e, w') ∧
        StoppedAt locate backend options groups w e w' := by
  induction groups generalizing w with
  | nil => exact Or.inl rfl
  | cons group groups ih =>
    rw [run_removeGroups_cons accepted]
    rcases run_removeGroup failing options group w with hreturns | ⟨e, removed, hsome, hthrows⟩
    · rw [hreturns]
      dsimp only
      rcases ih (eraseAll w (groupObjects locate [group])) with hall | ⟨e, w', hrun, hstopped⟩
      · rw [hall, eraseAll_groups]
        exact Or.inl rfl
      · exact Or.inr ⟨e, w', hrun, stoppedAt_cons hreturns hstopped⟩
    · rw [hthrows]
      exact Or.inr ⟨e, _, rfl, stoppedAt_first groups hsome hthrows⟩

private theorem eraseAll_again {ks ks' : List κ} (some_of : ∀ k ∈ ks, k ∈ ks') (w : Store κ Bytes) :
    eraseAll (eraseAll w ks) ks' = eraseAll w ks' := by
  funext k
  simp only [eraseAll_apply]
  by_cases hk : k ∈ ks
  · rw [if_pos (some_of k hk), if_pos (some_of k hk)]
  · rw [if_neg hk]

omit [DecidableEq κ] in
private theorem groupObjects_subset {done later : List OpenDALRemoveGroup}
    {next : OpenDALRemoveGroup} {removed : List Bytes} (some_of : removed ⊆ next.paths) :
    ∀ k ∈ groupObjects locate (done ++ [{ next with paths := removed }]),
      k ∈ groupObjects locate (done ++ next :: later) := by
  intro k hk
  obtain ⟨item, hitem, rfl⟩ := List.mem_map.mp hk
  obtain ⟨group, hgroup, hmember⟩ := List.mem_flatMap.mp hitem
  refine List.mem_map_of_mem (List.mem_flatMap.mpr ?_)
  rcases List.mem_append.mp hgroup with hdone | hnext
  · exact ⟨group, List.mem_append_left _ hdone, hmember⟩
  · obtain rfl := List.mem_singleton.mp hnext
    obtain ⟨path, hpath, rfl⟩ := List.mem_map.mp hmember
    exact ⟨next, List.mem_append_right _ List.mem_cons_self, List.mem_map_of_mem (some_of hpath)⟩

private theorem run_removeGroups_again (failing : FailingBackend locate backend)
    {opener : Option FileOpener} {options : List OperatorOption}
    (accepted : operatorOptions opener = .ok options) (groups : List OpenDALRemoveGroup)
    (w : Store κ Bytes) :
    eraseAll ((removeGroups opener groups).run backend w).2 (groupObjects locate groups) =
      eraseAll w (groupObjects locate groups) := by
  rcases run_removeGroups_failing failing accepted groups w with hall | ⟨e, w', hrun, hstopped⟩
  · rw [hall]
    exact eraseAll_again (fun k hk => hk) w
  · obtain ⟨done, next, later, removed, hsplit, -, -, hremoved, rfl⟩ := hstopped
    rw [hrun, hsplit]
    exact eraseAll_again (groupObjects_subset hremoved) w

section Lists

variable [StringUtil]

/-- Over a backend that may fail anywhere, a batch removal has removed all its objects when it
returns. When it throws, the list could not be grouped or the layer options not be read, and nothing
has changed; or it has gone through the groups of equal operators in the order of their first URIs
up to the first one for which a call throws, and throws that exception: the groups before that one
are removed, that one as far as the failing call has removed it, and the later ones not at all. -/
theorem removeFiles_stops_at_group (failing : FailingBackend locate backend)
    (provider : OpenDALOperatorConfigProvider) (opener : Option FileOpener) (uris : List Bytes)
    (w : Store κ Bytes) :
    let ended := (removeFilesWith provider uris opener).run backend w
    (∃ items, List.Forall₂ (Contributes provider) uris items ∧
      ended = (.ok (), eraseAll w (items.map (itemObject locate)))) ∨
    ∃ e, ended.1 = .error e ∧
      ((groupOpenDALRemovePaths uris provider = .error e ∧ ended.2 = w) ∨
        (operatorOptions opener = .error e ∧ ended.2 = w) ∨
        ∃ items groups options, List.Forall₂ (Contributes provider) uris items ∧
          groupOpenDALRemovePaths uris provider = .ok groups ∧
          groups.map (fun group => (group.identity, group.paths)) = stablePartition items ∧
          operatorOptions opener = .ok options ∧
          StoppedAt locate backend options groups w e ended.2) := by
  intro ended
  have hended : ended = (removeFilesWith provider uris opener).run backend w := rfl
  cases hgroups : groupOpenDALRemovePaths uris provider with
  | error e =>
    rw [hended, run_removeFilesWith_error hgroups]
    exact Or.inr ⟨e, rfl, Or.inl ⟨rfl, rfl⟩⟩
  | ok groups =>
    obtain ⟨items, hitems, hview⟩ := groupRemovePaths_ok hgroups
    have hitem : ∀ item : Identity × Bytes, item ∈ groups.flatMap groupItems ↔ item ∈ items :=
      mem_groupItems_iff hview
    have hall (finished : ended = (.ok (), eraseAll w (groupObjects locate groups))) :
        ended = (.ok (), eraseAll w (items.map (itemObject locate))) := by
      rw [finished]
      refine congrArg (Prod.mk _) (eraseAll_congr w fun k => ?_)
      simp only [groupObjects, List.mem_map, hitem]
    rw [run_removeFilesWith_ok hgroups] at hended
    cases hoptions : operatorOptions opener with
    | error e =>
      cases groups with
      | nil => exact Or.inl ⟨items, hitems, hall hended⟩
      | cons group groups =>
        -- The options are read in front of the first call.
        rw [hended, run_removeGroups_rejected hoptions]
        exact Or.inr ⟨e, rfl, Or.inr (Or.inl ⟨rfl, rfl⟩)⟩
    | ok options =>
      rcases run_removeGroups_failing failing hoptions groups w with hrun | ⟨e, w', hrun, hstopped⟩
      · exact Or.inl ⟨items, hitems, hall (hended.trans hrun)⟩
      · rw [hended, hrun]
        exact Or.inr ⟨e, rfl,
          Or.inr (Or.inr ⟨items, groups, options, hitems, rfl, hview, rfl, hstopped⟩)⟩

/-- A batch removal can be tried again after it has failed: over a backend that does not fail, the
second run answers and ends as if there had been no first one. -/
theorem removeFiles_again (failing : FailingBackend locate backend)
    {backend' : Backend (Store κ Bytes)} (laws : RemovalBackend locate backend')
    (provider : OpenDALOperatorConfigProvider) (opener : Option FileOpener) (uris : List Bytes)
    (w : Store κ Bytes) :
    (removeFilesWith provider uris opener).run backend'
        ((removeFilesWith provider uris opener).run backend w).2 =
      (removeFilesWith provider uris opener).run backend' w := by
  cases hgroups : groupOpenDALRemovePaths uris provider with
  | error e => rw [run_removeFilesWith_error hgroups opener w]
  | ok groups =>
    rw [run_removeFilesWith_ok hgroups, run_removeFilesWith_ok hgroups,
      run_removeFilesWith_ok hgroups]
    cases hoptions : operatorOptions opener with
    | error e =>
      -- Without layer options the first run stops in front of its first call.
      have hsame : ((removeGroups opener groups).run backend w).2 = w := by
        cases groups with
        | nil => rfl
        | cons group groups => rw [run_removeGroups_rejected hoptions]
      rw [hsame]
    | ok options =>
      rw [run_removeGroups laws hoptions, run_removeGroups laws hoptions]
      exact congrArg (Prod.mk _) (run_removeGroups_again failing hoptions groups w)

end Lists

def brokenBackend (locate : Bytes → StringMapValue → Bytes → κ) : Backend (Store κ Bytes)
  | .removeAll op (path :: _ :: _), w => (.error notFound, erase w (object locate op path))
  | c, w => storeBackend locate c w

theorem brokenBackend_failing (locate : Bytes → StringMapValue → Bytes → κ) :
    FailingBackend locate (brokenBackend locate) where
  construct h := (Prod.mk.inj h).2.symm
  removeAll {op paths w w'} h := by
    match paths with
    | [] | [path] => exact (Prod.mk.inj h).2.symm
    | path :: _ :: _ => cases (Prod.mk.inj h).1
  removeAll_error {op paths e w w'} h := by
    match paths with
    | [] | [path] => cases (Prod.mk.inj h).1
    | path :: path' :: paths =>
      exact ⟨[path], List.cons_subset_cons path (List.nil_subset _), (Prod.mk.inj h).2.symm⟩

theorem removeFiles_stops_at_group_second :
    letI : StringUtil := percentDecoding
    let locate (_ : Bytes) (_ : StringMapValue) (path : Bytes) : Bytes := path
    let provider : OpenDALOperatorConfigProvider := fun _ path => .ok path.uriConfig
    let uris := [bytes "gs://d/a", bytes "s3://b/x", bytes "fs://c", bytes "s3://b/y"]
    let w : Store Bytes Bytes := fun _ => some []
    let ended := (removeFilesWith provider uris none).run (brokenBackend locate) w
    ended.1 = .error notFound ∧
      [bytes "a", bytes "x", bytes "y", bytes "c"].map ended.2 = [none, none, some [], some []] ∧
      ∃ items groups options, List.Forall₂ (Contributes provider) uris items ∧
        groupOpenDALRemovePaths uris provider = .ok groups ∧
        groups.map (fun group => (group.identity, group.paths)) = stablePartition items ∧
        operatorOptions none = .ok options ∧
        StoppedAt locate (brokenBackend locate) options groups w notFound ended.2 := by
  let _ : StringUtil := percentDecoding
  intro locate provider uris w ended
  have hanswer : ended.1 = .error notFound := by decide +kernel
  have hleft : [bytes "a", bytes "x", bytes "y", bytes "c"].map ended.2 =
      [none, none, some [], some []] := by decide +kernel
  refine ⟨hanswer, hleft, ?_⟩
  have hplanned : ∀ e, groupOpenDALRemovePaths uris provider ≠ .error e := by
    have hgroups : (groupOpenDALRemovePaths uris provider).toOption.isSome = true := by
      decide +kernel
    intro e he
    rw [he] at hgroups
    cases hgroups
  rcases removeFiles_stops_at_group (brokenBackend_failing locate) provider none uris w with
    ⟨items, -, hreturned⟩ | ⟨e, hthrown, ⟨hgroups, -⟩ | ⟨hoptions, -⟩ | hstopped⟩
  · have hanswer' : ended.1 = .ok () := congrArg Prod.fst hreturned
    rw [hanswer] at hanswer'
    cases hanswer'
  · exact absurd hgroups (hplanned e)
  · cases hoptions
  · obtain rfl : notFound = e := Except.error.inj (hanswer.symm.trans hthrown)
    exact hstopped

theorem removeFiles_again_second :
    letI : StringUtil := percentDecoding
    let locate (_ : Bytes) (_ : StringMapValue) (path : Bytes) : Bytes := path
    let provider : OpenDALOperatorConfigProvider := fun _ path => .ok path.uriConfig
    let uris := [bytes "gs://d/a", bytes "s3://b/x", bytes "fs://c", bytes "s3://b/y"]
    let w : Store Bytes Bytes := fun _ => some []
    let ended := (removeFilesWith provider uris none).run (brokenBackend locate) w
    (removeFilesWith provider uris none).run (storeBackend locate) ended.2 =
      (removeFilesWith provider uris none).run (storeBackend locate) w := by
  let _ : StringUtil := percentDecoding
  intro locate provider uris w ended
  exact removeFiles_again (brokenBackend_failing locate) (storeBackend_removal locate) provider none
    uris w

end DuckdbOpendalfs.Removal.FailedBatch
