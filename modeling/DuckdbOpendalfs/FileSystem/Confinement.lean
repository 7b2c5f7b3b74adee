/- DuckdbOpendalfs/FileSystem/Confinement
   digest: Whatever it is answered, an operation calls for nothing but the objects of its URIs. -/

import DuckdbOpendalfs.Execution.Footprints
import DuckdbOpendalfs.FileSystem.Operations

set_option autoImplicit false
set_option relaxedAutoImplicit false

namespace DuckdbOpendalfs.FileSystem.Confinement

open Text.ByteString
open Collections.StableGrouping
open Execution.Programs Execution.Footprints
open Address.Uri Address.ParseSpec
open Operators.LayerOptions Operators.Configuration Operators.Objects
open Handles.FileHandle Handles.OpenFile
open Removal.Batch (contributes_of_forall₂)
open Removal.Groups (Contributes groupRemovePaths_ok Identity OpenDALRemoveGroup
  groupOpenDALRemovePaths)
open Operations

section Operators

variable [StringUtil] {P : OpenDALCall → Prop} {α : Type}

theorem createOperatorWith_bind (provider : OpenDALOperatorConfigProvider) (uri : Bytes)
    (r : OpenDALPath) (opener : Option FileOpener) (f : Operator × OpenDALPath → FileSystemM α) :
    createOperatorWith provider uri r opener >>= f =
      match operatorPlan provider uri r opener with
      | .error e => .fail e
      | .ok plan => .call (.construct plan.1) fun _ => f plan := by
  unfold createOperatorWith operatorPlan
  rcases OpenDALPath.tryParse uri r with ⟨accepted, p⟩
  cases accepted with
  | false => rfl
  | true =>
    dsimp only
    cases provider uri p with
    | error e => rfl
    | ok config => cases operatorOptions opener <;> rfl

theorem issues_createOperatorWith {provider : OpenDALOperatorConfigProvider} {uri : Bytes}
    {r : OpenDALPath} {opener : Option FileOpener} {f : Operator × OpenDALPath → FileSystemM α}
    (planned : ∀ op p, operatorPlan provider uri r opener = .ok (op, p) →
      P (.construct op) ∧ Issues P (f (op, p))) :
    Issues P (createOperatorWith provider uri r opener >>= f) := by
  rw [createOperatorWith_bind]
  cases hplan : operatorPlan provider uri r opener with
  | error e => trivial
  | ok plan => exact ⟨(planned plan.1 plan.2 hplan).1, fun _ => (planned plan.1 plan.2 hplan).2⟩

end Operators

section Calls

variable {κ : Type} {locate : Bytes → StringMapValue → Bytes → κ} {reached written : Set κ}
  {moving : Prop}

def Plain (c : OpenDALCall) : Prop := ∀ op path data, c = .write op path data → data = []

/-- A call stays at some objects, and it writes contents only in a move. -/
def Stays (locate : Bytes → StringMapValue → Bytes → κ) (reached written : Set κ) (moving : Prop)
    (c : OpenDALCall) : Prop :=
  Within (reaches locate) (writes locate) reached written c ∧ (moving ∨ Plain c)

private theorem stays_construct (op : Operator) :
    Stays locate reached written moving (.construct op) :=
  ⟨⟨Set.empty_subset _, Set.empty_subset _⟩, Or.inr (by rintro op path data ⟨⟩)⟩

private theorem stays_look {c : OpenDALCall} {k : κ} (looks : reaches locate c = {k})
    (changes : writes locate c = ∅) (member : k ∈ reached) :
    Stays locate reached written moving c := by
  have hplain : Plain c := by
    rintro op path data rfl
    exact absurd changes (Set.singleton_ne_empty _)
  refine ⟨⟨?_, ?_⟩, Or.inr hplain⟩
  · rw [looks]
    exact Set.singleton_subset_iff.mpr member
  · rw [changes]
    exact Set.empty_subset _

private theorem stays_change {c : OpenDALCall} {k : κ} (looks : reaches locate c = {k})
    (changes : writes locate c = {k}) (plain : moving ∨ Plain c) (member : k ∈ reached)
    (changed : k ∈ written) : Stays locate reached written moving c := by
  refine ⟨⟨?_, ?_⟩, plain⟩
  · rw [looks]
    exact Set.singleton_subset_iff.mpr member
  · rw [changes]
    exact Set.singleton_subset_iff.mpr changed

private theorem issues_call {c : OpenDALCall} (stays : Stays locate reached written moving c) :
    Issues (Stays locate reached written moving) (call c) := ⟨stays, fun _ => trivial⟩

end Calls

section Objects

variable {κ : Type} {locate : Bytes → StringMapValue → Bytes → κ} [StringUtil]
  {fs : OpenDALFileSystem} {opener : Option FileOpener} {uri : Bytes} {op : Operator}
  {p : OpenDALPath} {reached written : Set κ} {moving : Prop}

theorem addressed_of_plan {r : OpenDALPath}
    (plan : operatorPlan (createOperatorConfig fs · · opener) uri r opener = .ok (op, p)) :
    Addressed fs opener uri p op.config ∧ op.scheme = p.scheme := by
  obtain ⟨hparse, hconfig, -, hscheme⟩ := operatorPlan_ok_iff.mp plan
  exact ⟨⟨tryParse_again hparse {}, hconfig⟩, hscheme⟩

theorem object_mem_namedBy {r : OpenDALPath}
    (plan : operatorPlan (createOperatorConfig fs · · opener) uri r opener = .ok (op, p)) :
    object locate op p.path ∈ namedBy locate fs opener uri := by
  obtain ⟨haddressed, hscheme⟩ := addressed_of_plan plan
  exact ⟨p, op.config, haddressed, by rw [object, hscheme]⟩

private theorem issues_createOperator {α : Type} {r : OpenDALPath}
    {f : Operator × OpenDALPath → FileSystemM α}
    (at_object : ∀ op p, object locate op p.path ∈ namedBy locate fs opener uri →
      Addressed fs opener uri p op.config → op.scheme = p.scheme →
        Issues (Stays locate reached written moving) (f (op, p))) :
    Issues (Stays locate reached written moving) (createOperator fs uri r opener >>= f) := by
  refine issues_createOperatorWith fun op p plan => ⟨stays_construct op, ?_⟩
  obtain ⟨haddressed, hscheme⟩ := addressed_of_plan plan
  exact at_object op p (object_mem_namedBy plan) haddressed hscheme

private theorem issues_probe {ask : Operator → Bytes → FileSystemM Bool}
    (asks : ∀ op path, object locate op path ∈ namedBy locate fs opener uri →
      Issues (Stays locate reached written moving) (ask op path)) :
    Issues (Stays locate reached written moving) (Directories.Probes.probe ask fs uri opener) := by
  unfold Directories.Probes.probe
  split
  · trivial
  · split_ifs
    · trivial
    · exact issues_createOperator fun op p member _ _ => asks op p.path member

private theorem issues_unless_empty {α : Type} {e : Exception}
    (ask : Operator → Bytes → FileSystemM α)
    (asks : ∀ op p, object locate op p.path ∈ namedBy locate fs opener uri →
      Addressed fs opener uri p op.config → op.scheme = p.scheme →
        Issues (Stays locate reached written moving) (ask op p.path)) :
    Issues (Stays locate reached written moving) (do
      let (op, p) ← createOperator fs uri {} opener
      if p.path.isEmpty then .fail e else ask op p.path) := by
  refine issues_createOperator fun op p member addressed scheme => ?_
  dsimp only
  split_ifs
  · trivial
  · exact asks op p member addressed scheme

private theorem issues_openFile {flags : FileOpenFlags}
    (inside : namedBy locate fs opener uri ⊆ reached)
    (changes : flags.createFileIfNotExists = true ∨ flags.overwriteExistingFile = true →
      namedBy locate fs opener uri ⊆ written) :
    Issues (Stays locate reached written moving) (openFile fs uri flags opener) := by
  unfold openFile
  dsimp only
  split_ifs
  · trivial
  · trivial
  refine issues_createOperator fun op p member _ _ => ?_
  dsimp only
  split_ifs
  · trivial
  refine ⟨stays_look rfl rfl (inside member), fun present => ?_⟩
  dsimp only [Program.bind]
  by_cases hmissing : (!present && !(OpenDALOpenOptions.ofFlags flags).create) = true
  · rw [if_pos hmissing]
    split_ifs <;> trivial
  rw [if_neg hmissing]
  by_cases hread : (OpenDALOpenOptions.ofFlags flags).read = true
  · rw [if_pos hread]
    refine issues_bind (issues_call (stays_look rfl rfl (inside member))) fun metadata => ?_
    refine issues_bind ?_ fun metadata_p => ⟨stays_look rfl rfl (inside member), fun _ => trivial⟩
    cases convertMetadata metadata <;> trivial
  rw [if_neg hread]
  have hwriter : Issues (Stays locate reached written moving) (do
      call (.getWriter op p.path)
      return some (OpenedFile.write (Handles.WriteHandle.OpenDALWriteHandle.opened flags))) :=
    ⟨stays_look rfl rfl (inside member), fun _ => trivial⟩
  unfold openForWriting
  by_cases hempty : (!present || (OpenDALOpenOptions.ofFlags flags).truncate) = true
  · have hflags : flags.createFileIfNotExists = true ∨ flags.overwriteExistingFile = true := by
      cases present with
      | false =>
        rw [Bool.not_false, Bool.true_and, Bool.not_eq_true', Bool.not_eq_false] at hmissing
        exact Bool.or_eq_true_iff.mp hmissing
      | true => exact Or.inr (by simpa [OpenDALOpenOptions.ofFlags] using hempty)
    rw [if_pos hempty]
    have hplain : Plain (.write op p.path []) := by
      rintro op' path' data heq
      cases heq
      rfl
    exact ⟨stays_change rfl rfl (Or.inr hplain) (inside member) (changes hflags member),
      fun _ => hwriter⟩
  · rw [if_neg hempty]
    exact hwriter

theorem uri_of_item {provider : OpenDALOperatorConfigProvider} {uris : List Bytes}
    {items : List (Identity × Bytes)} (contribute : List.Forall₂ (Contributes provider) uris items)
    {item : Identity × Bytes} (member : item ∈ items) :
    ∃ uri ∈ uris, Contributes provider uri item := by
  induction contribute with
  | nil => cases member
  | cons first _ ih =>
    rcases List.mem_cons.mp member with rfl | hlater
    · exact ⟨_, List.mem_cons_self, first⟩
    · obtain ⟨uri, huri, hcontributes⟩ := ih hlater
      exact ⟨uri, List.mem_cons_of_mem _ huri, hcontributes⟩

private theorem issues_removeFiles {uris : List Bytes}
    (inside : ∀ uri ∈ uris, namedBy locate fs opener uri ⊆ reached)
    (changed : ∀ uri ∈ uris, namedBy locate fs opener uri ⊆ written) :
    Issues (Stays locate reached written moving) (Removal.Batch.removeFiles fs uris opener) := by
  unfold Removal.Batch.removeFiles Removal.Batch.removeFilesWith
  cases hgroups : groupOpenDALRemovePaths uris (createOperatorConfig fs · · opener) with
  | error e => trivial
  | ok groups =>
    obtain ⟨items, hitems, hview⟩ := groupRemovePaths_ok hgroups
    have hnamed : ∀ group ∈ groups, ∀ path ∈ group.paths, ∃ uri ∈ uris,
        locate group.scheme group.config.toFinmap path ∈ namedBy locate fs opener uri := by
      intro group hgroup path hpath
      have hmem : (group.identity, path) ∈
          (stablePartition items).flatMap fun group => group.2.map fun b => (group.1, b) := by
        rw [← hview, List.flatMap_map]
        exact List.mem_flatMap.mpr ⟨group, hgroup, List.mem_map_of_mem hpath⟩
      have hitem : (group.identity, path) ∈ items := mem_flatten_stablePartition.mp hmem
      obtain ⟨uri, huri, parsed, config, hparse, -, hconfig, heq⟩ := uri_of_item hitems hitem
      obtain ⟨hidentity, rfl⟩ := Prod.mk.inj heq
      obtain ⟨hscheme, hconfig'⟩ := Prod.mk.inj hidentity
      exact ⟨uri, huri, parsed, config, ⟨hparse, hconfig⟩, by rw [hscheme, hconfig']⟩
    clear hgroups hview
    induction groups with
    | nil => trivial
    | cons group groups ih =>
      have hstays (options : List OperatorOption) : Stays locate reached written moving
          (.removeAll ⟨group.scheme, group.config, options⟩ group.paths) := by
        refine ⟨⟨?_, ?_⟩, Or.inr (by rintro op path data ⟨⟩)⟩
        all_goals
          rintro k ⟨path, hpath, rfl⟩
          obtain ⟨uri, huri, hmember⟩ := hnamed group List.mem_cons_self path hpath
        · exact inside uri huri hmember
        · exact changed uri huri hmember
      have hrest := ih fun g hg => hnamed g (List.mem_cons_of_mem _ hg)
      change Issues _ (Removal.Batch.removeGroups opener (group :: groups))
      rw [Removal.Batch.removeGroups]
      cases operatorOptions opener with
      | error e => trivial
      | ok options =>
        exact ⟨stays_construct _, fun _ => ⟨hstays options, fun _ => hrest⟩⟩

private theorem issues_moveFile {source target : Bytes} (isMove : moving)
    (sourceInside : namedBy locate fs opener source ⊆ reached)
    (sourceChanged : namedBy locate fs opener source ⊆ written)
    (targetInside : movedTo locate fs opener source target ⊆ reached)
    (targetChanged : movedTo locate fs opener source target ⊆ written) :
    Issues (Stays locate reached written moving) (Move.MoveFile.moveFile fs source target opener) := by
  unfold Move.MoveFile.moveFile
  rcases hsource : OpenDALPath.tryParse source {} with ⟨accepted, s⟩
  cases accepted with
  | false => trivial
  | true =>
    rcases htarget : OpenDALPath.tryParse target {} with ⟨accepted', t⟩
    cases accepted' with
    | false => trivial
    | true =>
      dsimp only
      split_ifs with hempty hscheme
      · trivial
      · -- One rename, inside the operator of the source.
        refine issues_createOperator fun op s' member addressed scheme => ?_
        obtain rfl : s = s' := (Prod.mk.inj (hsource.symm.trans addressed.1)).2
        have hschemes : s.scheme = t.scheme := by simpa using hscheme
        have hmoved : object locate op t.path ∈ movedTo locate fs opener source target := by
          refine ⟨s, op.config, t, op.config, addressed, htarget, ?_, ?_⟩
          · rw [object, scheme, hschemes]
          · rw [if_pos hschemes]
        have hboth (K : Set κ) (hs : namedBy locate fs opener source ⊆ K)
            (ht : movedTo locate fs opener source target ⊆ K) :
            {object locate op s.path, object locate op t.path} ⊆ K := by
          rintro k (rfl | rfl)
          · exact hs member
          · exact ht hmoved
        exact issues_call ⟨⟨hboth reached sourceInside targetInside,
          hboth written sourceChanged targetChanged⟩, Or.inl isMove⟩
      · have hschemes : s.scheme ≠ t.scheme := by simpa using hscheme
        refine issues_createOperator fun op s' member addressed scheme => ?_
        obtain rfl : s = s' := (Prod.mk.inj (hsource.symm.trans addressed.1)).2
        refine issues_createOperator fun op' t' member' addressed' scheme' => ?_
        obtain rfl : t = t' := (Prod.mk.inj (htarget.symm.trans addressed'.1)).2
        have hmoved : object locate op' t.path ∈ movedTo locate fs opener source target := by
          refine ⟨s, op.config, t, op'.config, addressed, htarget, ?_, ?_⟩
          · rw [object, scheme']
          · rw [if_neg hschemes]
            exact addressed'.2
        refine ⟨stays_look rfl rfl (sourceInside member), fun data => ?_⟩
        refine ⟨stays_change rfl rfl (Or.inl isMove) (targetInside hmoved) (targetChanged hmoved),
          fun _ => ?_⟩
        exact issues_call
          (stays_change rfl rfl (Or.inl isMove) (sourceInside member) (sourceChanged member))

variable (locate fs opener)

theorem program_stays (operation : FileOperation) :
    Issues (Stays locate (operation.objects locate fs opener) (operation.changes locate fs opener)
      (∃ source target, operation = .moveFile source target)) (operation.program fs opener) := by
  cases operation with
  | openFile path flags =>
    refine issues_bind (issues_openFile Set.Subset.rfl fun allowed => ?_) fun _ => trivial
    have hflags : (flags.createFileIfNotExists || flags.overwriteExistingFile) = true := by
      simpa using allowed
    rw [FileOperation.changes, if_pos hflags]
  | fileExists path =>
    refine issues_bind (issues_probe fun op path' member => ?_) fun _ => trivial
    exact issues_call (stays_look rfl rfl member)
  | directoryExists path =>
    refine issues_bind (issues_probe fun op path' member => ?_) fun _ => trivial
    exact ⟨stays_look rfl rfl member, fun _ => trivial⟩
  | createDirectory path | createDirectoriesRecursive path =>
    refine issues_bind (issues_unless_empty (fun op path => call (.createDir op path))
      fun op p member _ _ => ?_) fun _ => trivial
    exact issues_call (stays_change rfl rfl (Or.inr (by rintro op path data ⟨⟩)) member member)
  | listFiles path =>
    refine issues_bind (issues_unless_empty (fun op path => do
      let entries ← call (.list op path)
      return (entries.map Directories.Listing.report, true)) fun op p member addressed scheme => ?_)
      fun _ => trivial
    refine ⟨⟨⟨?_, Set.empty_subset _⟩, Or.inr (by rintro op path data ⟨⟩)⟩, fun _ => trivial⟩
    rintro k ⟨entry, hentry, rfl⟩
    exact ⟨p, op.config, entry, addressed, hentry, by rw [object, scheme]⟩
  | moveFile source target =>
    exact issues_bind (issues_moveFile ⟨source, target, rfl⟩ Set.subset_union_left
      Set.subset_union_left Set.subset_union_right Set.subset_union_right) fun _ => trivial
  | removeDirectory path | removeFile path =>
    refine issues_bind (issues_unless_empty (fun op path => call (.remove op path))
      fun op p member _ _ => ?_) fun _ => trivial
    exact issues_call (stays_change rfl rfl (Or.inr (by rintro op path data ⟨⟩)) member member)
  | removeFiles paths =>
    refine issues_bind (issues_removeFiles (fun uri huri k hk => ?_) fun uri huri k hk => ?_)
      fun _ => trivial
    · exact ⟨uri, huri, hk⟩
    · exact ⟨uri, huri, hk⟩
  | tryRemoveFile path =>
    refine issues_bind (issues_probe fun op path' member => ?_) fun _ => trivial
    exact ⟨stays_change rfl rfl (Or.inr (by rintro op path data ⟨⟩)) member member, fun _ => trivial⟩

theorem program_confined (operation : FileOperation) :
    Issues (Within (reaches locate) (writes locate) (operation.objects locate fs opener)
      (operation.changes locate fs opener)) (operation.program fs opener) :=
  (program_stays locate fs opener operation).mono fun _ stays => stays.1

end Objects

section Unhandled

variable [StringUtil] {fs : OpenDALFileSystem} {opener : Option FileOpener} {uri : Bytes}
  {P : OpenDALCall → Prop}

private theorem canHandleFile_eq_false (unhandled : canHandleFile uri = false) :
    ∃ r, OpenDALPath.tryParse uri {} = (false, r) :=
  ⟨_, Prod.ext unhandled rfl⟩

private theorem issues_unhandled {α : Type} (unhandled : canHandleFile uri = false)
    {provider : OpenDALOperatorConfigProvider} {f : Operator × OpenDALPath → FileSystemM α} :
    Issues P (createOperatorWith provider uri {} opener >>= f) := by
  obtain ⟨r, hparse⟩ := canHandleFile_eq_false unhandled
  rw [createOperatorWith, hparse]
  trivial

private theorem issues_probe_unhandled (unhandled : canHandleFile uri = false)
    (ask : Operator → Bytes → FileSystemM Bool) :
    Issues P (Directories.Probes.probe ask fs uri opener) := by
  obtain ⟨r, hparse⟩ := canHandleFile_eq_false unhandled
  rw [Directories.Probes.probe, hparse]
  trivial

private theorem issues_moveFile_unhandled {source target : Bytes}
    (unhandled : canHandleFile source = false ∨ canHandleFile target = false) :
    Issues P (Move.MoveFile.moveFile fs source target opener) := by
  unfold Move.MoveFile.moveFile
  split
  · trivial
  split
  · trivial
  rename_i hsource _ _ htarget
  -- Both URIs are parsed before either of them is given an operator.
  simp [canHandleFile, hsource, htarget] at unhandled

private theorem issues_removeFiles_unhandled {uris : List Bytes} (named : uri ∈ uris)
    (unhandled : canHandleFile uri = false) :
    Issues P (Removal.Batch.removeFiles fs uris opener) := by
  unfold Removal.Batch.removeFiles Removal.Batch.removeFilesWith
  cases hgroups : groupOpenDALRemovePaths uris (createOperatorConfig fs · · opener) with
  | error e => trivial
  | ok groups =>
    -- All URIs of a batch that is grouped are handled.
    obtain ⟨items, hitems, -⟩ := groupRemovePaths_ok hgroups
    obtain ⟨item, p, config, hparse, -⟩ := contributes_of_forall₂ hitems uri named
    rw [canHandleFile, hparse] at unhandled
    cases unhandled

/-- An operation on a URI that the file system does not handle, alone or among others, is over
before anything is called. -/
theorem program_unhandled (operation : FileOperation) (named : uri ∈ operation.uris)
    (unhandled : canHandleFile uri = false) :
    Issues (fun _ => False) (operation.program fs opener) := by
  cases operation with
  | openFile path flags =>
    obtain rfl := List.mem_singleton.mp named
    refine issues_bind ?_ fun _ => trivial
    unfold openFile
    dsimp only
    split_ifs
    · trivial
    · trivial
    · exact issues_unhandled unhandled
  | fileExists path | directoryExists path | tryRemoveFile path =>
    obtain rfl := List.mem_singleton.mp named
    exact issues_bind (issues_probe_unhandled unhandled _) fun _ => trivial
  | createDirectory path | createDirectoriesRecursive path | listFiles path | removeDirectory path
  | removeFile path =>
    obtain rfl := List.mem_singleton.mp named
    exact issues_bind (issues_unhandled unhandled) fun _ => trivial
  | moveFile source target =>
    refine issues_bind (issues_moveFile_unhandled ?_) fun _ => trivial
    rcases List.mem_pair.mp named with rfl | rfl
    · exact Or.inl unhandled
    · exact Or.inr unhandled
  | removeFiles paths =>
    exact issues_bind (issues_removeFiles_unhandled named unhandled) fun _ => trivial

end Unhandled

end DuckdbOpendalfs.FileSystem.Confinement
