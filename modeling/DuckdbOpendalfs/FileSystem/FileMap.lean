/- DuckdbOpendalfs/FileSystem/FileMap
   digest: Over a flat store of objects the operations on files are those of one map of contents. -/

import DuckdbOpendalfs.FileSystem.Linearizable
import DuckdbOpendalfs.FileSystem.RoundTrip

set_option autoImplicit false
set_option relaxedAutoImplicit false

namespace DuckdbOpendalfs.FileSystem.FileMap

open Text.ByteString
open Collections.Attempts Collections.StableGrouping Collections.Stores
open Execution.Programs Execution.Footprints Execution.Runs Execution.Threads Execution.Linearization
open Address.Uri
open Operators.LayerOptions Operators.Configuration Operators.Objects
open Handles.FileHandle Handles.OpenFile
open Removal.Groups Removal.Batch
open Operations Confinement Isolation Linearizable RoundTrip

section Actions

inductive MapAnswer
  | done
  | flag (answer : Bool)
  | missing
  | reading (size : Int)
  | writing
  deriving DecidableEq, Repr

/-- What an operation comes to before anything is looked up: an answer, or one action on objects. -/
inductive Action (κ : Type)
  | answered (answer : Except Exception MapAnswer)
  | probe (k : κ)
  | openObject (k : κ) (path_p : Bytes) (flags_p : FileOpenFlags)
  | remove (k : κ) (answer : MapAnswer)
  | removeAll (ks : List κ)
  | rename (source target : κ)
  | copy (source target : κ)

variable {κ : Type} [DecidableEq κ]

/-- An action on a map of contents. A copy onto itself removes the object. -/
def act (w : Store κ Bytes) : Action κ → Except Exception MapAnswer × Store κ Bytes
  | .answered answer => (answer, w)
  | .probe k => (.ok (.flag (w k).isSome), w)
  | .openObject k path_p flags_p =>
    match w k with
    | none =>
      if flags_p.createFileIfNotExists || flags_p.overwriteExistingFile then
        (.ok .writing, put w k [])
      else if flags_p.returnNullIfNotExists then (.ok .missing, w)
      else (.error (objectMissing path_p), w)
    | some data =>
      if flags_p.openForReading then (.ok (.reading data.length), w)
      else (.ok .writing, if flags_p.overwriteExistingFile then put w k [] else w)
  | .remove k answer => (.ok answer, erase w k)
  | .removeAll ks => (.ok .done, eraseAll w ks)
  | .rename source target =>
    match w source with
    | none => (.error notFound, w)
    | some _ => (.ok .done, relocate w source target)
  | .copy source target =>
    match w source with
    | none => (.error notFound, w)
    | some data => (.ok .done, erase (put w target data) source)

end Actions

section Resolution

variable {κ : Type} (locate : Bytes → StringMapValue → Bytes → κ) [StringUtil]
  (fs : OpenDALFileSystem) (opener : Option FileOpener)

def onObject (uri : Bytes) (noPath : Except Exception MapAnswer) (action : κ → Action κ) : Action κ :=
  match operatorPlan (createOperatorConfig fs · · opener) uri {} opener with
  | .error e => .answered (.error e)
  | .ok (op, p) =>
    if p.path.isEmpty then .answered noPath else action (object locate op p.path)

def onProbed (uri : Bytes) (action : κ → Action κ) : Action κ :=
  match OpenDALPath.tryParse uri {} with
  | (false, _) => .answered (.ok (.flag false))
  | (true, p) =>
    if p.path.isEmpty then .answered (.ok (.flag false))
    else onObject locate fs opener uri (.ok (.flag false)) action

def onMove (source target : Bytes) : Action κ :=
  match OpenDALPath.tryParse source {} with
  | (false, _) => .answered (.error (unsupportedPrefix source))
  | (true, s) =>
    match OpenDALPath.tryParse target {} with
    | (false, _) => .answered (.error (unsupportedPrefix target))
    | (true, t) =>
      if s.path.isEmpty || t.path.isEmpty then
        .answered (.error (.invalidInput (bytes "OpenDAL move paths must not be empty")))
      else
        match operatorPlan (createOperatorConfig fs · · opener) source {} opener with
        | .error e => .answered (.error e)
        | .ok (op, _) =>
          if s.scheme == t.scheme then .rename (object locate op s.path) (object locate op t.path)
          else
            match operatorPlan (createOperatorConfig fs · · opener) target {} opener with
            | .error e => .answered (.error e)
            | .ok (op', _) => .copy (object locate op s.path) (object locate op' t.path)

def onAll (uris : List Bytes) : Action κ :=
  match attemptAll (planRemovePath (createOperatorConfig fs · · opener)) uris with
  | .error e => .answered (.error e)
  | .ok planned =>
    if planned.isEmpty then .removeAll []
    else
      match operatorOptions opener with
      | .error e => .answered (.error e)
      | .ok _ => .removeAll (planned.map fun plan => itemObject locate (removalItem plan))

/-- The action of an operation on files. -/
def resolve : FileOperation → Option (Action κ)
  | .openFile uri flags =>
    some (if uri.isEmpty then .answered (.error emptyPath)
      else if !(OpenDALOpenOptions.ofFlags flags).isValid then .answered (.error invalidOptions)
      else onObject locate fs opener uri (.error Handles.OpenFile.emptyObjectPath)
        (.openObject · uri flags))
  | .fileExists uri => some (onProbed locate fs opener uri .probe)
  | .tryRemoveFile uri => some (onProbed locate fs opener uri (.remove · (.flag true)))
  | .removeFile uri =>
    some (onObject locate fs opener uri (.error Removal.Groups.emptyObjectPath) (.remove · .done))
  | .removeDirectory uri =>
    some (onObject locate fs opener uri (.error Directories.Listing.emptyDirectoryPath)
      (.remove · .done))
  | .removeFiles uris => some (onAll locate fs opener uris)
  | .moveFile source target => some (onMove locate fs opener source target)
  | .directoryExists _ | .createDirectory _ | .createDirectoriesRecursive _ | .listFiles _ => none

end Resolution

def view : FileAnswer → MapAnswer
  | .done | .listed _ _ => .done
  | .flag answer => .flag answer
  | .opened none => .missing
  | .opened (some (.read _ metadata)) => .reading metadata.fileSize.toInt
  | .opened (some (.write _)) => .writing

section Refinement

variable {κ : Type} [DecidableEq κ] {locate : Bytes → StringMapValue → Bytes → κ}
  {backend : Backend (Store κ Bytes)}

/-- A backend over one flat store of objects that fails on missing objects and nowhere else. -/
structure FlatBackend (locate : Bytes → StringMapValue → Bytes → κ)
    (backend : Backend (Store κ Bytes)) : Prop
    extends ServingBackend locate backend, RemovalBackend locate backend where
  readMissing : ∀ op path w, w (object locate op path) = none →
    backend (.read op path) w = (.error notFound, w)
  readObject : ∀ op path w data, w (object locate op path) = some data →
    backend (.read op path) w = (.ok data, w)
  write : ∀ op path data w,
    backend (.write op path data) w = (.ok (), put w (object locate op path) data)
  renameMissing : ∀ op source target w, w (object locate op source) = none →
    backend (.rename op source target) w = (.error notFound, w)
  renameObject : ∀ op source target w, w (object locate op source) ≠ none →
    backend (.rename op source target) w =
      (.ok (), relocate w (object locate op source) (object locate op target))
  getWriter : ∀ op path w, backend (.getWriter op path) w = (.ok (), w)

/-- No object is longer than the sizes of the file system can tell. -/
def Small (w : Store κ Bytes) : Prop := ∀ k data, w k = some data → data.length < 2 ^ 63

/-- A program answers, and does to the store, what an action does to the map. -/
def Acts {α : Type} (view : α → MapAnswer) (backend : Backend (Store κ Bytes))
    (p : FileSystemM α) (w : Store κ Bytes) (action : Action κ) : Prop :=
  (p.run backend w).1.map view = (act w action).1 ∧ (p.run backend w).2 = (act w action).2

variable {α β : Type} {view : α → MapAnswer} {w : Store κ Bytes}

private theorem acts_passed {wrap : α → β} {view : β → MapAnswer} {p : FileSystemM α}
    {action : Action κ} (acts : Acts (fun a => view (wrap a)) backend p w action) :
    Acts view backend (do
      let a ← p
      return wrap a) w action := by
  rw [Acts] at acts ⊢
  rw [Program.run_bind]
  generalize p.run backend w = answer at acts ⊢
  obtain ⟨e | a, w'⟩ := answer
  · exact acts
  · exact acts

private theorem acts_run {p : FileSystemM α} {action : Action κ} {a : α} {w' : Store κ Bytes}
    (run : p.run backend w = (.ok a, w')) (action_eq : act w action = (.ok (view a), w')) :
    Acts view backend p w action := by
  rw [Acts, run, action_eq]
  exact ⟨rfl, rfl⟩

private theorem acts_throws {p : FileSystemM α} {action : Action κ} {e : Exception}
    (run : p.run backend w = (.error e, w)) (action_eq : act w action = (.error e, w)) :
    Acts view backend p w action := by
  rw [Acts, run, action_eq]
  exact ⟨rfl, rfl⟩

variable [StringUtil] {fs : OpenDALFileSystem} {opener : Option FileOpener} {uri : Bytes}

private theorem run_createOperator (flat : FlatBackend locate backend) (r : OpenDALPath)
    (f : Operator × OpenDALPath → FileSystemM α) :
    (createOperator fs uri r opener >>= f).run backend w =
      match operatorPlan (createOperatorConfig fs · · opener) uri r opener with
      | .error e => (.error e, w)
      | .ok plan => (f plan).run backend w := by
  rw [Program.run_bind, createOperator, run_createOperatorWith]
  cases operatorPlan (createOperatorConfig fs · · opener) uri r opener with
  | error e => rfl
  | ok plan =>
    dsimp only
    rw [flat.toServingBackend.construct]

private theorem acts_onObject (flat : FlatBackend locate backend) {r : OpenDALPath}
    (again : operatorPlan (createOperatorConfig fs · · opener) uri r opener =
      operatorPlan (createOperatorConfig fs · · opener) uri {} opener)
    {f : Operator × OpenDALPath → FileSystemM α} {noPath : Except Exception MapAnswer}
    {action : κ → Action κ}
    (pathless : ∀ op p, operatorPlan (createOperatorConfig fs · · opener) uri {} opener = .ok (op, p) →
      p.path = [] → Acts view backend (f (op, p)) w (.answered noPath))
    (at_object : ∀ op p, p.path ≠ [] →
      Acts view backend (f (op, p)) w (action (object locate op p.path))) :
    Acts view backend (createOperator fs uri r opener >>= f) w
      (onObject locate fs opener uri noPath action) := by
  rw [Acts, run_createOperator flat, again, onObject]
  rcases hplan : operatorPlan (createOperatorConfig fs · · opener) uri {} opener with e | ⟨op, p⟩
  · exact ⟨rfl, rfl⟩
  · dsimp only
    by_cases hpath : p.path = []
    · rw [if_pos (List.isEmpty_iff.mpr hpath)]
      exact pathless op p hplan hpath
    · rw [if_neg (by simpa using hpath)]
      exact at_object op p hpath

private theorem acts_onProbed (flat : FlatBackend locate backend) {view : Bool → MapAnswer}
    (no : view false = .flag false) {ask : Operator → Bytes → FileSystemM Bool} {action : κ → Action κ}
    (asks : ∀ op path, Acts view backend (ask op path) w (action (object locate op path))) :
    Acts view backend (Directories.Probes.probe ask fs uri opener) w
      (onProbed locate fs opener uri action) := by
  have hno : Acts view backend (return false : FileSystemM Bool) w (.answered (.ok (.flag false))) :=
    acts_run rfl (by rw [no]; rfl)
  unfold Directories.Probes.probe onProbed
  rcases hparse : OpenDALPath.tryParse uri {} with ⟨accepted, p⟩
  cases accepted with
  | false => exact hno
  | true =>
    dsimp only
    by_cases hpath : p.path = []
    · rw [if_pos (List.isEmpty_iff.mpr hpath), if_pos (List.isEmpty_iff.mpr hpath)]
      exact hno
    · rw [if_neg (by simpa using hpath), if_neg (by simpa using hpath)]
      refine acts_onObject flat (operatorPlan_again hparse p) (fun op p' plan nowhere => ?_)
        fun op p' _ => asks op p'.path
      obtain ⟨hparse', -⟩ := operatorPlan_ok_iff.mp plan
      obtain rfl : p = p' := (Prod.mk.inj (hparse.symm.trans hparse')).2
      exact absurd nowhere hpath

private theorem acts_unless_empty (flat : FlatBackend locate backend) {e : Exception}
    (ask : Operator → Bytes → FileSystemM α) (action : κ → Action κ)
    (asks : ∀ op path, Acts view backend (ask op path) w (action (object locate op path))) :
    Acts view backend (do
      let (op, p) ← createOperator fs uri {} opener
      if p.path.isEmpty then .fail e else ask op p.path) w
      (onObject locate fs opener uri (.error e) action) := by
  refine acts_onObject flat rfl (fun op p _ nowhere => ?_) fun op p hpath => ?_
  · dsimp only
    rw [if_pos (List.isEmpty_iff.mpr nowhere)]
    exact acts_throws rfl rfl
  · dsimp only
    rw [if_neg (by simpa using hpath)]
    exact asks op p.path

omit [StringUtil] in
private theorem acts_remove (flat : FlatBackend locate backend) (answer : MapAnswer) (op : Operator)
    (path : Bytes) : Acts (fun _ => answer) backend (call (.remove op path)) w
      (.remove (object locate op path) answer) := by
  have hrun : (call (.remove op path)).run backend w = (.ok (), erase w (object locate op path)) := by
    rw [Program.run_perform, flat.remove]
  exact acts_run hrun rfl

omit [StringUtil] in
private theorem run_openForWriting (flat : FlatBackend locate backend) (op : Operator)
    (path : Bytes) (flags : FileOpenFlags) (empty : Bool) :
    (openForWriting op path flags empty).run backend w =
      (.ok (some (.write (Handles.WriteHandle.OpenDALWriteHandle.opened flags))),
        if empty then put w (object locate op path) [] else w) := by
  have hwriter (w : Store κ Bytes) :
      (do
        call (.getWriter op path)
        return some (.write (Handles.WriteHandle.OpenDALWriteHandle.opened flags)) :
          FileSystemM (Option OpenedFile)).run backend w =
        (.ok (some (.write (Handles.WriteHandle.OpenDALWriteHandle.opened flags))), w) := by
    rw [Program.run_bind, Program.run_perform, flat.getWriter]
    rfl
  cases empty with
  | false => exact hwriter w
  | true =>
    have hwrite : (call (.write op path [])).run backend w =
        (.ok (), put w (object locate op path) []) := by
      rw [Program.run_perform, flat.write]
    refine Eq.trans ?_ (hwriter _)
    change ((call (.write op path []) >>= fun _ => _).run backend w) = _
    rw [Program.run_bind, hwrite]
    rfl

omit [StringUtil] in
private theorem acts_openObject (flat : FlatBackend locate backend) (small : Small w)
    {flags : FileOpenFlags} (valid : (OpenDALOpenOptions.ofFlags flags).isValid = true)
    (op : Operator) (path : Bytes) :
    Acts (fun file => FileMap.view (.opened file)) backend
      (openObject op path uri flags (OpenDALOpenOptions.ofFlags flags)) w
      (.openObject (object locate op path) uri flags) := by
  obtain ⟨hmode, -, hreads⟩ := (isValid_iff _).mp valid
  have hrun (f : Bool → FileSystemM (Option OpenedFile)) :
      (call (.objectExists op path) >>= f).run backend w =
        (f (w (object locate op path)).isSome).run backend w := by
    rw [Program.run_bind, Program.run_perform, flat.objectExists]
  rw [Acts, openObject, hrun, act]
  cases hobject : w (object locate op path) with
  | none =>
    dsimp only [Option.isSome]
    by_cases hcreate : (flags.createFileIfNotExists || flags.overwriteExistingFile) = true
    · have hoptions : (OpenDALOpenOptions.ofFlags flags).create = true := hcreate
      have hread : ¬ (OpenDALOpenOptions.ofFlags flags).read = true := by
        intro hread
        rw [hread] at hmode
        have hwrite : (OpenDALOpenOptions.ofFlags flags).write = false := by simpa using hmode.symm
        simp [hoptions] at hreads
        simp [hreads] at hwrite
      rw [if_neg (by simp [hoptions]), if_neg hread, run_openForWriting flat, if_pos hcreate,
        if_pos (by simp)]
      exact ⟨rfl, rfl⟩
    · have hoptions : (OpenDALOpenOptions.ofFlags flags).create = false :=
        Bool.eq_false_of_not_eq_true hcreate
      rw [if_pos (by simp [hoptions]), if_neg hcreate]
      split_ifs
      · exact ⟨rfl, rfl⟩
      · exact ⟨rfl, rfl⟩
  | some data =>
    dsimp only [Option.isSome]
    rw [if_neg (by simp)]
    by_cases hread : flags.openForReading = true
    · have hoptions : (OpenDALOpenOptions.ofFlags flags).read = true := hread
      obtain ⟨metadata, hstats, hsize⟩ := flat.toServingBackend.statsAs hobject (small _ data hobject)
      rw [if_pos hoptions, if_pos hread,
        openForReading_present flat.toServingBackend flags hobject hstats]
      refine ⟨?_, rfl⟩
      change Except.ok (MapAnswer.reading metadata.fileSize.toInt) = _
      rw [hsize]
    · have hoptions : ¬ (OpenDALOpenOptions.ofFlags flags).read = true := hread
      rw [if_neg hoptions, if_neg hread, run_openForWriting flat]
      exact ⟨rfl, rfl⟩

private theorem plan_of_parsed {r p p' : OpenDALPath} {op : Operator}
    (parsed : OpenDALPath.tryParse uri {} = (true, p))
    (plan : operatorPlan (createOperatorConfig fs · · opener) uri r opener = .ok (op, p')) :
    p' = p := by
  rw [operatorPlan_again parsed r] at plan
  obtain ⟨hparse, -⟩ := operatorPlan_ok_iff.mp plan
  exact (Prod.mk.inj (hparse.symm.trans parsed)).2

omit [StringUtil] in
private theorem acts_rename (flat : FlatBackend locate backend) (op : Operator)
    (source target : Bytes) : Acts (fun _ => MapAnswer.done) backend (call (.rename op source target))
      w (.rename (object locate op source) (object locate op target)) := by
  cases hobject : w (object locate op source) with
  | none =>
    refine acts_throws ?_ (by rw [act, hobject])
    rw [Program.run_perform, flat.renameMissing op source target w hobject]
  | some data =>
    refine acts_run (a := ()) ?_ (by rw [act, hobject])
    rw [Program.run_perform, flat.renameObject op source target w (by rw [hobject]; nofun)]

omit [StringUtil] in
private theorem acts_copy (flat : FlatBackend locate backend) (op op' : Operator)
    (source target : Bytes) : Acts (fun _ => MapAnswer.done) backend (do
        let data ← call (.read op source)
        call (.write op' target data)
        call (.remove op source)) w (.copy (object locate op source) (object locate op' target)) := by
  cases hobject : w (object locate op source) with
  | none =>
    refine acts_throws ?_ (by rw [act, hobject])
    rw [Program.run_bind, Program.run_perform, flat.readMissing op source w hobject]
  | some data =>
    refine acts_run (a := ()) ?_ (by rw [act, hobject])
    rw [Program.run_bind, Program.run_perform, flat.readObject op source w data hobject]
    dsimp only
    rw [Program.run_bind, Program.run_perform, flat.write]
    dsimp only
    rw [Program.run_perform, flat.remove]

theorem acts_onMove (flat : FlatBackend locate backend) (source target : Bytes) :
    Acts (fun _ => MapAnswer.done) backend (Move.MoveFile.moveFile fs source target opener) w
      (onMove locate fs opener source target) := by
  unfold Move.MoveFile.moveFile onMove
  rcases hsource : OpenDALPath.tryParse source {} with ⟨accepted, s⟩
  cases accepted with
  | false => exact acts_throws rfl rfl
  | true =>
    rcases htarget : OpenDALPath.tryParse target {} with ⟨accepted', t⟩
    cases accepted' with
    | false => exact acts_throws rfl rfl
    | true =>
      dsimp only
      by_cases hempty : (s.path.isEmpty || t.path.isEmpty) = true
      · rw [if_pos hempty, if_pos hempty]
        exact acts_throws rfl rfl
      rw [if_neg hempty, if_neg hempty]
      by_cases hscheme : (s.scheme == t.scheme) = true
      · rw [if_pos hscheme, Acts, Move.MoveFile.moveByRename, run_createOperator flat,
          operatorPlan_again hsource s]
        rcases hplan : operatorPlan (createOperatorConfig fs · · opener) source {} opener with
          e | ⟨op, s'⟩
        · exact ⟨rfl, rfl⟩
        · obtain rfl := plan_of_parsed hsource hplan
          dsimp only
          rw [if_pos hscheme]
          exact acts_rename flat op s'.path t.path
      · rw [if_neg hscheme, Acts, Move.MoveFile.moveByCopy, run_createOperator flat,
          operatorPlan_again hsource s]
        rcases hplan : operatorPlan (createOperatorConfig fs · · opener) source {} opener with
          e | ⟨op, s'⟩
        · exact ⟨rfl, rfl⟩
        obtain rfl := plan_of_parsed hsource hplan
        dsimp only
        rw [if_neg hscheme, run_createOperator flat, operatorPlan_again htarget t]
        rcases hplan' : operatorPlan (createOperatorConfig fs · · opener) target {} opener with
          e | ⟨op', t'⟩
        · exact ⟨rfl, rfl⟩
        obtain rfl := plan_of_parsed htarget hplan'
        exact acts_copy flat op op' s'.path t'.path

private theorem acts_onAll (flat : FlatBackend locate backend) (uris : List Bytes) :
    Acts (fun _ => MapAnswer.done) backend (Removal.Batch.removeFiles fs uris opener) w
      (onAll locate fs opener uris) := by
  unfold Removal.Batch.removeFiles Removal.Batch.removeFilesWith onAll
  rw [groupRemovePaths_eq]
  cases hplanned : attemptAll (planRemovePath (createOperatorConfig fs · · opener)) uris with
  | error e => exact acts_throws rfl rfl
  | ok planned =>
    have hview : (planned.foldl GroupingState.add {}).groups.map
        (fun group => (group.identity, group.paths)) = stablePartition (planned.map removalItem) :=
      (files_foldl planned).groups
    change Acts _ backend (removeGroups opener (planned.foldl GroupingState.add {}).groups) w _
    generalize (planned.foldl GroupingState.add {}).groups = groups at hview ⊢
    dsimp only
    cases accepted : operatorOptions opener with
    | error e =>
      cases planned with
      | nil =>
        obtain rfl : groups = [] := List.map_eq_nil_iff.mp hview
        exact acts_run (a := ()) rfl rfl
      | cons plan planned =>
        obtain ⟨filed, hfiled, -⟩ := mem_stablePartition
          (List.mem_cons_self (a := removalItem plan) (l := planned.map removalItem))
        rw [← List.map_cons, ← hview] at hfiled
        obtain ⟨group, groups, rfl⟩ := List.exists_cons_of_ne_nil
          (List.ne_nil_of_mem (List.mem_map.mp hfiled).choose_spec.1)
        exact acts_throws (run_removeGroups_rejected accepted group groups w) rfl
    | ok options =>
      have hstore : eraseAll w ((groups.flatMap fun group =>
          group.paths.map fun path => (group.identity, path)).map (itemObject locate)) =
          eraseAll w (planned.map fun plan => itemObject locate (removalItem plan)) := by
        refine eraseAll_congr w fun k => ?_
        simp only [List.mem_map, mem_groupItems_iff hview]
        simp
      refine acts_run (a := ()) (run_removeGroups flat.toRemovalBackend accepted groups w) ?_
      rw [hstore]
      cases planned with
      | nil => rfl
      | cons plan planned => rfl

theorem program_acts (flat : FlatBackend locate backend) (small : Small w)
    {operation : FileOperation} {action : Action κ}
    (resolves : resolve locate fs opener operation = some action) :
    Acts FileMap.view backend (operation.program fs opener) w action := by
  cases operation with
  | openFile uri flags =>
    obtain rfl := Option.some.inj resolves
    refine acts_passed ?_
    unfold openFile
    dsimp only
    split_ifs with hnamed hvalid
    · exact acts_throws rfl rfl
    · exact acts_throws rfl rfl
    · have hvalid : (OpenDALOpenOptions.ofFlags flags).isValid = true := by simpa using hvalid
      exact acts_unless_empty flat
        (fun op path => openObject op path uri flags (OpenDALOpenOptions.ofFlags flags))
        (.openObject · uri flags) fun op path => acts_openObject flat small hvalid op path
  | fileExists uri =>
    obtain rfl := Option.some.inj resolves
    refine acts_passed (acts_onProbed flat rfl fun op path => ?_)
    have hrun : (call (.objectExists op path)).run backend w =
        (.ok (w (object locate op path)).isSome, w) := by
      rw [Program.run_perform, flat.objectExists]
    exact acts_run hrun rfl
  | tryRemoveFile uri =>
    obtain rfl := Option.some.inj resolves
    refine acts_passed (acts_onProbed flat rfl fun op path => ?_)
    exact acts_passed (acts_remove flat (.flag true) op path)
  | removeFile uri | removeDirectory uri =>
    obtain rfl := Option.some.inj resolves
    exact acts_passed (acts_unless_empty flat (fun op path => call (.remove op path))
      (.remove · .done) fun op path => acts_remove flat .done op path)
  | removeFiles uris =>
    obtain rfl := Option.some.inj resolves
    exact acts_passed (acts_onAll flat uris)
  | moveFile source target =>
    obtain rfl := Option.some.inj resolves
    exact acts_passed (acts_onMove flat source target)
  | directoryExists | createDirectory | createDirectoriesRecursive | listFiles => cases resolves

omit [StringUtil] in
theorem small_act (small : Small w) (action : Action κ) : Small (act w action).2 := by
  have hput {k : κ} {data : Bytes} {w : Store κ Bytes} (small : Small w)
      (short : data.length < 2 ^ 63) : Small (put w k data) := by
    intro k' data' h
    rw [put, Function.update_apply] at h
    split_ifs at h
    · rwa [← Option.some.inj h]
    · exact small k' data' h
  have herase {k : κ} {w : Store κ Bytes} (small : Small w) : Small (erase w k) := by
    intro k' data' h
    rw [erase, Function.update_apply] at h
    split_ifs at h
    exact small k' data' h
  have hempty : ([] : Bytes).length < 2 ^ 63 := by decide
  cases action with
  | answered answer => exact small
  | probe k => exact small
  | openObject k path flags =>
    rw [act]
    split <;> split_ifs
    · exact hput small hempty
    · exact small
    · exact small
    · exact small
    · exact hput small hempty
    · exact small
  | remove k answer => exact herase small
  | removeAll ks =>
    intro k data h
    change eraseAll w ks k = some data at h
    rw [eraseAll_apply] at h
    split_ifs at h
    exact small k data h
  | rename source target =>
    rw [act]
    split
    · exact small
    · rename_i data hdata
      intro k data' h
      change relocate w source target k = some data' at h
      rw [relocate, Function.update_apply] at h
      split_ifs at h
      · exact small source data' h
      · exact herase small k data' h
  | copy source target =>
    rw [act]
    split
    · exact small
    · rename_i data hdata
      exact herase (hput small (small source data hdata))

/-- Whatever operations on files are run, they are answered as their actions on one map of contents,
and the store is that map. The actions are known before anything is run: what they are depends on
the URIs, the settings and the secrets alone. -/
theorem operations_as_map (flat : FlatBackend locate backend) (fs : OpenDALFileSystem)
    (opener : Option FileOpener) {operations : List FileOperation} {actions : List (Action κ)}
    (resolves : List.Forall₂ (fun operation action =>
      resolve locate fs opener operation = some action) operations actions)
    (w : Store κ Bytes) (small : Small w) :
    let programs := operations.map (FileOperation.program fs opener)
    (run (alone backend) w programs).1.map (Except.map FileMap.view) = (run act w actions).1 ∧
      after (alone backend) w programs = after act w actions := by
  induction resolves generalizing w with
  | nil => exact ⟨rfl, rfl⟩
  | @cons operation action operations actions first _ ih =>
    have hfirst : resolve locate fs opener operation = some action := first
    obtain ⟨hanswer, hstate⟩ := program_acts flat small hfirst
    obtain ⟨hanswers, hlater⟩ := ih (act w action).2 (small_act small action)
    have hnext : (alone backend w (operation.program fs opener)).2 = (act w action).2 := hstate
    refine ⟨?_, ?_⟩
    · rw [List.map_cons, run_cons_answers, run_cons_answers, hnext, List.map_cons, hanswers]
      exact congrArg (· :: (run act (act w action).2 actions).1) hanswer
    · rw [List.map_cons, after_cons, after_cons, hnext]
      exact hlater

def ComesTo (locate : Bytes → StringMapValue → Bytes → κ) (fs : OpenDALFileSystem)
    (opener : Option FileOpener) (p : FileSystemM FileAnswer) (action : Action κ) : Prop :=
  ∃ operation, resolve locate fs opener operation = some action ∧ p = operation.program fs opener

/-- Threads run operations on files of one call each. Every schedule of their calls is a serial run
of the actions on the map, in an order that grows with the schedule: the store is the map, every
operation that has ended is answered as its action, and no more than one action of a thread is ahead
of its answer. -/
theorem schedules_as_map {ι : Type} [DecidableEq ι] (flat : FlatBackend locate backend)
    (fs : OpenDALFileSystem) (openers : ι → Option FileOpener) {operations : ι → List FileOperation}
    {actions : ι → List (Action κ)}
    (resolves : ∀ i, List.Forall₂ (fun operation action =>
      resolve locate fs (openers i) operation = some action) (operations i) (actions i))
    (single : ∀ i, ∀ operation ∈ operations i, Single fs (openers i) operation)
    (w : Store κ Bytes) (small : Small w) :
    ∃ order : List ι → List ι, order [] = [] ∧
      (∀ schedule i, order (schedule ++ [i]) = order schedule ∨
        order (schedule ++ [i]) = order schedule ++ [i]) ∧
      ∀ schedule i,
        let ended := interleave backend
          (fun i => ⟨programsOf fs (openers i) (operations i), []⟩, w) schedule
        let map := serially act (fun i => ⟨actions i, []⟩, w) (order schedule)
        ended.2 = map.2 ∧ (ended.1 i).answers.map (Except.map FileMap.view) <+: (map.1 i).answers ∧
          (map.1 i).answers.length ≤ (ended.1 i).answers.length + 1 ∧
          ((ended.1 i).programs = [] →
            (ended.1 i).answers.map (Except.map FileMap.view) = (map.1 i).answers) := by
  have hsilent (op : Operator) : Silent backend (.construct op) := by
    constructor
    · intro w
      rw [flat.toServingBackend.construct]
    · intro w w'
      rw [flat.toServingBackend.construct, flat.toServingBackend.construct]
  let start : (ι → Thread OpenDALCall.Reply Exception FileAnswer) × Store κ Bytes :=
    (fun i => ⟨programsOf fs (openers i) (operations i), []⟩, w)
  refine ⟨effects constructs backend start fun _ => false, rfl, effects_concat start _,
    fun schedule i => ?_⟩
  obtain ⟨hstate, hprefix, hlength, hended⟩ := interleave_serial (silent_of_constructs hsilent)
    (fun i => programsOf_once (single i)) w schedule i
  -- The serial run of the programs follows that of the actions.
  have hacts (i : ι) (v v' : Store κ Bytes) (p : FileSystemM FileAnswer) (action : Action κ)
      (comes : ComesTo locate fs (openers i) p action) (related : v' = v ∧ Small v) :
      Except.map FileMap.view (alone backend v p).1 = (act v' action).1 ∧
        (act v' action).2 = (alone backend v p).2 ∧ Small (alone backend v p).2 := by
    obtain ⟨operation, hresolve, rfl⟩ := comes
    obtain ⟨rfl, hsmall⟩ := related
    obtain ⟨hanswer, hnext⟩ := program_acts flat hsmall hresolve
    have hstate : (alone backend v' (operation.program fs (openers i))).2 = (act v' action).2 := hnext
    rw [hstate]
    exact ⟨hanswer, rfl, small_act hsmall action⟩
  have hmatched (i : ι) : Matched (ComesTo locate fs (openers i))
      (Except.map FileMap.view : Except Exception FileAnswer → Except Exception MapAnswer)
      ⟨programsOf fs (openers i) (operations i), []⟩ ⟨actions i, []⟩ := by
    refine ⟨List.forall₂_map_left_iff.mpr ((resolves i).imp fun operation action h => ?_), rfl⟩
    exact ⟨operation, h, rfl⟩
  obtain ⟨hclients, hmap, -⟩ := serially_simulation hacts hmatched ⟨rfl, small⟩
    (effects constructs backend start (fun _ => false) schedule)
  obtain ⟨-, hanswers⟩ := hclients i
  refine ⟨hstate.trans hmap.symm, ?_, ?_, fun h => ?_⟩
  · rw [← hanswers]
    exact hprefix.map _
  · rw [← hanswers, List.length_map]
    exact hlength
  · rw [← hanswers, hended h]

end Refinement

theorem storeBackend_flat {κ : Type} [DecidableEq κ] (locate : Bytes → StringMapValue → Bytes → κ) :
    FlatBackend locate (storeBackend locate) where
  toServingBackend := storeBackend_serving locate
  remove := (storeBackend_removal locate).remove
  removeAll := (storeBackend_removal locate).removeAll
  readMissing op path w h := by simp only [storeBackend, h]
  readObject op path w data h := by simp only [storeBackend, h]
  write _ _ _ _ := rfl
  renameMissing op source target w h := by simp only [storeBackend, h]
  renameObject op source target w h := by
    obtain ⟨data, hdata⟩ := Option.ne_none_iff_exists'.mp h
    simp only [storeBackend, hdata]
  getWriter _ _ _ := rfl

theorem operations_as_map_moved :
    letI : StringUtil := percentDecoding
    let operations : List FileOperation :=
      [.openFile (bytes "gs://b/a") { openForWriting := true, createFileIfNotExists := true },
        .moveFile (bytes "gs://b/a") (bytes "gs://b/b"), .fileExists (bytes "gs://b/b"),
        .removeFiles [bytes "gs://b/b", bytes "s3://c/b", bytes "gs://b/a"],
        .tryRemoveFile (bytes "b"), .fileExists (bytes "gs://b/b")]
    (run (alone (storeBackend byPath)) (fun _ => none)
        (operations.map (FileOperation.program {} none))).1.map (Except.map view) =
      [.ok .writing, .ok .done, .ok (.flag true), .ok .done, .ok (.flag false),
        .ok (.flag false)] := by
  let _ : StringUtil := percentDecoding
  intro operations
  let actions : List (Action Bytes) := operations.filterMap (resolve byPath {} none)
  have hresolves : List.Forall₂ (fun operation action =>
      resolve byPath {} none operation = some action) operations actions :=
    .cons rfl (.cons rfl (.cons rfl (.cons rfl (.cons rfl (.cons rfl .nil)))))
  have hanswers : (run act (fun _ => none) actions).1 =
      [.ok .writing, .ok .done, .ok (.flag true), .ok .done, .ok (.flag false),
        .ok (.flag false)] := by decide +kernel
  clear_value operations actions
  have hmap := (operations_as_map (storeBackend_flat byPath) {} none hresolves (fun _ => none)
    (fun _ _ h => by cases h)).1
  exact hmap.trans hanswers

theorem schedules_as_map_race :
    letI : StringUtil := percentDecoding
    let operations : Bool → List FileOperation := fun i =>
      if i then [.moveFile (bytes "gs://b/a") (bytes "gs://b/b"), .fileExists (bytes "gs://b/a")]
      else [.removeFile (bytes "gs://b/a"), .fileExists (bytes "gs://b/b")]
    let actions : Bool → List (Action Bytes) := fun i =>
      if i then [.rename (bytes "a") (bytes "b"), .probe (bytes "a")]
      else [.remove (bytes "a") .done, .probe (bytes "b")]
    let w : Store Bytes Bytes := put (fun _ => none) (bytes "a") (bytes "data")
    let ended := interleave (storeBackend byPath)
      (fun i => ⟨programsOf {} none (operations i), []⟩, w)
      [true, false, false, true, false, true, false, true, false, true, true, false, true]
    ∃ order : List Bool,
      let map := serially act (fun i => ⟨actions i, []⟩, w) order
      ended.2 = map.2 ∧ (ended.1 false).answers.map (Except.map view) = (map.1 false).answers := by
  let _ : StringUtil := percentDecoding
  intro operations actions w ended
  have hschemes : (OpenDALPath.tryParse (bytes "gs://b/a") {}).2.scheme =
      (OpenDALPath.tryParse (bytes "gs://b/b") {}).2.scheme := by decide +kernel
  have hresolves (i : Bool) : List.Forall₂ (fun operation action =>
      resolve byPath {} none operation = some action) (operations i) (actions i) := by
    cases i <;> exact .cons rfl (.cons rfl .nil)
  have hsingle (i : Bool) : ∀ operation ∈ operations i, Single {} none operation := by
    intro operation hoperation
    cases i with
    | true =>
      simp only [operations, ↓reduceIte, List.mem_cons, List.not_mem_nil, or_false] at hoperation
      rcases hoperation with rfl | rfl
      · intro s t hs ht
        rwa [hs, ht] at hschemes
      · trivial
    | false =>
      simp only [operations, Bool.false_eq_true, ↓reduceIte, List.mem_cons, List.not_mem_nil,
        or_false] at hoperation
      rcases hoperation with rfl | rfl <;> trivial
  have hsmall : Small w := by
    intro k data h
    rw [show w = put (fun _ => none) (bytes "a") (bytes "data") from rfl, put,
      Function.update_apply] at h
    split_ifs at h
    rw [← Option.some.inj h]
    decide
  have hended : (ended.1 false).programs = [] := List.isEmpty_iff.mp (by decide +kernel)
  obtain ⟨order, -, -, horder⟩ := schedules_as_map (storeBackend_flat byPath) {} (fun _ => none)
    hresolves hsingle w hsmall
  obtain ⟨hstate, -, -, hanswers⟩ := horder
    [true, false, false, true, false, true, false, true, false, true, true, false, true] false
  exact ⟨_, hstate, hanswers hended⟩

end DuckdbOpendalfs.FileSystem.FileMap
