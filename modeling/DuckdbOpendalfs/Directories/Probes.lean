/- DuckdbOpendalfs/Directories/Probes
   digest: The probes for files and for directories, against stores of files and directories. -/

import DuckdbOpendalfs.Address.ParseSpec
import DuckdbOpendalfs.Operators.Objects

set_option autoImplicit false
set_option relaxedAutoImplicit false

namespace DuckdbOpendalfs.Directories.Probes

open Text.ByteString
open Collections.Stores
open Execution.Programs
open Address.Uri Address.ParseSpec
open Operators.LayerOptions Operators.Configuration Operators.Objects

section Functions

variable [StringUtil]

def probe (ask : Operator → Bytes → FileSystemM Bool) (fs : OpenDALFileSystem) (path_p : Bytes)
    (opener_p : Option FileOpener) : FileSystemM Bool :=
  match OpenDALPath.tryParse path_p {} with
  | (false, _) => return false
  | (true, parsed_path) =>
    if parsed_path.path.isEmpty then return false
    else do
      let (op, parsed_path) ← createOperator fs path_p parsed_path opener_p
      ask op parsed_path.path

def fileExists (fs : OpenDALFileSystem) (path_p : Bytes) (opener_p : Option FileOpener) :
    FileSystemM Bool :=
  probe (fun op path => call (.objectExists op path)) fs path_p opener_p

def directoryExists (fs : OpenDALFileSystem) (path_p : Bytes) (opener_p : Option FileOpener) :
    FileSystemM Bool :=
  probe (fun op path => do
    let metadata ← call (.stat op path)
    return metadata.isDir) fs path_p opener_p

end Functions

inductive EntryKind
  | file | directory
  deriving DecidableEq, Repr

variable {κ : Type}

/-- A backend over a store of files and directories. Constructing an operator may fail. -/
structure ProbedBackend (locate : Bytes → StringMapValue → Bytes → κ)
    (backend : Backend (Store κ EntryKind)) : Prop where
  construct : ∀ op w, (backend (.construct op) w).2 = w
  objectExists : ∀ op path w,
    backend (.objectExists op path) w = (.ok (w (object locate op path)).isSome, w)
  statAbsent : ∀ {op path w}, w (object locate op path) = none →
    backend (.stat op path) w = (.error notFound, w)
  statPresent : ∀ {op path w kind}, w (object locate op path) = some kind →
    ∃ metadata, backend (.stat op path) w = (.ok metadata, w) ∧
      (metadata.isFile = true ↔ kind = .file) ∧ (metadata.isDir = true ↔ kind = .directory)

section Outcomes

variable [StringUtil]

def Unaddressed (uri : Bytes) : Prop := ∀ p, OpenDALPath.tryParse uri {} = (true, p) → p.path = []

def Serves (backend : Backend (Store κ EntryKind)) (fs : OpenDALFileSystem)
    (opener : Option FileOpener) (uri : Bytes) (w : Store κ EntryKind) (op : Operator)
    (p : OpenDALPath) : Prop :=
  operatorPlan (createOperatorConfig fs · · opener) uri {} opener = .ok (op, p) ∧ p.path ≠ [] ∧
    (backend (.construct op) w).1 = .ok ()

def Stored (locate : Bytes → StringMapValue → Bytes → κ) (fs : OpenDALFileSystem)
    (opener : Option FileOpener) (uri : Bytes) (w : Store κ EntryKind) (kind : EntryKind) : Prop :=
  ∃ op p, operatorPlan (createOperatorConfig fs · · opener) uri {} opener = .ok (op, p) ∧
    p.path ≠ [] ∧ w (object locate op p.path) = some kind

/-- A probe returns, and it is true exactly for the entries of the kind. -/
def Tells (backend : Backend (Store κ EntryKind)) (program : FileSystemM Bool)
    (w : Store κ EntryKind) (hit : Prop) : Prop :=
  ∃ answer, (program.run backend w).1 = .ok answer ∧ (answer = true ↔ hit)

variable {locate : Bytes → StringMapValue → Bytes → κ} {backend : Backend (Store κ EntryKind)}
  {ask : Operator → Bytes → FileSystemM Bool} {fs : OpenDALFileSystem}
  {opener : Option FileOpener} {uri : Bytes} {w : Store κ EntryKind}

theorem probe_unaddressed (unaddressed : Unaddressed uri) :
    (probe ask fs uri opener).run backend w = (.ok false, w) := by
  unfold probe
  split
  · rfl
  · rename_i p hparse
    rw [if_pos (List.isEmpty_iff.mpr (unaddressed p hparse))]
    rfl

private theorem probe_addressed {p : OpenDALPath}
    (accepted : OpenDALPath.tryParse uri {} = (true, p)) (nonempty : p.path ≠ []) :
    (probe ask fs uri opener).run backend w =
      match operatorPlan (createOperatorConfig fs · · opener) uri {} opener with
      | .error e => (.error e, w)
      | .ok plan =>
        match backend (.construct plan.1) w with
        | (.error e, w') => (.error e, w')
        | (.ok _, w') => (ask plan.1 plan.2.path).run backend w' := by
  have hnonempty : ¬ p.path.isEmpty = true := by simpa using nonempty
  unfold probe
  simp only [accepted, if_neg hnonempty, Program.run_bind, createOperator, run_createOperatorWith]
  rw [← operatorPlan_again accepted p]
  cases operatorPlan (createOperatorConfig fs · · opener) uri p opener with
  | error e => rfl
  | ok plan =>
    dsimp only
    rcases backend (.construct plan.1) w with ⟨e | _, w'⟩ <;> rfl

theorem probe_serves (constructs : ∀ op w, (backend (.construct op) w).2 = w) {op : Operator}
    {p : OpenDALPath} (serves : Serves backend fs opener uri w op p) :
    (probe ask fs uri opener).run backend w = (ask op p.path).run backend w := by
  obtain ⟨hplan, hnonempty, hconstruct⟩ := serves
  have hanswer : backend (.construct op) w = (.ok (), w) := Prod.ext hconstruct (constructs op w)
  rw [probe_addressed (operatorPlan_ok_iff.mp hplan).1 hnonempty, hplan]
  dsimp only
  rw [hanswer]

theorem probe_throws (addressed : ¬ Unaddressed uri)
    (unserved : ∀ op p, ¬ Serves backend fs opener uri w op p) :
    ∃ e, ((probe ask fs uri opener).run backend w).1 = .error e := by
  unfold Unaddressed at addressed
  push Not at addressed
  obtain ⟨p, hparse, hnonempty⟩ := addressed
  rw [probe_addressed hparse hnonempty]
  cases hplan : operatorPlan (createOperatorConfig fs · · opener) uri {} opener with
  | error e => exact ⟨e, rfl⟩
  | ok plan =>
    obtain ⟨op, p'⟩ := plan
    obtain rfl : p' = p :=
      (Prod.mk.inj ((operatorPlan_ok_iff.mp hplan).1.symm.trans hparse)).2
    dsimp only
    rcases hconstruct : backend (.construct op) w with ⟨e | done, w'⟩
    · exact ⟨e, rfl⟩
    · exact absurd ⟨hplan, hnonempty, congrArg Prod.fst hconstruct⟩ (unserved op p')

theorem probe_tells_iff (constructs : ∀ op w, (backend (.construct op) w).2 = w) (kind : EntryKind) :
    Tells backend (probe ask fs uri opener) w (Stored locate fs opener uri w kind) ↔
      Unaddressed uri ∨ ∃ op p, Serves backend fs opener uri w op p ∧
        Tells backend (ask op p.path) w (w (object locate op p.path) = some kind) := by
  by_cases haddressed : Unaddressed uri
  · refine iff_of_true ⟨false, ?_, ?_⟩ (Or.inl haddressed)
    · rw [probe_unaddressed haddressed]
    · refine iff_of_false (by simp) ?_
      rintro ⟨op, p, hplan, hnonempty, -⟩
      exact hnonempty (haddressed p (operatorPlan_ok_iff.mp hplan).1)
  rw [or_iff_right haddressed]
  by_cases hserved : ∃ op p, Serves backend fs opener uri w op p
  · obtain ⟨op, p, hserves⟩ := hserved
    have honly {op' : Operator} {p' : OpenDALPath} (hplan : operatorPlan
        (createOperatorConfig fs · · opener) uri {} opener = .ok (op', p')) : op' = op ∧ p' = p :=
      Prod.mk.inj (Except.ok.inj (hplan.symm.trans hserves.1))
    have hstored : Stored locate fs opener uri w kind ↔ w (object locate op p.path) = some kind := by
      constructor
      · rintro ⟨op', p', hplan, -, hkind⟩
        obtain ⟨rfl, rfl⟩ := honly hplan
        exact hkind
      · exact fun hkind => ⟨op, p, hserves.1, hserves.2.1, hkind⟩
    unfold Tells
    rw [probe_serves constructs hserves, hstored]
    constructor
    · exact fun htells => ⟨op, p, hserves, htells⟩
    · rintro ⟨op', p', hserves', htells⟩
      obtain ⟨rfl, rfl⟩ := honly hserves'.1
      exact htells
  · push Not at hserved
    have hthrows : ∃ e, ((probe ask fs uri opener).run backend w).1 = .error e :=
      probe_throws haddressed hserved
    obtain ⟨e, he⟩ := hthrows
    constructor
    · rintro ⟨answer, hanswer, -⟩
      rw [he] at hanswer
      cases hanswer
    · rintro ⟨op, p, hserves, -⟩
      exact absurd hserves (hserved op p)

theorem fileExists_tells_iff (laws : ProbedBackend locate backend) :
    Tells backend (fileExists fs uri opener) w (Stored locate fs opener uri w .file) ↔
      Unaddressed uri ∨ ∃ op p, Serves backend fs opener uri w op p ∧
        w (object locate op p.path) ≠ some .directory := by
  rw [fileExists, probe_tells_iff laws.construct]
  refine or_congr_right (exists₂_congr fun op p => and_congr_right fun _ => ?_)
  unfold Tells
  rw [Program.run_perform, laws.objectExists]
  rcases w (object locate op p.path) with _ | _ | _ <;> simp

theorem directoryExists_tells_iff (laws : ProbedBackend locate backend) :
    Tells backend (directoryExists fs uri opener) w (Stored locate fs opener uri w .directory) ↔
      Unaddressed uri ∨ ∃ op p, Serves backend fs opener uri w op p ∧
        w (object locate op p.path) ≠ none := by
  rw [directoryExists, probe_tells_iff laws.construct]
  refine or_congr_right (exists₂_congr fun op p => and_congr_right fun _ => ?_)
  unfold Tells
  rw [Program.run_bind, Program.run_perform]
  cases hkind : w (object locate op p.path) with
  | none =>
    rw [laws.statAbsent hkind]
    simp
  | some kind =>
    obtain ⟨metadata, hstat, -, hdirectory⟩ := laws.statPresent hkind
    rw [hstat]
    simp [hdirectory]

/-- Both probes tell what is stored, and they never both hit, exactly for a URI that names no object
and for a served regular file. -/
theorem probes_tell_iff (laws : ProbedBackend locate backend) (fs : OpenDALFileSystem)
    (opener : Option FileOpener) (uri : Bytes) (w : Store κ EntryKind) :
    (Tells backend (fileExists fs uri opener) w (Stored locate fs opener uri w .file) ↔
        Unaddressed uri ∨ ∃ op p, Serves backend fs opener uri w op p ∧
          w (object locate op p.path) ≠ some .directory) ∧
      (Tells backend (directoryExists fs uri opener) w (Stored locate fs opener uri w .directory) ↔
        Unaddressed uri ∨ ∃ op p, Serves backend fs opener uri w op p ∧
          w (object locate op p.path) ≠ none) ∧
      (Tells backend (fileExists fs uri opener) w (Stored locate fs opener uri w .file) ∧
          Tells backend (directoryExists fs uri opener) w
            (Stored locate fs opener uri w .directory) ∧
          ¬ (((fileExists fs uri opener).run backend w).1 = .ok true ∧
            ((directoryExists fs uri opener).run backend w).1 = .ok true) ↔
        Unaddressed uri ∨ ∃ op p, Serves backend fs opener uri w op p ∧
          w (object locate op p.path) = some .file) := by
  refine ⟨fileExists_tells_iff laws, directoryExists_tells_iff laws, ?_⟩
  constructor
  · rintro ⟨hfile, hdirectory, -⟩
    rcases (fileExists_tells_iff laws).mp hfile with hnone | ⟨op, p, hserves, hkind⟩
    · exact Or.inl hnone
    rcases (directoryExists_tells_iff laws).mp hdirectory with hnone | ⟨op', p', hserves', hkind'⟩
    · exact Or.inl hnone
    obtain ⟨rfl, rfl⟩ := Prod.mk.inj (Except.ok.inj (hserves.1.symm.trans hserves'.1))
    refine Or.inr ⟨op, p, hserves, ?_⟩
    rcases hstored : w (object locate op p.path) with _ | _ | _
    · exact absurd hstored hkind'
    · rfl
    · exact absurd hstored hkind
  · intro hcondition
    have hfile : Tells backend (fileExists fs uri opener) w (Stored locate fs opener uri w .file) := by
      refine (fileExists_tells_iff laws).mpr (hcondition.imp_right ?_)
      rintro ⟨op, p, hserves, hkind⟩
      exact ⟨op, p, hserves, by simp [hkind]⟩
    have hdirectory : Tells backend (directoryExists fs uri opener) w
        (Stored locate fs opener uri w .directory) := by
      refine (directoryExists_tells_iff laws).mpr (hcondition.imp_right ?_)
      rintro ⟨op, p, hserves, hkind⟩
      exact ⟨op, p, hserves, by simp [hkind]⟩
    refine ⟨hfile, hdirectory, ?_⟩
    rintro ⟨hfileHit, hdirectoryHit⟩
    obtain ⟨answer, hanswer, hhit⟩ := hfile
    obtain ⟨answer', hanswer', hhit'⟩ := hdirectory
    obtain rfl := Except.ok.inj (hfileHit.symm.trans hanswer)
    obtain rfl := Except.ok.inj (hdirectoryHit.symm.trans hanswer')
    obtain ⟨op, p, hplan, -, hkind⟩ := hhit.mp rfl
    obtain ⟨op', p', hplan', -, hkind'⟩ := hhit'.mp rfl
    obtain ⟨rfl, rfl⟩ := Prod.mk.inj (Except.ok.inj (hplan.symm.trans hplan'))
    cases hkind.symm.trans hkind'

end Outcomes

section Entries

def entryBackend (locate : Bytes → StringMapValue → Bytes → κ) : Backend (Store κ EntryKind)
  | .construct _, w => (.ok (), w)
  | .objectExists op path, w => (.ok (w (object locate op path)).isSome, w)
  | .stat op path, w =>
    match w (object locate op path) with
    | none => (.error notFound, w)
    | some kind =>
      (.ok { contentLength := 0, isFile := kind == .file, isDir := kind == .directory }, w)
  | _, w => (.error (.opendal (bytes "Unsupported")), w)

theorem entryBackend_probed (locate : Bytes → StringMapValue → Bytes → κ) :
    ProbedBackend locate (entryBackend locate) where
  construct _ _ := rfl
  objectExists _ _ _ := rfl
  statAbsent absent := by
    unfold entryBackend
    dsimp only
    rw [absent]
  statPresent {op path w kind} present := by
    refine ⟨{ contentLength := 0, isFile := kind == .file, isDir := kind == .directory }, ?_,
      beq_iff_eq, beq_iff_eq⟩
    unfold entryBackend
    dsimp only
    rw [present]

end Entries

theorem probes_tell_file :
    letI : StringUtil := percentDecoding
    let locate : Bytes → StringMapValue → Bytes → Bytes := fun _ _ path => path
    let w : Store Bytes EntryKind := put (fun _ => none) (bytes "dir/f") .file
    Tells (entryBackend locate) (fileExists {} (bytes "gs://b/dir/f") none) w
        (Stored locate {} none (bytes "gs://b/dir/f") w .file) ∧
      Tells (entryBackend locate) (directoryExists {} (bytes "gs://b/dir/f") none) w
        (Stored locate {} none (bytes "gs://b/dir/f") w .directory) := by
  let _ : StringUtil := percentDecoding
  intro locate w
  let p := (OpenDALPath.tryParse (bytes "gs://b/dir/f") {}).2
  have hparse : (OpenDALPath.tryParse (bytes "gs://b/dir/f") {}).1 = true := by decide +kernel
  obtain ⟨op, hplan⟩ := operatorPlan_default hparse
  have hserves : Serves (entryBackend locate) {} none (bytes "gs://b/dir/f") w op p :=
    ⟨hplan, by decide +kernel, rfl⟩
  have hstored : w (object locate op p.path) = some .file := by
    change w p.path = some .file
    decide +kernel
  have htell := (probes_tell_iff (entryBackend_probed locate) {} none (bytes "gs://b/dir/f") w).2.2.mpr
    (Or.inr ⟨op, p, hserves, hstored⟩)
  exact ⟨htell.1, htell.2.1⟩

/-- A directory is taken for a file, and the probe for an absent directory throws. -/
theorem probes_mislead :
    letI : StringUtil := percentDecoding
    let locate : Bytes → StringMapValue → Bytes → Bytes := fun _ _ path => path
    let w : Store Bytes EntryKind := put (fun _ => none) (bytes "dir/") .directory
    let file := (fileExists {} (bytes "gs://b/dir/") none).run (entryBackend locate) w
    let missing := (directoryExists {} (bytes "gs://b/missing/") none).run (entryBackend locate) w
    w (bytes "dir/") = some .directory ∧ file.1 = .ok true ∧
      w (bytes "missing/") = none ∧ missing.1 = .error notFound := by
  decide +kernel

end DuckdbOpendalfs.Directories.Probes
