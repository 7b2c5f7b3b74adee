/- DuckdbOpendalfs/Handles/OpenFile
   digest: Opening a URI for reading or for writing, and the handles it returns. -/

import DuckdbOpendalfs.Handles.WriteHandle

set_option autoImplicit false
set_option relaxedAutoImplicit false

namespace DuckdbOpendalfs.Handles.OpenFile

open Text.ByteString
open Execution.Programs
open Address.Uri
open Operators.LayerOptions Operators.Configuration
open FileHandle WriteHandle

/-- A handle as it is returned. A read handle is known by what it is constructed with. -/
inductive OpenedFile
  | read (flags_p : FileOpenFlags) (metadata_p : FileMetadata)
  | write (handle : OpenDALWriteHandle)
  deriving DecidableEq, Repr

def emptyPath : Exception := .invalidInput (bytes "OpenDAL path must not be empty")
def invalidOptions : Exception := .invalidInput (bytes "Invalid OpenDAL file open options")
def emptyObjectPath : Exception := .invalidInput (bytes "OpenDAL object path must not be empty")

def objectMissing (path_p : Bytes) : Exception :=
  .io (bytes "OpenDAL object does not exist: " ++ path_p)

/-- The construction of a read handle. -/
def openForReading (op : Operator) (path : Bytes) (flags_p : FileOpenFlags) :
    FileSystemM (Option OpenedFile) := do
  let metadata ← call (.stat op path)
  let metadata_p ← convertMetadata metadata
  call (.getReader op path)
  return some (.read flags_p metadata_p)

/-- The construction of a write handle, which may start with an empty object. -/
def openForWriting (op : Operator) (path : Bytes) (flags_p : FileOpenFlags)
    (initialize_empty_p : Bool) : FileSystemM (Option OpenedFile) := do
  if initialize_empty_p then call (.write op path [])
  call (.getWriter op path)
  return some (.write (OpenDALWriteHandle.opened flags_p))

def openObject (op : Operator) (path path_p : Bytes) (flags_p : FileOpenFlags)
    (options : OpenDALOpenOptions) : FileSystemM (Option OpenedFile) := do
  let present ← call (.objectExists op path)
  if !present && !options.create then
    if flags_p.returnNullIfNotExists then return none else .fail (objectMissing path_p)
  else if options.read then openForReading op path flags_p
  else openForWriting op path flags_p (!present || options.truncate)

def openFile [StringUtil] (fs : OpenDALFileSystem) (path_p : Bytes) (flags_p : FileOpenFlags)
    (opener_p : Option FileOpener) : FileSystemM (Option OpenedFile) :=
  let options := OpenDALOpenOptions.ofFlags flags_p
  if path_p.isEmpty then .fail emptyPath
  else if !options.isValid then .fail invalidOptions
  else do
    let (op, parsed_path) ← createOperator fs path_p {} opener_p
    if parsed_path.path.isEmpty then .fail emptyObjectPath
    else openObject op parsed_path.path path_p flags_p options

section Accepted

structure Accepted [StringUtil] (fs : OpenDALFileSystem) (path_p : Bytes) (flags_p : FileOpenFlags)
    (opener_p : Option FileOpener) (op : Operator) (parsed_path : OpenDALPath) : Prop where
  named : path_p ≠ []
  valid : (OpenDALOpenOptions.ofFlags flags_p).isValid = true
  plan : operatorPlan (createOperatorConfig fs · · opener_p) path_p {} opener_p = .ok (op, parsed_path)
  addressed : parsed_path.path ≠ []

variable [StringUtil] {σ : Type} {backend : Backend σ} {fs : OpenDALFileSystem} {path : Bytes}
  {flags : FileOpenFlags} {opener : Option FileOpener} {w : σ}

theorem Accepted.unique {op op' : Operator} {p p' : OpenDALPath}
    (accepted : Accepted fs path flags opener op p)
    (accepted' : Accepted fs path flags opener op' p') : op' = op ∧ p' = p :=
  Prod.mk.inj (Except.ok.inj (accepted'.plan.symm.trans accepted.plan))

theorem run_openFile {op : Operator} {p : OpenDALPath}
    (accepted : Accepted fs path flags opener op p) :
    (openFile fs path flags opener).run backend w =
      match backend (.construct op) w with
      | (.error e, w') => (.error e, w')
      | (.ok _, w') =>
        (openObject op p.path path flags (OpenDALOpenOptions.ofFlags flags)).run backend w' := by
  have hnamed : ¬ path.isEmpty = true := by simpa using accepted.named
  have hvalid : ¬ (!(OpenDALOpenOptions.ofFlags flags).isValid) = true := by simp [accepted.valid]
  have haddressed : ¬ p.path.isEmpty = true := by simpa using accepted.addressed
  unfold openFile
  dsimp only
  rw [if_neg hnamed, if_neg hvalid, Program.run_bind, createOperator, run_createOperatorWith,
    accepted.plan]
  dsimp only
  rcases backend (.construct op) w with ⟨e | done, w'⟩
  · rfl
  · dsimp only
    rw [if_neg haddressed]

theorem run_openFile_rejected (rejected : ∀ op p, ¬ Accepted fs path flags opener op p)
    (constructs : ∀ op, (backend (.construct op) w).2 = w) :
    ∃ e, (openFile fs path flags opener).run backend w = (.error e, w) := by
  unfold openFile
  dsimp only
  by_cases hnamed : path = []
  · rw [if_pos (List.isEmpty_iff.mpr hnamed)]
    exact ⟨emptyPath, rfl⟩
  by_cases hvalid : (OpenDALOpenOptions.ofFlags flags).isValid = true
  swap
  · rw [if_neg (by simpa using hnamed), if_pos (by simpa using hvalid)]
    exact ⟨invalidOptions, rfl⟩
  rw [if_neg (by simpa using hnamed), if_neg (by simp [hvalid]), Program.run_bind, createOperator,
    run_createOperatorWith]
  cases hplan : operatorPlan (createOperatorConfig fs · · opener) path {} opener with
  | error e => exact ⟨e, rfl⟩
  | ok plan =>
    obtain ⟨op, p⟩ := plan
    have hconstruct := constructs op
    dsimp only
    rcases hcall : backend (.construct op) w with ⟨e | done, w'⟩
    · rw [hcall] at hconstruct
      exact ⟨e, by rw [← hconstruct]⟩
    · rw [hcall] at hconstruct
      obtain rfl : w' = w := hconstruct
      by_cases haddressed : p.path = []
      · dsimp only
        rw [if_pos (List.isEmpty_iff.mpr haddressed)]
        exact ⟨emptyObjectPath, rfl⟩
      · exact absurd ⟨hnamed, hvalid, hplan, haddressed⟩ (rejected op p)

end Accepted

def Opened (flags : FileOpenFlags) : Option OpenedFile → Prop
  | none => flags.returnNullIfNotExists = true
  | some (.read flags' _) => flags' = flags ∧ flags.openForReading = true
  | some (.write handle) =>
    handle = OpenDALWriteHandle.opened flags ∧ flags.openForReading = false

private theorem openForReading_returns {flags : FileOpenFlags}
    (reading : flags.openForReading = true) (op : Operator) (path : Bytes) :
    (openForReading op path flags).Returns (Opened flags) := by
  refine Program.returns_bind fun metadata => Program.returns_bind fun metadata_p => ?_
  exact Program.returns_bind fun _ => ⟨rfl, reading⟩

private theorem openForWriting_returns {flags : FileOpenFlags}
    (writing : flags.openForReading = false) (op : Operator) (path : Bytes) (empty : Bool) :
    (openForWriting op path flags empty).Returns (Opened flags) := by
  have hwriter : (do
      call (.getWriter op path)
      return some (.write (OpenDALWriteHandle.opened flags)) :
        FileSystemM (Option OpenedFile)).Returns (Opened flags) :=
    Program.returns_bind fun _ => ⟨rfl, writing⟩
  cases empty with
  | true => exact Program.returns_bind fun _ => hwriter
  | false => exact hwriter

theorem openFile_returns [StringUtil] (fs : OpenDALFileSystem) (path : Bytes)
    (flags : FileOpenFlags) (opener : Option FileOpener) :
    (openFile fs path flags opener).Returns (Opened flags) := by
  unfold openFile
  dsimp only
  split_ifs
  · trivial
  · trivial
  · refine Program.returns_bind fun created => ?_
    split
    · trivial
    · refine Program.returns_bind fun present => ?_
      split_ifs with hmissing hnull hread
      · exact hnull
      · trivial
      · exact openForReading_returns hread _ _
      · exact openForWriting_returns (Bool.eq_false_of_not_eq_true hread) _ _ _

end DuckdbOpendalfs.Handles.OpenFile
