/- DuckdbOpendalfs/FileSystem/Operations
   digest: The operations of the file system on URIs, as one family, and the objects they name. -/

import DuckdbOpendalfs.Directories.Listing
import DuckdbOpendalfs.Directories.Probes
import DuckdbOpendalfs.Directories.RemoveDirectory
import DuckdbOpendalfs.Handles.OpenFile
import DuckdbOpendalfs.Move.MoveFile
import DuckdbOpendalfs.Removal.Batch

set_option autoImplicit false
set_option relaxedAutoImplicit false

namespace DuckdbOpendalfs.FileSystem.Operations

open Text.ByteString
open Execution.Programs
open Address.Uri
open Operators.LayerOptions Operators.Configuration Operators.Objects
open Directories.Listing Directories.Probes Directories.RemoveDirectory
open Handles.FileHandle Handles.OpenFile
open Move.MoveFile
open Removal.Batch

section Functions

variable [StringUtil]

def tryRemoveFile (fs : OpenDALFileSystem) (path_p : Bytes) (opener_p : Option FileOpener) :
    FileSystemM Bool :=
  probe (fun op path => do
    call (.remove op path)
    return true) fs path_p opener_p

def createDirectory (fs : OpenDALFileSystem) (path_p : Bytes) (opener_p : Option FileOpener) :
    FileSystemM Unit := do
  let (op, parsed_path) ← createOperator fs path_p {} opener_p
  if parsed_path.path.isEmpty then .fail emptyDirectoryPath
  else call (.createDir op parsed_path.path)

def createDirectoriesRecursive (fs : OpenDALFileSystem) (path_p : Bytes)
    (opener_p : Option FileOpener) : FileSystemM Unit :=
  createDirectory fs path_p opener_p

def canHandleFile (path_p : Bytes) : Bool := (OpenDALPath.tryParse path_p {}).1

end Functions

inductive FileOperation
  | openFile (path_p : Bytes) (flags_p : FileOpenFlags)
  | fileExists (path_p : Bytes)
  | directoryExists (path_p : Bytes)
  | createDirectory (path_p : Bytes)
  | createDirectoriesRecursive (path_p : Bytes)
  | listFiles (path_p : Bytes)
  | moveFile (source_p target_p : Bytes)
  | removeDirectory (path_p : Bytes)
  | removeFile (path_p : Bytes)
  | removeFiles (paths_p : List Bytes)
  | tryRemoveFile (path_p : Bytes)
  deriving DecidableEq, Repr

inductive FileAnswer
  | done
  | flag (answer : Bool)
  | opened (file : Option OpenedFile)
  | listed (reports : List (Bytes × Bool)) (answer : Bool)
  deriving DecidableEq, Repr

/-- The calls of an operation. -/
def FileOperation.program [StringUtil] (fs : OpenDALFileSystem) (opener_p : Option FileOpener) :
    FileOperation → FileSystemM FileAnswer
  | .openFile path_p flags_p => do
    let file ← Handles.OpenFile.openFile fs path_p flags_p opener_p
    return .opened file
  | .fileExists path_p => do
    let answer ← Directories.Probes.fileExists fs path_p opener_p
    return .flag answer
  | .directoryExists path_p => do
    let answer ← Directories.Probes.directoryExists fs path_p opener_p
    return .flag answer
  | .createDirectory path_p => do
    Operations.createDirectory fs path_p opener_p
    return .done
  | .createDirectoriesRecursive path_p => do
    Operations.createDirectoriesRecursive fs path_p opener_p
    return .done
  | .listFiles path_p => do
    let (reports, answer) ← Directories.Listing.listFiles fs path_p opener_p
    return .listed reports answer
  | .moveFile source_p target_p => do
    Move.MoveFile.moveFile fs source_p target_p opener_p
    return .done
  | .removeDirectory path_p => do
    Directories.RemoveDirectory.removeDirectory fs path_p opener_p
    return .done
  | .removeFile path_p => do
    Removal.Batch.removeFile fs path_p opener_p
    return .done
  | .removeFiles paths_p => do
    Removal.Batch.removeFiles fs paths_p opener_p
    return .done
  | .tryRemoveFile path_p => do
    let answer ← Operations.tryRemoveFile fs path_p opener_p
    return .flag answer

def FileOperation.uris : FileOperation → List Bytes
  | .openFile path _ | .fileExists path | .directoryExists path | .createDirectory path
  | .createDirectoriesRecursive path | .listFiles path | .removeDirectory path | .removeFile path
  | .tryRemoveFile path => [path]
  | .moveFile source target => [source, target]
  | .removeFiles paths => paths

section Objects

variable {κ : Type} (locate : Bytes → StringMapValue → Bytes → κ)

/-- What a call looks at. A listing looks at everything under its path. -/
def reaches : OpenDALCall → Set κ
  | .construct _ => ∅
  | .objectExists op path | .stat op path | .read op path | .write op path _ | .remove op path
  | .createDir op path | .getReader op path | .getWriter op path => {object locate op path}
  | .rename op source target => {object locate op source, object locate op target}
  | .removeAll op paths => {k | ∃ path ∈ paths, k = object locate op path}
  | .list op path => {k | ∃ entry, path <+: entry ∧ k = object locate op entry}

def writes : OpenDALCall → Set κ
  | .write op path _ | .remove op path | .createDir op path => {object locate op path}
  | .rename op source target => {object locate op source, object locate op target}
  | .removeAll op paths => {k | ∃ path ∈ paths, k = object locate op path}
  | .construct _ | .objectExists _ _ | .stat _ _ | .read _ _ | .list _ _ | .getReader _ _
  | .getWriter _ _ => ∅

variable [StringUtil] (fs : OpenDALFileSystem) (opener : Option FileOpener)

def Addressed (uri : Bytes) (parsed : OpenDALPath) (config : StringMap) : Prop :=
  OpenDALPath.tryParse uri {} = (true, parsed) ∧
    createOperatorConfig fs uri parsed opener = .ok config

def namedBy (uri : Bytes) : Set κ :=
  {k | ∃ parsed config, Addressed fs opener uri parsed config ∧
    k = locate parsed.scheme config.toFinmap parsed.path}

def namedBelow (uri : Bytes) : Set κ :=
  {k | ∃ parsed config entry, Addressed fs opener uri parsed config ∧ parsed.path <+: entry ∧
    k = locate parsed.scheme config.toFinmap entry}

/-- The object a move puts the contents at: that of the target, for an operator of the target's own
only where the schemes differ. -/
def movedTo (source target : Bytes) : Set κ :=
  {k | ∃ parsed config parsed' config', Addressed fs opener source parsed config ∧
    OpenDALPath.tryParse target {} = (true, parsed') ∧
    k = locate parsed'.scheme config'.toFinmap parsed'.path ∧
    if parsed.scheme = parsed'.scheme then config' = config
    else createOperatorConfig fs target parsed' opener = .ok config'}

def FileOperation.objects : FileOperation → Set κ
  | .openFile path _ | .fileExists path | .directoryExists path | .createDirectory path
  | .createDirectoriesRecursive path | .removeDirectory path | .removeFile path
  | .tryRemoveFile path => namedBy locate fs opener path
  | .listFiles path => namedBelow locate fs opener path
  | .moveFile source target =>
    namedBy locate fs opener source ∪ movedTo locate fs opener source target
  | .removeFiles paths => {k | ∃ path ∈ paths, k ∈ namedBy locate fs opener path}

/-- What an operation may change: an open does so where it may create or overwrite. -/
def FileOperation.changes : FileOperation → Set κ
  | .openFile path flags =>
    if flags.createFileIfNotExists || flags.overwriteExistingFile then namedBy locate fs opener path
    else ∅
  | .fileExists _ | .directoryExists _ | .listFiles _ => ∅
  | .createDirectory path | .createDirectoriesRecursive path | .removeDirectory path
  | .removeFile path | .tryRemoveFile path => namedBy locate fs opener path
  | .moveFile source target =>
    namedBy locate fs opener source ∪ movedTo locate fs opener source target
  | .removeFiles paths => {k | ∃ path ∈ paths, k ∈ namedBy locate fs opener path}

end Objects

end DuckdbOpendalfs.FileSystem.Operations
