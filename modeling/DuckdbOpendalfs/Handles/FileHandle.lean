/- DuckdbOpendalfs/Handles/FileHandle
   digest: Open flags and options, file metadata, and what every file handle shares. -/

import DuckdbOpendalfs.Operators.Configuration

set_option autoImplicit false
set_option relaxedAutoImplicit false

namespace DuckdbOpendalfs.Handles.FileHandle

open Text.ByteString
open Operators.LayerOptions Operators.Configuration

/-- The open flags of DuckDB, by what they are asked for. -/
structure FileOpenFlags where
  openForReading : Bool := false
  openForWriting : Bool := false
  createFileIfNotExists : Bool := false
  overwriteExistingFile : Bool := false
  openForAppending : Bool := false
  returnNullIfNotExists : Bool := false
  deriving DecidableEq, Repr

structure OpenDALOpenOptions where
  read : Bool := true
  write : Bool := false
  create : Bool := false
  truncate : Bool := false
  append : Bool := false
  deriving DecidableEq, Repr

def OpenDALOpenOptions.ofFlags (flags_p : FileOpenFlags) : OpenDALOpenOptions where
  read := flags_p.openForReading
  write := flags_p.openForWriting
  create := flags_p.createFileIfNotExists || flags_p.overwriteExistingFile
  truncate := flags_p.overwriteExistingFile
  append := flags_p.openForAppending

def OpenDALOpenOptions.isValid (options : OpenDALOpenOptions) : Bool :=
  if !options.read && !options.write then false
  else if options.read && options.write then false
  else if (options.create || options.truncate || options.append) && !options.write then false
  else if options.append then false
  else true

theorem isValid_iff (options : OpenDALOpenOptions) :
    options.isValid = true ↔
      (options.read = !options.write) ∧ options.append = false ∧
        (options.write = false → options.create = false ∧ options.truncate = false) := by
  obtain ⟨read, write, create, truncate, append⟩ := options
  revert read write create truncate append
  decide

inductive FileType
  | regular | directory | invalid
  deriving DecidableEq, Repr

structure FileMetadata where
  fileSize : Int64
  fileType : FileType
  lastModificationTime : Option Int
  versionTag : Bytes
  deriving DecidableEq, Repr

def sizeOutOfRange : Exception :=
  .internal (bytes "Information loss on integer cast: value outside of target range")

/-- `NumericCast` refuses sizes that do not fit. -/
def convertMetadata (metadata_p : Metadata) : Except Exception FileMetadata :=
  if Int64.maxValue.toUInt64 < metadata_p.contentLength then .error sizeOutOfRange
  else
    .ok
      { fileSize := metadata_p.contentLength.toInt64
        fileType :=
          if metadata_p.isFile then .regular
          else if metadata_p.isDir then .directory else .invalid
        lastModificationTime := metadata_p.lastModified
        versionTag := metadata_p.etag.getD [] }

def streamMax : Nat := 2 ^ 63 - 1

def handleClosed : Exception := .io (bytes "OpenDAL file handle is closed")

/-- A member call through an empty pointer. -/
def nullPointer : Exception :=
  .internal (bytes "Attempted to dereference unique_ptr that is NULL!")

/-- A handle cast to the other kind of handle. -/
def badCast : Exception := .internal (bytes "Failed to cast file handle to type")

def ensureOpen (closed : Bool) : Except Exception Unit :=
  if closed then .error handleClosed else .ok ()

end DuckdbOpendalfs.Handles.FileHandle
