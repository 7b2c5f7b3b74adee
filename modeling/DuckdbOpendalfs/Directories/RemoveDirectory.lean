/- DuckdbOpendalfs/Directories/RemoveDirectory
   digest: Removing a directory, and when nothing is left under it. -/

import DuckdbOpendalfs.Directories.Listing
import DuckdbOpendalfs.Move.MoveFile

set_option autoImplicit false
set_option relaxedAutoImplicit false

namespace DuckdbOpendalfs.Directories.RemoveDirectory

open Text.ByteString
open Collections.Stores
open Execution.Programs
open Address.Uri
open Operators.Configuration Operators.Objects
open Move.MoveFile (ObjectAddress locateAddress addressOf Names)
open Listing (emptyDirectoryPath)

def removeDirectory [StringUtil] (fs : OpenDALFileSystem) (path_p : Bytes)
    (opener_p : Option FileOpener) : FileSystemM Unit := do
  let (op, parsed_path) ← createOperator fs path_p {} opener_p
  if parsed_path.path.isEmpty then .fail emptyDirectoryPath
  else call (.remove op parsed_path.path)

def Under (directory k : ObjectAddress) : Prop :=
  k.1 = directory.1 ∧ k.2.1 = directory.2.1 ∧ directory.2.2 <+: k.2.2

/-- Nothing is left of a directory, and nothing else has changed. -/
structure Cleared (w w' : Store ObjectAddress Bytes) (directory : ObjectAddress) : Prop where
  gone : ∀ k, Under directory k → w' k = none
  frame : ∀ k, ¬ Under directory k → w' k = w k

theorem under_self (directory : ObjectAddress) : Under directory directory :=
  ⟨rfl, rfl, List.prefix_refl _⟩

theorem cleared_erase_iff (w : Store ObjectAddress Bytes) (directory : ObjectAddress) :
    Cleared w (erase w directory) directory ↔
      ∀ k, Under directory k → k ≠ directory → w k = none := by
  constructor
  · intro cleared k hunder hne
    have hgone := cleared.gone k hunder
    rwa [erase, Function.update_of_ne hne] at hgone
  · intro empty
    refine ⟨fun k hunder => ?_, fun k houtside => ?_⟩
    · by_cases hk : k = directory
      · rw [hk, erase, Function.update_self]
      · rw [erase, Function.update_of_ne hk]
        exact empty k hunder hk
    · have hk : k ≠ directory := by
        rintro rfl
        exact houtside (under_self k)
      rw [erase, Function.update_of_ne hk]

section Outcomes

variable [StringUtil] {backend : Backend (Store ObjectAddress Bytes)} {fs : OpenDALFileSystem}
  {opener : Option FileOpener} {uri : Bytes} {w w' : Store ObjectAddress Bytes}

theorem removeDirectory_erases (laws : MoveBackend locateAddress backend)
    (h : (removeDirectory fs uri opener).run backend w = (.ok (), w')) :
    ∃ p config, Names fs opener uri p config ∧ w' = erase w (addressOf p config) := by
  obtain ⟨⟨op, p⟩, w₁, hcreate, hrest⟩ := (Program.run_bind_ok backend).mp h
  obtain ⟨hplan, hconstruct⟩ := run_createOperatorWith_ok hcreate
  obtain ⟨hparse, hconfig, -, hscheme⟩ := operatorPlan_ok_iff.mp hplan
  obtain rfl := laws.construct hconstruct
  dsimp only at hrest
  split at hrest
  · cases hrest
  · rename_i hnonempty
    rw [Program.run_perform] at hrest
    have hpath : p.path ≠ [] := by simpa using hnonempty
    refine ⟨p, op.config, ⟨hparse, hpath, hconfig⟩, ?_⟩
    rw [laws.remove hrest, object, locateAddress, hscheme]

/-- After a removal that returns nothing is left under the directory exactly when nothing but the
entry of the directory itself was there. -/
theorem removeDirectory_clears_iff (laws : MoveBackend locateAddress backend)
    (h : (removeDirectory fs uri opener).run backend w = (.ok (), w')) :
    ∃ p config, Names fs opener uri p config ∧
      (Cleared w w' (addressOf p config) ↔
        ∀ k, Under (addressOf p config) k → k ≠ addressOf p config → w k = none) := by
  obtain ⟨p, config, names, rfl⟩ := removeDirectory_erases laws h
  exact ⟨p, config, names, cleared_erase_iff w _⟩

end Outcomes

theorem removeDirectory_clears_empty :
    letI : StringUtil := percentDecoding
    let p := (OpenDALPath.tryParse (bytes "gs://b/dir/") {}).2
    let w : Store ObjectAddress Bytes := put (fun _ => none) (addressOf p p.uriConfig) []
    Cleared w ((removeDirectory {} (bytes "gs://b/dir/") none).run
      (storeBackend locateAddress) w).2 (addressOf p p.uriConfig) := by
  let _ : StringUtil := percentDecoding
  intro p w
  have hrun : ((removeDirectory {} (bytes "gs://b/dir/") none).run
      (storeBackend locateAddress) w).1 = .ok () := by decide +kernel
  obtain ⟨p', config, ⟨hparse, -, hconfig⟩, hiff⟩ :=
    removeDirectory_clears_iff (storeBackend_move locateAddress) (Prod.ext hrun rfl)
  obtain rfl : p' = p := (congrArg Prod.snd hparse).symm
  have hsame : (createOperatorConfig {} (bytes "gs://b/dir/") p none).map AList.toFinmap =
      .ok p.uriConfig.toFinmap := by decide +kernel
  rw [hconfig] at hsame
  have haddress : addressOf p config = addressOf p p.uriConfig := by
    rw [addressOf, addressOf, Except.ok.inj hsame]
  rw [haddress] at hiff
  refine hiff.mpr fun k _ hne => ?_
  exact Function.update_of_ne hne _ _

/-- A file in a removed directory stays. -/
theorem removeDirectory_leaves_file :
    letI : StringUtil := percentDecoding
    let p := (OpenDALPath.tryParse (bytes "gs://b/dir/") {}).2
    let directory := addressOf p p.uriConfig
    let file : ObjectAddress := (p.scheme, p.uriConfig.toFinmap, bytes "dir/f")
    let w : Store ObjectAddress Bytes := put (put (fun _ => none) directory []) file (bytes "x")
    let removed := (removeDirectory {} (bytes "gs://b/dir/") none).run (storeBackend locateAddress) w
    Under directory file ∧ removed.1 = .ok () ∧ removed.2 file = some (bytes "x") ∧
      removed.2 directory = none := by
  refine ⟨⟨rfl, rfl, bytes "f", ?_⟩, ?_, ?_, ?_⟩ <;> decide +kernel

end DuckdbOpendalfs.Directories.RemoveDirectory
