/- DuckdbOpendalfs/Move/MoveFile
   digest: Moves between URIs, and when the rename of one operator reaches the object of the target. -/

import DuckdbOpendalfs.Address.ParseSpec
import DuckdbOpendalfs.Operators.Objects

set_option autoImplicit false
set_option relaxedAutoImplicit false

namespace DuckdbOpendalfs.Move.MoveFile

open Text.ByteString
open Collections.Stores
open Execution.Programs
open Address.Prefixes Address.Uri Address.ParseSpec
open Operators.LayerOptions Operators.Configuration Operators.Objects

section Functions

variable [StringUtil]

/-- The fallback: read, write to the target, remove the source. -/
def moveByCopy (fs : OpenDALFileSystem) (source_p target_p : Bytes) (source target : OpenDALPath)
    (opener_p : Option FileOpener) : FileSystemM Unit := do
  let (source_op, source) ← createOperator fs source_p source opener_p
  let (target_op, target) ← createOperator fs target_p target opener_p
  let data ← call (.read source_op source.path)
  call (.write target_op target.path data)
  call (.remove source_op source.path)

/-- The fast path: one rename on the operator of the source. -/
def moveByRename (fs : OpenDALFileSystem) (source_p : Bytes) (source target : OpenDALPath)
    (opener_p : Option FileOpener) : FileSystemM Unit := do
  let (op, source) ← createOperator fs source_p source opener_p
  call (.rename op source.path target.path)

def moveFile (fs : OpenDALFileSystem) (source_p target_p : Bytes)
    (opener_p : Option FileOpener) : FileSystemM Unit :=
  match OpenDALPath.tryParse source_p {} with
  | (false, _) => .fail (unsupportedPrefix source_p)
  | (true, source) =>
    match OpenDALPath.tryParse target_p {} with
    | (false, _) => .fail (unsupportedPrefix target_p)
    | (true, target) =>
      if source.path.isEmpty || target.path.isEmpty then
        .fail (.invalidInput (bytes "OpenDAL move paths must not be empty"))
      else if source.scheme == target.scheme then
        moveByRename fs source_p source target opener_p
      else moveByCopy fs source_p target_p source target opener_p

end Functions

/-- An object is addressed by a scheme, an effective configuration and an object path. -/
abbrev ObjectAddress := Bytes × StringMapValue × Bytes

def locateAddress (scheme : Bytes) (config : StringMapValue) (path : Bytes) : ObjectAddress :=
  (scheme, config, path)

section Addresses

variable {s t : OpenDALPath} {cs ct : StringMap} {w : Store ObjectAddress Bytes}

abbrev addressOf (parsed : OpenDALPath) (config : StringMap) : ObjectAddress :=
  (parsed.scheme, config.toFinmap, parsed.path)

/-- The condition under which a move reaches the object the target names: another scheme, one
effective configuration, or contents that were in place already. -/
def Reaches (w : Store ObjectAddress Bytes) (s t : OpenDALPath) (cs ct : StringMap) : Prop :=
  s.scheme ≠ t.scheme ∨ cs.toFinmap = ct.toFinmap ∨
    (s.path ≠ t.path ∧ w (addressOf t ct) = w (addressOf s cs) ∧
      w (s.scheme, cs.toFinmap, t.path) = w (addressOf s cs))

private theorem relocate_moves_iff (same : s.scheme = t.scheme)
    (distinct : addressOf s cs ≠ addressOf t ct) (present : w (addressOf s cs) ≠ none) :
    Moved w (relocate w (addressOf s cs) (s.scheme, cs.toFinmap, t.path)) (addressOf s cs)
        (addressOf t ct) ↔ Reaches w s t cs ct := by
  by_cases hconfig : cs.toFinmap = ct.toFinmap
  · have htarget : (s.scheme, cs.toFinmap, t.path) = addressOf t ct := by
      rw [addressOf, same, hconfig]
    rw [htarget]
    exact iff_of_true (moved_relocate w distinct) (Or.inr (Or.inl hconfig))
  · have hapart : (s.scheme, cs.toFinmap, t.path) ≠ addressOf t ct :=
      fun heq => hconfig (Prod.mk.inj (Prod.mk.inj heq).2).1
    have hpath : addressOf s cs ≠ (s.scheme, cs.toFinmap, t.path) ↔ s.path ≠ t.path := by
      simp [addressOf]
    rw [moved_stray_iff present hapart distinct, hpath]
    simp [Reaches, same, hconfig]

end Addresses

section Outcomes

variable [StringUtil]

def Names (fs : OpenDALFileSystem) (opener : Option FileOpener) (uri : Bytes)
    (parsed : OpenDALPath) (config : StringMap) : Prop :=
  OpenDALPath.tryParse uri {} = (true, parsed) ∧ parsed.path ≠ [] ∧
    createOperatorConfig fs uri parsed opener = .ok config

variable {backend : Backend (Store ObjectAddress Bytes)} {fs : OpenDALFileSystem}
  {opener : Option FileOpener} {source target : Bytes} {s t : OpenDALPath} {cs ct : StringMap}
  {w w' : Store ObjectAddress Bytes}

private theorem createOperator_ok (laws : MoveBackend locateAddress backend)
    (names : Names fs opener source s cs) {op : Operator} {p : OpenDALPath}
    (h : (createOperator fs source s opener).run backend w = (.ok (op, p), w')) :
    op.scheme = s.scheme ∧ op.config = cs ∧ p = s ∧ w' = w := by
  obtain ⟨hparse, -, hconfig⟩ := names
  obtain ⟨hplan, hconstruct⟩ := run_createOperatorWith_ok h
  obtain ⟨hagain, hprovider, -, hscheme⟩ := operatorPlan_ok_iff.mp hplan
  obtain rfl : p = s := (Prod.mk.inj (hagain.symm.trans (tryParse_again hparse s))).2
  exact ⟨hscheme, (Except.ok.inj (hconfig.symm.trans hprovider)).symm, rfl,
    laws.construct hconstruct⟩

theorem moveByCopy_moves (laws : MoveBackend locateAddress backend)
    (sourceNames : Names fs opener source s cs) (targetNames : Names fs opener target t ct)
    (distinct : addressOf s cs ≠ addressOf t ct)
    (h : (moveByCopy fs source target s t opener).run backend w = (.ok (), w')) :
    Moved w w' (addressOf s cs) (addressOf t ct) := by
  obtain ⟨⟨source_op, s'⟩, w₁, hsource, hrest⟩ := (Program.run_bind_ok backend).mp h
  obtain ⟨⟨target_op, t'⟩, w₂, htarget, hrest⟩ := (Program.run_bind_ok backend).mp hrest
  obtain ⟨data, w₃, hread, hrest⟩ := (Program.run_bind_ok backend).mp hrest
  obtain ⟨_, w₄, hwrite, hremove⟩ := (Program.run_bind_ok backend).mp hrest
  obtain ⟨hscheme, hconfig, rfl, rfl⟩ := createOperator_ok laws sourceNames hsource
  obtain ⟨hscheme', hconfig', rfl, rfl⟩ := createOperator_ok laws targetNames htarget
  rw [Program.run_perform] at hread hwrite hremove
  obtain ⟨rfl, hdata⟩ := laws.read hread
  obtain rfl := laws.write hwrite
  obtain rfl := laws.remove hremove
  simp only [object, locateAddress, hscheme, hconfig, hscheme', hconfig'] at hdata ⊢
  exact moved_put_erase hdata distinct

theorem moveByRename_relocates (laws : MoveBackend locateAddress backend)
    (sourceNames : Names fs opener source s cs)
    (h : (moveByRename fs source s t opener).run backend w = (.ok (), w')) :
    w' = relocate w (addressOf s cs) (s.scheme, cs.toFinmap, t.path) := by
  obtain ⟨⟨op, s'⟩, w₁, hsource, hrename⟩ := (Program.run_bind_ok backend).mp h
  obtain ⟨hscheme, hconfig, rfl, rfl⟩ := createOperator_ok laws sourceNames hsource
  rw [Program.run_perform] at hrename
  obtain rfl := laws.rename hrename
  simp only [object, locateAddress, hscheme, hconfig]

/-- A successful move of an existing object reaches the object the target names exactly under
`Reaches`, and exactly then it ends where the fallback would. -/
theorem moveFile_moves_iff (laws : MoveBackend locateAddress backend)
    (sourceNames : Names fs opener source s cs) (targetNames : Names fs opener target t ct)
    (distinct : addressOf s cs ≠ addressOf t ct) (present : w (addressOf s cs) ≠ none)
    (succeeds : (moveFile fs source target opener).run backend w = (.ok (), w')) :
    (Moved w w' (addressOf s cs) (addressOf t ct) ↔ Reaches w s t cs ct) ∧
      ∀ w'', (moveByCopy fs source target s t opener).run backend w = (.ok (), w'') →
        (w' = w'' ↔ Reaches w s t cs ct) := by
  have hmoved : Moved w w' (addressOf s cs) (addressOf t ct) ↔ Reaches w s t cs ct := by
    have hnonempty : (s.path.isEmpty || t.path.isEmpty) = false := by
      simp [sourceNames.2.1, targetNames.2.1]
    unfold moveFile at succeeds
    simp only [sourceNames.1, targetNames.1, hnonempty, Bool.false_eq_true, ↓reduceIte] at succeeds
    split at succeeds
    · rename_i hscheme
      obtain rfl := moveByRename_relocates laws sourceNames succeeds
      exact relocate_moves_iff (beq_iff_eq.mp hscheme) distinct present
    · rename_i hscheme
      have hne : s.scheme ≠ t.scheme := fun heq => hscheme (beq_iff_eq.mpr heq)
      exact iff_of_true (moveByCopy_moves laws sourceNames targetNames distinct succeeds)
        (Or.inl hne)
  refine ⟨hmoved, fun w'' hcopy => ?_⟩
  have hcopied := moveByCopy_moves laws sourceNames targetNames distinct hcopy
  rw [← hmoved]
  constructor
  · rintro rfl
    exact hcopied
  · exact fun h => h.unique hcopied

end Outcomes

theorem moveFile_moves_bucket :
    letI : StringUtil := percentDecoding
    let s := (OpenDALPath.tryParse (bytes "gs://b/x") {}).2
    let t := (OpenDALPath.tryParse (bytes "gs://b/y") {}).2
    let source := addressOf s s.uriConfig
    let target := addressOf t t.uriConfig
    let w : Store ObjectAddress Bytes := put (fun _ => none) source (bytes "data")
    let after := (moveFile {} (bytes "gs://b/x") (bytes "gs://b/y") none).run
      (storeBackend locateAddress) w
    after.1 = .ok () ∧ Moved w after.2 source target := by
  let _ : StringUtil := percentDecoding
  intro s t source target w after
  have hreturns : after.1 = .ok () := by decide +kernel
  have hs : Names {} none (bytes "gs://b/x") s s.uriConfig :=
    ⟨Prod.ext (by decide +kernel) rfl, by decide +kernel, rfl⟩
  have ht : Names {} none (bytes "gs://b/y") t t.uriConfig :=
    ⟨Prod.ext (by decide +kernel) rfl, by decide +kernel, rfl⟩
  have hdistinct : source ≠ target := by decide +kernel
  have hpresent : w source ≠ none := by decide +kernel
  have hconfigs : s.uriConfig.toFinmap = t.uriConfig.toFinmap := by decide +kernel
  exact ⟨hreturns, (moveFile_moves_iff (storeBackend_move locateAddress) hs ht hdistinct hpresent
    (Prod.ext hreturns rfl)).1.mpr (Or.inr (Or.inl hconfigs))⟩

/-- Between two buckets the object is renamed inside the first one: the move succeeds, and the
object of the target does not exist. -/
theorem moveFile_strays_between_buckets :
    letI : StringUtil := percentDecoding
    let s := (OpenDALPath.tryParse (bytes "s3://first/x") {}).2
    let t := (OpenDALPath.tryParse (bytes "s3://second/y") {}).2
    let source := addressOf s s.uriConfig
    let target := addressOf t t.uriConfig
    let w : Store ObjectAddress Bytes := put (fun _ => none) source (bytes "data")
    let after := (moveFile {} (bytes "s3://first/x") (bytes "s3://second/y") none).run
      (storeBackend locateAddress) w
    (createOperatorConfig {} (bytes "s3://first/x") s none).map AList.toFinmap =
        .ok s.uriConfig.toFinmap ∧
      (createOperatorConfig {} (bytes "s3://second/y") t none).map AList.toFinmap =
        .ok t.uriConfig.toFinmap ∧
      s.path ≠ [] ∧ t.path ≠ [] ∧ source ≠ target ∧
      after.1 = .ok () ∧ after.2 target = none ∧
      after.2 (s.scheme, s.uriConfig.toFinmap, t.path) = some (bytes "data") := by
  decide +kernel

end DuckdbOpendalfs.Move.MoveFile
