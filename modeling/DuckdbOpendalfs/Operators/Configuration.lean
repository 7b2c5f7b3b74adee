/- DuckdbOpendalfs/Operators/Configuration
   digest: Backend calls, and the operator a URI is served by: base configuration, URI and secrets. -/

import DuckdbOpendalfs.Address.Layouts
import DuckdbOpendalfs.Execution.Programs
import DuckdbOpendalfs.Operators.LayerOptions

set_option autoImplicit false
set_option relaxedAutoImplicit false

namespace DuckdbOpendalfs.Operators.Configuration

open Text.ByteString
open Address Address.Prefixes Address.Uri Address.Layouts
open Execution.Programs
open LayerOptions

section Backend

structure Operator where
  scheme : Bytes
  config : StringMap
  options : List OperatorOption

structure Metadata where
  contentLength : UInt64
  isFile : Bool
  isDir : Bool
  lastModified : Option Int := none
  etag : Option Bytes := none

structure Entry where
  path : Bytes

/-- The calls into OpenDAL; `construct` is the constructor of an operator. -/
inductive OpenDALCall
  | construct (op : Operator)
  | objectExists (op : Operator) (path : Bytes)
  | stat (op : Operator) (path : Bytes)
  | read (op : Operator) (path : Bytes)
  | write (op : Operator) (path data : Bytes)
  | rename (op : Operator) (source target : Bytes)
  | remove (op : Operator) (path : Bytes)
  | removeAll (op : Operator) (paths : List Bytes)
  | createDir (op : Operator) (path : Bytes)
  | list (op : Operator) (path : Bytes)
  | getReader (op : Operator) (path : Bytes)
  | getWriter (op : Operator) (path : Bytes)

@[reducible] def OpenDALCall.Reply : OpenDALCall → Type
  | .objectExists _ _ => Bool
  | .stat _ _ => Metadata
  | .read _ _ => Bytes
  | .list _ _ => List Entry
  | .construct _ | .write _ _ _ | .rename _ _ _ | .remove _ _ | .removeAll _ _ | .createDir _ _
  | .getReader _ _ | .getWriter _ _ => Unit

abbrev FileSystemM (α : Type) := Program OpenDALCall.Reply Exception α

abbrev call (c : OpenDALCall) : FileSystemM c.Reply := Program.perform c

abbrev Backend (σ : Type) := Handler OpenDALCall.Reply Exception σ

end Backend

/-- The entries of a secret, in iteration order. -/
structure KeyValueSecret where
  secretMap : List (Bytes × Bytes)

/-- The lookup of a secret by path and type name within the transaction. -/
structure SecretManager where
  lookupSecret : (path type : Bytes) → Except Exception (Option KeyValueSecret)

structure FileOpener where
  settings : Settings := {}
  secretManager : Option SecretManager := none
  hasCatalogTransaction : Bool := false

structure OpenDALFileSystem where
  config : StringMap := ∅

def secretConfigKey (key : Bytes) : Bytes :=
  if key == bytes "bearer_token" then bytes "token" else key

/-- The secret that applies to a URI, if any. -/
def secretMatch (uri_p : Bytes) (parsed_path_p : OpenDALPath) (opener_p : Option FileOpener) :
    Except Exception (Option KeyValueSecret) :=
  match opener_p with
  | none => .ok none
  | some opener =>
    match opener.secretManager with
    | none => .ok none
    | some secret_manager =>
      if opener.hasCatalogTransaction && parsed_path_p.secretType != .none then
        secret_manager.lookupSecret uri_p (openDALSecretTypeName parsed_path_p.secretType)
      else .ok none

/-- The base configuration, overlaid by the URI and then by the secret. -/
def createOperatorConfig (fs : OpenDALFileSystem) (uri_p : Bytes) (parsed_path_p : OpenDALPath)
    (opener_p : Option FileOpener) : Except Exception StringMap := do
  let result := insertAll fs.config
    (parsed_path_p.uriConfig.entries.map fun entry => (entry.1, entry.2))
  match ← secretMatch uri_p parsed_path_p opener_p with
  | none => return result
  | some secret =>
    return insertAll result (secret.secretMap.map fun entry => (secretConfigKey entry.1, entry.2))

/-- A provider of operator configurations; the file system passes `createOperatorConfig`. -/
abbrev OpenDALOperatorConfigProvider := Bytes → OpenDALPath → Except Exception StringMap

def operatorOptions (opener_p : Option FileOpener) : Except Exception (List OperatorOption) :=
  (OpenDALLayerOptions.fromSettings (opener_p.map (·.settings))).map
    OpenDALLayerOptions.toOperatorOptions

theorem operatorOptions_none :
    operatorOptions none = .ok ({} : OpenDALLayerOptions).toOperatorOptions := by
  rw [operatorOptions, Option.map_none, fromSettings_none]
  rfl

def unsupportedPrefix (uri_p : Bytes) : Exception :=
  .invalidInput (bytes "Unsupported OpenDAL path prefix: " ++ uri_p)

section Operators

variable [StringUtil]

/-- `createOperator` over any provider of configurations. The parsed path is the out-parameter. -/
def createOperatorWith (provider : OpenDALOperatorConfigProvider) (uri_p : Bytes)
    (parsed_path_p : OpenDALPath) (opener_p : Option FileOpener) :
    FileSystemM (Operator × OpenDALPath) :=
  match OpenDALPath.tryParse uri_p parsed_path_p with
  | (false, _) => .fail (unsupportedPrefix uri_p)
  | (true, parsed_path) => do
    let result ← provider uri_p parsed_path
    let options ← operatorOptions opener_p
    let op : Operator := { scheme := parsed_path.scheme, config := result, options := options }
    call (.construct op)
    return (op, parsed_path)

def createOperator (fs : OpenDALFileSystem) (uri_p : Bytes) (parsed_path_p : OpenDALPath)
    (opener_p : Option FileOpener) : FileSystemM (Operator × OpenDALPath) :=
  createOperatorWith (createOperatorConfig fs · · opener_p) uri_p parsed_path_p opener_p

/-- The part of `createOperatorWith` before the constructor is called. -/
def operatorPlan (provider : OpenDALOperatorConfigProvider) (uri_p : Bytes)
    (parsed_path_p : OpenDALPath) (opener_p : Option FileOpener) :
    Except Exception (Operator × OpenDALPath) :=
  match OpenDALPath.tryParse uri_p parsed_path_p with
  | (false, _) => .error (unsupportedPrefix uri_p)
  | (true, parsed_path) => do
    let result ← provider uri_p parsed_path
    let options ← operatorOptions opener_p
    return ({ scheme := parsed_path.scheme, config := result, options := options }, parsed_path)

theorem operatorPlan_ok_iff {provider : OpenDALOperatorConfigProvider} {uri : Bytes}
    {r p : OpenDALPath} {opener : Option FileOpener} {op : Operator} :
    operatorPlan provider uri r opener = .ok (op, p) ↔
      OpenDALPath.tryParse uri r = (true, p) ∧ provider uri p = .ok op.config ∧
        operatorOptions opener = .ok op.options ∧ op.scheme = p.scheme := by
  obtain ⟨scheme, config, options⟩ := op
  unfold operatorPlan
  split
  · rename_i hparse
    simp [hparse]
  · rename_i p' hparse
    rw [hparse]
    simp only [Prod.mk.injEq, true_and]
    constructor
    · intro h
      cases hprovider : provider uri p' with
      | error e => simp [hprovider, bind, Except.bind] at h
      | ok config' =>
        cases hoptions : operatorOptions opener with
        | error e => simp [hprovider, hoptions, bind, Except.bind] at h
        | ok options' =>
          simp only [hprovider, hoptions, bind, Except.bind, pure, Except.pure, Except.ok.injEq,
            Prod.mk.injEq, Operator.mk.injEq] at h
          obtain ⟨⟨rfl, rfl, rfl⟩, rfl⟩ := h
          exact ⟨rfl, hprovider, rfl, rfl⟩
    · rintro ⟨rfl, hprovider, hoptions, rfl⟩
      rw [hprovider, hoptions]
      rfl

theorem operatorPlan_again {provider : OpenDALOperatorConfigProvider} {uri : Bytes}
    {r p : OpenDALPath} {opener : Option FileOpener}
    (accepted : OpenDALPath.tryParse uri r = (true, p)) (r' : OpenDALPath) :
    operatorPlan provider uri r' opener = operatorPlan provider uri r opener := by
  unfold operatorPlan
  rw [accepted, ParseSpec.tryParse_again accepted r']

theorem operatorPlan_default {fs : OpenDALFileSystem} {uri : Bytes}
    (parsed : (OpenDALPath.tryParse uri {}).1 = true) :
    ∃ op, operatorPlan (createOperatorConfig fs · · none) uri {} none =
      .ok (op, (OpenDALPath.tryParse uri {}).2) :=
  ⟨⟨_, _, _⟩, operatorPlan_ok_iff.mpr ⟨Prod.ext parsed rfl, rfl, operatorOptions_none, rfl⟩⟩

theorem run_createOperatorWith {σ : Type} (backend : Backend σ)
    (provider : OpenDALOperatorConfigProvider) (uri : Bytes) (r : OpenDALPath)
    (opener : Option FileOpener) (w : σ) :
    (createOperatorWith provider uri r opener).run backend w =
      match operatorPlan provider uri r opener with
      | .error e => (.error e, w)
      | .ok plan =>
        match backend (.construct plan.1) w with
        | (.error e, w') => (.error e, w')
        | (.ok _, w') => (.ok plan, w') := by
  have hplan : operatorPlan provider uri r opener =
      match OpenDALPath.tryParse uri r with
      | (false, _) => .error (unsupportedPrefix uri)
      | (true, p) =>
        match provider uri p, operatorOptions opener with
        | .error e, _ => .error e
        | .ok _, .error e => .error e
        | .ok config, .ok options =>
          .ok ({ scheme := p.scheme, config := config, options := options }, p) := by
    unfold operatorPlan
    split
    · rfl
    · rename_i p _
      cases provider uri p <;> cases operatorOptions opener <;> rfl
  rw [hplan]
  unfold createOperatorWith
  split
  · rfl
  · rename_i p _
    cases provider uri p with
    | error e => rfl
    | ok config =>
      cases operatorOptions opener with
      | error e => rfl
      | ok options =>
        simp only [Program.run_bind, Program.run_lift, Program.run_perform, Program.run_pure]
        rcases backend (.construct ⟨p.scheme, config, options⟩) w with ⟨e | _, w'⟩ <;> rfl

theorem run_createOperatorWith_ok {σ : Type} {backend : Backend σ}
    {provider : OpenDALOperatorConfigProvider} {uri : Bytes} {r p : OpenDALPath}
    {opener : Option FileOpener} {op : Operator} {w w' : σ}
    (h : (createOperatorWith provider uri r opener).run backend w = (.ok (op, p), w')) :
    operatorPlan provider uri r opener = .ok (op, p) ∧
      backend (.construct op) w = (.ok (), w') := by
  rw [run_createOperatorWith] at h
  split at h
  · cases h
  · rename_i plan hplan
    split at h
    · cases h
    · rename_i hconstruct
      obtain ⟨hop, rfl⟩ := Prod.mk.inj h
      obtain rfl := Except.ok.inj hop
      exact ⟨hplan, hconstruct⟩

end Operators

end DuckdbOpendalfs.Operators.Configuration
