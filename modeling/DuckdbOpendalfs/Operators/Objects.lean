/- DuckdbOpendalfs/Operators/Objects
   digest: What the backends of removals and moves do to objects, and a backend that keeps a store. -/

import DuckdbOpendalfs.Collections.Stores
import DuckdbOpendalfs.Operators.Configuration

set_option autoImplicit false
set_option relaxedAutoImplicit false

namespace DuckdbOpendalfs.Operators.Objects

open Text.ByteString
open Collections.Stores
open Address.Uri
open Operators.LayerOptions Operators.Configuration

variable {κ : Type}

/-- The object at a path of an operator, for a way of locating objects. Operators may share
objects. -/
def object (locate : Bytes → StringMapValue → Bytes → κ) (op : Operator) (path : Bytes) : κ :=
  locate op.scheme op.config.toFinmap path

variable [DecidableEq κ]

/-- A backend that never fails to construct an operator and to remove objects, missing ones too. -/
structure RemovalBackend (locate : Bytes → StringMapValue → Bytes → κ)
    (backend : Backend (Store κ Bytes)) : Prop where
  construct : ∀ op w, backend (.construct op) w = (.ok (), w)
  remove : ∀ op path w, backend (.remove op path) w = (.ok (), erase w (object locate op path))
  removeAll : ∀ op paths w,
    backend (.removeAll op paths) w = (.ok (), eraseAll w (paths.map (object locate op)))

/-- A backend whose successful calls act on the objects of their own operator. -/
structure MoveBackend (locate : Bytes → StringMapValue → Bytes → κ)
    (backend : Backend (Store κ Bytes)) : Prop where
  construct : ∀ {op w w'}, backend (.construct op) w = (.ok (), w') → w' = w
  read : ∀ {op path data w w'}, backend (.read op path) w = (.ok data, w') →
    w' = w ∧ w (object locate op path) = some data
  write : ∀ {op path data w w'}, backend (.write op path data) w = (.ok (), w') →
    w' = put w (object locate op path) data
  remove : ∀ {op path w w'}, backend (.remove op path) w = (.ok (), w') →
    w' = erase w (object locate op path)
  rename : ∀ {op source target w w'}, backend (.rename op source target) w = (.ok (), w') →
    w' = relocate w (object locate op source) (object locate op target)

def notFound : Exception := .opendal (bytes "NotFound")

/-- A backend that keeps its objects in a store and fails only on missing objects. -/
def storeBackend (locate : Bytes → StringMapValue → Bytes → κ) : Backend (Store κ Bytes)
  | .construct _, w => (.ok (), w)
  | .objectExists op path, w => (.ok (w (object locate op path)).isSome, w)
  | .stat op path, w =>
    match w (object locate op path) with
    | none => (.error notFound, w)
    | some data =>
      (.ok { contentLength := UInt64.ofNat data.length, isFile := true, isDir := false }, w)
  | .read op path, w =>
    match w (object locate op path) with
    | none => (.error notFound, w)
    | some data => (.ok data, w)
  | .write op path data, w => (.ok (), put w (object locate op path) data)
  | .rename op source target, w =>
    match w (object locate op source) with
    | none => (.error notFound, w)
    | some _ => (.ok (), relocate w (object locate op source) (object locate op target))
  | .remove op path, w => (.ok (), erase w (object locate op path))
  | .removeAll op paths, w => (.ok (), eraseAll w (paths.map (object locate op)))
  | .createDir _ _, w => (.ok (), w)
  | .list _ _, w => (.ok [], w)
  | .getReader _ _, w => (.ok (), w)
  | .getWriter _ _, w => (.ok (), w)

theorem storeBackend_removal (locate : Bytes → StringMapValue → Bytes → κ) :
    RemovalBackend locate (storeBackend locate) where
  construct _ _ := rfl
  remove _ _ _ := rfl
  removeAll _ _ _ := rfl

theorem storeBackend_move (locate : Bytes → StringMapValue → Bytes → κ) :
    MoveBackend locate (storeBackend locate) where
  construct h := (Prod.mk.inj h).2.symm
  read {op path data w w'} h := by
    unfold storeBackend at h
    dsimp only at h
    split at h
    · cases h
    · rename_i data' hdata
      obtain ⟨hok, rfl⟩ := Prod.mk.inj h
      exact ⟨rfl, hdata.trans (congrArg some (Except.ok.inj hok))⟩
  write h := (Prod.mk.inj h).2.symm
  remove h := (Prod.mk.inj h).2.symm
  rename {op source target w w'} h := by
    unfold storeBackend at h
    dsimp only at h
    split at h
    · cases h
    · exact (Prod.mk.inj h).2.symm

end DuckdbOpendalfs.Operators.Objects
