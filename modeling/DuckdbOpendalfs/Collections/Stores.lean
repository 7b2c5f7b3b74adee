/- DuckdbOpendalfs/Collections/Stores
   digest: Stores of contents by address: writing, erasing many addresses, moving between two. -/

import Mathlib.Logic.Function.Basic

set_option autoImplicit false
set_option relaxedAutoImplicit false

namespace DuckdbOpendalfs.Collections.Stores

abbrev Store (κ α : Type) := κ → Option α

variable {κ α : Type} [DecidableEq κ]

def put (w : Store κ α) (k : κ) (contents : α) : Store κ α := Function.update w k (some contents)

def erase (w : Store κ α) (k : κ) : Store κ α := Function.update w k none

def eraseAll (w : Store κ α) (ks : List κ) : Store κ α := ks.foldl erase w

/-- Rename inside the store. A rename onto itself changes nothing. -/
def relocate (w : Store κ α) (source target : κ) : Store κ α :=
  Function.update (erase w source) target (w source)

@[simp] theorem eraseAll_nil (w : Store κ α) : eraseAll w [] = w := rfl

@[simp] theorem eraseAll_cons (w : Store κ α) (k : κ) (ks : List κ) :
    eraseAll w (k :: ks) = eraseAll (erase w k) ks := rfl

theorem eraseAll_append (w : Store κ α) (ks ks' : List κ) :
    eraseAll w (ks ++ ks') = eraseAll (eraseAll w ks) ks' := List.foldl_append

theorem eraseAll_apply (w : Store κ α) (ks : List κ) (k : κ) :
    eraseAll w ks k = if k ∈ ks then none else w k := by
  induction ks generalizing w with
  | nil => simp
  | cons head ks ih =>
    rw [eraseAll_cons, ih]
    by_cases hk : k = head <;> simp [erase, hk]

theorem eraseAll_congr (w : Store κ α) {ks ks' : List κ} (same : ∀ k, k ∈ ks ↔ k ∈ ks') :
    eraseAll w ks = eraseAll w ks' := by
  funext k
  simp only [eraseAll_apply, same]

/-- The contents are moved from one object to another, and nothing else changes. -/
structure Moved (w w' : Store κ α) (source target : κ) : Prop where
  arrived : w' target = w source
  gone : w' source = none
  frame : ∀ k, k ≠ source → k ≠ target → w' k = w k

omit [DecidableEq κ] in
theorem Moved.unique {w w' w'' : Store κ α} {source target : κ} (first : Moved w w' source target)
    (second : Moved w w'' source target) : w' = w'' := by
  funext k
  by_cases hsource : k = source
  · rw [hsource, first.gone, second.gone]
  by_cases htarget : k = target
  · rw [htarget, first.arrived, second.arrived]
  rw [first.frame k hsource htarget, second.frame k hsource htarget]

theorem moved_relocate (w : Store κ α) {source target : κ} (distinct : source ≠ target) :
    Moved w (relocate w source target) source target where
  arrived := by simp [relocate]
  gone := by simp [relocate, erase, distinct]
  frame k hsource htarget := by simp [relocate, erase, hsource, htarget]

theorem moved_put_erase {w : Store κ α} {source target : κ} {contents : α}
    (present : w source = some contents) (distinct : source ≠ target) :
    Moved w (erase (put w target contents) source) source target where
  arrived := by simp [erase, put, distinct.symm, present]
  gone := by simp [erase]
  frame k hsource htarget := by simp [erase, put, hsource, htarget]

theorem moved_stray_iff {w : Store κ α} {source stray target : κ} (present : w source ≠ none)
    (apart : stray ≠ target) (distinct : source ≠ target) :
    Moved w (relocate w source stray) source target ↔
      source ≠ stray ∧ w target = w source ∧ w stray = w source := by
  constructor
  · intro moved
    have hne : source ≠ stray := by
      intro heq
      have hgone := moved.gone
      simp [relocate, ← heq] at hgone
      exact present hgone
    have harrived := moved.arrived
    have hframe := moved.frame stray hne.symm apart
    simp only [relocate, erase, Function.update_apply, apart.symm, distinct.symm, ↓reduceIte]
      at harrived hframe
    exact ⟨hne, harrived, hframe.symm⟩
  · rintro ⟨hne, htarget, hstray⟩
    refine ⟨?_, ?_, ?_⟩
    · simp [relocate, erase, apart.symm, distinct.symm, htarget]
    · simp [relocate, erase, hne]
    · intro k hsource hk
      by_cases hks : k = stray
      · simp [relocate, hks, hstray]
      · simp [relocate, erase, hks, hsource]

end DuckdbOpendalfs.Collections.Stores
