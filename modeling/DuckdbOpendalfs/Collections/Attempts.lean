/- DuckdbOpendalfs/Collections/Attempts
   digest: Loops over a list whose steps may throw: results, first error, pure accumulation. -/

import Mathlib.Data.List.Forall2

set_option autoImplicit false
set_option relaxedAutoImplicit false

namespace DuckdbOpendalfs.Collections.Attempts

variable {α β σ ε : Type*}

def attemptAll (f : α → Except ε β) : List α → Except ε (List β)
  | [] => .ok []
  | x :: xs =>
    match f x with
    | .error e => .error e
    | .ok y => (attemptAll f xs).map (y :: ·)

variable {f : α → Except ε β}

theorem attemptAll_ok_iff {xs : List α} {ys : List β} :
    attemptAll f xs = .ok ys ↔ List.Forall₂ (fun x y => f x = .ok y) xs ys := by
  induction xs generalizing ys with
  | nil => simp [attemptAll, eq_comm]
  | cons x xs ih =>
    rw [List.forall₂_cons_left_iff, attemptAll]
    cases hx : f x with
    | error e => simp
    | ok y =>
      cases hxs : attemptAll f xs with
      | error e =>
        refine iff_of_false (by simp [Except.map]) ?_
        rintro ⟨y', ys', -, htail, -⟩
        have hok := ih.mpr htail
        rw [hxs] at hok
        cases hok
      | ok zs =>
        simp only [Except.map, Except.ok.injEq]
        constructor
        · rintro rfl
          exact ⟨y, zs, rfl, ih.mp hxs, rfl⟩
        · rintro ⟨y', ys', rfl, htail, rfl⟩
          rw [Except.ok.inj (hxs.symm.trans (ih.mpr htail))]

private theorem exists_split_cons {P Q : α → Prop} {x : α} {xs : List α} :
    (∃ front x' back, x :: xs = front ++ x' :: back ∧ (∀ z ∈ front, P z) ∧ Q x') ↔
      Q x ∨ P x ∧ ∃ front x' back, xs = front ++ x' :: back ∧ (∀ z ∈ front, P z) ∧ Q x' := by
  constructor
  · rintro ⟨front, x', back, hsplit, hfront, hx'⟩
    cases front with
    | nil =>
      obtain ⟨rfl, -⟩ := List.cons.inj hsplit
      exact Or.inl hx'
    | cons z front =>
      obtain ⟨rfl, rfl⟩ := List.cons.inj hsplit
      obtain ⟨hz, hrest⟩ := List.forall_mem_cons.mp hfront
      exact Or.inr ⟨hz, front, x', back, rfl, hrest, hx'⟩
  · rintro (hx | ⟨hx, front, x', back, rfl, hfront, hx'⟩)
    · exact ⟨[], x, xs, rfl, by simp, hx⟩
    · exact ⟨x :: front, x', back, rfl, List.forall_mem_cons.mpr ⟨hx, hfront⟩, hx'⟩

theorem attemptAll_error_iff {xs : List α} {e : ε} :
    attemptAll f xs = .error e ↔
      ∃ front x back, xs = front ++ x :: back ∧ (∀ z ∈ front, ∃ y, f z = .ok y) ∧ f x = .error e := by
  induction xs with
  | nil => simp [attemptAll]
  | cons x xs ih =>
    rw [attemptAll, exists_split_cons, ← ih]
    cases hx : f x with
    | error e' => simp
    | ok y => cases attemptAll f xs <;> simp [Except.map]

theorem foldlM_attempt (g : σ → β → σ) (xs : List α) (s : σ) :
    xs.foldlM (fun s x => (f x).map (g s)) s = (attemptAll f xs).map (List.foldl g s) := by
  induction xs generalizing s with
  | nil => rfl
  | cons x xs ih =>
    rw [List.foldlM_cons, attemptAll]
    cases hx : f x with
    | error e => rfl
    | ok y =>
      change xs.foldlM _ (g s y) = _
      rw [ih]
      cases attemptAll f xs <;> rfl

end DuckdbOpendalfs.Collections.Attempts
