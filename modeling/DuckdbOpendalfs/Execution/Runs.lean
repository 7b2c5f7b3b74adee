/- DuckdbOpendalfs/Execution/Runs
   digest: Runs of a deterministic machine, with the invariant and simulation rules over whole runs. -/

import Mathlib.Data.List.Induction
import Mathlib.Data.List.Infix

set_option autoImplicit false
set_option relaxedAutoImplicit false

namespace DuckdbOpendalfs.Execution.Runs

variable {σ τ ι ο ο' : Type*}

def run (step : σ → ι → ο × σ) : σ → List ι → List ο × σ
  | s, [] => ([], s)
  | s, i :: is =>
    let now := step s i
    let later := run step now.2 is
    (now.1 :: later.1, later.2)

def after (step : σ → ι → ο × σ) (s : σ) (is : List ι) : σ := (run step s is).2

variable {step : σ → ι → ο × σ}

@[simp] theorem after_nil (s : σ) : after step s [] = s := rfl

@[simp] theorem after_cons (s : σ) (i : ι) (is : List ι) :
    after step s (i :: is) = after step (step s i).2 is := rfl

theorem after_append (s : σ) (is js : List ι) :
    after step s (is ++ js) = after step (after step s is) js := by
  induction is generalizing s with
  | nil => rfl
  | cons i is ih => exact ih (step s i).2

@[simp] theorem after_concat (s : σ) (is : List ι) (i : ι) :
    after step s (is ++ [i]) = (step (after step s is) i).2 := by
  rw [after_append]
  rfl

@[simp] theorem run_cons_answers (s : σ) (i : ι) (is : List ι) :
    (run step s (i :: is)).1 = (step s i).1 :: (run step (step s i).2 is).1 := rfl

theorem run_concat_answers (s : σ) (is : List ι) (i : ι) :
    (run step s (is ++ [i])).1 = (run step s is).1 ++ [(step (after step s is) i).1] := by
  induction is generalizing s with
  | nil => rfl
  | cons i' is ih => exact congrArg ((step s i').1 :: ·) (ih (step s i').2)

theorem after_invariant_of {I : σ → Prop} {good : ι → Prop}
    (keeps : ∀ s i, good i → I s → I (step s i).2) {s : σ} (start : I s) {is : List ι}
    (inputs : ∀ i ∈ is, good i) : I (after step s is) := by
  induction is generalizing s with
  | nil => exact start
  | cons i is ih =>
    obtain ⟨hi, his⟩ := List.forall_mem_cons.mp inputs
    exact ih (keeps s i hi start) his

theorem after_invariant {I : σ → Prop} (keeps : ∀ s i, I s → I (step s i).2) {s : σ} (start : I s)
    (is : List ι) : I (after step s is) :=
  after_invariant_of (fun s i (_ : True) => keeps s i) start fun _ _ => trivial

/-- A relation kept by both machines, under which they answer alike, relates their runs. -/
theorem run_simulation {step' : τ → ι → ο' × τ} {R : σ → τ → Prop} {view : ο → ο'}
    (simulates : ∀ s t i, R s t →
      view (step s i).1 = (step' t i).1 ∧ R (step s i).2 (step' t i).2)
    {s : σ} {t : τ} (start : R s t) (is : List ι) :
    (run step s is).1.map view = (run step' t is).1 ∧ R (after step s is) (after step' t is) := by
  induction is generalizing s t with
  | nil => exact ⟨rfl, start⟩
  | cons i is ih =>
    obtain ⟨hnow, hnext⟩ := simulates s t i start
    obtain ⟨hlater, hend⟩ := ih hnext
    exact ⟨by simp [hnow, hlater], hend⟩

/-- When a step keeps `I` exactly under `good`, a run stays in `I` exactly when all its steps are
good. -/
theorem forall_reached_iff {I : σ → Prop} {good : σ → ι → Prop}
    (exact_step : ∀ s i, I s → (I (step s i).2 ↔ good s i)) {s : σ} (start : I s) (is : List ι) :
    (∀ front, front <+: is → I (after step s front)) ↔
      ∀ front i, front ++ [i] <+: is → good (after step s front) i := by
  constructor
  · intro reached front i hfront
    have hbefore : I (after step s front) :=
      reached front ((List.prefix_append front [i]).trans hfront)
    have hafter := reached _ hfront
    rw [after_concat] at hafter
    exact (exact_step _ i hbefore).mp hafter
  · intro steps front
    induction front using List.reverseRecOn with
    | nil => intro _; exact start
    | append_singleton front i ih =>
      intro hfront
      rw [after_concat]
      have hbefore := ih ((List.prefix_append front [i]).trans hfront)
      exact (exact_step _ i hbefore).mpr (steps front i hfront)

end DuckdbOpendalfs.Execution.Runs
