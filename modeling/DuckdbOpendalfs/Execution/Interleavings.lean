/- DuckdbOpendalfs/Execution/Interleavings
   digest: Services that log their calls, and services that others act on between the calls. -/

import DuckdbOpendalfs.Execution.Programs

set_option autoImplicit false
set_option relaxedAutoImplicit false

namespace DuckdbOpendalfs.Execution.Interleavings

open Programs

structure Observed (Call σ : Type) where
  call : Call
  before : σ
  after : σ

variable {Call : Type} {Reply : Call → Type} {ε α β σ ι : Type}

def logged (handler : Handler Reply ε σ) : Handler Reply ε (σ × List (Observed Call σ))
  | c, (s, log) => ((handler c s).1, ((handler c s).2, log ++ [⟨c, s, (handler c s).2⟩]))

def observe (handler : Handler Reply ε σ) (p : Program Reply ε α) (s : σ) : List (Observed Call σ) :=
  (p.run (logged handler) (s, [])).2.2

theorem run_perform_logged {handler : Handler Reply ε σ} {c : Call} {s s' : σ}
    {log log' : List (Observed Call σ)} {answer : Except ε (Reply c)} :
    (Program.perform c).run (logged handler) (s, log) = (answer, (s', log')) ↔
      handler c s = (answer, s') ∧ log' = log ++ [⟨c, s, s'⟩] := by
  rw [Program.run_perform, logged, Prod.ext_iff, Prod.ext_iff]
  constructor
  · rintro ⟨hanswer, hstate, hlog⟩
    dsimp only at hanswer hstate hlog
    exact ⟨Prod.ext hanswer hstate, by rw [← hlog, hstate]⟩
  · rintro ⟨hcall, rfl⟩
    rw [hcall]
    exact ⟨rfl, rfl, rfl⟩

theorem run_logged (handler : Handler Reply ε σ) (p : Program Reply ε α) (s : σ)
    (log : List (Observed Call σ)) :
    p.run (logged handler) (s, log) =
      ((p.run handler s).1, ((p.run handler s).2, log ++ observe handler p s)) := by
  induction p generalizing s log with
  | done a => simp [observe, Program.run]
  | fail e => simp [observe, Program.run]
  | call c next ih =>
    rcases hc : handler c s with ⟨e | reply, s'⟩
    · simp [observe, Program.run, logged, hc]
    · have hnow (log : List (Observed Call σ)) :
          (Program.call c next).run (logged handler) (s, log) =
            (next reply).run (logged handler) (s', log ++ [⟨c, s, s'⟩]) := by
        simp [Program.run, logged, hc]
      have hrun : (Program.call c next).run handler s = (next reply).run handler s' := by
        simp [Program.run, hc]
      rw [observe, hnow log, hnow [], ih, ih, hrun, List.nil_append, List.append_assoc]

section Others

def interleaved (handler : Handler Reply ε σ) (act : σ → ι → σ) :
    Handler Reply ε (σ × List (List ι))
  | c, (s, batches) =>
    let s := (batches.headD []).foldl act s
    ((handler c s).1, ((handler c s).2, batches.tail))

/-- A service that logs a program's calls while others act between them. -/
def contended (handler : Handler Reply ε σ) (act : σ → ι → σ) :
    Handler Reply ε ((σ × List (Observed Call σ)) × List (List ι)) :=
  interleaved (logged handler) fun s i => (act s.1 i, s.2)

def found (act : σ → ι → σ) : σ → List (List ι) → Nat → σ
  | s, batches, 0 => (batches.headD []).foldl act s
  | s, batches, n + 1 => found act ((batches.headD []).foldl act s) batches.tail n

theorem contended_call (handler : Handler Reply ε σ) (act : σ → ι → σ) (c : Call) (s : σ)
    (log : List (Observed Call σ)) (batches : List (List ι)) :
    contended handler act c ((s, log), batches) =
      ((handler c (found act s batches 0)).1,
        (((handler c (found act s batches 0)).2,
          log ++ [⟨c, found act s batches 0, (handler c (found act s batches 0)).2⟩]),
          batches.tail)) := by
  have hact (steps : List ι) : steps.foldl (fun s i => (act s.1 i, s.2)) (s, log) =
      (steps.foldl act s, log) := by
    induction steps generalizing s with
    | nil => rfl
    | cons i steps ih => exact ih (act s i)
  rw [contended, interleaved, hact]
  rfl

theorem run_bind_contended {handler : Handler Reply ε σ} {act : σ → ι → σ} {c : Call}
    {reply : Reply c} {f : Reply c → Program Reply ε α} {s : σ} {log : List (Observed Call σ)}
    {batches : List (List ι)}
    (succeeds : handler c (found act s batches 0) = (.ok reply, found act s batches 0)) :
    (Program.perform c >>= f).run (contended handler act) ((s, log), batches) =
      (f reply).run (contended handler act)
        ((found act s batches 0, log ++ [⟨c, found act s batches 0, found act s batches 0⟩]),
          batches.tail) := by
  rw [Program.run_bind, Program.run_perform, contended_call, succeeds]

end Others

end DuckdbOpendalfs.Execution.Interleavings
