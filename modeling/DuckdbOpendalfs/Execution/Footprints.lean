/- DuckdbOpendalfs/Execution/Footprints
   digest: Which calls a program can make, what each of them reads and changes, and threads apart. -/

import DuckdbOpendalfs.Collections.Stores
import DuckdbOpendalfs.Execution.Threads
import Mathlib.Data.Set.Function
import Mathlib.Data.Set.Lattice
import Mathlib.Order.CompletePartialOrder

set_option autoImplicit false
set_option relaxedAutoImplicit false

namespace DuckdbOpendalfs.Execution.Footprints

open Collections.Stores
open Programs RelyGuarantee Runs Threads

variable {Call : Type} {Reply : Call → Type} {ε α β σ ι κ γ : Type}

section Programs

def Issues (P : Call → Prop) : Program Reply ε α → Prop
  | .done _ | .fail _ => True
  | .call c next => P c ∧ ∀ reply, Issues P (next reply)

theorem issues_bind {P : Call → Prop} {p : Program Reply ε α} {f : α → Program Reply ε β}
    (first : Issues P p) (later : ∀ a, Issues P (f a)) : Issues P (p >>= f) := by
  change Issues P (p.bind f)
  induction p with
  | done a => exact later a
  | fail e => trivial
  | call c next ih => exact ⟨first.1, fun reply => ih reply (first.2 reply)⟩

theorem Issues.mono {P Q : Call → Prop} (weaker : ∀ c, P c → Q c) {p : Program Reply ε α}
    (issues : Issues P p) : Issues Q p := by
  induction p with
  | done a => trivial
  | fail e => trivial
  | call c next ih => exact ⟨weaker c issues.1, fun reply => ih reply (issues.2 reply)⟩

/-- In states that satisfy `I` every call keeps `I`, and the program returns what satisfies `Q`. -/
def Keeps (handler : Handler Reply ε σ) (I : σ → Prop) (Q : α → Prop) : Program Reply ε α → Prop
  | .done a => Q a
  | .fail _ => True
  | .call c next => ∀ s, I s → I (handler c s).2 ∧
      ∀ reply, (handler c s).1 = .ok reply → Keeps handler I Q (next reply)

variable {handler : Handler Reply ε σ} {I : σ → Prop}

theorem Issues.keeps {P : Call → Prop} (calls : ∀ c, P c → ∀ s, I s → I (handler c s).2)
    {p : Program Reply ε α} (issues : Issues P p) : Keeps handler I (fun _ => True) p := by
  induction p with
  | done a => trivial
  | fail e => trivial
  | call c next ih =>
    exact fun s hs => ⟨calls c issues.1 s hs, fun reply _ => ih reply (issues.2 reply)⟩

private theorem step_keeps {thread : Thread Reply ε α} {s : σ}
    (keeps : ∀ p ∈ thread.programs, Keeps handler I (fun _ => True) p) (holds : I s) :
    (∀ p ∈ (thread.step handler s).1.programs, Keeps handler I (fun _ => True) p) ∧
      I (thread.step handler s).2 := by
  have hstep := Thread.step_keeps (fun c next s hkeeps hs => hkeeps s hs) keeps holds
  exact ⟨hstep.1, hstep.2.1⟩

theorem interleave_invariant [DecidableEq ι] {programs : ι → List (Program Reply ε α)}
    (keeps : ∀ i, ∀ p ∈ programs i, Keeps handler I (fun _ => True) p) {s : σ} (start : I s)
    (schedule : List ι) :
    I (interleave handler (fun i => ⟨programs i, []⟩, s) schedule).2 := by
  suffices h : ∀ (threads : ι → Thread Reply ε α) (s : σ),
      (∀ i, ∀ p ∈ (threads i).programs, Keeps handler I (fun _ => True) p) → I s →
        I (interleave handler (threads, s) schedule).2 from
    h (fun i => ⟨programs i, []⟩) s keeps start
  clear keeps start
  intro threads s keeps start
  induction schedule generalizing threads s with
  | nil => exact start
  | cons j schedule ih =>
    obtain ⟨hprograms, hholds⟩ := step_keeps (keeps j) start
    refine ih _ _ (fun i => ?_) hholds
    by_cases hi : i = j
    · subst hi
      rwa [Function.update_self]
    · rw [Function.update_of_ne hi]
      exact keeps i

end Programs

section Stores

/-- The answer and the changes of a call depend on what it reaches, and it changes no more than it
writes. -/
structure Local (handler : Handler Reply ε (Store κ γ)) (reaches writes : Call → Set κ) : Prop where
  writes_reached : ∀ c, writes c ⊆ reaches c
  frame : ∀ c w k, k ∉ writes c → (handler c w).2 k = w k
  answer : ∀ c w w', Set.EqOn w w' (reaches c) → (handler c w).1 = (handler c w').1
  change : ∀ c w w', Set.EqOn w w' (reaches c) →
    Set.EqOn (handler c w).2 (handler c w').2 (reaches c)

def Within (reaches writes : Call → Set κ) (reached written : Set κ) (c : Call) : Prop :=
  reaches c ⊆ reached ∧ writes c ⊆ written

variable {handler : Handler Reply ε (Store κ γ)} {reaches writes : Call → Set κ}
  {reached written : Set κ}

theorem Local.agree (isLocal : Local handler reaches writes) {c : Call}
    (within : Within reaches writes reached written c) {w w' : Store κ γ}
    (agree : Set.EqOn w w' reached) :
    (handler c w).1 = (handler c w').1 ∧ Set.EqOn (handler c w).2 (handler c w').2 reached := by
  have hreached := agree.mono within.1
  refine ⟨isLocal.answer c w w' hreached, fun k hk => ?_⟩
  by_cases hkc : k ∈ reaches c
  · exact isLocal.change c w w' hreached hkc
  · have hkw : k ∉ writes c := fun h => hkc (isLocal.writes_reached c h)
    rw [isLocal.frame c w k hkw, isLocal.frame c w' k hkw]
    exact agree hk

def Elsewhere (reached : Set κ) (w w' : Store κ γ) : Prop := Set.EqOn w w' reached

/-- A program changes only what it may write. -/
def Confined (written : Set κ) (w w' : Store κ γ) : Prop := ∀ k, k ∉ written → w' k = w k

theorem elsewhere_interference (reached : Set κ) :
    Interference (Elsewhere (γ := γ) reached) where
  refl w := Set.eqOn_refl w reached
  trans first second := first.trans second

theorem assured_alone (isLocal : Local handler reaches writes) {p : Program Reply ε α}
    (issues : Issues (Within reaches writes reached written) p) {w w₀ : Store κ γ}
    (agree : Set.EqOn w w₀ reached) :
    Assured handler (Elsewhere reached) (Confined written)
      (fun answer w' => answer = (p.run handler w₀).1 ∧
        Set.EqOn w' (p.run handler w₀).2 reached) p w := by
  induction p generalizing w w₀ with
  | done a => exact fun w' h => ⟨rfl, h.symm.trans agree⟩
  | fail e => exact fun w' h => ⟨rfl, h.symm.trans agree⟩
  | call c next ih =>
    intro w' h
    obtain ⟨hanswer, hagree⟩ := isLocal.agree issues.1 (h.symm.trans agree)
    refine ⟨fun k hk => isLocal.frame c w' k fun hkc => hk (issues.1.2 hkc), fun e he => ?_,
      fun reply hreply => ?_⟩
    · have hcall : handler c w₀ = (.error e, (handler c w₀).2) :=
        Prod.ext (hanswer.symm.trans he) rfl
      have halone : (Program.call c next).run handler w₀ = (.error e, (handler c w₀).2) := by
        rw [Program.run, hcall]
      rw [halone]
      exact fun w'' h' => ⟨rfl, h'.symm.trans hagree⟩
    · have hcall : handler c w₀ = (.ok reply, (handler c w₀).2) :=
        Prod.ext (hanswer.symm.trans hreply) rfl
      have halone : (Program.call c next).run handler w₀ =
          (next reply).run handler (handler c w₀).2 := by
        rw [Program.run, hcall]
      rw [halone]
      exact ih reply (issues.2 reply) hagree

def alone (handler : Handler Reply ε σ) (s : σ) (p : Program Reply ε α) : Except ε α × σ :=
  p.run handler s

/-- Threads that write nothing another one reaches are answered as each of them is alone, and leave
what they reach as each of them does alone. -/
theorem interleave_apart [DecidableEq ι] (isLocal : Local handler reaches writes)
    {reached written : ι → Set κ} {programs : ι → List (Program Reply ε α)}
    (within : ∀ i, ∀ p ∈ programs i, Issues (Within reaches writes (reached i) (written i)) p)
    (apart : ∀ i j, i ≠ j → Disjoint (reached i) (written j)) (w : Store κ γ) (schedule : List ι)
    (i : ι) :
    let ended := interleave handler (fun i => ⟨programs i, []⟩, w) schedule
    (ended.1 i).answers <+: (run (alone handler) w (programs i)).1 ∧
      ((ended.1 i).programs = [] → (ended.1 i).answers = (run (alone handler) w (programs i)).1 ∧
        Set.EqOn ended.2 (after (alone handler) w (programs i)) (reached i)) := by
  have hcompatible (i j : ι) (hij : i ≠ j) (w w' : Store κ γ)
      (confined : Confined (written j) w w') : Elsewhere (reached i) w w' :=
    fun k hk => (confined k fun hkw => (apart i j hij).le_bot ⟨hk, hkw⟩).symm
  have hstable (i : ι) (w w' w₀ : Store κ γ) (agree : Set.EqOn w w₀ (reached i))
      (acted : Elsewhere (reached i) w w') : Set.EqOn w' w₀ (reached i) := acted.symm.trans agree
  have himplements (i : ι) : Implements handler (Elsewhere (reached i)) (Confined (written i))
      (alone handler) (id : Program Reply ε α → Program Reply ε α) (id : Except ε α → Except ε α)
      (fun w w₀ => Set.EqOn w w₀ (reached i))
      (Issues (Within reaches writes (reached i) (written i))) :=
    fun w w₀ p issues agree => assured_alone isLocal issues agree
  have hfollows := interleave_follows (fun i => elsewhere_interference (reached i))
    (fun i w k _ => rfl) hcompatible hstable himplements within
    (fun i => Set.eqOn_refl w (reached i)) schedule i
  simpa only [List.map_id] using hfollows

end Stores

end DuckdbOpendalfs.Execution.Footprints
