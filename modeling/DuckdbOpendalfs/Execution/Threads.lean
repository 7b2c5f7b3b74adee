/- DuckdbOpendalfs/Execution/Threads
   digest: Threads over one service under any schedule, and when each of them follows its own machine. -/

import DuckdbOpendalfs.Execution.RelyGuarantee
import DuckdbOpendalfs.Execution.Runs

set_option autoImplicit false
set_option relaxedAutoImplicit false

namespace DuckdbOpendalfs.Execution.Threads

open Programs RelyGuarantee Runs

variable {Call : Type} {Reply : Call → Type} {ε α σ ι : Type}

structure Thread (Reply : Call → Type) (ε α : Type) where
  programs : List (Program Reply ε α)
  answers : List (Except ε α) := []

def Thread.answer (thread : Thread Reply ε α) (later : List (Program Reply ε α))
    (answer : Except ε α) : Thread Reply ε α :=
  { programs := later, answers := thread.answers ++ [answer] }

def Thread.step (handler : Handler Reply ε σ) (thread : Thread Reply ε α) (s : σ) :
    Thread Reply ε α × σ :=
  match thread.programs with
  | [] => (thread, s)
  | .done a :: later => (thread.answer later (.ok a), s)
  | .fail e :: later => (thread.answer later (.error e), s)
  | .call c next :: later =>
    match handler c s with
    | (.error e, s') => (thread.answer later (.error e), s')
    | (.ok reply, s') => ({ thread with programs := next reply :: later }, s')

theorem Thread.step_call (handler : Handler Reply ε σ) (c : Call)
    (next : Reply c → Program Reply ε α) (later : List (Program Reply ε α))
    (answers : List (Except ε α)) (s : σ) :
    (Thread.step handler ⟨.call c next :: later, answers⟩ s).2 = (handler c s).2 := by
  have hstep : Thread.step handler ⟨.call c next :: later, answers⟩ s =
      match handler c s with
      | (.error e, s') => (⟨later, answers ++ [.error e]⟩, s')
      | (.ok reply, s') => (⟨next reply :: later, answers⟩, s') := rfl
  rw [hstep]
  rcases handler c s with ⟨e | reply, s'⟩ <;> rfl

theorem Thread.step_keeps {handler : Handler Reply ε σ} {I : σ → Prop}
    {J : Program Reply ε α → Prop}
    (calls : ∀ c next s, J (.call c next) → I s → I (handler c s).2 ∧
      ∀ reply, (handler c s).1 = .ok reply → J (next reply))
    {thread : Thread Reply ε α} {s : σ} (programs : ∀ p ∈ thread.programs, J p) (holds : I s) :
    (∀ p ∈ (thread.step handler s).1.programs, J p) ∧ I (thread.step handler s).2 ∧
      ((thread.step handler s).1.answers = thread.answers ∨
        ∃ answer, (thread.step handler s).1.answers = thread.answers ++ [answer] ∧
          ∀ a, answer = .ok a → J (.done a)) := by
  obtain ⟨waiting, answers⟩ := thread
  match waiting with
  | [] => exact ⟨programs, holds, Or.inl rfl⟩
  | .done a :: later =>
    obtain ⟨hnow, hlater⟩ := List.forall_mem_cons.mp programs
    refine ⟨hlater, holds, Or.inr ⟨.ok a, rfl, fun a' ha' => ?_⟩⟩
    rwa [← Except.ok.inj ha']
  | .fail e :: later =>
    exact ⟨(List.forall_mem_cons.mp programs).2, holds, Or.inr ⟨.error e, rfl, nofun⟩⟩
  | .call c next :: later =>
    obtain ⟨hnow, hlater⟩ := List.forall_mem_cons.mp programs
    obtain ⟨hholds, hnext⟩ := calls c next s hnow holds
    have hstep : Thread.step handler ⟨.call c next :: later, answers⟩ s =
        match handler c s with
        | (.error e, s') => (⟨later, answers ++ [.error e]⟩, s')
        | (.ok reply, s') => (⟨next reply :: later, answers⟩, s') := rfl
    rw [hstep]
    rcases hcall : handler c s with ⟨e | reply, s'⟩
    · rw [hcall] at hholds
      exact ⟨hlater, hholds, Or.inr ⟨.error e, rfl, nofun⟩⟩
    · rw [hcall] at hholds hnext
      exact ⟨List.forall_mem_cons.mpr ⟨hnext reply rfl, hlater⟩, hholds, Or.inl rfl⟩

variable [DecidableEq ι]

/-- Threads take their steps in the order of a schedule. -/
def interleave (handler : Handler Reply ε σ) :
    (ι → Thread Reply ε α) × σ → List ι → (ι → Thread Reply ε α) × σ
  | now, [] => now
  | (threads, s), i :: schedule =>
    let next := (threads i).step handler s
    interleave handler (Function.update threads i next.1, next.2) schedule

variable {handler : Handler Reply ε σ}

/-- What each thread keeps of its own, and no step of another thread can end, holds under every
schedule. -/
theorem interleave_keeps (A : ι → Thread Reply ε α → σ → Prop) (guarantee : ι → σ → σ → Prop)
    (own : ∀ i thread s, A i thread s → A i (thread.step handler s).1 (thread.step handler s).2 ∧
      guarantee i s (thread.step handler s).2)
    (stable : ∀ i j, i ≠ j → ∀ thread s s', A i thread s → guarantee j s s' → A i thread s')
    {threads : ι → Thread Reply ε α} {s : σ} (start : ∀ i, A i (threads i) s) (schedule : List ι)
    (i : ι) : A i ((interleave handler (threads, s) schedule).1 i)
      (interleave handler (threads, s) schedule).2 := by
  induction schedule generalizing threads s with
  | nil => exact start i
  | cons j schedule ih =>
    refine ih fun k => ?_
    obtain ⟨hown, hwithin⟩ := own j (threads j) s (start j)
    by_cases hk : k = j
    · subst hk
      rwa [Function.update_self]
    · rw [Function.update_of_ne hk]
      exact stable k j hk (threads k) s _ (start k) hwithin

section Following

variable {τ κ ο : Type} {step : τ → κ → ο × τ} {prog : κ → Program Reply ε α}
  {view : Except ε α → ο}

def Meets (step : τ → κ → ο × τ) (view : Except ε α → ο) (relates : σ → τ → Prop) (t : τ) (i : κ)
    (answer : Except ε α) (s : σ) : Prop :=
  view answer = (step t i).1 ∧ relates s (step t i).2

def Underway (handler : Handler Reply ε σ) (rely guarantee : σ → σ → Prop)
    (step : τ → κ → ο × τ) (prog : κ → Program Reply ε α) (view : Except ε α → ο)
    (relates : σ → τ → Prop) (t : τ) :
    List κ → List (Program Reply ε α) → σ → Prop
  | [], programs, s => programs = [] ∧ relates s t
  | i :: is, programs, s => ∃ p, programs = p :: is.map prog ∧
      Assured handler rely guarantee (Meets step view relates t i) p s

/-- A thread has answered as a machine does on some of its inputs, and has the others ahead. -/
def Follows (handler : Handler Reply ε σ) (rely guarantee : σ → σ → Prop)
    (step : τ → κ → ο × τ) (prog : κ → Program Reply ε α) (view : Except ε α → ο)
    (relates : σ → τ → Prop) (start : τ) (inputs : List κ) (thread : Thread Reply ε α) (s : σ) :
    Prop :=
  ∃ done ahead, inputs = done ++ ahead ∧ thread.answers.map view = (run step start done).1 ∧
    Underway handler rely guarantee step prog view relates (after step start done) ahead
      thread.programs s

variable {rely guarantee : σ → σ → Prop} {relates : σ → τ → Prop} {good : κ → Prop}

/-- A program does what its input does from every related state. -/
def Implements (handler : Handler Reply ε σ) (rely guarantee : σ → σ → Prop)
    (step : τ → κ → ο × τ) (prog : κ → Program Reply ε α) (view : Except ε α → ο)
    (relates : σ → τ → Prop) (good : κ → Prop) : Prop :=
  ∀ s t i, good i → relates s t →
    Assured handler rely guarantee (Meets step view relates t i) (prog i) s

theorem underway_start
    (implements : Implements handler rely guarantee step prog view relates good) {s : σ} {t : τ}
    (related : relates s t) {inputs : List κ} (inputs_good : ∀ i ∈ inputs, good i) :
    Underway handler rely guarantee step prog view relates t inputs (inputs.map prog) s := by
  cases inputs with
  | nil => exact ⟨rfl, related⟩
  | cons i is => exact ⟨prog i, rfl, implements s t i (inputs_good i List.mem_cons_self) related⟩

private theorem follows_answer (thread : Thread Reply ε α) (interference : Interference rely)
    (implements : Implements handler rely guarantee step prog view relates good)
    {start : τ} {inputs : List κ} (inputs_good : ∀ i ∈ inputs, good i)
    {done is : List κ} {i : κ} (split : inputs = done ++ i :: is)
    (answered : thread.answers.map view = (run step start done).1) {answer : Except ε α} {s : σ}
    (ends : ∀ s', rely s s' → Meets step view relates (after step start done) i answer s') :
    Follows handler rely guarantee step prog view relates start inputs
      (thread.answer (is.map prog) answer) s := by
  obtain ⟨hview, hrelated⟩ := ends s (interference.refl s)
  refine ⟨done ++ [i], is, by rw [split, List.append_assoc, List.singleton_append], ?_, ?_⟩
  · rw [Thread.answer, List.map_append, answered, run_concat_answers, List.map_singleton, hview]
  · rw [after_concat]
    refine underway_start implements hrelated fun j hj => inputs_good j ?_
    rw [split]
    exact List.mem_append_right _ (List.mem_cons_of_mem _ hj)

theorem follows_step (interference : Interference rely) (idle : ∀ s, guarantee s s)
    (implements : Implements handler rely guarantee step prog view relates good)
    {start : τ} {inputs : List κ} (inputs_good : ∀ i ∈ inputs, good i)
    {thread : Thread Reply ε α} {s : σ}
    (follows : Follows handler rely guarantee step prog view relates start inputs thread s) :
    Follows handler rely guarantee step prog view relates start inputs
        (thread.step handler s).1 (thread.step handler s).2 ∧
      guarantee s (thread.step handler s).2 := by
  obtain ⟨done, ahead, hsplit, hanswers, hunderway⟩ := follows
  cases ahead with
  | nil =>
    obtain ⟨hprograms, hrelated⟩ := hunderway
    have hstep : thread.step handler s = (thread, s) := by rw [Thread.step, hprograms]
    rw [hstep]
    exact ⟨⟨done, [], hsplit, hanswers, hprograms, hrelated⟩, idle s⟩
  | cons i is =>
    obtain ⟨p, hprograms, hassured⟩ := hunderway
    have hends {answer : Except ε α} {s : σ}
        (ends : ∀ s', rely s s' → Meets step view relates (after step start done) i answer s') :=
      follows_answer thread interference implements inputs_good hsplit hanswers ends
    cases p with
    | done a =>
      have hstep : thread.step handler s = (thread.answer (is.map prog) (.ok a), s) := by
        rw [Thread.step, hprograms]
      rw [hstep]
      exact ⟨hends hassured, idle s⟩
    | fail e =>
      have hstep : thread.step handler s = (thread.answer (is.map prog) (.error e), s) := by
        rw [Thread.step, hprograms]
      rw [hstep]
      exact ⟨hends hassured, idle s⟩
    | call c next =>
      obtain ⟨hwithin, hthrows, hcontinues⟩ := hassured s (interference.refl s)
      have hstep : thread.step handler s = match handler c s with
          | (.error e, s') => (thread.answer (is.map prog) (.error e), s')
          | (.ok reply, s') =>
            ({ thread with programs := next reply :: is.map prog }, s') := by
        rw [Thread.step, hprograms]
      rw [hstep]
      rcases hcall : handler c s with ⟨e | reply, s'⟩
      · rw [hcall] at hwithin hthrows
        exact ⟨hends (hthrows e rfl), hwithin⟩
      · rw [hcall] at hwithin hcontinues
        exact ⟨⟨done, i :: is, hsplit, hanswers, next reply, rfl, hcontinues reply rfl⟩, hwithin⟩

theorem follows_stable (interference : Interference rely)
    (stable : ∀ s s' t, relates s t → rely s s' → relates s' t) {start : τ} {inputs : List κ}
    {thread : Thread Reply ε α} {s s' : σ}
    (follows : Follows handler rely guarantee step prog view relates start inputs thread s)
    (acted : rely s s') :
    Follows handler rely guarantee step prog view relates start inputs thread s' := by
  obtain ⟨done, ahead, hsplit, hanswers, hunderway⟩ := follows
  refine ⟨done, ahead, hsplit, hanswers, ?_⟩
  cases ahead with
  | nil => exact ⟨hunderway.1, stable s s' _ hunderway.2 acted⟩
  | cons i is =>
    obtain ⟨p, hprograms, hassured⟩ := hunderway
    exact ⟨p, hprograms, hassured.stable interference acted⟩

theorem Follows.answers {start : τ} {inputs : List κ} {thread : Thread Reply ε α} {s : σ}
    (follows : Follows handler rely guarantee step prog view relates start inputs thread s) :
    thread.answers.map view <+: (run step start inputs).1 ∧
      (thread.programs = [] → thread.answers.map view = (run step start inputs).1 ∧
        relates s (after step start inputs)) := by
  obtain ⟨done, ahead, rfl, hanswers, hunderway⟩ := follows
  rw [hanswers]
  constructor
  · clear hunderway hanswers
    induction done generalizing start with
    | nil => exact List.nil_prefix
    | cons i done ih => exact List.prefix_cons_inj _ |>.mpr (@ih (step start i).2)
  · intro hended
    cases ahead with
    | nil =>
      rw [List.append_nil]
      exact ⟨rfl, hunderway.2⟩
    | cons i is =>
      obtain ⟨p, hprograms, -⟩ := hunderway
      rw [hended] at hprograms
      cases hprograms

end Following

/-- Threads that each implement a machine, and let each other rely on what they guarantee, follow
their machines under every schedule. -/
theorem interleave_follows {τ κ ο : Type} {step : τ → κ → ο × τ} {prog : κ → Program Reply ε α}
    {view : Except ε α → ο} {rely guarantee : ι → σ → σ → Prop} {relates : ι → σ → τ → Prop}
    {good : ι → κ → Prop} (interference : ∀ i, Interference (rely i))
    (idle : ∀ i s, guarantee i s s)
    (compatible : ∀ i j, i ≠ j → ∀ s s', guarantee j s s' → rely i s s')
    (stable : ∀ i s s' t, relates i s t → rely i s s' → relates i s' t)
    (implements : ∀ i,
      Implements handler (rely i) (guarantee i) step prog view (relates i) (good i))
    {start : ι → τ} {inputs : ι → List κ} (inputs_good : ∀ i, ∀ x ∈ inputs i, good i x) {s : σ}
    (related : ∀ i, relates i s (start i)) (schedule : List ι) (i : ι) :
    let ended := interleave handler (fun i => ⟨(inputs i).map prog, []⟩, s) schedule
    (ended.1 i).answers.map view <+: (run step (start i) (inputs i)).1 ∧
      ((ended.1 i).programs = [] →
        (ended.1 i).answers.map view = (run step (start i) (inputs i)).1 ∧
          relates i ended.2 (after step (start i) (inputs i))) := by
  let A (i : ι) (thread : Thread Reply ε α) (s : σ) : Prop := Follows handler (rely i) (guarantee i)
    step prog view (relates i) (start i) (inputs i) thread s
  refine Follows.answers (interleave_keeps A guarantee (fun i thread s follows => ?_)
    (fun i j hij thread s s' follows acted => ?_) (fun i => ?_) schedule i)
  · exact follows_step (interference i) (idle i) (implements i) (inputs_good i) follows
  · exact follows_stable (interference i) (stable i) follows (compatible i j hij s s' acted)
  · refine ⟨[], inputs i, rfl, rfl, ?_⟩
    exact underway_start (implements i) (related i) (inputs_good i)

end DuckdbOpendalfs.Execution.Threads
