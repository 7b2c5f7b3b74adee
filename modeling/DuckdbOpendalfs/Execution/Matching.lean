/- DuckdbOpendalfs/Execution/Matching
   digest: Programs that differ in what they throw only, and threads of them under one schedule. -/

import DuckdbOpendalfs.Execution.Threads
import Mathlib.Data.List.Forall2

set_option autoImplicit false
set_option relaxedAutoImplicit false

namespace DuckdbOpendalfs.Execution.Matching

open Programs Threads

variable {Call : Type} {Reply : Call → Type} {ε α β σ ι : Type}

/-- Programs that make the same calls and return the same, and throw errors that are alike. -/
inductive Matches (like : ε → ε → Prop) : Program Reply ε α → Program Reply ε α → Prop
  | done (a : α) : Matches like (.done a) (.done a)
  | fail {e e' : ε} (alike : like e e') : Matches like (.fail e) (.fail e')
  | call (c : Call) {next next' : Reply c → Program Reply ε α}
      (later : ∀ reply, Matches like (next reply) (next' reply)) :
      Matches like (.call c next) (.call c next')

inductive AnswersMatch (like : ε → ε → Prop) : Except ε α → Except ε α → Prop
  | ok (a : α) : AnswersMatch like (.ok a) (.ok a)
  | error {e e' : ε} (alike : like e e') : AnswersMatch like (.error e) (.error e')

variable {like : ε → ε → Prop} (reflexive : ∀ e, like e e)

include reflexive in
theorem Matches.refl (p : Program Reply ε α) : Matches like p p := by
  induction p with
  | done a => exact .done a
  | fail e => exact .fail (reflexive e)
  | call c next ih => exact .call c ih

theorem Matches.bind {p p' : Program Reply ε α} {f f' : α → Program Reply ε β}
    (first : Matches like p p') (later : ∀ a, Matches like (f a) (f' a)) :
    Matches like (p >>= f) (p' >>= f') := by
  induction first with
  | done a => exact later a
  | fail alike => exact .fail alike
  | call c _ ih => exact .call c ih

def ThreadsMatch (like : ε → ε → Prop) (thread thread' : Thread Reply ε α) : Prop :=
  List.Forall₂ (Matches like) thread.programs thread'.programs ∧
    List.Forall₂ (AnswersMatch like) thread.answers thread'.answers

private theorem matching_answer {thread thread' : Thread Reply ε α}
    (answers : List.Forall₂ (AnswersMatch like) thread.answers thread'.answers)
    {later later' : List (Program Reply ε α)}
    (ahead : List.Forall₂ (Matches like) later later') {answer answer' : Except ε α}
    (matching : AnswersMatch like answer answer') :
    ThreadsMatch like (thread.answer later answer) (thread'.answer later' answer') :=
  ⟨ahead, List.rel_append answers (.cons matching .nil)⟩

variable (handler : Handler Reply ε σ)

include reflexive in
theorem step_matching {thread thread' : Thread Reply ε α}
    (matching : ThreadsMatch like thread thread') (s : σ) :
    ThreadsMatch like (thread.step handler s).1 (thread'.step handler s).1 ∧
      (thread'.step handler s).2 = (thread.step handler s).2 := by
  obtain ⟨programs, answers⟩ := thread
  obtain ⟨programs', answers'⟩ := thread'
  obtain ⟨hprograms, hanswers⟩ := matching
  dsimp only at hprograms hanswers
  cases hprograms with
  | nil => exact ⟨⟨.nil, hanswers⟩, rfl⟩
  | cons now later =>
    cases now with
    | done a => exact ⟨matching_answer hanswers later (.ok a), rfl⟩
    | fail alike => exact ⟨matching_answer hanswers later (.error alike), rfl⟩
    | call c next =>
      simp only [Thread.step]
      rcases handler c s with ⟨e | reply, s'⟩
      · exact ⟨matching_answer hanswers later (.error (reflexive e)), rfl⟩
      · exact ⟨⟨.cons (next reply) later, hanswers⟩, rfl⟩

include reflexive in
/-- Under one schedule, threads of matching programs do the same to the service, and their answers
match. -/
theorem interleave_matching [DecidableEq ι] {threads threads' : ι → Thread Reply ε α}
    (matching : ∀ i, ThreadsMatch like (threads i) (threads' i)) (s : σ) (schedule : List ι) :
    let ended := interleave handler (threads, s) schedule
    let ended' := interleave handler (threads', s) schedule
    (∀ i, ThreadsMatch like (ended.1 i) (ended'.1 i)) ∧ ended'.2 = ended.2 := by
  induction schedule generalizing threads threads' s with
  | nil => exact ⟨matching, rfl⟩
  | cons i schedule ih =>
    obtain ⟨hstep, hstate⟩ := step_matching reflexive handler (matching i) s
    dsimp only [interleave]
    rw [hstate]
    refine ih (fun j => ?_) _
    by_cases hj : j = i
    · subst hj
      simpa only [Function.update_self] using hstep
    · simpa only [Function.update_of_ne hj] using matching j

end DuckdbOpendalfs.Execution.Matching
