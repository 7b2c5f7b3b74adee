/- DuckdbOpendalfs/Execution/Linearization
   digest: Programs of one effective call each: every schedule of threads is a serial run of them. -/

import DuckdbOpendalfs.Execution.Footprints
import Mathlib.Data.List.Forall2

set_option autoImplicit false
set_option relaxedAutoImplicit false

namespace DuckdbOpendalfs.Execution.Linearization

open Programs Threads Footprints

section Clients

structure Client (γ ο : Type) where
  ahead : List γ
  answers : List ο := []

variable {γ γ' ο ο' σ τ ι : Type}

def Client.serve (step : σ → γ → ο × σ) (client : Client γ ο) (s : σ) : Client γ ο × σ :=
  match client.ahead with
  | [] => (client, s)
  | x :: later =>
    let served := step s x
    ({ ahead := later, answers := client.answers ++ [served.1] }, served.2)

def serially [DecidableEq ι] (step : σ → γ → ο × σ) :
    (ι → Client γ ο) × σ → List ι → (ι → Client γ ο) × σ
  | now, [] => now
  | (clients, s), i :: order =>
    let next := (clients i).serve step s
    serially step (Function.update clients i next.1, next.2) order

def Matched (same : γ → γ' → Prop) (view : ο → ο') (client : Client γ ο) (client' : Client γ' ο') :
    Prop :=
  List.Forall₂ same client.ahead client'.ahead ∧ client.answers.map view = client'.answers

theorem serially_simulation [DecidableEq ι] {step : σ → γ → ο × σ} {step' : τ → γ' → ο' × τ}
    {R : σ → τ → Prop} {view : ο → ο'} {same : ι → γ → γ' → Prop}
    (simulates : ∀ i s t x x', same i x x' → R s t →
      view (step s x).1 = (step' t x').1 ∧ R (step s x).2 (step' t x').2)
    {clients : ι → Client γ ο} {clients' : ι → Client γ' ο'}
    (matched : ∀ i, Matched (same i) view (clients i) (clients' i)) {s : σ} {t : τ} (start : R s t)
    (order : List ι) :
    (∀ i, Matched (same i) view ((serially step (clients, s) order).1 i)
      ((serially step' (clients', t) order).1 i)) ∧
        R (serially step (clients, s) order).2 (serially step' (clients', t) order).2 := by
  induction order generalizing clients clients' s t with
  | nil => exact ⟨matched, start⟩
  | cons i order ih =>
    have hserved : Matched (same i) view ((clients i).serve step s).1 ((clients' i).serve step' t).1 ∧
        R ((clients i).serve step s).2 ((clients' i).serve step' t).2 := by
      obtain ⟨hahead, hanswers⟩ := matched i
      rw [Client.serve, Client.serve]
      cases hahead' : (clients i).ahead with
      | nil =>
        rw [hahead'] at hahead
        rw [List.forall₂_nil_left_iff.mp hahead]
        exact ⟨matched i, start⟩
      | cons x later =>
        rw [hahead'] at hahead
        obtain ⟨x', later', hsame, hlater, hcons⟩ := List.forall₂_cons_left_iff.mp hahead
        obtain ⟨hview, hnext⟩ := simulates i s t x x' hsame start
        rw [hcons]
        refine ⟨⟨hlater, ?_⟩, hnext⟩
        dsimp only
        rw [List.map_append, hanswers, List.map_singleton, hview]
    refine ih (fun j => ?_) hserved.2
    by_cases hj : j = i
    · subst hj
      simpa only [Function.update_self] using hserved.1
    · simpa only [Function.update_of_ne hj] using matched j

end Clients

variable {Call : Type} {Reply : Call → Type} {ε α β σ ι : Type}

structure Silent (handler : Handler Reply ε σ) (c : Call) : Prop where
  keeps : ∀ s, (handler c s).2 = s
  answers : ∀ s s', (handler c s).1 = (handler c s').1

/-- All calls of a program are quiet, but for one at the most. -/
def AtMostOne (quiet : Call → Bool) : Program Reply ε α → Prop
  | .done _ | .fail _ => True
  | .call c next =>
    if quiet c then ∀ reply, AtMostOne quiet (next reply)
    else ∀ reply, Issues (fun c => quiet c = true) (next reply)

variable {quiet : Call → Bool} {handler : Handler Reply ε σ}

theorem AtMostOne.of_issues {p : Program Reply ε α}
    (issues : Issues (fun c => quiet c = true) p) : AtMostOne quiet p := by
  induction p with
  | done a => trivial
  | fail e => trivial
  | call c next ih =>
    rw [AtMostOne, if_pos issues.1]
    exact fun reply => ih reply (issues.2 reply)

theorem AtMostOne.bind {p : Program Reply ε α} {f : α → Program Reply ε β}
    (first : AtMostOne quiet p) (later : ∀ a, Issues (fun c => quiet c = true) (f a)) :
    AtMostOne quiet (p >>= f) := by
  change AtMostOne quiet (p.bind f)
  induction p with
  | done a => exact AtMostOne.of_issues (later a)
  | fail e => trivial
  | call c next ih =>
    rw [AtMostOne] at first
    rw [Program.bind, AtMostOne]
    split_ifs at first ⊢
    · exact fun reply => ih reply (first reply)
    · exact fun reply => issues_bind (first reply) later

theorem AtMostOne.after_quiet {p : Program Reply ε α} {f : α → Program Reply ε β}
    (first : Issues (fun c => quiet c = true) p) (later : ∀ a, AtMostOne quiet (f a)) :
    AtMostOne quiet (p >>= f) := by
  change AtMostOne quiet (p.bind f)
  induction p with
  | done a => exact later a
  | fail e => trivial
  | call c next ih =>
    rw [Program.bind, AtMostOne, if_pos first.1]
    exact fun reply => ih reply (first.2 reply)

theorem run_silent {c : Call} (silent : Silent handler c) (next : Reply c → Program Reply ε α)
    (s₀ s : σ) :
    (Program.call c next).run handler s =
      match (handler c s₀).1 with
      | .error e => (.error e, s)
      | .ok reply => (next reply).run handler s := by
  have hcall : handler c s = ((handler c s₀).1, s) := Prod.ext (silent.answers s s₀) (silent.keeps s)
  rw [Program.run, hcall]
  rcases (handler c s₀).1 with e | reply <;> rfl

theorem run_quiet (silent : ∀ c, quiet c = true → Silent handler c) {p : Program Reply ε α}
    (issues : Issues (fun c => quiet c = true) p) (s₀ : σ) :
    ∃ answer, ∀ s, p.run handler s = (answer, s) := by
  induction p with
  | done a => exact ⟨.ok a, fun s => rfl⟩
  | fail e => exact ⟨.error e, fun s => rfl⟩
  | call c next ih =>
    have hrun := run_silent (silent c issues.1) next s₀
    rcases hanswer : (handler c s₀).1 with e | reply
    · rw [hanswer] at hrun
      exact ⟨.error e, hrun⟩
    · rw [hanswer] at hrun
      obtain ⟨answer, hnext⟩ := ih reply (issues.2 reply)
      exact ⟨answer, fun s => (hrun s).trans (hnext s)⟩

section Serial

def takesEffect (quiet : Call → Bool) (handler : Handler Reply ε σ) (effective : Bool)
    (thread : Thread Reply ε α) (s : σ) : Bool :=
  match thread.programs with
  | [] => false
  | .done _ :: _ | .fail _ :: _ => !effective
  | .call c _ :: _ =>
    if quiet c then
      match (handler c s).1 with
      | .error _ => !effective
      | .ok _ => false
    else true

def staysEffective (quiet : Call → Bool) (handler : Handler Reply ε σ) (effective : Bool)
    (thread : Thread Reply ε α) (s : σ) : Bool :=
  match thread.programs with
  | [] | .done _ :: _ | .fail _ :: _ => false
  | .call c _ :: _ =>
    match (handler c s).1 with
    | .error _ => false
    | .ok _ => if quiet c then effective else true

/-- The threads whose programs take effect, in the order in which they do. -/
def effects [DecidableEq ι] (quiet : Call → Bool) (handler : Handler Reply ε σ) :
    (ι → Thread Reply ε α) × σ → (ι → Bool) → List ι → List ι
  | _, _, [] => []
  | (threads, s), effective, i :: schedule =>
    let next := (threads i).step handler s
    let later := effects quiet handler (Function.update threads i next.1, next.2)
      (Function.update effective i (staysEffective quiet handler (effective i) (threads i) s)) schedule
    if takesEffect quiet handler (effective i) (threads i) s then i :: later else later

end Serial

/-- Where a thread is, and where it is in the serial run: the program underway has taken effect
there, or it still has to. -/
inductive Level (quiet : Call → Bool) (handler : Handler Reply ε σ) :
    Bool → Thread Reply ε α → Client (Program Reply ε α) (Except ε α) → Prop
  | idle (answers : List (Except ε α)) : Level quiet handler false ⟨[], answers⟩ ⟨[], answers⟩
  | before (p whole : Program Reply ε α) (later : List (Program Reply ε α))
      (answers : List (Except ε α)) (once : AtMostOne quiet p)
      (same : ∀ s, whole.run handler s = p.run handler s) (ahead : ∀ q ∈ later, AtMostOne quiet q) :
      Level quiet handler false ⟨p :: later, answers⟩ ⟨whole :: later, answers⟩
  | behind (p : Program Reply ε α) (later : List (Program Reply ε α)) (answers : List (Except ε α))
      (answer : Except ε α) (rest : Issues (fun c => quiet c = true) p)
      (ends : ∀ s, p.run handler s = (answer, s)) (ahead : ∀ q ∈ later, AtMostOne quiet q) :
      Level quiet handler true ⟨p :: later, answers⟩ ⟨later, answers ++ [answer]⟩

theorem level_between {later : List (Program Reply ε α)} (answers : List (Except ε α))
    (ahead : ∀ q ∈ later, AtMostOne quiet q) :
    Level quiet handler false ⟨later, answers⟩ ⟨later, answers⟩ := by
  cases later with
  | nil => exact .idle answers
  | cons p later =>
    obtain ⟨hp, hlater⟩ := List.forall_mem_cons.mp ahead
    exact .before p p later answers hp (fun _ => rfl) hlater

def serialStep (quiet : Call → Bool) (handler : Handler Reply ε σ) (effective : Bool)
    (thread : Thread Reply ε α) (serial : Client (Program Reply ε α) (Except ε α)) (s : σ) :
    Client (Program Reply ε α) (Except ε α) × σ :=
  if takesEffect quiet handler effective thread s then serial.serve (alone handler) s else (serial, s)

section Calls

variable {c : Call} {next : Reply c → Program Reply ε α} {later : List (Program Reply ε α)}
  {answers : List (Except ε α)} {s s' : σ}

private theorem serve_cons {whole p : Program Reply ε α}
    (same : ∀ s, whole.run handler s = p.run handler s)
    {answer : Except ε α} (run : p.run handler s = (answer, s')) :
    Client.serve (alone handler) ⟨whole :: later, answers⟩ s =
      (⟨later, answers ++ [answer]⟩, s') := by
  have hserve : Client.serve (alone handler) ⟨whole :: later, answers⟩ s =
      (⟨later, answers ++ [(whole.run handler s).1]⟩, (whole.run handler s).2) := rfl
  rw [hserve, same, run]

private theorem step_throws (quiet : Call → Bool) (effective : Bool)
    (next : Reply c → Program Reply ε α) (later : List (Program Reply ε α))
    (answers : List (Except ε α)) {e : ε} (throws : handler c s = (.error e, s')) :
    Thread.step handler ⟨.call c next :: later, answers⟩ s = (⟨later, answers ++ [.error e]⟩, s') ∧
      staysEffective quiet handler effective ⟨.call c next :: later, answers⟩ s = false ∧
      takesEffect quiet handler effective ⟨.call c next :: later, answers⟩ s =
        (!quiet c || !effective) := by
  refine ⟨by simp only [Thread.step, Thread.answer, throws], ?_, ?_⟩
  · simp only [staysEffective, throws]
  · simp only [takesEffect, throws]
    cases quiet c <;> rfl

private theorem step_answered (quiet : Call → Bool) (effective : Bool)
    (next : Reply c → Program Reply ε α) (later : List (Program Reply ε α))
    (answers : List (Except ε α)) {reply : Reply c} (answered : handler c s = (.ok reply, s')) :
    Thread.step handler ⟨.call c next :: later, answers⟩ s = (⟨next reply :: later, answers⟩, s') ∧
      staysEffective quiet handler effective ⟨.call c next :: later, answers⟩ s =
        (!quiet c || effective) ∧
      takesEffect quiet handler effective ⟨.call c next :: later, answers⟩ s = !quiet c := by
  refine ⟨by simp only [Thread.step, answered], ?_, ?_⟩
  · simp only [staysEffective, answered]
    cases quiet c <;> rfl
  · simp only [takesEffect, answered]
    cases quiet c <;> rfl

private theorem level_step_before (silent : ∀ c, quiet c = true → Silent handler c)
    {whole : Program Reply ε α} (once : AtMostOne quiet (.call c next))
    (same : ∀ s, whole.run handler s = (Program.call c next).run handler s)
    (ahead : ∀ q ∈ later, AtMostOne quiet q) (s : σ) :
    let thread : Thread Reply ε α := ⟨.call c next :: later, answers⟩
    let serial := serialStep quiet handler false thread ⟨whole :: later, answers⟩ s
    Level quiet handler (staysEffective quiet handler false thread s) (thread.step handler s).1
      serial.1 ∧ (thread.step handler s).2 = serial.2 := by
  intro thread serial
  rcases hcall : handler c s with ⟨e | reply, s'⟩
  · -- The call throws: the serial run makes it here, too.
    obtain ⟨hstep, hstays, htakes⟩ := step_throws quiet false next later answers hcall
    have hrun : (Program.call c next).run handler s = (.error e, s') := by
      rw [Program.run, hcall]
    have hserial : serial = (⟨later, answers ++ [.error e]⟩, s') := by
      change serialStep quiet handler false thread _ s = _
      rw [serialStep, if_pos (by simp [thread, htakes]), serve_cons same hrun]
    rw [hserial, hstep, hstays]
    exact ⟨level_between _ ahead, rfl⟩
  obtain ⟨hstep, hstays, htakes⟩ := step_answered quiet false next later answers hcall
  by_cases hquiet : quiet c = true
  · obtain rfl : s' = s := by rw [← (silent c hquiet).keeps s, hcall]
    have hserial : serial = (⟨whole :: later, answers⟩, s') := by
      change serialStep quiet handler false thread _ s' = _
      rw [serialStep, if_neg (by simp [thread, htakes, hquiet])]
    rw [AtMostOne, if_pos hquiet] at once
    rw [hserial, hstep, hstays, hquiet]
    refine ⟨.before (next reply) whole later answers (once reply) (fun t => ?_) ahead, rfl⟩
    rw [same, run_silent (silent c hquiet) next s', hcall]
  · rw [AtMostOne, if_neg hquiet] at once
    obtain ⟨answer, hends⟩ := run_quiet silent (once reply) s'
    have hrun : (Program.call c next).run handler s = (answer, s') := by
      rw [Program.run, hcall]
      exact hends s'
    have hserial : serial = (⟨later, answers ++ [answer]⟩, s') := by
      change serialStep quiet handler false thread _ s = _
      rw [serialStep, if_pos (by simp [thread, htakes, hquiet]), serve_cons same hrun]
    rw [hserial, hstep, hstays, Bool.eq_false_of_not_eq_true hquiet]
    exact ⟨.behind (next reply) later answers answer (once reply) hends ahead, rfl⟩

private theorem level_step_behind (silent : ∀ c, quiet c = true → Silent handler c)
    {answer : Except ε α} (rest : Issues (fun c => quiet c = true) (.call c next))
    (ends : ∀ s, (Program.call c next).run handler s = (answer, s))
    (ahead : ∀ q ∈ later, AtMostOne quiet q) (s : σ) :
    let thread : Thread Reply ε α := ⟨.call c next :: later, answers⟩
    let serial := serialStep quiet handler true thread ⟨later, answers ++ [answer]⟩ s
    Level quiet handler (staysEffective quiet handler true thread s) (thread.step handler s).1
      serial.1 ∧ (thread.step handler s).2 = serial.2 := by
  intro thread serial
  have hquiet : quiet c = true := rest.1
  have hserial (idle : takesEffect quiet handler true thread s = false) :
      serial = (⟨later, answers ++ [answer]⟩, s) := by
    change serialStep quiet handler true thread _ s = _
    rw [serialStep, idle]
    rfl
  have hrun := run_silent (silent c hquiet) next s
  rcases hcall : handler c s with ⟨e | reply, s'⟩
  · obtain ⟨hstep, hstays, htakes⟩ := step_throws quiet true next later answers hcall
    obtain rfl : s' = s := by rw [← (silent c hquiet).keeps s, hcall]
    have hends := (ends s').symm.trans (hrun s')
    rw [hcall] at hends
    obtain rfl : answer = .error e := (Prod.mk.inj hends).1
    rw [hserial (by simp [thread, htakes, hquiet]), hstep, hstays]
    exact ⟨level_between _ ahead, rfl⟩
  · obtain ⟨hstep, hstays, htakes⟩ := step_answered quiet true next later answers hcall
    obtain rfl : s' = s := by rw [← (silent c hquiet).keeps s, hcall]
    rw [hserial (by simp [thread, htakes, hquiet]), hstep, hstays, hquiet]
    refine ⟨.behind (next reply) later answers answer (rest.2 reply) (fun t => ?_) ahead, rfl⟩
    have hends := (hrun t).symm.trans (ends t)
    rwa [hcall] at hends

end Calls

theorem level_step (silent : ∀ c, quiet c = true → Silent handler c) {effective : Bool}
    {thread : Thread Reply ε α} {serial : Client (Program Reply ε α) (Except ε α)}
    (level : Level quiet handler effective thread serial) (s : σ) :
    Level quiet handler (staysEffective quiet handler effective thread s) (thread.step handler s).1
        (serialStep quiet handler effective thread serial s).1 ∧
      (thread.step handler s).2 = (serialStep quiet handler effective thread serial s).2 := by
  cases level with
  | idle answers => exact ⟨.idle answers, rfl⟩
  | before p whole later answers once same ahead =>
    cases p with
    | done a =>
      have hrun : (Program.done a : Program Reply ε α).run handler s = (.ok a, s) := rfl
      rw [serialStep, if_pos (by rfl), serve_cons same hrun]
      exact ⟨level_between _ ahead, rfl⟩
    | fail e =>
      have hrun : (Program.fail e : Program Reply ε α).run handler s = (.error e, s) := rfl
      rw [serialStep, if_pos (by rfl), serve_cons same hrun]
      exact ⟨level_between _ ahead, rfl⟩
    | call c next => exact level_step_before silent once same ahead s
  | behind p later answers answer rest ends ahead =>
    cases p with
    | done a | fail e =>
      obtain rfl := (Prod.mk.inj (ends s)).1
      exact ⟨level_between _ ahead, rfl⟩
    | call c next => exact level_step_behind silent rest ends ahead s

theorem Level.answers {effective : Bool} {thread : Thread Reply ε α}
    {serial : Client (Program Reply ε α) (Except ε α)}
    (level : Level quiet handler effective thread serial) :
    thread.answers <+: serial.answers ∧ serial.answers.length ≤ thread.answers.length + 1 ∧
      (thread.programs = [] → thread.answers = serial.answers) := by
  cases level with
  | idle answers => exact ⟨List.prefix_rfl, Nat.le_succ _, fun _ => rfl⟩
  | before => exact ⟨List.prefix_rfl, Nat.le_succ _, fun _ => rfl⟩
  | behind p later answers answer =>
    refine ⟨List.prefix_append _ _, ?_, nofun⟩
    rw [List.length_append, List.length_singleton]

section Schedules

variable [DecidableEq ι]

private theorem interleave_level (silent : ∀ c, quiet c = true → Silent handler c)
    (schedule : List ι) {threads : ι → Thread Reply ε α}
    {serials : ι → Client (Program Reply ε α) (Except ε α)} {effective : ι → Bool}
    (level : ∀ i, Level quiet handler (effective i) (threads i) (serials i)) (s : σ) :
    let ended := interleave handler (threads, s) schedule
    let serial := serially (alone handler) (serials, s)
      (effects quiet handler (threads, s) effective schedule)
    ended.2 = serial.2 ∧
      ∀ i, ∃ effective', Level quiet handler effective' (ended.1 i) (serial.1 i) := by
  induction schedule generalizing threads serials effective s with
  | nil => exact ⟨rfl, fun i => ⟨effective i, level i⟩⟩
  | cons j schedule ih =>
    obtain ⟨hlevel, hstate⟩ := level_step silent (level j) s
    have hnext (i : ι) : Level quiet handler
        (Function.update effective j (staysEffective quiet handler (effective j) (threads j) s) i)
        (Function.update threads j ((threads j).step handler s).1 i)
        (Function.update serials j
          (serialStep quiet handler (effective j) (threads j) (serials j) s).1 i) := by
      by_cases hi : i = j
      · subst hi
        simpa only [Function.update_self] using hlevel
      · simpa only [Function.update_of_ne hi] using level i
    have hlater := ih hnext ((threads j).step handler s).2
    have hserial : serially (alone handler) (serials, s)
        (effects quiet handler (threads, s) effective (j :: schedule)) =
          serially (alone handler) (Function.update serials j
            (serialStep quiet handler (effective j) (threads j) (serials j) s).1,
            ((threads j).step handler s).2)
          (effects quiet handler
            (Function.update threads j ((threads j).step handler s).1,
              ((threads j).step handler s).2)
            (Function.update effective j
              (staysEffective quiet handler (effective j) (threads j) s)) schedule) := by
      rw [effects]
      by_cases hnow : takesEffect quiet handler (effective j) (threads j) s = true
      · rw [serialStep, if_pos hnow] at hstate
        rw [serialStep, if_pos hnow, if_pos hnow, serially, ← hstate]
      · rw [serialStep, if_neg hnow] at hstate
        rw [serialStep, if_neg hnow, if_neg hnow, Function.update_eq_self, hstate]
    dsimp only
    rw [hserial]
    exact hlater

/-- Every schedule is a serial run of whole programs, in the order in which they take effect: the
state is the same, and so are the answers of the programs that have ended. -/
theorem interleave_serial (silent : ∀ c, quiet c = true → Silent handler c)
    {programs : ι → List (Program Reply ε α)} (once : ∀ i, ∀ p ∈ programs i, AtMostOne quiet p)
    (s : σ) (schedule : List ι) (i : ι) :
    let start : (ι → Thread Reply ε α) × σ := (fun i => ⟨programs i, []⟩, s)
    let ended := interleave handler start schedule
    let serial := serially (alone handler) (fun i => ⟨programs i, []⟩, s)
      (effects quiet handler start (fun _ => false) schedule)
    ended.2 = serial.2 ∧ (ended.1 i).answers <+: (serial.1 i).answers ∧
      (serial.1 i).answers.length ≤ (ended.1 i).answers.length + 1 ∧
      ((ended.1 i).programs = [] → (ended.1 i).answers = (serial.1 i).answers) := by
  obtain ⟨hstate, hlevel⟩ := interleave_level silent schedule
    (fun i => level_between [] (once i)) s
  obtain ⟨effective, level⟩ := hlevel i
  exact ⟨hstate, level.answers⟩

theorem effects_concat (now : (ι → Thread Reply ε α) × σ) (effective : ι → Bool)
    (schedule : List ι) (i : ι) :
    effects quiet handler now effective (schedule ++ [i]) =
        effects quiet handler now effective schedule ∨
      effects quiet handler now effective (schedule ++ [i]) =
        effects quiet handler now effective schedule ++ [i] := by
  induction schedule generalizing now effective with
  | nil =>
    obtain ⟨threads, s⟩ := now
    have hone : effects quiet handler (threads, s) effective [i] =
        if takesEffect quiet handler (effective i) (threads i) s then [i] else [] := rfl
    rw [List.nil_append, hone]
    split_ifs
    · exact Or.inr rfl
    · exact Or.inl rfl
  | cons j schedule ih =>
    obtain ⟨threads, s⟩ := now
    rw [List.cons_append, effects, effects]
    split_ifs
    · rcases ih _ _ with h | h
      · exact Or.inl (congrArg (j :: ·) h)
      · exact Or.inr (congrArg (j :: ·) h)
    · exact ih _ _

end Schedules

end DuckdbOpendalfs.Execution.Linearization
