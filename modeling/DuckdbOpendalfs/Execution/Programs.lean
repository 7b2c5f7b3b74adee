/- DuckdbOpendalfs/Execution/Programs
   digest: Programs that call an outside service, run against a handler that answers the calls. -/

set_option autoImplicit false
set_option relaxedAutoImplicit false

namespace DuckdbOpendalfs.Execution.Programs

/-- A program that issues calls one at a time. An error ends it, and so does an error of a call. -/
inductive Program {Call : Type} (Reply : Call → Type) (ε α : Type) : Type
  | done (value : α)
  | fail (error : ε)
  | call (c : Call) (next : Reply c → Program Reply ε α)

abbrev Handler {Call : Type} (Reply : Call → Type) (ε σ : Type) : Type :=
  (c : Call) → σ → Except ε (Reply c) × σ

namespace Program

variable {Call : Type} {Reply : Call → Type} {ε α β σ : Type}

def bind (p : Program Reply ε α) (f : α → Program Reply ε β) : Program Reply ε β :=
  match p with
  | .done a => f a
  | .fail e => .fail e
  | .call c next => .call c fun reply => bind (next reply) f

instance : Monad (Program Reply ε) where
  pure := .done
  bind := bind

def perform (c : Call) : Program Reply ε (Reply c) := .call c .done

def ofExcept : Except ε α → Program Reply ε α
  | .ok a => .done a
  | .error e => .fail e

instance : MonadLift (Except ε) (Program Reply ε) := ⟨ofExcept⟩

def run (handler : Handler Reply ε σ) : Program Reply ε α → σ → Except ε α × σ
  | .done a, s => (.ok a, s)
  | .fail e, s => (.error e, s)
  | .call c next, s =>
    match handler c s with
    | (.error e, s') => (.error e, s')
    | (.ok reply, s') => run handler (next reply) s'

variable (handler : Handler Reply ε σ)

@[simp] theorem run_pure (a : α) (s : σ) :
    run handler (pure a : Program Reply ε α) s = (.ok a, s) := rfl

@[simp] theorem run_perform (c : Call) (s : σ) : run handler (perform c) s = handler c s := by
  unfold perform
  rw [run]
  split <;> simp_all [run]

@[simp] theorem run_lift (x : Except ε α) (s : σ) :
    run handler (liftM x : Program Reply ε α) s = (x, s) := by
  cases x <;> rfl

@[simp] theorem run_bind (p : Program Reply ε α) (f : α → Program Reply ε β) (s : σ) :
    run handler (p >>= f) s =
      match run handler p s with
      | (.ok a, s') => run handler (f a) s'
      | (.error e, s') => (.error e, s') := by
  change run handler (bind p f) s = _
  induction p generalizing s with
  | done a => rfl
  | fail e => rfl
  | call c next ih =>
    simp only [bind, run]
    cases hc : handler c s with
    | mk reply s' =>
      cases reply with
      | error e => rfl
      | ok r => exact ih r s'

theorem run_bind_ok {p : Program Reply ε α} {f : α → Program Reply ε β} {s s'' : σ} {b : β} :
    run handler (p >>= f) s = (.ok b, s'') ↔
      ∃ a s', run handler p s = (.ok a, s') ∧ run handler (f a) s' = (.ok b, s'') := by
  rw [run_bind]
  rcases run handler p s with ⟨e | a, s'⟩
  · simp
  · constructor
    · exact fun h => ⟨a, s', rfl, h⟩
    · rintro ⟨a', t, heq, h⟩
      obtain ⟨ha, rfl⟩ := Prod.mk.inj heq
      rwa [← Except.ok.inj ha] at h

theorem run_bind_ensures {Q : Except ε β × σ → Prop} {p : Program Reply ε α}
    {f : α → Program Reply ε β} {s : σ}
    (fails : ∀ e s', run handler p s = (.error e, s') → Q (.error e, s'))
    (continues : ∀ a s', run handler p s = (.ok a, s') → Q (run handler (f a) s')) :
    Q (run handler (p >>= f) s) := by
  rw [run_bind]
  rcases hrun : run handler p s with ⟨e | a, s'⟩
  · exact fails e s' hrun
  · exact continues a s' hrun

def Returns (P : α → Prop) : Program Reply ε α → Prop
  | .done a => P a
  | .fail _ => True
  | .call _ next => ∀ reply, Returns P (next reply)

theorem returns_bind {P : β → Prop} {p : Program Reply ε α} {f : α → Program Reply ε β}
    (later : ∀ a, Returns P (f a)) : Returns P (p >>= f) := by
  change Returns P (bind p f)
  induction p with
  | done a => exact later a
  | fail e => trivial
  | call c next ih => exact fun reply => ih reply

theorem Returns.bind {P : α → Prop} {Q : β → Prop} {p : Program Reply ε α}
    {f : α → Program Reply ε β} (first : Returns P p) (later : ∀ a, P a → Returns Q (f a)) :
    Returns Q (p >>= f) := by
  change Returns Q (Program.bind p f)
  induction p with
  | done a => exact later a first
  | fail e => trivial
  | call c next ih => exact fun reply => ih reply (first reply)

theorem Returns.of_run {P : α → Prop} {p : Program Reply ε α} (returns : Returns P p) {s s' : σ}
    {a : α} (h : run handler p s = (.ok a, s')) : P a := by
  induction p generalizing s with
  | done b =>
    obtain ⟨hb, -⟩ := Prod.mk.inj h
    exact Except.ok.inj hb ▸ returns
  | fail e => cases h
  | call c next ih =>
    rw [run] at h
    split at h
    · cases h
    · rename_i reply s₁ _
      exact ih reply (returns reply) h

end Program

end DuckdbOpendalfs.Execution.Programs
