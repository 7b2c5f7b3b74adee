/- DuckdbOpendalfs/Execution/RelyGuarantee
   digest: What a program does while others act on its service between any two of its calls. -/

import DuckdbOpendalfs.Execution.Programs

set_option autoImplicit false
set_option relaxedAutoImplicit false

namespace DuckdbOpendalfs.Execution.RelyGuarantee

open Programs

variable {Call : Type} {Reply : Call → Type} {ε α β σ : Type}

/-- Others may act within `rely` before each call and after the last one. Then every call of the
program is within `guarantee`, and its answer satisfies `post`. -/
def Assured (handler : Handler Reply ε σ) (rely guarantee : σ → σ → Prop)
    (post : Except ε α → σ → Prop) : Program Reply ε α → σ → Prop
  | .done a, s => ∀ s', rely s s' → post (.ok a) s'
  | .fail e, s => ∀ s', rely s s' → post (.error e) s'
  | .call c next, s => ∀ s', rely s s' → guarantee s' (handler c s').2 ∧
      (∀ e, (handler c s').1 = .error e → ∀ s'', rely (handler c s').2 s'' → post (.error e) s'') ∧
      ∀ reply, (handler c s').1 = .ok reply →
        Assured handler rely guarantee post (next reply) (handler c s').2

structure Interference (rely : σ → σ → Prop) : Prop where
  refl : ∀ s, rely s s
  trans : ∀ {s s' s''}, rely s s' → rely s' s'' → rely s s''

variable {handler : Handler Reply ε σ} {rely guarantee : σ → σ → Prop}

theorem Assured.stable (interference : Interference rely) {post : Except ε α → σ → Prop}
    {p : Program Reply ε α} {s s' : σ} (assured : Assured handler rely guarantee post p s)
    (acted : rely s s') : Assured handler rely guarantee post p s' := by
  cases p with
  | done a => exact fun s'' h => assured s'' (interference.trans acted h)
  | fail e => exact fun s'' h => assured s'' (interference.trans acted h)
  | call c next => exact fun s'' h => assured s'' (interference.trans acted h)

theorem assured_pure {post : Except ε α → σ → Prop} {a : α} {s : σ}
    (answers : ∀ s', rely s s' → post (.ok a) s') :
    Assured handler rely guarantee post (pure a) s := answers

theorem assured_fail {post : Except ε α → σ → Prop} {e : ε} {s : σ}
    (answers : ∀ s', rely s s' → post (.error e) s') :
    Assured handler rely guarantee post (.fail e) s := answers

theorem assured_bind (interference : Interference rely) {mid : Except ε α → σ → Prop}
    {post : Except ε β → σ → Prop} {p : Program Reply ε α} {f : α → Program Reply ε β} {s : σ}
    (first : Assured handler rely guarantee mid p s)
    (throws : ∀ e s', mid (.error e) s' → post (.error e) s')
    (continues : ∀ a s', mid (.ok a) s' → Assured handler rely guarantee post (f a) s') :
    Assured handler rely guarantee post (p >>= f) s := by
  change Assured handler rely guarantee post (p.bind f) s
  induction p generalizing s with
  | done a => exact continues a s (first s (interference.refl s))
  | fail e => exact fun s' h => throws e s' (first s' h)
  | call c next ih =>
    intro s' h
    obtain ⟨hwithin, hthrows, hcontinues⟩ := first s' h
    refine ⟨hwithin, fun e he s'' h' => throws e s'' (hthrows e he s'' h'), fun reply hreply => ?_⟩
    exact ih reply (hcontinues reply hreply)

theorem assured_perform_bind {post : Except ε β → σ → Prop} {c : Call}
    {f : Reply c → Program Reply ε β} {s : σ}
    (within : ∀ s', rely s s' → guarantee s' (handler c s').2)
    (throws : ∀ s', rely s s' → ∀ e, (handler c s').1 = .error e →
      ∀ s'', rely (handler c s').2 s'' → post (.error e) s'')
    (continues : ∀ s', rely s s' → ∀ reply, (handler c s').1 = .ok reply →
      Assured handler rely guarantee post (f reply) (handler c s').2) :
    Assured handler rely guarantee post (Program.perform c >>= f) s :=
  fun s' h => ⟨within s' h, throws s' h, continues s' h⟩

theorem Assured.weaken {post post' : Except ε α → σ → Prop} {p : Program Reply ε α} {s : σ}
    (assured : Assured handler rely guarantee post p s)
    (weaker : ∀ answer s', post answer s' → post' answer s') :
    Assured handler rely guarantee post' p s := by
  induction p generalizing s with
  | done a => exact fun s' h => weaker _ s' (assured s' h)
  | fail e => exact fun s' h => weaker _ s' (assured s' h)
  | call c next ih =>
    intro s' h
    obtain ⟨hwithin, hthrows, hcontinues⟩ := assured s' h
    refine ⟨hwithin, fun e he s'' h' => weaker _ s'' (hthrows e he s'' h'), fun reply hreply => ?_⟩
    exact ih reply (hcontinues reply hreply)

end DuckdbOpendalfs.Execution.RelyGuarantee
