/- DuckdbOpendalfs/Text/PercentEncoding
   digest: Percent encodings with a chosen set of escaped bytes, and a decoder that undoes them all. -/

import DuckdbOpendalfs.Text.ByteString

set_option autoImplicit false
set_option relaxedAutoImplicit false

namespace DuckdbOpendalfs.Text.PercentEncoding

open ByteString

def hexValue (b : UInt8) : Option Nat :=
  if 48 ≤ b ∧ b ≤ 57 then some (b.toNat - 48)
  else if 65 ≤ b ∧ b ≤ 70 then some (b.toNat - 55)
  else if 97 ≤ b ∧ b ≤ 102 then some (b.toNat - 87)
  else none

/-- `e` is a percent encoding of `s` in which every byte of `escaped` is escaped. Other bytes may
be escaped or kept, each occurrence on its own. -/
inductive Encodes (escaped : UInt8 → Prop) : Bytes → Bytes → Prop
  | nil : Encodes escaped [] []
  | keep {b : UInt8} {s e : Bytes} (plain : ¬ escaped b) (rest : Encodes escaped s e) :
      Encodes escaped (b :: s) (b :: e)
  | escape {b hi lo : UInt8} {s e : Bytes} (high : hexValue hi = some (b.toNat / 16))
      (low : hexValue lo = some (b.toNat % 16)) (rest : Encodes escaped s e) :
      Encodes escaped (b :: s) (percent :: hi :: lo :: e)

def Reserved (b : UInt8) : Prop := b = percent ∨ (hexValue b).isSome

instance (b : UInt8) : Decidable (Reserved b) := by unfold Reserved; infer_instance

theorem Encodes.mono {P Q : UInt8 → Prop} {s e : Bytes} (h : Encodes P s e)
    (weaker : ∀ b, Q b → P b) : Encodes Q s e := by
  induction h with
  | nil => exact .nil
  | keep plain _ ih => exact .keep (fun hq => plain (weaker _ hq)) ih
  | escape high low _ ih => exact .escape high low ih

theorem Encodes.append {P : UInt8 → Prop} {s e s' e' : Bytes} (h : Encodes P s e)
    (h' : Encodes P s' e') : Encodes P (s ++ s') (e ++ e') := by
  induction h with
  | nil => exact h'
  | keep plain _ ih => exact .keep plain ih
  | escape high low _ ih => exact .escape high low ih

private theorem not_reserved {c : UInt8} (free : ¬ Reserved c) :
    c ≠ percent ∧ ∀ d n, hexValue d = some n → c ≠ d := by
  refine ⟨fun hc => free (Or.inl hc), fun d n hd => ?_⟩
  rintro rfl
  exact free (Or.inr (by simp [hd]))

theorem Encodes.not_mem {P : UInt8 → Prop} {s e : Bytes} (h : Encodes P s e) {c : UInt8}
    (escaped : P c) (free : ¬ Reserved c) : c ∉ e := by
  obtain ⟨hpercent, hhex⟩ := not_reserved free
  induction h with
  | nil => simp
  | @keep b s e plain _ ih =>
    have hb : c ≠ b := fun hc => plain (hc ▸ escaped)
    simp only [List.mem_cons, not_or]
    exact ⟨hb, ih⟩
  | escape high low _ ih =>
    simp only [List.mem_cons, not_or]
    exact ⟨hpercent, hhex _ _ high, hhex _ _ low, ih⟩

def hexDigit (n : Nat) : UInt8 := UInt8.ofNat (if n < 10 then 48 + n else 55 + n)

def encode (escaped : UInt8 → Prop) [DecidablePred escaped] : Bytes → Bytes
  | [] => []
  | b :: s =>
    if escaped b then
      percent :: hexDigit (b.toNat / 16) :: hexDigit (b.toNat % 16) :: encode escaped s
    else b :: encode escaped s

private theorem hexValue_hexDigit : ∀ n < 16, hexValue (hexDigit n) = some n := by
  decide

theorem encodes_encode (escaped : UInt8 → Prop) [DecidablePred escaped] (s : Bytes) :
    Encodes escaped s (encode escaped s) := by
  induction s with
  | nil => exact .nil
  | cons b s ih =>
    rw [encode]
    split
    · have hbyte : b.toNat < 256 := b.toNat_lt
      exact .escape (hexValue_hexDigit _ (by omega)) (hexValue_hexDigit _ (by omega)) ih
    · rename_i plain
      exact .keep plain ih

/-- Resolve every complete escape and keep everything else. -/
def decode : Bytes → Bytes
  | [] => []
  | [a] => [a]
  | [a, b] => [a, b]
  | a :: b :: c :: rest =>
    if a = percent then
      match hexValue b, hexValue c with
      | some high, some low => UInt8.ofNat (high * 16 + low) :: decode rest
      | _, _ => a :: decode (b :: c :: rest)
    else a :: decode (b :: c :: rest)

theorem decode_cons_of_ne {a : UInt8} (s : Bytes) (ha : a ≠ percent) :
    decode (a :: s) = a :: decode s := by
  match s with
  | [] => rfl
  | [_] => rfl
  | _ :: _ :: _ => simp [decode, ha]

theorem decode_escape {b hi lo : UInt8} (s : Bytes) (high : hexValue hi = some (b.toNat / 16))
    (low : hexValue lo = some (b.toNat % 16)) : decode (percent :: hi :: lo :: s) = b :: decode s := by
  have hb : b.toNat / 16 * 16 + b.toNat % 16 = b.toNat := by omega
  simp [decode, high, low, hb]

theorem decode_encodes {P : UInt8 → Prop} {s e : Bytes} (h : Encodes P s e) (hp : P percent) :
    decode e = s := by
  induction h with
  | nil => rfl
  | @keep b s e plain _ ih =>
    have hb : b ≠ percent := fun hb => plain (hb ▸ hp)
    rw [decode_cons_of_ne e hb, ih]
  | escape high low _ ih => rw [decode_escape _ high low, ih]

theorem decode_of_not_mem {s : Bytes} (plain : percent ∉ s) : decode s = s := by
  induction s with
  | nil => rfl
  | cons b s ih =>
    rw [List.mem_cons, not_or] at plain
    rw [decode_cons_of_ne s (Ne.symm plain.1), ih plain.2]

theorem decode_append_cons {c : UInt8} (s t : Bytes) (free : ¬ Reserved c) :
    decode (s ++ c :: t) = decode s ++ c :: decode t := by
  have hhex : hexValue c = none := by
    by_contra hsome
    exact free (Or.inr (by simpa [Option.isSome_iff_ne_none] using hsome))
  have hc : c ≠ percent := fun h => free (Or.inl h)
  -- Neither a first nor a second digit of an escape is the byte in between.
  have hone (a : UInt8) : decode (a :: c :: t) = a :: c :: decode t := by
    by_cases ha : a = percent
    · subst ha
      rw [← decode_cons_of_ne t hc]
      cases t <;> simp [decode, hhex]
    · rw [decode_cons_of_ne _ ha, decode_cons_of_ne t hc]
  have htwo (a b : UInt8) : decode (a :: b :: c :: t) = a :: decode (b :: c :: t) := by
    by_cases ha : a = percent
    · simp [decode, hhex]
    · exact decode_cons_of_ne _ ha
  induction s using decode.induct with
  | case1 => exact decode_cons_of_ne t hc
  | case2 a => exact hone a
  | case3 a b => exact (htwo a b).trans (congrArg (a :: ·) (hone b))
  | case4 b d rest high low hb hd ih =>
    simp only [List.cons_append, decode, hb, hd, ih, ↓reduceIte]
  | case5 b d rest hbd ih =>
    simp only [List.cons_append] at ih ⊢
    rw [decode, decode]
    simp only [↓reduceIte]
    rw [ih]
    rfl
  | case6 a b d rest ha ih =>
    simp only [List.cons_append] at ih ⊢
    rw [decode_cons_of_ne _ ha, decode_cons_of_ne _ ha, ih]
    rfl

theorem decode_append_singleton {c : UInt8} (s : Bytes) (free : ¬ Reserved c) :
    decode (s ++ [c]) = decode s ++ [c] := decode_append_cons s [] free

example : decode (bytes "refs%2Fconvert%2fparquet%") = bytes "refs/convert/parquet%" := by decide

section Keeping

inductive EncodesKeeping (escaped kept : UInt8 → Prop) : Bytes → Bytes → Prop
  | nil : EncodesKeeping escaped kept [] []
  | keep {b : UInt8} {s e : Bytes} (plain : ¬ escaped b) (rest : EncodesKeeping escaped kept s e) :
      EncodesKeeping escaped kept (b :: s) (b :: e)
  | escape {b hi lo : UInt8} {s e : Bytes} (free : ¬ kept b)
      (high : hexValue hi = some (b.toNat / 16)) (low : hexValue lo = some (b.toNat % 16))
      (rest : EncodesKeeping escaped kept s e) :
      EncodesKeeping escaped kept (b :: s) (percent :: hi :: lo :: e)

variable {escaped kept : UInt8 → Prop} {s e : Bytes}

theorem EncodesKeeping.encodes (h : EncodesKeeping escaped kept s e) : Encodes escaped s e := by
  induction h with
  | nil => exact .nil
  | keep plain _ ih => exact .keep plain ih
  | escape _ high low _ ih => exact .escape high low ih

theorem EncodesKeeping.of_append {front back : Bytes}
    (h : EncodesKeeping escaped kept (front ++ back) e) :
    ∃ e₁ e₂, e = e₁ ++ e₂ ∧ EncodesKeeping escaped kept front e₁ ∧
      EncodesKeeping escaped kept back e₂ := by
  induction front generalizing e with
  | nil => exact ⟨[], e, rfl, .nil, h⟩
  | cons b front ih =>
    cases h with
    | keep plain rest =>
      obtain ⟨e₁, e₂, rfl, hfront, hback⟩ := ih rest
      exact ⟨b :: e₁, e₂, rfl, .keep plain hfront, hback⟩
    | escape free high low rest =>
      obtain ⟨e₁, e₂, rfl, hfront, hback⟩ := ih rest
      exact ⟨_, e₂, rfl, .escape free high low hfront, hback⟩

theorem EncodesKeeping.of_cons {c : UInt8} (keeps : kept c)
    (h : EncodesKeeping escaped kept (c :: s) e) :
    ∃ e', e = c :: e' ∧ EncodesKeeping escaped kept s e' := by
  cases h with
  | keep plain rest => exact ⟨_, rfl, rest⟩
  | escape free high low rest => exact absurd keeps free

theorem EncodesKeeping.mem_of_mem (h : EncodesKeeping escaped kept s e) {c : UInt8}
    (free : ¬ Reserved c) (member : c ∈ e) : c ∈ s := by
  obtain ⟨hpercent, hhex⟩ := not_reserved free
  induction h with
  | nil => exact member
  | keep plain _ ih =>
    rcases List.mem_cons.mp member with rfl | hmem
    · exact List.mem_cons_self
    · exact List.mem_cons_of_mem _ (ih hmem)
  | escape _ high low _ ih =>
    simp only [List.mem_cons] at member
    rcases member with hc | hc | hc | hmem
    · exact absurd hc hpercent
    · exact absurd hc (hhex _ _ high)
    · exact absurd hc (hhex _ _ low)
    · exact List.mem_cons_of_mem _ (ih hmem)

theorem EncodesKeeping.getLast?_of_getLast? (h : EncodesKeeping escaped kept s e) {c : UInt8}
    (free : ¬ Reserved c) (last : e.getLast? = some c) : s.getLast? = some c := by
  obtain ⟨-, hhex⟩ := not_reserved free
  induction h with
  | nil => exact last
  | @keep b s e _ rest ih =>
    cases hrest : e.getLast? with
    | none =>
      obtain rfl : e = [] := List.getLast?_eq_none_iff.mp hrest
      cases rest
      exact last
    | some d =>
      rw [List.getLast?_cons, hrest] at last
      rw [List.getLast?_cons, ih (hrest.trans last)]
      rfl
  | @escape b hi lo s e _ _ low rest ih =>
    cases hrest : e.getLast? with
    | none =>
      obtain rfl : e = [] := List.getLast?_eq_none_iff.mp hrest
      have hlo : lo = c := Option.some.inj last
      exact absurd hlo.symm (hhex _ _ low)
    | some d =>
      simp only [List.getLast?_cons, hrest, Option.getD_some] at last
      rw [List.getLast?_cons, ih (hrest.trans last)]
      rfl

theorem EncodesKeeping.length_le (h : EncodesKeeping escaped kept s e) : s.length ≤ e.length := by
  induction h with
  | nil => exact le_rfl
  | keep _ _ ih => simpa using ih
  | escape _ _ _ _ ih =>
    simp only [List.length_cons]
    omega

theorem EncodesKeeping.eq_iff (h : EncodesKeeping escaped kept s e) (marks : escaped percent) :
    e = s ↔ percent ∉ e := by
  induction h with
  | nil => simp
  | @keep b s e plain _ ih =>
    have hb : percent ≠ b := fun hb => plain (hb ▸ marks)
    rw [List.cons_inj_right, ih, List.mem_cons, not_or]
    exact ⟨fun hrest => ⟨hb, hrest⟩, fun hall => hall.2⟩
  | escape _ _ _ rest _ =>
    refine iff_of_false (fun heq => ?_) (by simp)
    have hlength := congrArg List.length heq
    have hrest := rest.length_le
    simp only [List.length_cons] at hlength
    omega

theorem encodesKeeping_encode [DecidablePred escaped] (disjoint : ∀ b, escaped b → ¬ kept b)
    (s : Bytes) : EncodesKeeping escaped kept s (encode escaped s) := by
  induction s with
  | nil => exact .nil
  | cons b s ih =>
    rw [encode]
    split
    · rename_i hb
      have hbyte : b.toNat < 256 := b.toNat_lt
      exact .escape (disjoint b hb) (hexValue_hexDigit _ (by omega))
        (hexValue_hexDigit _ (by omega)) ih
    · rename_i plain
      exact .keep plain ih

end Keeping

end DuckdbOpendalfs.Text.PercentEncoding
