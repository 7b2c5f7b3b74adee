/- DuckdbOpendalfs/Text/LengthFraming
   digest: Length-framed concatenations are uniquely decodable, whatever the payloads contain. -/

import DuckdbOpendalfs.Text.ByteString

set_option autoImplicit false
set_option relaxedAutoImplicit false

namespace DuckdbOpendalfs.Text.LengthFraming

open ByteString

/-- A way to write lengths: distinct numbers are written differently, never with the separator. -/
structure Numerals (α : Type*) where
  write : Nat → List α
  separator : α
  injective : Function.Injective write
  fresh : ∀ n, separator ∉ write n

namespace Numerals

variable {α : Type*} [DecidableEq α] (N : Numerals α)

def frame (payload : List α) : List α :=
  N.write payload.length ++ N.separator :: payload

def frames (payloads : List (List α)) : List α := payloads.flatMap N.frame

omit [DecidableEq α] in
@[simp] theorem frames_nil : N.frames [] = [] := rfl

omit [DecidableEq α] in
@[simp] theorem frames_cons (p : List α) (ps : List (List α)) :
    N.frames (p :: ps) = N.frame p ++ N.frames ps := rfl

omit [DecidableEq α] in
theorem frame_ne_nil (p : List α) : N.frame p ≠ [] := by
  simp [frame]

/-- The first frame of a text is determined by the text. The separator ends the numeral, the
numeral gives the length, and the length cuts the payload. -/
theorem frame_append_inj {p q rest rest' : List α}
    (h : N.frame p ++ rest = N.frame q ++ rest') : p = q ∧ rest = rest' := by
  simp only [frame, List.append_assoc, List.cons_append] at h
  obtain ⟨hnumeral, htail⟩ := cut_unique (N.fresh _) (N.fresh _) h
  exact List.append_inj htail (N.injective hnumeral)

theorem frames_injective : Function.Injective N.frames := by
  intro ps qs h
  induction ps generalizing qs with
  | nil =>
    cases qs with
    | nil => rfl
    | cons q qs => simp [N.frame_ne_nil] at h
  | cons p ps ih =>
    cases qs with
    | nil => simp [N.frame_ne_nil] at h
    | cons q qs =>
      obtain ⟨rfl, htail⟩ := N.frame_append_inj h
      rw [ih htail]

end Numerals

/-- The decimal digits of `n` as ASCII bytes, the value of `std::to_string`. -/
def toDecimal (n : Nat) : Bytes := (Nat.toDigits 10 n).map fun c => UInt8.ofNat c.toNat

private theorem digit_range {n : Nat} {c : Char} (h : c ∈ Nat.toDigits 10 n) :
    48 ≤ c.toNat ∧ c.toNat ≤ 57 := by
  have hd : c.isDigit = true := Nat.isDigit_of_mem_toDigits (by decide) (by decide) h
  simp only [Char.isDigit, Bool.and_eq_true, decide_eq_true_eq] at hd
  exact ⟨UInt32.le_iff_toNat_le.mp hd.1, UInt32.le_iff_toNat_le.mp hd.2⟩

private theorem toDecimal_decodes (n : Nat) :
    (toDecimal n).map (fun b => Char.ofNat b.toNat) = Nat.toDigits 10 n := by
  simp only [toDecimal, List.map_map]
  conv_rhs => rw [← List.map_id (Nat.toDigits 10 n)]
  apply List.map_congr_left
  intro c hc
  have hrange := digit_range hc
  have hmod : c.toNat % 256 = c.toNat := Nat.mod_eq_of_lt (by omega)
  simp [hmod, Char.ofNat_toNat]

theorem toDecimal_injective : Function.Injective toDecimal := by
  intro m n h
  have hdigits : Nat.toDigits 10 m = Nat.toDigits 10 n := by
    rw [← toDecimal_decodes, ← toDecimal_decodes, h]
  have hvalue := congrArg (Nat.ofDigitChars 10 · 0) hdigits
  simpa using hvalue

theorem colon_not_mem_toDecimal (n : Nat) : colon ∉ toDecimal n := by
  intro h
  obtain ⟨c, hc, heq⟩ := List.mem_map.mp h
  have hrange := digit_range hc
  have hvalue := congrArg UInt8.toNat heq
  simp only [UInt8.toNat_ofNat'] at hvalue
  have hcolon : colon.toNat = 58 := rfl
  omega

def decimal : Numerals UInt8 where
  write := toDecimal
  separator := colon
  injective := toDecimal_injective
  fresh := colon_not_mem_toDecimal

example : decimal.frames [bytes "s3", bytes "1:2"] = bytes "2:s33:1:2" := by decide

end DuckdbOpendalfs.Text.LengthFraming
