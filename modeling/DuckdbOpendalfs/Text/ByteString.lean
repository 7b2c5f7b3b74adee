/- DuckdbOpendalfs/Text/ByteString
   digest: Byte strings, delimiter search, cuts at the first delimiter and substring search. -/

import Mathlib.Data.List.Infix
import Mathlib.Data.List.DropRight

set_option autoImplicit false
set_option relaxedAutoImplicit false

namespace DuckdbOpendalfs.Text.ByteString

abbrev Bytes := List UInt8

def bytes (literal : String) : Bytes := literal.toList.map fun c => UInt8.ofNat c.toNat

abbrev slash : UInt8 := 47
abbrev question : UInt8 := 63
abbrev percent : UInt8 := 37
abbrev atSign : UInt8 := 64
abbrev colon : UInt8 := 58
abbrev dot : UInt8 := 46

section Delimiters

variable {α : Type*} [DecidableEq α]

def findFrom (c : α) (s : List α) (pos : Nat) : Option Nat :=
  ((s.drop pos).idxOf? c).map (· + pos)

def find (c : α) (s : List α) : Option Nat := findFrom c s 0

def substr (s : List α) (pos count : Nat) : List α := (s.drop pos).take count

def beforeFirst (c : α) (s : List α) : List α := substr s 0 ((find c s).getD s.length)

@[simp] theorem idxOf?_append_cons {c : α} {a : List α} (b : List α) (fresh : c ∉ a) :
    (a ++ c :: b).idxOf? c = some a.length := by
  induction a with
  | nil => simp [List.idxOf?_cons]
  | cons x a ih =>
    have hx : x ≠ c := fun h => fresh (h ▸ List.mem_cons_self)
    have ha : c ∉ a := fun h => fresh (List.mem_cons_of_mem x h)
    simp [List.idxOf?_cons, hx, ih ha]

@[simp] theorem find_append_cons {c : α} {a : List α} (b : List α) (fresh : c ∉ a) :
    find c (a ++ c :: b) = some a.length := by
  simp [find, findFrom, fresh]

@[simp] theorem find_eq_none {c : α} {s : List α} : find c s = none ↔ c ∉ s := by
  simp [find, findFrom]

@[simp] theorem findFrom_append_cons {c : α} {a : List α} (front b : List α) (fresh : c ∉ a) :
    findFrom c (front ++ (a ++ c :: b)) front.length = some (front.length + a.length) := by
  simp [findFrom, fresh, Nat.add_comm]

@[simp] theorem findFrom_append_none {c : α} {a : List α} (front : List α) (fresh : c ∉ a) :
    findFrom c (front ++ a) front.length = none := by
  simp [findFrom, fresh]

@[simp] theorem beforeFirst_append_cons {c : α} {a : List α} (b : List α) (fresh : c ∉ a) :
    beforeFirst c (a ++ c :: b) = a := by
  simp [beforeFirst, substr, fresh]

@[simp] theorem beforeFirst_eq_self {c : α} {s : List α} (fresh : c ∉ s) :
    beforeFirst c s = s := by
  simp [beforeFirst, substr, find_eq_none.mpr fresh]

theorem beforeFirst_append {c : α} {a : List α} (fresh : c ∉ a) (s : List α) :
    beforeFirst c (a ++ s) = a ++ beforeFirst c s := by
  by_cases hs : c ∈ s
  · obtain ⟨b, rest, rfl, hb⟩ := List.eq_append_cons_of_mem hs
    have hab : c ∉ a ++ b := by simp [fresh, hb]
    rw [beforeFirst_append_cons rest hb, ← List.append_assoc, beforeFirst_append_cons rest hab]
  · have has : c ∉ a ++ s := by simp [fresh, hs]
    rw [beforeFirst_eq_self hs, beforeFirst_eq_self has]

theorem cut_unique {c : α} {a a' b b' : List α} (ha : c ∉ a) (ha' : c ∉ a')
    (h : a ++ c :: b = a' ++ c :: b') : a = a' ∧ b = b' := by
  have hlen : a.length = a'.length := by
    have hf := congrArg (find c) h
    rw [find_append_cons b ha, find_append_cons b' ha'] at hf
    exact Option.some.inj hf
  obtain ⟨hfront, hrest⟩ := List.append_inj h hlen
  exact ⟨hfront, List.tail_eq_of_cons_eq hrest⟩

theorem beforeFirst_prefix_self (c : α) (s : List α) : beforeFirst c s <+: s := by
  rw [beforeFirst, substr, List.drop_zero]
  exact List.take_prefix _ s

theorem not_mem_beforeFirst (c : α) (s : List α) : c ∉ beforeFirst c s := by
  by_cases h : c ∈ s
  · obtain ⟨a, b, rfl, ha⟩ := List.eq_append_cons_of_mem h
    rwa [beforeFirst_append_cons b ha]
  · rwa [beforeFirst_eq_self h]

end Delimiters

section Substrings

variable {α : Type*} [DecidableEq α]

def findSubstring (pattern : List α) : List α → Option Nat
  | [] => if pattern.isEmpty then some 0 else none
  | x :: s =>
    if pattern.isPrefixOf (x :: s) then some 0 else (findSubstring pattern s).map (· + 1)

def replaceAt (s : List α) (pos count : Nat) (replacement : List α) : List α :=
  s.take pos ++ replacement ++ s.drop (pos + count)

theorem findSubstring_isSome {pattern : List α} (s : List α) :
    (findSubstring pattern s).isSome ↔ pattern <:+: s := by
  induction s with
  | nil =>
    cases pattern <;> simp [findSubstring]
  | cons x s ih =>
    unfold findSubstring
    split
    · rename_i h
      simpa using (List.isPrefixOf_iff_prefix.mp h).isInfix
    · rename_i h
      rw [Option.isSome_map, ih, List.infix_cons_iff]
      have hp : ¬ pattern <+: x :: s := fun hp => h (List.isPrefixOf_iff_prefix.mpr hp)
      simp [hp]

theorem findSubstring_spec {pattern : List α} {s : List α} {i : Nat}
    (h : findSubstring pattern s = some i) :
    s = s.take i ++ pattern ++ s.drop (i + pattern.length) := by
  induction s generalizing i with
  | nil =>
    have hp : pattern = [] := by
      by_contra hne
      simp [findSubstring, hne] at h
    simp [hp]
  | cons x s ih =>
    unfold findSubstring at h
    split at h
    · rename_i hp
      obtain ⟨rest, hrest⟩ := List.isPrefixOf_iff_prefix.mp hp
      obtain rfl : i = 0 := (Option.some.inj h).symm
      simp [← hrest]
    · obtain ⟨j, hj, rfl⟩ := Option.map_eq_some_iff.mp h
      have hs := ih hj
      have hadd : j + 1 + pattern.length = j + pattern.length + 1 := by omega
      simp only [List.take_succ_cons, hadd, List.drop_succ_cons, List.cons_append]
      rw [← hs]

end Substrings

end DuckdbOpendalfs.Text.ByteString
