/- DuckdbOpendalfs/Address/PathOnly
   digest: Which encoded object paths a path-only URI gives back: the first segment is not decoded. -/

import DuckdbOpendalfs.Address.Injectivity

set_option autoImplicit false
set_option relaxedAutoImplicit false

namespace DuckdbOpendalfs.Address.PathOnly

open Text Text.ByteString Text.PercentEncoding
open Prefixes Uri ParseSpec Layouts Injectivity
open StringUtil (urlDecode)

def Escaped (b : UInt8) : Prop := b = percent ∨ b = question

instance : DecidablePred Escaped := fun _ => inferInstanceAs (Decidable (_ ∨ _))

def Kept (b : UInt8) : Prop := b = slash

instance : DecidablePred Kept := fun _ => inferInstanceAs (Decidable (_ = _))

theorem escaped_not_kept : ∀ b, Escaped b → ¬ Kept b := by
  rintro b (rfl | rfl) <;> decide

/-- An encoding of an object path. Percent sign and question mark are escaped, slashes are not, and
every other byte may be. -/
abbrev PathEncodes (path encoded : Bytes) : Prop :=
  EncodesKeeping Escaped Kept path encoded

theorem layoutOf_pathOnly_iff : ∀ e ∈ openDALPrefixes,
    layoutOf e.scheme = .pathOnly ↔ e.scheme ∈ pathOnlySchemes := by
  decide +kernel

section Encodings

variable {path encoded : Bytes}

theorem PathEncodes.question_not_mem (h : PathEncodes path encoded) : question ∉ encoded :=
  h.encodes.not_mem (Or.inr rfl) (by decide)

theorem PathEncodes.slash_not_mem (h : PathEncodes path encoded) (fresh : slash ∉ path) :
    slash ∉ encoded :=
  fun hmem => fresh (h.mem_of_mem (by decide) hmem)

theorem PathEncodes.eq_nil_iff (h : PathEncodes path encoded) : path = [] ↔ encoded = [] := by
  constructor
  · rintro rfl
    cases h
    rfl
  · rintro rfl
    cases h
    rfl

theorem PathEncodes.cut {a b : Bytes} (h : PathEncodes (a ++ slash :: b) encoded)
    (fresh : slash ∉ a) : ∃ a' b', encoded = a' ++ slash :: b' ∧ PathEncodes a a' ∧
      PathEncodes b b' ∧ slash ∉ a' := by
  obtain ⟨a', back, rfl, hfront, hback⟩ := h.of_append
  have hkept : Kept slash := rfl
  obtain ⟨b', rfl, hrest⟩ := hback.of_cons hkept
  exact ⟨a', b', rfl, hfront, hrest, PathEncodes.slash_not_mem hfront fresh⟩

theorem PathEncodes.first (h : PathEncodes path encoded) :
    PathEncodes (beforeFirst slash path) (beforeFirst slash encoded) := by
  by_cases hslash : slash ∈ path
  · obtain ⟨a, b, rfl, ha⟩ := List.eq_append_cons_of_mem hslash
    obtain ⟨a', b', rfl, hfirst, -, ha'⟩ := h.cut ha
    rwa [beforeFirst_append_cons b ha, beforeFirst_append_cons b' ha']
  · rwa [beforeFirst_eq_self hslash, beforeFirst_eq_self (h.slash_not_mem hslash)]

end Encodings

section RoundTrip

variable [StringUtil]

theorem tryParse_encoded (undoes : ∀ s e : Bytes, PathEncodes s e → urlDecode e = s)
    {entry : OpenDALPrefix} (member : entry ∈ openDALPrefixes)
    (scheme : entry.scheme ∈ pathOnlySchemes) {path encoded : Bytes}
    (encodes : PathEncodes path encoded) (nonempty : path ≠ []) (notRoot : path ≠ [slash])
    (r : OpenDALPath) :
    ∃ result, OpenDALPath.tryParse (entry.text ++ encoded) r = (true, result) ∧
      result.path = beforeFirst slash encoded ++ path.drop (beforeFirst slash path).length := by
  have hlayout := (layoutOf_pathOnly_iff entry member).mpr scheme
  have hempty : urlDecode [] = [] := undoes [] [] .nil
  refine ⟨_, tryParse_of_mem member encoded r, ?_⟩
  rw [assign_eq_layout, hlayout]
  change pathOnlyPath (OpenDALUri.parse (entry.text ++ encoded) entry.text.length) = _
  by_cases hslash : slash ∈ path
  · obtain ⟨a, b, rfl, ha⟩ := List.eq_append_cons_of_mem hslash
    obtain ⟨a', b', rfl, hfirst, hrest, ha'⟩ := encodes.cut ha
    have hquestion : question ∉ b' := PathEncodes.question_not_mem hrest
    have hdecoded : urlDecode b' = b := undoes b b' hrest
    have hclosed : ((slash :: b').getLast? == some slash) = true → b ≠ [] →
        b.getLast? = some slash := by
      intro htrailing hb
      have hb' : b' ≠ [] := fun hnil => hb (PathEncodes.eq_nil_iff hrest |>.mpr hnil)
      rw [beq_iff_eq, List.getLast?_cons_of_ne_nil hb'] at htrailing
      exact hrest.getLast?_of_getLast? (by decide) htrailing
    rw [parse_slash entry.text ha' hquestion, hdecoded, pathOnlyPath_eq ha' hclosed,
      beforeFirst_append_cons b' ha', beforeFirst_append_cons b ha, List.drop_left]
    by_cases hb : b = []
    · subst hb
      obtain rfl : b' = [] := (PathEncodes.eq_nil_iff hrest).mp rfl
      have hfirst' : a' ≠ [] := by
        intro hnil
        rw [(PathEncodes.eq_nil_iff hfirst).mpr hnil] at notRoot
        exact notRoot rfl
      simp [hfirst']
    · rw [if_pos hb]
  · have hslash' : slash ∉ encoded := encodes.slash_not_mem hslash
    have hencoded : encoded ≠ [] := fun hnil => nonempty (encodes.eq_nil_iff.mpr hnil)
    have hlast : ((entry.text ++ encoded).getLast? == some slash) = false := by
      rw [List.getLast?_append_of_ne_nil _ hencoded, beq_eq_false_iff_ne]
      exact fun h => hslash' (List.mem_of_getLast? h)
    rw [parse_bare entry.text hslash', hempty, hlast, beforeFirst_eq_self hslash',
      beforeFirst_eq_self hslash, List.drop_length, List.append_nil]
    rfl

/-- An encoded object path comes back exactly when nothing in its first segment is escaped. -/
theorem pathOnly_round_trip_iff (undoes : ∀ s e : Bytes, PathEncodes s e → urlDecode e = s)
    {entry : OpenDALPrefix} (member : entry ∈ openDALPrefixes)
    (scheme : entry.scheme ∈ pathOnlySchemes) {path encoded : Bytes}
    (encodes : PathEncodes path encoded) (nonempty : path ≠ []) (notRoot : path ≠ [slash])
    (r : OpenDALPath) :
    (∃ result, OpenDALPath.tryParse (entry.text ++ encoded) r = (true, result) ∧
        result.path = path) ↔
      percent ∉ beforeFirst slash encoded := by
  obtain ⟨parsed, hparse, hpath⟩ :=
    tryParse_encoded undoes member scheme encodes nonempty notRoot r
  have hresult : (∃ result, OpenDALPath.tryParse (entry.text ++ encoded) r = (true, result) ∧
      result.path = path) ↔ parsed.path = path := by
    constructor
    · rintro ⟨result, hresult, hsame⟩
      rw [hparse] at hresult
      obtain ⟨-, rfl⟩ := Prod.mk.inj hresult
      exact hsame
    · exact fun hsame => ⟨parsed, hparse, hsame⟩
  have hsplit : path = beforeFirst slash path ++ path.drop (beforeFirst slash path).length :=
    (List.prefix_iff_eq_append.mp (beforeFirst_prefix_self slash path)).symm
  rw [hresult, hpath, ← encodes.first.eq_iff (Or.inl rfl)]
  conv_lhs => rhs; rw [hsplit]
  rw [List.append_left_inj]

end RoundTrip

theorem pathOnly_round_trip_file :
    letI : StringUtil := percentDecoding
    ∃ result, OpenDALPath.tryParse
        (bytes "memory://" ++ encode Escaped (bytes "dir/100%?//")) {} = (true, result) ∧
      result.path = bytes "dir/100%?//" := by
  let _ : StringUtil := percentDecoding
  have hundoes (s e : Bytes) (h : PathEncodes s e) : urlDecode e = s :=
    decode_encodes h.encodes (Or.inl rfl)
  have hmember : (⟨bytes "memory://", bytes "memory", .none⟩ : OpenDALPrefix) ∈ openDALPrefixes := by
    decide
  have hencodes := encodesKeeping_encode escaped_not_kept (bytes "dir/100%?//")
  exact (pathOnly_round_trip_iff hundoes hmember (by decide) hencodes (by decide) (by decide) {}).mpr
    (by decide +kernel)

/-- The percent sign of a file in the root stays escaped. -/
theorem pathOnly_keeps_escape :
    letI : StringUtil := percentDecoding
    PathEncodes (bytes "a%b") (bytes "a%25b") ∧
      (OpenDALPath.tryParse (bytes "memory://a%25b") {}).1 = true ∧
      (OpenDALPath.tryParse (bytes "memory://a%25b") {}).2.path = bytes "a%25b" ∧
      bytes "a%25b" ≠ bytes "a%b" :=
  ⟨encodesKeeping_encode escaped_not_kept (bytes "a%b"), by decide +kernel⟩

end DuckdbOpendalfs.Address.PathOnly
