/- DuckdbOpendalfs/Address/ParseSpec
   digest: What the segment cutter, the URI parser and the prefix search compute, by decomposition. -/

import DuckdbOpendalfs.Address.Uri

set_option autoImplicit false
set_option relaxedAutoImplicit false

namespace DuckdbOpendalfs.Address.ParseSpec

open Text.ByteString
open Prefixes Uri
open StringUtil (urlDecode)

@[simp] theorem takeSegment_append_cons {a : Bytes} (b : Bytes) (fresh : slash ∉ a) :
    takeSegment (a ++ slash :: b) = (a, b) := by
  simp [takeSegment, fresh, substr]

@[simp] theorem takeSegment_of_not_mem {a : Bytes} (fresh : slash ∉ a) :
    takeSegment a = (a, []) := by
  simp [takeSegment, find_eq_none.mpr fresh]

theorem slash_not_mem_takeSegment (p : Bytes) : slash ∉ (takeSegment p).1 := by
  by_cases h : slash ∈ p
  · obtain ⟨a, b, rfl, ha⟩ := List.eq_append_cons_of_mem h
    rwa [takeSegment_append_cons b ha]
  · rwa [takeSegment_of_not_mem h]

theorem takeSegment_join {p : Bytes} (rest : (takeSegment p).2 ≠ []) :
    p = (takeSegment p).1 ++ slash :: (takeSegment p).2 := by
  by_cases h : slash ∈ p
  · obtain ⟨a, b, rfl, ha⟩ := List.eq_append_cons_of_mem h
    rw [takeSegment_append_cons b ha]
  · rw [takeSegment_of_not_mem h] at rest
    exact absurd rfl rest

section Parse

private theorem drop_front (front a rest : Bytes) :
    (front ++ (a ++ slash :: rest)).drop (front.length + a.length + 1) = rest := by
  have hsplit : front ++ (a ++ slash :: rest) = (front ++ a ++ [slash]) ++ rest := by simp
  rw [hsplit]
  exact List.drop_left' (by simp [Nat.add_assoc])

private theorem getLast_tail (front a : Bytes) (c : UInt8) (rest : Bytes) :
    (front ++ (a ++ c :: rest)).getLast? = (c :: rest).getLast? := by
  rw [← List.append_assoc, List.getLast?_append_of_ne_nil _ (by simp)]

variable [StringUtil]

theorem parse_bare (front : Bytes) {a : Bytes} (fresh : slash ∉ a) :
    OpenDALUri.parse (front ++ a) front.length =
      { authority := a, root := urlDecode [], query := [],
        trailingSlash := (front ++ a).getLast? == some slash } := by
  have hquery : find question ([] : Bytes) = none := rfl
  simp [OpenDALUri.parse, findFrom_append_none front fresh, substr, hquery]

theorem parse_slash (front : Bytes) {a rest : Bytes} (fresh : slash ∉ a)
    (noQuery : question ∉ rest) :
    OpenDALUri.parse (front ++ (a ++ slash :: rest)) front.length =
      { authority := a, root := urlDecode rest, query := [],
        trailingSlash := (slash :: rest).getLast? == some slash } := by
  have hquery : find question rest = none := find_eq_none.mpr noQuery
  simp only [OpenDALUri.parse, findFrom_append_cons front rest fresh, drop_front, hquery,
    getLast_tail, substr]
  simp

theorem parse_query (front : Bytes) {a rest : Bytes} (q : Bytes) (fresh : slash ∉ a)
    (noQuery : question ∉ rest) :
    OpenDALUri.parse (front ++ (a ++ slash :: (rest ++ question :: q))) front.length =
      { authority := a, root := urlDecode rest, query := q,
        trailingSlash := (question :: q).getLast? == some slash } := by
  have hquery : find question (rest ++ question :: q) = some rest.length :=
    find_append_cons q noQuery
  have hlast : (slash :: (rest ++ question :: q)).getLast? = (question :: q).getLast? := by
    rw [← List.cons_append, List.getLast?_append_of_ne_nil _ (by simp)]
  simp only [OpenDALUri.parse, findFrom_append_cons front _ fresh, drop_front, hquery,
    getLast_tail, substr, hlast]
  simp

end Parse

section Search

theorem substr_eq_iff (uri text : Bytes) :
    (substr uri 0 text.length == text) = true ↔ text <+: uri := by
  rw [beq_iff_eq, substr, List.drop_zero, List.prefix_iff_eq_take]
  exact eq_comm

private theorem found_entry {uri : Bytes} {entry : OpenDALPrefix}
    (found : openDALPrefixes.find? (fun e => substr uri 0 e.text.length == e.text) = some entry) :
    entry ∈ openDALPrefixes ∧ entry.text <+: uri := by
  have hmatch := List.find?_some found
  exact ⟨List.mem_of_find?_eq_some found, (substr_eq_iff _ _).mp hmatch⟩

variable [StringUtil]

theorem tryParse_of_mem {entry : OpenDALPrefix} (member : entry ∈ openDALPrefixes) (tail : Bytes)
    (r : OpenDALPath) :
    OpenDALPath.tryParse (entry.text ++ tail) r =
      (true, OpenDALPath.assign entry (entry.text ++ tail) r) := by
  unfold OpenDALPath.tryParse
  split
  · rename_i hnone
    have hno := List.find?_eq_none.mp hnone entry member
    exact absurd ((substr_eq_iff _ _).mpr (List.prefix_append _ _)) hno
  · rename_i other hsome
    obtain ⟨hother, hprefix⟩ := found_entry hsome
    rw [entry_unique hother member hprefix (List.prefix_append _ _)]

theorem tryParse_true {uri : Bytes} {r p : OpenDALPath}
    (h : OpenDALPath.tryParse uri r = (true, p)) :
    ∃ entry ∈ openDALPrefixes, ∃ tail, uri = entry.text ++ tail ∧
      p = OpenDALPath.assign entry uri r := by
  unfold OpenDALPath.tryParse at h
  split at h
  · simp at h
  · rename_i entry hsome
    obtain ⟨member, tail, rfl⟩ := found_entry hsome
    exact ⟨entry, member, tail, rfl, (Prod.mk.inj h).2.symm⟩

theorem tryParse_again {uri : Bytes} {r p : OpenDALPath}
    (h : OpenDALPath.tryParse uri r = (true, p)) (r' : OpenDALPath) :
    OpenDALPath.tryParse uri r' = (true, p) := by
  obtain ⟨entry, member, tail, rfl, rfl⟩ := tryParse_true h
  exact tryParse_of_mem member tail r'

end Search

end DuckdbOpendalfs.Address.ParseSpec
