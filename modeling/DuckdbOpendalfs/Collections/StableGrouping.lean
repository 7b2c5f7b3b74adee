/- DuckdbOpendalfs/Collections/StableGrouping
   digest: Stable partitions by key, and the one-pass loop over an index that computes them. -/

import Mathlib.Data.List.Induction
import Mathlib.Data.List.Nodup

set_option autoImplicit false
set_option relaxedAutoImplicit false

namespace DuckdbOpendalfs.Collections.StableGrouping

variable {κ β : Type*} [DecidableEq κ]

def members (items : List (κ × β)) (k : κ) : List β :=
  (items.filter fun item => item.1 = k).map Prod.snd

def firstOccurrences (ks : List κ) : List κ := ks.eraseDups

/-- One group for each key, in order of first occurrence. -/
def stablePartition (items : List (κ × β)) : List (κ × List β) :=
  (firstOccurrences (items.map Prod.fst)).map fun k => (k, members items k)

def position (groups : List (κ × List β)) (k : κ) : Option Nat := (groups.map Prod.fst).idxOf? k

/-- File one item: behind the members of its group, or in a new last group. -/
def place (groups : List (κ × List β)) (item : κ × β) : List (κ × List β) :=
  match position groups item.1 with
  | none => groups ++ [(item.1, [item.2])]
  | some i => groups.modify i fun group => (group.1, group.2 ++ [item.2])

theorem nodup_firstOccurrences (ks : List κ) : (firstOccurrences ks).Nodup := by
  unfold firstOccurrences
  induction hlen : ks.length using Nat.strongRecOn generalizing ks with
  | ind n ih =>
    cases ks with
    | nil => simp
    | cons k ks =>
      rw [List.eraseDups_cons, List.nodup_cons]
      refine ⟨by simp, ih _ ?_ _ rfl⟩
      have hle := List.length_filter_le (fun b => !b == k) ks
      simp only [List.length_cons] at hlen
      omega

theorem mem_firstOccurrences {ks : List κ} {k : κ} : k ∈ firstOccurrences ks ↔ k ∈ ks :=
  List.mem_eraseDups

theorem firstOccurrences_append_singleton (ks : List κ) (k : κ) :
    firstOccurrences (ks ++ [k]) =
      if k ∈ ks then firstOccurrences ks else firstOccurrences ks ++ [k] := by
  unfold firstOccurrences
  rw [List.eraseDups_append]
  by_cases h : k ∈ ks <;> simp [h, List.removeAll, List.eraseDups_cons]

theorem members_append_singleton (items : List (κ × β)) (item : κ × β) (k : κ) :
    members (items ++ [item]) k =
      if item.1 = k then members items k ++ [item.2] else members items k := by
  by_cases h : item.1 = k <;> simp [members, List.filter_append, h]

@[simp] theorem stablePartition_keys (items : List (κ × β)) :
    (stablePartition items).map Prod.fst = firstOccurrences (items.map Prod.fst) := by
  simp [stablePartition, Function.comp_def]

theorem stablePartition_nodup (items : List (κ × β)) :
    ((stablePartition items).map Prod.fst).Nodup := by
  rw [stablePartition_keys]
  exact nodup_firstOccurrences _

theorem members_eq_of_mem {items : List (κ × β)} {group : κ × List β}
    (h : group ∈ stablePartition items) : group.2 = members items group.1 := by
  obtain ⟨k, _, rfl⟩ := List.mem_map.mp h
  rfl

theorem members_ne_nil {items : List (κ × β)} {group : κ × List β}
    (h : group ∈ stablePartition items) : group.2 ≠ [] := by
  have hkey : group.1 ∈ items.map Prod.fst := by
    rw [← mem_firstOccurrences, ← stablePartition_keys]
    exact List.mem_map_of_mem h
  obtain ⟨item, hitem, hk⟩ := List.mem_map.mp hkey
  rw [members_eq_of_mem h]
  have hmem : item.2 ∈ members items group.1 :=
    List.mem_map.mpr ⟨item, by simp [hitem, hk], rfl⟩
  exact List.ne_nil_of_mem hmem

theorem mem_stablePartition {items : List (κ × β)} {item : κ × β} (h : item ∈ items) :
    ∃ group ∈ stablePartition items, group.1 = item.1 ∧ item.2 ∈ group.2 := by
  refine ⟨(item.1, members items item.1), ?_, rfl, ?_⟩
  · exact List.mem_map.mpr ⟨item.1, mem_firstOccurrences.mpr (List.mem_map_of_mem h), rfl⟩
  · exact List.mem_map.mpr ⟨item, by simp [h], rfl⟩

theorem mem_flatten_stablePartition {items : List (κ × β)} {item : κ × β} :
    item ∈ (stablePartition items).flatMap (fun group => group.2.map fun b => (group.1, b)) ↔
      item ∈ items := by
  rw [List.mem_flatMap]
  constructor
  · rintro ⟨group, hgroup, hitem⟩
    obtain ⟨b, hb, rfl⟩ := List.mem_map.mp hitem
    rw [members_eq_of_mem hgroup] at hb
    obtain ⟨other, hother, rfl⟩ := List.mem_map.mp hb
    obtain ⟨hmem, hkey⟩ := List.mem_filter.mp hother
    rwa [← of_decide_eq_true hkey]
  · intro hitem
    obtain ⟨group, hgroup, hkey, hb⟩ := mem_stablePartition hitem
    exact ⟨group, hgroup, List.mem_map.mpr ⟨item.2, hb, Prod.ext hkey rfl⟩⟩

private theorem modify_map_nodup {γ : Type*} (ks : List κ) (nodup : ks.Nodup) (F F' : κ → γ)
    (f : γ → γ) {k : κ} {i : Nat} (hi : ks.idxOf? k = some i) (at_key : f (F k) = F' k)
    (off_key : ∀ k', k' ≠ k → F k' = F' k') : (ks.map F).modify i f = ks.map F' := by
  obtain ⟨hlt, heq, _⟩ := List.idxOf?_eq_some_iff.mp hi
  have hget : ks[i]? = some k := by
    rw [List.getElem?_eq_getElem hlt]
    simpa using heq
  apply List.ext_getElem?
  intro j
  rw [List.getElem?_modify, List.getElem?_map, List.getElem?_map]
  cases hj : ks[j]? with
  | none => simp
  | some k' =>
    by_cases hij : i = j
    · subst hij
      obtain rfl : k = k' := Option.some.inj (hget.symm.trans hj)
      simp [at_key]
    · have hne : k' ≠ k := by
        rintro rfl
        exact hij ((List.getElem?_inj hlt nodup).mp (hget.trans hj.symm))
      simp [hij, off_key k' hne]

theorem place_stablePartition (items : List (κ × β)) (item : κ × β) :
    place (stablePartition items) item = stablePartition (items ++ [item]) := by
  have hkeys : (items ++ [item]).map Prod.fst = items.map Prod.fst ++ [item.1] := by simp
  unfold place position
  rw [stablePartition_keys]
  conv_rhs => rw [stablePartition, hkeys, firstOccurrences_append_singleton]
  split
  · rename_i hnone
    have hfresh : item.1 ∉ items.map Prod.fst := by
      rw [List.idxOf?_eq_none_iff, mem_firstOccurrences] at hnone
      exact hnone
    have hempty : members items item.1 = [] := by
      simp only [members, List.map_eq_nil_iff, List.filter_eq_nil_iff, decide_eq_true_eq]
      exact fun other hother heq => hfresh (heq ▸ List.mem_map_of_mem hother)
    rw [if_neg hfresh, List.map_append, List.map_singleton, members_append_singleton, if_pos rfl,
      hempty, List.nil_append, stablePartition]
    congr 1
    apply List.map_congr_left
    intro k hk
    have hne : item.1 ≠ k := fun h => hfresh (h ▸ mem_firstOccurrences.mp hk)
    rw [members_append_singleton, if_neg hne]
  · rename_i i hsome
    have hmem : item.1 ∈ items.map Prod.fst := by
      by_contra hfresh
      have hnone := List.idxOf?_eq_none_iff.mpr (fun h => hfresh (mem_firstOccurrences.mp h))
      exact absurd (hsome.symm.trans hnone) (by simp)
    rw [if_pos hmem]
    apply modify_map_nodup _ (nodup_firstOccurrences _) _ _ _ hsome
    · simp [members_append_singleton]
    · intro k hk
      rw [members_append_singleton, if_neg (Ne.symm hk)]

private theorem idxOf?_append_singleton (ks : List κ) (a k : κ) :
    (ks ++ [a]).idxOf? k = (ks.idxOf? k).or (if k = a then some ks.length else none) := by
  simp only [List.idxOf?, List.findIdx?_append]
  by_cases h : k = a
  · simp [h]
  · simp [h, Ne.symm h]

theorem position_place (groups : List (κ × List β)) (item : κ × β) (k : κ) :
    position (place groups item) k =
      if position groups item.1 = none ∧ k = item.1 then some groups.length
      else position groups k := by
  unfold place position
  split
  · rename_i hnone
    simp only [hnone, List.map_append, List.map_singleton, true_and]
    rw [idxOf?_append_singleton]
    by_cases hk : k = item.1
    · subst hk
      simp [hnone]
    · simp [hk]
  · rename_i i hsome
    have hkeys : (groups.modify i fun group => (group.1, group.2 ++ [item.2])).map Prod.fst =
        groups.map Prod.fst := by
      apply List.ext_getElem?
      intro j
      simp only [List.getElem?_map, List.getElem?_modify]
      cases groups[j]? <;> simp [apply_ite]
    rw [hkeys, if_neg (by simp [hsome])]

end DuckdbOpendalfs.Collections.StableGrouping
