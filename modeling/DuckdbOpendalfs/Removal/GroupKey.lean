/- DuckdbOpendalfs/Removal/GroupKey
   digest: The key of a removal group encodes scheme and configuration, in any iteration order. -/

import DuckdbOpendalfs.Text.LengthFraming
import DuckdbOpendalfs.Address.Uri
import Mathlib.Data.List.Sort

set_option autoImplicit false
set_option relaxedAutoImplicit false

namespace DuckdbOpendalfs.Removal.GroupKey

open Text Text.ByteString Text.LengthFraming
open Address.Uri (StringMap)

section Sorting

def EntryLe (a b : Bytes × Bytes) : Prop := a.1 < b.1 ∨ (a.1 = b.1 ∧ a.2 ≤ b.2)

instance : DecidableRel EntryLe := fun _ _ => inferInstanceAs (Decidable (_ ∨ _))

instance : Std.Total EntryLe where
  total a b := by
    by_cases hab : a.1 < b.1
    · exact Or.inl (Or.inl hab)
    by_cases hba : b.1 < a.1
    · exact Or.inr (Or.inl hba)
    have h : a.1 = b.1 := List.le_antisymm (List.not_lt.mp hba) (List.not_lt.mp hab)
    exact (List.le_total a.2 b.2).imp (fun hle => Or.inr ⟨h, hle⟩) fun hle => Or.inr ⟨h.symm, hle⟩

instance : IsTrans (Bytes × Bytes) EntryLe where
  trans a b c := by
    rintro (hab | ⟨hab, hab'⟩) (hbc | ⟨hbc, hbc'⟩)
    · exact Or.inl (List.lt_trans hab hbc)
    · exact Or.inl (hbc ▸ hab)
    · exact Or.inl (hab ▸ hbc)
    · exact Or.inr ⟨hab.trans hbc, List.le_trans hab' hbc'⟩

instance : Std.Antisymm EntryLe where
  antisymm a b := by
    rintro (hab | ⟨hab, hab'⟩) (hba | ⟨hba, hba'⟩)
    · exact absurd (List.lt_trans hab hba) (List.lt_irrefl a.1)
    · exact absurd (hba ▸ hab) (List.lt_irrefl a.1)
    · exact absurd (hab ▸ hba) (List.lt_irrefl b.1)
    · exact Prod.ext hab (List.le_antisymm hab' hba')

end Sorting

def sortEntries (entries : List (Bytes × Bytes)) : List (Bytes × Bytes) :=
  entries.insertionSort EntryLe

def configEntries (config_p : StringMap) : List (Bytes × Bytes) :=
  config_p.entries.map fun entry => (entry.1, entry.2)

def appendKeyComponent (key_p component_p : Bytes) : Bytes :=
  key_p ++ toDecimal component_p.length ++ [colon] ++ component_p

def createRemoveGroupKey (scheme_p : Bytes) (config_p : StringMap) : Bytes :=
  (sortEntries (configEntries config_p)).foldl
    (fun result entry => appendKeyComponent (appendKeyComponent result entry.1) entry.2)
    (appendKeyComponent [] scheme_p)

theorem appendKeyComponent_eq_frame (key component : Bytes) :
    appendKeyComponent key component = key ++ decimal.frame component := by
  simp [appendKeyComponent, Numerals.frame, decimal]

/-- The components of a key: the scheme, then each key and value of the sorted entries. -/
def keyComponents (scheme : Bytes) (entries : List (Bytes × Bytes)) : List Bytes :=
  scheme :: entries.flatMap fun entry => [entry.1, entry.2]

theorem keyComponents_injective {scheme scheme' : Bytes} {entries entries' : List (Bytes × Bytes)}
    (h : keyComponents scheme entries = keyComponents scheme' entries') :
    scheme = scheme' ∧ entries = entries' := by
  obtain ⟨hscheme, hentries⟩ := List.cons.inj h
  refine ⟨hscheme, ?_⟩
  clear h hscheme
  induction entries generalizing entries' with
  | nil =>
    cases entries' with
    | nil => rfl
    | cons entry' entries' => simp at hentries
  | cons entry entries ih =>
    cases entries' with
    | nil => simp at hentries
    | cons entry' entries' =>
      simp only [List.flatMap_cons, List.cons_append, List.nil_append, List.cons.injEq] at hentries
      obtain ⟨hkey, hvalue, htail⟩ := hentries
      rw [Prod.ext hkey hvalue, ih htail]

theorem createRemoveGroupKey_eq_frames (scheme : Bytes) (config : StringMap) :
    createRemoveGroupKey scheme config =
      decimal.frames (keyComponents scheme (sortEntries (configEntries config))) := by
  have hfold (entries : List (Bytes × Bytes)) (key : Bytes) :
      entries.foldl (fun result entry =>
          appendKeyComponent (appendKeyComponent result entry.1) entry.2) key =
        key ++ decimal.frames (entries.flatMap fun entry => [entry.1, entry.2]) := by
    induction entries generalizing key with
    | nil => simp
    | cons entry entries ih =>
      rw [List.foldl_cons, ih]
      simp [appendKeyComponent_eq_frame]
  rw [createRemoveGroupKey, hfold, appendKeyComponent_eq_frame]
  rfl

theorem sortEntries_eq_iff {entries entries' : List (Bytes × Bytes)} :
    sortEntries entries = sortEntries entries' ↔ entries.Perm entries' := by
  constructor
  · intro h
    have hleft := List.perm_insertionSort EntryLe entries
    have hright := List.perm_insertionSort EntryLe entries'
    change (sortEntries entries).Perm entries at hleft
    change (sortEntries entries').Perm entries' at hright
    exact hleft.symm.trans (h ▸ hright)
  · intro h
    refine List.Perm.eq_of_pairwise' (List.pairwise_insertionSort EntryLe entries)
      (List.pairwise_insertionSort EntryLe entries') ?_
    exact (List.perm_insertionSort EntryLe entries).trans
      (h.trans (List.perm_insertionSort EntryLe entries').symm)

theorem configEntries_perm_iff {config config' : StringMap} :
    (configEntries config).Perm (configEntries config') ↔
      config.toFinmap = config'.toFinmap := by
  have hinjective : Function.Injective fun entry : (_ : Bytes) × Bytes => (entry.1, entry.2) := by
    rintro ⟨k, v⟩ ⟨k', v'⟩ h
    obtain ⟨rfl, rfl⟩ := Prod.mk.inj h
    rfl
  rw [AList.toFinmap_eq]
  exact List.map_perm_map_iff hinjective

theorem groupKey_eq_iff {scheme scheme' : Bytes} {config config' : StringMap} :
    createRemoveGroupKey scheme config = createRemoveGroupKey scheme' config' ↔
      scheme = scheme' ∧ config.toFinmap = config'.toFinmap := by
  rw [createRemoveGroupKey_eq_frames, createRemoveGroupKey_eq_frames,
    decimal.frames_injective.eq_iff, ← configEntries_perm_iff, ← sortEntries_eq_iff]
  constructor
  · exact keyComponents_injective
  · rintro ⟨rfl, h⟩
    rw [h]

/-- The key is a canonical encoding: in whatever order the two hash maps are walked, two keys are
equal exactly when the schemes are and every configuration key has the same value. -/
theorem createRemoveGroupKey_canonical (scheme scheme' : Bytes) (config config' : StringMap) :
    createRemoveGroupKey scheme config = createRemoveGroupKey scheme' config' ↔
      scheme = scheme' ∧ ∀ key, config.lookup key = config'.lookup key := by
  rw [groupKey_eq_iff]
  refine and_congr_right fun _ => ⟨fun hmap key => ?_, fun hlookup => ?_⟩
  · rw [← Finmap.lookup_toFinmap, ← Finmap.lookup_toFinmap, hmap]
  · refine Finmap.ext_lookup fun key => ?_
    rw [Finmap.lookup_toFinmap, Finmap.lookup_toFinmap]
    exact hlookup key

end DuckdbOpendalfs.Removal.GroupKey
