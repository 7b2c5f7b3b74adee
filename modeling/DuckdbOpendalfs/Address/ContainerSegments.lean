/- DuckdbOpendalfs/Address/ContainerSegments
   digest: Which container components survive building a percent-encoded URI and parsing it. -/

import DuckdbOpendalfs.Address.Layouts

set_option autoImplicit false
set_option relaxedAutoImplicit false

namespace DuckdbOpendalfs.Address.ContainerSegments

open Text Text.ByteString Text.PercentEncoding
open Prefixes Uri ParseSpec Layouts
open StringUtil (urlDecode)

def containerKeys : List (Bytes × List Bytes) :=
  [(bytes "azdls", [bytes "filesystem"]), (bytes "azfile", [bytes "share_name"]),
   (bytes "github", [bytes "repo"]), (bytes "koofr", [bytes "email"]),
   (bytes "lakefs", [bytes "repository", bytes "branch"]), (bytes "seafile", [bytes "repo_name"]),
   (bytes "swift", [bytes "container"])]

def PathEscapes (b : UInt8) : Prop := b = percent ∨ b = question ∨ b = atSign

def ComponentEscapes (b : UInt8) : Prop := PathEscapes b ∨ b = slash

instance : DecidablePred PathEscapes := fun _ => inferInstanceAs (Decidable (_ ∨ _ ∨ _))

instance : DecidablePred ComponentEscapes := fun _ => inferInstanceAs (Decidable (_ ∨ _))

/-- The URI of an object in a container, from texts that are already encoded. -/
def containerUri (text authority : Bytes) (components : List Bytes) (path : Bytes) : Bytes :=
  text ++ (authority ++ slash :: joinSegments components path)

def revisionSuffix : Option Bytes → Bytes
  | none => []
  | some revision => atSign :: revision

section Schemes

def segmentKeys : Layout → Option (List Bytes)
  | .segments _ _ _ keys => some keys
  | _ => none

private theorem segmentKeys_layoutOf : ∀ entry ∈ openDALPrefixes, ∀ row ∈ containerKeys,
    entry.scheme = row.1 → segmentKeys (layoutOf entry.scheme) = some row.2 := by
  decide +kernel

theorem containerKeys_layout {entry : OpenDALPrefix} (member : entry ∈ openDALPrefixes)
    {keys : List Bytes} (row : (entry.scheme, keys) ∈ containerKeys) :
    ∃ key text account, layoutOf entry.scheme = .segments key text account keys := by
  have hkeys := segmentKeys_layoutOf entry member _ row rfl
  cases hl : layoutOf entry.scheme with
  | segments key text account keys' =>
    rw [hl] at hkeys
    obtain rfl : keys' = keys := Option.some.inj hkeys
    exact ⟨key, text, account, rfl⟩
  | http | single | skipSegment | repository | rootOnly | pathOnly =>
    rw [hl] at hkeys
    exact absurd hkeys (by simp [segmentKeys])

theorem repository_layout : ∀ entry ∈ openDALPrefixes,
    entry.scheme = bytes "hf" ∨ entry.scheme = bytes "huggingface" →
      layoutOf entry.scheme = .repository := by
  decide +kernel

end Schemes

section Repositories

private theorem suffix_encodes {P Q : UInt8 → Prop} (plain : ¬ Q atSign)
    (weaker : ∀ b, Q b → P b) {repo encodedRepo : Bytes} (first : Encodes P repo encodedRepo)
    {revision encodedRevision : Option Bytes}
    (second : Option.Rel (Encodes P) revision encodedRevision) :
    Encodes Q (repo ++ revisionSuffix revision) (encodedRepo ++ revisionSuffix encodedRevision) := by
  cases second with
  | none => exact (first.mono weaker).append .nil
  | some h => exact (first.mono weaker).append (.keep plain (h.mono weaker))

private theorem slash_mem_suffix {repo : Bytes} {revision : Option Bytes} :
    slash ∉ repo ++ revisionSuffix revision ↔
      slash ∉ repo ∧ ∀ text ∈ revision, slash ∉ text := by
  have hne : slash ≠ atSign := by decide
  cases revision <;> simp [revisionSuffix, hne]

private theorem cutRevision_suffix {repo : Bytes} (fresh : atSign ∉ repo)
    (revision : Option Bytes) :
    cutRevision (repo ++ revisionSuffix revision) = (repo, revision) := by
  cases revision with
  | none => rw [revisionSuffix, List.append_nil, cutRevision_none fresh]
  | some text => exact cutRevision_some text fresh

private theorem plain_of_rest {owner segment path : Bytes} (nonempty : path ≠ [])
    (rest : (takeSegments 2 (joinSegments [owner, segment] path)).2 = path) :
    slash ∉ owner ∧ slash ∉ segment := by
  have hnonempty : (takeSegments 2 (joinSegments [owner, segment] path)).2 ≠ [] := by rwa [rest]
  have hjoin := join_takeSegments 2 (joinSegments [owner, segment] path) hnonempty
  rw [rest, takeSegments_two] at hjoin
  have hfirst := slash_not_mem_takeSegment (joinSegments [owner, segment] path)
  have hsecond := slash_not_mem_takeSegment (takeSegment (joinSegments [owner, segment] path)).2
  have hcount := congrArg (List.count slash) hjoin
  rw [← List.count_eq_zero] at hfirst hsecond ⊢
  rw [← List.count_eq_zero]
  simp only [joinSegments_cons, joinSegments_nil, List.count_append, List.count_cons_self]
    at hfirst hsecond hcount ⊢
  omega

end Repositories

section Decoding

theorem joinSegments_encodes {P Q : UInt8 → Prop} (plain : ¬ Q slash) (weaker : ∀ b, Q b → P b)
    {components encoded : List Bytes} (each : List.Forall₂ (Encodes P) components encoded)
    {path encodedPath : Bytes} (last : Encodes Q path encodedPath) :
    Encodes Q (joinSegments components path) (joinSegments encoded encodedPath) := by
  induction each with
  | nil => exact last
  | cons first _ ih => exact (first.mono weaker).append (.keep plain ih)

theorem question_not_mem_joinSegments {P : UInt8 → Prop} (escaped : P question)
    {components encoded : List Bytes} (each : List.Forall₂ (Encodes P) components encoded)
    {encodedPath : Bytes} (last : question ∉ encodedPath) :
    question ∉ joinSegments encoded encodedPath := by
  induction each with
  | nil => exact last
  | cons first _ ih =>
    have hfirst := first.not_mem escaped (by decide)
    simp only [joinSegments_cons, List.mem_append, List.mem_cons, not_or]
    exact ⟨hfirst, by decide, ih⟩

variable [StringUtil]

theorem tryParse_containerUri (decodes : ∀ s e, Encodes (· = percent) s e → urlDecode e = s)
    {entry : OpenDALPrefix} (member : entry ∈ openDALPrefixes) {authority : Bytes}
    (fresh : slash ∉ authority) {joined root : Bytes} (encodes : Encodes (· = percent) root joined)
    (noQuery : question ∉ joined) (r : OpenDALPath) :
    ∃ uri p, OpenDALPath.tryParse (entry.text ++ (authority ++ slash :: joined)) r = (true, p) ∧
      uri.authority = authority ∧ uri.root = root ∧
      p.uriConfig = ((layoutOf entry.scheme).mapping uri entry.text ∅).1 ∧
      p.path = (layoutOf entry.scheme).path uri := by
  rw [tryParse_of_mem member, assign_eq_layout, parse_slash entry.text fresh noQuery]
  exact ⟨_, _, rfl, rfl, decodes _ _ encodes, rfl, rfl⟩

end Decoding

section RoundTrip

variable [StringUtil]

/-- Parsing gives back the components under their keys, and the object path. -/
def KeepsSegments (uri : Bytes) (keys components : List Bytes) (path : Bytes) : Prop :=
  ∀ r, ∃ p, OpenDALPath.tryParse uri r = (true, p) ∧
    (∀ item ∈ keys.zip components, p.uriConfig.lookup item.1 = some item.2) ∧ p.path = path

def KeepsRepository (uri owner repo : Bytes) (revision : Option Bytes) (path : Bytes) : Prop :=
  ∀ r, ∃ p, OpenDALPath.tryParse uri r = (true, p) ∧
    p.uriConfig.lookup (bytes "repo_id") = some (owner ++ bytes "/" ++ repo) ∧
    p.uriConfig.lookup (bytes "revision") = revision ∧ p.path = path

private theorem segments_round_trip
    (decodes : ∀ s e, Encodes (· = percent) s e → urlDecode e = s)
    {entry : OpenDALPrefix} (member : entry ∈ openDALPrefixes) {keys : List Bytes}
    (row : (entry.scheme, keys) ∈ containerKeys) {authority : Bytes} (fresh : slash ∉ authority)
    {components encoded : List Bytes} (length : components.length = keys.length)
    (each : List.Forall₂ (Encodes ComponentEscapes) components encoded)
    {path encodedPath : Bytes} (last : Encodes PathEscapes path encodedPath) :
    KeepsSegments (containerUri entry.text authority encoded encodedPath) keys components path ↔
      ∀ component ∈ components, slash ∉ component := by
  have hjoined := joinSegments_encodes (Q := (· = percent)) (by decide)
    (fun b hb => Or.inl (Or.inl hb)) each (last.mono fun b hb => Or.inl hb)
  have hquery := question_not_mem_joinSegments (Or.inl (Or.inr (Or.inl rfl))) each
    (last.not_mem (Or.inr (Or.inl rfl)) (by decide))
  obtain ⟨key, text, account, hl⟩ := containerKeys_layout member row
  have hdistinct := layoutOf_distinct entry member
  rw [hl] at hdistinct
  constructor
  · intro kept
    obtain ⟨p, haccepted, hlookups, _⟩ := kept {}
    obtain ⟨uri, p', haccepted', _, hroot, hconfig, _⟩ :=
      tryParse_containerUri decodes member fresh hjoined hquery {}
    obtain rfl : p = p' := (Prod.mk.inj (haccepted.symm.trans haccepted')).2
    have hsegments := lookup_segments hdistinct uri entry.text
    rw [← hl, ← hconfig] at hsegments
    rw [zip_values_unique (p.uriConfig.lookup ·) length (takeSegments_length _ _) hlookups
      hsegments]
    exact slash_not_mem_takeSegments _ _
  · intro plain r
    obtain ⟨uri, p, haccepted, _, hroot, hconfig, hpath⟩ :=
      tryParse_containerUri decodes member fresh hjoined hquery r
    have hcut := takeSegments_join path plain
    rw [length, ← hroot] at hcut
    refine ⟨p, haccepted, ?_, ?_⟩
    · have hsegments := lookup_segments hdistinct uri entry.text
      rwa [hcut, ← hl, ← hconfig] at hsegments
    · rw [hpath, hl, Layout.path, hcut]

private theorem repository_round_trip
    (decodes : ∀ s e, Encodes (· = percent) s e → urlDecode e = s)
    {entry : OpenDALPrefix} (member : entry ∈ openDALPrefixes)
    (scheme : entry.scheme = bytes "hf" ∨ entry.scheme = bytes "huggingface") {authority : Bytes}
    (fresh : slash ∉ authority) {owner encodedOwner repo encodedRepo : Bytes}
    (noAt : atSign ∉ repo) (ownerEncodes : Encodes ComponentEscapes owner encodedOwner)
    (repoEncodes : Encodes ComponentEscapes repo encodedRepo)
    {revision encodedRevision : Option Bytes}
    (revisionEncodes : Option.Rel (Encodes ComponentEscapes) revision encodedRevision)
    {path encodedPath : Bytes} (nonempty : path ≠ []) (last : Encodes PathEscapes path encodedPath) :
    KeepsRepository (containerUri entry.text authority
        [encodedOwner, encodedRepo ++ revisionSuffix encodedRevision] encodedPath)
      owner repo revision path ↔
      slash ∉ owner ∧ slash ∉ repo ∧ ∀ text ∈ revision, slash ∉ text := by
  have hweaker (b : UInt8) (hb : b = percent ∨ b = question) : ComponentEscapes b :=
    Or.inl (hb.imp_right Or.inl)
  have heach : List.Forall₂ (Encodes fun b => b = percent ∨ b = question)
      [owner, repo ++ revisionSuffix revision]
      [encodedOwner, encodedRepo ++ revisionSuffix encodedRevision] :=
    .cons (ownerEncodes.mono hweaker)
      (.cons (suffix_encodes (by decide) hweaker repoEncodes revisionEncodes) .nil)
  have hjoined := joinSegments_encodes (Q := (· = percent)) (by decide) (fun b hb => Or.inl hb)
    heach (last.mono fun b hb => Or.inl hb)
  have hquery := question_not_mem_joinSegments (Or.inr rfl) heach
    (last.not_mem (Or.inr (Or.inl rfl)) (by decide))
  have hl := repository_layout entry member scheme
  constructor
  · intro kept
    obtain ⟨p, haccepted, _, _, hkept⟩ := kept {}
    obtain ⟨uri, p', haccepted', _, hroot, _, hpath⟩ :=
      tryParse_containerUri decodes member fresh hjoined hquery {}
    obtain rfl : p = p' := (Prod.mk.inj (haccepted.symm.trans haccepted')).2
    rw [hpath, hl, Layout.path, hroot] at hkept
    obtain ⟨howner, hsegment⟩ := plain_of_rest nonempty hkept
    exact ⟨howner, slash_mem_suffix.mp hsegment⟩
  · rintro ⟨howner, hsegment⟩ r
    obtain ⟨uri, p, haccepted, _, hroot, hconfig, hpath⟩ :=
      tryParse_containerUri decodes member fresh hjoined hquery r
    have hcut : takeSegments 2 uri.root = ([owner, repo ++ revisionSuffix revision], path) := by
      have hplain : ∀ segment ∈ [owner, repo ++ revisionSuffix revision], slash ∉ segment := by
        simpa [howner] using slash_mem_suffix.mpr hsegment
      rw [hroot]
      exact takeSegments_join path hplain
    have hpath' : p.path = path := by rw [hpath, hl, Layout.path, hcut]
    rw [takeSegments_two] at hcut
    obtain ⟨hparts, -⟩ := Prod.mk.inj hcut
    obtain ⟨hfirst, hparts⟩ := List.cons.inj hparts
    obtain ⟨hsecond, -⟩ := List.cons.inj hparts
    refine ⟨p, haccepted, ?_, ?_, hpath'⟩
    · rw [hconfig, hl, lookup_repo_id, hfirst, hsecond, cutRevision_suffix noAt]
    · rw [hconfig, hl, lookup_revision, hsecond, cutRevision_suffix noAt]

/-- A container URI gives back what it was built from exactly when no component and no revision
holds a slash: the root is decoded before it is cut. -/
theorem containerUri_round_trip_iff
    (decodes : ∀ s e, Encodes (· = percent) s e → urlDecode e = s)
    {entry : OpenDALPrefix} (member : entry ∈ openDALPrefixes) {authority : Bytes}
    (fresh : slash ∉ authority) {path encodedPath : Bytes} (nonempty : path ≠ [])
    (last : Encodes PathEscapes path encodedPath) :
    (∀ keys components encoded, (entry.scheme, keys) ∈ containerKeys →
      components.length = keys.length →
      List.Forall₂ (Encodes ComponentEscapes) components encoded →
      (KeepsSegments (containerUri entry.text authority encoded encodedPath) keys components path ↔
        ∀ component ∈ components, slash ∉ component)) ∧
    (∀ owner encodedOwner repo encodedRepo revision encodedRevision,
      entry.scheme = bytes "hf" ∨ entry.scheme = bytes "huggingface" → atSign ∉ repo →
      Encodes ComponentEscapes owner encodedOwner → Encodes ComponentEscapes repo encodedRepo →
      Option.Rel (Encodes ComponentEscapes) revision encodedRevision →
      (KeepsRepository (containerUri entry.text authority
          [encodedOwner, encodedRepo ++ revisionSuffix encodedRevision] encodedPath)
        owner repo revision path ↔
        slash ∉ owner ∧ slash ∉ repo ∧ ∀ text ∈ revision, slash ∉ text)) :=
  ⟨fun _ _ _ row length each => segments_round_trip decodes member row fresh length each last,
    fun _ _ _ _ _ _ scheme noAt ownerEncodes repoEncodes revisionEncodes =>
      repository_round_trip decodes member scheme fresh noAt ownerEncodes repoEncodes
        revisionEncodes nonempty last⟩

end RoundTrip

theorem containerUri_round_trip_lakefs :
    letI : StringUtil := percentDecoding
    KeepsSegments
      (containerUri (bytes "lakefs://") (bytes "host")
        ([bytes "my repo", bytes "main@1"].map (encode ComponentEscapes))
        (encode PathEscapes (bytes "data/x?y")))
      [bytes "repository", bytes "branch"] [bytes "my repo", bytes "main@1"]
      (bytes "data/x?y") := by
  let _ : StringUtil := percentDecoding
  have hdecodes (s e : Bytes) (h : Encodes (· = percent) s e) : urlDecode e = s :=
    decode_encodes h rfl
  have hmember : (⟨bytes "lakefs://", bytes "lakefs", .lakefs⟩ : OpenDALPrefix) ∈ openDALPrefixes :=
    by decide
  have hfresh : slash ∉ bytes "host" := by decide
  have hnonempty : bytes "data/x?y" ≠ [] := by decide
  have hrow : (bytes "lakefs", [bytes "repository", bytes "branch"]) ∈ containerKeys := by decide
  have heach : List.Forall₂ (Encodes ComponentEscapes) [bytes "my repo", bytes "main@1"]
      ([bytes "my repo", bytes "main@1"].map (encode ComponentEscapes)) :=
    .cons (encodes_encode _ _) (.cons (encodes_encode _ _) .nil)
  obtain ⟨hsegments, -⟩ := containerUri_round_trip_iff hdecodes hmember hfresh hnonempty
    (encodes_encode PathEscapes _)
  have hlength : [bytes "my repo", bytes "main@1"].length =
      [bytes "repository", bytes "branch"].length := by simp only [List.length_cons]
  exact (hsegments _ _ _ hrow hlength heach).mpr (by decide)

/-- A lakeFS branch with an escaped slash is cut in two. -/
theorem containerUri_loses_branch :
    letI : StringUtil := percentDecoding
    let uri := containerUri (bytes "lakefs://") (bytes "host")
      ([bytes "repo", bytes "feature/x"].map (encode ComponentEscapes))
      (encode PathEscapes (bytes "data"))
    uri = bytes "lakefs://host/repo/feature%2Fx/data" ∧
      ¬ KeepsSegments uri [bytes "repository", bytes "branch"] [bytes "repo", bytes "feature/x"]
        (bytes "data") := by
  refine ⟨by decide +kernel, fun kept => ?_⟩
  obtain ⟨p, haccepted, _, hpath⟩ := kept {}
  obtain rfl := (Prod.mk.inj haccepted).2
  exact absurd hpath (by decide +kernel)

end DuckdbOpendalfs.Address.ContainerSegments
