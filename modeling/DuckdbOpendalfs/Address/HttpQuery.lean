/- DuckdbOpendalfs/Address/HttpQuery
   digest: What becomes of the query of an HTTP URL, compared over pairs of URLs. -/

import DuckdbOpendalfs.Address.Layouts

set_option autoImplicit false
set_option relaxedAutoImplicit false

namespace DuckdbOpendalfs.Address.HttpQuery

open Text.ByteString
open Prefixes Uri ParseSpec Layouts
open StringUtil (urlDecode)

def queryUrl (text authority path query : Bytes) : Bytes :=
  text ++ (authority ++ slash :: (path ++ question :: query))

def bareUrl (text authority path : Bytes) : Bytes := text ++ (authority ++ slash :: path)

section Rewriting

theorem rewriteBlob_ne_iff (path : Bytes) :
    rewriteBlob path ≠ path ↔ bytes "/blob/" <:+: path := by
  rw [← findSubstring_isSome]
  unfold rewriteBlob
  cases h : findSubstring (bytes "/blob/") path with
  | none => simp
  | some i =>
    have hblob : (bytes "/blob/").length = 6 := rfl
    have hraw : (bytes "/raw/").length = 5 := rfl
    have hsplit := congrArg List.length (findSubstring_spec h)
    simp only [List.length_append, hblob] at hsplit
    refine iff_of_true (fun heq => ?_) rfl
    have hlen := congrArg List.length heq
    simp only [replaceAt, List.length_append, hraw] at hlen
    omega

theorem httpPath_ne_root_iff (uri : OpenDALUri) :
    Layout.http.path uri ≠ uri.root ↔
      (uri.authority = bytes "github.com" ∨ bytes "github.com:" <+: uri.authority) ∧
        uri.query = bytes "raw=true" ∧ bytes "/blob/" <:+: uri.root := by
  have hraw : uri.isGithubRaw = true ↔
      (uri.authority = bytes "github.com" ∨ bytes "github.com:" <+: uri.authority) ∧
        uri.query = bytes "raw=true" := by
    simp [OpenDALUri.isGithubRaw]
  by_cases h : uri.isGithubRaw = true
  · have hpath : Layout.http.path uri = rewriteBlob uri.root := by simp [Layout.path, h]
    rw [hpath, rewriteBlob_ne_iff]
    exact ⟨fun hblob => ⟨(hraw.mp h).1, (hraw.mp h).2, hblob⟩, fun hall => hall.2.2⟩
  · have hpath : Layout.http.path uri = uri.root := by simp [Layout.path, h]
    exact ⟨fun hne => absurd hpath hne, fun hall => absurd (hraw.mpr ⟨hall.1, hall.2.1⟩) h⟩

theorem httpPath_ne_iff {uri uri' : OpenDALUri} (root : uri.root = uri'.root) :
    Layout.http.path uri ≠ Layout.http.path uri' ↔
      ¬ (Layout.http.path uri ≠ uri.root ↔ Layout.http.path uri' ≠ uri'.root) := by
  have hor (u : OpenDALUri) :
      Layout.http.path u = u.root ∨ Layout.http.path u = rewriteBlob u.root := by
    by_cases h : u.isGithubRaw = true <;> simp [Layout.path, h]
  rcases hor uri with h | h <;> rcases hor uri' with h' | h' <;> rw [h, h', root] <;>
    simp [eq_comm]

end Rewriting

section Urls

variable [StringUtil]

/-- The page of a GitHub file, asked for as the raw file. -/
def RawBlob (authority path query : Bytes) : Prop :=
  (authority = bytes "github.com" ∨ bytes "github.com:" <+: authority) ∧
    query = bytes "raw=true" ∧ question ∉ path ∧ bytes "/blob/" <:+: urlDecode path

theorem tryParse_queryUrl {entry : OpenDALPrefix} (member : entry ∈ openDALPrefixes)
    (http : layoutOf entry.scheme = .http) {authority : Bytes} (fresh : slash ∉ authority)
    (path query : Bytes) (r : OpenDALPath) :
    ∃ uri : OpenDALUri, uri.authority = authority ∧
      uri.root = urlDecode (beforeFirst question path) ∧
      (Layout.http.path uri ≠ uri.root ↔ RawBlob authority path query) ∧
      OpenDALPath.tryParse (queryUrl entry.text authority path query) r =
        (true, { scheme := entry.scheme, secretType := entry.secretType
                 path := Layout.http.path uri
                 uriConfig := insertAll ∅ [(bytes "endpoint", entry.text ++ authority)] }) := by
  rw [queryUrl, tryParse_of_mem member, assign_eq_layout, http]
  by_cases hquestion : question ∈ path
  · obtain ⟨front, back, rfl, hfront⟩ := List.eq_append_cons_of_mem hquestion
    rw [List.append_assoc, List.cons_append, parse_query entry.text _ fresh hfront,
      beforeFirst_append_cons back hfront]
    refine ⟨_, rfl, rfl, ?_, rfl⟩
    rw [httpPath_ne_root_iff]
    have hquery : back ++ question :: query ≠ bytes "raw=true" := by
      intro heq
      have hmem : question ∈ bytes "raw=true" := heq ▸ by simp
      exact absurd hmem (by decide)
    exact ⟨fun h => absurd h.2.1 hquery, fun h => absurd hquestion h.2.2.1⟩
  · rw [parse_query entry.text query fresh hquestion, beforeFirst_eq_self hquestion]
    refine ⟨_, rfl, rfl, ?_, rfl⟩
    rw [httpPath_ne_root_iff]
    exact ⟨fun h => ⟨h.1, h.2.1, hquestion, h.2.2⟩, fun h => ⟨h.1, h.2.1, h.2.2.2⟩⟩

/-- Two URLs that differ in their query name different objects exactly when one of them, and not
the other, is rewritten to a raw GitHub file. Against the bare URL a query makes a difference
exactly through that rewriting. -/
theorem queryUrl_ne_iff {entry : OpenDALPrefix} (member : entry ∈ openDALPrefixes)
    (scheme : entry.scheme = bytes "http") {authority : Bytes} (fresh : slash ∉ authority)
    (path query query' : Bytes) (r : OpenDALPath) :
    (OpenDALPath.tryParse (queryUrl entry.text authority path query) r ≠
        OpenDALPath.tryParse (queryUrl entry.text authority path query') r ↔
      ¬ (RawBlob authority path query ↔ RawBlob authority path query')) ∧
    (question ∉ path →
      (OpenDALPath.tryParse (queryUrl entry.text authority path query) r ≠
          OpenDALPath.tryParse (bareUrl entry.text authority path) r ↔
        RawBlob authority path query)) := by
  have hlayout : layoutOf entry.scheme = .http := by rw [scheme]; rfl
  obtain ⟨uri, _, hroot, hraw, hparse⟩ :=
    tryParse_queryUrl member hlayout fresh path query r
  obtain ⟨uri', _, hroot', hraw', hparse'⟩ :=
    tryParse_queryUrl member hlayout fresh path query' r
  constructor
  · rw [hparse, hparse', ← hraw, ← hraw', ← httpPath_ne_iff (hroot.trans hroot'.symm)]
    simp
  · intro noQuery
    rw [hparse, bareUrl, tryParse_of_mem member, assign_eq_layout, hlayout,
      parse_slash entry.text fresh noQuery, ← hraw, hroot, beforeFirst_eq_self noQuery]
    have hbare (trailing : Bool) : Layout.http.path
        { authority := authority, root := urlDecode path, query := [],
          trailingSlash := trailing } = urlDecode path := http_path_plain rfl
    rw [hbare]
    simp [Layout.mapping, Layout.entries]

end Urls

theorem queryUrl_ne_raw :
    letI : StringUtil := percentDecoding
    OpenDALPath.tryParse (queryUrl (bytes "https://") (bytes "github.com")
        (bytes "o/r/blob/main/f.csv") (bytes "raw=true")) {} ≠
      OpenDALPath.tryParse (queryUrl (bytes "https://") (bytes "github.com")
        (bytes "o/r/blob/main/f.csv") (bytes "v=1")) {} := by
  let _ : StringUtil := percentDecoding
  have hmember : (⟨bytes "https://", bytes "http", .http⟩ : OpenDALPrefix) ∈ openDALPrefixes := by
    decide
  have hfresh : slash ∉ bytes "github.com" := by decide
  have hblob : bytes "/blob/" <:+: urlDecode (bytes "o/r/blob/main/f.csv") := by
    rw [← findSubstring_isSome]
    decide +kernel
  have hraw : RawBlob (bytes "github.com") (bytes "o/r/blob/main/f.csv") (bytes "raw=true") :=
    ⟨Or.inl rfl, rfl, by decide, hblob⟩
  have hplain : ¬ RawBlob (bytes "github.com") (bytes "o/r/blob/main/f.csv") (bytes "v=1") :=
    fun h => absurd h.2.1 (by decide)
  exact (queryUrl_ne_iff hmember rfl hfresh _ _ _ {}).1.mpr fun h => hplain (h.mp hraw)

/-- Two versions of one resource are one object. -/
theorem queryUrl_conflated :
    letI : StringUtil := percentDecoding
    let first := OpenDALPath.tryParse (queryUrl (bytes "http://") (bytes "host")
      (bytes "data.csv") (bytes "v=1")) {}
    let second := OpenDALPath.tryParse (queryUrl (bytes "http://") (bytes "host")
      (bytes "data.csv") (bytes "v=2")) {}
    bytes "v=1" ≠ bytes "v=2" ∧ first.1 = true ∧ second.1 = true ∧
      first.2.scheme = second.2.scheme ∧
      first.2.uriConfig.toFinmap = second.2.uriConfig.toFinmap ∧
      first.2.path = second.2.path := by
  decide +kernel

end DuckdbOpendalfs.Address.HttpQuery
