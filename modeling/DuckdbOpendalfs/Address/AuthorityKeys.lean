/- DuckdbOpendalfs/Address/AuthorityKeys
   digest: Every text that decodes to a key of a single-authority backend addresses it. -/

import DuckdbOpendalfs.Address.Layouts

set_option autoImplicit false
set_option relaxedAutoImplicit false

namespace DuckdbOpendalfs.Address.AuthorityKeys

open Text Text.ByteString Text.PercentEncoding
open Prefixes Uri ParseSpec Layouts
open StringUtil (urlDecode)

/-- The schemes other than HTTP that read an authority and an object key and nothing else, with the
configuration key for the authority and the text in front of it. The last ones do not use it. -/
def authorityTable : List (Bytes × List (Bytes × Bytes)) :=
  [(bytes "s3", [(bytes "bucket", [])]),
   (bytes "gcs", [(bytes "bucket", [])]),
   (bytes "b2", [(bytes "bucket", [])]),
   (bytes "cos", [(bytes "bucket", [])]),
   (bytes "obs", [(bytes "bucket", [])]),
   (bytes "oss", [(bytes "bucket", [])]),
   (bytes "tos", [(bytes "bucket", [])]),
   (bytes "upyun", [(bytes "bucket", [])]),
   (bytes "azblob", [(bytes "container", [])]),
   (bytes "aliyun-drive", [(bytes "drive_type", [])]),
   (bytes "dbfs", [(bytes "endpoint", bytes "https://")]),
   (bytes "pcloud", [(bytes "endpoint", bytes "https://")]),
   (bytes "webdav", [(bytes "endpoint", bytes "https://")]),
   (bytes "ftp", [(bytes "endpoint", bytes "ftp://")]),
   (bytes "ipfs", [(bytes "endpoint", bytes "http://")]),
   (bytes "sftp", [(bytes "endpoint", [])]),
   (bytes "dropbox", []),
   (bytes "gdrive", []),
   (bytes "vercel-blob", []),
   (bytes "yandex-disk", [])]

def authorityFronts (entry : OpenDALPrefix) : Option (List (Bytes × Bytes)) :=
  if entry.scheme == bytes "http" then some [(bytes "endpoint", entry.text)]
  else authorityTable.lookup entry.scheme

def frontsOf (layout : Layout) (text : Bytes) : Option (List (Bytes × Bytes)) :=
  match layout with
  | .http => some [(bytes "endpoint", text)]
  | .single key front => some [(key, front)]
  | .rootOnly => some []
  | .segments _ _ _ _ | .skipSegment | .repository | .pathOnly => none

theorem frontsOf_layoutOf : ∀ e ∈ openDALPrefixes,
    frontsOf (layoutOf e.scheme) e.text = authorityFronts e := by
  decide +kernel

theorem mapping_authority {layout : Layout} {text : Bytes} {fronts : List (Bytes × Bytes)}
    (single : frontsOf layout text = some fronts) (uri : OpenDALUri) (noQuery : uri.query = []) :
    (layout.mapping uri text ∅).1.entries =
        fronts.map (fun front => ⟨front.1, front.2 ++ uri.authority⟩) ∧
      layout.path uri = uri.root := by
  cases layout with
  | http =>
    obtain rfl := Option.some.inj single
    exact ⟨rfl, http_path_plain noQuery⟩
  | single key front =>
    obtain rfl := Option.some.inj single
    exact ⟨rfl, rfl⟩
  | rootOnly =>
    obtain rfl := Option.some.inj single
    exact ⟨rfl, rfl⟩
  | segments | skipSegment | repository | pathOnly => cases single

section RoundTrip

variable [StringUtil]

/-- A URI is accepted with this key as its object path, and the configuration holds what the
authority becomes and nothing else. -/
def AddressesKey (uri : Bytes) (entry : OpenDALPrefix) (fronts : List (Bytes × Bytes))
    (authority key : Bytes) : Prop :=
  ∀ r, ∃ p, OpenDALPath.tryParse uri r = (true, p) ∧ p.scheme = entry.scheme ∧ p.path = key ∧
    p.uriConfig.entries = fronts.map fun front => ⟨front.1, front.2 ++ authority⟩

private theorem addressesKey {entry : OpenDALPrefix} (member : entry ∈ openDALPrefixes)
    {fronts : List (Bytes × Bytes)} (single : authorityFronts entry = some fronts)
    {authority : Bytes} (fresh : slash ∉ authority) {encoded : Bytes}
    (noQuery : question ∉ encoded) :
    AddressesKey (entry.text ++ (authority ++ slash :: encoded)) entry fronts authority
      (urlDecode encoded) := by
  intro r
  refine ⟨_, tryParse_of_mem member _ r, ?_⟩
  have huri := parse_slash entry.text fresh noQuery
  rw [← frontsOf_layoutOf entry member] at single
  obtain ⟨hentries, hpath⟩ := mapping_authority single _ (congrArg OpenDALUri.query huri)
  rw [assign_eq_layout]
  refine ⟨rfl, ?_, ?_⟩
  · exact hpath.trans (congrArg OpenDALUri.root huri)
  · rw [huri] at hentries ⊢
    exact hentries

/-- Every text that decodes to a key addresses it, whatever the bytes of the key are. With a
decoder that undoes escapes, every key has such a text. -/
theorem tryParse_authority_key {entry : OpenDALPrefix} (member : entry ∈ openDALPrefixes)
    {fronts : List (Bytes × Bytes)} (single : authorityFronts entry = some fronts)
    {authority : Bytes} (fresh : slash ∉ authority) :
    (∀ key encoded, question ∉ encoded → urlDecode encoded = key →
      AddressesKey (entry.text ++ (authority ++ slash :: encoded)) entry fronts authority key) ∧
    ((∀ s e, Encodes (· = percent) s e → urlDecode e = s) → ∀ key, ∃ encoded,
      AddressesKey (entry.text ++ (authority ++ slash :: encoded)) entry fronts authority key) := by
  constructor
  · rintro key encoded noQuery rfl
    exact addressesKey member single fresh noQuery
  · intro decodes key
    have hencodes := encodes_encode (fun b => b = percent ∨ b = question) key
    have hnoQuery := hencodes.not_mem (Or.inr rfl) (by decide)
    have hkey := decodes key _ (hencodes.mono fun _ => Or.inl)
    exact ⟨_, hkey ▸ addressesKey member single fresh hnoQuery⟩

end RoundTrip

theorem tryParse_authority_key_gcs :
    letI : StringUtil := percentDecoding
    AddressesKey (bytes "gs://bucket//a%3f//%25b/") ⟨bytes "gs://", bytes "gcs", .gcs⟩
      [(bytes "bucket", [])] (bytes "bucket") (bytes "/a?//%b/") ∧
    AddressesKey (bytes "gcs://bucket/%2Fa%3F/%2f%b/") ⟨bytes "gcs://", bytes "gcs", .gcs⟩
      [(bytes "bucket", [])] (bytes "bucket") (bytes "/a?//%b/") ∧
    ∀ key, ∃ encoded, AddressesKey (bytes "gs://bucket/" ++ encoded)
      ⟨bytes "gs://", bytes "gcs", .gcs⟩ [(bytes "bucket", [])] (bytes "bucket") key := by
  let _ : StringUtil := percentDecoding
  have hfirst : (⟨bytes "gs://", bytes "gcs", .gcs⟩ : OpenDALPrefix) ∈ openDALPrefixes := by decide
  have hsecond : (⟨bytes "gcs://", bytes "gcs", .gcs⟩ : OpenDALPrefix) ∈ openDALPrefixes := by
    decide
  have hfresh : slash ∉ bytes "bucket" := by decide
  have hdecodes (s e : Bytes) (h : Encodes (· = percent) s e) : urlDecode e = s :=
    decode_encodes h rfl
  obtain ⟨hspelled, hevery⟩ := tryParse_authority_key hfirst rfl hfresh
  refine ⟨?_, ?_, fun key => ?_⟩
  · exact hspelled _ (bytes "/a%3f//%25b/") (by decide) (by decide +kernel)
  · exact (tryParse_authority_key hsecond rfl hfresh).1 _ (bytes "%2Fa%3F/%2f%b/") (by decide)
      (by decide +kernel)
  · exact hevery hdecodes key

end DuckdbOpendalfs.Address.AuthorityKeys
