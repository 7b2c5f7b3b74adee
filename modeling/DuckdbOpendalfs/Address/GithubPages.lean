/- DuckdbOpendalfs/Address/GithubPages
   digest: Which GitHub pages are rewritten to raw files at their third segment, and nowhere else. -/

import DuckdbOpendalfs.Address.HttpQuery
import DuckdbOpendalfs.Address.Injectivity

set_option autoImplicit false
set_option relaxedAutoImplicit false

namespace DuckdbOpendalfs.Address.GithubPages

open Text.ByteString
open Text.PercentEncoding (decode_of_not_mem)
open Prefixes Uri ParseSpec Layouts Injectivity HttpQuery
open StringUtil (urlDecode)

def pagePath (owner repo kind rest : Bytes) : Bytes :=
  owner ++ slash :: (repo ++ slash :: (kind ++ slash :: rest))

section Rewriting

private theorem blob_split : bytes "/blob/" = slash :: (bytes "blob" ++ [slash]) := rfl

theorem rewriteBlob_blob (s : Bytes) : rewriteBlob (bytes "/blob/" ++ s) = bytes "/raw/" ++ s := by
  have hfind : findSubstring (bytes "/blob/") (bytes "/blob/" ++ s) = some 0 := by
    have hprefix : (bytes "/blob/").isPrefixOf (bytes "/blob/" ++ s) = true :=
      List.isPrefixOf_iff_prefix.mpr (List.prefix_append _ _)
    rw [blob_split, List.cons_append] at hprefix ⊢
    rw [findSubstring, if_pos hprefix]
  rw [rewriteBlob, hfind]
  rfl

theorem rewriteBlob_cons {c : UInt8} {s : Bytes} (other : ¬ bytes "/blob/" <+: c :: s) :
    rewriteBlob (c :: s) = c :: rewriteBlob s := by
  have hfind : findSubstring (bytes "/blob/") (c :: s) =
      (findSubstring (bytes "/blob/") s).map (· + 1) := by
    rw [findSubstring, if_neg (fun h => other (List.isPrefixOf_iff_prefix.mp h))]
  unfold rewriteBlob
  rw [hfind]
  cases findSubstring (bytes "/blob/") s with
  | none => rfl
  | some i =>
    have hadd : i + 1 + 6 = i + 6 + 1 := by omega
    simp only [Option.map_some, replaceAt, hadd, List.take_succ_cons, List.drop_succ_cons,
      List.cons_append]

theorem rewriteBlob_append {a : Bytes} (fresh : slash ∉ a) (s : Bytes) :
    rewriteBlob (a ++ s) = a ++ rewriteBlob s := by
  induction a with
  | nil => rfl
  | cons c a ih =>
    rw [List.mem_cons, not_or] at fresh
    have hother : ¬ bytes "/blob/" <+: c :: (a ++ s) := by
      rw [blob_split, List.cons_prefix_cons]
      exact fun h => fresh.1 h.1
    rw [List.cons_append, rewriteBlob_cons hother, ih fresh.2, List.cons_append]

theorem rewriteBlob_segment {a : Bytes} (fresh : slash ∉ a) (other : a ≠ bytes "blob") (b : Bytes) :
    rewriteBlob (slash :: (a ++ slash :: b)) = slash :: (a ++ rewriteBlob (slash :: b)) := by
  have hblob : slash ∉ bytes "blob" := by decide
  have hother : ¬ bytes "/blob/" <+: slash :: (a ++ slash :: b) := by
    rw [blob_split, List.cons_prefix_cons]
    rintro ⟨-, back, hback⟩
    rw [List.append_assoc, List.singleton_append] at hback
    exact other (cut_unique hblob fresh hback).1.symm
  rw [rewriteBlob_cons hother, rewriteBlob_append fresh]

end Rewriting

section Pages

variable {owner repo : Bytes}

theorem rewriteBlob_page_iff (ownerFresh : slash ∉ owner) (repoFresh : slash ∉ repo) (rest : Bytes) :
    rewriteBlob (pagePath owner repo (bytes "blob") rest) =
        pagePath owner repo (bytes "raw") rest ↔
      repo ≠ bytes "blob" := by
  have hmarker : slash :: (bytes "blob" ++ slash :: rest) = bytes "/blob/" ++ rest := rfl
  rw [pagePath, pagePath, rewriteBlob_append ownerFresh, List.append_cancel_left_eq]
  constructor
  · rintro hraw rfl
    change rewriteBlob (bytes "/blob/" ++ _) = _ at hraw
    rw [rewriteBlob_blob] at hraw
    cases hraw
  · intro hrepo
    rw [rewriteBlob_segment repoFresh hrepo, hmarker, rewriteBlob_blob]
    rfl

theorem rewriteBlob_other_iff (ownerFresh : slash ∉ owner) (repoFresh : slash ∉ repo) {kind : Bytes}
    (kindFresh : slash ∉ kind) (other : kind ≠ bytes "blob") (rest : Bytes) :
    rewriteBlob (pagePath owner repo kind rest) = pagePath owner repo kind rest ↔
      repo ≠ bytes "blob" ∧ ¬ bytes "/blob/" <:+: slash :: rest := by
  rw [pagePath, rewriteBlob_append ownerFresh, List.append_cancel_left_eq]
  by_cases hrepo : repo = bytes "blob"
  · subst hrepo
    refine iff_of_false (fun h => ?_) (fun h => h.1 rfl)
    change rewriteBlob (bytes "/blob/" ++ _) = _ at h
    rw [rewriteBlob_blob] at h
    cases h
  · rw [rewriteBlob_segment repoFresh hrepo, rewriteBlob_segment kindFresh other,
      List.cons_inj_right, List.append_cancel_left_eq, List.cons_inj_right,
      List.append_cancel_left_eq, ← rewriteBlob_ne_iff, not_not]
    exact ⟨fun h => ⟨hrepo, h⟩, fun h => h.2⟩

end Pages

section Urls

variable [StringUtil]

theorem tryParse_page {entry : OpenDALPrefix} (member : entry ∈ openDALPrefixes)
    (scheme : entry.scheme = bytes "http") {authority : Bytes} (fresh : slash ∉ authority)
    (github : authority = bytes "github.com" ∨ bytes "github.com:" <+: authority) {path : Bytes}
    (noQuery : question ∉ path) (r : OpenDALPath) :
    ∃ p, OpenDALPath.tryParse (queryUrl entry.text authority path (bytes "raw=true")) r = (true, p) ∧
      p.path = rewriteBlob (urlDecode path) := by
  have hlayout : layoutOf entry.scheme = .http := by rw [scheme]; rfl
  refine ⟨_, by rw [queryUrl, tryParse_of_mem member], ?_⟩
  have hraw : OpenDALUri.isGithubRaw
      { authority := authority, root := urlDecode path, query := bytes "raw=true",
        trailingSlash := (question :: bytes "raw=true").getLast? == some slash } = true := by
    simp [OpenDALUri.isGithubRaw, github]
  rw [assign_eq_layout, hlayout, parse_query entry.text _ fresh noQuery]
  exact if_pos hraw

/-- A page of a file is rewritten at its third segment exactly when the repository is not called
blob. Another page keeps its path exactly when nothing in that path reads `/blob/`, which for a kind
without escapes is the name of the repository or of a directory further down. -/
theorem githubPage_iff (plainStays : ∀ s : Bytes, percent ∉ s → urlDecode s = s)
    {entry : OpenDALPrefix} (member : entry ∈ openDALPrefixes)
    (scheme : entry.scheme = bytes "http") {authority : Bytes} (fresh : slash ∉ authority)
    (github : authority = bytes "github.com" ∨ bytes "github.com:" <+: authority)
    {owner repo rest : Bytes} (ownerPlain : slash ∉ owner ∧ question ∉ owner ∧ percent ∉ owner)
    (repoPlain : slash ∉ repo ∧ question ∉ repo ∧ percent ∉ repo)
    (restPlain : question ∉ rest ∧ percent ∉ rest) (r : OpenDALPath) :
    (∃ p, OpenDALPath.tryParse (queryUrl entry.text authority
          (pagePath owner repo (bytes "blob") rest) (bytes "raw=true")) r = (true, p) ∧
        (p.path = pagePath owner repo (bytes "raw") rest ↔ repo ≠ bytes "blob")) ∧
      ∀ kind : Bytes, slash ∉ kind → question ∉ kind → kind ≠ bytes "blob" →
        ∃ p, OpenDALPath.tryParse (queryUrl entry.text authority
            (pagePath owner repo kind rest) (bytes "raw=true")) r = (true, p) ∧
          (p.path = urlDecode (pagePath owner repo kind rest) ↔
            ¬ bytes "/blob/" <:+: urlDecode (pagePath owner repo kind rest)) ∧
          (percent ∉ kind → (p.path = pagePath owner repo kind rest ↔
            repo ≠ bytes "blob" ∧ ¬ bytes "/blob/" <:+: slash :: rest)) := by
  have habsent {c : UInt8} (hc : c ≠ slash) {kind : Bytes} (howner : c ∉ owner) (hrepo : c ∉ repo)
      (hkind : c ∉ kind) (hrest : c ∉ rest) : c ∉ pagePath owner repo kind rest := by
    simp [pagePath, hc, howner, hrepo, hkind, hrest]
  have hquestion {kind : Bytes} (hkind : question ∉ kind) :
      question ∉ pagePath owner repo kind rest :=
    habsent (by decide) ownerPlain.2.1 repoPlain.2.1 hkind restPlain.1
  have hdecoded {kind : Bytes} (hkind : percent ∉ kind) :
      urlDecode (pagePath owner repo kind rest) = pagePath owner repo kind rest :=
    plainStays _ (habsent (by decide) ownerPlain.2.2 repoPlain.2.2 hkind restPlain.2)
  constructor
  · have hblob : question ∉ bytes "blob" := by decide
    obtain ⟨p, hparse, hpath⟩ := tryParse_page member scheme fresh github (hquestion hblob) r
    refine ⟨p, hparse, ?_⟩
    rw [hpath, hdecoded (by decide)]
    exact rewriteBlob_page_iff ownerPlain.1 repoPlain.1 rest
  · intro kind hslash hkind hother
    obtain ⟨p, hparse, hpath⟩ := tryParse_page member scheme fresh github (hquestion hkind) r
    refine ⟨p, hparse, ?_, fun hpercent => ?_⟩
    · rw [hpath, ← rewriteBlob_ne_iff, not_not]
    · rw [hpath, hdecoded hpercent]
      exact rewriteBlob_other_iff ownerPlain.1 repoPlain.1 hslash hother rest

end Urls

theorem githubPage_file :
    letI : StringUtil := percentDecoding
    ∃ p, OpenDALPath.tryParse (queryUrl (bytes "https://") (bytes "github.com:443")
        (pagePath (bytes "duckdb") (bytes "duckdb") (bytes "blob") (bytes "main/f.parquet"))
        (bytes "raw=true")) {} = (true, p) ∧
      p.path = pagePath (bytes "duckdb") (bytes "duckdb") (bytes "raw") (bytes "main/f.parquet") := by
  let _ : StringUtil := percentDecoding
  have hmember : (⟨bytes "https://", bytes "http", .http⟩ : OpenDALPrefix) ∈ openDALPrefixes := by
    decide
  have hport : bytes "github.com:" <+: bytes "github.com:443" := ⟨bytes "443", by decide⟩
  have hname : slash ∉ bytes "duckdb" ∧ question ∉ bytes "duckdb" ∧ percent ∉ bytes "duckdb" := by
    decide
  have hrest : question ∉ bytes "main/f.parquet" ∧ percent ∉ bytes "main/f.parquet" := by decide
  obtain ⟨p, hparse, hpath⟩ := (githubPage_iff (fun _ => decode_of_not_mem) hmember rfl (by decide)
    (Or.inr hport) hname hname hrest {}).1
  exact ⟨p, hparse, hpath.mpr (by decide)⟩

/-- In a repository called blob the wrong segment is rewritten, and so is a directory called blob
under a page of another kind. -/
theorem githubPage_strays :
    letI : StringUtil := percentDecoding
    let file := OpenDALPath.tryParse (bytes "https://github.com/o/blob/blob/main/f?raw=true") {}
    let page := OpenDALPath.tryParse (bytes "https://github.com/o/r/tree/main/blob/f?raw=true") {}
    file.1 = true ∧ file.2.path = bytes "o/raw/blob/main/f" ∧
      file.2.path ≠ pagePath (bytes "o") (bytes "blob") (bytes "raw") (bytes "main/f") ∧
      page.1 = true ∧ page.2.path = bytes "o/r/tree/main/raw/f" ∧
      page.2.path ≠ pagePath (bytes "o") (bytes "r") (bytes "tree") (bytes "main/blob/f") := by
  decide +kernel

end DuckdbOpendalfs.Address.GithubPages
