/- DuckdbOpendalfs/Address/Injectivity
   digest: Scheme, configuration and object path determine the authority and the decoded remainder. -/

import DuckdbOpendalfs.Address.Layouts

set_option autoImplicit false
set_option relaxedAutoImplicit false

namespace DuckdbOpendalfs.Address.Injectivity

open Text Text.ByteString
open Prefixes Uri ParseSpec Layouts
open StringUtil (urlDecode)

def authorityOf (tail : Bytes) : Bytes := beforeFirst slash tail

def remainderOf (tail : Bytes) : Bytes := tail.drop ((authorityOf tail).length + 1)

section Cuts

@[simp] theorem authorityOf_append_cons {a : Bytes} (b : Bytes) (fresh : slash ∉ a) :
    authorityOf (a ++ slash :: b) = a := beforeFirst_append_cons b fresh

@[simp] theorem authorityOf_eq_self {a : Bytes} (fresh : slash ∉ a) : authorityOf a = a :=
  beforeFirst_eq_self fresh

@[simp] theorem remainderOf_append_cons {a : Bytes} (b : Bytes) (fresh : slash ∉ a) :
    remainderOf (a ++ slash :: b) = b := by
  have hsplit : a ++ slash :: b = (a ++ [slash]) ++ b := by simp
  rw [remainderOf, authorityOf_append_cons b fresh, hsplit]
  exact List.drop_left' (by simp)

@[simp] theorem remainderOf_eq_nil {a : Bytes} (fresh : slash ∉ a) : remainderOf a = [] := by
  rw [remainderOf, authorityOf_eq_self fresh]
  exact List.drop_eq_nil_of_le (by omega)

theorem authorityOf_append {a : Bytes} (fresh : slash ∉ a) (s : Bytes) :
    authorityOf (a ++ s) = a ++ authorityOf s := beforeFirst_append fresh s

theorem remainderOf_append {a : Bytes} (fresh : slash ∉ a) (s : Bytes) :
    remainderOf (a ++ s) = remainderOf s := by
  rw [remainderOf, authorityOf_append fresh, List.length_append, Nat.add_assoc,
    List.drop_length_add_append]
  rfl

theorem cut_append {tail : Bytes} (cut : slash ∈ tail) (s : Bytes) :
    authorityOf (tail ++ s) = authorityOf tail ∧ remainderOf (tail ++ s) = remainderOf tail ++ s := by
  obtain ⟨a, rest, rfl, ha⟩ := List.eq_append_cons_of_mem cut
  rw [List.append_assoc, List.cons_append, authorityOf_append_cons _ ha,
    authorityOf_append_cons _ ha, remainderOf_append_cons _ ha, remainderOf_append_cons _ ha]
  exact ⟨rfl, rfl⟩

theorem mem_of_mem_remainderOf {tail : Bytes} {c : UInt8} (h : c ∈ remainderOf tail) : c ∈ tail :=
  List.mem_of_mem_drop h

variable [StringUtil]

/-- The cut of any text behind a prefix: at its first slash, and then at the first question mark. -/
def cutOf (front tail : Bytes) : OpenDALUri where
  authority := authorityOf tail
  root := urlDecode (beforeFirst question (remainderOf tail))
  query := (remainderOf tail).drop ((beforeFirst question (remainderOf tail)).length + 1)
  trailingSlash := (front ++ tail).getLast? == some slash

theorem cutOf_plain (front : Bytes) {tail : Bytes} (noQuery : question ∉ tail) :
    cutOf front tail =
      { authority := authorityOf tail, root := urlDecode (remainderOf tail), query := []
        trailingSlash := (front ++ tail).getLast? == some slash } := by
  have hfresh : question ∉ remainderOf tail := fun h => noQuery (mem_of_mem_remainderOf h)
  rw [cutOf, beforeFirst_eq_self hfresh, List.drop_eq_nil_of_le (by omega)]

theorem parse_eq_cutOf (front tail : Bytes) :
    OpenDALUri.parse (front ++ tail) front.length = cutOf front tail := by
  unfold cutOf
  by_cases hslash : slash ∈ tail
  · obtain ⟨a, rest, rfl, ha⟩ := List.eq_append_cons_of_mem hslash
    have hlast (back : Bytes) :
        (front ++ (a ++ slash :: back)).getLast? = (slash :: back).getLast? := by
      rw [← List.append_assoc, List.getLast?_append_of_ne_nil _ (List.cons_ne_nil _ _)]
    rw [authorityOf_append_cons rest ha, remainderOf_append_cons rest ha, hlast]
    by_cases hquestion : question ∈ rest
    · obtain ⟨path, query, rfl, hpath⟩ := List.eq_append_cons_of_mem hquestion
      have hsplit : path ++ question :: query = (path ++ [question]) ++ query := by simp
      have hquery : (path ++ question :: query).drop (path.length + 1) = query := by
        rw [hsplit]
        exact List.drop_left' (by simp)
      rw [parse_query front query ha hpath, beforeFirst_append_cons query hpath, hquery,
        ← List.cons_append, List.getLast?_append_of_ne_nil _ (List.cons_ne_nil _ _)]
    · rw [parse_slash front ha hquestion, beforeFirst_eq_self hquestion,
        List.drop_eq_nil_of_le (by omega)]
  · rw [parse_bare front hslash, authorityOf_eq_self hslash, remainderOf_eq_nil hslash]
    rfl

theorem tryParse_cut {entry : OpenDALPrefix} (member : entry ∈ openDALPrefixes) (tail : Bytes)
    (r : OpenDALPath) : OpenDALPath.tryParse (entry.text ++ tail) r =
      (true,
        { scheme := entry.scheme
          secretType := entry.secretType
          path := (layoutOf entry.scheme).path (cutOf entry.text tail)
          uriConfig := ((layoutOf entry.scheme).mapping (cutOf entry.text tail) entry.text ∅).1 }) := by
  rw [tryParse_of_mem member, assign_eq_layout, parse_eq_cutOf]

end Cuts

section Layouts

variable {u u' : OpenDALUri} {front front' : Bytes}

theorem entry_value {l : Layout} (distinct : l.Distinct)
    (config : (l.mapping u front ∅).1.toFinmap = (l.mapping u' front' ∅).1.toFinmap)
    {k v v' : Bytes} (hv : (k, v) ∈ l.entries u front) (hv' : (k, v') ∈ l.entries u' front') :
    v = v' := by
  have hlookup := lookup_eq_of_toFinmap_eq config k
  rw [lookup_mapping distinct hv, lookup_mapping distinct hv'] at hlookup
  exact Option.some.inj hlookup

private theorem segments_injective {key text : Bytes} {account : Bool} {keys : List Bytes}
    (distinct : (Layout.segments key text account keys).Distinct)
    (config : ((Layout.segments key text account keys).mapping u front ∅).1.toFinmap =
      ((Layout.segments key text account keys).mapping u' front' ∅).1.toFinmap)
    (path : (takeSegments keys.length u.root).2 = (takeSegments keys.length u'.root).2)
    (nonempty : (takeSegments keys.length u.root).2 ≠ []) :
    u.authority = u'.authority ∧ u.root = u'.root := by
  have hauthority : text ++ u.authority = text ++ u'.authority :=
    entry_value distinct config (k := key) List.mem_cons_self List.mem_cons_self
  refine ⟨List.append_cancel_left hauthority, ?_⟩
  have hsegments : (takeSegments keys.length u.root).1 = (takeSegments keys.length u'.root).1 :=
    zip_values_unique (((Layout.segments key text account keys).mapping u' front' ∅).1.lookup ·)
      (takeSegments_length _ _) (takeSegments_length _ _)
      (fun item hitem => (lookup_eq_of_toFinmap_eq config item.1).symm.trans
        (lookup_segments distinct u front item hitem))
      (lookup_segments distinct u' front')
  rw [← join_takeSegments keys.length u.root nonempty,
    ← join_takeSegments keys.length u'.root (path ▸ nonempty), hsegments, path]

private theorem repoType_injective : ∀ a ∈ [bytes "datasets", bytes "models", bytes "spaces"],
    ∀ a' ∈ [bytes "datasets", bytes "models", bytes "spaces"],
      repoType a = repoType a' → a = a' := by
  decide

theorem repository_config_injective
    (config : (Layout.repository.mapping u front ∅).1.toFinmap =
      (Layout.repository.mapping u' front' ∅).1.toFinmap) :
    repoType u.authority = repoType u'.authority ∧
      (takeSegments 2 u.root).1 = (takeSegments 2 u'.root).1 := by
  have hdistinct : Layout.repository.Distinct := trivial
  have htype : repoType u.authority = repoType u'.authority :=
    entry_value hdistinct config (k := bytes "repo_type") List.mem_cons_self List.mem_cons_self
  have hid := lookup_eq_of_toFinmap_eq config (bytes "repo_id")
  rw [lookup_repo_id, lookup_repo_id, Option.some.injEq] at hid
  have hslash : bytes "/" = [slash] := rfl
  simp only [hslash, List.append_assoc, List.singleton_append] at hid
  obtain ⟨howner, hrepo⟩ :=
    cut_unique (slash_not_mem_takeSegment u.root) (slash_not_mem_takeSegment u'.root) hid
  have hrevision := lookup_eq_of_toFinmap_eq config (bytes "revision")
  rw [lookup_revision, lookup_revision] at hrevision
  have hsegment : (takeSegment (takeSegment u.root).2).1 = (takeSegment (takeSegment u'.root).2).1 :=
    cutRevision_injective (Prod.ext hrepo hrevision)
  refine ⟨htype, ?_⟩
  rw [takeSegments_two, takeSegments_two, howner, hsegment]

private theorem repository_injective
    (config : (Layout.repository.mapping u front ∅).1.toFinmap =
      (Layout.repository.mapping u' front' ∅).1.toFinmap)
    (path : Layout.repository.path u = Layout.repository.path u')
    (nonempty : Layout.repository.path u ≠ [])
    (kind : u.authority ∈ [bytes "datasets", bytes "models", bytes "spaces"])
    (kind' : u'.authority ∈ [bytes "datasets", bytes "models", bytes "spaces"]) :
    u.authority = u'.authority ∧ u.root = u'.root := by
  obtain ⟨htype, hsegments⟩ := repository_config_injective config
  refine ⟨repoType_injective _ kind _ kind' htype, ?_⟩
  have hrest : (takeSegments 2 u.root).2 = (takeSegments 2 u'.root).2 := path
  have hnonempty : (takeSegments 2 u.root).2 ≠ [] := nonempty
  rw [← join_takeSegments 2 u.root hnonempty, ← join_takeSegments 2 u'.root (hrest ▸ hnonempty),
    hsegments, hrest]

theorem pathOnlyPath_eq (fresh : slash ∉ u.authority)
    (closed : u.trailingSlash = true → u.root ≠ [] → u.root.getLast? = some slash) :
    pathOnlyPath u = u.authority ++
      (if u.root ≠ [] then slash :: u.root
       else if u.trailingSlash = true ∧ u.authority ≠ [] then [slash] else []) := by
  have hslash : bytes "/" = [slash] := rfl
  unfold pathOnlyPath
  by_cases hroot : u.root = []
  · have hlast : u.authority.getLast? ≠ some slash :=
      fun h => fresh (List.mem_of_getLast? h)
    by_cases htrailing : u.trailingSlash = true <;> by_cases ha : u.authority = [] <;>
      simp [hroot, htrailing, ha, hlast]
  · have hlast : u.trailingSlash = true →
        (u.authority ++ (slash :: u.root)).getLast? = some slash := by
      intro htrailing
      have hcons : (slash :: u.root).getLast? = u.root.getLast? := List.getLast?_cons_of_ne_nil hroot
      rw [List.getLast?_append_of_ne_nil _ (by simp), hcons]
      exact closed htrailing hroot
    by_cases htrailing : u.trailingSlash = true
    · simp [hroot, htrailing, hslash, hlast htrailing]
    · simp [hroot, htrailing, hslash]

private theorem pathOnly_injective (fresh : slash ∉ u.authority) (fresh' : slash ∉ u'.authority)
    (closed : u.trailingSlash = true → u.root ≠ [] → u.root.getLast? = some slash)
    (closed' : u'.trailingSlash = true → u'.root ≠ [] → u'.root.getLast? = some slash)
    (path : pathOnlyPath u = pathOnlyPath u') : u.authority = u'.authority ∧ u.root = u'.root := by
  rw [pathOnlyPath_eq fresh closed, pathOnlyPath_eq fresh' closed'] at path
  have hcut {a a' b b' : Bytes} (ha : slash ∉ a) (ha' : slash ∉ a')
      (h : a ++ slash :: b = a' ++ slash :: b') : a = a' ∧ b = b' := cut_unique ha ha' h
  have habsent {a a' b : Bytes} (ha : slash ∉ a) (h : a = a' ++ slash :: b) : False :=
    ha (h ▸ by simp)
  by_cases hroot : u.root = [] <;> by_cases hroot' : u'.root = [] <;>
    simp only [hroot, hroot', ne_eq, not_true_eq_false, not_false_eq_true, ↓reduceIte] at path ⊢
  · split_ifs at path
    · exact ⟨(hcut fresh fresh' path).1, trivial⟩
    · exact (habsent fresh' (by simpa using path.symm)).elim
    · exact (habsent fresh (by simpa using path)).elim
    · exact ⟨by simpa using path, trivial⟩
  · split_ifs at path
    · exact absurd (hcut fresh fresh' path).2.symm hroot'
    · exact (habsent fresh (by simpa using path)).elim
  · split_ifs at path
    · exact absurd (hcut fresh fresh' path).2 hroot
    · exact (habsent fresh' (by simpa using path.symm)).elim
  · exact hcut fresh fresh' path

end Layouts

section Addresses

def pathOnlySchemes : List Bytes := [bytes "memory", bytes "fs", bytes "vercel-artifacts"]

private theorem layout_scheme : ∀ e ∈ openDALPrefixes,
    (layoutOf e.scheme = .pathOnly → e.scheme ∈ pathOnlySchemes) ∧
    (layoutOf e.scheme = .repository → e.scheme = bytes "hf" ∨ e.scheme = bytes "huggingface") ∧
    (layoutOf e.scheme = .skipSegment → e.scheme = bytes "onedrive") ∧
    (layoutOf e.scheme = .rootOnly → isRootOnlyService e.scheme = true) ∧
    (e.scheme = bytes "http" → layoutOf e.scheme = .http) := by
  decide +kernel

variable [StringUtil]

private theorem accepted_plain {e : OpenDALPrefix} (member : e ∈ openDALPrefixes) {tail : Bytes}
    (noQuery : question ∉ tail) {r p : OpenDALPath}
    (accepted : OpenDALPath.tryParse (e.text ++ tail) r = (true, p)) :
    ∃ uri : OpenDALUri, uri.authority = authorityOf tail ∧
      uri.root = urlDecode (remainderOf tail) ∧ uri.query = [] ∧
      uri.trailingSlash = ((e.text ++ tail).getLast? == some slash) ∧
      p.scheme = e.scheme ∧ p.uriConfig = ((layoutOf e.scheme).mapping uri e.text ∅).1 ∧
      p.path = (layoutOf e.scheme).path uri := by
  rw [tryParse_cut member, cutOf_plain e.text noQuery] at accepted
  obtain rfl := (Prod.mk.inj accepted).2
  exact ⟨_, rfl, rfl, rfl, rfl, rfl, rfl, rfl⟩

private theorem closed_root
    (keepsSlash : ∀ s : Bytes, (urlDecode (s ++ [slash])).getLast? = some slash)
    (emptyStays : urlDecode [] = []) (front tail : Bytes)
    (trailing : (front ++ tail).getLast? = some slash)
    (nonempty : urlDecode (remainderOf tail) ≠ []) :
    (urlDecode (remainderOf tail)).getLast? = some slash := by
  have hrest : remainderOf tail ≠ [] := by
    intro hempty
    rw [hempty] at nonempty
    exact nonempty emptyStays
  have hlast : (remainderOf tail).getLast? = some slash := by
    have hsplit : front ++ tail =
        front ++ tail.take ((authorityOf tail).length + 1) ++ remainderOf tail := by
      rw [List.append_assoc, remainderOf, List.take_append_drop]
    rw [hsplit, List.getLast?_append_of_ne_nil _ hrest] at trailing
    exact trailing
  obtain ⟨s, hs⟩ := List.getLast?_eq_some_iff.mp hlast
  rw [hs]
  exact keepsSlash s

/-- Different URIs of one scheme that agree in configuration and object path differ at most in the
spelling of the prefix and in the encoding of the remainder. -/
theorem tryParse_injective
    (keepsSlash : ∀ s : Bytes, (urlDecode (s ++ [slash])).getLast? = some slash)
    {e₁ e₂ : OpenDALPrefix} (member₁ : e₁ ∈ openDALPrefixes) (member₂ : e₂ ∈ openDALPrefixes)
    {t₁ t₂ : Bytes} (noQuery₁ : question ∉ t₁) (noQuery₂ : question ∉ t₂)
    {r₁ r₂ p₁ p₂ : OpenDALPath}
    (accepted₁ : OpenDALPath.tryParse (e₁.text ++ t₁) r₁ = (true, p₁))
    (accepted₂ : OpenDALPath.tryParse (e₂.text ++ t₂) r₂ = (true, p₂))
    (scheme : p₁.scheme = p₂.scheme) (config : p₁.uriConfig.toFinmap = p₂.uriConfig.toFinmap)
    (path : p₁.path = p₂.path) (nonempty : p₁.path ≠ [])
    (notOnedrive : p₁.scheme ≠ bytes "onedrive")
    (notRootOnly : isRootOnlyService p₁.scheme = false)
    (kinds : p₁.scheme = bytes "hf" ∨ p₁.scheme = bytes "huggingface" →
      authorityOf t₁ ∈ [bytes "datasets", bytes "models", bytes "spaces"] ∧
      authorityOf t₂ ∈ [bytes "datasets", bytes "models", bytes "spaces"])
    (emptyStays : p₁.scheme ∈ pathOnlySchemes → urlDecode [] = []) :
    authorityOf t₁ = authorityOf t₂ ∧
      urlDecode (remainderOf t₁) = urlDecode (remainderOf t₂) ∧
      (p₁.scheme = bytes "http" → e₁.text = e₂.text) := by
  obtain ⟨u₁, ha₁, hr₁, hq₁, hs₁, hscheme₁, hconfig₁, hpath₁⟩ :=
    accepted_plain member₁ noQuery₁ accepted₁
  obtain ⟨u₂, ha₂, hr₂, hq₂, hs₂, hscheme₂, hconfig₂, hpath₂⟩ :=
    accepted_plain member₂ noQuery₂ accepted₂
  have hsame : e₂.scheme = e₁.scheme := by rw [← hscheme₁, ← hscheme₂, scheme]
  rw [hsame] at hconfig₂ hpath₂
  rw [hconfig₁, hconfig₂] at config
  rw [hpath₁, hpath₂] at path
  rw [hpath₁] at nonempty
  rw [hscheme₁] at notOnedrive notRootOnly kinds emptyStays ⊢
  rw [← ha₁, ← ha₂, ← hr₁, ← hr₂]
  have hdistinct := layoutOf_distinct e₁ member₁
  obtain ⟨hpathOnly, hrepository, hskip, hrootOnly, hhttp⟩ := layout_scheme e₁ member₁
  have notHttp {l : Layout} (hl : layoutOf e₁.scheme = l) (hne : l ≠ .http) :
      e₁.scheme = bytes "http" → e₁.text = e₂.text :=
    fun h => absurd (hl.symm.trans (hhttp h)) hne
  cases hl : layoutOf e₁.scheme with
  | http =>
    rw [hl] at config path hdistinct
    have hendpoint : e₁.text ++ u₁.authority = e₂.text ++ u₂.authority :=
      entry_value hdistinct config (k := bytes "endpoint") List.mem_cons_self List.mem_cons_self
    have hentry : e₁ = e₂ :=
      entry_unique member₁ member₂ (List.prefix_append _ _)
        (hendpoint.symm ▸ List.prefix_append _ _)
    rw [http_path_plain hq₁, http_path_plain hq₂] at path
    subst hentry
    exact ⟨List.append_cancel_left hendpoint, path, fun _ => rfl⟩
  | single key text =>
    rw [hl] at config path hdistinct
    have hauthority : text ++ u₁.authority = text ++ u₂.authority :=
      entry_value hdistinct config (k := key) List.mem_cons_self List.mem_cons_self
    exact ⟨List.append_cancel_left hauthority, path, notHttp hl (by simp)⟩
  | segments key text account keys =>
    rw [hl] at config path nonempty hdistinct
    obtain ⟨hauthority, hroot⟩ := segments_injective hdistinct config path nonempty
    exact ⟨hauthority, hroot, notHttp hl (by simp)⟩
  | skipSegment => exact absurd (hskip hl) notOnedrive
  | repository =>
    rw [hl] at config path nonempty
    obtain ⟨hkind₁, hkind₂⟩ := kinds (hrepository hl)
    obtain ⟨hauthority, hroot⟩ :=
      repository_injective config path nonempty (ha₁ ▸ hkind₁) (ha₂ ▸ hkind₂)
    exact ⟨hauthority, hroot, notHttp hl (by simp)⟩
  | rootOnly => simp [hrootOnly hl] at notRootOnly
  | pathOnly =>
    rw [hl] at path
    have hempty := emptyStays (hpathOnly hl)
    have hclosed {u : OpenDALUri} {front tail : Bytes}
        (hroot : u.root = urlDecode (remainderOf tail))
        (htrailing : u.trailingSlash = ((front ++ tail).getLast? == some slash)) :
        u.trailingSlash = true → u.root ≠ [] → u.root.getLast? = some slash := by
      intro h hne
      rw [htrailing, beq_iff_eq] at h
      rw [hroot] at hne ⊢
      exact closed_root keepsSlash hempty front tail h hne
    have hfresh {u : OpenDALUri} {tail : Bytes} (ha : u.authority = authorityOf tail) :
        slash ∉ u.authority := ha ▸ not_mem_beforeFirst slash tail
    obtain ⟨hauthority, hroot⟩ :=
      pathOnly_injective (hfresh ha₁) (hfresh ha₂) (hclosed hr₁ hs₁) (hclosed hr₂ hs₂) path
    exact ⟨hauthority, hroot, notHttp hl (by simp)⟩

end Addresses

theorem tryParse_injective_azdls :
    letI : StringUtil := percentDecoding
    authorityOf (bytes "acct.host/fs/a%2Fb") = authorityOf (bytes "acct.host/fs/a/b") ∧
      urlDecode (remainderOf (bytes "acct.host/fs/a%2Fb")) =
        urlDecode (remainderOf (bytes "acct.host/fs/a/b")) ∧
      (bytes "azdls" = bytes "http" → bytes "abfss://" = bytes "azdls://") := by
  let _ : StringUtil := percentDecoding
  let e₁ : OpenDALPrefix := ⟨bytes "abfss://", bytes "azdls", .azdls⟩
  let e₂ : OpenDALPrefix := ⟨bytes "azdls://", bytes "azdls", .azdls⟩
  have hkeeps (s : Bytes) : (urlDecode (s ++ [slash])).getLast? = some slash := by
    change (PercentEncoding.decode (s ++ [slash])).getLast? = some slash
    rw [PercentEncoding.decode_append_singleton s (by decide), List.getLast?_concat]
  have haccepted₁ : OpenDALPath.tryParse (e₁.text ++ bytes "acct.host/fs/a%2Fb") {} =
      (true, (OpenDALPath.tryParse (bytes "abfss://acct.host/fs/a%2Fb") {}).2) :=
    Prod.ext (by decide +kernel) rfl
  have haccepted₂ : OpenDALPath.tryParse (e₂.text ++ bytes "acct.host/fs/a/b") {} =
      (true, (OpenDALPath.tryParse (bytes "azdls://acct.host/fs/a/b") {}).2) :=
    Prod.ext (by decide +kernel) rfl
  exact tryParse_injective hkeeps (by decide : e₁ ∈ openDALPrefixes) (by decide) (by decide)
    (by decide) haccepted₁ haccepted₂ (by decide +kernel) (by decide +kernel) (by decide +kernel)
    (by decide +kernel) (by decide +kernel) (by decide +kernel) (by decide +kernel)
    (by decide +kernel)

section EmptyText

def markEnd : Bytes → Bytes
  | [] => bytes "x"
  | c :: s =>
    if c = slash then slash :: markEnd s
    else if c :: s = bytes "y" then bytes "/x" else c :: s

@[reducible] def markingDecoding : StringUtil := ⟨fun s => (markEnd s.reverse).reverse⟩

/-- Keeping final slashes is not enough: a decoder that does not keep the empty text empty lets
two URIs of different decoded remainders name one object. -/
theorem tryParse_not_injective :
    letI : StringUtil := markingDecoding
    let first := OpenDALPath.tryParse (bytes "memory://a/") {}
    let second := OpenDALPath.tryParse (bytes "memory://a/y") {}
    (∀ s : Bytes, urlDecode (s ++ [slash]) = urlDecode s ++ [slash]) ∧
      question ∉ bytes "memory://a/" ∧ question ∉ bytes "memory://a/y" ∧
      first.1 = true ∧ second.1 = true ∧ first.2.scheme = second.2.scheme ∧
      first.2.uriConfig.toFinmap = second.2.uriConfig.toFinmap ∧
      first.2.path = second.2.path ∧ first.2.path ≠ [] ∧
      urlDecode (remainderOf (bytes "a/")) ≠ urlDecode (remainderOf (bytes "a/y")) := by
  refine ⟨fun s => ?_, by decide +kernel⟩
  change (markEnd (s ++ [slash]).reverse).reverse = (markEnd s.reverse).reverse ++ [slash]
  simp [markEnd]

end EmptyText

end DuckdbOpendalfs.Address.Injectivity
