/- DuckdbOpendalfs/Address/QueryIndependence
   digest: When a query leaves the addressed object as it is, for every scheme but HTTP. -/

import DuckdbOpendalfs.Address.PathOnly

set_option autoImplicit false
set_option relaxedAutoImplicit false

namespace DuckdbOpendalfs.Address.QueryIndependence

open Text.ByteString
open Prefixes Uri ParseSpec Layouts Injectivity PathOnly
open StringUtil (urlDecode)

/-- Two parsed paths address one object. -/
structure SameObject (p p' : OpenDALPath) : Prop where
  scheme : p'.scheme = p.scheme
  config : p'.uriConfig.toFinmap = p.uriConfig.toFinmap
  path : p'.path = p.path

theorem sameObject_iff {p p' : OpenDALPath} (scheme : p'.scheme = p.scheme) :
    SameObject p p' ↔ p'.uriConfig.toFinmap = p.uriConfig.toFinmap ∧ p'.path = p.path :=
  ⟨fun h => ⟨h.config, h.path⟩, fun h => ⟨scheme, h.1, h.2⟩⟩

section Directories

def closeWith (path : Bytes) (trailing : Bool) : Bytes :=
  if trailing && !path.isEmpty && path.getLast? != some slash then path ++ [slash] else path

def joinRoot (authority root : Bytes) : Bytes :=
  if root.isEmpty then authority else authority ++ (bytes "/" ++ root)

theorem pathOnlyPath_eq_closeWith (uri : OpenDALUri) :
    pathOnlyPath uri = closeWith (joinRoot uri.authority uri.root) uri.trailingSlash := rfl

theorem joinRoot_eq_nil {authority root : Bytes} :
    joinRoot authority root = [] ↔ authority = [] ∧ root = [] := by
  unfold joinRoot
  cases root <;> simp [bytes]

theorem joinRoot_getLast? {authority root : Bytes} (fresh : slash ∉ authority) :
    (joinRoot authority root).getLast? = some slash ↔ root.getLast? = some slash := by
  unfold joinRoot
  cases root with
  | nil =>
    refine iff_of_false (fun h => ?_) (by simp)
    exact fresh (List.mem_of_getLast? h)
  | cons b root =>
    rw [if_neg (by simp), List.getLast?_append_of_ne_nil _ (by simp),
      List.getLast?_append_of_ne_nil _ (by simp)]

theorem closeWith_iff (path : Bytes) (trailing trailing' : Bool) :
    (closeWith path trailing' = closeWith path trailing ∧
        ((closeWith path trailing').getLast? = some slash ↔ trailing = true)) ↔
      (path = [] → trailing = false) ∧ (path.getLast? = some slash → trailing = true) ∧
        (path ≠ [] → path.getLast? ≠ some slash → (trailing = true ↔ trailing' = true)) := by
  by_cases hnil : path = []
  · subst hnil
    cases trailing <;> cases trailing' <;> simp [closeWith]
  by_cases hlast : path.getLast? = some slash
  · cases trailing <;> cases trailing' <;> simp [closeWith, hnil, hlast]
  · cases trailing <;> cases trailing' <;> simp [closeWith, hnil, hlast]

end Directories

section Layouts

variable {u u' : OpenDALUri} (front : Bytes)

theorem mapping_congr {layout : Layout} (notHttp : layout ≠ .http) (notPathOnly : layout ≠ .pathOnly)
    (authority : u'.authority = u.authority) (root : u'.root = u.root) (config : StringMap) :
    layout.mapping u' front config = layout.mapping u front config := by
  cases layout with
  | http => exact absurd rfl notHttp
  | pathOnly => exact absurd rfl notPathOnly
  | single | segments | repository | skipSegment | rootOnly =>
    simp only [Layout.mapping, Layout.entries, Layout.path, authority, root]

/-- What a query does to a URI without a slash behind the prefix: the authority takes it in. -/
def BareKept (layout : Layout) (authority root root' : Bytes) : Prop :=
  match layout with
  | .rootOnly => root' = root
  | .skipSegment => (takeSegment root').2 = (takeSegment root).2
  | .repository =>
    authority ≠ bytes "datasets" ∧ authority ≠ bytes "spaces" ∧
      takeSegments 2 root' = takeSegments 2 root
  | .http | .single _ _ | .segments _ _ _ _ | .pathOnly => False

theorem repoType_model_iff (authority : Bytes) :
    repoType authority = bytes "model" ↔
      authority ≠ bytes "datasets" ∧ authority ≠ bytes "spaces" := by
  by_cases hdatasets : authority = bytes "datasets"
  · subst hdatasets
    decide
  by_cases hspaces : authority = bytes "spaces"
  · subst hspaces
    decide
  · simp [repoType, hdatasets, hspaces]

private theorem repository_bare_iff {q : Bytes}
    (longer : u'.authority = u.authority ++ question :: q) :
    ((Layout.repository.mapping u' front ∅).1.toFinmap =
        (Layout.repository.mapping u front ∅).1.toFinmap ∧
      Layout.repository.path u' = Layout.repository.path u) ↔
      BareKept .repository u.authority u.root u'.root := by
  have hmodel : repoType u'.authority = bytes "model" := by
    have hmem : question ∈ u'.authority := by simp [longer]
    rw [repoType_model_iff]
    constructor <;> intro heq <;> rw [heq] at hmem <;> revert hmem <;> decide
  change _ ↔ u.authority ≠ _ ∧ u.authority ≠ _ ∧ _
  rw [← and_assoc, ← repoType_model_iff]
  constructor
  · rintro ⟨hconfig, hpath⟩
    obtain ⟨htype, hsegments⟩ := repository_config_injective hconfig
    exact ⟨htype.symm.trans hmodel, Prod.ext hsegments hpath⟩
  · rintro ⟨htype, hcut⟩
    have hentries : Layout.repository.entries u' front = Layout.repository.entries u front := by
      simp only [Layout.entries, hcut, hmodel, htype]
    refine ⟨?_, congrArg Prod.snd hcut⟩
    rw [Layout.mapping, Layout.mapping, hentries]

theorem pathOnlyPath_authority (uri : OpenDALUri) :
    ∃ back, pathOnlyPath uri = uri.authority ++ back ∧ (back = [] ∨ back.head? = some slash) := by
  rw [pathOnlyPath_eq_closeWith]
  have hjoin : ∃ back, joinRoot uri.authority uri.root = uri.authority ++ back ∧
      (back = [] ∨ back.head? = some slash) := by
    unfold joinRoot
    split
    · exact ⟨[], (List.append_nil _).symm, Or.inl rfl⟩
    · exact ⟨_, rfl, Or.inr rfl⟩
  obtain ⟨back, hback, hhead⟩ := hjoin
  unfold closeWith
  split
  · rw [hback]
    refine ⟨back ++ [slash], List.append_assoc _ _ _, Or.inr ?_⟩
    rcases hhead with rfl | hhead
    · rfl
    · rw [List.head?_append, hhead, Option.some_or]
  · exact ⟨back, hback, hhead⟩

theorem bare_iff {layout : Layout} (distinct : layout.Distinct) (notHttp : layout ≠ .http)
    {q : Bytes} (longer : u'.authority = u.authority ++ question :: q) :
    ((layout.mapping u' front ∅).1.toFinmap = (layout.mapping u front ∅).1.toFinmap ∧
      layout.path u' = layout.path u) ↔ BareKept layout u.authority u.root u'.root := by
  have hlonger (text : Bytes) : text ++ u'.authority ≠ text ++ u.authority := by
    intro heq
    have hlength := congrArg List.length (List.append_cancel_left heq)
    simp only [longer, List.length_append, List.length_cons] at hlength
    omega
  cases layout with
  | http => exact absurd rfl notHttp
  | single key text =>
    refine iff_of_false (fun h => ?_) id
    exact hlonger text (entry_value distinct h.1 (k := key) List.mem_cons_self List.mem_cons_self)
  | segments key text account keys =>
    refine iff_of_false (fun h => ?_) id
    exact hlonger text (entry_value distinct h.1 (k := key) List.mem_cons_self List.mem_cons_self)
  | skipSegment => exact ⟨fun h => h.2, fun h => ⟨rfl, h⟩⟩
  | repository => exact repository_bare_iff front longer
  | rootOnly => exact ⟨fun h => h.2, fun h => ⟨rfl, h⟩⟩
  | pathOnly =>
    refine iff_of_false (fun h => ?_) id
    have hpath : pathOnlyPath u' = pathOnlyPath u := h.2
    obtain ⟨back, hback, hhead⟩ := pathOnlyPath_authority u
    obtain ⟨back', hback', -⟩ := pathOnlyPath_authority u'
    rw [hback, hback', longer, List.append_assoc, List.append_cancel_left_eq] at hpath
    rw [← hpath] at hhead
    rcases hhead with hnil | hslash
    · cases hnil
    · exact absurd (Option.some.inj hslash) (by decide)

end Layouts

section Queries

private theorem layoutOf_http : ∀ e ∈ openDALPrefixes,
    layoutOf e.scheme = .http → e.scheme = bytes "http" := by
  decide +kernel

private theorem getLast?_query_slash (q : Bytes) :
    ((question :: q).getLast? == some slash) = (q.getLast? == some slash) := by
  cases q with
  | nil => decide
  | cons b q => rw [List.getLast?_cons_cons]

variable [StringUtil]

/-- A query keeps a path-only object, and its final slash means a directory, where both ends of the
URI agree or where the decoded path needs no repair. -/
def DirectoryKept (tail q : Bytes) : Prop :=
  let authority := authorityOf tail
  let root := urlDecode (remainderOf tail)
  (authority = [] ∧ root = [] → tail.getLast? ≠ some slash) ∧
    (root.getLast? = some slash → tail.getLast? = some slash) ∧
    (¬ (authority = [] ∧ root = []) → root.getLast? ≠ some slash →
      (tail.getLast? = some slash ↔ q.getLast? = some slash))

/-- The queries that leave the object as it is. Behind a slash only the final slash of a path-only
URI can go wrong; without one the query up to its own first slash joins the authority, and what
stands behind that slash becomes the root. -/
def QueryHarmless (entry : OpenDALPrefix) (tail q : Bytes) : Prop :=
  if slash ∈ tail then entry.scheme ∈ pathOnlySchemes → DirectoryKept tail q
  else
    BareKept (layoutOf entry.scheme) tail (urlDecode [])
      (urlDecode (beforeFirst question (remainderOf q)))

private theorem kept_iff {entry : OpenDALPrefix} (member : entry ∈ openDALPrefixes)
    (notHttp : entry.scheme ≠ bytes "http") {tail q : Bytes} {u u' : OpenDALUri}
    (authority : u.authority = authorityOf tail)
    (authority' : u'.authority = authorityOf tail) (root : u.root = urlDecode (remainderOf tail))
    (root' : u'.root = urlDecode (remainderOf tail))
    (trailing : u.trailingSlash = (tail.getLast? == some slash))
    (trailing' : u'.trailingSlash = (q.getLast? == some slash)) :
    (((layoutOf entry.scheme).mapping u' entry.text ∅).1.toFinmap =
        ((layoutOf entry.scheme).mapping u entry.text ∅).1.toFinmap ∧
      (layoutOf entry.scheme).path u' = (layoutOf entry.scheme).path u) ∧
      (entry.scheme ∈ pathOnlySchemes →
        (((layoutOf entry.scheme).path u').getLast? = some slash ↔ tail.getLast? = some slash)) ↔
      (entry.scheme ∈ pathOnlySchemes → DirectoryKept tail q) := by
  by_cases hpathOnly : entry.scheme ∈ pathOnlySchemes
  · have hlayout := (layoutOf_pathOnly_iff entry member).mpr hpathOnly
    have hfresh : slash ∉ authorityOf tail := not_mem_beforeFirst slash tail
    have hclose := closeWith_iff (joinRoot (authorityOf tail) (urlDecode (remainderOf tail)))
      u.trailingSlash u'.trailingSlash
    have hpath : Layout.pathOnly.path u = closeWith (joinRoot (authorityOf tail)
        (urlDecode (remainderOf tail))) u.trailingSlash := by
      rw [← authority, ← root]
      rfl
    have hpath' : Layout.pathOnly.path u' = closeWith (joinRoot (authorityOf tail)
        (urlDecode (remainderOf tail))) u'.trailingSlash := by
      rw [← authority', ← root']
      rfl
    rw [← hpath, ← hpath', trailing, trailing'] at hclose
    simp only [joinRoot_getLast? hfresh, joinRoot_eq_nil, beq_iff_eq, beq_eq_false_iff_ne, ne_eq]
      at hclose
    simp only [hlayout, hpathOnly, forall_const, DirectoryKept, ne_eq]
    rw [← hclose]
    exact ⟨fun h => ⟨h.1.2, h.2⟩, fun h => ⟨⟨rfl, h.1⟩, h.2⟩⟩
  · have hlayout : layoutOf entry.scheme ≠ .pathOnly :=
      fun h => hpathOnly ((layoutOf_pathOnly_iff entry member).mp h)
    have hhttp : layoutOf entry.scheme ≠ .http := fun h => notHttp (layoutOf_http entry member h)
    have hmapping := mapping_congr entry.text hhttp hlayout
      (authority'.trans authority.symm) (root'.trans root.symm) ∅
    refine iff_of_true ⟨⟨?_, congrArg Prod.snd hmapping⟩, fun h => absurd h hpathOnly⟩
      fun h => absurd h hpathOnly
    rw [hmapping]

private theorem cutOf_query_slash (front : Bytes) {tail : Bytes} (hslash : slash ∈ tail)
    (noQuery : question ∉ tail) (q : Bytes) :
    (cutOf front (tail ++ question :: q)).authority = authorityOf tail ∧
      (cutOf front (tail ++ question :: q)).root = urlDecode (remainderOf tail) ∧
      (cutOf front (tail ++ question :: q)).trailingSlash = (q.getLast? == some slash) := by
  obtain ⟨hauthority, hremainder⟩ := cut_append hslash (question :: q)
  have hfresh : question ∉ remainderOf tail := fun h => noQuery (mem_of_mem_remainderOf h)
  have hlast : (front ++ (tail ++ question :: q)).getLast? = (question :: q).getLast? := by
    rw [← List.append_assoc, List.getLast?_append_of_ne_nil _ (List.cons_ne_nil _ _)]
  refine ⟨hauthority, ?_, ?_⟩
  · rw [cutOf, hremainder, beforeFirst_append_cons q hfresh]
  · rw [cutOf, hlast, getLast?_query_slash]

private theorem cutOf_query_bare (front : Bytes) {tail : Bytes} (bare : slash ∉ tail) (q : Bytes) :
    (cutOf front (tail ++ question :: q)).authority = tail ++ question :: authorityOf q ∧
      (cutOf front (tail ++ question :: q)).root =
        urlDecode (beforeFirst question (remainderOf q)) := by
  have hfresh : slash ∉ tail ++ [question] := by
    rw [List.mem_append, List.mem_singleton, not_or]
    exact ⟨bare, by decide⟩
  have hsplit : tail ++ question :: q = (tail ++ [question]) ++ q := by simp
  constructor
  · rw [cutOf, hsplit, authorityOf_append hfresh]
    simp
  · rw [cutOf, hsplit, remainderOf_append hfresh]

/-- A query leaves the addressed object as it is exactly when it is harmless. -/
theorem tryParse_query_iff {entry : OpenDALPrefix} (member : entry ∈ openDALPrefixes)
    (notHttp : entry.scheme ≠ bytes "http") {tail : Bytes} (noQuery : question ∉ tail) (q : Bytes)
    (r r' : OpenDALPath) :
    ∃ p p', OpenDALPath.tryParse (entry.text ++ tail) r = (true, p) ∧
      OpenDALPath.tryParse (entry.text ++ (tail ++ question :: q)) r' = (true, p') ∧
      ((SameObject p p' ∧ (entry.scheme ∈ pathOnlySchemes →
          (p'.path.getLast? = some slash ↔ (entry.text ++ tail).getLast? = some slash))) ↔
        QueryHarmless entry tail q) := by
  refine ⟨_, _, tryParse_cut member tail r, tryParse_cut member _ r', ?_⟩
  rw [sameObject_iff (by rfl)]
  unfold QueryHarmless
  by_cases hslash : slash ∈ tail
  · rw [if_pos hslash]
    obtain ⟨hauthority, hroot, htrailing⟩ := cutOf_query_slash entry.text hslash noQuery q
    have hplain := cutOf_plain entry.text noQuery
    have hlast : (entry.text ++ tail).getLast? = tail.getLast? :=
      List.getLast?_append_of_ne_nil _ (List.ne_nil_of_mem hslash)
    rw [hlast] at hplain ⊢
    exact kept_iff member notHttp rfl hauthority (congrArg OpenDALUri.root hplain) hroot
      (congrArg OpenDALUri.trailingSlash hplain) htrailing
  · rw [if_neg hslash]
    obtain ⟨hauthority, hroot⟩ := cutOf_query_bare entry.text hslash q
    have hbefore : (cutOf entry.text tail).authority = tail := authorityOf_eq_self hslash
    have hempty : (cutOf entry.text tail).root = urlDecode [] := by
      rw [cutOf, remainderOf_eq_nil hslash]
      rfl
    have hbare := bare_iff entry.text (layoutOf_distinct entry member)
      (fun h => notHttp (layoutOf_http entry member h)) (hbefore.symm ▸ hauthority)
    rw [hbefore, hempty, hroot] at hbare
    rw [hbare, and_iff_left_iff_imp]
    intro hkept hpathOnly
    rw [(layoutOf_pathOnly_iff entry member).mpr hpathOnly] at hkept
    exact hkept.elim

end Queries

theorem tryParse_query_file :
    letI : StringUtil := percentDecoding
    ∃ p p', OpenDALPath.tryParse (bytes "gs://bucket/dir/f%20g") {} = (true, p) ∧
      OpenDALPath.tryParse (bytes "gs://bucket/dir/f%20g?v=a/b/") {} = (true, p') ∧
      SameObject p p' := by
  let _ : StringUtil := percentDecoding
  let entry : OpenDALPrefix := ⟨bytes "gs://", bytes "gcs", .gcs⟩
  have hmember : entry ∈ openDALPrefixes := by decide
  have hnone : question ∉ bytes "bucket/dir/f%20g" := by decide
  obtain ⟨p, p', hplain, hquery, hiff⟩ :=
    tryParse_query_iff hmember (by decide) hnone (bytes "v=a/b/") {} {}
  have hharmless : QueryHarmless entry (bytes "bucket/dir/f%20g") (bytes "v=a/b/") := by
    rw [QueryHarmless, if_pos (by decide)]
    exact fun h => absurd h (by decide)
  exact ⟨p, p', hplain, hquery, (hiff.mpr hharmless).1⟩

/-- A query behind a directory makes a file of it, and a query behind a bucket names another one. -/
theorem tryParse_query_diverts :
    letI : StringUtil := percentDecoding
    let directory := OpenDALPath.tryParse (bytes "memory://dir/") {}
    let queried := OpenDALPath.tryParse (bytes "memory://dir/?v=1") {}
    let bucket := OpenDALPath.tryParse (bytes "s3://bucket") {}
    let other := OpenDALPath.tryParse (bytes "s3://bucket?v=1") {}
    directory.1 = true ∧ queried.1 = true ∧ bucket.1 = true ∧ other.1 = true ∧
      directory.2.path = bytes "dir/" ∧ queried.2.path = bytes "dir" ∧
      bucket.2.uriConfig.toFinmap ≠ other.2.uriConfig.toFinmap := by
  decide +kernel

end DuckdbOpendalfs.Address.QueryIndependence
