/- DuckdbOpendalfs/Address/Layouts
   digest: The shapes of backend addresses, and the URI mapping as an instance of them. -/

import DuckdbOpendalfs.Address.ParseSpec

set_option autoImplicit false
set_option relaxedAutoImplicit false

namespace DuckdbOpendalfs.Address.Layouts

open Text.ByteString
open Prefixes Uri ParseSpec

section Maps

def insertAll (m : StringMap) (entries : List (Bytes × Bytes)) : StringMap :=
  entries.foldl (fun m entry => m.insert entry.1 entry.2) m

@[simp] theorem insertAll_nil (m : StringMap) : insertAll m [] = m := rfl

@[simp] theorem insertAll_cons (m : StringMap) (entry : Bytes × Bytes)
    (entries : List (Bytes × Bytes)) :
    insertAll m (entry :: entries) = insertAll (m.insert entry.1 entry.2) entries := rfl

theorem lookup_insertAll_of_not_mem {m : StringMap} {entries : List (Bytes × Bytes)} {k : Bytes}
    (fresh : k ∉ entries.map Prod.fst) : (insertAll m entries).lookup k = m.lookup k := by
  induction entries generalizing m with
  | nil => rfl
  | cons entry entries ih =>
    simp only [List.map_cons, List.mem_cons, not_or] at fresh
    rw [insertAll_cons, ih fresh.2, AList.lookup_insert_ne fresh.1]

theorem lookup_insertAll_of_mem {m : StringMap} {entries : List (Bytes × Bytes)}
    (distinct : (entries.map Prod.fst).Nodup) {k v : Bytes} (member : (k, v) ∈ entries) :
    (insertAll m entries).lookup k = some v := by
  induction entries generalizing m with
  | nil => simp at member
  | cons entry entries ih =>
    simp only [List.map_cons, List.nodup_cons] at distinct
    rw [insertAll_cons]
    rcases List.mem_cons.mp member with rfl | hmem
    · rw [lookup_insertAll_of_not_mem distinct.1, AList.lookup_insert]
    · exact ih distinct.2 hmem

theorem lookup_eq_of_toFinmap_eq {m m' : StringMap} (h : m.toFinmap = m'.toFinmap) (k : Bytes) :
    m.lookup k = m'.lookup k :=
  AList.perm_lookup (AList.toFinmap_eq.mp h)

theorem zip_values_unique (f : Bytes → Option Bytes) {keys values values' : List Bytes}
    (length : values.length = keys.length) (length' : values'.length = keys.length)
    (h : ∀ item ∈ keys.zip values, f item.1 = some item.2)
    (h' : ∀ item ∈ keys.zip values', f item.1 = some item.2) : values = values' := by
  induction keys generalizing values values' with
  | nil => rw [List.length_eq_zero_iff.mp length, List.length_eq_zero_iff.mp length']
  | cons key keys ih =>
    obtain ⟨v, vs, rfl⟩ := List.exists_cons_of_length_eq_add_one length
    obtain ⟨v', vs', rfl⟩ := List.exists_cons_of_length_eq_add_one length'
    have hv : f key = some v := h (key, v) List.mem_cons_self
    have hv' : f key = some v' := h' (key, v') List.mem_cons_self
    have htail := ih (Nat.succ.inj length) (Nat.succ.inj length')
      (fun item hitem => h item (List.mem_cons_of_mem _ hitem))
      (fun item hitem => h' item (List.mem_cons_of_mem _ hitem))
    rw [Option.some.inj (hv.symm.trans hv'), htail]

end Maps

section Segments

def takeSegments : Nat → Bytes → List Bytes × Bytes
  | 0, path => ([], path)
  | n + 1, path =>
    let (segment, path) := takeSegment path
    let (segments, path) := takeSegments n path
    (segment :: segments, path)

theorem takeSegments_two (path : Bytes) :
    takeSegments 2 path =
      ([(takeSegment path).1, (takeSegment (takeSegment path).2).1],
        (takeSegment (takeSegment path).2).2) := rfl

def joinSegments (segments : List Bytes) (path : Bytes) : Bytes :=
  segments.foldr (fun segment rest => segment ++ slash :: rest) path

@[simp] theorem joinSegments_nil (path : Bytes) : joinSegments [] path = path := rfl

@[simp] theorem joinSegments_cons (segment : Bytes) (segments : List Bytes) (path : Bytes) :
    joinSegments (segment :: segments) path = segment ++ slash :: joinSegments segments path := rfl

@[simp] theorem takeSegments_length (n : Nat) (path : Bytes) :
    (takeSegments n path).1.length = n := by
  induction n generalizing path with
  | zero => rfl
  | succ n ih => simp [takeSegments, ih]

theorem slash_not_mem_takeSegments (n : Nat) (path : Bytes) :
    ∀ segment ∈ (takeSegments n path).1, slash ∉ segment := by
  induction n generalizing path with
  | zero => simp [takeSegments]
  | succ n ih =>
    intro segment hmem
    simp only [takeSegments, List.mem_cons] at hmem
    rcases hmem with rfl | hmem
    · exact slash_not_mem_takeSegment path
    · exact ih _ segment hmem

theorem takeSegments_join {segments : List Bytes} (path : Bytes)
    (plain : ∀ segment ∈ segments, slash ∉ segment) :
    takeSegments segments.length (joinSegments segments path) = (segments, path) := by
  induction segments with
  | nil => rfl
  | cons segment segments ih =>
    have hhead : slash ∉ segment := plain segment List.mem_cons_self
    have htail := ih fun s hs => plain s (List.mem_cons_of_mem segment hs)
    simp [takeSegments, takeSegment_append_cons _ hhead, htail]

theorem join_takeSegments (n : Nat) (path : Bytes) (rest : (takeSegments n path).2 ≠ []) :
    joinSegments (takeSegments n path).1 (takeSegments n path).2 = path := by
  induction n generalizing path with
  | zero => rfl
  | succ n ih =>
    simp only [takeSegments] at rest ⊢
    have htail := ih (takeSegment path).2 rest
    rw [joinSegments_cons, htail]
    refine (takeSegment_join ?_).symm
    intro hempty
    rw [hempty] at rest
    exact rest (by clear rest htail ih hempty; induction n <;> simp_all [takeSegments])

theorem joinSegments_append (segments : List Bytes) (path back : Bytes) :
    joinSegments segments (path ++ back) = joinSegments segments path ++ back := by
  induction segments with
  | nil => rfl
  | cons segment segments ih => simp [ih]

theorem takeSegments_append {n : Nat} {path : Bytes} (rest : (takeSegments n path).2 ≠ [])
    (back : Bytes) :
    takeSegments n (path ++ back) = ((takeSegments n path).1, (takeSegments n path).2 ++ back) := by
  have hcut := takeSegments_join ((takeSegments n path).2 ++ back)
    (slash_not_mem_takeSegments n path)
  rwa [joinSegments_append, join_takeSegments n path rest, takeSegments_length] at hcut

theorem takeSegments_suffix (n : Nat) (path : Bytes) : (takeSegments n path).2 <:+ path := by
  induction n generalizing path with
  | zero => exact List.suffix_refl path
  | succ n ih =>
    have hsegment : (takeSegment path).2 <:+ path := by
      unfold takeSegment
      split
      · exact List.nil_suffix
      · exact List.drop_suffix _ _
    exact (ih (takeSegment path).2).trans hsegment

def cutRevision (segment : Bytes) : Bytes × Option Bytes :=
  match find atSign segment with
  | none => (segment, none)
  | some i => (segment.take i, some (segment.drop (i + 1)))

theorem cutRevision_none {repo : Bytes} (fresh : atSign ∉ repo) :
    cutRevision repo = (repo, none) := by
  simp [cutRevision, find_eq_none.mpr fresh]

theorem cutRevision_some {repo : Bytes} (revision : Bytes) (fresh : atSign ∉ repo) :
    cutRevision (repo ++ atSign :: revision) = (repo, some revision) := by
  simp [cutRevision, fresh]

theorem cutRevision_injective : Function.Injective cutRevision := by
  intro s t h
  by_cases hs : atSign ∈ s <;> by_cases ht : atSign ∈ t
  · obtain ⟨a, b, rfl, ha⟩ := List.eq_append_cons_of_mem hs
    obtain ⟨a', b', rfl, ha'⟩ := List.eq_append_cons_of_mem ht
    rw [cutRevision_some b ha, cutRevision_some b' ha'] at h
    simp_all
  · obtain ⟨a, b, rfl, ha⟩ := List.eq_append_cons_of_mem hs
    simp [cutRevision_some b ha, cutRevision_none ht] at h
  · obtain ⟨a', b', rfl, ha'⟩ := List.eq_append_cons_of_mem ht
    simp [cutRevision_some b' ha', cutRevision_none hs] at h
  · rw [cutRevision_none hs, cutRevision_none ht] at h
    exact (Prod.mk.inj h).1

end Segments

/-- How a backend reads the parts of a URI. -/
inductive Layout
  /-- The endpoint is the prefix with the authority; GitHub pages are rewritten. -/
  | http
  /-- One entry, the authority behind a fixed text. -/
  | single (key front : Bytes)
  /-- One entry for the authority, the account name where asked for, then one for each segment. -/
  | segments (key front : Bytes) (account : Bool) (keys : List Bytes)
  /-- The first segment is dropped. -/
  | skipSegment
  /-- The kind of repository, then owner and repository with an optional revision. -/
  | repository
  /-- The authority is ignored. -/
  | rootOnly
  /-- The authority is the first part of the path. -/
  | pathOnly
  deriving DecidableEq

/-- The layout of each scheme. -/
def layoutOf (scheme : Bytes) : Layout :=
  if scheme == bytes "http" then .http
  else if isBucketService scheme then .single (bytes "bucket") []
  else if scheme == bytes "azblob" then .single (bytes "container") []
  else if scheme == bytes "aliyun-drive" then .single (bytes "drive_type") []
  else if scheme == bytes "dbfs" || scheme == bytes "pcloud" || scheme == bytes "webdav" then
    .single (bytes "endpoint") (bytes "https://")
  else if scheme == bytes "ftp" then .single (bytes "endpoint") (bytes "ftp://")
  else if scheme == bytes "ipfs" then .single (bytes "endpoint") (bytes "http://")
  else if scheme == bytes "sftp" then .single (bytes "endpoint") []
  else if scheme == bytes "azdls" || scheme == bytes "azfile" then
    .segments (bytes "endpoint") (bytes "https://") true
      [if scheme == bytes "azdls" then bytes "filesystem" else bytes "share_name"]
  else if scheme == bytes "github" then .segments (bytes "owner") [] false [bytes "repo"]
  else if scheme == bytes "koofr" then
    .segments (bytes "endpoint") (bytes "https://") false [bytes "email"]
  else if scheme == bytes "lakefs" then
    .segments (bytes "endpoint") (bytes "https://") false [bytes "repository", bytes "branch"]
  else if scheme == bytes "seafile" then
    .segments (bytes "endpoint") (bytes "https://") false [bytes "repo_name"]
  else if scheme == bytes "swift" then
    .segments (bytes "endpoint") (bytes "https://") false [bytes "container"]
  else if scheme == bytes "onedrive" then .skipSegment
  else if scheme == bytes "hf" || scheme == bytes "huggingface" then .repository
  else if isRootOnlyService scheme then .rootOnly
  else .pathOnly

def accountEntries (account : Bool) (authority : Bytes) : List (Bytes × Bytes) :=
  if account then [(bytes "account_name", beforeFirst dot authority)] else []

def repoType (authority : Bytes) : Bytes :=
  if authority == bytes "datasets" then bytes "dataset"
  else if authority == bytes "spaces" then bytes "space" else bytes "model"

def revisionEntries (revision : Option Bytes) : List (Bytes × Bytes) :=
  revision.toList.map fun r => (bytes "revision", r)

def pathOnlyPath (uri : OpenDALUri) : Bytes :=
  let path := if uri.root.isEmpty then uri.authority else uri.authority ++ (bytes "/" ++ uri.root)
  if uri.trailingSlash && !path.isEmpty && path.getLast? != some slash then path ++ [slash] else path

def Layout.entries (layout : Layout) (uri : OpenDALUri) (front : Bytes) : List (Bytes × Bytes) :=
  match layout with
  | .http => [(bytes "endpoint", front ++ uri.authority)]
  | .single key text => [(key, text ++ uri.authority)]
  | .segments key text account keys =>
    (key, text ++ uri.authority) :: accountEntries account uri.authority ++
      keys.zip (takeSegments keys.length uri.root).1
  | .repository =>
    let cut := takeSegments 2 uri.root
    let (repo, revision) := cutRevision (cut.1.getD 1 [])
    (bytes "repo_type", repoType uri.authority) :: revisionEntries revision ++
      [(bytes "repo_id", cut.1.getD 0 [] ++ bytes "/" ++ repo)]
  | .skipSegment | .rootOnly | .pathOnly => []

def Layout.path (layout : Layout) (uri : OpenDALUri) : Bytes :=
  match layout with
  | .http => if uri.isGithubRaw then rewriteBlob uri.root else uri.root
  | .single _ _ | .rootOnly => uri.root
  | .segments _ _ _ keys => (takeSegments keys.length uri.root).2
  | .skipSegment => (takeSegments 1 uri.root).2
  | .repository => (takeSegments 2 uri.root).2
  | .pathOnly => pathOnlyPath uri

theorem http_path_plain {uri : OpenDALUri} (noQuery : uri.query = []) :
    Layout.http.path uri = uri.root := by
  have hquery : (([] : Bytes) == bytes "raw=true") = false := rfl
  simp [Layout.path, OpenDALUri.isGithubRaw, noQuery, hquery]

/-- The mapping of a layout: its entries assigned over a configuration, and its path. -/
def Layout.mapping (layout : Layout) (uri : OpenDALUri) (front : Bytes) (config : StringMap) :
    StringMap × Bytes :=
  (insertAll config (layout.entries uri front), layout.path uri)

private theorem mapping_ite {c : Bool} {uri : OpenDALUri} {front : Bytes} {config : StringMap}
    {yes no : StringMap × Bytes} {l m : Layout} (hyes : yes = l.mapping uri front config)
    (hno : no = m.mapping uri front config) :
    (if c then yes else no) = (if c then l else m).mapping uri front config := by
  cases c
  · exact hno
  · exact hyes

private theorem repository_mapping (uri : OpenDALUri) (front : Bytes) (config : StringMap)
    (owner segment rest : Bytes) (howner : owner = (takeSegment uri.root).1)
    (hcut : (segment, rest) = takeSegment (takeSegment uri.root).2) :
    (match find atSign segment with
      | none => ((config.insert (bytes "repo_type") (repoType uri.authority)).insert
          (bytes "repo_id") (owner ++ bytes "/" ++ segment), rest)
      | some revision => (((config.insert (bytes "repo_type") (repoType uri.authority)).insert
          (bytes "revision") (segment.drop (revision + 1))).insert
          (bytes "repo_id") (owner ++ bytes "/" ++ segment.take revision), rest)) =
      Layout.repository.mapping uri front config := by
  have hentries : Layout.repository.entries uri front =
      (bytes "repo_type", repoType uri.authority) :: revisionEntries (cutRevision segment).2 ++
        [(bytes "repo_id", owner ++ bytes "/" ++ (cutRevision segment).1)] := by
    rw [howner, show segment = (takeSegment (takeSegment uri.root).2).1 from
      congrArg Prod.fst hcut]
    rfl
  have hpath : Layout.repository.path uri = rest := (congrArg Prod.snd hcut).symm
  rw [Layout.mapping, hentries, hpath]
  unfold cutRevision
  cases find atSign segment <;> rfl

/-- The backend-specific mapping is the mapping of the scheme's layout. -/
theorem apply_eq_layout (uri : OpenDALUri) (scheme front : Bytes) (config : StringMap)
    (path : Bytes) :
    uri.apply scheme front config path = (layoutOf scheme).mapping uri front config := by
  unfold OpenDALUri.apply layoutOf
  iterate 15 refine mapping_ite rfl ?_
  refine mapping_ite ?_ (mapping_ite rfl rfl)
  exact repository_mapping uri front config _ _ _ rfl rfl

theorem assign_eq_layout [StringUtil] (entry : OpenDALPrefix) (uri : Bytes) (r : OpenDALPath) :
    OpenDALPath.assign entry uri r =
      { scheme := entry.scheme
        secretType := entry.secretType
        path := (layoutOf entry.scheme).path (OpenDALUri.parse uri entry.text.length)
        uriConfig := ((layoutOf entry.scheme).mapping
          (OpenDALUri.parse uri entry.text.length) entry.text ∅).1 } := by
  simp only [OpenDALPath.assign, apply_eq_layout]
  rfl

section Lookups

def Layout.Distinct : Layout → Prop
  | .segments key _ _ keys => (key :: bytes "account_name" :: keys).Nodup
  | _ => True

instance (layout : Layout) : Decidable layout.Distinct := by
  unfold Layout.Distinct
  split <;> infer_instance

theorem layoutOf_distinct : ∀ e ∈ openDALPrefixes, (layoutOf e.scheme).Distinct := by
  decide +kernel

theorem entries_nodup {layout : Layout} (distinct : layout.Distinct) (uri : OpenDALUri)
    (front : Bytes) : ((layout.entries uri front).map Prod.fst).Nodup := by
  cases layout with
  | segments key text account keys =>
    have hkeys : (keys.zip (takeSegments keys.length uri.root).1).map Prod.fst = keys :=
      List.map_fst_zip (by simp)
    cases account
    · simp only [Layout.Distinct, List.nodup_cons, List.mem_cons, not_or] at distinct
      simp [Layout.entries, accountEntries, hkeys, distinct]
    · simpa [Layout.Distinct, Layout.entries, accountEntries, hkeys] using distinct
  | repository =>
    simp only [Layout.entries, revisionEntries]
    cases (cutRevision ((takeSegments 2 uri.root).1.getD 1 [])).2 <;>
      simp only [Option.toList, List.map_cons, List.map_nil, List.cons_append, List.nil_append] <;>
      decide
  | http | single | skipSegment | rootOnly | pathOnly => simp [Layout.entries]

theorem lookup_mapping {layout : Layout} (distinct : layout.Distinct) {uri : OpenDALUri}
    {front k v : Bytes} (entry : (k, v) ∈ layout.entries uri front) (config : StringMap) :
    (layout.mapping uri front config).1.lookup k = some v :=
  lookup_insertAll_of_mem (entries_nodup distinct uri front) entry

theorem lookup_segments {key text : Bytes} {account : Bool} {keys : List Bytes}
    (distinct : (Layout.segments key text account keys).Distinct) (uri : OpenDALUri)
    (front : Bytes) : ∀ item ∈ keys.zip (takeSegments keys.length uri.root).1,
      ((Layout.segments key text account keys).mapping uri front ∅).1.lookup item.1 =
        some item.2 :=
  fun _ hitem => lookup_mapping distinct (List.mem_append_right _ hitem) ∅

theorem lookup_repo_id (uri : OpenDALUri) (front : Bytes) :
    (Layout.repository.mapping uri front ∅).1.lookup (bytes "repo_id") =
      some ((takeSegment uri.root).1 ++ bytes "/" ++
        (cutRevision (takeSegment (takeSegment uri.root).2).1).1) :=
  have hdistinct : Layout.repository.Distinct := trivial
  lookup_mapping hdistinct (List.mem_append_right _ List.mem_cons_self) ∅

theorem lookup_revision (uri : OpenDALUri) (front : Bytes) :
    (Layout.repository.mapping uri front ∅).1.lookup (bytes "revision") =
      (cutRevision (takeSegment (takeSegment uri.root).2).1).2 := by
  cases hrev : (cutRevision (takeSegment (takeSegment uri.root).2).1).2 with
  | some revision =>
    have hdistinct : Layout.repository.Distinct := trivial
    refine lookup_mapping hdistinct ?_ ∅
    change _ ∈ (_ :: revisionEntries (cutRevision (takeSegment (takeSegment uri.root).2).1).2 ++ _)
    simp [hrev, revisionEntries]
  | none =>
    refine (lookup_insertAll_of_not_mem ?_).trans rfl
    change _ ∉ (_ :: revisionEntries (cutRevision (takeSegment (takeSegment uri.root).2).1).2 ++
      _).map Prod.fst
    rw [hrev]
    simp only [revisionEntries, Option.toList, List.map_nil, List.map_cons, List.cons_append,
      List.nil_append]
    decide

end Lookups

end DuckdbOpendalfs.Address.Layouts
