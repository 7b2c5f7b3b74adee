/- DuckdbOpendalfs/Address/OutParameter
   digest: TryParse as it writes into its out-parameter, and what it leaves of the earlier value. -/

import DuckdbOpendalfs.Address.ParseSpec

set_option autoImplicit false
set_option relaxedAutoImplicit false

namespace DuckdbOpendalfs.Address.OutParameter

open Text Text.ByteString
open Prefixes Uri ParseSpec

section Assignments

def setConfig (key value : Bytes) : StateM OpenDALPath Unit :=
  modify fun r => { r with uriConfig := r.uriConfig.insert key value }

def setPath (path : Bytes) : StateM OpenDALPath Unit :=
  modify fun r => { r with path := path }

def appendPath (tail : Bytes) : StateM OpenDALPath Unit :=
  modify fun r => { r with path := r.path ++ tail }

def takePathSegment : StateM OpenDALPath Bytes :=
  modifyGet fun r => ((takeSegment r.path).1, { r with path := (takeSegment r.path).2 })

def rewritePathBlob : StateM OpenDALPath Unit := do
  let path_p := (← get).path
  match findSubstring (bytes "/blob/") path_p with
  | none => pure ()
  | some blob => setPath (replaceAt path_p blob 6 (bytes "/raw/"))

def setRepository (owner repo : Bytes) : StateM OpenDALPath Unit :=
  match find atSign repo with
  | none => setConfig (bytes "repo_id") (owner ++ bytes "/" ++ repo)
  | some revision => do
    setConfig (bytes "revision") (repo.drop (revision + 1))
    setConfig (bytes "repo_id") (owner ++ bytes "/" ++ repo.take revision)

def closePath (trailing_slash : Bool) : StateM OpenDALPath Unit := do
  let path_p := (← get).path
  if trailing_slash && !path_p.isEmpty && path_p.getLast? != some slash then appendPath [slash]

end Assignments

/-- The backend-specific mapping as the source performs it: assignment after assignment, each on
what the ones before it left. -/
def assignApply (uri : OpenDALUri) (scheme_p uri_prefix_p : Bytes) : StateM OpenDALPath Unit := do
  setPath uri.root
  let authority := uri.authority
  if scheme_p == bytes "http" then do
    setConfig (bytes "endpoint") (uri_prefix_p ++ authority)
    if uri.isGithubRaw then rewritePathBlob
  else if isBucketService scheme_p then
    setConfig (bytes "bucket") authority
  else if scheme_p == bytes "azblob" then
    setConfig (bytes "container") authority
  else if scheme_p == bytes "aliyun-drive" then
    setConfig (bytes "drive_type") authority
  else if scheme_p == bytes "dbfs" || scheme_p == bytes "pcloud" || scheme_p == bytes "webdav" then
    setConfig (bytes "endpoint") (bytes "https://" ++ authority)
  else if scheme_p == bytes "ftp" then
    setConfig (bytes "endpoint") (bytes "ftp://" ++ authority)
  else if scheme_p == bytes "ipfs" then
    setConfig (bytes "endpoint") (bytes "http://" ++ authority)
  else if scheme_p == bytes "sftp" then
    setConfig (bytes "endpoint") authority
  else if scheme_p == bytes "azdls" || scheme_p == bytes "azfile" then do
    setConfig (bytes "endpoint") (bytes "https://" ++ authority)
    setConfig (bytes "account_name") (beforeFirst dot authority)
    setConfig (if scheme_p == bytes "azdls" then bytes "filesystem" else bytes "share_name")
      (← takePathSegment)
  else if scheme_p == bytes "github" then do
    setConfig (bytes "owner") authority
    setConfig (bytes "repo") (← takePathSegment)
  else if scheme_p == bytes "koofr" then do
    setConfig (bytes "endpoint") (bytes "https://" ++ authority)
    setConfig (bytes "email") (← takePathSegment)
  else if scheme_p == bytes "lakefs" then do
    setConfig (bytes "endpoint") (bytes "https://" ++ authority)
    setConfig (bytes "repository") (← takePathSegment)
    setConfig (bytes "branch") (← takePathSegment)
  else if scheme_p == bytes "seafile" then do
    setConfig (bytes "endpoint") (bytes "https://" ++ authority)
    setConfig (bytes "repo_name") (← takePathSegment)
  else if scheme_p == bytes "swift" then do
    setConfig (bytes "endpoint") (bytes "https://" ++ authority)
    setConfig (bytes "container") (← takePathSegment)
  else if scheme_p == bytes "onedrive" then
    discard takePathSegment
  else if scheme_p == bytes "hf" || scheme_p == bytes "huggingface" then do
    setConfig (bytes "repo_type")
      (if authority == bytes "datasets" then bytes "dataset"
       else if authority == bytes "spaces" then bytes "space" else bytes "model")
    let owner ← takePathSegment
    let repo ← takePathSegment
    setRepository owner repo
  else if isRootOnlyService scheme_p then
    pure ()
  else do
    setPath authority
    unless uri.root.isEmpty do
      appendPath (bytes "/" ++ uri.root)
    closePath uri.trailingSlash

def matchesEntry (path_p : Bytes) (entry : OpenDALPrefix) : Bool :=
  substr path_p 0 entry.text.length == entry.text

/-- The loop of `TryParse` over the rest of a prefix table, with its assignments in order. -/
def searchPrefixes [StringUtil] (path_p : Bytes) : List OpenDALPrefix → StateM OpenDALPath Bool
  | [] => return false
  | entry :: entries =>
    if matchesEntry path_p entry then do
      modify fun result => { result with scheme := entry.scheme }
      modify fun result => { result with secretType := entry.secretType }
      modify fun result => { result with uriConfig := ∅ }
      let uri := OpenDALUri.parse path_p entry.text.length
      assignApply uri (← get).scheme entry.text
      return true
    else searchPrefixes path_p entries

section Refinement

def overwrite (r : OpenDALPath) (value : StringMap × Bytes) : OpenDALPath :=
  { r with uriConfig := value.1, path := value.2 }

private theorem run_ite {c : Prop} [Decidable c] {m m' : StateM OpenDALPath Unit}
    {r : OpenDALPath} {value value' : StringMap × Bytes}
    (yes : m.run r = ((), overwrite r value)) (no : m'.run r = ((), overwrite r value')) :
    (if c then m else m').run r = ((), overwrite r (if c then value else value')) := by
  split_ifs
  · exact yes
  · exact no

private theorem rewritePathBlob_run (r : OpenDALPath) :
    rewritePathBlob.run r = ((), { r with path := rewriteBlob r.path }) := by
  change StateT.run (match findSubstring (bytes "/blob/") r.path with
    | none => pure ()
    | some blob => setPath (replaceAt r.path blob 6 (bytes "/raw/"))) r = _
  unfold rewriteBlob
  cases findSubstring (bytes "/blob/") r.path with
  | none => rfl
  | some blob => rfl

private theorem setRepository_run (owner repo : Bytes) (r : OpenDALPath) :
    (setRepository owner repo).run r =
      ((), { r with
        uriConfig :=
          match find atSign repo with
          | none => r.uriConfig.insert (bytes "repo_id") (owner ++ bytes "/" ++ repo)
          | some revision =>
            (r.uriConfig.insert (bytes "revision") (repo.drop (revision + 1))).insert
              (bytes "repo_id") (owner ++ bytes "/" ++ repo.take revision) }) := by
  unfold setRepository
  cases find atSign repo with
  | none => rfl
  | some revision => rfl

private theorem closePath_run (trailing : Bool) (r : OpenDALPath) :
    (closePath trailing).run r =
      ((), { r with
        path :=
          if trailing && !r.path.isEmpty && r.path.getLast? != some slash then r.path ++ [slash]
          else r.path }) := by
  change StateT.run (if trailing && !r.path.isEmpty && r.path.getLast? != some slash then
    appendPath [slash] else pure ()) r = _
  split_ifs
  · rfl
  · rfl

theorem assignApply_run (uri : OpenDALUri) (scheme front : Bytes) (r : OpenDALPath) :
    (assignApply uri scheme front).run r =
      ((), overwrite r (uri.apply scheme front r.uriConfig r.path)) := by
  unfold assignApply OpenDALUri.apply
  -- One branch of the scheme dispatch after the other; three of them do more than assign.
  refine run_ite ?_ (run_ite rfl (run_ite rfl (run_ite rfl (run_ite rfl (run_ite rfl (run_ite rfl
    (run_ite rfl (run_ite rfl (run_ite rfl (run_ite rfl (run_ite rfl (run_ite rfl (run_ite rfl
    (run_ite rfl (run_ite ?_ (run_ite rfl ?_))))))))))))))))
  · cases hraw : uri.isGithubRaw with
    | false => rfl
    | true =>
      exact rewritePathBlob_run
        { r with
          path := uri.root
          uriConfig := r.uriConfig.insert (bytes "endpoint") (front ++ uri.authority) }
  · refine (setRepository_run _ _ _).trans ?_
    dsimp only
    cases find atSign (takeSegment (takeSegment uri.root).2).1 with
    | none => rfl
    | some revision => rfl
  · cases hroot : uri.root.isEmpty with
    | true => exact closePath_run uri.trailingSlash { r with path := uri.authority }
    | false =>
      exact closePath_run uri.trailingSlash
        { r with path := uri.authority ++ (bytes "/" ++ uri.root) }

variable [StringUtil]

theorem searchPrefixes_run (uri : Bytes) (table : List OpenDALPrefix) (r : OpenDALPath) :
    (searchPrefixes uri table).run r =
      match table.find? (matchesEntry uri) with
      | none => (false, r)
      | some entry => (true, OpenDALPath.assign entry uri r) := by
  induction table with
  | nil => rfl
  | cons entry table ih =>
    unfold searchPrefixes
    cases hmatch : matchesEntry uri entry with
    | false =>
      rw [List.find?_cons_of_neg (by simp [hmatch])]
      exact ih
    | true =>
      rw [List.find?_cons_of_pos hmatch]
      have happly := assignApply_run (OpenDALUri.parse uri entry.text.length) entry.scheme
        entry.text { r with scheme := entry.scheme, secretType := entry.secretType, uriConfig := ∅ }
      exact congrArg (fun result => (true, result.2)) happly

/-- With the prefix table of the file system, the loop computes `tryParse`. -/
theorem searchPrefixes_openDALPrefixes (uri : Bytes) (r : OpenDALPath) :
    (searchPrefixes uri openDALPrefixes).run r = OpenDALPath.tryParse uri r :=
  searchPrefixes_run uri openDALPrefixes r

end Refinement

section TableOrder

theorem matches_length_le_one (uri : Bytes) :
    (openDALPrefixes.filter (matchesEntry uri)).length ≤ 1 := by
  have hdistinct : openDALPrefixes.Nodup := by decide +kernel
  have hfilter := hdistinct.filter (matchesEntry uri)
  rcases hmatches : openDALPrefixes.filter (matchesEntry uri) with _ | ⟨e, _ | ⟨e', rest⟩⟩
  · exact Nat.zero_le 1
  · exact Nat.le_refl 1
  · have hmember (entry : OpenDALPrefix) (h : entry ∈ e :: e' :: rest) :
        entry ∈ openDALPrefixes ∧ entry.text <+: uri := by
      rw [← hmatches, List.mem_filter] at h
      exact h.imp_right (substr_eq_iff uri entry.text).mp
    obtain ⟨he, hprefix⟩ := hmember e (by simp)
    obtain ⟨he', hprefix'⟩ := hmember e' (by simp)
    rw [hmatches, entry_unique he he' hprefix hprefix'] at hfilter
    simp at hfilter

theorem matches_of_perm {table : List OpenDALPrefix} (same : table.Perm openDALPrefixes)
    (uri : Bytes) :
    table.filter (matchesEntry uri) = openDALPrefixes.filter (matchesEntry uri) := by
  have hperm := same.filter (matchesEntry uri)
  have hlength := matches_length_le_one uri
  rcases hmatches : openDALPrefixes.filter (matchesEntry uri) with _ | ⟨e, _ | ⟨e', rest⟩⟩
  · rw [hmatches] at hperm
    exact hperm.eq_nil
  · rw [hmatches] at hperm
    exact hperm.eq_singleton
  · rw [hmatches] at hlength
    simp at hlength

end TableOrder

section OutParameter

variable [StringUtil]

/-- The search fully overwrites its out-parameter or fully preserves it. Its earlier value does not
reach the result, and neither does the order of the prefix table. -/
theorem searchPrefixes_overwrites {table : List OpenDALPrefix}
    (same : table.Perm openDALPrefixes) (uri : Bytes) (r₁ r₂ : OpenDALPath) :
    let first := (searchPrefixes uri table).run r₁
    let second := (searchPrefixes uri table).run r₂
    first.1 = second.1 ∧ (first.1 = true → first.2 = second.2) ∧
      (first.1 = false → first.2 = r₁ ∧ second.2 = r₂) ∧
      first = OpenDALPath.tryParse uri r₁ ∧ (table.filter (matchesEntry uri)).length ≤ 1 := by
  intro first second
  have hmatches := matches_of_perm same uri
  have hfind : table.find? (matchesEntry uri) = openDALPrefixes.find? (matchesEntry uri) := by
    rw [← List.head?_filter, hmatches, List.head?_filter]
  have hlength : (table.filter (matchesEntry uri)).length ≤ 1 :=
    hmatches ▸ matches_length_le_one uri
  have horder : first = OpenDALPath.tryParse uri r₁ := by
    rw [← searchPrefixes_openDALPrefixes, searchPrefixes_run, ← hfind]
    exact searchPrefixes_run uri table r₁
  have hfirst : first = _ := searchPrefixes_run uri table r₁
  have hsecond : second = _ := searchPrefixes_run uri table r₂
  clear_value first second
  cases hfound : table.find? (matchesEntry uri) with
  | none =>
    rw [hfound] at hfirst hsecond
    subst hfirst hsecond
    exact ⟨rfl, fun h => by simp at h, fun _ => ⟨rfl, rfl⟩, horder, hlength⟩
  | some entry =>
    rw [hfound] at hfirst hsecond
    subst hfirst hsecond
    exact ⟨rfl, fun _ => rfl, fun h => by simp at h, horder, hlength⟩

end OutParameter

theorem searchPrefixes_overwrites_reused :
    letI : StringUtil := percentDecoding
    let reused : OpenDALPath :=
      { scheme := bytes "s3", secretType := .s3, path := bytes "old/key"
        uriConfig := (∅ : StringMap).insert (bytes "bucket") (bytes "old") }
    ((searchPrefixes (bytes "lakefs://host/repo/main/key") openDALPrefixes.reverse).run reused).2 =
        ((searchPrefixes (bytes "lakefs://host/repo/main/key") openDALPrefixes.reverse).run {}).2 ∧
      ((searchPrefixes (bytes "lake://host/repo") openDALPrefixes.reverse).run reused).2 =
        reused := by
  let _ : StringUtil := percentDecoding
  intro reused
  have hsame := List.reverse_perm openDALPrefixes
  obtain ⟨-, hequal, -⟩ :=
    searchPrefixes_overwrites hsame (bytes "lakefs://host/repo/main/key") reused {}
  obtain ⟨-, -, hkept, -⟩ :=
    searchPrefixes_overwrites hsame (bytes "lake://host/repo") reused {}
  exact ⟨hequal (by decide +kernel), (hkept (by decide +kernel)).1⟩

end DuckdbOpendalfs.Address.OutParameter
