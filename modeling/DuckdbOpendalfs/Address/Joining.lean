/- DuckdbOpendalfs/Address/Joining
   digest: The object a directory URI addresses when the path of an entry is written behind it. -/

import DuckdbOpendalfs.Address.QueryIndependence

set_option autoImplicit false
set_option relaxedAutoImplicit false

namespace DuckdbOpendalfs.Address.Joining

open Text Text.ByteString
open Prefixes Uri ParseSpec Layouts Injectivity PathOnly QueryIndependence
open StringUtil (urlDecode)

theorem directory_cut {tail : Bytes} (directory : tail.getLast? = some slash) :
    slash ∈ tail ∧ (remainderOf tail = [] ∨ (remainderOf tail).getLast? = some slash) := by
  have hslash : slash ∈ tail := List.mem_of_getLast? directory
  refine ⟨hslash, ?_⟩
  obtain ⟨a, rest, rfl, ha⟩ := List.eq_append_cons_of_mem hslash
  rw [remainderOf_append_cons rest ha]
  by_cases hrest : rest = []
  · exact Or.inl hrest
  · right
    rwa [List.getLast?_append_of_ne_nil _ (List.cons_ne_nil _ _),
      List.getLast?_cons_of_ne_nil hrest] at directory

variable [StringUtil]

section Decoding

variable (splits : ∀ x y : Bytes, urlDecode (x ++ slash :: y) = urlDecode x ++ slash :: urlDecode y)

include splits

theorem count_slash_urlDecode (s : Bytes) : s.count slash ≤ (urlDecode s).count slash := by
  induction hlength : s.length using Nat.strong_induction_on generalizing s with
  | _ n ih =>
    by_cases hslash : slash ∈ s
    · obtain ⟨a, b, rfl, ha⟩ := List.eq_append_cons_of_mem hslash
      have hb := ih b.length (by rw [← hlength]; simp; omega) b rfl
      rw [splits, List.count_append, List.count_append, List.count_cons_self,
        List.count_cons_self, List.count_eq_zero.mpr ha]
      omega
    · rw [List.count_eq_zero.mpr hslash]
      exact Nat.zero_le _

variable (emptyStays : urlDecode [] = [])

include emptyStays

theorem urlDecode_directory_last {front : Bytes} (directory : front.getLast? = some slash) :
    (urlDecode front).getLast? = some slash := by
  obtain ⟨x, rfl⟩ := List.getLast?_eq_some_iff.mp directory
  rw [splits, emptyStays, List.getLast?_concat]

theorem urlDecode_directory_append {front : Bytes}
    (directory : front = [] ∨ front.getLast? = some slash) (s : Bytes) :
    urlDecode (front ++ s) = urlDecode front ++ urlDecode s := by
  rcases directory with rfl | hlast
  · rw [List.nil_append, emptyStays, List.nil_append]
  · obtain ⟨x, rfl⟩ := List.getLast?_eq_some_iff.mp hlast
    rw [List.append_assoc, List.singleton_append, splits, splits, emptyStays]
    simp

end Decoding

section Joined

/-- The object path of a directory URI that is followed by the path of an entry: the directory, the
decoding of the entry up to its first question mark, and the repairs of the layout. -/
def joinedPath (layout : Layout) (authority directory entry : Bytes) : Bytes :=
  let name := beforeFirst question entry
  let joined := directory ++ urlDecode name
  match layout with
  | .http => Layout.http.path
      { authority := authority, root := joined, query := entry.drop (name.length + 1) }
  | .pathOnly => closeWith joined (entry.getLast? == some slash)
  | .single _ _ | .segments _ _ _ _ | .skipSegment | .repository | .rootOnly => joined

/-- What stands behind the directory in the path of an entry is the decoding of the path up to its
first question mark. Path-only schemes close it with a slash; a raw GitHub file is rewritten. -/
def ComesBack (layout : Layout) (authority directory rest : Bytes) : Prop :=
  let name := beforeFirst question (directory ++ rest)
  match layout with
  | .http =>
    let uri : OpenDALUri :=
      { authority := authority, query := (directory ++ rest).drop (name.length + 1) }
    if uri.isGithubRaw then rewriteBlob (directory ++ urlDecode name) = directory ++ rest
    else rest = urlDecode name
  | .pathOnly => rest = closeWith (urlDecode name) (rest.getLast? == some slash)
  | .single _ _ | .segments _ _ _ _ | .skipSegment | .repository | .rootOnly =>
    rest = urlDecode name

omit [StringUtil] in
private theorem closeWith_append_iff {directory decoded rest : Bytes}
    (last : directory.getLast? = some slash) :
    closeWith (directory ++ decoded) ((directory ++ rest).getLast? == some slash) =
      directory ++ rest ↔ rest = closeWith decoded (rest.getLast? == some slash) := by
  by_cases hdecoded : decoded = []
  · subst hdecoded
    have hclosed (trailing : Bool) : closeWith directory trailing = directory := by
      simp [closeWith, last]
    have hempty (trailing : Bool) : closeWith [] trailing = [] := by simp [closeWith]
    rw [List.append_nil, hclosed, hempty, List.self_eq_append_right]
  · have hlonger (trailing : Bool) :
        closeWith (directory ++ decoded) trailing = directory ++ closeWith decoded trailing := by
      simp only [closeWith, List.getLast?_append_of_ne_nil _ hdecoded]
      split_ifs with h h' <;> simp_all
    rw [hlonger, List.append_cancel_left_eq]
    cases rest with
    | nil =>
      have hclosed (trailing : Bool) : closeWith decoded trailing ≠ [] := by
        unfold closeWith
        split_ifs <;> simp [hdecoded]
      exact iff_of_false (hclosed _) (fun h => hclosed _ h.symm)
    | cons b rest =>
      rw [List.getLast?_append_of_ne_nil _ (List.cons_ne_nil b rest)]
      exact eq_comm

theorem joinedPath_eq_iff {layout : Layout} {authority directory rest : Bytes}
    (last : directory.getLast? = some slash) :
    joinedPath layout authority directory (directory ++ rest) = directory ++ rest ↔
      ComesBack layout authority directory rest := by
  cases layout with
  | http =>
    let name := beforeFirst question (directory ++ rest)
    let uri : OpenDALUri :=
      { authority := authority, query := (directory ++ rest).drop (name.length + 1) }
    change (if uri.isGithubRaw then rewriteBlob (directory ++ urlDecode name)
        else directory ++ urlDecode name) = directory ++ rest ↔
      if uri.isGithubRaw then rewriteBlob (directory ++ urlDecode name) = directory ++ rest
      else rest = urlDecode name
    by_cases hraw : uri.isGithubRaw = true
    · rw [if_pos hraw, if_pos hraw]
    · rw [if_neg hraw, if_neg hraw, List.append_cancel_left_eq, eq_comm]
  | pathOnly => exact closeWith_append_iff last
  | single | segments | repository | skipSegment | rootOnly =>
    simp only [joinedPath, ComesBack]
    rw [List.append_cancel_left_eq, eq_comm]

variable (front : Bytes) {tail : Bytes}

theorem cutOf_joined
    (splits : ∀ x y : Bytes, urlDecode (x ++ slash :: y) = urlDecode x ++ slash :: urlDecode y)
    (emptyStays : urlDecode [] = []) (directory : tail.getLast? = some slash)
    (noQuery : question ∉ tail) {e : Bytes} (nonempty : e ≠ []) :
    cutOf front (tail ++ e) =
      { authority := authorityOf tail
        root := (cutOf front tail).root ++ urlDecode (beforeFirst question e)
        query := e.drop ((beforeFirst question e).length + 1)
        trailingSlash := e.getLast? == some slash } := by
  obtain ⟨hslash, hremainder⟩ := directory_cut directory
  have hfresh : question ∉ remainderOf tail := fun h => noQuery (mem_of_mem_remainderOf h)
  obtain ⟨hauthority, hrest⟩ := cut_append hslash e
  have hlast : (front ++ (tail ++ e)).getLast? = e.getLast? := by
    rw [← List.append_assoc, List.getLast?_append_of_ne_nil _ nonempty]
  have hquery : (remainderOf tail ++ e).drop
      ((remainderOf tail ++ beforeFirst question e).length + 1) =
        e.drop ((beforeFirst question e).length + 1) := by
    rw [List.length_append, Nat.add_assoc, List.drop_length_add_append]
  rw [cutOf_plain front noQuery, cutOf, hauthority, hrest, hlast, beforeFirst_append hfresh, hquery,
    urlDecode_directory_append splits emptyStays hremainder]

variable {layout : Layout} {u u' : OpenDALUri}

omit [StringUtil] in
theorem mapping_longer (notHttp : layout ≠ .http) (notPathOnly : layout ≠ .pathOnly)
    (authority : u'.authority = u.authority) {back : Bytes} (root : u'.root = u.root ++ back)
    (nonempty : layout.path u ≠ []) (config : StringMap) :
    layout.mapping u' front config =
      ((layout.mapping u front config).1, layout.path u ++ back) := by
  cases layout with
  | http => exact absurd rfl notHttp
  | pathOnly => exact absurd rfl notPathOnly
  | single => simp only [Layout.mapping, Layout.entries, Layout.path, authority, root]
  | segments key text account keys =>
    have hcut : takeSegments keys.length u'.root = _ := root ▸ takeSegments_append nonempty back
    simp only [Layout.mapping, Layout.entries, Layout.path, authority, hcut]
  | repository =>
    have hcut : takeSegments 2 u'.root = _ := root ▸ takeSegments_append nonempty back
    simp only [Layout.mapping, Layout.entries, Layout.path, authority, hcut]
  | skipSegment =>
    have hcut : takeSegments 1 u'.root = _ := root ▸ takeSegments_append nonempty back
    simp only [Layout.mapping, Layout.entries, Layout.path, hcut]
  | rootOnly => simp only [Layout.mapping, Layout.entries, Layout.path, root]

omit [StringUtil] in
theorem path_suffix (notHttp : layout ≠ .http) (notPathOnly : layout ≠ .pathOnly) :
    layout.path u <:+ u.root := by
  cases layout with
  | http => exact absurd rfl notHttp
  | pathOnly => exact absurd rfl notPathOnly
  | single | rootOnly => exact List.suffix_refl _
  | segments | repository | skipSegment => exact takeSegments_suffix _ _

omit [StringUtil] in
theorem joinRoot_longer {authority root : Bytes} (fresh : slash ∉ authority)
    (directory : root = [] ∨ root.getLast? = some slash)
    (nonempty : closeWith (joinRoot authority root) true ≠ []) :
    (closeWith (joinRoot authority root) true).getLast? = some slash ∧
      ∀ back, (root = [] → back ≠ []) →
        joinRoot authority (root ++ back) = closeWith (joinRoot authority root) true ++ back := by
  have hjoin {root : Bytes} (hroot : root ≠ []) :
      joinRoot authority root = authority ++ slash :: root := by
    rw [joinRoot, if_neg (by simpa using hroot)]
    rfl
  rcases directory with rfl | hlast
  · have hjoined : joinRoot authority [] = authority := rfl
    rw [hjoined] at nonempty ⊢
    have hauthority : authority ≠ [] := by
      rintro rfl
      exact nonempty rfl
    have hopen : authority.getLast? ≠ some slash := fun h => fresh (List.mem_of_getLast? h)
    have hclose : closeWith authority true = authority ++ [slash] := by
      simp [closeWith, hauthority, hopen]
    rw [hclose]
    refine ⟨List.getLast?_concat, fun back something => ?_⟩
    rw [List.nil_append, hjoin (something rfl)]
    simp
  · have hroot : root ≠ [] := by
      rintro rfl
      cases hlast
    have hclose : closeWith (joinRoot authority root) true = joinRoot authority root := by
      simp [closeWith, (joinRoot_getLast? fresh).mpr hlast]
    rw [hclose, joinRoot_getLast? fresh]
    refine ⟨hlast, fun back _ => ?_⟩
    rw [hjoin hroot, hjoin (by simp [hroot])]
    simp

end Joined

section Entries

theorem directory_tail (emptyStays : urlDecode [] = []) {entry : OpenDALPrefix}
    (member : entry ∈ openDALPrefixes) {tail : Bytes} {r p : OpenDALPath}
    (accepted : OpenDALPath.tryParse (entry.text ++ tail) r = (true, p)) (nonempty : p.path ≠ [])
    (directory : (entry.text ++ tail).getLast? = some slash) : tail.getLast? = some slash := by
  by_cases htail : tail = []
  · subst htail
    have hroot : (cutOf entry.text []).root = [] := emptyStays
    rw [tryParse_cut member] at accepted
    obtain rfl := (Prod.mk.inj accepted).2
    refine absurd ?_ nonempty
    change (layoutOf entry.scheme).path (cutOf entry.text []) = []
    by_cases hhttp : layoutOf entry.scheme = .http
    · rw [hhttp, http_path_plain (by rfl), hroot]
    by_cases hpathOnly : layoutOf entry.scheme = .pathOnly
    · rw [hpathOnly]
      change closeWith (joinRoot (authorityOf []) (cutOf entry.text []).root) _ = []
      rw [hroot]
      cases (cutOf entry.text []).trailingSlash <;> rfl
    · have hsuffix := path_suffix (u := cutOf entry.text []) hhttp hpathOnly
      rw [hroot] at hsuffix
      exact List.suffix_nil.mp hsuffix
  · rwa [List.getLast?_append_of_ne_nil _ htail] at directory

variable (splits : ∀ x y : Bytes, urlDecode (x ++ slash :: y) = urlDecode x ++ slash :: urlDecode y)
  (emptyStays : urlDecode [] = []) {tail : Bytes}
  (directory : tail.getLast? = some slash) (noQuery : question ∉ tail)

include splits

theorem question_mem_of_joinedPath {p e : Bytes} {layout : Layout} {authority : Bytes}
    (last : p.getLast? = some slash) (back : joinedPath layout authority p e = e) :
    question ∈ e := by
  by_contra hquestion
  have hdirectory : 1 ≤ p.count slash := List.count_pos_iff.mpr (List.mem_of_getLast? last)
  have hentry := count_slash_urlDecode splits e
  have hmore : e.count slash < (p ++ urlDecode e).count slash := by
    rw [List.count_append]
    omega
  have hclosed : (p ++ urlDecode e).count slash ≤
      (closeWith (p ++ urlDecode e) (e.getLast? == some slash)).count slash := by
    unfold closeWith
    split
    · exact (List.sublist_append_left _ [slash]).count_le slash
    · exact le_rfl
  have hnone : e.drop (e.length + 1) = [] := List.drop_eq_nil_of_le (by omega)
  have hcount := congrArg (List.count slash) back
  simp only [joinedPath, beforeFirst_eq_self hquestion, hnone] at hcount
  cases layout with
  | http =>
    dsimp only at hcount
    rw [http_path_plain (by rfl)] at hcount
    dsimp only at hcount
    omega
  | pathOnly =>
    dsimp only at hcount
    omega
  | single | segments | repository | skipSegment | rootOnly =>
    dsimp only at hcount
    omega

private theorem pathOnly_joined {u : OpenDALUri} (fresh : slash ∉ u.authority)
    (plain : question ∉ u.authority) (trailing : u.trailingSlash = true)
    (root : u.root = [] ∨ u.root.getLast? = some slash) (nonempty : pathOnlyPath u ≠ []) {e : Bytes}
    (below : pathOnlyPath u <+: e) :
    joinRoot u.authority (u.root ++ urlDecode (beforeFirst question e)) =
      pathOnlyPath u ++ urlDecode (beforeFirst question e) := by
  have hjoin := pathOnlyPath_eq_closeWith u
  rw [trailing] at hjoin
  rw [hjoin] at nonempty
  obtain ⟨hlast, hlonger⟩ := joinRoot_longer fresh root nonempty
  rw [← hjoin] at hlast hlonger
  refine hlonger _ fun _ hnil => ?_
  -- The entry goes on behind the authority with a slash, which no question mark cuts off.
  obtain ⟨back, hback, hhead⟩ := pathOnlyPath_authority u
  obtain ⟨rest, rfl⟩ := below
  have hslash : slash ∈ beforeFirst question (pathOnlyPath u ++ rest) := by
    rcases hhead with rfl | hhead
    · rw [hback, List.append_nil] at hlast
      exact absurd (List.mem_of_getLast? hlast) fresh
    · obtain ⟨back', rfl⟩ := List.head?_eq_some_iff.mp hhead
      have hplain : question ∉ u.authority ++ [slash] := by
        rw [List.mem_append, List.mem_singleton, not_or]
        exact ⟨plain, by decide⟩
      have hsplit : u.authority ++ slash :: back' ++ rest =
          (u.authority ++ [slash]) ++ (back' ++ rest) := by simp
      rw [hback, hsplit, beforeFirst_append hplain]
      simp
  have hcount := count_slash_urlDecode splits (beforeFirst question (pathOnlyPath u ++ rest))
  rw [hnil, List.count_nil] at hcount
  exact absurd hslash (List.count_eq_zero.mp (Nat.le_zero.mp hcount))

include emptyStays directory noQuery

private theorem directory_cutOf (front : Bytes) :
    (cutOf front tail).trailingSlash = true ∧
      ((cutOf front tail).root = [] ∨ (cutOf front tail).root.getLast? = some slash) := by
  have hlast : (front ++ tail).getLast? = some slash := by
    rw [List.getLast?_append, directory, Option.some_or]
  rw [cutOf_plain front noQuery, hlast]
  refine ⟨beq_self_eq_true _, ?_⟩
  rcases (directory_cut directory).2 with hnil | hrest
  · left
    rw [hnil, emptyStays]
  · exact Or.inr (urlDecode_directory_last splits emptyStays hrest)

theorem directory_path_last {layout : Layout} (front : Bytes)
    (nonempty : layout.path (cutOf front tail) ≠ []) :
    (layout.path (cutOf front tail)).getLast? = some slash := by
  obtain ⟨htrailing, hroot⟩ := directory_cutOf splits emptyStays directory noQuery front
  have hsuffix {path : Bytes} (suffix : path <:+ (cutOf front tail).root) (hpath : path ≠ []) :
      path.getLast? = some slash := by
    obtain ⟨before, hbefore⟩ := suffix
    rw [← hbefore, List.getLast?_append_of_ne_nil _ hpath] at hroot
    exact hroot.resolve_left (by simp [hpath])
  by_cases hhttp : layout = .http
  · subst hhttp
    have hplain : (cutOf front tail).query = [] := by rw [cutOf_plain front noQuery]
    rw [http_path_plain hplain] at nonempty ⊢
    exact hsuffix (List.suffix_refl _) nonempty
  by_cases hpathOnly : layout = .pathOnly
  · subst hpathOnly
    change closeWith (joinRoot (authorityOf tail) _) _ ≠ [] at nonempty
    change (closeWith (joinRoot (authorityOf tail) _) _).getLast? = _
    rw [htrailing] at nonempty ⊢
    exact (joinRoot_longer (not_mem_beforeFirst slash tail) hroot nonempty).1
  · exact hsuffix (path_suffix hhttp hpathOnly) nonempty

theorem mapping_joined {layout : Layout} (front : Bytes)
    (nonempty : layout.path (cutOf front tail) ≠ []) {e : Bytes}
    (below : layout.path (cutOf front tail) <+: e) (config : StringMap) :
    layout.mapping (cutOf front (tail ++ e)) front config =
      ((layout.mapping (cutOf front tail) front config).1,
        joinedPath layout (authorityOf tail) (layout.path (cutOf front tail)) e) := by
  have hentry : e ≠ [] := by
    rintro rfl
    exact nonempty (List.prefix_nil.mp below)
  have hjoined := cutOf_joined front splits emptyStays directory noQuery hentry
  by_cases hhttp : layout = .http
  · subst hhttp
    have hplain : (cutOf front tail).query = [] := by rw [cutOf_plain front noQuery]
    rw [hjoined, http_path_plain hplain]
    rfl
  by_cases hpathOnly : layout = .pathOnly
  · subst hpathOnly
    obtain ⟨htrailing, hroot⟩ := directory_cutOf splits emptyStays directory noQuery front
    have hfresh : slash ∉ (cutOf front tail).authority := not_mem_beforeFirst slash tail
    have hquestion : question ∉ (cutOf front tail).authority :=
      fun h => noQuery ((beforeFirst_prefix_self slash tail).subset h)
    have hjoin := pathOnly_joined splits hfresh hquestion htrailing hroot nonempty below
    refine Prod.ext rfl ?_
    change closeWith (joinRoot (cutOf front (tail ++ e)).authority _) _ = closeWith _ _
    rw [hjoined]
    exact congrArg (closeWith · _) hjoin
  · have hauthority : (cutOf front (tail ++ e)).authority = (cutOf front tail).authority := by
      rw [hjoined]
      rfl
    rw [mapping_longer front hhttp hpathOnly hauthority (congrArg OpenDALUri.root hjoined) nonempty]
    cases layout with
    | http => exact absurd rfl hhttp
    | pathOnly => exact absurd rfl hpathOnly
    | single | segments | repository | skipSegment | rootOnly => rfl

theorem tryParse_joined {entry : OpenDALPrefix} (member : entry ∈ openDALPrefixes)
    {r p : OpenDALPath} (accepted : OpenDALPath.tryParse (entry.text ++ tail) r = (true, p))
    (nonempty : p.path ≠ []) {e : Bytes} (below : p.path <+: e) (r' : OpenDALPath) :
    OpenDALPath.tryParse (entry.text ++ (tail ++ e)) r' =
      (true, { p with path := joinedPath (layoutOf entry.scheme) (authorityOf tail) p.path e }) := by
  rw [tryParse_cut member] at accepted ⊢
  obtain rfl := (Prod.mk.inj accepted).2
  have hmapping :=
    mapping_joined splits emptyStays directory noQuery entry.text nonempty below ∅
  rw [hmapping]
  exact congrArg (fun path => (true, OpenDALPath.mk entry.scheme entry.secretType path _))
    (congrArg Prod.snd hmapping)

end Entries

end DuckdbOpendalfs.Address.Joining
