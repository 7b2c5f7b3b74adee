/- DuckdbOpendalfs/Directories/Listing
   digest: Listing a directory, and which reported names lead back to the entries they stand for. -/

import DuckdbOpendalfs.Address.Joining
import DuckdbOpendalfs.Operators.Configuration

set_option autoImplicit false
set_option relaxedAutoImplicit false

namespace DuckdbOpendalfs.Directories.Listing

open Text.ByteString
open Text.PercentEncoding (decode_append_cons)
open Execution.Programs
open Address.Prefixes Address.Uri Address.ParseSpec Address.Layouts Address.Injectivity
open Address.QueryIndependence Address.Joining
open Operators.LayerOptions Operators.Configuration
open StringUtil (urlDecode)

def emptyDirectoryPath : Exception :=
  .invalidInput (bytes "OpenDAL directory path must not be empty")

def report (entry : Entry) : Bytes × Bool :=
  (entry.path, !entry.path.isEmpty && entry.path.getLast? == some slash)

/-- The calls of the callback, and the answer. -/
def listFiles [StringUtil] (fs : OpenDALFileSystem) (path_p : Bytes)
    (opener_p : Option FileOpener) : FileSystemM (List (Bytes × Bool) × Bool) := do
  let (op, parsed_path) ← createOperator fs path_p {} opener_p
  if parsed_path.path.isEmpty then .fail emptyDirectoryPath
  else
    let entries ← call (.list op parsed_path.path)
    return (entries.map report, true)

/-- The paths of listed entries start with the path of the directory. -/
def ListsBelow {σ : Type} (backend : Backend σ) : Prop :=
  ∀ {op path entries w w'}, backend (.list op path) w = (.ok entries, w') →
    ∀ entry ∈ entries, path <+: entry.path

section Outcomes

variable [StringUtil] {σ : Type} {backend : Backend σ} {fs : OpenDALFileSystem}
  {opener : Option FileOpener} {reports : List (Bytes × Bool)} {answer : Bool} {w w' : σ}

theorem listFiles_ok {uri : Bytes}
    (h : (listFiles fs uri opener).run backend w = (.ok (reports, answer), w')) :
    ∃ op p entries w₁, OpenDALPath.tryParse uri {} = (true, p) ∧ p.path ≠ [] ∧
      backend (.list op p.path) w₁ = (.ok entries, w') ∧ reports = entries.map report ∧
      answer = true := by
  obtain ⟨⟨op, p⟩, w₁, hcreate, hrest⟩ := (Program.run_bind_ok backend).mp h
  obtain ⟨hplan, -⟩ := run_createOperatorWith_ok hcreate
  obtain ⟨hparse, -⟩ := operatorPlan_ok_iff.mp hplan
  dsimp only at hrest
  split at hrest
  · cases hrest
  · rename_i hnonempty
    obtain ⟨entries, w₂, hlist, hreturn⟩ := (Program.run_bind_ok backend).mp hrest
    rw [Program.run_perform] at hlist
    obtain ⟨hok, rfl⟩ := Prod.mk.inj hreturn
    obtain ⟨rfl, rfl⟩ := Prod.mk.inj (Except.ok.inj hok)
    exact ⟨op, p, entries, w₁, hparse, by simpa using hnonempty, hlist, rfl, rfl⟩

/-- The URI of a directory with a reported name behind it is accepted, and it addresses the entry at
`path` in the place of the directory. -/
def LeadsBack (uri : Bytes) (directory : OpenDALPath) (name path : Bytes) : Prop :=
  ∃ p, OpenDALPath.tryParse (uri ++ name) {} = (true, p) ∧
    SameObject { directory with path := path } p

/-- The names a listing reports lead back to their entries exactly when every entry has a question
mark in its path and, behind that of the directory, the decoding of what is in front of the mark. -/
theorem listFiles_leadsBack_iff
    (splits : ∀ x y : Bytes, urlDecode (x ++ slash :: y) = urlDecode x ++ slash :: urlDecode y)
    (emptyStays : urlDecode [] = []) (below : ListsBelow backend) {entry : OpenDALPrefix}
    (member : entry ∈ openDALPrefixes) {tail : Bytes} (noQuery : question ∉ tail)
    (directory : (entry.text ++ tail).getLast? = some slash)
    (h : (listFiles fs (entry.text ++ tail) opener).run backend w = (.ok (reports, answer), w')) :
    ∃ op p entries w₁, OpenDALPath.tryParse (entry.text ++ tail) {} = (true, p) ∧
      backend (.list op p.path) w₁ = (.ok entries, w') ∧ reports = entries.map report ∧
      ((∀ e ∈ entries, LeadsBack (entry.text ++ tail) p (report e).1 e.path) ↔
        ∀ e ∈ entries, question ∈ e.path ∧ ∃ rest, e.path = p.path ++ rest ∧
          ComesBack (layoutOf entry.scheme) (authorityOf tail) p.path rest) := by
  obtain ⟨op, p, entries, w₁, hparse, hnonempty, hlist, hreports, -⟩ := listFiles_ok h
  refine ⟨op, p, entries, w₁, hparse, hlist, hreports, ?_⟩
  have htail := directory_tail emptyStays member hparse hnonempty directory
  refine forall₂_congr fun e he => ?_
  have hbelow : p.path <+: e.path := below hlist e he
  have hjoined := tryParse_joined splits emptyStays htail noQuery member hparse hnonempty hbelow {}
  have hleads : LeadsBack (entry.text ++ tail) p (report e).1 e.path ↔
      joinedPath (layoutOf entry.scheme) (authorityOf tail) p.path e.path = e.path := by
    rw [LeadsBack, List.append_assoc]
    change (∃ p', OpenDALPath.tryParse (entry.text ++ (tail ++ e.path)) {} = _ ∧ _) ↔ _
    rw [hjoined]
    constructor
    · rintro ⟨p', hp', same⟩
      obtain rfl := (Prod.mk.inj hp').2
      exact same.path
    · exact fun hback => ⟨_, rfl, rfl, rfl, hback⟩
  have hlast : p.path.getLast? = some slash := by
    rw [tryParse_cut member] at hparse
    obtain rfl := (Prod.mk.inj hparse).2
    exact directory_path_last splits emptyStays htail noQuery entry.text hnonempty
  rw [hleads]
  constructor
  · intro hback
    obtain ⟨rest, hrest⟩ := hbelow
    refine ⟨question_mem_of_joinedPath splits hlast hback, rest, hrest.symm, ?_⟩
    rwa [← hrest, joinedPath_eq_iff hlast] at hback
  · rintro ⟨-, rest, hrest, hback⟩
    rwa [hrest, joinedPath_eq_iff hlast]

end Outcomes

section Paths

def pathsBackend : Backend (List Bytes)
  | .construct _, w => (.ok (), w)
  | .list _ path, w => (.ok ((w.filter path.isPrefixOf).map Entry.mk), w)
  | _, w => (.error (.opendal (bytes "Unsupported")), w)

theorem pathsBackend_below : ListsBelow pathsBackend := by
  intro op path entries w w' h entry hentry
  obtain ⟨hok, -⟩ := Prod.mk.inj h
  obtain rfl := Except.ok.inj hok
  obtain ⟨stored, hstored, rfl⟩ := List.mem_map.mp hentry
  exact List.isPrefixOf_iff_prefix.mp (List.mem_filter.mp hstored).2

end Paths

theorem listFiles_leadsBack_question :
    letI : StringUtil := percentDecoding
    ∃ p, OpenDALPath.tryParse (bytes "s3://bucket/x%3F/") {} = (true, p) ∧
      ((listFiles {} (bytes "s3://bucket/x%3F/") none).run pathsBackend [bytes "x?/x"]).1 =
        .ok ([(bytes "x?/x", false)], true) ∧
      LeadsBack (bytes "s3://bucket/x%3F/") p (bytes "x?/x") (bytes "x?/x") := by
  let _ : StringUtil := percentDecoding
  have hmember : (⟨bytes "s3://", bytes "s3", .s3⟩ : OpenDALPrefix) ∈ openDALPrefixes := by decide
  have hsplits (x y : Bytes) : urlDecode (x ++ slash :: y) = urlDecode x ++ slash :: urlDecode y :=
    decode_append_cons x y (by decide)
  have hnone : question ∉ bytes "bucket/x%3F/" := by decide
  have hrun : ((listFiles {} (bytes "s3://bucket/x%3F/") none).run pathsBackend [bytes "x?/x"]).1 =
      .ok ([(bytes "x?/x", false)], true) := by decide +kernel
  obtain ⟨op, p, entries, w, hparse, -, hreports, hiff⟩ :=
    listFiles_leadsBack_iff hsplits rfl pathsBackend_below hmember hnone (by decide)
      (Prod.ext hrun rfl)
  obtain ⟨e, rfl, hreport⟩ := List.map_eq_singleton_iff.mp hreports.symm
  have hentry : e.path = bytes "x?/x" := congrArg Prod.fst hreport
  have hpath : p.path = bytes "x?/" := by
    have hparsed : (OpenDALPath.tryParse (bytes "s3://bucket/x%3F/") {}).2.path = bytes "x?/" := by
      decide +kernel
    exact (congrArg (fun result => result.2.path) hparse).symm.trans hparsed
  have hback := hiff.mpr fun e' he' => by
    obtain rfl := List.mem_singleton.mp he'
    rw [hentry, hpath]
    refine ⟨by decide, bytes "x", rfl, ?_⟩
    change bytes "x" = urlDecode (beforeFirst question (bytes "x?/" ++ bytes "x"))
    decide +kernel
  have hleads := hback e List.mem_cons_self
  rw [hreport, hentry] at hleads
  exact ⟨p, hparse, hrun, hleads⟩

/-- A directory below a listed directory is addressed below itself. -/
theorem listFiles_leadsAstray :
    letI : StringUtil := percentDecoding
    let run := (listFiles {} (bytes "gs://b/directory/") none).run pathsBackend
      [bytes "directory/first/"]
    let joined := OpenDALPath.tryParse (bytes "gs://b/directory/" ++ bytes "directory/first/") {}
    run.1 = .ok ([(bytes "directory/first/", true)], true) ∧ joined.1 = true ∧
      joined.2.path = bytes "directory/directory/first/" ∧
      joined.2.path ≠ bytes "directory/first/" := by
  decide +kernel

end DuckdbOpendalfs.Directories.Listing
