/- DuckdbOpendalfs/FileSystem/RoundTrip
   digest: What is read from an object after a write handle on it was closed, whatever happens beside. -/

import DuckdbOpendalfs.FileSystem.Sessions
import DuckdbOpendalfs.Handles.CursorRefinement

set_option autoImplicit false
set_option relaxedAutoImplicit false

namespace DuckdbOpendalfs.FileSystem.RoundTrip

open Text.ByteString
open Collections.Stores
open Execution.Programs Execution.Footprints Execution.Runs Execution.Threads
open Address.Uri
open Operators.LayerOptions Operators.Objects
open Operators.Configuration (Backend FileOpener OpenDALCall OpenDALFileSystem Operator Metadata
  operatorPlan_default)
open Handles.FileHandle Handles.OpenFile Handles.WriteHandle Handles.RetriedUploads
open Handles.AppendRuns (bufferOf)
open Handles.Readers Handles.ReadHandle Handles.CursorRefinement
open Operations Isolation Provenance Sessions

variable {ι κ : Type}

/-- A backend that shows the objects of its store as they are. -/
structure ServingBackend (locate : Bytes → StringMapValue → Bytes → κ)
    (backend : Backend (Store κ Bytes)) : Prop extends HonestBackend locate backend where
  frame : ∀ c w k, k ∉ writes locate c → (backend c w).2 k = w k
  construct : ∀ op w, backend (.construct op) w = (.ok (), w)
  objectExists : ∀ op path w,
    backend (.objectExists op path) w = (.ok (w (object locate op path)).isSome, w)
  stat : ∀ op path w data, w (object locate op path) = some data →
    ∃ metadata : Metadata, backend (.stat op path) w = (.ok metadata, w) ∧
      metadata.contentLength = UInt64.ofNat data.length
  getReader : ∀ op path w, w (object locate op path) ≠ none →
    backend (.getReader op path) w = (.ok (), w)

section Events

variable [DecidableEq κ] [DecidableEq ι] {locate : Bytes → StringMapValue → Bytes → κ}
  {backend : Backend (Store κ Bytes)} {uploads : Nat → Uploader} {w₀ : Store κ Bytes}
  {contents : Nat → Bytes} {world : World ι κ}

/-- An event leaves an object alone: a thread calls for no change of it, and no handle on it is
closed that was open. -/
def LeavesAlone (locate : Bytes → StringMapValue → Bytes → κ) (k : κ) (world : World ι κ) :
    Event ι → Prop
  | .step i => ∀ c next later, (world.threads i).programs = .call c next :: later →
      k ∉ writes locate c
  | .write h op => op = .close → ∀ writer : OpenWriter κ, world.writers[h]? = some writer →
      writer.target = k → writer.isClosed
  | .destroy h => ∀ writer : OpenWriter κ, world.writers[h]? = some writer → writer.target = k →
      writer.isClosed

def AllLeaveAlone (locate : Bytes → StringMapValue → Bytes → κ) (backend : Backend (Store κ Bytes))
    (uploads : Nat → Uploader) (k : κ) : World ι κ → List (Event ι) → Prop
  | _, [] => True
  | world, event :: events => LeavesAlone locate k world event ∧
      AllLeaveAlone locate backend uploads k (step backend uploads world event).2 events

omit [DecidableEq κ] [DecidableEq ι] in
theorem leavesAlone_idle (k : κ) {i : ι} (idle : (world.threads i).programs = []) :
    LeavesAlone locate k world (.step i) := by
  intro c next later hprograms
  rw [idle] at hprograms
  cases hprograms

omit [DecidableEq κ] [DecidableEq ι] in
theorem leavesAlone_other {k k' : κ} {h : Nat}
    (target : world.writers[h]?.map OpenWriter.target = some k') (apart : k' ≠ k) (op : WriteOp) :
    LeavesAlone locate k world (.write h op) := by
  rintro - writer inUse rfl
  rw [inUse, Option.map_some, Option.some_inj] at target
  exact absurd target.symm apart

theorem contentOf_append (h : Nat) (front later : List (Event ι)) :
    contentOf h (front ++ later) (run (step backend uploads) world (front ++ later)).1 =
      contentOf h front (run (step backend uploads) world front).1 ++
        contentOf h later
          (run (step backend uploads) (after (step backend uploads) world front) later).1 := by
  induction front generalizing world with
  | nil => rfl
  | cons event front ih =>
    rw [List.cons_append, run_cons_answers, run_cons_answers, contentOf, contentOf, ih,
      List.append_assoc, after_cons]

omit [DecidableEq ι] in
theorem resume_writers (h : Nat) (writer : OpenWriter κ) (session : WriteSession) (h' : Nat) :
    (world.resume h writer session).writers[h']? =
      if h = h' then world.writers[h']?.map fun _ => { writer with session := session }
      else world.writers[h']? := by
  change (world.writers.set h _)[h']? = _
  rw [List.getElem?_set']
  split_ifs <;> rfl

theorem step_closed (backend : Backend (Store κ Bytes)) (uploads : Nat → Uploader)
    (consistent : Consistent w₀ contents world) (event : Event ι) {h : Nat} {writer : OpenWriter κ}
    (inUse : world.writers[h]? = some writer) (closed : writer.isClosed) :
    accepts h event (step backend uploads world event).1 = [] ∧
      ∃ writer' : OpenWriter κ, (step backend uploads world event).2.writers[h]? = some writer' ∧
        writer'.isClosed := by
  rcases step_cases backend uploads consistent event with habsent | ⟨i, -, hstep⟩ |
    ⟨h', writer', session, resumed⟩
  · rw [habsent]
    exact ⟨accepts_of_idle h event (Or.inr rfl), writer, inUse, closed⟩
  · rw [hstep]
    exact ⟨accepts_of_idle h event (Or.inl rfl), writer, joined_kept uploads _ inUse, closed⟩
  · rw [resumed.writers, resume_writers]
    by_cases hh : h' = h
    · subst hh
      obtain rfl : writer = writer' := Option.some.inj (inUse.symm.trans resumed.inUse)
      obtain ⟨hclosed, hnothing⟩ := resumed.stays closed
      refine ⟨hnothing, { writer with session := session }, ?_, hclosed⟩
      rw [if_pos rfl, inUse]
      rfl
    · rw [if_neg hh]
      exact ⟨resumed.others h (Ne.symm hh), writer, inUse, closed⟩

theorem run_closed (honest : HonestBackend locate backend)
    (lawful : ∀ n, AllOrNothing (uploads n)) (consistent : Consistent w₀ contents world)
    (events : List (Event ι)) {h : Nat}
    {writer : OpenWriter κ} (inUse : world.writers[h]? = some writer) (closed : writer.isClosed) :
    contentOf h events (run (step backend uploads) world events).1 = [] := by
  induction events generalizing contents world writer with
  | nil => rfl
  | cons event events ih =>
    obtain ⟨hnothing, writer', hwriter', hclosed'⟩ :=
      step_closed backend uploads consistent event inUse closed
    rw [run_cons_answers, contentOf, hnothing, List.nil_append]
    exact ih (step_consistent honest lawful consistent event) hwriter' hclosed'

theorem step_closes (consistent : Consistent w₀ contents world) (event : Event ι) {h : Nat}
    {writer writer' : OpenWriter κ} (inUse : world.writers[h]? = some writer)
    (isOpen : ¬ writer.isClosed)
    (inUse' : (step backend uploads world event).2.writers[h]? = some writer')
    (closed : writer'.isClosed) :
    (step backend uploads world event).2.store writer.target =
      some (contents h ++ accepts h event (step backend uploads world event).1) := by
  have hkept {writers : List (OpenWriter κ)} (hsame : writers[h]? = some writer)
      (hafter : writers[h]? = some writer') : False := by
    obtain rfl := Option.some.inj (hsame.symm.trans hafter)
    exact isOpen closed
  rcases step_cases backend uploads consistent event with habsent | ⟨i, -, hstep⟩ |
    ⟨h', writer'', session, resumed⟩
  · rw [habsent] at inUse'
    exact (hkept inUse inUse').elim
  · rw [hstep] at inUse'
    exact (hkept (joined_kept uploads _ inUse) inUse').elim
  · rw [resumed.writers, resume_writers] at inUse'
    by_cases hh : h' = h
    · subst hh
      obtain rfl : writer = writer'' := Option.some.inj (inUse.symm.trans resumed.inUse)
      rw [if_pos rfl, inUse] at inUse'
      obtain rfl := Option.some.inj inUse'
      rw [resumed.store]
      change commit world.store writer.target (writer.uploader.committed writer.session.calls)
        (writer.uploader.committed session.calls) writer.target = _
      rw [commit_closes (consistent.writers h' writer inUse) resumed.accepting,
        if_pos ⟨Bool.eq_false_of_not_eq_true isOpen, closed⟩, put, Function.update_self]
    · rw [if_neg hh] at inUse'
      exact (hkept inUse inUse').elim

omit [DecidableEq κ] [DecidableEq ι] in
private theorem thread_alone (frame : ∀ c w k, k ∉ writes locate c → (backend c w).2 k = w k) {k : κ}
    (thread : Thread OpenDALCall.Reply Exception (Outcome κ)) (w : Store κ Bytes)
    (alone : ∀ c next later, thread.programs = .call c next :: later → k ∉ writes locate c) :
    (thread.step backend w).2 k = w k := by
  obtain ⟨programs, answers⟩ := thread
  match programs with
  | [] | .done _ :: _ | .fail _ :: _ => rfl
  | .call c next :: later =>
    rw [Thread.step_call]
    exact frame c w k (alone c next later rfl)

theorem step_alone (frame : ∀ c w k, k ∉ writes locate c → (backend c w).2 k = w k)
    (consistent : Consistent w₀ contents world) {event : Event ι} {k : κ}
    (alone : LeavesAlone locate k world event) :
    (step backend uploads world event).2.store k = world.store k := by
  rcases step_cases backend uploads consistent event with habsent | ⟨i, rfl, hstep⟩ |
    ⟨h, writer, session, resumed⟩
  · rw [habsent]
  · rw [hstep]
    exact thread_alone frame (world.threads i) world.store alone
  · rw [resumed.store]
    change commit world.store writer.target (writer.uploader.committed writer.session.calls)
      (writer.uploader.committed session.calls) k = _
    rw [commit_closes (consistent.writers h writer resumed.inUse) resumed.accepting]
    split_ifs with hcloses
    · obtain ⟨hopen, hclosed⟩ := hcloses
      have isOpen : ¬ writer.isClosed := by
        rw [OpenWriter.isClosed, hopen]
        exact Bool.false_ne_true
      refine Function.update_of_ne (fun htarget => isOpen ?_) _ _
      rcases resumed.closing isOpen hclosed with rfl | rfl
      · exact alone rfl writer resumed.inUse htarget.symm
      · exact alone writer resumed.inUse htarget.symm
    · rfl

theorem run_alone (serving : ServingBackend locate backend)
    (lawful : ∀ n, AllOrNothing (uploads n)) (consistent : Consistent w₀ contents world)
    {events : List (Event ι)} {k : κ}
    (alone : AllLeaveAlone locate backend uploads k world events) :
    (after (step backend uploads) world events).store k = world.store k := by
  induction events generalizing contents world with
  | nil => rfl
  | cons event events ih =>
    rw [after_cons, ih (step_consistent serving.toHonestBackend lawful consistent event) alone.2,
      step_alone serving.frame consistent alone.1]

end Events

section Reading

variable {locate : Bytes → StringMapValue → Bytes → κ} {backend : Backend (Store κ Bytes)}

/-- What a backend answers about an object becomes these metadata, and nothing changes. -/
def StatsAs (backend : Backend (Store κ Bytes)) (op : Operator) (path : Bytes) (w : Store κ Bytes)
    (metadata : FileMetadata) : Prop :=
  ∃ found, backend (.stat op path) w = (.ok found, w) ∧ convertMetadata found = .ok metadata

theorem convertMetadata_size {metadata : Metadata} {n : Nat} (small : n < 2 ^ 63)
    (length : metadata.contentLength = UInt64.ofNat n) :
    ∃ metadata_p, convertMetadata metadata = .ok metadata_p ∧ metadata_p.fileSize.toInt = n := by
  have hfits : ¬ Int64.maxValue.toUInt64 < metadata.contentLength := by
    have hmax : Int64.maxValue.toUInt64.toNat = 2 ^ 63 - 1 := by decide
    rw [length, UInt64.lt_iff_toNat_lt, hmax, UInt64.toNat_ofNat']
    omega
  rw [convertMetadata, if_neg hfits]
  refine ⟨_, rfl, ?_⟩
  change metadata.contentLength.toInt64.toInt = n
  rw [length, count_toInt small]

variable {w : Store κ Bytes} {content : Bytes} {op : Operator} {metadata : FileMetadata}

theorem ServingBackend.statsAs (serving : ServingBackend locate backend) {path : Bytes}
    (present : w (object locate op path) = some content) (small : content.length < 2 ^ 63) :
    ∃ metadata : FileMetadata,
      StatsAs backend op path w metadata ∧ metadata.fileSize.toInt = content.length := by
  obtain ⟨found, hstat, hlength⟩ := serving.stat op path w content present
  obtain ⟨metadata, hconvert, hsize⟩ := convertMetadata_size small hlength
  exact ⟨metadata, ⟨found, hstat, hconvert⟩, hsize⟩

theorem openForReading_present (serving : ServingBackend locate backend) {path : Bytes}
    (flags : FileOpenFlags) (present : w (object locate op path) = some content)
    (stats : StatsAs backend op path w metadata) :
    (openForReading op path flags).run backend w = (.ok (some (.read flags metadata)), w) := by
  obtain ⟨found, hstat, hconvert⟩ := stats
  have hreader : backend (.getReader op path) w = (.ok (), w) :=
    serving.getReader op path w (by rw [present]; nofun)
  rw [openForReading, Program.run_bind, Program.run_perform, hstat]
  dsimp only
  rw [Program.run_bind, Program.run_lift, hconvert]
  dsimp only
  rw [Program.run_bind, Program.run_perform, hreader]
  rfl

theorem openFile_reading [StringUtil] (serving : ServingBackend locate backend)
    {fs : OpenDALFileSystem} {uri : Bytes} {flags : FileOpenFlags} {opener : Option FileOpener}
    {p : OpenDALPath} (accepted : Accepted fs uri flags opener op p)
    (reading : flags.openForReading = true)
    (present : w (object locate op p.path) = some content)
    (stats : StatsAs backend op p.path w metadata) :
    (openFile fs uri flags opener).run backend w = (.ok (some (.read flags metadata)), w) := by
  have hread : (OpenDALOpenOptions.ofFlags flags).read = true := reading
  rw [run_openFile accepted, serving.construct]
  dsimp only
  rw [openObject, Program.run_bind, Program.run_perform, serving.objectExists, present]
  dsimp only [Option.isSome]
  rw [if_neg (by simp), if_pos hread, openForReading_present serving flags present stats]

end Reading

/-- A handle for writing is closed by `event`, whatever has happened before, and no event of `later`
changes its object. Then the object is all that the handle has accepted, a URI of it is opened for
reading with its metadata and that size, and every run of calls on the read handle, over any reader
of what is stored, is answered as by a cursor over the accepted bytes. -/
theorem closed_content_read_back [DecidableEq κ] [DecidableEq ι] [StringUtil]
    {locate : Bytes → StringMapValue → Bytes → κ} {backend : Backend (Store κ Bytes)}
    (serving : ServingBackend locate backend) {uploads : Nat → Uploader}
    (lawful : ∀ n, AllOrNothing (uploads n)) (fs : OpenDALFileSystem)
    (openers : ι → Option FileOpener) (operations : ι → List FileOperation) (w : Store κ Bytes)
    (front : List (Event ι)) (event : Event ι) (later : List (Event ι)) {h : Nat}
    {writer writer' : OpenWriter κ}
    (inUse : (after (step backend uploads) (start locate fs openers operations w) front).writers[h]? =
      some writer)
    (isOpen : ¬ writer.isClosed)
    (inUse' : (after (step backend uploads) (start locate fs openers operations w)
      (front ++ [event])).writers[h]? = some writer')
    (closed : writer'.isClosed)
    (alone : AllLeaveAlone locate backend uploads writer.target
      (after (step backend uploads) (start locate fs openers operations w) (front ++ [event])) later)
    {uri : Bytes} {flags : FileOpenFlags} {opener : Option FileOpener} {op : Operator}
    {p : OpenDALPath} (accepted : Accepted fs uri flags opener op p)
    (reading : flags.openForReading = true) (names : object locate op p.path = writer.target) :
    let events := front ++ event :: later
    let ended := run (step backend uploads) (start locate fs openers operations w) events
    let content := contentOf h events ended.1
    ended.2.store (object locate op p.path) = some content ∧
      (content.length < 2 ^ 63 →
        ∃ metadata : FileMetadata, StatsAs backend op p.path ended.2.store metadata ∧
          metadata.fileSize.toInt = content.length ∧
          (openFile fs uri flags opener).run backend ended.2.store =
            (.ok (some (.read flags metadata)), ended.2.store) ∧
          ∀ stored, ended.2.store (object locate op p.path) = some stored →
            ∀ R : Reader stored, R.Reliable → ∀ ops : List ReadOp,
              (run (handleStep R) (OpenDALReadHandle.opened R flags metadata) ops).1.map view =
                (run (cursorStep content) {} ops).1) := by
  intro events ended content
  have hbefore := run_consistent serving.toHonestBackend lawful
    (consistent_start locate fs openers operations w) front
  have hafter := step_consistent serving.toHonestBackend lawful hbefore event
  rw [after_concat] at inUse' alone
  have hcloses := step_closes hbefore event inUse isOpen inUse' closed
  have hcontent : content = contentOf h front (run (step backend uploads)
      (start locate fs openers operations w) front).1 ++ accepts h event (step backend uploads
        (after (step backend uploads) (start locate fs openers operations w) front) event).1 := by
    change contentOf h (front ++ event :: later) _ = _
    rw [contentOf_append, run_cons_answers, contentOf,
      run_closed serving.toHonestBackend lawful hafter later inUse' closed, List.append_nil]
  have hpresent : ended.2.store (object locate op p.path) = some content := by
    change (after (step backend uploads) (start locate fs openers operations w)
      (front ++ event :: later)).store _ = _
    rw [after_append, after_cons, names, run_alone serving lawful hafter alone, hcloses, hcontent,
      List.nil_append]
  refine ⟨hpresent, fun small => ?_⟩
  obtain ⟨metadata, hstats, hsize⟩ := serving.statsAs hpresent small
  refine ⟨metadata, hstats, hsize, openFile_reading serving accepted reading hpresent hstats,
    fun stored hstored R reliable ops => ?_⟩
  obtain rfl : content = stored := Option.some.inj (hpresent.symm.trans hstored)
  exact (run_simulation (R := Tracks) (fun _ _ op tracks => handleStep_agrees reliable small tracks op)
    (tracks_opened flags reading metadata) ops).1

theorem storeBackend_serving [DecidableEq κ] (locate : Bytes → StringMapValue → Bytes → κ) :
    ServingBackend locate (storeBackend locate) where
  toHonestBackend := storeBackend_honest locate
  frame := (storeBackend_local locate).frame
  construct _ _ := rfl
  objectExists _ _ _ := rfl
  stat op path w data h := by
    refine ⟨{ contentLength := UInt64.ofNat data.length, isFile := true, isDir := false }, ?_, rfl⟩
    simp only [storeBackend, h]
  getReader _ _ _ _ := rfl

theorem closed_content_read_back_beside :
    letI : StringUtil := percentDecoding
    let writing : FileOpenFlags := { openForWriting := true, overwriteExistingFile := true }
    let operations : Bool → List FileOperation := fun i =>
      if i then [.openFile (bytes "gs://b/a") writing]
      else [.openFile (bytes "gs://b/b") writing]
    let uploads : Nat → Uploader := fun _ => stagingUploader fun _ _ => .ok ()
    let front : List (Event Bool) := List.replicate 6 (.step true) ++
      List.replicate 6 (.step false) ++ [.write 0 (.write (bufferOf (bytes "ab")) 2)]
    let later : List (Event Bool) :=
      [.step false, .write 1 (.write (bufferOf (bytes "z")) 1), .write 1 .close]
    let ended := run (step (storeBackend byPath) uploads)
      (start byPath {} (fun _ => none) operations fun _ => none) (front ++ .write 0 .close :: later)
    let content := contentOf 0 (front ++ .write 0 .close :: later) ended.1
    ended.2.store (bytes "a") = some content ∧
      ∃ metadata : FileMetadata, metadata.fileSize.toInt = content.length ∧
        (openFile {} (bytes "gs://b/a") { openForReading := true } none).run (storeBackend byPath)
          ended.2.store = (.ok (some (.read { openForReading := true } metadata)), ended.2.store) ∧
        (run (handleStep (chunkedReader content 0))
          (OpenDALReadHandle.opened _ { openForReading := true } metadata)
          [.call (.read false 5)]).1.map view = [.count 2 (bytes "ab")] := by
  let _ : StringUtil := percentDecoding
  intro writing operations uploads front later ended content
  let machine : World Bool Bytes → Event Bool → Observation × World Bool Bytes :=
    step (storeBackend byPath) uploads
  let origin : World Bool Bytes := start byPath {} (fun _ => none) operations fun _ => none
  obtain ⟨writer, hwriter⟩ : ∃ writer, (after machine origin front).writers[0]? = some writer :=
    Option.isSome_iff_exists.mp (by decide +kernel)
  obtain ⟨writer', hwriter'⟩ :
      ∃ writer, (after machine origin (front ++ [.write 0 .close])).writers[0]? = some writer :=
    Option.isSome_iff_exists.mp (by decide +kernel)
  have hopen : (after machine origin front).writers[0]?.map
      (fun writer => (writer.target, writer.session.handle.closed)) = some (bytes "a", false) := by
    decide +kernel
  rw [hwriter, Option.map_some, Option.some_inj, Prod.mk.injEq] at hopen
  have hclosed : (after machine origin (front ++ [.write 0 .close])).writers[0]?.map
      (fun writer => writer.session.handle.closed) = some true := by decide +kernel
  rw [hwriter', Option.map_some, Option.some_inj] at hclosed
  have hidle : ((after machine origin (front ++ [.write 0 .close])).threads false).programs = [] :=
    List.isEmpty_iff.mp (by decide +kernel)
  have hother : (machine (after machine origin (front ++ [.write 0 .close]))
      (.step false)).2.writers[1]?.map OpenWriter.target = some (bytes "b") := by decide +kernel
  have hother' : (machine (machine (after machine origin (front ++ [.write 0 .close]))
      (.step false)).2 (.write 1 (.write (bufferOf (bytes "z")) 1))).2.writers[1]?.map
        OpenWriter.target = some (bytes "b") := by decide +kernel
  have hcontent : content = bytes "ab" := by decide +kernel
  have hparse : (OpenDALPath.tryParse (bytes "gs://b/a") {}).1 = true := by decide +kernel
  have hpath : (OpenDALPath.tryParse (bytes "gs://b/a") {}).2.path = bytes "a" := by
    decide +kernel
  obtain ⟨op, hplan⟩ := operatorPlan_default hparse
  have haccepted : Accepted {} (bytes "gs://b/a") { openForReading := true } none op
      (OpenDALPath.tryParse (bytes "gs://b/a") {}).2 :=
    ⟨by decide, rfl, hplan, by rw [hpath]; decide⟩
  have hapart : bytes "b" ≠ writer.target := by
    rw [hopen.1]
    decide
  have hsmall : content.length < 2 ^ 63 := by
    rw [hcontent]
    decide
  have hanswers : (run (cursorStep content) {} [.call (.read false 5)]).1 =
      [.count 2 (bytes "ab")] := by
    rw [hcontent]
    decide
  have halone (w₁ : World Bool Bytes) (idle : (w₁.threads false).programs = [])
      (other : (machine w₁ (.step false)).2.writers[1]?.map OpenWriter.target = some (bytes "b"))
      (other' : (machine (machine w₁ (.step false)).2 (.write 1 (.write (bufferOf (bytes "z"))
        1))).2.writers[1]?.map OpenWriter.target = some (bytes "b")) :
      AllLeaveAlone byPath (storeBackend byPath) uploads writer.target w₁ later :=
    ⟨leavesAlone_idle _ idle, leavesAlone_other other hapart _, leavesAlone_other other' hapart _,
      trivial⟩
  have hnames : object byPath op (OpenDALPath.tryParse (bytes "gs://b/a") {}).2.path =
      writer.target := hpath.trans hopen.1.symm
  have isOpen : ¬ writer.isClosed := by
    rw [OpenWriter.isClosed, hopen.2]
    exact Bool.false_ne_true
  have hlater := halone _ hidle hother hother'
  have hlawful (n : Nat) : AllOrNothing (uploads n) := stagingUploader_allOrNothing _
  clear_value operations uploads front later
  obtain ⟨hstored, hopens⟩ := closed_content_read_back (storeBackend_serving byPath) hlawful
    {} (fun _ => none) operations (fun _ => none) front (.write 0 .close) later hwriter isOpen
    hwriter' hclosed hlater haccepted rfl hnames
  obtain ⟨metadata, -, hsize, hopened, hreads⟩ := hopens hsmall
  have hreliable : (chunkedReader content 0).Reliable := ⟨fun _ _ _ => nofun, fun _ _ _ _ => nofun⟩
  have hobject : object byPath op (OpenDALPath.tryParse (bytes "gs://b/a") {}).2.path = bytes "a" :=
    hpath
  rw [hobject] at hstored
  exact ⟨hstored, metadata, hsize, hopened,
    (hreads content (by rw [hobject]; exact hstored) _ hreliable _).trans hanswers⟩

end DuckdbOpendalfs.FileSystem.RoundTrip
