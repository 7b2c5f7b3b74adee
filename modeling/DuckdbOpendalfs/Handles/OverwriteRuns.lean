/- DuckdbOpendalfs/Handles/OverwriteRuns
   digest: What is left of an existing object that is opened for writing without the overwrite flag. -/

import DuckdbOpendalfs.Handles.AppendRuns
import DuckdbOpendalfs.Handles.FailedOpen

set_option autoImplicit false
set_option relaxedAutoImplicit false

namespace DuckdbOpendalfs.Handles.OverwriteRuns

open Text.ByteString
open Collections.Stores
open Execution.Runs Execution.Programs
open Address.Uri
open Operators.LayerOptions
open Operators.Configuration (Operator Backend FileOpener createOperatorConfig operatorPlan
  operatorPlan_default)
open Operators.Objects
open FileHandle WriteHandle OpenFile AppendRuns FailedOpen

/-- Old contents under new ones that are written over them from the start. -/
def overlay (written contents : Bytes) : Bytes := written ++ contents.drop written.length

theorem eq_overlay_iff (written contents : Bytes) :
    written = overlay written contents ↔ contents.length ≤ written.length := by
  rw [overlay, List.self_eq_append_right, List.drop_eq_nil_iff]

variable {κ : Type} [DecidableEq κ]

/-- A writer replaces the whole object by what it commits. -/
def replaced (w : Store κ Bytes) (k : κ) (upload : Upload) : Store κ Bytes :=
  upload.committed.foldl (put · k) w

section Opening

variable {locate : Bytes → StringMapValue → Bytes → κ} {backend : Backend (Store κ Bytes)}
  {flags : FileOpenFlags} {op : Operator} {path uri : Bytes} {w : Store κ Bytes}

theorem openObject_keeps (laws : OpenBackend locate backend)
    (present : w (object locate op path) ≠ none) (keeps : flags.overwriteExistingFile = false) :
    ((openObject op path uri flags (OpenDALOpenOptions.ofFlags flags)).run backend w).2 = w := by
  unfold openObject
  rw [Program.run_bind, Program.run_perform]
  rcases hexists : backend (.objectExists op path) w with ⟨e | found, w₁⟩
  · exact laws.objectExists_keeps hexists
  · have hfound : found = true := by
      rw [laws.objectExists hexists, Option.isSome_iff_ne_none]
      exact present
    obtain rfl := laws.objectExists_keeps hexists
    subst hfound
    dsimp only
    rw [if_neg (by simp)]
    split
    · exact openForReading_keeps laws
    · have htruncate : (OpenDALOpenOptions.ofFlags flags).truncate = false := keeps
      rw [htruncate]
      exact openForWriting_keeps laws

theorem openFile_keeps [StringUtil] (laws : OpenBackend locate backend)
    {fs : Operators.Configuration.OpenDALFileSystem} {opener : Option FileOpener} {p : OpenDALPath}
    (plan : operatorPlan (createOperatorConfig fs · · opener) uri {} opener = .ok (op, p))
    (present : w (object locate op p.path) ≠ none) (keeps : flags.overwriteExistingFile = false) :
    ((openFile fs uri flags opener).run backend w).2 = w := by
  by_cases haccepted : ∃ op p, Accepted fs uri flags opener op p
  swap
  · have hrejected : ∀ op p, ¬ Accepted fs uri flags opener op p := by simpa using haccepted
    obtain ⟨e, he⟩ := run_openFile_rejected hrejected fun op => laws.construct rfl
    exact congrArg Prod.snd he
  obtain ⟨op', p', accepted⟩ := haccepted
  obtain ⟨rfl, rfl⟩ := Prod.mk.inj (Except.ok.inj (plan.symm.trans accepted.plan))
  rw [run_openFile accepted]
  rcases hconstruct : backend (.construct op) w with ⟨e | done, w₁⟩
  · exact laws.construct hconstruct
  · obtain rfl := laws.construct hconstruct
    exact openObject_keeps laws present keeps

end Opening

section Writing

variable {answers : WriterAnswers} {session : WriteSession} {content : Bytes}

def AllReturn (results : List (Except Exception WriteReply)) : Prop :=
  ∀ result ∈ results, ∃ reply, result = .ok reply

theorem after_appends (appending : Appending session content) {ops : List WriteOp}
    (returned : AllReturn (run (writeStep answers) session ops).1) :
    Appending (after (writeStep answers) session ops) (content ++ ops.flatMap payload) := by
  induction ops generalizing session content with
  | nil => exact (List.append_nil content).symm ▸ appending
  | cons op ops ih =>
    rw [run_cons_answers] at returned
    obtain ⟨reply, hreply⟩ := returned _ List.mem_cons_self
    have hnow := writeStep_appends_of_ok answers appending hreply
    have hlater := ih hnow fun result hresult => returned result (List.mem_cons_of_mem _ hresult)
    rwa [List.append_assoc] at hlater

theorem closed_of_close (sound : Sound session) {reply : WriteReply}
    (returns : (writeStep answers session .close).1 = .ok reply) :
    (writeStep answers session .close).2.handle.closed = true := by
  by_cases hclosed : session.handle.closed = true
  · rwa [writeStep_close_closed answers hclosed]
  · rw [writeStep, close_open answers sound (Bool.eq_false_of_not_eq_true hclosed)] at returns ⊢
    cases hanswer : answers session.calls .close with
    | error e =>
      rw [hanswer] at returns
      cases returns
    | ok done => rfl

theorem committed_of_close (flags : FileOpenFlags) {ops : List WriteOp}
    (returned : AllReturn (run (writeStep answers) (WriteSession.opened flags) (ops ++ [.close])).1) :
    (uploadOf (after (writeStep answers) (WriteSession.opened flags) (ops ++ [.close])).calls).committed
      = [ops.flatMap payload] := by
  have happends := after_appends (appending_opened flags) returned
  have hpayload : [] ++ (ops ++ [WriteOp.close]).flatMap payload = ops.flatMap payload := by
    rw [List.nil_append, List.flatMap_append]
    exact List.append_nil _
  rw [hpayload] at happends
  rw [run_concat_answers] at returned
  obtain ⟨reply, hclose⟩ := returned _ (List.mem_append_right _ List.mem_cons_self)
  have hbefore := after_appends (appending_opened flags) fun result hresult =>
    returned result (List.mem_append_left _ hresult)
  have hclosed := closed_of_close hbefore.sound hclose
  rw [← after_concat] at hclosed
  rw [happends.upload, if_pos hclosed]

end Writing

section Overwriting

variable {locate : Bytes → StringMapValue → Bytes → κ} {backend : Backend (Store κ Bytes)}

/-- After an open without the overwrite flag, calls that return and a close, the object holds the
written bytes over its old ones exactly when nothing of the old ones shows behind the written. -/
theorem openFile_overlays_iff [StringUtil] (laws : OpenBackend locate backend)
    {fs : Operators.Configuration.OpenDALFileSystem} {uri : Bytes} {flags : FileOpenFlags}
    {opener : Option FileOpener} {op : Operator} {p : OpenDALPath}
    (plan : operatorPlan (createOperatorConfig fs · · opener) uri {} opener = .ok (op, p))
    {w w' : Store κ Bytes} {contents : Bytes} (present : w (object locate op p.path) = some contents)
    (keeps : flags.overwriteExistingFile = false) {handle : OpenDALWriteHandle}
    (opened : (openFile fs uri flags opener).run backend w = (.ok (some (.write handle)), w'))
    {answers : WriterAnswers} {ops : List WriteOp}
    (returned : AllReturn (run (writeStep answers) ⟨handle, []⟩ (ops ++ [.close])).1) :
    replaced w' (object locate op p.path)
        (uploadOf (after (writeStep answers) ⟨handle, []⟩ (ops ++ [.close])).calls)
        (object locate op p.path) = some (overlay (ops.flatMap payload) contents) ↔
      contents.length ≤ (ops.flatMap payload).length := by
  have hexists : w (object locate op p.path) ≠ none := by simp [present]
  have hsame := openFile_keeps laws plan hexists keeps
  rw [opened] at hsame
  obtain rfl : w' = w := hsame
  obtain ⟨rfl, -⟩ := (openFile_returns fs uri flags opener).of_run backend opened
  have hcommitted := committed_of_close flags returned
  rw [WriteSession.opened] at hcommitted
  rw [replaced, hcommitted, List.foldl_cons, List.foldl_nil, put, Function.update_self,
    Option.some_inj, eq_overlay_iff]

end Overwriting

theorem openFile_overlays_covered :
    letI : StringUtil := percentDecoding
    let w : Store Bytes Bytes := put (fun _ => none) (bytes "f") (bytes "data")
    let opened := (openFile {} (bytes "gs://b/f") { openForWriting := true } none).run
      (storeBackend fun _ _ path => path) w
    let ops : List WriteOp :=
      [.write (bufferOf (bytes "other ")) 6, .write (bufferOf (bytes "data")) 4]
    let session : WriteSession := ⟨OpenDALWriteHandle.opened { openForWriting := true }, []⟩
    opened.1 = .ok (some (.write session.handle)) ∧
      replaced opened.2 (bytes "f")
        (uploadOf (after (writeStep answersAll) session (ops ++ [.close])).calls) (bytes "f") =
        some (overlay (ops.flatMap payload) (bytes "data")) := by
  let _ : StringUtil := percentDecoding
  intro w opened ops session
  have hopened : opened.1 = .ok (some (.write session.handle)) := by decide +kernel
  have hreturned : AllReturn (run (writeStep answersAll) session (ops ++ [.close])).1 := by
    have hanswers : (run (writeStep answersAll) session (ops ++ [.close])).1 =
        [.ok (.count 6), .ok (.count 4), .ok .done] := by decide +kernel
    rw [hanswers]
    simp [AllReturn]
  let p := (OpenDALPath.tryParse (bytes "gs://b/f") {}).2
  have hparse : (OpenDALPath.tryParse (bytes "gs://b/f") {}).1 = true := by decide +kernel
  obtain ⟨op, hplan⟩ := operatorPlan_default hparse
  have hobject : object (fun _ _ path => path) op p.path = bytes "f" := by
    change p.path = bytes "f"
    decide +kernel
  have hcovered : (bytes "data").length ≤ (ops.flatMap payload).length := by decide +kernel
  refine ⟨hopened, ?_⟩
  rw [← hobject]
  refine (openFile_overlays_iff (storeBackend_open fun _ _ path => path) hplan ?_ rfl
    (Prod.ext hopened rfl) hreturned).mpr hcovered
  rw [hobject]
  rfl

/-- A write of two bytes over an object of four leaves two. -/
theorem openFile_discards :
    letI : StringUtil := percentDecoding
    let w : Store Bytes Bytes := put (fun _ => none) (bytes "f") (bytes "data")
    let opened := (openFile {} (bytes "gs://b/f") { openForWriting := true } none).run
      (storeBackend fun _ _ path => path) w
    let ops : List WriteOp := [.write (bufferOf (bytes "ab")) 2, .close]
    let session : WriteSession := ⟨OpenDALWriteHandle.opened { openForWriting := true }, []⟩
    let left := replaced opened.2 (bytes "f")
      (uploadOf (after (writeStep answersAll) session ops).calls)
    opened.1 = .ok (some (.write session.handle)) ∧ w (bytes "f") = some (bytes "data") ∧
      (run (writeStep answersAll) session ops).1 = [.ok (.count 2), .ok .done] ∧
      overlay (bytes "ab") (bytes "data") = bytes "abta" ∧ left (bytes "f") = some (bytes "ab") := by
  decide +kernel

end DuckdbOpendalfs.Handles.OverwriteRuns
