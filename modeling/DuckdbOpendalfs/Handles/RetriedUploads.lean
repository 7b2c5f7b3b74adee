/- DuckdbOpendalfs/Handles/RetriedUploads
   digest: Over a writer that throws at any calls, what a write handle has committed when it is gone. -/

import DuckdbOpendalfs.Handles.AppendRuns
import DuckdbOpendalfs.Handles.Destruction

set_option autoImplicit false
set_option relaxedAutoImplicit false

namespace DuckdbOpendalfs.Handles.RetriedUploads

open Text.ByteString
open Execution.Runs
open Operators.LayerOptions
open Operators.Objects (notFound)
open FileHandle WriteHandle AppendRuns Destruction

/-- A writer of the backend: how it answers a call after the calls before it, and with what contents
the call replaces the object, if it does. -/
structure Uploader where
  answers : WriterAnswers
  replaces : List WriterCall → WriterCall → Option Bytes

section Histories

variable {α : Type}

def yields (f : List WriterCall → WriterCall → List α) (calls : List WriterCall) : List α :=
  (calls.foldl (fun now c => (now.1 ++ [c], now.2 ++ f now.1 c)) ([], [])).2

theorem yields_concat (f : List WriterCall → WriterCall → List α) (calls : List WriterCall)
    (c : WriterCall) : yields f (calls ++ [c]) = yields f calls ++ f calls c := by
  have hcalls : (calls.foldl (fun now c => (now.1 ++ [c], now.2 ++ f now.1 c))
      (([], []) : List WriterCall × List α)).1 = calls := by
    induction calls using List.reverseRecOn with
    | nil => rfl
    | append_singleton calls c ih =>
      rw [List.foldl_append, List.foldl_cons, List.foldl_nil, ih]
  rw [yields, List.foldl_append, List.foldl_cons, List.foldl_nil, hcalls]
  rfl

end Histories

def takes (answers : WriterAnswers) (before : List WriterCall) (c : WriterCall) : Bytes :=
  match c, answers before c with
  | .write data, .ok _ => data
  | _, _ => []

def taken (answers : WriterAnswers) (calls : List WriterCall) : Bytes := yields (takes answers) calls

def Uploader.committed (uploader : Uploader) (calls : List WriterCall) : List Bytes :=
  yields (fun before c => (uploader.replaces before c).toList) calls

/-- A writer that commits all it has taken or nothing. Its first close that returns replaces the
object by the bytes of the writes that have returned; until then no call changes the object, and a
call that throws adds nothing to the upload. -/
structure AllOrNothing (uploader : Uploader) : Prop where
  closes : ∀ calls, ¬ CloseAnswered uploader.answers calls →
    uploader.answers calls .close = .ok () →
      uploader.replaces calls .close = some (taken uploader.answers calls)
  otherwise : ∀ calls c, ¬ CloseAnswered uploader.answers calls →
    ¬ (c = .close ∧ uploader.answers calls .close = .ok ()) → uploader.replaces calls c = none

section Uploads

variable {uploader : Uploader} {calls : List WriterCall} {c : WriterCall}

theorem committed_close (lawful : AllOrNothing uploader)
    (unclosed : ¬ CloseAnswered uploader.answers calls)
    (answered : uploader.answers calls .close = .ok ()) :
    uploader.committed (calls ++ [.close]) =
      uploader.committed calls ++ [taken uploader.answers calls] := by
  rw [Uploader.committed, yields_concat, lawful.closes calls unclosed answered]
  rfl

theorem committed_other (lawful : AllOrNothing uploader)
    (unclosed : ¬ CloseAnswered uploader.answers calls)
    (other : ¬ (c = .close ∧ uploader.answers calls .close = .ok ())) :
    uploader.committed (calls ++ [c]) = uploader.committed calls := by
  rw [Uploader.committed, yields_concat, lawful.otherwise calls c unclosed other]
  exact List.append_nil _

theorem taken_concat (answers : WriterAnswers) (calls : List WriterCall) (c : WriterCall) :
    taken answers (calls ++ [c]) = taken answers calls ++ takes answers calls c :=
  yields_concat _ calls c

theorem takes_error {answers : WriterAnswers} {e : Exception} (thrown : answers calls c = .error e) :
    takes answers calls c = [] := by
  cases c <;> simp [takes, thrown]

theorem takes_write {answers : WriterAnswers} {data : Bytes}
    (answered : answers calls (.write data) = .ok ()) : takes answers calls (.write data) = data := by
  simp [takes, answered]

end Uploads

section Invariant

variable {uploader : Uploader} {session : WriteSession} {content : Bytes}

/-- The writer holds what was accepted, and has committed it when the handle is closed. -/
structure Accepting (uploader : Uploader) (session : WriteSession) (content : Bytes) : Prop where
  lawful : AllOrNothing uploader
  reachable : Reachable uploader.answers session
  position : session.handle.position = UInt64.ofNat content.length
  taken : taken uploader.answers session.calls = content
  committed : uploader.committed session.calls = if session.handle.closed then [content] else []

theorem accepting_opened (lawful : AllOrNothing uploader) (flags : FileOpenFlags) :
    Accepting uploader (WriteSession.opened flags) [] where
  lawful := lawful
  reachable := reachable_opened uploader.answers flags
  position := rfl
  taken := rfl
  committed := rfl

theorem Accepting.unanswered (accepting : Accepting uploader session content)
    (isOpen : session.handle.closed = false) : ¬ CloseAnswered uploader.answers session.calls := by
  rw [← accepting.reachable.closed, isOpen]
  exact Bool.false_ne_true

theorem Accepting.open_committed (accepting : Accepting uploader session content)
    (isOpen : session.handle.closed = false) : uploader.committed session.calls = [] := by
  rw [accepting.committed, isOpen]
  rfl

theorem Accepting.called_committed (accepting : Accepting uploader session content)
    (isOpen : session.handle.closed = false) {c : WriterCall}
    (other : ¬ (c = .close ∧ uploader.answers session.calls .close = .ok ())) :
    uploader.committed (session.called c).calls = if session.handle.closed then [content] else [] := by
  rw [WriteSession.called_calls,
    committed_other accepting.lawful (accepting.unanswered isOpen) other, accepting.committed]

theorem Accepting.close_committed (accepting : Accepting uploader session content)
    (isOpen : session.handle.closed = false)
    (answered : uploader.answers session.calls .close = .ok ()) :
    uploader.committed (session.calls ++ [.close]) = [content] := by
  rw [committed_close accepting.lawful (accepting.unanswered isOpen) answered,
    accepting.open_committed isOpen, accepting.taken]
  rfl

theorem writeStep_accepts (accepting : Accepting uploader session content) (op : WriteOp) :
    Accepting uploader (writeStep uploader.answers session op).2
      (content ++ accepted op (writeStep uploader.answers session op).1) := by
  have heffect := writeStep_effect uploader.answers accepting.reachable.sound op
  have hreachable := writeStep_reachable uploader.answers accepting.reachable op
  generalize writeStep uploader.answers session op = result at heffect hreachable
  cases heffect with
  | rejected e => rwa [accepted, List.append_nil]
  | observed reply empty closing => rwa [accepted, empty, List.append_nil]
  | threw c e isOpen thrown =>
    rw [accepted, List.append_nil]
    have hother : ¬ (c = .close ∧ uploader.answers session.calls .close = .ok ()) := by
      rintro ⟨rfl, answered⟩
      rw [answered] at thrown
      cases thrown
    refine ⟨accepting.lawful, hreachable, accepting.position, ?_,
      accepting.called_committed isOpen hother⟩
    rw [WriteSession.called_calls, taken_concat, takes_error thrown, List.append_nil]
    exact accepting.taken
  | wrote reply isOpen answered =>
    refine ⟨accepting.lawful, hreachable, ?_, ?_, ?_⟩
    · rw [WriteSession.advance_position, WriteSession.called_handle, accepting.position, accepted,
        List.length_append, UInt64.ofNat_add]
    · rw [WriteSession.advance_calls, WriteSession.called_calls, taken_concat, takes_write answered,
        accepting.taken]
      rfl
    · rw [WriteSession.advance_calls, WriteSession.advance_closed, WriteSession.called_handle,
        accepting.called_committed isOpen (by simp), isOpen]
      rfl
  | flushed sync isOpen answered =>
    have hnothing : content ++ accepted op (.ok .done) = content := by
      rw [sync]
      exact List.append_nil content
    rw [hnothing]
    refine ⟨accepting.lawful, hreachable, accepting.position, ?_,
      accepting.called_committed isOpen (by simp)⟩
    rw [WriteSession.called_calls, taken_concat]
    exact (List.append_nil _).trans accepting.taken
  | closed closing isOpen answered =>
    have hnothing : content ++ accepted op (.ok .done) = content := by
      rw [closing]
      exact List.append_nil content
    rw [hnothing]
    refine ⟨accepting.lawful, hreachable, accepting.position, ?_, ?_⟩
    · rw [WriteSession.reset_calls, WriteSession.called_calls, taken_concat]
      exact (List.append_nil _).trans accepting.taken
    · rw [WriteSession.reset_calls, WriteSession.called_calls,
        accepting.close_committed isOpen answered]
      rfl

theorem run_accepts (accepting : Accepting uploader session content) (ops : List WriteOp) :
    Accepting uploader (after (writeStep uploader.answers) session ops)
      (content ++ acceptedBytes ops (run (writeStep uploader.answers) session ops).1) := by
  induction ops generalizing session content with
  | nil => exact (List.append_nil content).symm ▸ accepting
  | cons op ops ih =>
    have hstep := ih (writeStep_accepts accepting op)
    rwa [List.append_assoc] at hstep

theorem destroy_accepts (accepting : Accepting uploader session content) :
    Accepting uploader (destroy uploader.answers session).2 content ∧
      ((destroy uploader.answers session).2.handle.closed = true ↔
        (destroy uploader.answers session).1 = .destroyed) := by
  unfold destroy
  by_cases hclosed : session.handle.closed = true
  · have hsame : { session with handle := { session.handle with closed := true } } = session := by
      rw [← hclosed]
    rw [close_closed uploader.answers hclosed]
    dsimp only
    rw [hsame]
    exact ⟨accepting, iff_of_true rfl rfl⟩
  have isOpen := Bool.eq_false_of_not_eq_true hclosed
  have hclose := writeStep_accepts accepting .close
  rw [writeStep, close_open uploader.answers accepting.reachable.sound isOpen] at hclose
  rw [close_open uploader.answers accepting.reachable.sound isOpen]
  cases hanswer : uploader.answers session.calls .close with
  | error e =>
    rw [hanswer] at hclose
    exact ⟨(List.append_nil content) ▸ hclose, iff_of_false hclosed Destruction.noConfusion⟩
  | ok done =>
    rw [hanswer] at hclose
    exact ⟨(List.append_nil content) ▸ hclose, iff_of_true rfl rfl⟩

end Invariant

/-- Over a writer that commits all or nothing, whatever calls of it throw and however often a failed
close is tried again: a handle that is destroyed has committed once, all it accepted; one whose
destruction ends the process has committed nothing; and until then a commit is made exactly by the
close that succeeds. -/
theorem commits_accepted {uploader : Uploader} (lawful : AllOrNothing uploader)
    (flags : FileOpenFlags) (ops : List WriteOp) :
    let ended := run (writeStep uploader.answers) (WriteSession.opened flags) ops
    let content := acceptedBytes ops ended.1
    let committed := uploader.committed (destroy uploader.answers ended.2).2.calls
    ((destroy uploader.answers ended.2).1 = .destroyed → committed = [content]) ∧
      ((destroy uploader.answers ended.2).1 = .terminated → committed = []) ∧
      (uploader.committed ended.2.calls = [content] ↔
        CloseAnswered uploader.answers ended.2.calls) ∧
      (uploader.committed ended.2.calls = [] ↔
        ¬ CloseAnswered uploader.answers ended.2.calls) := by
  intro ended content committed
  have haccepting : Accepting uploader ended.2 content :=
    run_accepts (accepting_opened lawful flags) ops
  have hreachable := haccepting.reachable.closed
  obtain ⟨hdestroyed, hclosed⟩ := destroy_accepts haccepting
  refine ⟨fun destroyed => ?_, fun terminated => ?_, ?_, ?_⟩
  · change uploader.committed (destroy uploader.answers ended.2).2.calls = [content]
    rw [hdestroyed.committed, if_pos (hclosed.mpr destroyed)]
  · have isOpen : ¬ (destroy uploader.answers ended.2).2.handle.closed = true := by
      rw [hclosed, terminated]
      nofun
    change uploader.committed (destroy uploader.answers ended.2).2.calls = []
    rw [hdestroyed.committed, if_neg isOpen]
  · rw [haccepting.committed, ← hreachable]
    simp
  · rw [haccepting.committed, ← hreachable]
    simp

def stagingUploader (answers : WriterAnswers) : Uploader where
  answers := answers
  replaces before c :=
    match c, answers before c with
    | .close, .ok _ => some (taken answers before)
    | _, _ => none

theorem stagingUploader_allOrNothing (answers : WriterAnswers) :
    AllOrNothing (stagingUploader answers) where
  closes calls unclosed answered := by
    change answers calls .close = .ok () at answered
    simp [stagingUploader, answered]
  otherwise calls c unclosed other := by
    change ¬ (c = .close ∧ answers calls .close = .ok ()) at other
    cases c with
    | write data => rfl
    | flush => rfl
    | close =>
      cases hanswer : answers calls .close with
      | error e => simp [stagingUploader, hanswer]
      | ok done => exact absurd ⟨rfl, hanswer⟩ other

theorem commits_accepted_retried :
    let answers : WriterAnswers := fun calls _ =>
      if calls.length = 1 ∨ calls.length = 3 then .error notFound else .ok ()
    let uploader := stagingUploader answers
    let ops : List WriteOp := [.write (bufferOf (bytes "ab")) 2, .write (bufferOf (bytes "x")) 1,
      .write (bufferOf (bytes "c")) 1, .close, .close]
    let ended := run (writeStep uploader.answers) (WriteSession.opened { openForWriting := true }) ops
    uploader.committed (destroy uploader.answers ended.2).2.calls = [bytes "abc"] := by
  intro answers uploader ops ended
  have hdestroyed : (destroy uploader.answers ended.2).1 = .destroyed := by decide +kernel
  have hcontent : acceptedBytes ops ended.1 = bytes "abc" := by decide +kernel
  have hlawful : AllOrNothing uploader := stagingUploader_allOrNothing answers
  clear_value uploader ops
  rw [(commits_accepted hlawful { openForWriting := true } ops).1 hdestroyed]
  exact congrArg (fun content => [content]) hcontent

end DuckdbOpendalfs.Handles.RetriedUploads
