/- DuckdbOpendalfs/Handles/Destruction
   digest: When the destruction of a write handle ends the process, over every schedule of failures. -/

import DuckdbOpendalfs.Handles.WriteHandle

set_option autoImplicit false
set_option relaxedAutoImplicit false

namespace DuckdbOpendalfs.Handles.Destruction

open Text.ByteString
open Execution.Runs
open Operators.LayerOptions
open FileHandle WriteHandle

def CloseAnswered (answers : WriterAnswers) (calls : List WriterCall) : Prop :=
  ∃ front, front ++ [.close] <+: calls ∧ answers front .close = .ok ()

section Calls

variable {answers : WriterAnswers} {calls : List WriterCall}

theorem closeAnswered_concat {c : WriterCall} :
    CloseAnswered answers (calls ++ [c]) ↔
      CloseAnswered answers calls ∨ (c = .close ∧ answers calls .close = .ok ()) := by
  unfold CloseAnswered
  simp only [List.prefix_concat_iff]
  constructor
  · rintro ⟨front, hnow | hbefore, hanswer⟩
    · obtain ⟨rfl, hlast⟩ := List.append_inj' hnow rfl
      exact Or.inr ⟨(List.head_eq_of_cons_eq hlast).symm, hanswer⟩
    · exact Or.inl ⟨front, hbefore, hanswer⟩
  · rintro (⟨front, hbefore, hanswer⟩ | ⟨rfl, hanswer⟩)
    · exact ⟨front, Or.inr hbefore, hanswer⟩
    · exact ⟨calls, Or.inl rfl, hanswer⟩

theorem closeAnswered_concat_of_not {c : WriterCall}
    (other : ¬ (c = .close ∧ answers calls .close = .ok ())) :
    CloseAnswered answers (calls ++ [c]) ↔ CloseAnswered answers calls := by
  rw [closeAnswered_concat, or_iff_left other]

end Calls

section Reachable

variable (answers : WriterAnswers) {session : WriteSession}

/-- A handle holds its writer until a close of the writer has succeeded. -/
structure Reachable (session : WriteSession) : Prop where
  sound : Sound session
  closed : session.handle.closed = true ↔ CloseAnswered answers session.calls

theorem reachable_opened (flags : FileOpenFlags) :
    Reachable answers (WriteSession.opened flags) where
  sound := sound_opened flags
  closed := by
    refine iff_of_false nofun ?_
    rintro ⟨front, hfront, -⟩
    exact absurd (List.prefix_nil.mp hfront) (by simp)

theorem writeStep_reachable (reachable : Reachable answers session) (op : WriteOp) :
    Reachable answers (writeStep answers session op).2 := by
  have heffect := writeStep_effect answers reachable.sound op
  have hsound := writeStep_sound answers reachable.sound op
  generalize writeStep answers session op = result at heffect hsound
  refine ⟨hsound, ?_⟩
  cases heffect with
  | rejected | observed => exact reachable.closed
  | threw c e isOpen thrown =>
    rw [WriteSession.called_handle, WriteSession.called_calls, closeAnswered_concat_of_not]
    · exact reachable.closed
    · rintro ⟨rfl, hanswer⟩
      rw [hanswer] at thrown
      cases thrown
  | wrote reply isOpen accepts =>
    rw [WriteSession.advance_closed, WriteSession.called_handle, WriteSession.advance_calls,
      WriteSession.called_calls, closeAnswered_concat_of_not (by simp)]
    exact reachable.closed
  | flushed sync isOpen answered =>
    rw [WriteSession.called_handle, WriteSession.called_calls,
      closeAnswered_concat_of_not (by simp)]
    exact reachable.closed
  | closed closing isOpen answered =>
    refine iff_of_true rfl ?_
    rw [WriteSession.reset_calls, WriteSession.called_calls]
    exact closeAnswered_concat.mpr (Or.inr ⟨rfl, answered⟩)

theorem run_reachable (flags : FileOpenFlags) (ops : List WriteOp) :
    Reachable answers (after (writeStep answers) (WriteSession.opened flags) ops) := by
  have hkeeps (session : WriteSession) (op : WriteOp) (reachable : Reachable answers session) :
      Reachable answers (writeStep answers session op).2 :=
    writeStep_reachable answers reachable op
  exact after_invariant hkeeps (reachable_opened answers flags) ops

theorem destroy_reachable (reachable : Reachable answers session) :
    (destroy answers session).1 = .destroyed ↔
      CloseAnswered answers session.calls ∨ answers session.calls .close = .ok () := by
  unfold destroy
  by_cases hclosed : session.handle.closed = true
  · rw [close_closed answers hclosed]
    exact iff_of_true rfl (Or.inl (reachable.closed.mp hclosed))
  · have hcalls : ¬ CloseAnswered answers session.calls :=
      fun h => hclosed (reachable.closed.mpr h)
    rw [close_open answers reachable.sound (Bool.eq_false_of_not_eq_true hclosed),
      or_iff_right hcalls]
    cases answers session.calls .close with
    | error e => simp
    | ok done => exact iff_of_true rfl rfl

/-- After every run, under every schedule, the destruction of a write handle leaves the process
running exactly when a close of the writer has succeeded or the one of the destructor does. -/
theorem destroy_destroyed_iff (flags : FileOpenFlags) (ops : List WriteOp) :
    (destroy answers (after (writeStep answers) (WriteSession.opened flags) ops)).1 = .destroyed ↔
      CloseAnswered answers (after (writeStep answers) (WriteSession.opened flags) ops).calls ∨
        answers (after (writeStep answers) (WriteSession.opened flags) ops).calls .close = .ok () :=
  destroy_reachable answers (run_reachable answers flags ops)

end Reachable

def closeThrows : WriterAnswers
  | _, .close => .error (.opendal (bytes "upload failed"))
  | _, _ => .ok ()

/-- The process ends, without an explicit close and after one that threw. -/
theorem destroy_terminated_closeThrows :
    let write : WriteOp := .write (.memory fun _ => 0) 1
    let unclosed := run (writeStep closeThrows) (WriteSession.opened { openForWriting := true })
      [write]
    let closed := run (writeStep closeThrows) (WriteSession.opened { openForWriting := true })
      [write, .close]
    (destroy closeThrows unclosed.2).1 = .terminated ∧
      closed.1 = [.ok (.count 1), .error (.opendal (bytes "upload failed"))] ∧
      (destroy closeThrows closed.2).1 = .terminated := by
  decide +kernel

end DuckdbOpendalfs.Handles.Destruction
