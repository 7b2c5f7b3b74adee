/- DuckdbOpendalfs/FileSystem/MoveRuns
   digest: Moves onto free objects permute the store, and moving back undoes them. -/

import DuckdbOpendalfs.FileSystem.FileMap
import Mathlib.Algebra.Group.End
import Mathlib.Logic.Equiv.Basic

set_option autoImplicit false
set_option relaxedAutoImplicit false

namespace DuckdbOpendalfs.FileSystem.MoveRuns

open Text.ByteString
open Collections.Stores
open Execution.Programs Execution.Footprints Execution.Runs
open Address.Uri
open Operators.LayerOptions Operators.Configuration Operators.Objects
open Operations Isolation FileMap

section Stores

variable {κ α : Type} [DecidableEq κ]

/-- Each move of a list finds an object to move, and none where it is moved to. -/
def OntoFree : Store κ α → List (κ × κ) → Prop
  | _, [] => True
  | w, (source, target) :: moves =>
    w source ≠ none ∧ w target = none ∧ OntoFree (relocate w source target) moves

theorem relocate_eq_swap {w : Store κ α} {source target : κ} (present : w source ≠ none)
    (free : w target = none) : relocate w source target = w ∘ Equiv.swap source target := by
  have hne : source ≠ target := by
    rintro rfl
    exact present free
  funext k
  rw [Function.comp_apply, Equiv.swap_apply_def]
  split_ifs with hsource htarget
  · rw [hsource, free]
    simp [relocate, erase, hne]
  · simp [relocate, htarget]
  · simp [relocate, erase, hsource, htarget]

theorem relocate_back {w : Store κ α} {source target : κ} (present : w source ≠ none)
    (free : w target = none) : relocate (relocate w source target) target source = w := by
  have hswap := relocate_eq_swap present free
  have hpresent : relocate w source target target ≠ none := by
    rwa [hswap, Function.comp_apply, Equiv.swap_apply_right]
  have hfree : relocate w source target source = none := by
    rwa [hswap, Function.comp_apply, Equiv.swap_apply_left]
  rw [relocate_eq_swap hpresent hfree, hswap, Function.comp_assoc, Equiv.swap_comm target source]
  funext k
  simp

end Stores

section Moves

variable {κ : Type} {locate : Bytes → StringMapValue → Bytes → κ} [StringUtil]
  {fs : OpenDALFileSystem} {opener : Option FileOpener} {source target : Bytes} {k k' : κ}

/-- Two URIs name two objects, and their operators have one configuration where they have one
scheme. -/
def Apart (locate : Bytes → StringMapValue → Bytes → κ) (fs : OpenDALFileSystem)
    (opener : Option FileOpener) (source target : Bytes) (k k' : κ) : Prop :=
  ∃ op p op' p', operatorPlan (createOperatorConfig fs · · opener) source {} opener = .ok (op, p) ∧
    operatorPlan (createOperatorConfig fs · · opener) target {} opener = .ok (op', p') ∧
    p.path ≠ [] ∧ p'.path ≠ [] ∧ (p.scheme = p'.scheme → op.config.toFinmap = op'.config.toFinmap) ∧
    k = object locate op p.path ∧ k' = object locate op' p'.path

theorem Apart.symm (apart : Apart locate fs opener source target k k') :
    Apart locate fs opener target source k' k := by
  obtain ⟨op, p, op', p', hplan, hplan', hpath, hpath', hconfig, hk, hk'⟩ := apart
  exact ⟨op', p', op, p, hplan', hplan, hpath', hpath, fun h => (hconfig h.symm).symm, hk', hk⟩

private theorem onMove_apart (apart : Apart locate fs opener source target k k') :
    onMove locate fs opener source target = .rename k k' ∨
      onMove locate fs opener source target = .copy k k' := by
  obtain ⟨op, p, op', p', hplan, hplan', hpath, hpath', hconfig, rfl, rfl⟩ := apart
  obtain ⟨hparse, -, -, hscheme⟩ := operatorPlan_ok_iff.mp hplan
  obtain ⟨hparse', -, -, hscheme'⟩ := operatorPlan_ok_iff.mp hplan'
  rw [onMove, hparse]
  dsimp only
  rw [hparse']
  dsimp only
  rw [if_neg (by simp [hpath, hpath']), hplan]
  dsimp only
  by_cases hsame : p.scheme = p'.scheme
  · rw [if_pos (beq_iff_eq.mpr hsame)]
    refine Or.inl ?_
    have htarget : object locate op p'.path = object locate op' p'.path := by
      rw [object, object, hscheme, hscheme', hsame, hconfig hsame]
    rw [htarget]
  · rw [if_neg (by simpa using hsame), hplan']
    exact Or.inr rfl

variable [DecidableEq κ] {backend : Backend (Store κ Bytes)}

private theorem run_move (flat : FlatBackend locate backend)
    (apart : Apart locate fs opener source target k k') {w : Store κ Bytes} (present : w k ≠ none)
    (free : w k' = none) :
    alone backend w (FileOperation.program fs opener (.moveFile source target)) =
      (.ok .done, relocate w k k') := by
  obtain ⟨data, hdata⟩ := Option.ne_none_iff_exists'.mp present
  have hne : k ≠ k' := by
    rintro rfl
    exact present free
  have hact : act w (onMove locate fs opener source target) = (.ok .done, relocate w k k') := by
    rcases onMove_apart apart with hmove | hmove
    · rw [hmove, act, hdata]
    · rw [hmove, act, hdata]
      refine congrArg (Prod.mk _) ?_
      exact (moved_put_erase hdata hne).unique (moved_relocate w hne)
  have hacts : Acts (fun _ => MapAnswer.done) backend
      (Move.MoveFile.moveFile fs source target opener) w (onMove locate fs opener source target) :=
    acts_onMove flat source target
  rw [Acts, hact] at hacts
  obtain ⟨hanswer, hstate⟩ := hacts
  change (Program.run backend (Move.MoveFile.moveFile fs source target opener >>= fun _ =>
    (pure .done : FileSystemM FileAnswer)) w) = _
  rw [Program.run_bind]
  rcases hrun : (Move.MoveFile.moveFile fs source target opener).run backend w with ⟨e | done, w'⟩
  · rw [hrun] at hanswer
    cases hanswer
  · rw [hrun] at hstate
    obtain rfl : w' = relocate w k k' := hstate
    rfl

/-- Files are moved, each onto a URI whose object is missing at that moment. Then every move
succeeds, and the store is a permutation of what it was: nothing is lost, and nothing is there
twice. Moving the files back, last one first, succeeds as well and leaves the store as it was. -/
theorem moves_undone (flat : FlatBackend locate backend) (fs : OpenDALFileSystem)
    (opener : Option FileOpener) {moves : List (Bytes × Bytes)} {objects : List (κ × κ)}
    (apart : List.Forall₂ (fun move objects =>
      Apart locate fs opener move.1 move.2 objects.1 objects.2) moves objects)
    (w : Store κ Bytes) (free : OntoFree w objects) :
    let there := moves.map fun move => FileOperation.program fs opener (.moveFile move.1 move.2)
    let back := moves.reverse.map fun move =>
      FileOperation.program fs opener (.moveFile move.2 move.1)
    let moved := run (alone backend) w there
    let returned := run (alone backend) moved.2 back
    (∀ answer ∈ moved.1 ++ returned.1, answer = .ok .done) ∧
      (∃ exchange : Equiv.Perm κ, moved.2 = w ∘ exchange) ∧ returned.2 = w := by
  induction apart generalizing w with
  | nil => exact ⟨by simp [run], ⟨Equiv.refl κ, rfl⟩, rfl⟩
  | @cons move objects moves rest first _ ih =>
    obtain ⟨source, target⟩ := move
    obtain ⟨k, k'⟩ := objects
    obtain ⟨hpresent, hfree, hlater⟩ := free
    obtain ⟨hanswers, ⟨exchange, hexchange⟩, hreturned⟩ := ih (relocate w k k') hlater
    have hswap := relocate_eq_swap hpresent hfree
    have hthere := run_move flat first hpresent hfree
    have hback : alone backend (relocate w k k')
        (FileOperation.program fs opener (.moveFile target source)) = (.ok .done, w) := by
      have hpresent' : relocate w k k' k' ≠ none := by
        rwa [hswap, Function.comp_apply, Equiv.swap_apply_right]
      have hfree' : relocate w k k' k = none := by
        rwa [hswap, Function.comp_apply, Equiv.swap_apply_left]
      rw [run_move flat first.symm hpresent' hfree', relocate_back hpresent hfree]
    -- The moves go on where the first one has led, and come back there.
    let ahead := moves.map fun move => FileOperation.program fs opener (.moveFile move.1 move.2)
    let behind := moves.reverse.map fun move =>
      FileOperation.program fs opener (.moveFile move.2 move.1)
    let middle := after (alone backend) (relocate w k k') ahead
    have hmiddle : after (alone backend) middle behind = relocate w k k' := hreturned
    intro there back moved returned
    have hmoved : moved = (.ok .done :: (run (alone backend) (relocate w k k') ahead).1, middle) := by
      change run (alone backend) w (((source, target) :: moves).map _) = _
      rw [List.map_cons, run, hthere]
      rfl
    have hcomes : back = behind ++ [FileOperation.program fs opener (.moveFile target source)] := by
      change ((source, target) :: moves).reverse.map _ = _
      rw [List.reverse_cons, List.map_append]
      rfl
    have hreturn : returned = ((run (alone backend) middle behind).1 ++ [.ok .done], w) := by
      change run (alone backend) moved.2 back = _
      rw [hmoved, hcomes]
      refine Prod.ext ?_ ?_
      · rw [run_concat_answers, hmiddle, hback]
      · change after (alone backend) middle _ = w
        rw [after_concat, hmiddle, hback]
    refine ⟨?_, ⟨(Equiv.swap k k') * exchange, ?_⟩, congrArg Prod.snd hreturn⟩
    · intro answer hanswer
      rw [hmoved, hreturn] at hanswer
      simp only [List.cons_append, List.mem_cons, List.mem_append, List.not_mem_nil, or_false]
        at hanswer
      rcases hanswer with rfl | hanswer | hanswer | rfl
      · rfl
      · exact hanswers answer (List.mem_append_left _ hanswer)
      · exact hanswers answer (List.mem_append_right _ hanswer)
      · rfl
    · rw [hmoved]
      refine hexchange.trans ?_
      rw [hswap, Function.comp_assoc]
      rfl

end Moves

theorem moves_undone_chain :
    letI : StringUtil := percentDecoding
    let moves := [(bytes "gs://b/a", bytes "gs://b/b"), (bytes "gs://b/c", bytes "gs://b/a")]
    let w : Store Bytes Bytes := put (put (fun _ => none) (bytes "a") (bytes "x")) (bytes "c") []
    let there := moves.map fun move => FileOperation.program {} none (.moveFile move.1 move.2)
    let back := moves.reverse.map fun move =>
      FileOperation.program {} none (.moveFile move.2 move.1)
    let moved := run (alone (storeBackend byPath)) w there
    let returned := run (alone (storeBackend byPath)) moved.2 back
    (∀ answer ∈ moved.1 ++ returned.1, answer = .ok .done) ∧
      (∃ exchange : Equiv.Perm Bytes, moved.2 = w ∘ exchange) ∧ returned.2 = w := by
  let _ : StringUtil := percentDecoding
  intro moves w
  let bucket : StringMap := AList.singleton (bytes "bucket") (bytes "b")
  have hplan (uri : Bytes) (accepted : (OpenDALPath.tryParse uri {}).1 = true)
      (config : createOperatorConfig {} uri (OpenDALPath.tryParse uri {}).2 none = .ok bucket) :
      operatorPlan (createOperatorConfig {} · · none) uri {} none =
        .ok (⟨(OpenDALPath.tryParse uri {}).2.scheme, bucket, _⟩,
          (OpenDALPath.tryParse uri {}).2) :=
    operatorPlan_ok_iff.mpr ⟨Prod.ext accepted rfl, config, operatorOptions_none, rfl⟩
  have ha := hplan (bytes "gs://b/a") (by decide +kernel) rfl
  have hb := hplan (bytes "gs://b/b") (by decide +kernel) rfl
  have hc := hplan (bytes "gs://b/c") (by decide +kernel) rfl
  have hpa : (OpenDALPath.tryParse (bytes "gs://b/a") {}).2.path = bytes "a" := by decide +kernel
  have hpb : (OpenDALPath.tryParse (bytes "gs://b/b") {}).2.path = bytes "b" := by decide +kernel
  have hpc : (OpenDALPath.tryParse (bytes "gs://b/c") {}).2.path = bytes "c" := by decide +kernel
  have hapart : List.Forall₂ (fun move objects =>
      Apart byPath {} none move.1 move.2 objects.1 objects.2) moves
      [(bytes "a", bytes "b"), (bytes "c", bytes "a")] := by
    refine .cons ⟨_, _, _, _, ha, hb, ?_, ?_, fun _ => rfl, hpa.symm, hpb.symm⟩
      (.cons ⟨_, _, _, _, hc, ha, ?_, ?_, fun _ => rfl, hpc.symm, hpa.symm⟩ .nil)
    all_goals
      first | rw [hpa] | rw [hpb] | rw [hpc]
      decide
  have hfree : OntoFree w [(bytes "a", bytes "b"), (bytes "c", bytes "a")] :=
    ⟨by decide, by decide, by decide, by decide, trivial⟩
  clear_value moves w
  exact moves_undone (storeBackend_flat byPath) {} none hapart w hfree

end DuckdbOpendalfs.FileSystem.MoveRuns
