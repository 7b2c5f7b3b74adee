/- DuckdbOpendalfs/Move/CrossScheme
   digest: A move between two schemes keeps the data, whichever of its calls fails and however. -/

import DuckdbOpendalfs.Execution.Interleavings
import DuckdbOpendalfs.Move.MoveFile

set_option autoImplicit false
set_option relaxedAutoImplicit false

namespace DuckdbOpendalfs.Move.CrossScheme

open Text.ByteString
open Collections.Stores
open Execution.Programs Execution.Interleavings
open Address.Uri Address.ParseSpec
open Operators.LayerOptions Operators.Configuration Operators.Objects
open MoveFile

/-- A backend whose calls may fail. A failing write leaves anything at its target, and a failing
removal may have removed. -/
structure FallibleBackend (backend : Backend (Store ObjectAddress Bytes)) : Prop where
  construct : ∀ {op result w w'}, backend (.construct op) w = (result, w') → w' = w
  read_keeps : ∀ {op path result w w'}, backend (.read op path) w = (result, w') → w' = w
  read : ∀ {op path data w w'}, backend (.read op path) w = (.ok data, w') →
    w (object locateAddress op path) = some data
  write : ∀ {op path data w w'}, backend (.write op path data) w = (.ok (), w') →
    w' = put w (object locateAddress op path) data
  write_frame : ∀ {op path data result w w'}, backend (.write op path data) w = (result, w') →
    ∀ k, k ≠ object locateAddress op path → w' k = w k
  remove : ∀ {op path w w'}, backend (.remove op path) w = (.ok (), w') →
    w' = erase w (object locateAddress op path)
  remove_error : ∀ {op path w w' e}, backend (.remove op path) w = (.error e, w') →
    w' = w ∨ w' = erase w (object locateAddress op path)

def IsRemoval (c : OpenDALCall) : Prop := ∃ op path, c = .remove op path

section Outcomes

variable [StringUtil]

def Addressed (fs : OpenDALFileSystem) (opener : Option FileOpener) (uri : Bytes)
    (k : ObjectAddress) : Prop :=
  ∃ p config, OpenDALPath.tryParse uri {} = (true, p) ∧
    createOperatorConfig fs uri p opener = .ok config ∧ k = addressOf p config

/-- What is kept of the objects of a move, whether it returns or throws. -/
structure Kept (fs : OpenDALFileSystem) (opener : Option FileOpener) (source target : Bytes)
    (w w' : Store ObjectAddress Bytes) (log : List (Observed OpenDALCall (Store ObjectAddress Bytes))) :
    Prop where
  contents : ∀ k data, Addressed fs opener source k → w k = some data →
    w' k = some data ∨ ∃ k', Addressed fs opener target k' ∧ w' k' = some data
  untouched : (∀ step ∈ log, ¬ IsRemoval step.call) →
    ∀ s, OpenDALPath.tryParse source {} = (true, s) → ∀ k : ObjectAddress, k.1 = s.scheme → w' k = w k
  others : ∀ k, ¬ Addressed fs opener source k → ¬ Addressed fs opener target k → w' k = w k

variable {backend : Backend (Store ObjectAddress Bytes)} {fs : OpenDALFileSystem}
  {opener : Option FileOpener} {source target : Bytes} {w w' : Store ObjectAddress Bytes}
  {log log' : List (Observed OpenDALCall (Store ObjectAddress Bytes))}

theorem Addressed.unique {uri : Bytes} {k k' : ObjectAddress} (first : Addressed fs opener uri k)
    (second : Addressed fs opener uri k') : k = k' := by
  obtain ⟨p, config, hparse, hconfig, rfl⟩ := first
  obtain ⟨p', config', hparse', hconfig', rfl⟩ := second
  obtain rfl := (Prod.mk.inj (hparse.symm.trans hparse')).2
  obtain rfl := Except.ok.inj (hconfig.symm.trans hconfig')
  rfl

theorem kept_unchanged : Kept fs opener source target w w log where
  contents _ _ _ stored := Or.inl stored
  untouched _ _ _ _ _ := rfl
  others _ _ _ := rfl

theorem kept_target {k : ObjectAddress} (addressed : Addressed fs opener target k)
    (different : ∀ s, OpenDALPath.tryParse source {} = (true, s) → s.scheme ≠ k.1)
    (same : ∀ k', k' ≠ k → w' k' = w k') : Kept fs opener source target w w' log where
  contents k' data hsource stored := by
    obtain ⟨s, config, hparse, -, rfl⟩ := hsource
    left
    rw [same _ fun heq => different s hparse (congrArg Prod.fst heq), stored]
  untouched _ s hparse k' hscheme := same k' fun heq => different s hparse (heq ▸ hscheme.symm)
  others k' _ hother := same k' fun heq => hother (heq ▸ addressed)

theorem kept_removed {k k' : ObjectAddress} {data : Bytes}
    (addressed : Addressed fs opener source k) (addressed' : Addressed fs opener target k')
    (stored : w k = some data) (copied : w' k' = some data)
    (removal : ∃ step ∈ log, IsRemoval step.call)
    (same : ∀ k'', k'' ≠ k → k'' ≠ k' → w' k'' = w k'') : Kept fs opener source target w w' log where
  contents k'' data' hsource stored' := by
    obtain rfl := hsource.unique addressed
    obtain rfl := Option.some.inj (stored.symm.trans stored')
    exact Or.inr ⟨k', addressed', copied⟩
  untouched none := by
    obtain ⟨step, hstep, hremoval⟩ := removal
    exact absurd hremoval (none step hstep)
  others k'' hsource htarget :=
    same k'' (fun heq => hsource (heq ▸ addressed)) fun heq => htarget (heq ▸ addressed')

private theorem kept_copied {k k' : ObjectAddress} {data : Bytes}
    (addressed : Addressed fs opener source k) (addressed' : Addressed fs opener target k')
    (stored : w k = some data) (distinct : k' ≠ k) (removal : ∃ step ∈ log, IsRemoval step.call)
    (copied : w' = put w k' data ∨ w' = erase (put w k' data) k) :
    Kept fs opener source target w w' log := by
  refine kept_removed addressed addressed' stored ?_ removal fun k'' hk hk' => ?_
  · rcases copied with rfl | rfl
    · simp [put]
    · simp [erase, put, distinct]
  · rcases copied with rfl | rfl
    · simp [put, hk']
    · simp [erase, put, hk, hk']

private theorem createOperator_logged (laws : FallibleBackend backend) {uri : Bytes} {s : OpenDALPath}
    (parsed : OpenDALPath.tryParse uri {} = (true, s))
    {result : Except Exception (Operator × OpenDALPath)}
    (h : (createOperator fs uri s opener).run (logged backend) (w, log) = (result, (w', log'))) :
    w' = w ∧ ∀ op p, result = .ok (op, p) → p.scheme = s.scheme ∧
      op.scheme = s.scheme ∧ Addressed fs opener uri (object locateAddress op p.path) := by
  have hstore := congrArg (fun outcome => outcome.2.1) h
  dsimp only at hstore
  rw [createOperator, run_logged, run_createOperatorWith] at hstore
  constructor
  · rw [← hstore]
    split
    · rfl
    · split <;> rename_i hconstruct <;> exact laws.construct hconstruct
  · rintro op p rfl
    obtain ⟨hplan, -⟩ := run_createOperatorWith_ok h
    obtain ⟨hagain, hconfig, -, hscheme⟩ := operatorPlan_ok_iff.mp hplan
    obtain rfl : p = s := (Prod.mk.inj (hagain.symm.trans (tryParse_again parsed s))).2
    refine ⟨rfl, hscheme, p, op.config, parsed, hconfig, ?_⟩
    rw [object, locateAddress, hscheme]

theorem moveByCopy_kept (laws : FallibleBackend backend) {s t : OpenDALPath}
    (sourceParsed : OpenDALPath.tryParse source {} = (true, s))
    (targetParsed : OpenDALPath.tryParse target {} = (true, t)) (different : s.scheme ≠ t.scheme) :
    Kept fs opener source target w
      ((moveByCopy fs source target s t opener).run (logged backend) (w, log)).2.1
      ((moveByCopy fs source target s t opener).run (logged backend) (w, log)).2.2 := by
  let Q (outcome : Except Exception Unit × Store ObjectAddress Bytes ×
      List (Observed OpenDALCall (Store ObjectAddress Bytes))) : Prop :=
    Kept fs opener source target w outcome.2.1 outcome.2.2
  change Q _
  refine Program.run_bind_ensures _ ?_ ?_
  · rintro e ⟨w₁, log₁⟩ hsource
    obtain ⟨rfl, -⟩ := createOperator_logged laws sourceParsed hsource
    exact kept_unchanged
  rintro ⟨source_op, s'⟩ ⟨w₁, log₁⟩ hsource
  obtain ⟨rfl, hcreated⟩ := createOperator_logged laws sourceParsed hsource
  obtain ⟨-, hsourceScheme, hsourceAddress⟩ := hcreated _ _ rfl
  refine Program.run_bind_ensures _ ?_ ?_
  · rintro e ⟨w₂, log₂⟩ htarget
    obtain ⟨rfl, -⟩ := createOperator_logged laws targetParsed htarget
    exact kept_unchanged
  rintro ⟨target_op, t'⟩ ⟨w₂, log₂⟩ htarget
  obtain ⟨rfl, hcreated⟩ := createOperator_logged laws targetParsed htarget
  obtain ⟨-, htargetScheme, htargetAddress⟩ := hcreated _ _ rfl
  have hscheme : (object locateAddress target_op t'.path).1 = t.scheme := htargetScheme
  have hdifferent (p : OpenDALPath) (hp : OpenDALPath.tryParse source {} = (true, p)) :
      p.scheme ≠ (object locateAddress target_op t'.path).1 := by
    obtain rfl := (Prod.mk.inj (hp.symm.trans sourceParsed)).2
    rwa [hscheme]
  have hdistinct : object locateAddress target_op t'.path ≠ object locateAddress source_op s'.path :=
    fun heq => hdifferent s sourceParsed (hsourceScheme.symm.trans (congrArg Prod.fst heq).symm)
  refine Program.run_bind_ensures _ ?_ ?_
  · rintro e ⟨w₃, log₃⟩ hread
    obtain ⟨hcall, -⟩ := run_perform_logged.mp hread
    obtain rfl := laws.read_keeps hcall
    exact kept_unchanged
  rintro data ⟨w₃, log₃⟩ hread
  obtain ⟨hcall, -⟩ := run_perform_logged.mp hread
  have hstored := laws.read hcall
  obtain rfl := laws.read_keeps hcall
  refine Program.run_bind_ensures _ ?_ ?_
  · rintro e ⟨w₄, log₄⟩ hwrite
    obtain ⟨hcall, -⟩ := run_perform_logged.mp hwrite
    exact kept_target htargetAddress hdifferent (laws.write_frame hcall)
  rintro _ ⟨w₄, log₄⟩ hwrite
  obtain ⟨hcall, -⟩ := run_perform_logged.mp hwrite
  obtain rfl := laws.write hcall
  rcases hremove : (call (.remove source_op s'.path)).run (logged backend)
    (put w₃ (object locateAddress target_op t'.path) data, log₄) with ⟨result, w₅, log₅⟩
  obtain ⟨hcall, rfl⟩ := run_perform_logged.mp hremove
  have hafter : w₅ = put w₃ (object locateAddress target_op t'.path) data ∨
      w₅ = erase (put w₃ (object locateAddress target_op t'.path) data)
        (object locateAddress source_op s'.path) := by
    cases result with
    | ok _ => exact Or.inr (laws.remove hcall)
    | error e => exact laws.remove_error hcall
  exact kept_copied hsourceAddress htargetAddress hstored hdistinct
    ⟨_, List.mem_append_right _ List.mem_cons_self, _, _, rfl⟩ hafter

/-- A move between two schemes keeps the data. Whatever fails, the contents of the source stay at
the source or stand complete at the target; without a removal the store of the source is as before;
and no third object changes. -/
theorem moveFile_kept (laws : FallibleBackend backend)
    (different : ∀ s t, OpenDALPath.tryParse source {} = (true, s) →
      OpenDALPath.tryParse target {} = (true, t) → s.scheme ≠ t.scheme)
    {result : Except Exception Unit}
    (h : (moveFile fs source target opener).run backend w = (result, w')) :
    Kept fs opener source target w w' (observe backend (moveFile fs source target opener) w) := by
  have hlogged := run_logged backend (moveFile fs source target opener) w []
  rw [h, List.nil_append] at hlogged
  suffices hkept : Kept fs opener source target w
      ((moveFile fs source target opener).run (logged backend) (w, [])).2.1
      ((moveFile fs source target opener).run (logged backend) (w, [])).2.2 by
    rwa [hlogged] at hkept
  unfold moveFile
  split
  · exact kept_unchanged
  · rename_i s hsource
    split
    · exact kept_unchanged
    · rename_i t htarget
      have hdifferent := different s t hsource htarget
      split
      · exact kept_unchanged
      · rw [if_neg (by simpa using hdifferent)]
        exact moveByCopy_kept laws hsource htarget hdifferent

end Outcomes

section Torn

def tornBackend : Backend (Store ObjectAddress Bytes)
  | .write op path data, w =>
    (.error (.opendal (bytes "Unexpected")), put w (object locateAddress op path) (data.take 1))
  | c, w => storeBackend locateAddress c w

theorem tornBackend_fallible : FallibleBackend tornBackend where
  construct h := (Prod.mk.inj h).2.symm
  read_keeps {op path result w w'} h := by
    change storeBackend locateAddress (.read op path) w = _ at h
    unfold storeBackend at h
    dsimp only at h
    split at h <;> exact (Prod.mk.inj h).2.symm
  read {op path data w w'} h := ((storeBackend_move locateAddress).read h).2
  write h := by cases (Prod.mk.inj h).1
  write_frame {op path data result w w'} h k hk := by
    obtain ⟨-, rfl⟩ := Prod.mk.inj h
    exact Function.update_of_ne hk _ _
  remove h := (Prod.mk.inj h).2.symm
  remove_error h := by cases (Prod.mk.inj h).1

end Torn

theorem moveFile_kept_torn :
    letI : StringUtil := percentDecoding
    let p := (OpenDALPath.tryParse (bytes "gs://b/a") {}).2
    let source := addressOf p p.uriConfig
    let w : Store ObjectAddress Bytes := put (fun _ => none) source (bytes "data")
    let after := (moveFile {} (bytes "gs://b/a") (bytes "fs://b") none).run tornBackend w
    after.1 = .error (.opendal (bytes "Unexpected")) ∧
      Kept {} none (bytes "gs://b/a") (bytes "fs://b") w after.2
        (observe tornBackend (moveFile {} (bytes "gs://b/a") (bytes "fs://b") none) w) := by
  let _ : StringUtil := percentDecoding
  intro p source w after
  refine ⟨by decide +kernel, moveFile_kept tornBackend_fallible (fun s t hs ht => ?_) rfl⟩
  have hgcs : s.scheme = bytes "gcs" := by
    rw [← show (OpenDALPath.tryParse (bytes "gs://b/a") {}).2 = s from congrArg Prod.snd hs]
    decide +kernel
  have hfs : t.scheme = bytes "fs" := by
    rw [← show (OpenDALPath.tryParse (bytes "fs://b") {}).2 = t from congrArg Prod.snd ht]
    decide +kernel
  rw [hgcs, hfs]
  decide

end DuckdbOpendalfs.Move.CrossScheme
