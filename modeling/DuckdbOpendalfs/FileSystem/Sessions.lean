/- DuckdbOpendalfs/FileSystem/Sessions
   digest: Threads of operations and the write handles they open, in any order of steps. -/

import DuckdbOpendalfs.FileSystem.Provenance
import DuckdbOpendalfs.Handles.RetriedUploads

set_option autoImplicit false
set_option relaxedAutoImplicit false

namespace DuckdbOpendalfs.FileSystem.Sessions

open Text.ByteString
open Collections.Stores
open Execution.Programs Execution.Footprints Execution.Runs Execution.Threads
open Address.Uri
open Operators.LayerOptions Operators.Objects
open Operators.Configuration (Backend FileOpener FileSystemM OpenDALCall OpenDALFileSystem
  createOperatorConfig operatorPlan)
open Handles.FileHandle Handles.OpenFile Handles.WriteHandle Handles.AppendRuns
open Handles.RetriedUploads
open Operations Isolation Provenance

section Machine

variable {ι κ : Type}

abbrev Outcome (κ : Type) := FileAnswer × Option (κ × OpenDALWriteHandle)

structure OpenWriter (κ : Type) where
  target : κ
  uploader : Uploader
  session : WriteSession

def OpenWriter.committed (writer : OpenWriter κ) : List Bytes :=
  writer.uploader.committed writer.session.calls

def OpenWriter.isClosed (writer : OpenWriter κ) : Prop := writer.session.handle.closed = true

/-- Threads of operations, the objects, and the write handles in the order they were opened. -/
structure World (ι κ : Type) where
  threads : ι → Thread OpenDALCall.Reply Exception (Outcome κ)
  store : Store κ Bytes
  writers : List (OpenWriter κ) := []
  terminated : Bool := false

/-- One call of a thread, a call on a write handle, or the end of a handle. -/
inductive Event (ι : Type)
  | step (thread : ι)
  | write (handle : Nat) (op : WriteOp)
  | destroy (handle : Nat)

inductive Observation
  | absent
  | stepped
  | written (answer : Except Exception WriteReply)
  | destroyed (ending : Destruction)
  deriving DecidableEq

def openedBy (before after : Thread OpenDALCall.Reply Exception (Outcome κ)) :
    Option (κ × OpenDALWriteHandle) :=
  match after.answers.drop before.answers.length with
  | .ok outcome :: _ => outcome.2
  | _ => none

def joined (uploads : Nat → Uploader) (writers : List (OpenWriter κ)) :
    Option (κ × OpenDALWriteHandle) → List (OpenWriter κ)
  | none => writers
  | some (k, handle) => writers ++ [⟨k, uploads writers.length, ⟨handle, []⟩⟩]

variable [DecidableEq κ]

def commit (w : Store κ Bytes) (k : κ) (before after : List Bytes) : Store κ Bytes :=
  (after.drop before.length).foldl (put · k) w

def World.resume (world : World ι κ) (h : Nat) (writer : OpenWriter κ) (session : WriteSession) :
    World ι κ :=
  let writer' := { writer with session := session }
  { world with
    store := commit world.store writer.target writer.committed writer'.committed
    writers := world.writers.set h writer' }

variable [DecidableEq ι]

def World.advance (backend : Backend (Store κ Bytes)) (uploads : Nat → Uploader)
    (world : World ι κ) (i : ι) : World ι κ :=
  let next := (world.threads i).step backend world.store
  { world with
    threads := Function.update world.threads i next.1
    store := next.2
    writers := joined uploads world.writers (openedBy (world.threads i) next.1) }

/-- One event. Nothing happens any more once a destructor has ended the process; a handle that was
destroyed stays closed. -/
def step (backend : Backend (Store κ Bytes)) (uploads : Nat → Uploader) (world : World ι κ)
    (event : Event ι) : Observation × World ι κ :=
  if world.terminated then (.absent, world)
  else
    match event with
    | .step i => (.stepped, world.advance backend uploads i)
    | .write h op =>
      match world.writers[h]? with
      | none => (.absent, world)
      | some writer =>
        let answer := writeStep writer.uploader.answers writer.session op
        (.written answer.1, world.resume h writer answer.2)
    | .destroy h =>
      match world.writers[h]? with
      | none => (.absent, world)
      | some writer =>
        let ending := destroy writer.uploader.answers writer.session
        (.destroyed ending.1,
          { world.resume h writer ending.2 with terminated := ending.1 == .terminated })

def accepts (h : Nat) : Event ι → Observation → Bytes
  | .write h' op, .written answer => if h' = h then accepted op answer else []
  | _, _ => []

def contentOf (h : Nat) : List (Event ι) → List Observation → Bytes
  | event :: events, observation :: observations =>
    accepts h event observation ++ contentOf h events observations
  | _, _ => []

section Start

variable [StringUtil] (locate : Bytes → StringMapValue → Bytes → κ) (fs : OpenDALFileSystem)

omit [DecidableEq κ] in
def objectOf (opener : Option FileOpener) (uri : Bytes) : Option κ :=
  match operatorPlan (createOperatorConfig fs · · opener) uri {} opener with
  | .error _ => none
  | .ok (op, p) => some (object locate op p.path)

omit [DecidableEq κ] in
def outcome (opener : Option FileOpener) (operation : FileOperation) (answer : FileAnswer) :
    Outcome κ :=
  match operation, answer with
  | .openFile uri _, .opened (some (.write handle)) =>
    (answer, (objectOf locate fs opener uri).map fun k => (k, handle))
  | _, _ => (answer, none)

omit [DecidableEq κ] in
def threadProgram (opener : Option FileOpener) (operation : FileOperation) :
    FileSystemM (Outcome κ) := do
  let answer ← operation.program fs opener
  return outcome locate fs opener operation answer

omit [DecidableEq κ] [DecidableEq ι] in
def start (openers : ι → Option FileOpener) (operations : ι → List FileOperation)
    (w : Store κ Bytes) : World ι κ where
  threads i := ⟨(operations i).map (threadProgram locate fs (openers i)), []⟩
  store := w

end Start

end Machine

section Invariant

variable {ι κ : Type}

/-- Contents known from the beginning, and those of the handles that are closed. -/
def Sources (w₀ : Store κ Bytes) (contents : Nat → Bytes) (writers : List (OpenWriter κ)) :
    Set Bytes :=
  {data | Known w₀ data ∨
    ∃ (h : Nat) (writer : OpenWriter κ), writers[h]? = some writer ∧ writer.isClosed ∧
      data = contents h}

def OpensNew (result : Outcome κ) : Prop :=
  ∀ k handle, result.2 = some (k, handle) → ∃ flags, handle = OpenDALWriteHandle.opened flags

/-- Every handle has accepted its part of `contents`, and no object holds anything but contents
known from the beginning and those of closed handles. -/
structure Consistent (w₀ : Store κ Bytes) (contents : Nat → Bytes) (world : World ι κ) : Prop where
  programs : ∀ i, ∀ p ∈ (world.threads i).programs,
    Passes (Sources w₀ contents world.writers) p ∧ p.Returns OpensNew
  writers : ∀ (h : Nat) (writer : OpenWriter κ), world.writers[h]? = some writer →
    Accepting writer.uploader writer.session (contents h)
  fresh : ∀ h, world.writers.length ≤ h → contents h = []
  store : Holding (Sources w₀ contents world.writers) world.store

variable {w₀ : Store κ Bytes} {contents : Nat → Bytes}

private theorem sources_mono {contents' : Nat → Bytes} {writers writers' : List (OpenWriter κ)}
    (kept : ∀ (h : Nat) (writer : OpenWriter κ), writers[h]? = some writer → writer.isClosed →
      contents' h = contents h ∧
        ∃ writer' : OpenWriter κ, writers'[h]? = some writer' ∧ writer'.isClosed) :
    Sources w₀ contents writers ⊆ Sources w₀ contents' writers' := by
  rintro data (known | ⟨h, writer, hwriter, hclosed, rfl⟩)
  · exact Or.inl known
  · obtain ⟨hsame, writer', hwriter', hclosed'⟩ := kept h writer hwriter hclosed
    exact Or.inr ⟨h, writer', hwriter', hclosed', hsame.symm⟩

private theorem threadProgram_opens [StringUtil] (locate : Bytes → StringMapValue → Bytes → κ)
    (fs : OpenDALFileSystem) (opener : Option FileOpener) (operation : FileOperation) :
    (threadProgram locate fs opener operation).Returns OpensNew := by
  cases operation with
  | openFile uri flags =>
    let New (answer : FileAnswer) : Prop :=
      ∀ handle, answer = .opened (some (.write handle)) → handle = OpenDALWriteHandle.opened flags
    have hnew : (FileOperation.program fs opener (.openFile uri flags)).Returns New := by
      refine (openFile_returns fs uri flags opener).bind fun file hfile handle heq => ?_
      obtain rfl := FileAnswer.opened.inj heq
      exact hfile.1
    refine hnew.bind fun answer hanswer k handle heq => ⟨flags, ?_⟩
    unfold outcome at heq
    split at heq
    · rename_i handle' hoperation
      obtain ⟨k', -, heq⟩ := Option.map_eq_some_iff.mp heq
      obtain ⟨-, rfl⟩ := Prod.mk.inj heq
      exact hanswer handle' rfl
    · cases heq
  | fileExists | directoryExists | createDirectory | createDirectoriesRecursive | listFiles
  | moveFile | removeDirectory | removeFile | removeFiles | tryRemoveFile =>
    exact Program.returns_bind fun answer k handle heq => by cases heq

theorem consistent_start [StringUtil] (locate : Bytes → StringMapValue → Bytes → κ)
    (fs : OpenDALFileSystem) (openers : ι → Option FileOpener)
    (operations : ι → List FileOperation) (w : Store κ Bytes) :
    Consistent w (fun _ => []) (start locate fs openers operations w) where
  programs i p hp := by
    obtain ⟨operation, -, rfl⟩ := List.mem_map.mp hp
    have hempty : ([] : Bytes) ∈ Sources w (fun _ => []) ([] : List (OpenWriter κ)) :=
      Or.inl (Or.inl rfl)
    exact ⟨passes_bind (program_passes hempty operation) fun _ _ _ => trivial,
      threadProgram_opens locate fs (openers i) operation⟩
  writers h writer hwriter := by cases hwriter
  fresh _ _ := rfl
  store k data hk := Or.inl (Or.inr ⟨k, hk⟩)

theorem joined_kept (uploads : Nat → Uploader) {writers : List (OpenWriter κ)}
    (opened : Option (κ × OpenDALWriteHandle)) {h : Nat} {writer : OpenWriter κ}
    (inUse : writers[h]? = some writer) : (joined uploads writers opened)[h]? = some writer := by
  cases opened with
  | none => exact inUse
  | some file =>
    rw [joined, List.getElem?_append_left (List.getElem?_eq_some_iff.mp inUse).1]
    exact inUse

private theorem joined_accepting {uploads : Nat → Uploader} (lawful : ∀ n, AllOrNothing (uploads n))
    {writers : List (OpenWriter κ)} {opened : Option (κ × OpenDALWriteHandle)}
    (isNew : ∀ k handle, opened = some (k, handle) → ∃ flags, handle = OpenDALWriteHandle.opened flags)
    (accepting : ∀ (h : Nat) (writer : OpenWriter κ), writers[h]? = some writer →
      Accepting writer.uploader writer.session (contents h))
    (fresh : ∀ h, writers.length ≤ h → contents h = []) :
    (∀ (h : Nat) (writer : OpenWriter κ), (joined uploads writers opened)[h]? = some writer →
      Accepting writer.uploader writer.session (contents h)) ∧
    ∀ h, (joined uploads writers opened).length ≤ h → contents h = [] := by
  cases opened with
  | none => exact ⟨accepting, fresh⟩
  | some file =>
    obtain ⟨k, handle⟩ := file
    obtain ⟨flags, rfl⟩ := isNew k handle rfl
    refine ⟨fun h writer hwriter => ?_, fun h hlength => ?_⟩
    · rw [joined, List.getElem?_append] at hwriter
      split_ifs at hwriter with hlt
      · exact accepting h writer hwriter
      · obtain ⟨hindex, rfl⟩ := List.getElem?_eq_some_iff.mp hwriter
        rw [fresh h (Nat.le_of_not_lt hlt), List.getElem_singleton]
        exact accepting_opened (lawful writers.length) flags
    · rw [joined, List.length_append] at hlength
      exact fresh h (Nat.le_of_add_right_le hlength)

section Steps

variable {locate : Bytes → StringMapValue → Bytes → κ} {backend : Backend (Store κ Bytes)}
  {uploads : Nat → Uploader} {world : World ι κ}

private theorem advance_consistent [DecidableEq ι] (honest : HonestBackend locate backend)
    (lawful : ∀ n, AllOrNothing (uploads n)) (consistent : Consistent w₀ contents world) (i : ι) :
    Consistent w₀ contents (world.advance backend uploads i) := by
  let S := Sources w₀ contents world.writers
  have hcalls (c : OpenDALCall) (next : c.Reply → FileSystemM (Outcome κ)) (w : Store κ Bytes)
      (hp : Passes S (.call c next) ∧ Program.Returns OpensNew (.call c next))
      (holding : Holding S w) : Holding S (backend c w).2 ∧
        ∀ reply, (backend c w).1 = .ok reply →
          Passes S (next reply) ∧ Program.Returns OpensNew (next reply) := by
    obtain ⟨hholding, hread⟩ := honest.holding hp.1.1 holding
    refine ⟨hholding, fun reply hreply => ⟨?_, hp.2 reply⟩⟩
    have hpasses := hp.1.2 reply
    rwa [Set.union_eq_self_of_subset_right (hread reply hreply)] at hpasses
  obtain ⟨hprograms, hholding, hanswers⟩ :=
    Thread.step_keeps hcalls (consistent.programs i) consistent.store
  have hnew : ∀ k handle, openedBy (world.threads i) ((world.threads i).step backend world.store).1 =
      some (k, handle) → ∃ flags, handle = OpenDALWriteHandle.opened flags := by
    intro k handle hopened
    unfold openedBy at hopened
    rcases hanswers with hsame | ⟨answer, hanswer, hends⟩
    · rw [hsame, List.drop_length] at hopened
      cases hopened
    · rw [hanswer, List.drop_left] at hopened
      cases answer with
      | error e => cases hopened
      | ok result => exact (hends result rfl).2 k handle hopened
  obtain ⟨haccepting, hfresh⟩ :=
    joined_accepting lawful hnew consistent.writers consistent.fresh
  have hmono : S ⊆ Sources w₀ contents (world.advance backend uploads i).writers :=
    sources_mono fun h writer hwriter hclosed => ⟨rfl, writer, joined_kept uploads _ hwriter, hclosed⟩
  refine ⟨fun j p hp => ?_, haccepting, hfresh, fun k data hk => hmono (hholding k data hk)⟩
  by_cases hj : j = i
  · subst hj
    change p ∈ (Function.update world.threads j _ j).programs at hp
    rw [Function.update_self] at hp
    exact ⟨(hprograms p hp).1.mono hmono, (hprograms p hp).2⟩
  · change p ∈ (Function.update world.threads i _ j).programs at hp
    rw [Function.update_of_ne hj] at hp
    exact ⟨(consistent.programs j p hp).1.mono hmono, (consistent.programs j p hp).2⟩

variable [DecidableEq κ]

theorem commit_closes {uploader : Uploader} {session session' : WriteSession}
    {content content' : Bytes} (before : Accepting uploader session content)
    (later : Accepting uploader session' content') (w : Store κ Bytes) (k : κ) :
    commit w k (uploader.committed session.calls) (uploader.committed session'.calls) =
      if session.handle.closed = false ∧ session'.handle.closed = true then put w k content'
      else w := by
  rw [commit, before.committed, later.committed]
  cases session.handle.closed <;> cases session'.handle.closed <;> rfl

private theorem resume_consistent (consistent : Consistent w₀ contents world) {h : Nat}
    {writer : OpenWriter κ} (inUse : world.writers[h]? = some writer) {session : WriteSession}
    {content : Bytes} (accepting : Accepting writer.uploader session content)
    (stays : writer.isClosed → session.handle.closed = true ∧ content = contents h) :
    Consistent w₀ (Function.update contents h content) (world.resume h writer session) := by
  have hlt := (List.getElem?_eq_some_iff.mp inUse).1
  have hself : (world.writers.set h { writer with session := session })[h]? =
      some { writer with session := session } := List.getElem?_set_self hlt
  have hother (h' : Nat) (hne : h' ≠ h) :
      (world.writers.set h { writer with session := session })[h']? = world.writers[h']? :=
    List.getElem?_set_ne hne.symm
  have hmono : Sources w₀ contents world.writers ⊆ Sources w₀ (Function.update contents h content)
      (world.resume h writer session).writers := by
    refine sources_mono fun h' writer' hwriter' hclosed => ?_
    by_cases hh : h' = h
    · subst hh
      obtain rfl : writer = writer' := Option.some.inj (inUse.symm.trans hwriter')
      obtain ⟨hsession, hcontent⟩ := stays hclosed
      exact ⟨by rw [Function.update_self, hcontent], _, hself, hsession⟩
    · exact ⟨Function.update_of_ne hh _ _, writer', (hother h' hh).trans hwriter', hclosed⟩
  refine ⟨fun i p hp => ?_, fun h' writer' hwriter' => ?_, fun h' hlength => ?_, fun k data hk => ?_⟩
  · exact ⟨(consistent.programs i p hp).1.mono hmono, (consistent.programs i p hp).2⟩
  · by_cases hh : h' = h
    · subst hh
      obtain rfl := Option.some.inj (hself.symm.trans hwriter')
      rw [Function.update_self]
      exact accepting
    · rw [Function.update_of_ne hh]
      exact consistent.writers h' writer' ((hother h' hh).symm.trans hwriter')
  · change (world.writers.set h _).length ≤ h' at hlength
    rw [List.length_set] at hlength
    rw [Function.update_of_ne (Nat.ne_of_gt (Nat.lt_of_lt_of_le hlt hlength))]
    exact consistent.fresh h' hlength
  · change commit world.store writer.target (writer.uploader.committed writer.session.calls)
      (writer.uploader.committed session.calls) k = some data at hk
    rw [commit_closes (consistent.writers h writer inUse) accepting] at hk
    split_ifs at hk with hcloses
    · by_cases hk' : k = writer.target
      · subst hk'
        rw [put, Function.update_self, Option.some_inj] at hk
        refine Or.inr ⟨h, _, hself, hcloses.2, ?_⟩
        rw [Function.update_self, hk]
      · rw [put, Function.update_of_ne hk'] at hk
        exact hmono (consistent.store k data hk)
    · exact hmono (consistent.store k data hk)

private theorem writeStep_closed_accepts (answers : WriterAnswers) {session : WriteSession}
    (sound : Sound session) (closed : session.handle.closed = true) (op : WriteOp) :
    (writeStep answers session op).2.handle.closed = true ∧
      accepted op (writeStep answers session op).1 = [] := by
  by_cases hclose : op = .close
  · subst hclose
    rw [writeStep_close_closed answers closed]
    exact ⟨closed, rfl⟩
  · obtain ⟨e, he⟩ := writeStep_closed answers sound closed hclose
    rw [he]
    exact ⟨closed, rfl⟩

private theorem close_of_closes (answers : WriterAnswers) {session : WriteSession}
    (sound : Sound session) (isOpen : ¬ session.handle.closed = true) {op : WriteOp}
    (closes : (writeStep answers session op).2.handle.closed = true) : op = .close := by
  have heffect := writeStep_effect answers sound op
  generalize writeStep answers session op = result at heffect closes
  cases heffect with
  | rejected | observed | threw | wrote | flushed => exact absurd closes isOpen
  | closed closing => exact closing

theorem accepts_of_idle (h : Nat) (event : Event ι) {observation : Observation}
    (idle : observation = .stepped ∨ observation = .absent) : accepts h event observation = [] := by
  rcases idle with rfl | rfl <;> cases event <;> rfl

structure Resumed (contents : Nat → Bytes) (world : World ι κ) (event : Event ι) (h : Nat)
    (writer : OpenWriter κ) (session : WriteSession) (result : Observation × World ι κ) : Prop where
  inUse : world.writers[h]? = some writer
  accepting : Accepting writer.uploader session (contents h ++ accepts h event result.1)
  stays : writer.isClosed → session.handle.closed = true ∧ accepts h event result.1 = []
  closing : ¬ writer.isClosed → session.handle.closed = true →
    event = .write h .close ∨ event = .destroy h
  others : ∀ h', h' ≠ h → accepts h' event result.1 = []
  threads : result.2.threads = world.threads
  store : result.2.store = (world.resume h writer session).store
  writers : result.2.writers = (world.resume h writer session).writers

variable [DecidableEq ι]

theorem step_cases (backend : Backend (Store κ Bytes)) (uploads : Nat → Uploader)
    (consistent : Consistent w₀ contents world) (event : Event ι) :
    step backend uploads world event = (.absent, world) ∨
      (∃ i, event = .step i ∧
        step backend uploads world event = (.stepped, world.advance backend uploads i)) ∨
      ∃ h writer session,
        Resumed contents world event h writer session (step backend uploads world event) := by
  unfold step
  by_cases hended : world.terminated = true
  · exact Or.inl (if_pos hended)
  rw [if_neg hended]
  cases event with
  | step i => exact Or.inr (Or.inl ⟨i, rfl, rfl⟩)
  | write h op =>
    dsimp only
    cases inUse : world.writers[h]? with
    | none => exact Or.inl rfl
    | some writer =>
      have haccepting := consistent.writers h writer inUse
      refine Or.inr (Or.inr ⟨h, writer, _, inUse, ?_, fun hclosed => ?_, fun isOpen closes => ?_,
        fun h' hne => if_neg hne.symm, rfl, rfl, rfl⟩)
      · rw [accepts, if_pos rfl]
        exact writeStep_accepts haccepting op
      · rw [accepts, if_pos rfl]
        exact writeStep_closed_accepts writer.uploader.answers haccepting.reachable.sound hclosed op
      · rw [close_of_closes writer.uploader.answers haccepting.reachable.sound isOpen closes]
        exact Or.inl rfl
  | destroy h =>
    dsimp only
    cases inUse : world.writers[h]? with
    | none => exact Or.inl rfl
    | some writer =>
      obtain ⟨haccepting, hclosed⟩ := destroy_accepts (consistent.writers h writer inUse)
      refine Or.inr (Or.inr ⟨h, writer, _, inUse, ?_, fun hbefore => ⟨?_, rfl⟩,
        fun _ _ => Or.inr rfl, fun _ _ => rfl, rfl, rfl, rfl⟩)
      · exact (List.append_nil (contents h)).symm ▸ haccepting
      · rw [hclosed, destroy, close_closed writer.uploader.answers hbefore]

theorem step_consistent (honest : HonestBackend locate backend)
    (lawful : ∀ n, AllOrNothing (uploads n)) (consistent : Consistent w₀ contents world)
    (event : Event ι) :
    Consistent w₀
      (fun h => contents h ++ accepts h event (step backend uploads world event).1)
      (step backend uploads world event).2 := by
  have hidle {observation : Observation} (idle : observation = .stepped ∨ observation = .absent) :
      (fun h => contents h ++ accepts h event observation) = contents :=
    funext fun h => by rw [accepts_of_idle h event idle, List.append_nil]
  rcases step_cases backend uploads consistent event with habsent | ⟨i, -, hstep⟩ |
    ⟨h, writer, session, resumed⟩
  · rw [habsent, hidle (Or.inr rfl)]
    exact consistent
  · rw [hstep, hidle (Or.inl rfl)]
    exact advance_consistent honest lawful consistent i
  · have hcontents : (fun h' => contents h' ++
        accepts h' event (step backend uploads world event).1) = Function.update contents h
          (contents h ++ accepts h event (step backend uploads world event).1) := by
      funext h'
      by_cases hh : h' = h
      · subst hh
        rw [Function.update_self]
      · rw [Function.update_of_ne hh, resumed.others h' hh, List.append_nil]
    have hresume := resume_consistent consistent resumed.inUse resumed.accepting fun hclosed => by
      rw [(resumed.stays hclosed).2, List.append_nil]
      exact ⟨(resumed.stays hclosed).1, rfl⟩
    rw [← hcontents] at hresume
    refine ⟨fun i p hp => ?_, ?_, ?_, ?_⟩
    · rw [resumed.threads] at hp
      rw [resumed.writers]
      exact hresume.programs i p hp
    · rw [resumed.writers]
      exact hresume.writers
    · rw [resumed.writers]
      exact hresume.fresh
    · rw [resumed.store, resumed.writers]
      exact hresume.store

theorem run_consistent (honest : HonestBackend locate backend)
    (lawful : ∀ n, AllOrNothing (uploads n)) (consistent : Consistent w₀ contents world)
    (events : List (Event ι)) :
    Consistent w₀
      (fun h => contents h ++ contentOf h events (run (step backend uploads) world events).1)
      (after (step backend uploads) world events) := by
  induction events generalizing contents world with
  | nil =>
    have hnothing : (fun h => contents h ++
        contentOf h ([] : List (Event ι)) (run (step backend uploads) world []).1) = contents :=
      funext fun h => List.append_nil _
    rw [hnothing]
    exact consistent
  | cons event events ih =>
    have hlater := ih (step_consistent honest lawful consistent event)
    simp only [List.append_assoc] at hlater
    exact hlater

/-- Threads run any operations, and the handles for writing that they open are written to, closed
and destroyed, in any order of calls and whatever calls of the writers throw. Where no call of the
backend leaves contents of its own and the writers commit all or nothing, an object is empty, or
holds what some object held in the beginning, or all that one handle which is closed has accepted.
-/
theorem sessions_whole [StringUtil] (honest : HonestBackend locate backend)
    (lawful : ∀ n, AllOrNothing (uploads n)) (fs : OpenDALFileSystem)
    (openers : ι → Option FileOpener) (operations : ι → List FileOperation) (w : Store κ Bytes)
    (events : List (Event ι)) :
    let ended := run (step backend uploads) (start locate fs openers operations w) events
    ∀ k data, ended.2.store k = some data →
      Known w data ∨ ∃ (h : Nat) (writer : OpenWriter κ), ended.2.writers[h]? = some writer ∧
        writer.isClosed ∧ data = contentOf h events ended.1 := by
  intro ended
  exact (run_consistent honest lawful (consistent_start locate fs openers operations w) events).store

end Steps

end Invariant

theorem sessions_whole_retried :
    letI : StringUtil := percentDecoding
    let flags : FileOpenFlags := { openForWriting := true, overwriteExistingFile := true }
    let operations : Bool → List FileOperation := fun _ => [.openFile (bytes "gs://b/a") flags]
    let uploads : Nat → Uploader := fun n => stagingUploader fun calls c =>
      if n = 0 ∧ c = .close ∧ calls.length = 2 then .error notFound else .ok ()
    let events : List (Event Bool) :=
      [.step true, .step true, .step false, .step true, .step true, .step true, .step false,
        .write 0 (.write (bufferOf (bytes "abc")) 3), .step false, .step false, .step false,
        .write 1 (.write (bufferOf (bytes "z")) 1), .write 0 (.write (bufferOf (bytes "d")) 1),
        .write 0 .close, .destroy 1, .write 0 .close]
    let ended := run (step (storeBackend byPath) uploads)
      (start byPath {} (fun _ => none) operations fun _ => none) events
    ended.2.store (bytes "a") = some (bytes "abcd") ∧
      ∀ k data, ended.2.store k = some data →
        Known (fun _ : Bytes => none) data ∨
          ∃ (h : Nat) (writer : OpenWriter Bytes), ended.2.writers[h]? = some writer ∧
            writer.isClosed ∧ data = contentOf h events ended.1 := by
  let _ : StringUtil := percentDecoding
  intro flags operations uploads events ended
  have hlawful (n : Nat) : AllOrNothing (uploads n) := stagingUploader_allOrNothing _
  refine ⟨by decide +kernel, ?_⟩
  clear_value operations uploads events
  exact sessions_whole (storeBackend_honest byPath) hlawful {} (fun _ => none) operations
    (fun _ => none) events

end DuckdbOpendalfs.FileSystem.Sessions
