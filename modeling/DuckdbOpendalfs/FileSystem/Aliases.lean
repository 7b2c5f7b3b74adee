/- DuckdbOpendalfs/FileSystem/Aliases
   digest: Prefixes of one scheme: operations on other spellings of their URIs are the same ones. -/

import DuckdbOpendalfs.Address.Injectivity
import DuckdbOpendalfs.Execution.Matching
import DuckdbOpendalfs.FileSystem.Isolation
import DuckdbOpendalfs.Operators.Secrets

set_option autoImplicit false
set_option relaxedAutoImplicit false

namespace DuckdbOpendalfs.FileSystem.Aliases

open Text.ByteString
open Collections.Attempts Collections.Stores
open Execution.Programs Execution.Matching Execution.Threads
open Address.Prefixes Address.Uri Address.ParseSpec Address.Layouts Address.Injectivity
open Operators.LayerOptions Operators.Configuration Operators.Objects Operators.Secrets
open Handles.FileHandle Handles.OpenFile
open Operations Isolation

section Uris

/-- The same text behind two prefixes of one scheme. The prefix of an HTTP resource is a part of its
endpoint, and has no other spelling. -/
def Alias (uri uri' : Bytes) : Prop :=
  ∃ entry ∈ openDALPrefixes, ∃ entry' ∈ openDALPrefixes, entry.scheme = entry'.scheme ∧
    entry.scheme ≠ bytes "http" ∧ ∃ tail, uri = entry.text ++ tail ∧ uri' = entry'.text ++ tail

def Spelled (uri uri' : Bytes) : Prop := uri' = uri ∨ Alias uri uri'

private theorem scheme_secretType : ∀ e ∈ openDALPrefixes, ∀ e' ∈ openDALPrefixes,
    e.scheme = e'.scheme → e.secretType = e'.secretType := by
  decide +kernel

private theorem text_ends : ∀ e ∈ openDALPrefixes, e.text.getLast? = some slash := by
  decide +kernel

private theorem layoutOf_eq_http : ∀ e ∈ openDALPrefixes,
    layoutOf e.scheme = .http → e.scheme = bytes "http" := by
  decide +kernel

private theorem entries_front {layout : Layout} (other : layout ≠ .http) (uri : OpenDALUri)
    (front front' : Bytes) : layout.entries uri front = layout.entries uri front' := by
  cases layout with
  | http => exact absurd rfl other
  | single key text => rfl
  | segments key text account keys => rfl
  | skipSegment => rfl
  | repository => rfl
  | rootOnly => rfl
  | pathOnly => rfl

theorem Alias.ne_nil {uri uri' : Bytes} (aliased : Alias uri uri') : uri ≠ [] ∧ uri' ≠ [] := by
  obtain ⟨entry, hentry, entry', hentry', -, -, tail, rfl, rfl⟩ := aliased
  have hnamed (e : OpenDALPrefix) (he : e ∈ openDALPrefixes) : e.text ++ tail ≠ [] := by
    intro hempty
    have hends := text_ends e he
    rw [(List.append_eq_nil_iff.mp hempty).1] at hends
    cases hends
  exact ⟨hnamed entry hentry, hnamed entry' hentry'⟩

variable [StringUtil]

private theorem cutOf_front {front front' : Bytes} (ends : front.getLast? = some slash)
    (ends' : front'.getLast? = some slash) (tail : Bytes) :
    cutOf front tail = cutOf front' tail := by
  have hlast : (front ++ tail).getLast? = (front' ++ tail).getLast? := by
    rw [List.getLast?_append, List.getLast?_append, ends, ends']
  rw [cutOf, cutOf, hlast]

theorem Alias.parse {uri uri' : Bytes} (aliased : Alias uri uri') (r : OpenDALPath) :
    ∃ p, OpenDALPath.tryParse uri r = (true, p) ∧ OpenDALPath.tryParse uri' r = (true, p) := by
  obtain ⟨entry, hentry, entry', hentry', hscheme, hother, tail, rfl, rfl⟩ := aliased
  have hcut := cutOf_front (text_ends entry hentry) (text_ends entry' hentry') tail
  have hlayout : layoutOf entry.scheme ≠ .http := fun h => hother (layoutOf_eq_http entry hentry h)
  have hentries := entries_front hlayout (cutOf entry.text tail) entry.text entry'.text
  refine ⟨_, tryParse_cut hentry tail r, ?_⟩
  rw [tryParse_cut hentry' tail r, ← hscheme, ← hcut,
    ← scheme_secretType entry hentry entry' hentry' hscheme, Layout.mapping, Layout.mapping,
    hentries]

theorem Spelled.parse {uri uri' : Bytes} (spelled : Spelled uri uri') (r : OpenDALPath) :
    OpenDALPath.tryParse uri' r = OpenDALPath.tryParse uri r := by
  rcases spelled with rfl | aliased
  · rfl
  · obtain ⟨p, hp, hp'⟩ := aliased.parse r
    rw [hp, hp']

theorem Spelled.eq_of_rejected {uri uri' : Bytes} (spelled : Spelled uri uri') {r p : OpenDALPath}
    (rejected : OpenDALPath.tryParse uri r = (false, p)) : uri' = uri := by
  rcases spelled with rfl | aliased
  · rfl
  · obtain ⟨p', hp', -⟩ := aliased.parse r
    rw [rejected] at hp'
    cases hp'

end Uris

section Secrets

def SharesSecrets (manager : SecretManager) : Prop :=
  ∀ uri uri', Alias uri uri' →
    ∀ type, manager.lookupSecret uri' type = manager.lookupSecret uri type

def PicksFrom (manager : SecretManager) (secrets : List OpenDALSecret)
    (pick : Bytes → List OpenDALSecret → Option KeyValueSecret) : Prop :=
  ∀ path type, manager.lookupSecret path type =
    .ok (pick type (secrets.filter fun secret => decide (secret.Fits path type)))

theorem managerOf_picks (secrets : List OpenDALSecret) :
    PicksFrom (managerOf secrets) secrets fun _ found => found.head?.map OpenDALSecret.keyValue := by
  intro path type
  dsimp only [managerOf]
  rw [List.head?_filter]

theorem defaultScopes_alias {service uri uri' : Bytes} (member : service ∈ openDALSecretServices)
    (aliased : Alias uri uri') :
    (∃ scope ∈ defaultScopes service, scope <+: uri') ↔
      ∃ scope ∈ defaultScopes service, scope <+: uri := by
  let _ : StringUtil := percentDecoding
  obtain ⟨p, hp, hp'⟩ := aliased.parse {}
  rw [defaultScopes_cover member hp, defaultScopes_cover member hp']

theorem created_shared [SecretFunctions] (lawful : LawfulSecretFunctions)
    {inputs : List CreateSecretInput} (unscoped : ∀ input ∈ inputs, input.scope = [] ∧
      ∃ service ∈ openDALSecretServices, ForService input service)
    {manager : SecretManager} {pick : Bytes → List OpenDALSecret → Option KeyValueSecret}
    (picks : PicksFrom manager (inputs.map createOpenDALSecret) pick) : SharesSecrets manager := by
  intro uri uri' aliased type
  rw [picks, picks]
  refine congrArg (fun found => Except.ok (pick type found)) ?_
  refine List.filter_congr fun secret hsecret => ?_
  obtain ⟨input, hinput, rfl⟩ := List.mem_map.mp hsecret
  obtain ⟨hscope, service, hservice, htype⟩ := unscoped input hinput
  have hscopes : (createOpenDALSecret input).scope = defaultScopes service := by
    rw [created_scope lawful hservice htype, hscope]
    rfl
  rw [decide_eq_decide, OpenDALSecret.Fits, OpenDALSecret.Fits, hscopes,
    defaultScopes_alias hservice aliased]

end Secrets

section Operators

variable {fs : OpenDALFileSystem} {opener : Option FileOpener} {uri uri' : Bytes}

/-- The secrets an opener gives access to are shared by the spellings of a URI. -/
def OpenerShares : Option FileOpener → Prop
  | none => True
  | some opener => ∀ manager, opener.secretManager = some manager → SharesSecrets manager

private theorem secretMatch_alias (shares : OpenerShares opener) (aliased : Alias uri uri')
    (p : OpenDALPath) : secretMatch uri' p opener = secretMatch uri p opener := by
  cases opener with
  | none => rfl
  | some opener =>
    rw [secretMatch, secretMatch]
    cases hmanager : opener.secretManager with
    | none => rfl
    | some manager => simp only [shares manager hmanager uri uri' aliased]

private theorem createOperatorConfig_spelled (shares : OpenerShares opener)
    (spelled : Spelled uri uri') (p : OpenDALPath) :
    createOperatorConfig fs uri' p opener = createOperatorConfig fs uri p opener := by
  rcases spelled with rfl | aliased
  · rfl
  · rw [createOperatorConfig, createOperatorConfig, secretMatch_alias shares aliased]

variable [StringUtil]

theorem createOperator_spelled (shares : OpenerShares opener) (spelled : Spelled uri uri')
    (r : OpenDALPath) : createOperator fs uri' r opener = createOperator fs uri r opener := by
  rcases spelled with rfl | aliased
  · rfl
  · obtain ⟨p, hp, hp'⟩ := aliased.parse r
    rw [createOperator, createOperator, createOperatorWith, createOperatorWith, hp, hp']
    dsimp only
    rw [createOperatorConfig_spelled shares (.inr aliased)]

private theorem probe_spelled (shares : OpenerShares opener) (spelled : Spelled uri uri')
    (ask : Operator → Bytes → FileSystemM Bool) :
    Directories.Probes.probe ask fs uri' opener = Directories.Probes.probe ask fs uri opener := by
  simp only [Directories.Probes.probe, spelled.parse, createOperator_spelled shares spelled]

private theorem moveFile_spelled {source source' target target' : Bytes}
    (shares : OpenerShares opener) (sources : Spelled source source')
    (targets : Spelled target target') :
    Move.MoveFile.moveFile fs source' target' opener =
      Move.MoveFile.moveFile fs source target opener := by
  unfold Move.MoveFile.moveFile
  rw [sources.parse, targets.parse]
  rcases hsource : OpenDALPath.tryParse source {} with ⟨accepted, s⟩
  cases accepted with
  | false => rw [sources.eq_of_rejected hsource]
  | true =>
    rcases htarget : OpenDALPath.tryParse target {} with ⟨accepted', t⟩
    cases accepted' with
    | false => rw [targets.eq_of_rejected htarget]
    | true =>
      simp only [Move.MoveFile.moveByRename, Move.MoveFile.moveByCopy,
        createOperator_spelled shares sources, createOperator_spelled shares targets]

private theorem removeFiles_spelled (shares : OpenerShares opener) {uris uris' : List Bytes}
    (spelled : List.Forall₂ Spelled uris uris') :
    Removal.Batch.removeFiles fs uris' opener = Removal.Batch.removeFiles fs uris opener := by
  let plan := Removal.Groups.planRemovePath (createOperatorConfig fs · · opener)
  have hplan {uri uri' : Bytes} (spelled : Spelled uri uri') : plan uri' = plan uri := by
    rcases spelled with rfl | aliased
    · rfl
    · obtain ⟨p, hp, hp'⟩ := aliased.parse {}
      change Removal.Groups.planRemovePath _ uri' = Removal.Groups.planRemovePath _ uri
      rw [Removal.Groups.planRemovePath, Removal.Groups.planRemovePath, hp, hp']
      dsimp only
      rw [createOperatorConfig_spelled shares (.inr aliased)]
  have hplans : attemptAll plan uris' = attemptAll plan uris := by
    induction spelled with
    | nil => rfl
    | cons first _ ih => rw [attemptAll, attemptAll, hplan first, ih]
  rw [Removal.Batch.removeFiles, Removal.Batch.removeFiles, Removal.Batch.removeFilesWith,
    Removal.Batch.removeFilesWith, Removal.Groups.groupRemovePaths_eq,
    Removal.Groups.groupRemovePaths_eq, hplans]

end Operators

section Operations

inductive Respelled : FileOperation → FileOperation → Prop
  | openFile {uri uri' : Bytes} (flags : FileOpenFlags) (spelled : Spelled uri uri') :
      Respelled (.openFile uri flags) (.openFile uri' flags)
  | fileExists {uri uri' : Bytes} (spelled : Spelled uri uri') :
      Respelled (.fileExists uri) (.fileExists uri')
  | directoryExists {uri uri' : Bytes} (spelled : Spelled uri uri') :
      Respelled (.directoryExists uri) (.directoryExists uri')
  | createDirectory {uri uri' : Bytes} (spelled : Spelled uri uri') :
      Respelled (.createDirectory uri) (.createDirectory uri')
  | createDirectoriesRecursive {uri uri' : Bytes} (spelled : Spelled uri uri') :
      Respelled (.createDirectoriesRecursive uri) (.createDirectoriesRecursive uri')
  | listFiles {uri uri' : Bytes} (spelled : Spelled uri uri') :
      Respelled (.listFiles uri) (.listFiles uri')
  | moveFile {source source' target target' : Bytes} (sources : Spelled source source')
      (targets : Spelled target target') :
      Respelled (.moveFile source target) (.moveFile source' target')
  | removeDirectory {uri uri' : Bytes} (spelled : Spelled uri uri') :
      Respelled (.removeDirectory uri) (.removeDirectory uri')
  | removeFile {uri uri' : Bytes} (spelled : Spelled uri uri') :
      Respelled (.removeFile uri) (.removeFile uri')
  | removeFiles {uris uris' : List Bytes} (spelled : List.Forall₂ Spelled uris uris') :
      Respelled (.removeFiles uris) (.removeFiles uris')
  | tryRemoveFile {uri uri' : Bytes} (spelled : Spelled uri uri') :
      Respelled (.tryRemoveFile uri) (.tryRemoveFile uri')

/-- The same exception, or a missing object that is reported under another spelling. -/
def SameReport (e e' : Exception) : Prop :=
  e' = e ∨ ∃ uri uri', Alias uri uri' ∧ e = objectMissing uri ∧ e' = objectMissing uri'

theorem sameReport_refl (e : Exception) : SameReport e e := Or.inl rfl

private theorem openObject_alias {uri uri' : Bytes} (aliased : Alias uri uri') (op : Operator)
    (path : Bytes) (flags : FileOpenFlags) (options : OpenDALOpenOptions) :
    Matches SameReport (openObject op path uri flags options)
      (openObject op path uri' flags options) := by
  refine Matches.bind (Matches.refl sameReport_refl _) fun present => ?_
  split_ifs
  · exact Matches.refl sameReport_refl _
  · exact .fail (Or.inr ⟨uri, uri', aliased, rfl, rfl⟩)
  · exact Matches.refl sameReport_refl _
  · exact Matches.refl sameReport_refl _

variable [StringUtil] {fs : OpenDALFileSystem} {opener : Option FileOpener} {uri uri' : Bytes}

private theorem openFile_alias (shares : OpenerShares opener) (aliased : Alias uri uri')
    (flags : FileOpenFlags) :
    Matches SameReport (openFile fs uri flags opener) (openFile fs uri' flags opener) := by
  obtain ⟨hnamed, hnamed'⟩ := aliased.ne_nil
  unfold openFile
  dsimp only
  rw [if_neg (show ¬ uri.isEmpty = true by simpa using hnamed),
    if_neg (show ¬ uri'.isEmpty = true by simpa using hnamed')]
  split_ifs
  · exact Matches.refl sameReport_refl _
  rw [createOperator_spelled shares (.inr aliased)]
  refine (Matches.refl sameReport_refl _).bind fun plan => ?_
  split_ifs
  · exact Matches.refl sameReport_refl _
  · exact openObject_alias aliased plan.1 plan.2.path flags _

theorem program_respelled (shares : OpenerShares opener) {operation operation' : FileOperation}
    (respelled : Respelled operation operation') :
    Matches SameReport (operation.program fs opener) (operation'.program fs opener) := by
  have hsame {p p' : FileSystemM FileAnswer} (same : p' = p) : Matches SameReport p p' := by
    rw [same]
    exact Matches.refl sameReport_refl p
  cases respelled with
  | openFile flags spelled =>
    rcases spelled with rfl | aliased
    · exact Matches.refl sameReport_refl _
    · exact (openFile_alias shares aliased flags).bind fun _ => Matches.refl sameReport_refl _
  | fileExists spelled | directoryExists spelled | tryRemoveFile spelled =>
    exact hsame (congrArg (· >>= _) (probe_spelled shares spelled _))
  | createDirectory spelled | createDirectoriesRecursive spelled | listFiles spelled
  | removeDirectory spelled | removeFile spelled =>
    refine hsame (congrArg (· >>= _) ?_)
    exact congrArg (· >>= _) (createOperator_spelled shares spelled {})
  | moveFile sources targets =>
    exact hsame (congrArg (· >>= _) (moveFile_spelled shares sources targets))
  | removeFiles spelled =>
    exact hsame (congrArg (· >>= _) (removeFiles_spelled shares spelled))

/-- Threads may spell their URIs with any prefix of the scheme: over every backend and under every
schedule they leave the same state and are answered the same, but for the name under which an open
reports a missing object. -/
theorem schedules_respelled {ι σ : Type} [DecidableEq ι] (backend : Backend σ)
    (fs : OpenDALFileSystem) (openers : ι → Option FileOpener)
    (shares : ∀ i, OpenerShares (openers i)) {operations operations' : ι → List FileOperation}
    (respelled : ∀ i, List.Forall₂ Respelled (operations i) (operations' i)) (s : σ)
    (schedule : List ι) :
    let ended := interleave backend
      (fun i => ⟨(operations i).map (FileOperation.program fs (openers i)), []⟩, s) schedule
    let ended' := interleave backend
      (fun i => ⟨(operations' i).map (FileOperation.program fs (openers i)), []⟩, s) schedule
    ended'.2 = ended.2 ∧ ∀ i, (ended'.1 i).programs.length = (ended.1 i).programs.length ∧
      List.Forall₂ (AnswersMatch SameReport) (ended.1 i).answers (ended'.1 i).answers := by
  have hmatch (i : ι) : ThreadsMatch SameReport
      ⟨(operations i).map (FileOperation.program fs (openers i)), []⟩
      ⟨(operations' i).map (FileOperation.program fs (openers i)), []⟩ := by
    refine ⟨?_, .nil⟩
    rw [List.forall₂_map_left_iff, List.forall₂_map_right_iff]
    exact (respelled i).imp fun _ _ => program_respelled (shares i)
  obtain ⟨hthreads, hstate⟩ := interleave_matching sameReport_refl backend hmatch s schedule
  exact ⟨hstate, fun i => ⟨(hthreads i).1.length_eq.symm, (hthreads i).2⟩⟩

end Operations

theorem schedules_respelled_secret :
    letI : StringUtil := percentDecoding
    letI : SecretFunctions := plainSecretFunctions
    let input : CreateSecretInput :=
      { type := bytes "OPENDAL_S3", provider := bytes "config", name := bytes "a"
        options := insertAll ∅ [(bytes "region", bytes "eu")] }
    let opener : Option FileOpener := some ⟨{}, some (managerOf [createOpenDALSecret input]), true⟩
    let reading : FileOpenFlags := { openForReading := true }
    let operations : Bool → List FileOperation := fun i =>
      if i then [.moveFile (bytes "s3://b/x") (bytes "s3://b/y"),
        .openFile (bytes "s3://b/x") reading]
      else [.removeFiles [bytes "s3://b/y", bytes "gs://c/z"]]
    let operations' : Bool → List FileOperation := fun i =>
      if i then [.moveFile (bytes "s3a://b/x") (bytes "s3n://b/y"),
        .openFile (bytes "s3n://b/x") reading]
      else [.removeFiles [bytes "s3a://b/y", bytes "gcs://c/z"]]
    let store : Store Bytes Bytes := put (fun _ => none) (bytes "x") (bytes "data")
    let schedule := (List.replicate 6 [true, false]).flatten
    let ended := interleave (storeBackend byPath)
      (fun i => ⟨(operations i).map (FileOperation.program {} opener), []⟩, store) schedule
    let ended' := interleave (storeBackend byPath)
      (fun i => ⟨(operations' i).map (FileOperation.program {} opener), []⟩, store) schedule
    ended'.2 = ended.2 ∧
      (ended.1 true).answers = [.ok .done, .error (objectMissing (bytes "s3://b/x"))] ∧
      (ended'.1 true).answers = [.ok .done, .error (objectMissing (bytes "s3n://b/x"))] := by
  let _ : StringUtil := percentDecoding
  let _ : SecretFunctions := plainSecretFunctions
  intro input opener reading operations operations' store schedule ended ended'
  have hpicks : PicksFrom (managerOf [createOpenDALSecret input]) ([input].map createOpenDALSecret)
      fun _ found => found.head?.map OpenDALSecret.keyValue := managerOf_picks _
  have hunscoped : ∀ created ∈ [input], created.scope = [] ∧
      ∃ service ∈ openDALSecretServices, ForService created service := by
    intro created hcreated
    obtain rfl := List.mem_singleton.mp hcreated
    exact ⟨rfl, bytes "s3", by decide +kernel, by unfold ForService; decide +kernel⟩
  have hshares : OpenerShares opener := by
    rintro manager ⟨⟩
    exact created_shared plainSecretFunctions_lawful hunscoped hpicks
  have hspelled (text text' scheme : Bytes) (secretType : OpenDALSecretType) (tail : Bytes)
      (entries : ⟨text, scheme, secretType⟩ ∈ openDALPrefixes ∧
        ⟨text', scheme, secretType⟩ ∈ openDALPrefixes) (other : scheme ≠ bytes "http") :
      Spelled (text ++ tail) (text' ++ tail) :=
    Or.inr ⟨_, entries.1, _, entries.2, rfl, other, tail, rfl, rfl⟩
  have hs3 (text text' tail : Bytes) (entries : ⟨text, bytes "s3", .s3⟩ ∈ openDALPrefixes ∧
      ⟨text', bytes "s3", .s3⟩ ∈ openDALPrefixes) : Spelled (text ++ tail) (text' ++ tail) :=
    hspelled text text' (bytes "s3") .s3 tail entries (by decide)
  have hrespelled (i : Bool) : List.Forall₂ Respelled (operations i) (operations' i) := by
    cases i with
    | false =>
      refine .cons (.removeFiles (.cons ?_ (.cons ?_ .nil))) .nil
      · exact hs3 (bytes "s3://") (bytes "s3a://") (bytes "b/y") (by decide +kernel)
      · exact hspelled (bytes "gs://") (bytes "gcs://") (bytes "gcs") .gcs (bytes "c/z")
          (by decide +kernel) (by decide)
    | true =>
      refine .cons (.moveFile ?_ ?_) (.cons (.openFile reading ?_) .nil)
      · exact hs3 (bytes "s3://") (bytes "s3a://") (bytes "b/x") (by decide +kernel)
      · exact hs3 (bytes "s3://") (bytes "s3n://") (bytes "b/y") (by decide +kernel)
      · exact hs3 (bytes "s3://") (bytes "s3n://") (bytes "b/x") (by decide +kernel)
  refine ⟨?_, by decide +kernel, by decide +kernel⟩
  exact (schedules_respelled (storeBackend byPath) {} (fun _ => opener) (fun _ => hshares)
    hrespelled store schedule).1

end DuckdbOpendalfs.FileSystem.Aliases
