/- DuckdbOpendalfs/Operators/Secrets
   digest: The secret types that are registered, the secrets that are created, and where they apply. -/

import DuckdbOpendalfs.Operators.Configuration

set_option autoImplicit false
set_option relaxedAutoImplicit false

namespace DuckdbOpendalfs.Operators.Secrets

open Text.ByteString
open Address.Prefixes Address.Uri Address.ParseSpec Address.Layouts
open Operators.LayerOptions Operators.Configuration

def openDALSecretPrefix : Bytes := bytes "opendal_"
def openDALSecretProvider : Bytes := bytes "config"

def openDALSecretServices : List Bytes :=
  [bytes "aliyun_drive", bytes "azblob", bytes "azdls", bytes "azfile", bytes "b2", bytes "cos",
   bytes "dbfs", bytes "dropbox", bytes "ftp", bytes "gcs", bytes "gdrive", bytes "github",
   bytes "hf", bytes "huggingface", bytes "ipfs", bytes "koofr", bytes "lakefs", bytes "obs",
   bytes "onedrive", bytes "oss", bytes "pcloud", bytes "s3", bytes "seafile", bytes "sftp",
   bytes "swift", bytes "tos", bytes "upyun", bytes "vercel_artifacts", bytes "vercel_blob",
   bytes "webdav", bytes "yandex_disk"]

def openDALSecretParameters : List Bytes :=
  [bytes "access_key_id", bytes "secret_access_key", bytes "session_token", bytes "region",
   bytes "endpoint", bytes "bucket", bytes "root", bytes "token", bytes "username",
   bytes "password", bytes "key", bytes "secret", bytes "account_name", bytes "account_key",
   bytes "client_id", bytes "client_secret", bytes "tenant_id", bytes "private_key",
   bytes "role_arn"]

def redactKeys : List Bytes :=
  [bytes "secret_access_key", bytes "session_token", bytes "token", bytes "password",
   bytes "secret", bytes "account_key", bytes "client_secret", bytes "private_key"]

/-- The URI prefixes a secret is meant for when no scope is given. -/
def defaultScopes (service_p : Bytes) : List Bytes :=
  if service_p == bytes "s3" then [bytes "s3://", bytes "s3a://", bytes "s3n://"]
  else if service_p == bytes "gcs" then [bytes "gcs://", bytes "gs://"]
  else if service_p == bytes "azblob" then [bytes "azblob://", bytes "az://"]
  else if service_p == bytes "azdls" then [bytes "azdls://", bytes "abfs://", bytes "abfss://"]
  else
    let underscore : UInt8 := 95
    let dash : UInt8 := 45
    [(service_p.map fun c => if c = underscore then dash else c) ++ bytes "://"]

structure CreateSecretInput where
  type : Bytes
  provider : Bytes
  name : Bytes
  scope : List Bytes := []
  options : StringMap := ∅

structure OpenDALSecret where
  scope : List Bytes
  type : Bytes
  provider : Bytes
  name : Bytes
  secretMap : StringMap
  redactKeys : List Bytes

def OpenDALSecret.keyValue (secret : OpenDALSecret) : KeyValueSecret where
  secretMap := secret.secretMap.entries.map fun entry => (entry.1, entry.2)

def foldCase (name : Bytes) : Bytes := name.map fun c => if 65 ≤ c ∧ c ≤ 90 then c + 32 else c

def SameIdentifier (name name' : Bytes) : Prop := foldCase name = foldCase name'

instance (name name' : Bytes) : Decidable (SameIdentifier name name') :=
  inferInstanceAs (Decidable (_ = _))

def CreateSecretInput.given (input_p : CreateSecretInput) (parameter : Bytes) : Option Bytes :=
  (input_p.options.entries.find? fun entry => decide (SameIdentifier entry.1 parameter)).map (·.2)

/-- The functions of DuckDB that the creation of a secret calls. -/
class SecretFunctions where
  lower : Bytes → Bytes
  trySetValue : StringMap → Bytes → CreateSecretInput → StringMap

def createOpenDALSecret [SecretFunctions] (input_p : CreateSecretInput) : OpenDALSecret :=
  let service := SecretFunctions.lower (input_p.type.drop openDALSecretPrefix.length)
  { scope := if input_p.scope.isEmpty then defaultScopes service else input_p.scope
    type := input_p.type
    provider := input_p.provider
    name := input_p.name
    secretMap := openDALSecretParameters.foldl
      (fun secret parameter => SecretFunctions.trySetValue secret parameter input_p) ∅
    redactKeys := Secrets.redactKeys }

structure RegisteredSecret where
  typeName : Bytes
  provider : Bytes
  namedParameters : List Bytes

def registerOpenDALSecrets : List RegisteredSecret :=
  openDALSecretServices.map fun service =>
    { typeName := openDALSecretPrefix ++ service
      provider := openDALSecretProvider
      namedParameters := openDALSecretParameters }

/-- A name of a service is lowered to that name, and a value is set where the statement gives one.
-/
structure LawfulSecretFunctions [SecretFunctions] : Prop where
  lower : ∀ service ∈ openDALSecretServices, ∀ name, SameIdentifier name service →
    SecretFunctions.lower name = service
  trySetValue : ∀ secret key input, SecretFunctions.trySetValue secret key input =
    match input.given key with
    | none => secret
    | some value => secret.insert key value

def OpenDALSecret.Fits (secret : OpenDALSecret) (path type : Bytes) : Prop :=
  SameIdentifier secret.type type ∧ ∃ scope ∈ secret.scope, scope <+: path

instance (secret : OpenDALSecret) (path type : Bytes) : Decidable (secret.Fits path type) :=
  inferInstanceAs (Decidable (_ ∧ _))

/-- For the type of a service a manager finds one of its secrets that fit, if there are any. -/
def Keeps (manager : SecretManager) (secrets : List OpenDALSecret) : Prop :=
  ∀ path, ∀ service ∈ openDALSecretServices,
    (∃ secret ∈ secrets, secret.Fits path (openDALSecretPrefix ++ service) ∧
      manager.lookupSecret path (openDALSecretPrefix ++ service) = .ok (some secret.keyValue)) ∨
    ((∀ secret ∈ secrets, ¬ secret.Fits path (openDALSecretPrefix ++ service)) ∧
      manager.lookupSecret path (openDALSecretPrefix ++ service) = .ok none)

section Tables

def Serves (service : Bytes) (entry : OpenDALPrefix) : Prop :=
  openDALSecretTypeName entry.secretType = openDALSecretPrefix ++ service

instance (service : Bytes) (entry : OpenDALPrefix) : Decidable (Serves service entry) :=
  inferInstanceAs (Decidable (_ = _))

theorem mem_defaultScopes : ∀ service ∈ openDALSecretServices, ∀ entry ∈ openDALPrefixes,
    entry.text ∈ defaultScopes service ↔ Serves service entry := by
  decide +kernel

theorem defaultScopes_registered : ∀ service ∈ openDALSecretServices,
    ∀ scope ∈ defaultScopes service, ∃ entry ∈ openDALPrefixes, entry.text = scope := by
  decide +kernel

theorem secretType_registered : ∀ entry ∈ openDALPrefixes,
    entry.secretType = .none ∨ entry.secretType = .http ∨
      ∃ service ∈ openDALSecretServices, Serves service entry := by
  decide +kernel

theorem foldCase_type : ∀ service ∈ openDALSecretServices,
    foldCase (openDALSecretPrefix ++ service) = openDALSecretPrefix ++ service := by
  decide +kernel

theorem secretConfigKey_parameter : ∀ key ∈ openDALSecretParameters, secretConfigKey key = key := by
  decide +kernel

end Tables

section Scopes

variable [StringUtil] {uri : Bytes} {r parsed : OpenDALPath}

theorem defaultScopes_cover {service : Bytes} (member : service ∈ openDALSecretServices)
    (accepted : OpenDALPath.tryParse uri r = (true, parsed)) :
    (∃ scope ∈ defaultScopes service, scope <+: uri) ↔
      openDALSecretTypeName parsed.secretType = openDALSecretPrefix ++ service := by
  obtain ⟨entry, hentry, tail, rfl, rfl⟩ := tryParse_true accepted
  constructor
  · rintro ⟨scope, hscope, hbegins⟩
    obtain ⟨entry', hentry', rfl⟩ := defaultScopes_registered service member scope hscope
    obtain rfl := entry_unique hentry' hentry hbegins (List.prefix_append _ _)
    exact (mem_defaultScopes service member entry' hentry').mp hscope
  · intro serves
    exact ⟨entry.text, (mem_defaultScopes service member entry hentry).mpr serves,
      List.prefix_append _ _⟩

/-- Every accepted URI takes no secret of a service, or those of exactly one service: the registered
one whose secret type it asks for, which is the only one with a default scope that covers it. -/
theorem accepted_served (accepted : OpenDALPath.tryParse uri r = (true, parsed)) :
    ((parsed.secretType = .none ∨ parsed.secretType = .http) ∧
        ∀ service ∈ openDALSecretServices, ∀ scope ∈ defaultScopes service, ¬ scope <+: uri) ∨
      ∃ service ∈ openDALSecretServices,
        (∃ secret ∈ registerOpenDALSecrets,
          secret.typeName = openDALSecretPrefix ++ service ∧
            secret.typeName = openDALSecretTypeName parsed.secretType) ∧
        ∀ service' ∈ openDALSecretServices,
          (∃ scope ∈ defaultScopes service', scope <+: uri) ↔ service' = service := by
  obtain ⟨entry, hentry, -, -, hparsed⟩ := tryParse_true accepted
  have htype : parsed.secretType = entry.secretType := by
    rw [hparsed]
    rfl
  have hbare (plain : entry.secretType = .none ∨ entry.secretType = .http) :
      ∀ service ∈ openDALSecretServices, ∀ scope ∈ defaultScopes service, ¬ scope <+: uri := by
    intro service hservice scope hscope hbegins
    have hname := (defaultScopes_cover hservice accepted).mp ⟨scope, hscope, hbegins⟩
    rw [htype] at hname
    rcases plain with hnone | hhttp
    · rw [hnone] at hname
      cases hname
    · rw [hhttp] at hname
      cases hname
  rcases secretType_registered entry hentry with hnone | hhttp | ⟨service, hservice, serves⟩
  · exact Or.inl ⟨Or.inl (htype.trans hnone), hbare (Or.inl hnone)⟩
  · exact Or.inl ⟨Or.inr (htype.trans hhttp), hbare (Or.inr hhttp)⟩
  · refine Or.inr ⟨service, hservice, ⟨_, List.mem_map_of_mem hservice, rfl, ?_⟩,
      fun service' hservice' => ?_⟩
    · rw [htype, serves]
    · rw [defaultScopes_cover hservice' accepted, htype, serves]
      exact ⟨fun h => (List.append_cancel_left h).symm, fun h => by rw [h]⟩

end Scopes

section Values

theorem lookup_insertAll_entries (m m' : StringMap) (k : Bytes) :
    (insertAll m (m'.entries.map fun entry => (entry.1, entry.2))).lookup k =
      (m'.lookup k).or (m.lookup k) := by
  have hkeys : (m'.entries.map fun entry => (entry.1, entry.2)).map Prod.fst = m'.keys := by
    rw [List.map_map]
    rfl
  cases hk : m'.lookup k with
  | none =>
    rw [Option.none_or, lookup_insertAll_of_not_mem]
    rw [hkeys]
    exact AList.lookup_eq_none.mp hk
  | some v =>
    rw [Option.some_or, lookup_insertAll_of_mem]
    · rw [hkeys]
      exact m'.nodupKeys
    · exact List.mem_map_of_mem (AList.mem_lookup_iff.mp hk)

variable [SecretFunctions] {input : CreateSecretInput}

private theorem lookup_setValues (lawful : LawfulSecretFunctions) (m : StringMap) (k : Bytes)
    (parameters : List Bytes) :
    (parameters.foldl (fun secret parameter =>
        SecretFunctions.trySetValue secret parameter input) m).lookup k =
      (if k ∈ parameters then input.given k else none).or (m.lookup k) := by
  induction parameters generalizing m with
  | nil => rfl
  | cons parameter parameters ih =>
    rw [List.foldl_cons, ih, lawful.trySetValue]
    by_cases hk : k = parameter
    · subst hk
      rw [if_pos List.mem_cons_self]
      cases hvalue : input.given k with
      | none => split_ifs <;> rfl
      | some value =>
        dsimp only
        rw [AList.lookup_insert]
        split_ifs <;> rfl
    · have hsame : (match input.given parameter with
          | none => m
          | some value => m.insert parameter value).lookup k = m.lookup k := by
        cases input.given parameter with
        | none => rfl
        | some value => exact AList.lookup_insert_ne hk
      rw [hsame]
      simp only [List.mem_cons, hk, false_or]

theorem lookup_created (lawful : LawfulSecretFunctions) (k : Bytes) :
    (createOpenDALSecret input).secretMap.lookup k =
      if k ∈ openDALSecretParameters then input.given k else none := by
  rw [createOpenDALSecret]
  dsimp only
  rw [lookup_setValues lawful, AList.lookup_empty, Option.or_none]

theorem created_config (lawful : LawfulSecretFunctions) :
    ((createOpenDALSecret input).keyValue.secretMap.map fun entry =>
        (secretConfigKey entry.1, entry.2)) =
      (createOpenDALSecret input).secretMap.entries.map fun entry => (entry.1, entry.2) := by
  rw [OpenDALSecret.keyValue, List.map_map]
  refine List.map_congr_left fun entry hentry => ?_
  have hlookup : (createOpenDALSecret input).secretMap.lookup entry.1 = some entry.2 :=
    AList.mem_lookup_iff.mpr hentry
  rw [lookup_created lawful] at hlookup
  split_ifs at hlookup with hmember
  rw [Function.comp_apply, secretConfigKey_parameter entry.1 hmember]

end Values

section Applying

variable [StringUtil] [SecretFunctions] {service : Bytes} {input : CreateSecretInput} {uri : Bytes}
  {r parsed : OpenDALPath}

def ForService (input : CreateSecretInput) (service : Bytes) : Prop :=
  SameIdentifier input.type (openDALSecretPrefix ++ service)

/-- A secret applies to the URIs of its service, within its scopes where any are given. -/
def Applies (input : CreateSecretInput) (uri : Bytes) (parsed : OpenDALPath) : Prop :=
  SameIdentifier input.type (openDALSecretTypeName parsed.secretType) ∧
    (input.scope = [] ∨ ∃ scope ∈ input.scope, scope <+: uri)

omit [StringUtil] in
theorem created_scope (lawful : LawfulSecretFunctions) (member : service ∈ openDALSecretServices)
    (type : ForService input service) : (createOpenDALSecret input).scope =
      if input.scope.isEmpty then defaultScopes service else input.scope := by
  have hname : SameIdentifier (input.type.drop openDALSecretPrefix.length) service := by
    have hlength : (foldCase openDALSecretPrefix).length = openDALSecretPrefix.length :=
      List.length_map _
    rw [SameIdentifier, foldCase, List.map_drop, ← foldCase, type, foldCase, List.map_append]
    exact List.drop_left' hlength
  rw [createOpenDALSecret, lawful.lower service member _ hname]

theorem fits_created_iff (lawful : LawfulSecretFunctions)
    (member : service ∈ openDALSecretServices) (type : ForService input service)
    (accepted : OpenDALPath.tryParse uri r = (true, parsed))
    (served : openDALSecretTypeName parsed.secretType ∈
      openDALSecretServices.map (openDALSecretPrefix ++ ·)) :
    (createOpenDALSecret input).Fits uri (openDALSecretTypeName parsed.secretType) ↔
      Applies input uri parsed := by
  refine and_congr_right fun htype => ?_
  rw [created_scope lawful member type]
  by_cases hempty : input.scope = []
  · obtain ⟨service', hservice', hname⟩ := List.mem_map.mp served
    have hsame : openDALSecretTypeName parsed.secretType = openDALSecretPrefix ++ service := by
      rw [← hname, ← foldCase_type service' hservice', ← foldCase_type service member, hname]
      exact htype.symm.trans type
    rw [if_pos (by simpa using hempty)]
    exact iff_of_true ((defaultScopes_cover member accepted).mpr hsame) (Or.inl hempty)
  · rw [if_neg (by simpa using hempty), or_iff_right hempty]

theorem secretMatch_created (lawful : LawfulSecretFunctions) {inputs : List CreateSecretInput}
    (created : ∀ input ∈ inputs, ∃ service ∈ openDALSecretServices, ForService input service)
    {manager : SecretManager} (keeps : Keeps manager (inputs.map createOpenDALSecret))
    (settings : Settings) (accepted : OpenDALPath.tryParse uri r = (true, parsed))
    (other : parsed.secretType ≠ .http) :
    (∃ input ∈ inputs, Applies input uri parsed ∧
      secretMatch uri parsed (some ⟨settings, some manager, true⟩) =
        .ok (some (createOpenDALSecret input).keyValue)) ∨
    ((∀ input ∈ inputs, ¬ Applies input uri parsed) ∧
      secretMatch uri parsed (some ⟨settings, some manager, true⟩) = .ok none) := by
  obtain ⟨entry, hentry, -, -, hparsed⟩ := tryParse_true accepted
  have htype : parsed.secretType = entry.secretType := by
    rw [hparsed]
    rfl
  rcases secretType_registered entry hentry with hnone | hhttp | ⟨service, hservice, serves⟩
  · have hunserved : ∀ service ∈ openDALSecretServices,
        openDALSecretPrefix ++ service ≠ foldCase (openDALSecretTypeName .none) := by
      decide +kernel
    refine Or.inr ⟨fun input hinput happlies => ?_, ?_⟩
    · obtain ⟨service, hservice, hfor⟩ := created input hinput
      refine hunserved service hservice ?_
      rw [← foldCase_type service hservice, ← hfor, happlies.1, htype, hnone]
    · rw [secretMatch, htype, hnone]
      rfl
  · exact absurd (htype.trans hhttp) other
  · have hname : openDALSecretTypeName parsed.secretType = openDALSecretPrefix ++ service := by
      rw [htype]
      exact serves
    have hlookup : secretMatch uri parsed (some ⟨settings, some manager, true⟩) =
        manager.lookupSecret uri (openDALSecretPrefix ++ service) := by
      have hsome : parsed.secretType ≠ .none := by
        intro hnone
        rw [hnone] at hname
        cases hname
      rw [secretMatch, ← hname]
      exact if_pos (by simpa using hsome)
    have hserved : openDALSecretTypeName parsed.secretType ∈
        openDALSecretServices.map (openDALSecretPrefix ++ ·) :=
      List.mem_map.mpr ⟨service, hservice, hname.symm⟩
    have hfits (input : CreateSecretInput) (hinput : input ∈ inputs) :
        (createOpenDALSecret input).Fits uri (openDALSecretPrefix ++ service) ↔
          Applies input uri parsed := by
      obtain ⟨service', hservice', hfor⟩ := created input hinput
      rw [← hname]
      exact fits_created_iff lawful hservice' hfor accepted hserved
    rw [hlookup]
    rcases keeps uri service hservice with ⟨secret, hsecret, hfit, hfound⟩ | ⟨hnot, hfound⟩
    · obtain ⟨input, hinput, rfl⟩ := List.mem_map.mp hsecret
      exact Or.inl ⟨input, hinput, (hfits input hinput).mp hfit, hfound⟩
    · refine Or.inr ⟨fun input hinput happlies => ?_, hfound⟩
      exact hnot _ (List.mem_map_of_mem hinput) ((hfits input hinput).mpr happlies)

/-- Secrets were created for services, and the manager finds one that fits if there are any. For
every accepted URI but an HTTP one, the operator is configured key by key: from what the statement
of one secret that applies gives for that parameter, else from the URI, else from the configuration
of the file system; where no secret applies, from the URI, else from that configuration. -/
theorem created_secret_config (lawful : LawfulSecretFunctions) {inputs : List CreateSecretInput}
    (created : ∀ input ∈ inputs, ∃ service ∈ openDALSecretServices, ForService input service)
    {manager : SecretManager} (keeps : Keeps manager (inputs.map createOpenDALSecret))
    (fs : OpenDALFileSystem) (settings : Settings)
    (accepted : OpenDALPath.tryParse uri r = (true, parsed)) (other : parsed.secretType ≠ .http) :
    ∃ config, createOperatorConfig fs uri parsed (some ⟨settings, some manager, true⟩) = .ok config ∧
      ((∃ input ∈ inputs, Applies input uri parsed ∧ ∀ key, config.lookup key =
          ((if key ∈ openDALSecretParameters then input.given key else none).or
            (parsed.uriConfig.lookup key)).or (fs.config.lookup key)) ∨
        ((∀ input ∈ inputs, ¬ Applies input uri parsed) ∧ ∀ key, config.lookup key =
          (parsed.uriConfig.lookup key).or (fs.config.lookup key))) := by
  rcases secretMatch_created lawful created keeps settings accepted other with
    ⟨input, hinput, happlies, hmatch⟩ | ⟨hnot, hmatch⟩
  · have hconfig : createOperatorConfig fs uri parsed (some ⟨settings, some manager, true⟩) =
        .ok (insertAll (insertAll fs.config
          (parsed.uriConfig.entries.map fun entry => (entry.1, entry.2)))
          ((createOpenDALSecret input).keyValue.secretMap.map fun entry =>
            (secretConfigKey entry.1, entry.2))) := by
      rw [createOperatorConfig, hmatch]
      rfl
    refine ⟨_, hconfig, Or.inl ⟨input, hinput, happlies, fun key => ?_⟩⟩
    rw [created_config lawful, lookup_insertAll_entries, lookup_insertAll_entries,
      lookup_created lawful, Option.or_assoc]
  · have hconfig : createOperatorConfig fs uri parsed (some ⟨settings, some manager, true⟩) =
        .ok (insertAll fs.config
          (parsed.uriConfig.entries.map fun entry => (entry.1, entry.2))) := by
      rw [createOperatorConfig, hmatch]
      rfl
    exact ⟨_, hconfig, Or.inr ⟨hnot, fun key => lookup_insertAll_entries _ _ key⟩⟩

end Applying

@[reducible] def plainSecretFunctions : SecretFunctions where
  lower := foldCase
  trySetValue secret key input :=
    match input.given key with
    | none => secret
    | some value => secret.insert key value

theorem plainSecretFunctions_lawful :
    letI : SecretFunctions := plainSecretFunctions
    LawfulSecretFunctions := by
  let _ : SecretFunctions := plainSecretFunctions
  have hlower : ∀ service ∈ openDALSecretServices, foldCase service = service := by decide +kernel
  exact ⟨fun service member name same => same.trans (hlower service member), fun _ _ _ => rfl⟩

def managerOf (secrets : List OpenDALSecret) : SecretManager where
  lookupSecret path type :=
    .ok ((secrets.find? fun secret => decide (secret.Fits path type)).map OpenDALSecret.keyValue)

theorem managerOf_keeps (secrets : List OpenDALSecret) : Keeps (managerOf secrets) secrets := by
  intro path service member
  rw [managerOf]
  dsimp only
  cases hfound : secrets.find? fun secret =>
      decide (secret.Fits path (openDALSecretPrefix ++ service)) with
  | none =>
    refine Or.inr ⟨fun secret hsecret => ?_, rfl⟩
    simpa using List.find?_eq_none.mp hfound secret hsecret
  | some secret =>
    have hfits : secret.Fits path (openDALSecretPrefix ++ service) := by
      simpa using List.find?_some hfound
    exact Or.inl ⟨secret, List.mem_of_find?_eq_some hfound, hfits, rfl⟩

theorem accepted_served_gs :
    letI : StringUtil := percentDecoding
    (OpenDALPath.tryParse (bytes "gs://bucket/x") {}).2.secretType = .gcs ∧
      ∀ service ∈ openDALSecretServices,
        (∃ scope ∈ defaultScopes service, scope <+: bytes "gs://bucket/x") ↔
          service = bytes "gcs" := by
  let _ : StringUtil := percentDecoding
  have hparse : (OpenDALPath.tryParse (bytes "gs://bucket/x") {}).1 = true := by decide +kernel
  have hcovers : ∃ scope ∈ defaultScopes (bytes "gcs"), scope <+: bytes "gs://bucket/x" := by
    decide +kernel
  have hgcs : bytes "gcs" ∈ openDALSecretServices := by decide +kernel
  refine ⟨by decide +kernel, ?_⟩
  rcases accepted_served (Prod.ext hparse rfl) with ⟨-, hbare⟩ | ⟨service, -, -, hserved⟩
  · obtain ⟨scope, hscope, hbegins⟩ := hcovers
    exact absurd hbegins (hbare _ hgcs scope hscope)
  · rwa [(hserved _ hgcs).mp hcovers]

theorem created_secret_config_region :
    letI : StringUtil := percentDecoding
    letI : SecretFunctions := plainSecretFunctions
    let inputs : List CreateSecretInput :=
      [{ type := bytes "opendal_s3", provider := bytes "config", name := bytes "a"
         scope := [bytes "s3://other/"], options := insertAll ∅ [(bytes "region", bytes "ap")] },
       { type := bytes "OPENDAL_S3", provider := bytes "config", name := bytes "b"
         options := insertAll ∅ [(bytes "REGION", bytes "eu")] }]
    let uri := bytes "s3a://bucket/x"
    let fs : OpenDALFileSystem :=
      { config := insertAll ∅ [(bytes "region", bytes "us"), (bytes "root", bytes "/")] }
    ∃ config, createOperatorConfig fs uri (OpenDALPath.tryParse uri {}).2
        (some ⟨{}, some (managerOf (inputs.map createOpenDALSecret)), true⟩) = .ok config ∧
      config.lookup (bytes "region") = some (bytes "eu") ∧
      config.lookup (bytes "bucket") = some (bytes "bucket") ∧
      config.lookup (bytes "root") = some (bytes "/") := by
  let _ : StringUtil := percentDecoding
  let _ : SecretFunctions := plainSecretFunctions
  intro inputs uri fs
  have haccepted : OpenDALPath.tryParse uri {} = (true, (OpenDALPath.tryParse uri {}).2) :=
    Prod.ext (by decide +kernel) rfl
  have hcreated : ∀ input ∈ inputs, ∃ service ∈ openDALSecretServices, ForService input service := by
    have hs3 : bytes "s3" ∈ openDALSecretServices := by decide +kernel
    have hfor : ∀ input ∈ inputs, ForService input (bytes "s3") := by
      rw [List.forall_mem_cons, List.forall_mem_singleton]
      exact ⟨by unfold ForService; decide +kernel, by unfold ForService; decide +kernel⟩
    exact fun input hinput => ⟨bytes "s3", hs3, hfor input hinput⟩
  have happlies : (∃ input ∈ inputs, Applies input uri (OpenDALPath.tryParse uri {}).2) ∧
      ∀ input ∈ inputs, Applies input uri (OpenDALPath.tryParse uri {}).2 →
        input.given (bytes "region") = some (bytes "eu") ∧ input.given (bytes "bucket") = none ∧
          input.given (bytes "root") = none := by
    unfold Applies
    decide +kernel
  have hregion : bytes "region" ∈ openDALSecretParameters := by decide +kernel
  have huri : (OpenDALPath.tryParse uri {}).2.uriConfig.lookup (bytes "bucket") =
      some (bytes "bucket") := by decide +kernel
  have hbase : (OpenDALPath.tryParse uri {}).2.uriConfig.lookup (bytes "root") = none ∧
      fs.config.lookup (bytes "root") = some (bytes "/") := by decide +kernel
  have hother : (OpenDALPath.tryParse uri {}).2.secretType ≠ .http := by decide +kernel
  obtain ⟨config, hconfig, ⟨input, hinput, hthis, hlookup⟩ | ⟨hnot, -⟩⟩ :=
    created_secret_config plainSecretFunctions_lawful hcreated (managerOf_keeps _) fs {} haccepted
      hother
  · obtain ⟨hgiven, hbucket, hroot⟩ := happlies.2 input hinput hthis
    refine ⟨config, hconfig, ?_, ?_, ?_⟩
    · rw [hlookup, if_pos hregion, hgiven]
      rfl
    · rw [hlookup, hbucket, huri, ite_self]
      rfl
    · rw [hlookup, hroot, hbase.1, hbase.2, ite_self]
      rfl
  · obtain ⟨input, hinput, hthis⟩ := happlies.1
    exact absurd hthis (hnot input hinput)

end DuckdbOpendalfs.Operators.Secrets
