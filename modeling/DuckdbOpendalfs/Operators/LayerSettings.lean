/- DuckdbOpendalfs/Operators/LayerSettings
   digest: The validated settings of the layers, and the durations a run of statements allows. -/

import DuckdbOpendalfs.Execution.Runs
import DuckdbOpendalfs.Operators.LayerOptions
import Mathlib.Logic.Function.Basic

set_option autoImplicit false
set_option relaxedAutoImplicit false

namespace DuckdbOpendalfs.Operators.LayerSettings

open Text.ByteString
open Execution.Runs
open LayerOptions

section Validators

/-- The largest duration in milliseconds that the validators accept. -/
def maxOpenDALLayerMilliseconds : UInt64 := 18446744073709551615 / 1000000

def validatePositiveMilliseconds (name_p : Bytes) (value : UInt64) : Except Exception Unit :=
  if value == 0 then .error (.invalidInput (name_p ++ bytes " must be greater than zero"))
  else if maxOpenDALLayerMilliseconds < value then
    .error (.invalidInput (name_p ++ bytes " exceeds the supported range"))
  else .ok ()

def validateTimeout (value : UInt64) : Except Exception Unit :=
  validatePositiveMilliseconds (bytes "opendal_timeout_ms") value

def validateIOTimeout (value : UInt64) : Except Exception Unit :=
  validatePositiveMilliseconds (bytes "opendal_io_timeout_ms") value

/-- On a platform where `size_t` has 64 bits. -/
def validateRetryMaxTimes (value : UInt64) : Except Exception Unit :=
  if value == 0 then
    .error (.invalidInput (bytes "opendal_retry_max_times must be greater than zero"))
  else if 18446744073709551615 < value then
    .error (.invalidInput (bytes "opendal_retry_max_times exceeds the supported range"))
  else .ok ()

/-- The upper bound is the largest `float`. -/
def validateRetryFactor (value : Float) : Except Exception Unit :=
  if !value.isFinite || decide (value < 1.0) || decide (3.4028234663852886e38 < value) then
    .error (.invalidInput (bytes "opendal_retry_factor must be finite and at least 1.0"))
  else .ok ()

def validateRetryMinDelay (value : UInt64) : Except Exception Unit :=
  validatePositiveMilliseconds (bytes "opendal_retry_min_delay_ms") value

def validateRetryMaxDelay (value : UInt64) : Except Exception Unit :=
  validatePositiveMilliseconds (bytes "opendal_retry_max_delay_ms") value

end Validators

inductive DurationSetting
  | timeout | ioTimeout | retryMinDelay | retryMaxDelay
  deriving DecidableEq

inductive LayerSetting
  | timeoutLayerEnabled | retryLayerEnabled | retryMaxTimes | retryFactor | retryJitter
  | duration (setting : DurationSetting)
  deriving DecidableEq

/-- The registered type of a setting. DuckDB casts a value to it before the validator sees it. -/
def LayerSetting.Value : LayerSetting → Type
  | .timeoutLayerEnabled | .retryLayerEnabled | .retryJitter => Bool
  | .retryMaxTimes | .duration _ => UInt64
  | .retryFactor => Float

def DurationSetting.validate : DurationSetting → UInt64 → Except Exception Unit
  | .timeout => validateTimeout
  | .ioTimeout => validateIOTimeout
  | .retryMinDelay => validateRetryMinDelay
  | .retryMaxDelay => validateRetryMaxDelay

/-- The validator that a setting is registered with. The switches have none. -/
def LayerSetting.validate : (setting : LayerSetting) → setting.Value → Except Exception Unit
  | .timeoutLayerEnabled, _ | .retryLayerEnabled, _ | .retryJitter, _ => .ok ()
  | .retryMaxTimes, value => validateRetryMaxTimes value
  | .retryFactor, value => validateRetryFactor value
  | .duration setting, value => setting.validate value

def DurationSetting.default (setting : DurationSetting) : UInt64 :=
  let options : OpenDALLayerOptions := {}
  match setting with
  | .timeout => options.timeoutMs
  | .ioTimeout => options.ioTimeoutMs
  | .retryMinDelay => options.retryMinDelayMs
  | .retryMaxDelay => options.retryMaxDelayMs

def LayerSetting.default (setting : LayerSetting) : setting.Value :=
  let options : OpenDALLayerOptions := {}
  match setting with
  | .timeoutLayerEnabled => options.timeoutLayerEnabled
  | .retryLayerEnabled => options.retryLayerEnabled
  | .retryMaxTimes => options.retryMaxTimes
  | .retryFactor => options.retryFactor
  | .retryJitter => options.retryJitter
  | .duration setting => setting.default

theorem validate_default (setting : DurationSetting) :
    setting.validate setting.default = .ok () := by
  cases setting with
  | timeout => rfl
  | ioTimeout => rfl
  | retryMinDelay => rfl
  | retryMaxDelay => rfl

section Statements

/-- DuckDB's store of the registered settings. A lookup finds a value that some scope holds: the
default that the setting was registered with, or what a statement stored. -/
structure SettingsStore (Scope σ : Type) where
  registered : σ
  set : σ → Scope → (setting : LayerSetting) → setting.Value → σ
  reset : σ → Scope → LayerSetting → σ
  tryGetCurrentSetting : σ → (setting : LayerSetting) → Option setting.Value
  Held : σ → (setting : LayerSetting) → setting.Value → Prop
  held_registered : ∀ {setting value}, Held registered setting value → value = setting.default
  held_set : ∀ {state scope setting value setting' value'},
    Held (set state scope setting value) setting' value' → Held state setting' value' ∨
      (⟨setting', value'⟩ : (setting : LayerSetting) × setting.Value) = ⟨setting, value⟩
  held_reset : ∀ {state scope setting setting' value'},
    Held (reset state scope setting) setting' value' →
      Held state setting' value' ∨ value' = setting'.default
  held_found : ∀ {state setting value},
    tryGetCurrentSetting state setting = some value → Held state setting value

inductive Statement (Scope : Type)
  | set (scope : Scope) (setting : LayerSetting) (value : setting.Value)
  | reset (scope : Scope) (setting : LayerSetting)

variable {Scope σ : Type} (db : SettingsStore Scope σ)

/-- The validator sees the value before it is stored, and the default before it is put back. -/
def execute (state : σ) : Statement Scope → Except Exception σ
  | .set scope setting value => do
    setting.validate value
    return db.set state scope setting value
  | .reset scope setting => do
    setting.validate setting.default
    return db.reset state scope setting

def step (state : σ) (statement : Statement Scope) : Option Exception × σ :=
  match execute db state statement with
  | .error e => (some e, state)
  | .ok state' => (none, state')

def current (state : σ) : Settings where
  timeoutLayerEnabled := db.tryGetCurrentSetting state .timeoutLayerEnabled
  timeoutMs := db.tryGetCurrentSetting state (.duration .timeout)
  ioTimeoutMs := db.tryGetCurrentSetting state (.duration .ioTimeout)
  retryLayerEnabled := db.tryGetCurrentSetting state .retryLayerEnabled
  retryMaxTimes := db.tryGetCurrentSetting state .retryMaxTimes
  retryFactor := db.tryGetCurrentSetting state .retryFactor
  retryMinDelayMs := db.tryGetCurrentSetting state (.duration .retryMinDelay)
  retryMaxDelayMs := db.tryGetCurrentSetting state (.duration .retryMaxDelay)
  retryJitter := db.tryGetCurrentSetting state .retryJitter

end Statements

section Scopes

inductive SetScope
  | session | global
  deriving DecidableEq

abbrev ScopedValues := SetScope → (setting : LayerSetting) → Option setting.Value

def storeValue (state : ScopedValues) (scope : SetScope) (setting : LayerSetting)
    (value : setting.Value) : ScopedValues :=
  Function.update state scope (Function.update (state scope) setting (some value))

theorem storeValue_eq_some {state : ScopedValues} {scope scope' : SetScope}
    {setting setting' : LayerSetting} {value : setting.Value} {value' : setting'.Value}
    (h : storeValue state scope setting value scope' setting' = some value') :
    state scope' setting' = some value' ∨
      (⟨setting', value'⟩ : (setting : LayerSetting) × setting.Value) = ⟨setting, value⟩ := by
  by_cases hscope : scope' = scope
  · subst hscope
    by_cases hsetting : setting' = setting
    · subst hsetting
      rw [storeValue, Function.update_self, Function.update_self] at h
      exact Or.inr (congrArg _ (Option.some.inj h).symm)
    · rw [storeValue, Function.update_self, Function.update_of_ne hsetting] at h
      exact Or.inl h
  · rw [storeValue, Function.update_of_ne hscope] at h
    exact Or.inl h

def scopedSettings : SettingsStore SetScope ScopedValues where
  registered := fun
    | .session, _ => none
    | .global, setting => some setting.default
  set := storeValue
  reset state scope setting := storeValue state scope setting setting.default
  tryGetCurrentSetting state setting := (state .session setting).or (state .global setting)
  Held state setting value := ∃ scope, state scope setting = some value
  held_registered := by
    rintro setting value ⟨scope, h⟩
    cases scope with
    | session => cases h
    | global => exact (Option.some.inj h).symm
  held_set := by
    rintro state scope setting value setting' value' ⟨scope', h⟩
    exact (storeValue_eq_some h).imp_left fun hkept => ⟨scope', hkept⟩
  held_reset := by
    rintro state scope setting setting' value' ⟨scope', h⟩
    refine (storeValue_eq_some h).imp (fun hkept => ⟨scope', hkept⟩) fun hnew => ?_
    cases hnew
    rfl
  held_found := by
    intro state setting value h
    rcases Option.or_eq_some_iff.mp h with hsession | ⟨-, hglobal⟩
    · exact ⟨.session, hsession⟩
    · exact ⟨.global, hglobal⟩

end Scopes

section Durations

/-- The nanoseconds of a duration in milliseconds are a signed 64-bit count. -/
def FitsNanoseconds (duration : Int64) : Prop :=
  Int64.minValue.toInt ≤ duration.toInt * 1000000 ∧
    duration.toInt * 1000000 ≤ Int64.maxValue.toInt

def durations : OperatorOption → List Int64
  | .withTimeout timeout ioTimeout => [timeout, ioTimeout]
  | .withRetry retry => [retry.minDelay, retry.maxDelay]

def DelaysOrdered : OperatorOption → Prop
  | .withTimeout _ _ => True
  | .withRetry retry => retry.minDelay.toInt ≤ retry.maxDelay.toInt

def RepresentableOption (option : OperatorOption) : Prop :=
  DelaysOrdered option ∧
    ∀ duration ∈ durations option, 0 < duration.toInt ∧ FitsNanoseconds duration

def Representable (options : OpenDALLayerOptions) : Prop :=
  ∀ option ∈ options.toOperatorOptions, RepresentableOption option

def WithinNanoseconds (milliseconds : UInt64) : Prop := milliseconds.toNat ≤ 9223372036854

instance : DecidablePred WithinNanoseconds := fun milliseconds =>
  inferInstanceAs (Decidable (milliseconds.toNat ≤ 9223372036854))

def InRange (milliseconds : UInt64) : Prop :=
  0 < milliseconds.toNat ∧ milliseconds.toNat ≤ 18446744073709

theorem validatePositiveMilliseconds_ok {name : Bytes} {value : UInt64} :
    validatePositiveMilliseconds name value = .ok () ↔ InRange value := by
  have hmax : maxOpenDALLayerMilliseconds.toNat = 18446744073709 := rfl
  unfold validatePositiveMilliseconds InRange
  split_ifs with hzero hlarge
  · rw [beq_iff_eq] at hzero
    subst hzero
    simp
  · rw [UInt64.lt_iff_toNat_lt, hmax] at hlarge
    simp only [false_iff]
    omega
  · rw [UInt64.lt_iff_toNat_lt, hmax] at hlarge
    have hne : value.toNat ≠ 0 := fun h => hzero (beq_iff_eq.mpr (UInt64.toNat_inj.mp h))
    simp only [true_iff]
    omega

theorem validate_ok {setting : DurationSetting} {value : UInt64} :
    setting.validate value = .ok () ↔ InRange value := by
  cases setting with
  | timeout | ioTimeout | retryMinDelay | retryMaxDelay => exact validatePositiveMilliseconds_ok

private theorem toInt_toInt64 {milliseconds : UInt64} (range : InRange milliseconds) :
    milliseconds.toInt64.toInt = milliseconds.toNat := by
  have hsmall : 2 * milliseconds.toBitVec.toNat < 2 ^ 64 := by
    rw [UInt64.toNat_toBitVec]
    unfold InRange at range
    omega
  rw [← Int64.toInt_toBitVec, UInt64.toBitVec_toInt64, BitVec.toInt_eq_toNat_of_lt hsmall,
    UInt64.toNat_toBitVec]

theorem fitsNanoseconds_iff {milliseconds : UInt64} (range : InRange milliseconds) :
    FitsNanoseconds milliseconds.toInt64 ↔ WithinNanoseconds milliseconds := by
  have hmin : Int64.minValue.toInt = -9223372036854775808 := rfl
  have hmax : Int64.maxValue.toInt = 9223372036854775807 := rfl
  unfold FitsNanoseconds WithinNanoseconds
  rw [toInt_toInt64 range, hmin, hmax]
  omega

end Durations

section Invariant

def OfDuration (P : UInt64 → Prop) : (setting : LayerSetting) → setting.Value → Prop
  | .duration _, value => P value
  | .timeoutLayerEnabled, _ | .retryLayerEnabled, _ | .retryMaxTimes, _ | .retryFactor, _
  | .retryJitter, _ => True

theorem ofDuration_default {P : UInt64 → Prop}
    (defaults : ∀ setting : DurationSetting, P setting.default) (setting : LayerSetting) :
    OfDuration P setting setting.default := by
  cases setting with
  | duration setting => exact defaults setting
  | timeoutLayerEnabled | retryLayerEnabled | retryMaxTimes | retryFactor | retryJitter => trivial

theorem ofDuration_validated {setting : LayerSetting} {value : setting.Value}
    (h : setting.validate value = .ok ()) : OfDuration InRange setting value := by
  cases setting with
  | duration setting => exact validate_ok.mp h
  | timeoutLayerEnabled | retryLayerEnabled | retryMaxTimes | retryFactor | retryJitter => trivial

variable {Scope σ : Type} {db : SettingsStore Scope σ}

/-- `P` holds of every duration that is held. -/
def Stored (db : SettingsStore Scope σ) (P : UInt64 → Prop) (state : σ) : Prop :=
  ∀ setting value, db.Held state setting value → OfDuration P setting value

variable {P : UInt64 → Prop} (defaults : ∀ setting : DurationSetting, P setting.default)

include defaults

theorem stored_registered : Stored db P db.registered := by
  intro setting value h
  rw [db.held_registered h]
  exact ofDuration_default defaults setting

theorem stored_step {state : σ} (stored : Stored db P state) {statement : Statement Scope}
    (sets : ∀ scope setting value, statement = .set scope setting value →
      setting.validate value = .ok () → OfDuration P setting value) :
    Stored db P (step db state statement).2 := by
  cases statement with
  | set scope setting value =>
    cases hvalid : setting.validate value with
    | error e => simpa [step, execute, hvalid] using stored
    | ok _ =>
      have hnew : Stored db P (db.set state scope setting value) := by
        intro setting' value' h
        rcases db.held_set h with hkept | hset
        · exact stored setting' value' hkept
        · cases hset
          exact sets scope setting value rfl hvalid
      simpa [step, execute, hvalid] using hnew
  | reset scope setting =>
    cases hvalid : setting.validate setting.default with
    | error e => simpa [step, execute, hvalid] using stored
    | ok _ =>
      have hnew : Stored db P (db.reset state scope setting) := by
        intro setting' value' h
        rcases db.held_reset h with hkept | hdefault
        · exact stored setting' value' hkept
        · exact hdefault ▸ ofDuration_default defaults setting'
      simpa [step, execute, hvalid] using hnew

end Invariant

section Options

def settingDuration (settings : Settings) (setting : DurationSetting) : UInt64 :=
  match setting with
  | .timeout => readSetting settings.timeoutMs setting.default
  | .ioTimeout => readSetting settings.ioTimeoutMs setting.default
  | .retryMinDelay => readSetting settings.retryMinDelayMs setting.default
  | .retryMaxDelay => readSetting settings.retryMaxDelayMs setting.default

def timeoutLayerOn (settings : Settings) : Bool :=
  readSetting settings.timeoutLayerEnabled ({} : OpenDALLayerOptions).timeoutLayerEnabled

def retryLayerOn (settings : Settings) : Bool :=
  readSetting settings.retryLayerEnabled ({} : OpenDALLayerOptions).retryLayerEnabled

theorem stored_current {Scope σ : Type} {db : SettingsStore Scope σ} {state : σ} {P : UInt64 → Prop}
    (defaults : ∀ setting : DurationSetting, P setting.default) (stored : Stored db P state)
    (setting : DurationSetting) : P (settingDuration (current db state) setting) := by
  have hread : settingDuration (current db state) setting =
      readSetting (db.tryGetCurrentSetting state (.duration setting)) setting.default := by
    cases setting with
    | timeout | ioTimeout | retryMinDelay | retryMaxDelay => rfl
  rw [hread]
  cases hfound : db.tryGetCurrentSetting state (.duration setting) with
  | none => exact defaults setting
  | some value => exact stored _ _ (db.held_found hfound)

private theorem readTimeoutLayer_fields (settings : Settings) (result : OpenDALLayerOptions) :
    let on := readSetting settings.timeoutLayerEnabled result.timeoutLayerEnabled
    let read := OpenDALLayerOptions.readTimeoutLayer settings result
    read.timeoutLayerEnabled = on ∧
      (on = true → read.timeoutMs = readSetting settings.timeoutMs result.timeoutMs ∧
        read.ioTimeoutMs = readSetting settings.ioTimeoutMs result.ioTimeoutMs) ∧
      read.retryLayerEnabled = result.retryLayerEnabled ∧
      read.retryMinDelayMs = result.retryMinDelayMs ∧
      read.retryMaxDelayMs = result.retryMaxDelayMs := by
  dsimp only
  by_cases hon : readSetting settings.timeoutLayerEnabled result.timeoutLayerEnabled = true
  · simp [OpenDALLayerOptions.readTimeoutLayer, hon]
  · simp [OpenDALLayerOptions.readTimeoutLayer, hon]

private theorem readRetryLayer_fields (settings : Settings) (result : OpenDALLayerOptions) :
    let on := readSetting settings.retryLayerEnabled result.retryLayerEnabled
    let read := OpenDALLayerOptions.readRetryLayer settings result
    read.retryLayerEnabled = on ∧
      (on = true →
        read.retryMinDelayMs = readSetting settings.retryMinDelayMs result.retryMinDelayMs ∧
          read.retryMaxDelayMs = readSetting settings.retryMaxDelayMs result.retryMaxDelayMs) ∧
      read.timeoutLayerEnabled = result.timeoutLayerEnabled ∧
      read.timeoutMs = result.timeoutMs ∧ read.ioTimeoutMs = result.ioTimeoutMs := by
  dsimp only
  by_cases hon : readSetting settings.retryLayerEnabled result.retryLayerEnabled = true
  · simp [OpenDALLayerOptions.readRetryLayer, hon]
  · simp [OpenDALLayerOptions.readRetryLayer, hon]

theorem fromSettings_durations {settings : Settings} {options : OpenDALLayerOptions}
    (h : OpenDALLayerOptions.fromSettings (some settings) = .ok options) :
    options.timeoutLayerEnabled = timeoutLayerOn settings ∧
      options.retryLayerEnabled = retryLayerOn settings ∧
      (timeoutLayerOn settings = true →
        options.timeoutMs = settingDuration settings .timeout ∧
          options.ioTimeoutMs = settingDuration settings .ioTimeout) ∧
      (retryLayerOn settings = true →
        options.retryMinDelayMs = settingDuration settings .retryMinDelay ∧
          options.retryMaxDelayMs = settingDuration settings .retryMaxDelay) := by
  have hread : options = OpenDALLayerOptions.readRetryLayer settings
      (OpenDALLayerOptions.readTimeoutLayer settings {}) := by
    unfold OpenDALLayerOptions.fromSettings at h
    dsimp only at h
    split at h
    · cases h
    · exact (Except.ok.inj h).symm
  obtain ⟨htimeout, htimeouts, hretry', hmin', hmax'⟩ := readTimeoutLayer_fields settings {}
  obtain ⟨hretry, hdelays, htimeout', hcontrol, hio⟩ :=
    readRetryLayer_fields settings (OpenDALLayerOptions.readTimeoutLayer settings {})
  rw [hretry'] at hretry hdelays
  rw [hmin', hmax'] at hdelays
  rw [hread, htimeout', hcontrol, hio]
  exact ⟨htimeout, hretry, htimeouts, hdelays⟩

theorem representable_layers {options : OpenDALLayerOptions} :
    Representable options ↔
      (options.timeoutLayerEnabled = true → RepresentableOption
        (.withTimeout options.timeoutMs.toInt64 options.ioTimeoutMs.toInt64)) ∧
      (options.retryLayerEnabled = true → RepresentableOption
        (.withRetry
          { maxTimes := options.retryMaxTimes, factor := options.retryFactor.toFloat32
            minDelay := options.retryMinDelayMs.toInt64
            maxDelay := options.retryMaxDelayMs.toInt64, jitter := options.retryJitter })) := by
  unfold Representable OpenDALLayerOptions.toOperatorOptions
  split_ifs with htimeout hretry hretry
  all_goals simp [htimeout, hretry]

def LayersFit (settings : Settings) : Prop :=
  (timeoutLayerOn settings = true → WithinNanoseconds (settingDuration settings .timeout) ∧
    WithinNanoseconds (settingDuration settings .ioTimeout)) ∧
  (retryLayerOn settings = true → WithinNanoseconds (settingDuration settings .retryMaxDelay))

private theorem handed_iff {milliseconds : UInt64} (range : InRange milliseconds) :
    (0 < milliseconds.toInt64.toInt ∧ FitsNanoseconds milliseconds.toInt64) ↔
      WithinNanoseconds milliseconds := by
  rw [fitsNanoseconds_iff range, toInt_toInt64 range]
  refine ⟨And.right, fun h => ⟨?_, h⟩⟩
  have hpos := range.1
  omega

private theorem timeout_iff {timeout ioTimeout : UInt64} (range : InRange timeout)
    (range' : InRange ioTimeout) :
    RepresentableOption (.withTimeout timeout.toInt64 ioTimeout.toInt64) ↔
      WithinNanoseconds timeout ∧ WithinNanoseconds ioTimeout := by
  rw [← handed_iff range, ← handed_iff range']
  simp [RepresentableOption, DelaysOrdered, durations]

private theorem retry_iff {retry : RetryConfig} {minDelay maxDelay : UInt64}
    (hmin : retry.minDelay = minDelay.toInt64) (hmax : retry.maxDelay = maxDelay.toInt64)
    (range : InRange minDelay) (range' : InRange maxDelay) (ordered : minDelay ≤ maxDelay) :
    RepresentableOption (.withRetry retry) ↔ WithinNanoseconds maxDelay := by
  rw [UInt64.le_iff_toNat_le] at ordered
  have hordered : DelaysOrdered (.withRetry retry) := by
    rw [DelaysOrdered, hmin, hmax, toInt_toInt64 range, toInt_toInt64 range']
    exact Int.ofNat_le.mpr ordered
  constructor
  · rintro ⟨-, heach⟩
    have hlast := heach retry.maxDelay (List.mem_cons_of_mem _ List.mem_cons_self)
    rw [hmax] at hlast
    exact (handed_iff range').mp hlast
  · intro hfits
    have hfits' : WithinNanoseconds minDelay := Nat.le_trans ordered hfits
    refine ⟨hordered, ?_⟩
    simp only [durations, hmin, hmax, List.forall_mem_cons, List.not_mem_nil]
    exact ⟨(handed_iff range).mpr hfits', (handed_iff range').mpr hfits, fun _ hx => hx.elim⟩

theorem representable_iff {settings : Settings} {options : OpenDALLayerOptions}
    (ranges : ∀ setting, InRange (settingDuration settings setting))
    (h : OpenDALLayerOptions.fromSettings (some settings) = .ok options) :
    Representable options ↔ LayersFit settings := by
  obtain ⟨htimeout, hretry, htimeouts, hdelays⟩ := fromSettings_durations h
  have hordered := fromSettings_delays h
  rw [representable_layers]
  rw [hretry] at hordered ⊢
  rw [htimeout]
  refine and_congr (forall_congr' fun hon => ?_) (forall_congr' fun hon => ?_)
  · obtain ⟨hcontrol, hio⟩ := htimeouts hon
    rw [hcontrol, hio]
    exact timeout_iff (ranges _) (ranges _)
  · obtain ⟨hmin, hmax⟩ := hdelays hon
    have hdelayed := hordered hon
    rw [hmin, hmax] at hdelayed
    exact retry_iff (congrArg UInt64.toInt64 hmin) (congrArg UInt64.toInt64 hmax) (ranges _)
      (ranges _) hdelayed

end Options

section SettingsRuns

variable {Scope σ : Type} (db : SettingsStore Scope σ)

def SetsWithin : Statement Scope → Prop
  | .set _ setting value => OfDuration WithinNanoseconds setting value
  | .reset _ _ => True

private theorem default_inRange (setting : DurationSetting) : InRange setting.default :=
  validate_ok.mp (validate_default setting)

private theorem default_within (setting : DurationSetting) : WithinNanoseconds setting.default := by
  cases setting with
  | timeout | ioTimeout | retryMinDelay | retryMaxDelay => decide

theorem stored_inRange (statements : List (Statement Scope)) :
    Stored db InRange (after (step db) db.registered statements) := by
  refine after_invariant (fun state statement stored => ?_) (stored_registered default_inRange)
    statements
  exact stored_step default_inRange stored fun _ _ _ _ hvalid => ofDuration_validated hvalid

theorem stored_within {statements : List (Statement Scope)}
    (within : ∀ statement ∈ statements, SetsWithin statement) :
    Stored db WithinNanoseconds (after (step db) db.registered statements) := by
  refine after_invariant_of (fun state statement hwithin stored => ?_)
    (stored_registered default_within) within
  refine stored_step default_within stored fun scope setting value hset _ => ?_
  subst hset
  exact hwithin

/-- In every reachable state the options hand over representable durations exactly when those of
the enabled layers fit, and the validators do not see to that. They do fit throughout a run that
sets no longer ones. -/
theorem fromSettings_representable (statements : List (Statement Scope)) :
    (∀ options, OpenDALLayerOptions.fromSettings
        (some (current db (after (step db) db.registered statements))) = .ok options →
      (Representable options ↔
        LayersFit (current db (after (step db) db.registered statements)))) ∧
    ((∀ statement ∈ statements, SetsWithin statement) → ∀ front, front <+: statements →
      ∀ options, OpenDALLayerOptions.fromSettings
          (some (current db (after (step db) db.registered front))) = .ok options →
        Representable options) := by
  have hranges (front : List (Statement Scope)) (setting : DurationSetting) :
      InRange (settingDuration (current db (after (step db) db.registered front)) setting) :=
    stored_current default_inRange (stored_inRange db front) setting
  constructor
  · intro options h
    exact representable_iff (hranges statements) h
  · intro within front hfront options h
    have hstored := stored_within db fun statement hmem => within statement (hfront.subset hmem)
    have hfits := stored_current default_within hstored
    exact (representable_iff (hranges front) h).mpr
      ⟨fun _ => ⟨hfits .timeout, hfits .ioTimeout⟩, fun _ => hfits .retryMaxDelay⟩

def loweredDelays : List (Statement SetScope) :=
  [.set .session (.duration .retryMaxDelay) (20 : UInt64),
   .set .global (.duration .retryMinDelay) (10 : UInt64),
   .set .session (.duration .timeout) (9223372036854 : UInt64),
   .reset .session (.duration .timeout),
   .set .session (.duration .retryMinDelay) (0 : UInt64)]

theorem fromSettings_representable_loweredDelays :
    ∃ options, OpenDALLayerOptions.fromSettings (some (current scopedSettings
        (after (step scopedSettings) scopedSettings.registered loweredDelays))) = .ok options ∧
      options.timeoutMs = 60000 ∧ options.retryMinDelayMs = 10 ∧ options.retryMaxDelayMs = 20 ∧
      Representable options ∧ LayersFit (current scopedSettings
        (after (step scopedSettings) scopedSettings.registered loweredDelays)) := by
  obtain ⟨hexact, hruns⟩ := fromSettings_representable scopedSettings loweredDelays
  have hwithin : ∀ statement ∈ loweredDelays, SetsWithin statement := by
    simp only [loweredDelays, List.forall_mem_cons, List.not_mem_nil]
    exact ⟨(by decide : WithinNanoseconds 20), (by decide : WithinNanoseconds 10),
      (by decide : WithinNanoseconds 9223372036854), trivial, (by decide : WithinNanoseconds 0),
      fun _ hx => hx.elim⟩
  refine ⟨_, rfl, rfl, rfl, rfl, ?_, ?_⟩
  · exact hruns hwithin _ List.prefix_rfl _ rfl
  · exact (hexact _ rfl).mp (hruns hwithin _ List.prefix_rfl _ rfl)

/-- A timeout of 317 years is accepted, and its nanoseconds overflow. -/
theorem accepted_timeout_overflows :
    let statements : List (Statement SetScope) :=
      [.set .session (.duration .timeout) (10000000000000 : UInt64)]
    (run (step scopedSettings) scopedSettings.registered statements).1 = [none] ∧
      ∃ options, OpenDALLayerOptions.fromSettings (some (current scopedSettings
          (after (step scopedSettings) scopedSettings.registered statements))) = .ok options ∧
        ¬ Representable options := by
  intro statements
  refine ⟨rfl, _, rfl, fun hall => ?_⟩
  obtain ⟨-, heach⟩ := (representable_layers.mp hall).1 rfl
  obtain ⟨-, -, hmax⟩ := heach _ List.mem_cons_self
  exact absurd hmax (by decide)

end SettingsRuns

end DuckdbOpendalfs.Operators.LayerSettings
