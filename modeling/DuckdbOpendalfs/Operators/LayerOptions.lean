/- DuckdbOpendalfs/Operators/LayerOptions
   digest: Exceptions, and the timeout and retry layers read from the settings. -/

import DuckdbOpendalfs.Text.ByteString

set_option autoImplicit false
set_option relaxedAutoImplicit false

namespace DuckdbOpendalfs.Operators.LayerOptions

open Text.ByteString

/-- The exceptions of the file system, with their messages; a backend throws `opendal`. -/
inductive Exception
  | invalidInput (message : Bytes)
  | io (message : Bytes)
  | notImplemented (message : Bytes)
  | internal (message : Bytes)
  | opendal (message : Bytes)
  deriving DecidableEq, Repr

/-- The settings of the extension that are set; an absent one leaves the default. -/
structure Settings where
  timeoutLayerEnabled : Option Bool := none
  timeoutMs : Option UInt64 := none
  ioTimeoutMs : Option UInt64 := none
  retryLayerEnabled : Option Bool := none
  retryMaxTimes : Option UInt64 := none
  retryFactor : Option Float := none
  retryMinDelayMs : Option UInt64 := none
  retryMaxDelayMs : Option UInt64 := none
  retryJitter : Option Bool := none

structure OpenDALLayerOptions where
  timeoutLayerEnabled : Bool := true
  timeoutMs : UInt64 := 60000
  ioTimeoutMs : UInt64 := 10000
  retryLayerEnabled : Bool := true
  retryMaxTimes : UInt64 := 3
  retryFactor : Float := 2.0
  retryMinDelayMs : UInt64 := 1000
  retryMaxDelayMs : UInt64 := 60000
  retryJitter : Bool := false

structure RetryConfig where
  maxTimes : UInt64
  factor : Float32
  minDelay : Int64
  maxDelay : Int64
  jitter : Bool

/-- The options an operator is constructed with. Durations count milliseconds. -/
inductive OperatorOption
  | withTimeout (timeout ioTimeout : Int64)
  | withRetry (retry : RetryConfig)

def readSetting {T : Type} (setting : Option T) (target_p : T) : T := setting.getD target_p

/-- The timeout layer. The settings of a disabled layer are not read. -/
def OpenDALLayerOptions.readTimeoutLayer (settings : Settings) (result : OpenDALLayerOptions) :
    OpenDALLayerOptions :=
  if readSetting settings.timeoutLayerEnabled result.timeoutLayerEnabled then
    { result with
      timeoutLayerEnabled := true
      timeoutMs := readSetting settings.timeoutMs result.timeoutMs
      ioTimeoutMs := readSetting settings.ioTimeoutMs result.ioTimeoutMs }
  else { result with timeoutLayerEnabled := false }

def OpenDALLayerOptions.readRetryLayer (settings : Settings) (result : OpenDALLayerOptions) :
    OpenDALLayerOptions :=
  if readSetting settings.retryLayerEnabled result.retryLayerEnabled then
    { result with
      retryLayerEnabled := true
      retryMaxTimes := readSetting settings.retryMaxTimes result.retryMaxTimes
      retryFactor := readSetting settings.retryFactor result.retryFactor
      retryMinDelayMs := readSetting settings.retryMinDelayMs result.retryMinDelayMs
      retryMaxDelayMs := readSetting settings.retryMaxDelayMs result.retryMaxDelayMs
      retryJitter := readSetting settings.retryJitter result.retryJitter }
  else { result with retryLayerEnabled := false }

/-- Without an opener no setting is found. The delays of a disabled retry layer are not checked. -/
def OpenDALLayerOptions.fromSettings (opener_p : Option Settings) :
    Except Exception OpenDALLayerOptions :=
  let settings := opener_p.getD {}
  let result := readRetryLayer settings (readTimeoutLayer settings {})
  if result.retryLayerEnabled && decide (result.retryMaxDelayMs < result.retryMinDelayMs) then
    .error (.invalidInput
      (bytes "opendal_retry_min_delay_ms must not exceed opendal_retry_max_delay_ms"))
  else .ok result

def OpenDALLayerOptions.toOperatorOptions (options : OpenDALLayerOptions) : List OperatorOption :=
  let result :=
    if options.timeoutLayerEnabled then
      [.withTimeout options.timeoutMs.toInt64 options.ioTimeoutMs.toInt64]
    else []
  if options.retryLayerEnabled then
    result ++
      [.withRetry
        { maxTimes := options.retryMaxTimes, factor := options.retryFactor.toFloat32
          minDelay := options.retryMinDelayMs.toInt64
          maxDelay := options.retryMaxDelayMs.toInt64, jitter := options.retryJitter }]
  else result

theorem fromSettings_none : OpenDALLayerOptions.fromSettings none = .ok {} := rfl

theorem fromSettings_delays {settings : Option Settings} {options : OpenDALLayerOptions}
    (h : OpenDALLayerOptions.fromSettings settings = .ok options)
    (enabled : options.retryLayerEnabled = true) :
    options.retryMinDelayMs ≤ options.retryMaxDelayMs := by
  unfold OpenDALLayerOptions.fromSettings at h
  dsimp only at h
  split at h
  · cases h
  · rename_i hdelays
    obtain rfl := Except.ok.inj h
    simp only [enabled, Bool.true_and, decide_eq_true_eq] at hdelays
    exact UInt64.not_lt.mp hdelays

end DuckdbOpendalfs.Operators.LayerOptions
