import LagForecast.Forecast.Error

/-!
Settings and results of a comparison of two series.  The settings may be put together step by step.
-/

set_option autoImplicit false

namespace LagForecast

/-- Whether growth of what is measured is good or bad news. -/
inductive Direction where
  | favorable
  | adverse
  deriving DecidableEq, Inhabited

def Direction.sign : Direction → Float
  | favorable => 1.0
  | adverse => -1.0

/-- What becomes of a period that only one of the series has. -/
inductive MissingPolicy where
  /-- The period is dropped. -/
  | skip
  /-- The missing value counts as zero. -/
  | zero
  deriving DecidableEq, Inhabited

structure VarianceConfig where
  direction : Direction := .favorable
  /-- Differences of a size below this are left out. -/
  noiseThreshold : Float := 0.0
  missing : MissingPolicy := .skip
  /-- Whether differences are also given relative to the base. -/
  outputPercent : Bool := true

namespace VarianceConfig

def validThreshold (t : Float) : Bool := t.isFinite && !decide (t < 0.0)

def validate (c : VarianceConfig) : Except ForecastError Unit :=
  if validThreshold c.noiseThreshold then .ok ()
  else .error (.invalidParameter .noiseThreshold)

end VarianceConfig

structure VariancePoint where
  period : Int
  base : Float
  compare : Float
  delta : Float
  percent : Option Float
  deriving Inhabited

structure VarianceReport where
  /-- The fingerprints of the series, if they are series of a store. -/
  baseSeries : Option String := none
  compareSeries : Option String := none
  points : List VariancePoint := []
  /-- The number of periods that were dropped. -/
  skipped : Nat := 0
  /-- The number of differences that were left out. -/
  suppressed : Nat := 0
  deriving Inhabited

def VarianceReport.totalDelta (r : VarianceReport) : Float :=
  Scalar.sum (r.points.map VariancePoint.delta)

structure VarianceDraft where
  config : VarianceConfig := {}

namespace VarianceDraft

variable (d : VarianceDraft)

def withDirection (direction : Direction) : VarianceDraft :=
  ⟨{ d.config with direction }⟩

def withNoiseThreshold (noiseThreshold : Float) : VarianceDraft :=
  ⟨{ d.config with noiseThreshold }⟩

def withMissing (missing : MissingPolicy) : VarianceDraft := ⟨{ d.config with missing }⟩

def withPercent (outputPercent : Bool) : VarianceDraft := ⟨{ d.config with outputPercent }⟩

def build : Except ForecastError VarianceConfig := do
  d.config.validate
  return d.config

end VarianceDraft

end LagForecast
