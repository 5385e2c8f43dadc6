import LagForecast.Collection.Join
import LagForecast.Variance.Basic

/-!
The comparison of two lists of observations, period by period.
-/

set_option autoImplicit false

namespace LagForecast

/-- The values of a list by period; of values at one period the last counts. -/
def byPeriod (l : List Observation) : OrderedMap Int Float :=
  .ofList (l.map fun o => (o.period, o.value))

def align (base compare : List Observation) : OrderedMap Int (Option Float × Option Float) :=
  (byPeriod base).join (byPeriod compare)

/-- What becomes of a period. -/
inductive Verdict where
  | skipped
  | suppressed
  | point (p : VariancePoint)

namespace VarianceConfig

variable (c : VarianceConfig)

def operands (base compare : Option Float) : Option (Float × Float) :=
  match base, compare, c.missing with
  | some b, some v, _ => some (b, v)
  | _, _, .skip => none
  | b, v, .zero => some (b.getD 0.0, v.getD 0.0)

/-- The difference of two values, with the sign of the direction. -/
def delta (base compare : Float) : Float := (compare - base) * c.direction.sign

def judge (period : Int) (values : Option Float × Option Float) : Verdict :=
  match c.operands values.1 values.2 with
  | none => .skipped
  | some (base, compare) =>
    let delta := c.delta base compare
    if delta.abs < c.noiseThreshold then .suppressed
    else
      .point {
        period, base, compare, delta
        percent := if c.outputPercent && base != 0.0 then some (delta / base) else none }

end VarianceConfig

def VarianceReport.record (v : Verdict) (r : VarianceReport) : VarianceReport :=
  match v with
  | .skipped => { r with skipped := r.skipped + 1 }
  | .suppressed => { r with suppressed := r.suppressed + 1 }
  | .point p => { r with points := p :: r.points }

def VarianceReport.ofVerdicts (l : List Verdict) : VarianceReport :=
  l.foldr VarianceReport.record {}

def computeVariance (base compare : List Observation) (c : VarianceConfig) :
    Except ForecastError VarianceReport := do
  c.validate
  return .ofVerdicts ((align base compare).entries.map fun p => c.judge p.1 p.2)

end LagForecast
