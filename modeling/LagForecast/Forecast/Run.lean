import LagForecast.Forecast.Model
import LagForecast.Forecast.Vector

/-!
A model run over a history.
-/

set_option autoImplicit false

namespace LagForecast

/-- The number of periods that can be counted after a period. -/
def headroom (last : Int) : Int := lastPossiblePeriod - last

def forecastFlags (available required clampedSteps : Nat) : List ForecastFlag :=
  (if available < required then [.insufficientHistory available required] else []) ++
    if 0 < clampedSteps then [.clamped clampedSteps] else []

/-- Run a model over a history.  The horizon has to end at a period that can be counted, and the
model has to return a value for each period. -/
def runModel (model : BaselineModel) (h : History) (horizon : Horizon) :
    Attempt ForecastError ForecastVector := do
  if headroom h.lastPeriod < horizon.steps then
    .error (.invalidHorizon horizon.steps (headroom h.lastPeriod))
  let p ← model.project h horizon
  if p.values.length ≠ horizon.steps then
    .error (.numerical (.wrongLength model.name p.values.length horizon.steps))
  return {
    values := p.values
    startPeriod := h.lastPeriod + 1
    metadata := {
      series := none
      model := model.name
      order := model.order
      window := p.window
      historyLength := h.size
      flags := forecastFlags h.size model.order p.clampedSteps } }

end LagForecast
