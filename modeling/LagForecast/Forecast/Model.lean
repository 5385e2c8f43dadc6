import LagForecast.Forecast.Attempt
import LagForecast.Forecast.Error
import LagForecast.History.Basic

/-!
How far to forecast, models that continue a history, and the lag model as one of them.
-/

set_option autoImplicit false

namespace LagForecast

/-- A number of periods to forecast, at least one. -/
structure Horizon where
  steps : Nat
  positive : 0 < steps

namespace Horizon

def defaultMax : Nat := 1024

def bounded (requested : Int) (max : Nat) : Except ForecastError Horizon :=
  if h : 0 < requested ∧ requested ≤ max then .ok ⟨requested.toNat, by omega⟩
  else .error (.invalidHorizon requested max)

def toJson (h : Horizon) : Json := .int h.steps

end Horizon

/-- A model: a name to report, the number of observations it wants, and what it predicts. -/
structure BaselineModel where
  name : String
  order : Nat
  project : History → Horizon → Attempt ForecastError (Projection Float)

namespace LagModel

def defaultOrder : Nat := 4

/-- The mean of the last `order` values.  The list of its weights is asked for as a whole. -/
def movingAverage (order : Nat) : Attempt ParameterFault (LagModel Float) := do
  if order = 0 then .error .zeroOrder
  Attempt.reserve order
  .ofExcept ((weighted (equalWeights order)).mapError .weights)

def standard : LagModel Float :=
  ⟨equalWeights defaultOrder, false, by decide +kernel⟩

/-- Predict the values that follow a history.  A list as long as the horizon is asked for before the
first value is predicted. -/
def project (m : LagModel Float) (h : History) (horizon : Horizon) :
    Attempt ForecastError (Projection Float) := do
  Attempt.reserve horizon.steps
  .ofExcept ((m.projectValues h.range h.values horizon.steps).mapError fun step =>
    .numerical (.nonFinite step))

def toBaseline (m : LagModel Float) : BaselineModel := ⟨"lag", m.order, m.project⟩

end LagModel

end LagForecast
