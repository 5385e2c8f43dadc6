import LagForecast.Forecast.Run
import LagForecast.Store.Basic
import LagForecast.Text.Quoted
import LagForecast.Variance.Compute

/-!
The service: forecasts and comparisons of series of a store.
-/

set_option autoImplicit false

namespace LagForecast

/-- A store, a model, and how far may be forecast. -/
structure Forecaster where
  store : HistoryStore
  model : BaselineModel
  maxHorizon : Nat := Horizon.defaultMax

namespace Forecaster

variable (f : Forecaster)

def storeFault (k : SeriesKey) : StoreError → ForecastError
  | .unavailable outage => .storeUnavailable outage
  | .malformed damage => .corruptHistory k.canonical damage

/-- The history in what a store answers about a series.  A store that gives no answer is reported
first, then a series without observations, then observations that are no history. -/
def historyIn (k : SeriesKey) (answer : Except StoreError (List Observation)) :
    Except ForecastError History := do
  let l ← answer.mapError (storeFault k)
  if l.isEmpty then throw (.seriesNotFound k.canonical)
  (History.ofList l).mapError fun e => .corruptHistory k.canonical (.history e)

def forecastHistory (h : History) (horizon : Horizon) : Attempt ForecastError ForecastVector :=
  runModel f.model h horizon

section Asking

open MonadExcept (ofExcept)

variable {m : Type → Type} [Monad m]
  (ask : SeriesKey → m (Except StoreError (List Observation)))

def loadHistoryBy (k : SeriesKey) : ExceptT ForecastError m History := do
  let answer ← ask k
  ofExcept (historyIn k answer)

/-- Forecast a series of a store that is asked by a step of `m`.  The horizon is checked before the
store is asked. -/
def forecastBy (k : SeriesKey) (requested : Int) : m (Attempt ForecastError ForecastVector) :=
  match Horizon.bounded requested f.maxHorizon with
  | .error e => return .error e
  | .ok horizon => do
    let answer ← ask k
    return do
      let h ← historyIn k answer
      let v ← f.forecastHistory h horizon
      return { v with metadata := { v.metadata with series := some k.fingerprint } }

/-- Compare a series with a base, both of a store that is asked by a step of `m`.  The settings are
checked before the store is asked, and it is asked for the base first. -/
def varianceBy (base compare : SeriesKey) (c : VarianceConfig) :
    ExceptT ForecastError m VarianceReport := do
  ofExcept c.validate
  let b ← loadHistoryBy ask base
  let v ← loadHistoryBy ask compare
  let r ← ofExcept (computeVariance b.observations v.observations c)
  return { r with baseSeries := some base.fingerprint, compareSeries := some compare.fingerprint }

end Asking

def loadHistory (k : SeriesKey) : Except ForecastError History :=
  historyIn k (f.store.observations k)

def forecast (k : SeriesKey) (requested : Int) : Attempt ForecastError ForecastVector :=
  Id.run (f.forecastBy (fun k => pure (f.store.observations k)) k requested)

def variance (base compare : SeriesKey) (c : VarianceConfig) :
    Except ForecastError VarianceReport :=
  Id.run (varianceBy (fun k => pure (f.store.observations k)) base compare c).run

private theorem run_ofExcept {ε α : Type} (x : Except ε α) :
    Id.run (MonadExcept.ofExcept x : ExceptT ε Id α).run = x := by
  cases x <;> rfl

private theorem run_bind {ε α β : Type} (x : ExceptT ε Id α) (g : α → ExceptT ε Id β) :
    Id.run (x >>= g).run = Id.run x.run >>= fun a => Id.run (g a).run := by
  change Except ε α at x
  cases x <;> rfl

private theorem run_loadHistoryBy (k : SeriesKey) :
    Id.run (loadHistoryBy (fun k => pure (f.store.observations k)) k).run = f.loadHistory k :=
  run_ofExcept _

/-- The store's answer as a value: the horizon, the history and the model are tried in this
order. -/
theorem forecast_eq (k : SeriesKey) (requested : Int) :
    f.forecast k requested = do
      let horizon ← Horizon.bounded requested f.maxHorizon
      let h ← f.loadHistory k
      let v ← f.forecastHistory h horizon
      return { v with metadata := { v.metadata with series := some k.fingerprint } } := by
  unfold forecast forecastBy
  cases Horizon.bounded requested f.maxHorizon <;> rfl

theorem variance_eq (base compare : SeriesKey) (c : VarianceConfig) :
    f.variance base compare c = do
      c.validate
      let b ← f.loadHistory base
      let v ← f.loadHistory compare
      let r ← computeVariance b.observations v.observations c
      return { r with
        baseSeries := some base.fingerprint, compareSeries := some compare.fingerprint } := by
  simp only [variance, varianceBy, run_bind, run_ofExcept, run_loadHistoryBy]
  rfl

def describe : String :=
  "BaselineForecaster \x7b store: " ++ Text.quoted f.store.name ++ ", model: " ++
    Text.quoted f.model.name ++ ", max_horizon: " ++ toString f.maxHorizon ++ " \x7d"

end Forecaster

end LagForecast
