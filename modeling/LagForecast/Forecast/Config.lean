import LagForecast.Forecast.Forecaster

/-!
The settings of a model and of the service, and the service put together step by step.
-/

set_option autoImplicit false

namespace LagForecast

open Json (Field)

structure LagConfig where
  order : Nat := LagModel.defaultOrder
  /-- Weights, the oldest lag first; if given they count and the order does not. -/
  weights : Option (List Float) := none
  clampToHistory : Bool := false

namespace LagConfig

def effectiveOrder (c : LagConfig) : Nat := c.weights.elim c.order List.length

def build (c : LagConfig) : Attempt ForecastError (LagModel Float) := do
  let model : Attempt ParameterFault (LagModel Float) :=
    match c.weights with
    | some weights => .ofExcept ((LagModel.weighted weights).mapError .weights)
    | none => LagModel.movingAverage c.order
  let m ← model.mapError .invalidParameter
  return m.withClamp c.clampToHistory

def toJson (c : LagConfig) : Json :=
  .record [("order", .int c.order),
    ("weights", c.weights.elim .null fun l => .array (l.map .float)),
    ("clamp_to_history", .bool c.clampToHistory)]

def fields : List (Field KeyError LagConfig) := [
  ⟨"order", false, fun v r => do return { r with order := ← v.toNat64 }⟩,
  ⟨"weights", false, fun v r => do
    return { r with weights := ← v.toOption (Json.toList Json.toFloat) }⟩,
  ⟨"clamp_to_history", false, fun v r => do return { r with clampToHistory := ← v.toBool }⟩]

def ofJson (v : Json) : Wire LagConfig := v.toRecord fields {}

end LagConfig

structure ForecasterConfig where
  model : LagConfig := {}
  maxHorizon : Nat := Horizon.defaultMax

namespace ForecasterConfig

/-- The service over a store.  The greatest horizon is checked before the model. -/
def build (c : ForecasterConfig) (store : HistoryStore) : Attempt ForecastError Forecaster := do
  if c.maxHorizon = 0 then .error (.invalidParameter .zeroMaxHorizon)
  let model ← c.model.build
  return ⟨store, model.toBaseline, c.maxHorizon⟩

def toJson (c : ForecasterConfig) : Json :=
  .record [("model", c.model.toJson), ("max_horizon", .int c.maxHorizon)]

def fields : List (Field KeyError ForecasterConfig) := [
  ⟨"model", false, fun v r => do return { r with model := ← LagConfig.ofJson v }⟩,
  ⟨"max_horizon", false, fun v r => do return { r with maxHorizon := ← v.toNat64 }⟩]

def ofJson (v : Json) : Wire ForecasterConfig := v.toRecord fields {}

end ForecasterConfig

/-- A service in the making: the store, if one was given, and the settings so far. -/
structure ForecasterDraft where
  store : Option HistoryStore := none
  config : ForecasterConfig := {}

namespace ForecasterDraft

variable (d : ForecasterDraft)

def withStore (store : HistoryStore) : ForecasterDraft := { d with store := some store }

/-- Ask for the mean of the last `order` values; weights given before are dropped. -/
def withOrder (order : Nat) : ForecasterDraft :=
  { d with config := { d.config with model := { d.config.model with order, weights := none } } }

def withWeights (weights : List Float) : ForecasterDraft :=
  { d with config := { d.config with model := { d.config.model with weights := some weights } } }

def withClamp (clampToHistory : Bool) : ForecasterDraft :=
  { d with config := { d.config with model := { d.config.model with clampToHistory } } }

def withMaxHorizon (maxHorizon : Nat) : ForecasterDraft :=
  { d with config := { d.config with maxHorizon } }

def withConfig (config : ForecasterConfig) : ForecasterDraft := { d with config }

def build : Attempt ForecastError Forecaster :=
  match d.store with
  | none => .error (.invalidParameter .noStore)
  | some store => d.config.build store

end ForecasterDraft

end LagForecast
