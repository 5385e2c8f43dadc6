import LagForecast.Forecast.Lag
import LagForecast.Store.Basic

/-!
Why there is no forecast, and the kinds under which the reasons are reported.
-/

set_option autoImplicit false

namespace LagForecast

/-- A setting that is refused. -/
inductive ParameterFault where
  | zeroOrder
  | weights (fault : WeightFault)
  | noiseThreshold
  | zeroMaxHorizon
  | noStore
  deriving DecidableEq

namespace ParameterFault

def name : ParameterFault → String
  | zeroOrder => "order"
  | weights _ => "weights"
  | noiseThreshold => "noise_threshold"
  | zeroMaxHorizon => "max_horizon"
  | noStore => "store"

def reason : ParameterFault → String
  | zeroOrder => "must be at least 1"
  | weights .none => "must contain at least one weight"
  | weights .nonFinite => "all weights must be finite"
  | weights .zeroTotal => "must not sum to zero"
  | noiseThreshold => "must be a finite, non-negative number"
  | zeroMaxHorizon => "must be at least 1"
  | noStore => "no history store set"

end ParameterFault

inductive NumericalFault where
  | nonFinite (step : Nat)
  | wrongLength (model : String) (returned wanted : Nat)
  deriving DecidableEq

def NumericalFault.message : NumericalFault → String
  | nonFinite step => "non-finite prediction at step " ++ toString step
  | wrongLength model returned wanted =>
    "model '" ++ model ++ "' returned " ++ toString returned ++ " values for a horizon of " ++
      toString wanted

/-- Why there is no forecast. -/
inductive ForecastError where
  | invalidHorizon (requested max : Int)
  | seriesNotFound (series : String)
  | invalidKey (error : KeyError)
  | storeUnavailable (outage : Outage)
  | corruptHistory (series : String) (damage : Damage)
  | invalidParameter (fault : ParameterFault)
  | numerical (fault : NumericalFault)
  deriving DecidableEq

inductive ErrorKind where
  | invalidHorizon
  | seriesNotFound
  | invalidKey
  | storeUnavailable
  | corruptHistory
  | invalidParameter
  | numericalError
  deriving DecidableEq

namespace ErrorKind

def name : ErrorKind → String
  | invalidHorizon => "InvalidHorizon"
  | seriesNotFound => "SeriesNotFound"
  | invalidKey => "InvalidKey"
  | storeUnavailable => "StoreUnavailable"
  | corruptHistory => "CorruptHistory"
  | invalidParameter => "InvalidParameter"
  | numericalError => "NumericalError"

def all : List ErrorKind :=
  [invalidHorizon, seriesNotFound, invalidKey, storeUnavailable, corruptHistory, invalidParameter,
    numericalError]

/-- Whether the request is to blame. -/
def isClientError : ErrorKind → Bool
  | invalidHorizon | seriesNotFound | invalidKey => true
  | _ => false

/-- Whether the same request may succeed later. -/
def isRetryable : ErrorKind → Bool
  | storeUnavailable => true
  | _ => false

def ofJson (v : Json) : Wire ErrorKind := v.toName (all.map fun k => (k.name, k))

end ErrorKind

namespace ForecastError

def message : ForecastError → String
  | invalidHorizon requested max =>
    "Invalid horizon " ++ toString requested ++ ": must be between 1 and " ++ toString max
  | seriesNotFound series => "Series not found: " ++ series
  | invalidKey error => "Invalid series key: " ++ error.message
  | storeUnavailable outage => "History store unavailable: " ++ outage.message
  | corruptHistory series damage => "Corrupt history for " ++ series ++ ": " ++ damage.message
  | invalidParameter fault => "Invalid parameter '" ++ fault.name ++ "': " ++ fault.reason
  | numerical fault => "Numerical error: " ++ fault.message

def kind : ForecastError → ErrorKind
  | invalidHorizon .. => .invalidHorizon
  | seriesNotFound _ => .seriesNotFound
  | invalidKey _ => .invalidKey
  | storeUnavailable _ => .storeUnavailable
  | corruptHistory .. => .corruptHistory
  | invalidParameter _ => .invalidParameter
  | numerical _ => .numericalError

end ForecastError

end LagForecast
