import LagForecast.Forecast.Config
import LagForecast.Number.Real
import LagForecast.Number.Whole
import LagForecast.Server.Address
import LagForecast.Store.Config
import LagForecast.Text.Basic

/-!
The settings of the server, looked up by name.  A variable that is blank counts as not set.
-/

set_option autoImplicit false

namespace LagForecast

inductive ConfigError where
  | number (name : String) (fault : WholeFault)
  | zero (name : String)
  | weight (text : String) (fault : RealFault)
  | truth (name text : String)
  | unknownStore (name : String)
  | address
  | missingHistoryFile
  | model (error : ForecastError)
  | store (error : StoreError)
  deriving DecidableEq

namespace ConfigError

def invalid (name reason : String) : String := name ++ " is not valid: " ++ reason

def message : ConfigError → String
  | number name fault => invalid name fault.message
  | zero name => invalid name "must be at least 1"
  | weight text fault => invalid "BASELINE_WEIGHTS" ("'" ++ text ++ "': " ++ fault.message)
  | truth name text => invalid name ("'" ++ text ++ "' is not a boolean")
  | unknownStore name =>
    invalid "HISTORY_STORE" ("unknown store '" ++ name ++ "', expected memory or json_file")
  | address => invalid "HOST" "invalid socket address syntax"
  | missingHistoryFile => "HISTORY_FILE is required when HISTORY_STORE=json_file"
  | model error => "model configuration rejected: " ++ error.message
  | store error => "history store could not be opened: " ++ error.message

end ConfigError

structure ServerConfig where
  host : String := "0.0.0.0"
  port : Nat := 8081
  forecaster : ForecasterConfig := {}
  store : StoreConfig := default

namespace ServerConfig

def readPositive (name raw : String) : Except ConfigError Nat :=
  match readNat 0xFFFFFFFFFFFFFFFF (Text.trim raw) with
  | .ok 0 => .error (.zero name)
  | .ok n => .ok n
  | .error fault => .error (.number name fault)

def readTruth (name raw : String) : Except ConfigError Bool :=
  let text := Text.lowered (Text.trim raw)
  if text ∈ ["1", "true", "yes", "on"] then .ok true
  else if text ∈ ["0", "false", "no", "off"] then .ok false
  else .error (.truth name text)

def readWeights (raw : String) : Except ConfigError (List Float) :=
  (Text.parts ',' raw).mapM fun part =>
    let text := Text.trim (String.ofList part)
    (readFloat text).mapError (.weight text)

def orDefault {α : Type} (raw : Option String) (start : α)
    (read : String → Except ConfigError α) : Except ConfigError α :=
  match raw with
  | some raw => read raw
  | none => .ok start

def readStore (file kind : Option String) : Except ConfigError StoreConfig :=
  match kind.map Text.trim with
  | none | some "memory" => .ok (.memory file)
  | some "json_file" =>
    match file with
    | some path => .ok (.jsonFile path)
    | none => .error .missingHistoryFile
  | some other => .error (.unknownStore other)

/-- The settings that a look-up gives.  Variables are read one after the other, and the model is
tried last. -/
def ofLookup (lookup : String → Option String) : Attempt ConfigError ServerConfig := do
  let var (name : String) : Option String := (lookup name).filter fun v => ¬ Text.Blank v
  let start : ServerConfig := {}
  let host := (var "HOST").getD start.host
  let port ← orDefault (var "PORT") start.port fun raw =>
    (readNat 0xFFFF (Text.trim raw)).mapError (.number "PORT")
  let order ← orDefault (var "BASELINE_ORDER") start.forecaster.model.order
    (readPositive "BASELINE_ORDER")
  let weights ← orDefault (var "BASELINE_WEIGHTS") none fun raw => (readWeights raw).map some
  let clampToHistory ← orDefault (var "BASELINE_CLAMP") false (readTruth "BASELINE_CLAMP")
  let maxHorizon ← orDefault (var "BASELINE_MAX_HORIZON") start.forecaster.maxHorizon
    (readPositive "BASELINE_MAX_HORIZON")
  let store ← readStore (var "HISTORY_FILE") (var "HISTORY_STORE")
  let model : LagConfig := { order, weights, clampToHistory }
  let _ ← model.build.mapError .model
  return { host, port, forecaster := { model, maxHorizon }, store }

def address (c : ServerConfig) : Except ConfigError SocketAddress :=
  match SocketAddress.ofHost? c.host c.port with
  | some a => .ok a
  | none => .error .address

end ServerConfig

end LagForecast
