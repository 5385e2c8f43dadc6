import LagForecast.Forecast.Request
import LagForecast.Server.Config
import LagForecast.Server.Http

/-!
What the server answers.
-/

set_option autoImplicit false

namespace LagForecast

inductive BodyFault where
  | contentType
  | tooLong
  | text (fault : WireFault)
  | settings (error : ForecastError)
  deriving DecidableEq

def BodyFault.message : BodyFault → String
  | contentType => "Expected request with \x60Content-Type: application/json\x60"
  | tooLong => "Failed to buffer the request body: length limit exceeded"
  | text fault => WireFault.message fault
  | settings error => error.message

inductive ApiError where
  | forecast (error : ForecastError)
  | body (fault : BodyFault)
  deriving DecidableEq

namespace ApiError

def kind : ApiError → String
  | forecast error => error.kind.name
  | body _ => "InvalidRequest"

def message : ApiError → String
  | forecast error => error.message
  | body fault => "invalid request body: " ++ fault.message

def status : ApiError → Nat
  | body _ => 400
  | forecast error =>
    match error.kind with
    | .invalidHorizon | .invalidKey => 400
    | .seriesNotFound => 404
    | .storeUnavailable => 503
    | .corruptHistory | .invalidParameter | .numericalError => 500

def isRetryable : ApiError → Bool
  | forecast error => error.kind.isRetryable
  | body _ => false

end ApiError

/-- The server: a store, a model, and how far may be forecast. -/
structure AppState where
  backend : Backend
  model : BaselineModel
  maxHorizon : Nat
  /-- The name under which the kind of store is reported. -/
  storeKind : String

structure Check where
  name : String
  fault : Option String

def faultText {ε α : Type} (message : ε → String) : Except ε α → Option String
  | .ok _ => none
  | .error e => some (message e)

namespace AppState

def serviceName : String := "baseline-forecaster"

def version : String := "0.1.0"

def bodyLimit : Nat := 2097152

/-- Open the configured store and put the service together. -/
def ofConfig (files : FileView) (c : ServerConfig) : Attempt ConfigError AppState := do
  let backend ← (c.store.connect files).mapError ConfigError.store
  let f ← (c.forecaster.build (backend.store files)).mapError .model
  return ⟨backend, f.model, f.maxHorizon, c.store.kind⟩

variable (s : AppState)

/-- The forecaster while the files are as given. -/
def forecaster (files : FileView) : Forecaster := ⟨s.backend.store files, s.model, s.maxHorizon⟩

def jsonResponse (status : Nat) (v : Json) : HttpResponse :=
  ⟨status, [("content-type", "application/json")], v.compact⟩

def emptyResponse (status : Nat) (headers : List (String × String)) : HttpResponse :=
  ⟨status, headers, ""⟩

def reply : Except ApiError Json → HttpResponse
  | .ok v => jsonResponse 200 v
  | .error e =>
    let r := jsonResponse e.status (.record [("kind", .text e.kind), ("message", .text e.message)])
    if e.isRetryable then { r with headers := r.headers ++ [("retry-after", "1")] } else r

def liveness : HttpResponse :=
  jsonResponse 200 (.record [("status", .text "ok"), ("service", .text serviceName),
    ("version", .text version)])

def checkStore (f : Forecaster) : Check :=
  ⟨"history_store",
    match SeriesKey.make "readiness-probe" .empty with
    | .ok k => faultText StoreError.message (f.store.observations k)
    | .error e => some e.message⟩

/-- Whether the model can forecast, unless it breaks off. -/
def checkModel (f : Forecaster) : Option Check :=
  let run : Attempt String ForecastVector := do
    let h ← (History.ofList (History.consecutive 1 [1.0, 2.0, 3.0])).mapError HistoryError.message
    let horizon ← (Horizon.bounded 1 Horizon.defaultMax).mapError ForecastError.message
    (f.forecastHistory h horizon).mapError ForecastError.message
  run.result?.map fun r => ⟨"baseline_model", faultText id r⟩

def checkJson (c : Check) : Json :=
  .record ([("name", .text c.name), ("healthy", .bool c.fault.isNone)] ++
    ForecastMetadata.optionalText "message" c.fault)

def report (files : FileView) (checks : List Check) : HttpResponse :=
  let f := s.forecaster files
  let ready := checks.all fun c => c.fault.isNone
  jsonResponse (if ready then 200 else 503)
    (.record [("status", .text (if ready then "ready" else "unavailable")),
      ("version", .text version), ("store", .text s.storeKind), ("model", .text f.model.name),
      ("order", .int f.model.order), ("max_horizon", .int f.maxHorizon),
      ("checks", .array (checks.map checkJson))])

def readiness (files : FileView) : Option HttpResponse :=
  let f := s.forecaster files
  (checkModel f).map fun check => s.report files [checkStore f, check]

/-- Read the body of a request: its content type is looked at first, then its length.  What
follows the value is not looked at. -/
def readBody {α : Type} (decode : Json → Wire α) (r : HttpRequest) : Except ApiError α :=
  if ((r.header? "content-type").any MediaType.isJson) = false then .error (.body .contentType)
  else if bodyLimit < r.body.length then .error (.body .tooLong)
  else (Json.decodeStart decode r.body).mapError fun fault => .body (.text fault)

def forecast (files : FileView) (r : HttpRequest) : Attempt ApiError Json := do
  let request ← readBody ForecastRequest.ofJson r
  let k ← request.series.requestedKey.mapError ApiError.forecast
  let v ← ((s.forecaster files).forecast k request.horizonPeriods).mapError .forecast
  return v.toJson

/-- Answer a request for a comparison.  The settings are checked before the keys, and the key of
the base before the other. -/
def variance (files : FileView) (r : HttpRequest) : Except ApiError Json := do
  let request ← readBody VarianceRequest.ofJson r
  request.config.validate.mapError fun e => .body (.settings e)
  let base ← request.base.requestedKey.mapError .forecast
  let compare ← request.compare.requestedKey.mapError .forecast
  let v ← ((s.forecaster files).variance base compare request.config).mapError .forecast
  return v.toJson

end AppState

inductive Endpoint where
  | liveness
  | readiness
  | forecast
  | variance
  deriving DecidableEq

namespace Endpoint

def ofPath? : String → Option Endpoint
  | "/health" | "/health/live" => some liveness
  | "/health/ready" => some readiness
  | "/api/v1/forecast/auto-baseline" => some forecast
  | "/api/v1/variance" => some variance
  | _ => none

def methods : Endpoint → List String
  | liveness | readiness => ["GET", "HEAD"]
  | forecast | variance => ["POST"]

def allow (e : Endpoint) : String × String := ("allow", ",".intercalate e.methods)

end Endpoint

namespace AppState

variable (s : AppState)

/-- Answer a request at an endpoint.  There is no response where the work for it breaks off. -/
def answer (files : FileView) (r : HttpRequest) : Endpoint → Option HttpResponse
  | .liveness => liveness
  | .readiness => s.readiness files
  | .forecast => (s.forecast files r).result?.map reply
  | .variance => reply (s.variance files r)

/-- The headers that let pages of any origin ask in advance. -/
def preflightHeaders : List (String × String) :=
  [("access-control-allow-methods", "*"), ("access-control-allow-headers", "*")]

/-- Answer a request, leaving aside the header that every response has. -/
def route (files : FileView) (r : HttpRequest) : Option HttpResponse :=
  let endpoint := Endpoint.ofPath? r.path
  if r.method = "OPTIONS" then
    some (emptyResponse 200 (preflightHeaders ++ (endpoint.map Endpoint.allow).toList))
  else
    match endpoint with
    | none => some (emptyResponse 404 [])
    | some e =>
      if r.method ∈ e.methods then
        (s.answer files r e).map fun response =>
          if r.method = "HEAD" then { response with body := "" } else response
      else some (emptyResponse 405 [e.allow])

/-- Answer a request.  Pages of any origin may read the response. -/
def respond (files : FileView) (r : HttpRequest) : Option HttpResponse :=
  (s.route files r).map fun response =>
    { response with headers := ("access-control-allow-origin", "*") :: response.headers }

end AppState

end LagForecast
