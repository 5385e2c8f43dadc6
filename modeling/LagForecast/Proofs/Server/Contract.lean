import LagForecast.Proofs.Forecast.Service
import LagForecast.Proofs.Server.Replies

/-!
# What the server answers

A request may be at fault in several ways at once.  The body is looked at first, then the settings
of a comparison, then the keys, the base before the other, and only then the service is asked, which
reads the base before the other; the first fault is the one that is reported.
-/

set_option autoImplicit false

namespace LagForecast

/-- What a body that is posted for a forecast comes to.  A case rules out those before it. -/
inductive ForecastAnswer (f : Forecaster) (body : List UInt8) : Except ApiError Json → Prop
  | unread {fault : WireFault} (hq : Json.decodeStart ForecastRequest.ofJson body = .error fault) :
      ForecastAnswer f body (.error (.body (.text fault)))
  | keyRefused {q : ForecastRequest} {e : KeyError}
      (hq : Json.decodeStart ForecastRequest.ofJson body = .ok q) (hk : q.series.key = .error e) :
      ForecastAnswer f body (.error (.forecast (.invalidKey e)))
  | refused {q : ForecastRequest} {k : SeriesKey} {e : ForecastError}
      (hq : Json.decodeStart ForecastRequest.ofJson body = .ok q) (hk : q.series.key = .ok k)
      (hf : f.forecast k q.horizonPeriods = .error e) (he : e.kind ∈ ErrorKind.forecasting) :
      ForecastAnswer f body (.error (.forecast e))
  | forecast {q : ForecastRequest} {k : SeriesKey} {v : ForecastVector}
      (hq : Json.decodeStart ForecastRequest.ofJson body = .ok q) (hk : q.series.key = .ok k)
      (hf : f.forecast k q.horizonPeriods = .ok v)
      (hlength : (v.values.length : Int) = q.horizonPeriods)
      (hvalues : ∀ x ∈ v.values, x.isFinite = true) : ForecastAnswer f body (.ok v.toJson)

/-- A body that is posted for a forecast of which nothing comes: memory cannot hold as many
predictions. -/
def BreaksOff (f : Forecaster) (body : List UInt8) : Prop :=
  ∃ q k, Json.decodeStart ForecastRequest.ofJson body = .ok q ∧ q.series.key = .ok k ∧
    (0 < q.horizonPeriods ∧ q.horizonPeriods ≤ f.maxHorizon) ∧ 2 ^ 60 ≤ q.horizonPeriods ∧
    ∃ h : History, f.store.observations k = .ok h.observations ∧
      h.lastPeriod + q.horizonPeriods ≤ lastPossiblePeriod

inductive VarianceAnswer (f : Forecaster) (body : List UInt8) : Except ApiError Json → Prop
  | unread {fault : WireFault} (hq : Json.decodeStart VarianceRequest.ofJson body = .error fault) :
      VarianceAnswer f body (.error (.body (.text fault)))
  | thresholdRefused {q : VarianceRequest}
      (hq : Json.decodeStart VarianceRequest.ofJson body = .ok q)
      (ht : VarianceConfig.validThreshold q.config.noiseThreshold = false) :
      VarianceAnswer f body (.error (.body (.settings (.invalidParameter .noiseThreshold))))
  | baseKeyRefused {q : VarianceRequest} {e : KeyError}
      (hq : Json.decodeStart VarianceRequest.ofJson body = .ok q)
      (ht : VarianceConfig.validThreshold q.config.noiseThreshold = true)
      (hb : q.base.key = .error e) : VarianceAnswer f body (.error (.forecast (.invalidKey e)))
  | compareKeyRefused {q : VarianceRequest} {b : SeriesKey} {e : KeyError}
      (hq : Json.decodeStart VarianceRequest.ofJson body = .ok q)
      (ht : VarianceConfig.validThreshold q.config.noiseThreshold = true)
      (hb : q.base.key = .ok b) (hc : q.compare.key = .error e) :
      VarianceAnswer f body (.error (.forecast (.invalidKey e)))
  | baseUnread {q : VarianceRequest} {b c : SeriesKey} {e : ForecastError}
      (hq : Json.decodeStart VarianceRequest.ofJson body = .ok q)
      (ht : VarianceConfig.validThreshold q.config.noiseThreshold = true)
      (hb : q.base.key = .ok b) (hc : q.compare.key = .ok c)
      (hload : f.loadHistory b = .error e) (he : e.kind ∈ ErrorKind.reading) :
      VarianceAnswer f body (.error (.forecast e))
  | compareUnread {q : VarianceRequest} {b c : SeriesKey} {h : History} {e : ForecastError}
      (hq : Json.decodeStart VarianceRequest.ofJson body = .ok q)
      (ht : VarianceConfig.validThreshold q.config.noiseThreshold = true)
      (hb : q.base.key = .ok b) (hc : q.compare.key = .ok c)
      (hload : f.loadHistory b = .ok h) (hload' : f.loadHistory c = .error e)
      (he : e.kind ∈ ErrorKind.reading) : VarianceAnswer f body (.error (.forecast e))
  | report {q : VarianceRequest} {b c : SeriesKey} {h h' : History} {report : VarianceReport}
      (hq : Json.decodeStart VarianceRequest.ofJson body = .ok q)
      (ht : VarianceConfig.validThreshold q.config.noiseThreshold = true)
      (hb : q.base.key = .ok b) (hc : q.compare.key = .ok c)
      (hload : f.loadHistory b = .ok h) (hload' : f.loadHistory c = .ok h')
      (hv : f.variance b c q.config = .ok report) : VarianceAnswer f body (.ok report.toJson)

section Blame

variable {f : Forecaster} {body : List UInt8} {x : Except ApiError Json}

private theorem ForecastAnswer.body_iff (h : ForecastAnswer f body x) :
    (∃ fault, x = .error (.body fault)) ↔
      ∃ fault, Json.decodeStart ForecastRequest.ofJson body = .error fault := by
  cases h with
  | unread hq => simp [hq]
  | keyRefused hq | refused hq | forecast hq => simp [hq]

private theorem ForecastAnswer.key_iff (h : ForecastAnswer f body x) :
    (∃ e, x = .error (.forecast (.invalidKey e))) ↔
      ∃ q e, Json.decodeStart ForecastRequest.ofJson body = .ok q ∧ q.series.key = .error e := by
  cases h with
  | unread hq => simp [hq]
  | keyRefused hq hk => simp [hq, hk]
  | refused hq hk hf he => simp [hq, hk, ForecastError.ne_invalidKey he]
  | forecast hq hk => simp [hq, hk]

private theorem VarianceAnswer.body_iff (h : VarianceAnswer f body x) :
    (∃ fault, x = .error (.body fault)) ↔
      (∃ fault, Json.decodeStart VarianceRequest.ofJson body = .error fault) ∨
        ∃ q, Json.decodeStart VarianceRequest.ofJson body = .ok q ∧
          VarianceConfig.validThreshold q.config.noiseThreshold = false := by
  cases h with
  | unread hq => simp [hq]
  | thresholdRefused hq ht => simp [hq, ht]
  | baseKeyRefused hq ht | compareKeyRefused hq ht | baseUnread hq ht | compareUnread hq ht
  | report hq ht => simp [hq, ht]

private theorem VarianceAnswer.key_iff (h : VarianceAnswer f body x) :
    (∃ e, x = .error (.forecast (.invalidKey e))) ↔
      ∃ q, Json.decodeStart VarianceRequest.ofJson body = .ok q ∧
        VarianceConfig.validThreshold q.config.noiseThreshold = true ∧
          ((∃ e, q.base.key = .error e) ∨ ∃ e, q.compare.key = .error e) := by
  cases h with
  | unread hq => simp [hq]
  | thresholdRefused hq ht => simp [hq, ht]
  | baseKeyRefused hq ht hb => simp [hq, ht, hb]
  | compareKeyRefused hq ht hb hc => simp [hq, ht, hb, hc]
  | baseUnread hq ht hb hc hload he | compareUnread hq ht hb hc hload hload' he =>
    have hne := ForecastError.ne_invalidKey (ErrorKind.forecasting_of_reading he)
    simp [hq, ht, hb, hc, hne]
  | report hq ht hb hc => simp [hq, ht, hb, hc]

end Blame

section Answers

variable {store : HistoryStore} {model : LagModel Float} {cap : Nat}

private theorem breaksOff_or_answered (body : List UInt8) :
    BreaksOff ⟨store, model.toBaseline, cap⟩ body ∨
      ∃ x, ForecastAnswer ⟨store, model.toBaseline, cap⟩ body x := by
  cases hq : Json.decodeStart ForecastRequest.ofJson body with
  | error fault => exact Or.inr ⟨_, .unread hq⟩
  | ok q =>
    cases hk : q.series.key with
    | error e => exact Or.inr ⟨_, .keyRefused hq hk⟩
    | ok k =>
      cases hf : (Forecaster.mk store model.toBaseline cap).forecast k q.horizonPeriods with
      | stopped => exact Or.inl ⟨q, k, hq, hk, forecast_eq_stopped_iff.1 hf⟩
      | error e => exact Or.inr ⟨_, .refused hq hk hf (Forecaster.kind_of_forecast hf)⟩
      | ok v =>
        obtain ⟨hlength, hvalues⟩ := Forecaster.values_of_forecast hf
        exact Or.inr ⟨_, .forecast hq hk hf hlength hvalues⟩

private theorem exists_varianceAnswer (f : Forecaster) (body : List UInt8) :
    ∃ x, VarianceAnswer f body x := by
  cases hq : Json.decodeStart VarianceRequest.ofJson body with
  | error fault => exact ⟨_, .unread hq⟩
  | ok q =>
    cases ht : VarianceConfig.validThreshold q.config.noiseThreshold with
    | false => exact ⟨_, .thresholdRefused hq ht⟩
    | true =>
      cases hb : q.base.key with
      | error e => exact ⟨_, .baseKeyRefused hq ht hb⟩
      | ok b =>
        cases hc : q.compare.key with
        | error e => exact ⟨_, .compareKeyRefused hq ht hb hc⟩
        | ok c =>
          cases hload : f.loadHistory b with
          | error e =>
            exact ⟨_, .baseUnread hq ht hb hc hload (Forecaster.kind_of_loadHistory hload)⟩
          | ok h =>
            cases hload' : f.loadHistory c with
            | error e => exact ⟨_, .compareUnread hq ht hb hc hload hload'
                (Forecaster.kind_of_loadHistory hload')⟩
            | ok h' =>
              have hvalid := Forecaster.validate_of_valid ht
              obtain ⟨report, hv⟩ := Forecaster.exists_variance hvalid hload hload'
              exact ⟨_, .report hq ht hb hc hload hload' hv⟩

end Answers

private theorem ErrorKind.exists_status {kind : ErrorKind} (h : kind ∈ forecasting) :
    ∃ status, kind.Status status := by
  cases kind with
  | invalidHorizon => exact ⟨400, .invalidHorizon⟩
  | seriesNotFound => exact ⟨404, .seriesNotFound⟩
  | storeUnavailable => exact ⟨503, .storeUnavailable⟩
  | corruptHistory => exact ⟨500, .corruptHistory⟩
  | numericalError => exact ⟨500, .numericalError⟩
  | invalidKey => exact absurd h (by decide)
  | invalidParameter => exact absurd h (by decide)

namespace AppState

variable {s : AppState} {model : LagModel Float} {files : FileView} {r : HttpRequest}

private theorem readBody_eq {α : Type}
    (hjson : (r.header? "content-type").any MediaType.isJson = true)
    (hlength : r.body.length ≤ bodyLimit) (decode : Json → Wire α) :
    readBody decode r =
      (Json.decodeStart decode r.body).mapError fun fault => .body (.text fault) := by
  rw [readBody, if_neg (by rw [hjson]; exact Bool.true_eq_false.mp), if_neg (by omega)]

private theorem requestedKey_of_error {t : SeriesSelector} {e : KeyError} (h : t.key = .error e) :
    t.requestedKey.mapError ApiError.forecast = .error (.forecast (.invalidKey e)) := by
  rw [SeriesSelector.requestedKey, h]
  rfl

private theorem requestedKey_of_ok {t : SeriesSelector} {k : SeriesKey} (h : t.key = .ok k) :
    t.requestedKey.mapError ApiError.forecast = .ok k := by
  rw [SeriesSelector.requestedKey, h]
  rfl

private theorem forecast_of_read (hjson : (r.header? "content-type").any MediaType.isJson = true)
    (hlength : r.body.length ≤ bodyLimit) {q : ForecastRequest}
    (hq : Json.decodeStart ForecastRequest.ofJson r.body = .ok q) :
    s.forecast files r = do
      let k ← q.series.requestedKey.mapError ApiError.forecast
      let v ← ((s.forecaster files).forecast k q.horizonPeriods).mapError .forecast
      return v.toJson := by
  rw [forecast, readBody_eq hjson hlength, hq]
  rfl

private theorem variance_of_read (hjson : (r.header? "content-type").any MediaType.isJson = true)
    (hlength : r.body.length ≤ bodyLimit) {q : VarianceRequest}
    (hq : Json.decodeStart VarianceRequest.ofJson r.body = .ok q) :
    s.variance files r = do
      q.config.validate.mapError fun e => .body (.settings e)
      let base ← q.base.requestedKey.mapError .forecast
      let compare ← q.compare.requestedKey.mapError .forecast
      let v ← ((s.forecaster files).variance base compare q.config).mapError .forecast
      return v.toJson := by
  rw [variance, readBody_eq hjson hlength, hq]
  rfl

private theorem variance_of_valid (hjson : (r.header? "content-type").any MediaType.isJson = true)
    (hlength : r.body.length ≤ bodyLimit) {q : VarianceRequest}
    (hq : Json.decodeStart VarianceRequest.ofJson r.body = .ok q)
    (ht : VarianceConfig.validThreshold q.config.noiseThreshold = true) :
    s.variance files r = do
      let base ← q.base.requestedKey.mapError .forecast
      let compare ← q.compare.requestedKey.mapError .forecast
      let v ← ((s.forecaster files).variance base compare q.config).mapError .forecast
      return v.toJson := by
  rw [variance_of_read hjson hlength hq, Forecaster.validate_of_valid ht]
  rfl

private theorem variance_of_keys (hjson : (r.header? "content-type").any MediaType.isJson = true)
    (hlength : r.body.length ≤ bodyLimit) {q : VarianceRequest}
    (hq : Json.decodeStart VarianceRequest.ofJson r.body = .ok q)
    (ht : VarianceConfig.validThreshold q.config.noiseThreshold = true) {b c : SeriesKey}
    (hb : q.base.key = .ok b) (hc : q.compare.key = .ok c) :
    s.variance files r = do
      let v ← ((s.forecaster files).variance b c q.config).mapError .forecast
      return v.toJson := by
  rw [variance_of_valid hjson hlength hq ht, requestedKey_of_ok hb, requestedKey_of_ok hc]
  rfl

private theorem forecast_of_answer (hjson : (r.header? "content-type").any MediaType.isJson = true)
    (hlength : r.body.length ≤ bodyLimit) {x : Except ApiError Json}
    (h : ForecastAnswer (s.forecaster files) r.body x) : s.forecast files r = .ofExcept x := by
  cases h with
  | unread hq =>
    rw [forecast, readBody_eq hjson hlength, hq]
    rfl
  | keyRefused hq hk =>
    rw [forecast_of_read hjson hlength hq, requestedKey_of_error hk]
    rfl
  | refused hq hk hf =>
    rw [forecast_of_read hjson hlength hq, requestedKey_of_ok hk]
    change Attempt.mapError _ _ >>= _ = _
    rw [hf]
    rfl
  | forecast hq hk hf =>
    rw [forecast_of_read hjson hlength hq, requestedKey_of_ok hk]
    change Attempt.mapError _ _ >>= _ = _
    rw [hf]
    rfl

private theorem forecast_of_breaksOff
    (hjson : (r.header? "content-type").any MediaType.isJson = true)
    (hlength : r.body.length ≤ bodyLimit)
    (h : BreaksOff ⟨s.backend.store files, model.toBaseline, s.maxHorizon⟩ r.body) :
    forecast { s with model := model.toBaseline } files r = .stopped := by
  obtain ⟨q, k, hq, hk, hstopped⟩ := h
  have hf : (Forecaster.mk (s.backend.store files) model.toBaseline s.maxHorizon).forecast k
      q.horizonPeriods = .stopped := forecast_eq_stopped_iff.2 hstopped
  rw [forecast_of_read hjson hlength hq, requestedKey_of_ok hk]
  change Attempt.mapError _ _ >>= _ = _
  rw [forecaster, hf]
  rfl

private theorem variance_of_answer (hjson : (r.header? "content-type").any MediaType.isJson = true)
    (hlength : r.body.length ≤ bodyLimit) {x : Except ApiError Json}
    (h : VarianceAnswer (s.forecaster files) r.body x) : s.variance files r = x := by
  cases h with
  | unread hq =>
    rw [variance, readBody_eq hjson hlength, hq]
    rfl
  | thresholdRefused hq ht =>
    rw [variance_of_read hjson hlength hq, Forecaster.validate_of_invalid ht]
    rfl
  | baseKeyRefused hq ht hb =>
    rw [variance_of_valid hjson hlength hq ht, requestedKey_of_error hb]
    rfl
  | compareKeyRefused hq ht hb hc =>
    rw [variance_of_valid hjson hlength hq ht, requestedKey_of_ok hb, requestedKey_of_error hc]
    rfl
  | @baseUnread q b c e hq ht hb hc hload =>
    have hvalid := Forecaster.validate_of_valid ht
    rw [variance_of_keys hjson hlength hq ht hb hc,
      Forecaster.variance_of_base_error hvalid hload c]
    rfl
  | compareUnread hq ht hb hc hload hload' =>
    have hvalid := Forecaster.validate_of_valid ht
    rw [variance_of_keys hjson hlength hq ht hb hc,
      Forecaster.variance_of_compare_error hvalid hload hload']
    rfl
  | report hq ht hb hc hload hload' hv =>
    rw [variance_of_keys hjson hlength hq ht hb hc, hv]
    rfl

/-- What a posted request is answered with, apart from the header that every response has. -/
theorem respond_posted (hpost : r.method = "POST") {e : Endpoint}
    (hpath : Endpoint.ofPath? r.path = some e) (he : "POST" ∈ e.methods) :
    s.respond files r = (s.answer files r e).map fun response =>
      { response with headers := ("access-control-allow-origin", "*") :: response.headers } := by
  have hroute : s.route files r = s.answer files r e := by
    rw [route, hpath, hpost, if_neg (by decide)]
    change (if "POST" ∈ e.methods then (s.answer files r e).map fun response =>
      if "POST" = "HEAD" then { response with body := "" } else response else _) = _
    rw [if_pos he]
    cases s.answer files r e <;> rfl
  rw [respond, hroute]

/-- A request that is posted to an endpoint as JSON, with a body that is short enough to be read. -/
structure Posted (r : HttpRequest) (e : Endpoint) : Prop where
  method : r.method = "POST"
  path : Endpoint.ofPath? r.path = some e
  json : (r.header? "content-type").any MediaType.isJson = true
  length : r.body.length ≤ bodyLimit

private theorem gives_forecast (hr : Posted r .forecast) {x : Except ApiError Json}
    (h : ForecastAnswer (s.forecaster files) r.body x) :
    ∃ response, s.respond files r = some response ∧ Gives response x := by
  have hresult : (Attempt.ofExcept x).result? = some x := by cases x <;> rfl
  rw [respond_posted hr.method hr.path (by decide), answer,
    forecast_of_answer hr.json hr.length h, hresult]
  refine ⟨_, rfl, Gives.of_origin (gives_reply ?_ ?_)⟩
  · rintro v rfl
    cases h with
    | forecast => exact printable_vector _
  · rintro e rfl
    cases h with
    | unread => exact ⟨400, .body _⟩
    | keyRefused => exact ⟨400, .forecast .invalidKey⟩
    | refused hq hk hf he =>
      obtain ⟨status, hstatus⟩ := ErrorKind.exists_status he
      exact ⟨status, .forecast hstatus⟩

/-- A forecast that breaks off has no response, and every other has one. -/
theorem respond_eq_none_iff (hr : Posted r .forecast) :
    respond { s with model := model.toBaseline } files r = none ↔
      BreaksOff ⟨s.backend.store files, model.toBaseline, s.maxHorizon⟩ r.body := by
  constructor
  · intro hnone
    refine (breaksOff_or_answered r.body).resolve_right fun ⟨x, hx⟩ => ?_
    obtain ⟨response, hresponse, -⟩ := gives_forecast (s := { s with model := model.toBaseline })
      hr hx
    cases hnone.symm.trans hresponse
  · intro hbreaks
    rw [respond_posted hr.method hr.path (by decide), answer,
      forecast_of_breaksOff hr.json hr.length hbreaks]
    rfl

private theorem gives_variance (hr : Posted r .variance) {x : Except ApiError Json}
    (h : VarianceAnswer (s.forecaster files) r.body x) :
    ∃ response, s.respond files r = some response ∧ Gives response x := by
  have hreading : ∀ {e : ForecastError}, e.kind ∈ ErrorKind.reading →
      ∃ status, (ApiError.forecast e).Status status := by
    intro e he
    obtain ⟨status, hstatus⟩ := ErrorKind.exists_status (ErrorKind.forecasting_of_reading he)
    exact ⟨status, .forecast hstatus⟩
  rw [respond_posted hr.method hr.path (by decide), answer, variance_of_answer hr.json hr.length h]
  refine ⟨_, rfl, Gives.of_origin (gives_reply ?_ ?_)⟩
  · rintro v rfl
    cases h with
    | report => exact printable_report _
  · rintro e rfl
    cases h with
    | unread => exact ⟨400, .body _⟩
    | thresholdRefused => exact ⟨400, .body _⟩
    | baseKeyRefused => exact ⟨400, .forecast .invalidKey⟩
    | compareKeyRefused => exact ⟨400, .forecast .invalidKey⟩
    | baseUnread hq ht hb hc hload he => exact hreading he
    | compareUnread hq ht hb hc hload hload' he => exact hreading he

end AppState

def ListsForecast (text : String) (numbers : List Numeral) : Prop :=
  ∃ entries : List (String × Json), Holds text (.record entries) ∧
    entries.lookup "forecast" = some (.array (numbers.map .number))

private theorem exists_listsForecast {text : String} {v : ForecastVector} (h : Holds text v.toJson)
    (hvalues : ∀ x ∈ v.values, x.isFinite = true) :
    ∃ numbers, ListsForecast text numbers ∧ numbers.map Numeral.toFloat = v.values := by
  refine ⟨v.values.map Numeral.ofFloat, ⟨_, h, ?_⟩, ?_⟩
  · have hnumbers : v.values.map Json.float = (v.values.map Numeral.ofFloat).map .number := by
      rw [List.map_map]
      apply List.map_congr_left
      intro x hx
      exact if_pos (hvalues x hx)
    rw [← hnumbers]
    rfl
  · rw [List.map_map]
    conv_rhs => rw [← List.map_id v.values]
    apply List.map_congr_left
    intro x hx
    exact Numeral.toFloat_ofFloat (hvalues x hx)

/-- What holds of every response that gives a result or a fault: when a client is told to try again,
and what is said when there is no result. -/
structure Regular (response : HttpResponse) : Prop where
  retry : retryAfter response = if response.status = 503 then some "1" else none
  refusal : response.status ≠ 200 → ∃ kind message,
    Refuses response response.status kind message ∧ kind ≠ "InvalidParameter"

private theorem gives_of_some {given : Option HttpResponse} {response : HttpResponse}
    {x : Except ApiError Json} (hresponse : given = some response)
    (h : ∃ answer, given = some answer ∧ Gives answer x) : Gives response x := by
  obtain ⟨answer, hanswer, hgives⟩ := h
  exact Option.some.inj (hanswer.symm.trans hresponse) ▸ hgives

private theorem Gives.regular {response : HttpResponse} {x : Except ApiError Json}
    (h : Gives response x) : Regular response := ⟨h.retryAfter_eq, h.exists_refuses⟩

open AppState (Posted) in
/-- A server with a lag model and any store answers every request that is posted as JSON with the
first fault that it has, or else with the result, and each under the status of its kind.  A body is
read up to the end of its value; what follows the value is no fault.  Only a forecast for more
periods than memory can hold has no answer. -/
theorem posted_requests_answered (backend : Backend) (model : LagModel Float) (cap : Nat)
    (storeKind : String) (files : FileView) (r : HttpRequest) :
    let s : AppState := ⟨backend, model.toBaseline, cap, storeKind⟩
    let f := s.forecaster files
    (Posted r .forecast →
      (s.respond files r = none ↔ BreaksOff f r.body) ∧
      ∀ response, s.respond files r = some response →
        ((∃ x, ForecastAnswer f r.body x) ∧ ∀ x, ForecastAnswer f r.body x → Gives response x) ∧
        ((∃ message, Refuses response 400 "InvalidRequest" message) ↔
          ∃ fault, Json.decodeStart ForecastRequest.ofJson r.body = .error fault) ∧
        ((∃ message, Refuses response 400 "InvalidKey" message) ↔
          ∃ q e, Json.decodeStart ForecastRequest.ofJson r.body = .ok q ∧
            q.series.key = .error e) ∧
        (response.status = 200 → ∃ q k v numbers,
          Json.decodeStart ForecastRequest.ofJson r.body = .ok q ∧ q.series.key = .ok k ∧
            f.forecast k q.horizonPeriods = .ok v ∧ ListsForecast response.body numbers ∧
              (numbers.length : Int) = q.horizonPeriods ∧
                numbers.map Numeral.toFloat = v.values) ∧
        Regular response) ∧
    (Posted r .variance → ∃ response, s.respond files r = some response ∧
      ((∃ x, VarianceAnswer f r.body x) ∧ ∀ x, VarianceAnswer f r.body x → Gives response x) ∧
      ((∃ message, Refuses response 400 "InvalidRequest" message) ↔
        (∃ fault, Json.decodeStart VarianceRequest.ofJson r.body = .error fault) ∨
          ∃ q, Json.decodeStart VarianceRequest.ofJson r.body = .ok q ∧
            VarianceConfig.validThreshold q.config.noiseThreshold = false) ∧
      ((∃ message, Refuses response 400 "InvalidKey" message) ↔
        ∃ q, Json.decodeStart VarianceRequest.ofJson r.body = .ok q ∧
          VarianceConfig.validThreshold q.config.noiseThreshold = true ∧
            ((∃ e, q.base.key = .error e) ∨ ∃ e, q.compare.key = .error e)) ∧
      Regular response) := by
  intro s f
  constructor
  · intro hr
    have hnone : s.respond files r = none ↔ BreaksOff f r.body :=
      AppState.respond_eq_none_iff (s := s) hr
    refine ⟨hnone, fun response hresponse => ?_⟩
    have hgives : ∀ x, ForecastAnswer f r.body x → Gives response x := fun x hx =>
      gives_of_some hresponse (AppState.gives_forecast hr hx)
    obtain ⟨x, hx⟩ : ∃ x, ForecastAnswer f r.body x := by
      refine (breaksOff_or_answered r.body).resolve_left fun hbreaks => ?_
      cases (hnone.2 hbreaks).symm.trans hresponse
    have hgiven := hgives x hx
    refine ⟨⟨⟨x, hx⟩, hgives⟩, hgiven.refuses_body_iff.trans hx.body_iff,
      hgiven.refuses_key_iff.trans hx.key_iff, fun hstatus => ?_, hgiven.regular⟩
    obtain ⟨w, rfl, hbody⟩ := hgiven.exists_result hstatus
    cases hx with
    | @forecast q k v hq hk hf hlength hvalues =>
      obtain ⟨numbers, hlists, hnumbers⟩ := exists_listsForecast hbody hvalues
      have hcount : numbers.length = v.values.length := by rw [← hnumbers, List.length_map]
      exact ⟨q, k, v, numbers, hq, hk, hf, hlists, hcount ▸ hlength, hnumbers⟩
  · intro hr
    obtain ⟨x, hx⟩ := exists_varianceAnswer f r.body
    obtain ⟨response, hresponse, hgiven⟩ := AppState.gives_variance hr hx
    have hgives : ∀ x, VarianceAnswer f r.body x → Gives response x := fun x hx =>
      gives_of_some hresponse (AppState.gives_variance hr hx)
    exact ⟨response, hresponse, ⟨⟨x, hx⟩, hgives⟩, hgiven.refuses_body_iff.trans hx.body_iff,
      hgiven.refuses_key_iff.trans hx.key_iff, hgiven.regular⟩

open AppState (Posted) in
/-- A forecast that is asked for while the store is down. -/
theorem posted_requests_answered_while_down :
    let r : HttpRequest := ⟨"POST", "/api/v1/forecast/auto-baseline",
      [("content-type", "application/json")],
      Text.bytes "\x7b\"scoping_id\":\"acme\",\"horizon_periods\":2\x7d"⟩
    let s : AppState :=
      ⟨.other (.down "connection refused"), LagModel.standard.toBaseline, 12, "down"⟩
    Posted r .forecast ∧ ∃ response, s.respond (fun _ => .error .missing) r = some response ∧
      Refuses response 503 "StoreUnavailable" "History store unavailable: connection refused" ∧
      retryAfter response = some "1" := by
  intro r s
  have hr : Posted r .forecast :=
    ⟨rfl, by decide +kernel, by decide +kernel, by decide +kernel⟩
  obtain ⟨hnone, hanswered⟩ := (posted_requests_answered
    (.other (.down "connection refused")) LagModel.standard 12 "down" (fun _ => .error .missing)
    r).1 hr
  have hread : (Json.decodeStart ForecastRequest.ofJson r.body).toOption.map
      (fun q => (q.series, q.horizonPeriods)) = some (⟨"acme", .empty⟩, 2) := by
    decide +kernel
  have hk : SeriesSelector.key ⟨"acme", .empty⟩ = .ok ⟨"acme", .empty, by decide⟩ := rfl
  have hf : (s.forecaster fun _ => .error .missing).forecast ⟨"acme", .empty, by decide⟩ 2 =
      .error (.storeUnavailable (.stated "connection refused")) := rfl
  obtain ⟨⟨series, periods⟩, hq, hfields⟩ := Option.map_eq_some_iff.1 hread
  cases hfields
  cases hresponse : s.respond (fun _ => .error .missing) r with
  | none =>
    obtain ⟨q, k, -, -, -, -, h, hread, -⟩ := hnone.1 hresponse
    cases hread
  | some response =>
    obtain ⟨⟨-, hgives⟩, -, -, -, hregular⟩ := hanswered response hresponse
    have hrefuses := (hgives _ (.refused (toOption_eq_some.1 hq) hk hf (by decide))).refuses
      (.forecast .storeUnavailable)
    refine ⟨hr, response, rfl, hrefuses, ?_⟩
    rw [hregular.retry, hrefuses.status_eq]
    rfl

open AppState (Posted) in
/-- A forecast that is asked for more periods than memory can hold. -/
theorem not_every_posted_request_answered :
    ¬ ∀ (backend : Backend) (model : LagModel Float) (cap : Nat) (storeKind : String)
      (files : FileView) (r : HttpRequest), Posted r .forecast →
      ∃ response, (AppState.mk backend model.toBaseline cap storeKind).respond files r =
        some response := by
  intro hall
  let r : HttpRequest := ⟨"POST", "/api/v1/forecast/auto-baseline",
    [("content-type", "application/json")],
    Text.bytes "\x7b\"scoping_id\":\"acme\",\"horizon_periods\":1152921504606846976\x7d"⟩
  let model : LagModel Float := ⟨[1e300], false, by decide +kernel⟩
  let h : History := ⟨[⟨1, 1e300⟩], by decide, by decide +kernel, by decide⟩
  let s : AppState := ⟨.other (.raw h.observations), model.toBaseline, 2 ^ 64 - 1, "raw"⟩
  have hr : Posted r .forecast :=
    ⟨rfl, by decide +kernel, by decide +kernel, by decide +kernel⟩
  have hread : (Json.decodeStart ForecastRequest.ofJson r.body).toOption.map
      (fun q => (q.series, q.horizonPeriods)) = some (⟨"acme", .empty⟩, 2 ^ 60) := by
    decide +kernel
  have hk : SeriesSelector.key ⟨"acme", .empty⟩ = .ok ⟨"acme", .empty, by decide⟩ := rfl
  have hcap : (0 : Int) < 2 ^ 60 ∧ (2 ^ 60 : Int) ≤ (2 ^ 64 - 1 : Nat) := by decide
  have hlast : h.lastPeriod + 2 ^ 60 ≤ lastPossiblePeriod := by decide +kernel
  obtain ⟨⟨series, periods⟩, hq, hfields⟩ := Option.map_eq_some_iff.1 hread
  cases hfields
  have hstored : (s.backend.store fun _ => .error .missing).observations
      ⟨"acme", .empty, by decide⟩ = .ok h.observations := rfl
  have hbreaks : BreaksOff ⟨s.backend.store fun _ => .error .missing, model.toBaseline,
      s.maxHorizon⟩ r.body :=
    ⟨_, _, toOption_eq_some.1 hq, hk, hcap, le_rfl, h, hstored, hlast⟩
  have hnone : s.respond (fun _ => .error .missing) r = none :=
    (AppState.respond_eq_none_iff (s := s) hr).2 hbreaks
  obtain ⟨response, hresponse⟩ := hall s.backend model s.maxHorizon s.storeKind
    (fun _ => .error .missing) r hr
  cases hnone.symm.trans hresponse

end LagForecast
