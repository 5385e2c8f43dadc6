import LagForecast.Proofs.Json.Values
import LagForecast.Server.Routes

/-!
# Replies

A reply is a result with status 200, or a refusal: an object of a kind and a message under a status
that goes with the kind.  Its body is read back as what was meant, and a client is told to try again
only where the store cannot be reached.
-/

set_option autoImplicit false

namespace LagForecast

open Json (Printable)

theorem printable_optionalText (name : String) (s : Option String) :
    ∀ e ∈ ForecastMetadata.optionalText name s, Printable e.2 := by
  cases s with
  | none => exact List.forall_mem_nil _
  | some s => exact List.forall_mem_singleton.2 (.text s)

theorem printable_flag (flag : ForecastFlag) : Printable flag.toJson := by
  cases flag with
  | insufficientHistory available required =>
    apply Json.printable_record
    simp [Printable.text, Json.printable_int]
  | clamped steps =>
    apply Json.printable_record
    simp [Printable.text, Json.printable_int]

theorem printable_metadata (m : ForecastMetadata) : Printable m.toJson := by
  apply Json.printable_record
  rw [List.forall_mem_append]
  refine ⟨printable_optionalText "series" m.series, ?_⟩
  simp [Printable.text, Json.printable_int, Json.printable_array_map printable_flag]

theorem printable_vector (v : ForecastVector) : Printable v.toJson := by
  apply Json.printable_record
  simp [Json.printable_int, Json.printable_array_map Json.printable_float, printable_metadata]

theorem printable_point (p : VariancePoint) : Printable p.toJson := by
  apply Json.printable_record
  rw [List.forall_mem_append]
  constructor
  · simp [Json.printable_int, Json.printable_float]
  · cases p.percent with
    | none => exact List.forall_mem_nil _
    | some x => exact List.forall_mem_singleton.2 (Json.printable_float x)

theorem printable_report (r : VarianceReport) : Printable r.toJson := by
  apply Json.printable_record
  rw [List.forall_mem_append, List.forall_mem_append]
  refine ⟨⟨printable_optionalText _ _, printable_optionalText _ _⟩, ?_⟩
  simp [Json.printable_int, Json.printable_array_map printable_point]

def Holds (text : String) (v : Json) : Prop := Json.read (Text.bytes text) = ⟨v, some []⟩

theorem holds_compact {v : Json} (hv : Printable v) : Holds v.compact v := by
  rw [Holds, Json.bytes_compact, Json.read_printed hv]

theorem Holds.unique {text : String} {v w : Json} (hv : Holds text v) (hw : Holds text w) :
    v = w :=
  congrArg Json.Reading.value (hv.symm.trans hw)

/-- A response whose body is an object of a kind and a message. -/
structure Refuses (response : HttpResponse) (status : Nat) (kind message : String) : Prop where
  status_eq : response.status = status
  body : Holds response.body (.record [("kind", .text kind), ("message", .text message)])

/-- The status that goes with a kind.  None goes with a refused parameter. -/
inductive ErrorKind.Status : ErrorKind → Nat → Prop
  | invalidHorizon : Status .invalidHorizon 400
  | invalidKey : Status .invalidKey 400
  | seriesNotFound : Status .seriesNotFound 404
  | storeUnavailable : Status .storeUnavailable 503
  | corruptHistory : Status .corruptHistory 500
  | numericalError : Status .numericalError 500

inductive ApiError.Status : ApiError → Nat → Prop
  | body (fault : BodyFault) : Status (.body fault) 400
  | forecast {e : ForecastError} {status : Nat} (h : e.kind.Status status) :
      Status (.forecast e) status

def retryAfter (response : HttpResponse) : Option String := response.headers.lookup "retry-after"

/-- A response that gives a result, or the reason why there is none. -/
inductive Gives (response : HttpResponse) : Except ApiError Json → Prop
  | result {v : Json} (hstatus : response.status = 200) (hbody : Holds response.body v)
      (hretry : retryAfter response = none) : Gives response (.ok v)
  | refusal {e : ApiError} {status : Nat} (hstatus : e.Status status)
      (hrefuses : Refuses response status e.kind e.message)
      (hretry : retryAfter response = if status = 503 then some "1" else none) :
      Gives response (.error e)

namespace ApiError

variable {e : ApiError} {status : Nat}

private theorem Status.status_eq (h : e.Status status) : e.status = status := by
  cases h with
  | body fault => rfl
  | @forecast error status h => cases error <;> cases h <;> rfl

/-- A client is told to try again under one status only. -/
theorem Status.isRetryable_iff (h : e.Status status) : e.isRetryable = true ↔ status = 503 := by
  cases h with
  | body fault => exact ⟨nofun, nofun⟩
  | @forecast error status h => cases error <;> cases h <;> simp [isRetryable, ForecastError.kind,
      ErrorKind.isRetryable]

private theorem Status.kind_ne (h : e.Status status) : e.kind ≠ "InvalidParameter" := by
  cases h with
  | body fault =>
    change "InvalidRequest" ≠ "InvalidParameter"
    decide
  | @forecast error status h => cases error <;> cases h <;> simp [kind, ForecastError.kind,
      ErrorKind.name]

private theorem Status.ne_ok (h : e.Status status) : status ≠ 200 := by
  cases h with
  | body fault => decide
  | @forecast error status h => cases error <;> cases h <;> decide

private theorem kind_eq_invalidRequest (h : e.kind = "InvalidRequest") :
    ∃ fault, e = .body fault := by
  cases e with
  | body fault => exact ⟨fault, rfl⟩
  | forecast error => cases error <;> simp [kind, ForecastError.kind, ErrorKind.name] at h

private theorem kind_eq_invalidKey (h : e.kind = "InvalidKey") :
    ∃ k, e = .forecast (.invalidKey k) := by
  cases e with
  | body fault => simp [kind] at h
  | forecast error =>
    cases error with
    | invalidKey k => exact ⟨k, rfl⟩
    | invalidHorizon | seriesNotFound | storeUnavailable | corruptHistory | invalidParameter
    | numerical => simp [kind, ForecastError.kind, ErrorKind.name] at h

end ApiError

namespace AppState

theorem gives_reply {x : Except ApiError Json} (hprintable : ∀ v, x = .ok v → Printable v)
    (hstatus : ∀ e, x = .error e → ∃ status, e.Status status) : Gives (reply x) x := by
  cases x with
  | ok v => exact .result rfl (holds_compact (hprintable v rfl)) rfl
  | error e =>
    obtain ⟨status, he⟩ := hstatus e rfl
    have hbody : Printable (.record [("kind", .text e.kind), ("message", .text e.message)]) := by
      apply Json.printable_record
      simp [Printable.text]
    rw [reply]
    by_cases hretry : e.isRetryable = true
    · rw [if_pos hretry]
      refine .refusal he ⟨he.status_eq, holds_compact hbody⟩ ?_
      rw [if_pos (he.isRetryable_iff.1 hretry)]
      rfl
    · rw [if_neg hretry]
      refine .refusal he ⟨he.status_eq, holds_compact hbody⟩ ?_
      rw [if_neg fun h => hretry (he.isRetryable_iff.2 h)]
      rfl

end AppState

namespace Gives

variable {response : HttpResponse} {x : Except ApiError Json}

theorem of_origin (h : Gives response x) : Gives { response with
    headers := ("access-control-allow-origin", "*") :: response.headers } x := by
  cases h with
  | result hstatus hbody hretry => exact .result hstatus hbody hretry
  | refusal hstatus hrefuses hretry => exact .refusal hstatus ⟨hrefuses.1, hrefuses.2⟩ hretry

theorem refuses {e : ApiError} (h : Gives response (.error e)) {status : Nat}
    (hstatus : e.Status status) : Refuses response status e.kind e.message := by
  cases h with
  | refusal hstatus' hrefuses =>
    rw [← hstatus.status_eq, hstatus'.status_eq]
    exact hrefuses

private theorem exists_error (h : Gives response x) {status : Nat} {kind message : String}
    (hr : Refuses response status kind message) (hstatus : status ≠ 200) :
    ∃ e, x = .error e ∧ e.kind = kind := by
  cases h with
  | result hok => exact absurd (hr.status_eq.symm.trans hok) hstatus
  | @refusal e status' he hrefuses =>
    have hbodies := hrefuses.body.unique hr.body
    simp only [Json.record, Json.text, List.map_cons, List.map_nil, Json.object.injEq,
      List.cons.injEq, Prod.mk.injEq, Json.string.injEq, Option.some.injEq] at hbodies
    exact ⟨e, rfl, hbodies.1.2⟩

theorem refuses_body_iff (h : Gives response x) :
    (∃ message, Refuses response 400 "InvalidRequest" message) ↔
      ∃ fault, x = .error (.body fault) := by
  constructor
  · rintro ⟨message, hr⟩
    obtain ⟨e, he, hkind⟩ := h.exists_error hr (by decide)
    obtain ⟨fault, rfl⟩ := ApiError.kind_eq_invalidRequest hkind
    exact ⟨fault, he⟩
  · rintro ⟨fault, rfl⟩
    exact ⟨_, h.refuses (.body fault)⟩

theorem refuses_key_iff (h : Gives response x) :
    (∃ message, Refuses response 400 "InvalidKey" message) ↔
      ∃ e, x = .error (.forecast (.invalidKey e)) := by
  constructor
  · rintro ⟨message, hr⟩
    obtain ⟨e, he, hkind⟩ := h.exists_error hr (by decide)
    obtain ⟨fault, rfl⟩ := ApiError.kind_eq_invalidKey hkind
    exact ⟨fault, he⟩
  · rintro ⟨e, rfl⟩
    exact ⟨_, h.refuses (.forecast .invalidKey)⟩

theorem exists_result (h : Gives response x) (hstatus : response.status = 200) :
    ∃ v, x = .ok v ∧ Holds response.body v := by
  cases h with
  | @result v hok hbody => exact ⟨v, rfl, hbody⟩
  | @refusal e status he hrefuses =>
    have hfault := he.ne_ok
    exact absurd (hrefuses.status_eq.symm.trans hstatus) hfault

theorem retryAfter_eq (h : Gives response x) :
    retryAfter response = if response.status = 503 then some "1" else none := by
  cases h with
  | result hstatus hbody hretry =>
    rw [hretry, hstatus]
    rfl
  | refusal hstatus hrefuses hretry => rw [hretry, hrefuses.status_eq]

/-- Whatever is no result is a refusal, and never that of a parameter. -/
theorem exists_refuses (h : Gives response x) (hstatus : response.status ≠ 200) :
    ∃ kind message, Refuses response response.status kind message ∧ kind ≠ "InvalidParameter" := by
  cases h with
  | result hok => exact absurd hok hstatus
  | @refusal e status he hrefuses =>
    exact ⟨e.kind, e.message, hrefuses.status_eq ▸ hrefuses, he.kind_ne⟩

end Gives

end LagForecast
