import LagForecast.Proofs.Forecast.Cascade

/-!
What the service reports when there is no forecast or no comparison: under which kinds a series
cannot be read, under which a lag model makes no forecast, and that a comparison of two series that
can be read goes wrong in no way.
-/

set_option autoImplicit false

namespace LagForecast

def ErrorKind.reading : List ErrorKind := [seriesNotFound, storeUnavailable, corruptHistory]

def ErrorKind.forecasting : List ErrorKind := invalidHorizon :: numericalError :: reading

theorem ForecastError.ne_invalidKey {e : ForecastError} (he : e.kind ∈ ErrorKind.forecasting)
    (k : KeyError) : e ≠ .invalidKey k := by
  rintro rfl
  change ErrorKind.invalidKey ∈ ErrorKind.forecasting at he
  exact absurd he (by decide)

theorem ErrorKind.forecasting_of_reading {kind : ErrorKind} (h : kind ∈ reading) :
    kind ∈ forecasting := List.mem_cons_of_mem _ (List.mem_cons_of_mem _ h)

namespace Forecaster

theorem kind_of_forecast {store : HistoryStore} {model : LagModel Float} {cap : Nat} {k : SeriesKey}
    {n : Int} {e : ForecastError}
    (h : (Forecaster.mk store model.toBaseline cap).forecast k n = .error e) :
    e.kind ∈ ErrorKind.forecasting := by
  have ho := forecast_eq_iff_outcome.1 h
  generalize store.observations k = answer at ho
  cases ho <;> simp [ForecastError.kind, ErrorKind.forecasting, ErrorKind.reading]

theorem values_of_forecast {store : HistoryStore} {model : LagModel Float} {cap : Nat}
    {k : SeriesKey} {n : Int} {v : ForecastVector}
    (h : (Forecaster.mk store model.toBaseline cap).forecast k n = .ok v) :
    (v.values.length : Int) = n ∧ ∀ x ∈ v.values, x.isFinite = true := by
  have ho := forecast_eq_iff_outcome.1 h
  generalize store.observations k = answer at ho
  cases ho with
  | forecast hn hlast hfits hraw hsteps hrun hlength hvalues => exact ⟨hlength, hvalues⟩

variable {f : Forecaster} {k base compare : SeriesKey} {c : VarianceConfig} {e : ForecastError}

theorem kind_of_loadHistory (h : f.loadHistory k = .error e) : e.kind ∈ ErrorKind.reading := by
  rw [loadHistory] at h
  cases hanswer : f.store.observations k with
  | error fault =>
    rw [hanswer] at h
    cases fault with
    | unavailable outage =>
      obtain rfl : .storeUnavailable outage = e := Except.error.inj h
      change ErrorKind.storeUnavailable ∈ ErrorKind.reading
      decide
    | malformed damage =>
      obtain rfl : .corruptHistory k.canonical damage = e := Except.error.inj h
      change ErrorKind.corruptHistory ∈ ErrorKind.reading
      decide
  | ok l =>
    rw [hanswer] at h
    by_cases hne : l = []
    · subst hne
      obtain rfl : .seriesNotFound k.canonical = e := Except.error.inj h
      change ErrorKind.seriesNotFound ∈ ErrorKind.reading
      decide
    · rw [historyIn_of_ne_nil k hne] at h
      cases hl : History.ofList l with
      | ok history =>
        rw [hl] at h
        cases h
      | error fault =>
        rw [hl] at h
        obtain rfl : .corruptHistory k.canonical (.history fault) = e := Except.error.inj h
        change ErrorKind.corruptHistory ∈ ErrorKind.reading
        decide

theorem validate_of_valid (h : VarianceConfig.validThreshold c.noiseThreshold = true) :
    c.validate = .ok () := if_pos h

theorem validate_of_invalid (h : VarianceConfig.validThreshold c.noiseThreshold = false) :
    c.validate = .error (.invalidParameter .noiseThreshold) :=
  if_neg (by rw [h]; exact Bool.false_ne_true)

theorem variance_of_base_error (hc : c.validate = .ok ()) (hb : f.loadHistory base = .error e)
    (compare : SeriesKey) : f.variance base compare c = .error e := by
  rw [variance_eq, hc, hb]
  rfl

theorem variance_of_compare_error (hc : c.validate = .ok ()) {h : History}
    (hb : f.loadHistory base = .ok h) (hv : f.loadHistory compare = .error e) :
    f.variance base compare c = .error e := by
  rw [variance_eq, hc, hb, hv]
  rfl

theorem exists_variance (hc : c.validate = .ok ()) {h h' : History}
    (hb : f.loadHistory base = .ok h) (hv : f.loadHistory compare = .ok h') :
    ∃ report, f.variance base compare c = .ok report := by
  have hreport : ∃ report, computeVariance h.observations h'.observations c = .ok report := by
    rw [computeVariance, hc]
    exact ⟨_, rfl⟩
  obtain ⟨report, hreport⟩ := hreport
  rw [variance_eq, hc, hb, hv]
  change ∃ r, (computeVariance h.observations h'.observations c >>= _) = .ok r
  rw [hreport]
  exact ⟨_, rfl⟩

end Forecaster

end LagForecast
