import LagForecast.Forecast.Forecaster
import LagForecast.Proofs.Forecast.Projection
import LagForecast.Proofs.History.Validity

/-!
The outcomes of a forecast.  Each has its own condition on the horizon, on what the store answers
and on what the model makes of it; the conditions exclude one another and leave nothing out.
-/

set_option autoImplicit false

namespace LagForecast

/-- What a lag model makes of a request, given the answer of the store.  An outcome rules out the
ones before it. -/
inductive ForecastOutcome (model : LagModel Float) (cap : Nat) (k : SeriesKey) (n : Int) :
    Except StoreError (List Observation) → Attempt ForecastError ForecastVector → Prop
  | outOfRange {answer : Except StoreError (List Observation)} (hn : n ≤ 0 ∨ cap < n) :
      ForecastOutcome model cap k n answer (.error (.invalidHorizon n cap))
  | unavailable {outage : Outage} (hn : 0 < n ∧ n ≤ cap) :
      ForecastOutcome model cap k n (.error (.unavailable outage))
        (.error (.storeUnavailable outage))
  | malformed {damage : Damage} (hn : 0 < n ∧ n ≤ cap) :
      ForecastOutcome model cap k n (.error (.malformed damage))
        (.error (.corruptHistory k.canonical damage))
  | absent (hn : 0 < n ∧ n ≤ cap) :
      ForecastOutcome model cap k n (.ok []) (.error (.seriesNotFound k.canonical))
  | invalid {l : List Observation} {e : HistoryError} (hn : 0 < n ∧ n ≤ cap) (hne : l ≠ [])
      (hl : ¬ IsHistory l) (he : History.ofList l = .error e) :
      ForecastOutcome model cap k n (.ok l) (.error (.corruptHistory k.canonical (.history e)))
  | overflow {h : History} (hn : 0 < n ∧ n ≤ cap) (hlast : lastPossiblePeriod < h.lastPeriod + n) :
      ForecastOutcome model cap k n (.ok h.observations)
        (.error (.invalidHorizon n (lastPossiblePeriod - h.lastPeriod)))
  | stopped {h : History} (hn : 0 < n ∧ n ≤ cap) (hlast : h.lastPeriod + n ≤ lastPossiblePeriod)
      (hfits : 2 ^ 60 ≤ n) : ForecastOutcome model cap k n (.ok h.observations) .stopped
  | nonFinite {h : History} {s : Nat} (hn : 0 < n ∧ n ≤ cap)
      (hlast : h.lastPeriod + n ≤ lastPossiblePeriod) (hfits : n < 2 ^ 60) (hs : s < n)
      (hraw : (model.rawAt h s).isFinite = false)
      (hbefore : ∀ t < s, (model.rawAt h t).isFinite = true) :
      ForecastOutcome model cap k n (.ok h.observations) (.error (.numerical (.nonFinite (s + 1))))
  | forecast {h : History} {horizon : Horizon} {v : ForecastVector} (hn : 0 < n ∧ n ≤ cap)
      (hlast : h.lastPeriod + n ≤ lastPossiblePeriod) (hfits : n < 2 ^ 60)
      (hraw : ∀ s : Nat, s < n → (model.rawAt h s).isFinite = true)
      (hsteps : (horizon.steps : Int) = n)
      (hrun : runModel model.toBaseline h horizon =
        .ok { v with metadata := { v.metadata with series := none } })
      (hlength : (v.values.length : Int) = n) (hvalues : ∀ x ∈ v.values, x.isFinite = true)
      (hstart : v.startPeriod = h.lastPeriod + 1)
      (hseries : v.metadata.series = some k.fingerprint) :
      ForecastOutcome model cap k n (.ok h.observations) (.ok v)

namespace Horizon

private theorem ext_steps {a b : Horizon} (h : a.steps = b.steps) : a = b := by
  cases a
  cases b
  cases h
  rfl

private theorem exists_steps {n : Int} (hn : 0 < n) :
    ∃ horizon : Horizon, (horizon.steps : Int) = n :=
  ⟨⟨n.toNat, by omega⟩, Int.toNat_of_nonneg (by omega)⟩

theorem bounded_of_outOfRange {n : Int} {cap : Nat} (hn : n ≤ 0 ∨ cap < n) :
    bounded n cap = .error (.invalidHorizon n cap) := by
  unfold bounded
  rw [dif_neg (by omega)]

private theorem bounded_of_inRange {n : Int} {cap : Nat} (hn : 0 < n ∧ n ≤ cap) {horizon : Horizon}
    (hsteps : (horizon.steps : Int) = n) : bounded n cap = .ok horizon := by
  unfold bounded
  rw [dif_pos hn]
  have hnat : n.toNat = horizon.steps := by omega
  exact congrArg Except.ok (ext_steps hnat)

end Horizon

namespace Forecaster

theorem historyIn_of_ne_nil (k : SeriesKey) {l : List Observation} (hne : l ≠ []) :
    historyIn k (.ok l) =
      (History.ofList l).mapError fun e => .corruptHistory k.canonical (.history e) := by
  have hempty : l.isEmpty = false := by simp [hne]
  change (if l.isEmpty then _ else _) = _
  rw [hempty]
  rfl

theorem historyIn_of_isHistory (k : SeriesKey) (h : History) :
    historyIn k (.ok h.observations) = .ok h := by
  rw [historyIn_of_ne_nil k h.nonempty, History.ofList_observations]
  rfl

private theorem historyIn_of_invalid (k : SeriesKey) {l : List Observation} {e : HistoryError}
    (hne : l ≠ []) (he : History.ofList l = .error e) :
    historyIn k (.ok l) = .error (.corruptHistory k.canonical (.history e)) := by
  rw [historyIn_of_ne_nil k hne, he]
  rfl

variable {f : Forecaster} {k : SeriesKey} {n : Int}

theorem forecast_of_outOfRange (hn : n ≤ 0 ∨ f.maxHorizon < n) :
    f.forecast k n = .error (.invalidHorizon n f.maxHorizon) := by
  rw [forecast_eq, Horizon.bounded_of_outOfRange hn]
  rfl

private theorem forecast_of_inRange (hn : 0 < n ∧ n ≤ f.maxHorizon) {horizon : Horizon}
    (hsteps : (horizon.steps : Int) = n) :
    f.forecast k n = do
      let h ← f.loadHistory k
      let v ← runModel f.model h horizon
      return { v with metadata := { v.metadata with series := some k.fingerprint } } := by
  rw [forecast_eq, Horizon.bounded_of_inRange hn hsteps]
  rfl

private theorem forecast_of_load_error (hn : 0 < n ∧ n ≤ f.maxHorizon) {e : ForecastError}
    (hload : f.loadHistory k = .error e) : f.forecast k n = .error e := by
  obtain ⟨horizon, hsteps⟩ := Horizon.exists_steps hn.1
  rw [forecast_of_inRange hn hsteps, hload]
  rfl

private theorem forecast_of_history (hn : 0 < n ∧ n ≤ f.maxHorizon) {horizon : Horizon}
    (hsteps : (horizon.steps : Int) = n) {h : History}
    (hread : f.store.observations k = .ok h.observations) :
    f.forecast k n = do
      let v ← runModel f.model h horizon
      return { v with metadata := { v.metadata with series := some k.fingerprint } } := by
  have hload : f.loadHistory k = .ok h := by
    rw [loadHistory, hread, historyIn_of_isHistory]
  rw [forecast_of_inRange hn hsteps, hload]
  rfl

end Forecaster

section Cascade

variable {store : HistoryStore} {model : LagModel Float} {cap : Nat} {k : SeriesKey} {n : Int}

private theorem ForecastOutcome.forecast_eq {r : Attempt ForecastError ForecastVector}
    (ho : ForecastOutcome model cap k n (store.observations k) r) :
    (Forecaster.mk store model.toBaseline cap).forecast k n = r := by
  generalize hread : store.observations k = answer at ho
  cases ho with
  | outOfRange hn => exact Forecaster.forecast_of_outOfRange hn
  | unavailable hn | malformed hn | absent hn =>
    apply Forecaster.forecast_of_load_error hn
    rw [Forecaster.loadHistory, hread]
    rfl
  | invalid hn hne hl he =>
    apply Forecaster.forecast_of_load_error hn
    rw [Forecaster.loadHistory, hread]
    exact Forecaster.historyIn_of_invalid k hne he
  | overflow hn hlast =>
    obtain ⟨horizon, hsteps⟩ := Horizon.exists_steps hn.1
    rw [Forecaster.forecast_of_history hn hsteps hread, runModel_of_overflow (by omega), hsteps]
    rfl
  | @stopped h hn hlast hfits =>
    obtain ⟨horizon, hsteps⟩ := Horizon.exists_steps hn.1
    have hp : model.project h horizon = .stopped := LagModel.project_of_le (by omega)
    rw [Forecaster.forecast_of_history hn hsteps hread, runModel_of_stopped (by omega) hp]
    rfl
  | nonFinite hn hlast hfits hs hraw hbefore =>
    obtain ⟨horizon, hsteps⟩ := Horizon.exists_steps hn.1
    have hp : model.project _ horizon = _ :=
      LagModel.project_of_nonFinite (by omega) (by omega) hraw hbefore
    rw [Forecaster.forecast_of_history hn hsteps hread, runModel_of_error (by omega) hp]
    rfl
  | @forecast h horizon v hn hlast hfits hraw hsteps hrun hlength hvalues hstart hseries =>
    rw [Forecaster.forecast_of_history hn hsteps hread, hrun]
    -- The run leaves the series out, and the fingerprint is put in its place.
    obtain ⟨values, startPeriod, metadata⟩ := v
    obtain ⟨series, _, _, _, _, _⟩ := metadata
    cases hseries
    rfl

private theorem exists_outcome_of_history (hn : 0 < n ∧ n ≤ cap) (h : History)
    (hlast : h.lastPeriod + n ≤ lastPossiblePeriod) :
    ∃ r, ForecastOutcome model cap k n (.ok h.observations) r := by
  obtain ⟨horizon, hsteps⟩ := Horizon.exists_steps hn.1
  rcases lt_or_ge n (2 ^ 60) with hfits | hfits
  swap
  · exact ⟨_, .stopped hn hlast hfits⟩
  rcases finite_or_first_nonFinite horizon.steps (model.firstWindow h) with
    hall | ⟨s, hs, hraw, hbefore⟩
  · refine ⟨.ok (model.continuation h horizon.steps (some k.fingerprint)), ?_⟩
    refine .forecast hn hlast hfits (fun s hs => hall s (by omega)) hsteps
      (runModel_of_finite (by omega) (by omega) hall) ?_ ?_ rfl rfl
    · change (((List.range horizon.steps).map (model.valueAt h)).length : Int) = n
      rw [List.length_map, List.length_range, hsteps]
    · intro x hx
      obtain ⟨s, hs, rfl⟩ := List.mem_map.1 hx
      exact LagModel.valueAt_finite (hall s (List.mem_range.1 hs))
  · exact ⟨_, .nonFinite hn hlast hfits (by omega) hraw hbefore⟩

private theorem exists_outcome (answer : Except StoreError (List Observation)) :
    ∃ r, ForecastOutcome model cap k n answer r := by
  by_cases hn : 0 < n ∧ n ≤ cap
  · match answer with
    | .error (.unavailable outage) => exact ⟨_, .unavailable hn⟩
    | .error (.malformed damage) => exact ⟨_, .malformed hn⟩
    | .ok l =>
      by_cases hne : l = []
      · subst hne
        exact ⟨_, .absent hn⟩
      · cases hl : History.ofList l with
        | error e => exact ⟨_, .invalid hn hne (History.not_isHistory_of_error hl) hl⟩
        | ok h =>
          have hobs := History.observations_of_ofList hl
          subst hobs
          by_cases hlast : h.lastPeriod + n ≤ lastPossiblePeriod
          · exact exists_outcome_of_history hn h hlast
          · exact ⟨_, .overflow hn (by omega)⟩
  · exact ⟨_, .outOfRange (by omega)⟩

theorem forecast_eq_iff_outcome {r : Attempt ForecastError ForecastVector} :
    (Forecaster.mk store model.toBaseline cap).forecast k n = r ↔
      ForecastOutcome model cap k n (store.observations k) r := by
  constructor
  · intro h
    obtain ⟨s, hs⟩ := exists_outcome (store.observations k)
    rw [← h, hs.forecast_eq]
    exact hs
  · exact ForecastOutcome.forecast_eq

/-- A forecast breaks off where only its horizon is too great, and is not too great to be counted. -/
theorem forecast_eq_stopped_iff :
    (Forecaster.mk store model.toBaseline cap).forecast k n = .stopped ↔
      (0 < n ∧ n ≤ cap) ∧ 2 ^ 60 ≤ n ∧ ∃ h : History,
        store.observations k = .ok h.observations ∧ h.lastPeriod + n ≤ lastPossiblePeriod := by
  rw [forecast_eq_iff_outcome]
  constructor
  · intro ho
    generalize hread : store.observations k = answer at ho
    cases ho with
    | stopped hn hlast hfits => exact ⟨hn, hfits, _, rfl, hlast⟩
  · rintro ⟨hn, hfits, h, hread, hlast⟩
    rw [hread]
    exact .stopped hn hlast hfits

end Cascade

namespace Forecaster

def answering (f : Forecaster) (answer : Except StoreError (List Observation)) : Forecaster :=
  { f with store := ⟨f.store.name, fun _ => answer⟩ }

section Asking

variable {m : Type → Type} [Monad m] {f : Forecaster} {k : SeriesKey} {n : Int}
  {ask : SeriesKey → m (Except StoreError (List Observation))}

theorem forecastBy_of_outOfRange (hn : n ≤ 0 ∨ f.maxHorizon < n) :
    f.forecastBy ask k n = pure (.error (.invalidHorizon n f.maxHorizon)) := by
  rw [forecastBy, Horizon.bounded_of_outOfRange hn]

theorem forecastBy_of_inRange [LawfulMonad m] (hn : 0 < n ∧ n ≤ f.maxHorizon) :
    f.forecastBy ask k n = (fun answer => (f.answering answer).forecast k n) <$> ask k := by
  obtain ⟨horizon, hsteps⟩ := Horizon.exists_steps hn.1
  have hforecast (answer : Except StoreError (List Observation)) :
      (f.answering answer).forecast k n = do
        let h ← historyIn k answer
        let v ← f.forecastHistory h horizon
        return { v with metadata := { v.metadata with series := some k.fingerprint } } :=
    forecast_of_inRange (show 0 < n ∧ n ≤ (f.answering answer).maxHorizon from hn) hsteps
  rw [forecastBy, Horizon.bounded_of_inRange hn hsteps, map_eq_pure_bind]
  simp only [hforecast]

end Asking

end Forecaster

/-- A forecast of a lag model comes to `r` exactly if `r` is the outcome of the store's answer.  A
store that can only be asked by a step that may fail or leave something behind is not asked if the
horizon is out of range and is asked once otherwise, for the series of the request, and its answer
decides. -/
theorem forecast_cascade (model : LagModel Float) (cap : Nat) (k : SeriesKey) (n : Int) :
    (∀ (store : HistoryStore) (r : Attempt ForecastError ForecastVector),
      (Forecaster.mk store model.toBaseline cap).forecast k n = r ↔
        ForecastOutcome model cap k n (store.observations k) r) ∧
      ∀ (store : HistoryStore) (m : Type → Type) [Monad m] [LawfulMonad m]
        (ask : SeriesKey → m (Except StoreError (List Observation))),
        let f : Forecaster := ⟨store, model.toBaseline, cap⟩
        f.forecastBy ask k n =
          if 0 < n ∧ n ≤ cap then (fun answer => (f.answering answer).forecast k n) <$> ask k
          else pure (.error (.invalidHorizon n cap)) := by
  refine ⟨fun store r => forecast_eq_iff_outcome, ?_⟩
  intro store m _ _ ask f
  by_cases hn : 0 < n ∧ n ≤ cap
  · rw [if_pos hn]
    exact Forecaster.forecastBy_of_inRange hn
  · rw [if_neg hn]
    exact Forecaster.forecastBy_of_outOfRange (show n ≤ 0 ∨ cap < n by omega)

/-- A store that keeps a list of what it was asked for has been asked once for a horizon in range,
which is forecast from its answer, and never for one out of range. -/
theorem forecast_cascade_of_listing :
    let k : SeriesKey := ⟨"plant", .empty, by decide⟩
    let h : History := ⟨[⟨4, 2.0⟩], by decide, by decide +kernel, by decide⟩
    let f : Forecaster := ⟨.raw h.observations, LagModel.standard.toBaseline, 5⟩
    let ask : SeriesKey → StateM (List SeriesKey) (Except StoreError (List Observation)) :=
      fun j => do
        modify (j :: ·)
        return .ok h.observations
    (∃ v, (f.forecastBy ask k 2).run [] = (.ok v, [k]) ∧ v.values = [2.0, 2.0] ∧
      v.startPeriod = 5 ∧ v.metadata.series = some k.fingerprint) ∧
      (f.forecastBy ask k 6).run [] = (.error (.invalidHorizon 6 5), []) := by
  intro k h f ask
  have inRange := (forecast_cascade LagModel.standard 5 k 2).2 (.raw h.observations)
    (StateM (List SeriesKey)) ask
  have outOfRange := (forecast_cascade LagModel.standard 5 k 6).2 (.raw h.observations)
    (StateM (List SeriesKey)) ask
  let horizon : Horizon := ⟨2, by decide⟩
  let v := LagModel.standard.continuation h 2 (some k.fingerprint)
  have hraw : ∀ s < 2, (LagModel.standard.rawAt h s).isFinite = true := by decide +kernel
  have hlast : h.lastPeriod + 2 ≤ lastPossiblePeriod := by decide +kernel
  have hsteps : (horizon.steps : Int) = 2 := rfl
  have hrun : runModel LagModel.standard.toBaseline h horizon =
      .ok { v with metadata := { v.metadata with series := none } } :=
    runModel_of_finite hlast (by decide) hraw
  have hvalues : v.values = [2.0, 2.0] := by decide +kernel
  have hfinite : ∀ x ∈ [(2.0 : Float), 2.0], x.isFinite = true := by decide +kernel
  have forecast := ((forecast_cascade LagModel.standard 5 k 2).1 (.raw h.observations) (.ok v)).2
    (.forecast (by decide) hlast (by decide) (fun s hs => hraw s (by omega)) hsteps hrun rfl
      (hvalues ▸ hfinite) rfl rfl)
  refine ⟨⟨v, ?_, hvalues, rfl, rfl⟩, ?_⟩
  · refine (congrFun inRange []).trans ?_
    rw [if_pos (by decide)]
    exact congrArg (·, [k]) forecast
  · refine (congrFun outOfRange []).trans ?_
    rw [if_neg (by decide)]
    rfl

/-- The first prediction is not finite, and a forecast for too many periods does not come to it. -/
theorem not_every_nonFinite_prediction_reported :
    ¬ ∀ (model : LagModel Float) (cap : Nat) (k : SeriesKey) (n : Int) (h : History) (s : Nat),
      0 < n ∧ n ≤ cap → h.lastPeriod + n ≤ lastPossiblePeriod → s < n →
      (model.rawAt h s).isFinite = false → (∀ t < s, (model.rawAt h t).isFinite = true) →
      (Forecaster.mk (.raw h.observations) model.toBaseline cap).forecast k n =
        .error (.numerical (.nonFinite (s + 1))) := by
  intro hall
  let model : LagModel Float := ⟨[1e300], false, by decide +kernel⟩
  let k : SeriesKey := ⟨"plant", .empty, by decide⟩
  let h : History := ⟨[⟨1, 1e300⟩], by decide, by decide +kernel, by decide⟩
  have hcap : (0 : Int) < 2 ^ 60 ∧ (2 ^ 60 : Int) ≤ (2 ^ 64 - 1 : Nat) := by decide
  have hlast : h.lastPeriod + 2 ^ 60 ≤ lastPossiblePeriod := by decide +kernel
  have hraw : (model.rawAt h 0).isFinite = false := by decide +kernel
  have hstopped : (Forecaster.mk (.raw h.observations) model.toBaseline (2 ^ 64 - 1)).forecast k
      (2 ^ 60) = .stopped :=
    forecast_eq_iff_outcome.2 (.stopped hcap hlast le_rfl)
  have hreported := hall model (2 ^ 64 - 1) k (2 ^ 60) h 0 hcap hlast (by decide) hraw
    fun t ht => absurd ht t.not_lt_zero
  cases hstopped.symm.trans hreported

end LagForecast
