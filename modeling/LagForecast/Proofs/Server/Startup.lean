import LagForecast.Proofs.Forecast.Projection
import LagForecast.Proofs.Outcome
import LagForecast.Server.Routes

/-!
Settings that are taken are settings that work.  Whatever the variables hold, a look-up that gives
settings has tried the model, and nothing that is checked again when the server starts can fail but
the store.
-/

set_option autoImplicit false

namespace LagForecast

namespace LagConfig

variable {c : LagConfig} {m : LagModel Float}

private theorem order_clamps_of_build (h : c.build = .ok m) :
    m.order = c.effectiveOrder ∧ m.clamps = c.clampToHistory := by
  obtain ⟨order, weights, clamps⟩ := c
  obtain ⟨n, hn, hm⟩ := Attempt.bind_eq_ok.1 h
  obtain rfl : n.withClamp clamps = m := Attempt.ok.inj hm
  refine ⟨?_, rfl⟩
  change n.weights.length = _
  have hmodel := Attempt.mapError_eq_ok.1 hn
  cases weights with
  | some weights =>
    rw [LagModel.weights_of_weighted (mapError_eq_ok.1 (Attempt.ofExcept_eq_ok.1 hmodel))]
    rfl
  | none =>
    rw [LagModel.weights_of_movingAverage hmodel]
    exact List.length_replicate

end LagConfig

private theorem ForecasterConfig.build_of_model {c : ForecasterConfig} {m : LagModel Float}
    (hcap : 1 ≤ c.maxHorizon) (hm : c.model.build = .ok m) (store : HistoryStore) :
    c.build store = .ok ⟨store, m.toBaseline, c.maxHorizon⟩ := by
  have hne : ¬ c.maxHorizon = 0 := by omega
  rw [build, if_neg hne, hm]
  rfl

namespace ServerConfig

def setting (lookup : String → Option String) (name : String) : Option String :=
  (lookup name).filter fun v => ¬ Text.Blank v

/-- The settings depend on no variable that is not set or blank. -/
theorem ofLookup_congr {lookup lookup' : String → Option String}
    (h : setting lookup = setting lookup') : ofLookup lookup = ofLookup lookup' := by
  have same (name : String) : (lookup name).filter (fun v => ¬ Text.Blank v) =
      (lookup' name).filter fun v => ¬ Text.Blank v := congrFun h name
  simp only [ofLookup, same]

private theorem setting_eq_of_blank {lookup lookup' : String → Option String}
    (h : ∀ name, lookup name = lookup' name ∨
      (∀ v, lookup name = some v → Text.Blank v) ∧ ∀ v, lookup' name = some v → Text.Blank v) :
    setting lookup = setting lookup' := by
  have unset {l : String → Option String} {name : String}
      (hl : ∀ v, l name = some v → Text.Blank v) : setting l name = none := by
    refine Option.filter_eq_none_iff.2 fun v hv => ?_
    simpa using hl v hv
  funext name
  rcases h name with hname | ⟨hl, hl'⟩
  · rw [setting, setting, hname]
  · rw [unset hl, unset hl']

private theorem one_le_of_readPositive {name raw : String} {n : Nat}
    (h : readPositive name raw = .ok n) : 1 ≤ n := by
  unfold readPositive at h
  split at h
  · cases h
  · next m hne _ =>
    cases h
    have : n ≠ 0 := fun hn => hne (by rw [hn])
    omega
  · cases h

private theorem length_of_readWeights {raw : String} {weights : List Float}
    (h : readWeights raw = .ok weights) : weights.length = (Text.parts ',' raw).length :=
  length_of_mapM h

private theorem orDefault_of_none {α : Type} {raw : Option String} {start a : α}
    {read : String → Except ConfigError α} (h : orDefault raw start read = .ok a)
    (hraw : raw = none) : a = start := by
  subst hraw
  exact (Except.ok.inj h).symm

private theorem orDefault_of_some {α : Type} {raw : Option String} {start a : α}
    {read : String → Except ConfigError α} (h : orDefault raw start read = .ok a) {text : String}
    (hraw : raw = some text) : read text = .ok a := by
  subst hraw
  exact h

/-- What is known of the settings that a look-up gives, and of the model that they make. -/
structure Accepted (lookup : String → Option String) (c : ServerConfig) (m : LagModel Float) :
    Prop where
  built : c.forecaster.model.build = .ok m
  capped : 1 ≤ c.forecaster.maxHorizon
  weighted : ∀ raw, setting lookup "BASELINE_WEIGHTS" = some raw →
    c.forecaster.model.effectiveOrder = (Text.parts ',' raw).length
  unweighted : setting lookup "BASELINE_WEIGHTS" = none →
    c.forecaster.model.effectiveOrder = c.forecaster.model.order
  clamped : c.forecaster.model.clampToHistory = true ↔
    ∃ raw, setting lookup "BASELINE_CLAMP" = some raw ∧ readTruth "BASELINE_CLAMP" raw = .ok true

private theorem exists_accepted {lookup : String → Option String} {c : ServerConfig}
    (h : ofLookup lookup = .ok c) : ∃ m, Accepted lookup c m := by
  unfold ofLookup at h
  obtain ⟨port, -, h⟩ := Attempt.bind_eq_ok.1 h
  obtain ⟨order, -, h⟩ := Attempt.bind_eq_ok.1 h
  obtain ⟨weights, hweights, h⟩ := Attempt.bind_eq_ok.1 h
  obtain ⟨clamps, hclamps, h⟩ := Attempt.bind_eq_ok.1 h
  obtain ⟨cap, hcap, h⟩ := Attempt.bind_eq_ok.1 h
  obtain ⟨store, -, h⟩ := Attempt.bind_eq_ok.1 h
  obtain ⟨m, hm, h⟩ := Attempt.bind_eq_ok.1 h
  cases h
  replace hweights := Attempt.ofExcept_eq_ok.1 hweights
  replace hclamps := Attempt.ofExcept_eq_ok.1 hclamps
  replace hcap := Attempt.ofExcept_eq_ok.1 hcap
  refine ⟨m, Attempt.mapError_eq_ok.1 hm, ?_, ?_, ?_, ?_⟩
  · change 1 ≤ cap
    cases hvar : setting lookup "BASELINE_MAX_HORIZON" with
    | none =>
      rw [orDefault_of_none hcap hvar]
      decide
    | some raw => exact one_le_of_readPositive (orDefault_of_some hcap hvar)
  · intro raw hraw
    obtain ⟨l, hl, rfl⟩ := map_eq_ok.1 (orDefault_of_some hweights hraw)
    exact length_of_readWeights hl
  · intro hnone
    rw [orDefault_of_none hweights hnone]
    rfl
  · change clamps = true ↔ _
    cases hvar : setting lookup "BASELINE_CLAMP" with
    | none => simp [orDefault_of_none hclamps hvar]
    | some raw => simp [orDefault_of_some hclamps hvar]

private theorem Accepted.ofConfig_eq {lookup : String → Option String} {c : ServerConfig}
    {m : LagModel Float} (h : Accepted lookup c m) (files : FileView) :
    AppState.ofConfig files c =
      match c.store.connect files with
      | .ok backend =>
        .ok ⟨backend, m.toBaseline, c.forecaster.maxHorizon, c.store.kind⟩
      | .error e => .error (.store e) := by
  unfold AppState.ofConfig
  cases c.store.connect files with
  | error e => rfl
  | ok backend =>
    change ((c.forecaster.build (backend.store files)).mapError ConfigError.model >>= _) = _
    rw [ForecasterConfig.build_of_model h.capped h.built]
    rfl

end ServerConfig

open ServerConfig (Accepted setting_eq_of_blank)

/-- Whatever the variables hold: settings that are taken make, over every store, a service with the
number of lags, the bounds and the greatest horizon that they ask for, and only the store can keep
the server from starting.  A variable that is blank does what a variable that is not set does, also
where the settings are refused. -/
theorem accepted_settings_start (lookup : String → Option String) :
    (∀ c, ServerConfig.ofLookup lookup = .ok c →
      (∃ m : LagModel Float, Accepted lookup c m ∧
        m.toBaseline.order = c.forecaster.model.effectiveOrder ∧
        1 ≤ c.forecaster.model.effectiveOrder ∧
        m.clamps = c.forecaster.model.clampToHistory ∧
        ∀ store, c.forecaster.build store =
          .ok ⟨store, m.toBaseline, c.forecaster.maxHorizon⟩) ∧
      (∀ files e, AppState.ofConfig files c = .error e ↔
        ∃ fault, c.store.connect files = .error fault ∧ e = .store fault) ∧
      ∀ files, AppState.ofConfig files c ≠ .stopped) ∧
    ∀ lookup',
      (∀ name, lookup name = lookup' name ∨
        (∀ v, lookup name = some v → Text.Blank v) ∧ ∀ v, lookup' name = some v → Text.Blank v) →
      ServerConfig.ofLookup lookup = ServerConfig.ofLookup lookup' := by
  refine ⟨?_, fun lookup' h => ServerConfig.ofLookup_congr (setting_eq_of_blank h)⟩
  intro c hc
  obtain ⟨m, hm⟩ := ServerConfig.exists_accepted hc
  obtain ⟨horder, hclamps⟩ := LagConfig.order_clamps_of_build hm.built
  refine ⟨⟨m, hm, horder, ?_, hclamps, ForecasterConfig.build_of_model hm.capped hm.built⟩, ?_, ?_⟩
  · rw [← horder]
    exact m.one_le_order
  · intro files e
    rw [hm.ofConfig_eq]
    cases c.store.connect files with
    | ok backend => simp
    | error fault => simp [eq_comm]
  · intro files
    rw [hm.ofConfig_eq]
    cases c.store.connect files <;> exact nofun

set_option maxRecDepth 4000 in
/-- Two weights, and a port that is blank. -/
theorem accepted_settings_start_of_weights :
    let lookup : String → Option String := fun name =>
      if name = "BASELINE_WEIGHTS" then some "1, 3" else none
    let lookup' : String → Option String := fun name =>
      if name = "PORT" then some " " else lookup name
    ∃ c m, ServerConfig.ofLookup lookup' = .ok c ∧ Accepted lookup c m ∧ m.order = 2 := by
  intro lookup lookup'
  let c : ServerConfig := { forecaster := { model := { weights := some [1.0, 3.0] } } }
  have hc : ServerConfig.ofLookup lookup = .ok c := rfl
  obtain ⟨haccepted, hblank⟩ := accepted_settings_start lookup
  obtain ⟨⟨m, hm, horder, -⟩, -, -⟩ := haccepted c hc
  refine ⟨c, m, ?_, hm, horder⟩
  rw [← hblank lookup', hc]
  intro name
  by_cases hname : name = "PORT"
  · subst hname
    exact Or.inr ⟨nofun, fun v hv => by cases hv; decide⟩
  · exact Or.inl (if_neg hname).symm

end LagForecast
