import LagForecast.Forecast.Run
import LagForecast.Proofs.Forecast.Windows
import LagForecast.Proofs.History.Range
import LagForecast.Proofs.Outcome

/-!
What a lag model makes of a history: the horizon has to end at a period that can be counted, the
predictions have to fit in memory, every one of them has to be finite, and nothing else can go
wrong.
-/

set_option autoImplicit false

namespace LagForecast

section Memory

variable {ε : Type} {n : Nat}

theorem Attempt.fits_iff : fits n = true ↔ n < 2 ^ 60 := by
  rw [fits, decide_eq_true_iff]
  omega

private theorem Attempt.reserve_of_lt (h : n < 2 ^ 60) : (reserve n : Attempt ε Unit) = .ok () :=
  if_pos (fits_iff.2 h)

private theorem Attempt.reserve_of_le (h : 2 ^ 60 ≤ n) : (reserve n : Attempt ε Unit) = .stopped :=
  if_neg fun hfits => absurd (fits_iff.1 hfits) (by omega)

end Memory

namespace LagModel

section Arithmetic

variable {α : Type} [Scalar α]

theorem one_le_order (m : LagModel α) : 1 ≤ m.order := by
  obtain ⟨weights, clamps, accepted⟩ := m
  cases weights with
  | nil => cases accepted
  | cons w rest => exact Nat.succ_pos rest.length

theorem weights_of_weighted {weights : List α} {m : LagModel α}
    (h : weighted weights = .ok m) : m.weights = weights := by
  unfold weighted at h
  split at h
  · cases h
  · cases h
    rfl

theorem weighted_of_accepted {weights : List α} (h : weightFault weights = none) :
    weighted weights = .ok ⟨weights, false, h⟩ := by
  unfold weighted
  split
  next fault hfault =>
    rw [h] at hfault
    cases hfault
  next => rfl

def averaging (order : Nat) : Except ParameterFault (LagModel α) :=
  if order = 0 then .error .zeroOrder
  else (weighted (equalWeights order)).mapError .weights

theorem weights_of_averaging {order : Nat} {m : LagModel α} (h : averaging order = .ok m) :
    m.weights = equalWeights order := by
  unfold averaging at h
  split at h
  · cases h
  · exact weights_of_weighted (mapError_eq_ok.1 h)

end Arithmetic

/-- On binary numbers the mean is made in memory. -/
theorem movingAverage_eq_ok {order : Nat} {m : LagModel Float} :
    movingAverage order = .ok m ↔ order < 2 ^ 60 ∧ averaging order = .ok m := by
  unfold movingAverage averaging
  by_cases hzero : order = 0
  · rw [if_pos hzero, if_pos hzero]
    exact iff_of_false nofun fun h => nomatch h.2
  · rw [if_neg hzero, if_neg hzero]
    change (Attempt.reserve order >>= fun _ => _) = _ ↔ _
    rcases Nat.lt_or_ge order (2 ^ 60) with hlt | hle
    · rw [Attempt.reserve_of_lt hlt]
      exact Attempt.ofExcept_eq_ok.trans (iff_and_self.2 fun _ => hlt)
    · rw [Attempt.reserve_of_le hle]
      exact iff_of_false nofun fun h => absurd h.1 (by omega)

theorem weights_of_movingAverage {order : Nat} {m : LagModel Float}
    (h : movingAverage order = .ok m) : m.weights = equalWeights order :=
  weights_of_averaging (movingAverage_eq_ok.1 h).2

theorem isFinite_of_mem_weights (m : LagModel Float) : ∀ w ∈ m.weights, w.isFinite = true := by
  have haccepted := m.accepted
  intro w hw
  by_contra hinfinite
  have hany : (m.weights.any fun w => !Scalar.isFinite w) = true := by
    refine List.any_eq_true.2 ⟨w, hw, ?_⟩
    change (!w.isFinite) = true
    simpa using hinfinite
  rw [weightFault, if_pos hany] at haccepted
  split at haccepted <;> cases haccepted

variable (m : LagModel Float) (h : History)

def firstWindow : List Float := h.values.drop (h.values.length - min h.values.length m.order)

def limits : Option (Float × Float) := if m.clamps then some h.range else none

/-- The prediction that follows `s` others, before it is brought into the range. -/
def rawAt (s : Nat) : Float := rawPrediction m.weights (m.limits h) (m.firstWindow h) s

def valueAt (s : Nat) : Float := (confine (m.limits h) (m.rawAt h s)).1

/-- The number of predictions among the first `n` that are moved into the range. -/
def movedSteps (n : Nat) : Nat :=
  (List.range n).countP fun s => (confine (m.limits h) (m.rawAt h s)).2

def continuation (n : Nat) (series : Option String) : ForecastVector where
  values := (List.range n).map (m.valueAt h)
  startPeriod := h.lastPeriod + 1
  metadata := {
    series
    model := m.toBaseline.name
    order := m.order
    window := min h.values.length m.order
    historyLength := h.size
    flags := forecastFlags h.size m.order (m.movedSteps h n) }

variable {m h}

theorem eq_range_of_limits {b : Float × Float} (hb : m.limits h = some b) : b = h.range := by
  unfold limits at hb
  split at hb
  · exact (Option.some.inj hb).symm
  · cases hb

theorem valueAt_finite {s : Nat} (hraw : (m.rawAt h s).isFinite = true) :
    (m.valueAt h s).isFinite = true := by
  have hlimits : ∀ b, m.limits h = some b →
      Scalar.isFinite b.1 = true ∧ Scalar.isFinite b.2 = true := by
    intro b hb
    rw [eq_range_of_limits hb]
    exact h.range_finite
  exact confine_finite (show Scalar.isFinite (m.rawAt h s) = true from hraw) hlimits

/-- A list of predictions that is too long for memory is not begun. -/
theorem project_of_le {horizon : Horizon} (hsteps : 2 ^ 60 ≤ horizon.steps) :
    m.project h horizon = .stopped := by
  rw [project, Attempt.reserve_of_le hsteps]
  rfl

theorem project_of_lt {horizon : Horizon} (hsteps : horizon.steps < 2 ^ 60) :
    m.project h horizon =
      match predictions m.weights (m.limits h) horizon.steps 1 (m.firstWindow h) with
      | .ok r => .ok ⟨r.1, min h.values.length m.order, r.2⟩
      | .error step => .error (.numerical (.nonFinite step)) := by
  rw [project, Attempt.reserve_of_lt hsteps, projectValues]
  change Attempt.ofExcept (Except.mapError _
    (predictions m.weights (m.limits h) horizon.steps 1 (m.firstWindow h) >>= _)) = _
  cases predictions m.weights (m.limits h) horizon.steps 1 (m.firstWindow h) <;> rfl

theorem firstWindow_eq_rtake : m.firstWindow h = h.values.rtake m.order := by
  unfold firstWindow List.rtake
  congr 1
  omega

/-- The window holds the last of the values that are known after some predictions. -/
theorem windowAfter_firstWindow (s : Nat) :
    windowAfter m.weights (m.limits h) s (m.firstWindow h) =
      (h.values ++ (List.range s).map (m.valueAt h)).rtake m.order := by
  have hvalues : m.valueAt h = fun t => (confine (m.limits h)
      (rawPrediction m.weights (m.limits h) (h.values.rtake m.order) t)).1 := by
    funext t
    rw [valueAt, rawAt, firstWindow_eq_rtake]
  rw [firstWindow_eq_rtake, hvalues]
  exact windowAfter_rtake m.one_le_order h.values s

theorem rawAt_eq_predict (s : Nat) :
    m.rawAt h s =
      predict m.weights ((h.values ++ (List.range s).map (m.valueAt h)).rtake m.order) := by
  rw [rawAt, rawPrediction, windowAfter_firstWindow]

theorem project_of_finite {horizon : Horizon} (hsteps : horizon.steps < 2 ^ 60)
    (hraw : ∀ s < horizon.steps, (m.rawAt h s).isFinite = true) :
    m.project h horizon = .ok ⟨(List.range horizon.steps).map (m.valueAt h),
      min h.values.length m.order, m.movedSteps h horizon.steps⟩ := by
  have hrun : predictions m.weights (m.limits h) horizon.steps 1 (m.firstWindow h) =
      .ok ((List.range horizon.steps).map (m.valueAt h), m.movedSteps h horizon.steps) :=
    predictions_of_finite hraw
  rw [project_of_lt hsteps, hrun]

theorem project_of_nonFinite {horizon : Horizon} (hsteps : horizon.steps < 2 ^ 60) {s : Nat}
    (hs : s < horizon.steps) (hraw : (m.rawAt h s).isFinite = false)
    (hbefore : ∀ t < s, (m.rawAt h t).isFinite = true) :
    m.project h horizon = .error (.numerical (.nonFinite (s + 1))) := by
  have hrun : predictions m.weights (m.limits h) horizon.steps 1 (m.firstWindow h) =
      .error (1 + s) :=
    predictions_of_nonFinite hs hraw hbefore
  rw [project_of_lt hsteps, hrun, Nat.add_comm]

/-- A run breaks off, reports the first step whose prediction is not finite, or succeeds. -/
theorem project_cases (m : LagModel Float) (h : History) (horizon : Horizon) :
    2 ^ 60 ≤ horizon.steps ∧ m.project h horizon = .stopped ∨
    horizon.steps < 2 ^ 60 ∧
      ((∃ s < horizon.steps, (m.rawAt h s).isFinite = false ∧
          (∀ t < s, (m.rawAt h t).isFinite = true) ∧
          m.project h horizon = .error (.numerical (.nonFinite (s + 1)))) ∨
        (∀ s < horizon.steps, (m.rawAt h s).isFinite = true) ∧
          m.project h horizon = .ok ⟨(List.range horizon.steps).map (m.valueAt h),
            min h.values.length m.order, m.movedSteps h horizon.steps⟩) := by
  rcases Nat.lt_or_ge horizon.steps (2 ^ 60) with hlt | hle
  · rcases finite_or_first_nonFinite horizon.steps (m.firstWindow h) with
      hraw | ⟨s, hs, hraw, hbefore⟩
    · exact Or.inr ⟨hlt, Or.inr ⟨hraw, project_of_finite hlt hraw⟩⟩
    · exact Or.inr ⟨hlt, Or.inl ⟨s, hs, hraw, hbefore, project_of_nonFinite hlt hs hraw hbefore⟩⟩
  · exact Or.inl ⟨hle, project_of_le hle⟩

theorem project_eq_stopped {horizon : Horizon} :
    m.project h horizon = .stopped ↔ 2 ^ 60 ≤ horizon.steps := by
  refine ⟨fun hp => ?_, project_of_le⟩
  rcases project_cases m h horizon with ⟨hle, -⟩ | ⟨-, ⟨s, -, -, -, heq⟩ | ⟨-, heq⟩⟩
  · exact hle
  · cases hp.symm.trans heq
  · cases hp.symm.trans heq

theorem project_eq_ok {horizon : Horizon} {p : Projection Float} :
    m.project h horizon = .ok p ↔ horizon.steps < 2 ^ 60 ∧
      (∀ s < horizon.steps, (m.rawAt h s).isFinite = true) ∧
        p = ⟨(List.range horizon.steps).map (m.valueAt h), min h.values.length m.order,
          m.movedSteps h horizon.steps⟩ := by
  constructor
  · intro hp
    rcases project_cases m h horizon with ⟨-, heq⟩ | ⟨hlt, ⟨s, -, -, -, heq⟩ | ⟨hraw, heq⟩⟩
    · cases hp.symm.trans heq
    · cases hp.symm.trans heq
    · exact ⟨hlt, hraw, Attempt.ok.inj (hp.symm.trans heq)⟩
  · rintro ⟨hlt, hraw, rfl⟩
    exact project_of_finite hlt hraw

theorem project_eq_error {horizon : Horizon} {e : ForecastError} :
    m.project h horizon = .error e ↔ horizon.steps < 2 ^ 60 ∧
      ∃ s < horizon.steps, (m.rawAt h s).isFinite = false ∧
        (∀ t < s, (m.rawAt h t).isFinite = true) ∧ e = .numerical (.nonFinite (s + 1)) := by
  constructor
  · intro hp
    rcases project_cases m h horizon with
      ⟨-, heq⟩ | ⟨hlt, ⟨s, hs, hraw, hbefore, heq⟩ | ⟨-, heq⟩⟩
    · cases hp.symm.trans heq
    · exact ⟨hlt, s, hs, hraw, hbefore, Attempt.error.inj (hp.symm.trans heq)⟩
    · cases hp.symm.trans heq
  · rintro ⟨hlt, s, hs, hraw, hbefore, rfl⟩
    exact project_of_nonFinite hlt hs hraw hbefore

end LagModel

section Run

variable {model : BaselineModel} {h : History} {horizon : Horizon}

theorem runModel_of_overflow (hlast : lastPossiblePeriod < h.lastPeriod + horizon.steps) :
    runModel model h horizon =
      .error (.invalidHorizon horizon.steps (lastPossiblePeriod - h.lastPeriod)) := by
  have hroom : headroom h.lastPeriod < horizon.steps := by
    unfold headroom
    omega
  unfold runModel
  rw [if_pos hroom]
  rfl

theorem not_headroom_lt (hlast : h.lastPeriod + horizon.steps ≤ lastPossiblePeriod) :
    ¬ headroom h.lastPeriod < horizon.steps := by
  unfold headroom
  omega

theorem runModel_of_error (hlast : h.lastPeriod + horizon.steps ≤ lastPossiblePeriod)
    {e : ForecastError} (hp : model.project h horizon = .error e) :
    runModel model h horizon = .error e := by
  unfold runModel
  rw [if_neg (not_headroom_lt hlast), hp]
  rfl

theorem runModel_of_stopped (hlast : h.lastPeriod + horizon.steps ≤ lastPossiblePeriod)
    (hp : model.project h horizon = .stopped) : runModel model h horizon = .stopped := by
  unfold runModel
  rw [if_neg (not_headroom_lt hlast), hp]
  rfl

theorem runModel_ne_stopped (hp : model.project h horizon ≠ .stopped) :
    runModel model h horizon ≠ .stopped := by
  intro hrun
  unfold runModel at hrun
  split at hrun
  · cases hrun
  · obtain ⟨p, -, hlength⟩ := (Attempt.bind_eq_stopped.1 hrun).resolve_left hp
    split at hlength <;> cases hlength

theorem runModel_of_ok (hlast : h.lastPeriod + horizon.steps ≤ lastPossiblePeriod)
    {p : Projection Float} (hp : model.project h horizon = .ok p)
    (hlength : p.values.length = horizon.steps) :
    runModel model h horizon = .ok {
      values := p.values
      startPeriod := h.lastPeriod + 1
      metadata := {
        series := none
        model := model.name
        order := model.order
        window := p.window
        historyLength := h.size
        flags := forecastFlags h.size model.order p.clampedSteps } } := by
  unfold runModel
  rw [if_neg (not_headroom_lt hlast), hp]
  change (if p.values.length ≠ horizon.steps then _ else _) = _
  rw [if_neg (by simp [hlength])]
  rfl

theorem runModel_of_finite {m : LagModel Float}
    (hlast : h.lastPeriod + horizon.steps ≤ lastPossiblePeriod) (hsteps : horizon.steps < 2 ^ 60)
    (hraw : ∀ s < horizon.steps, (m.rawAt h s).isFinite = true) :
    runModel m.toBaseline h horizon = .ok (m.continuation h horizon.steps none) := by
  have hp : m.toBaseline.project h horizon = _ := LagModel.project_of_finite hsteps hraw
  exact runModel_of_ok hlast hp (by simp)

end Run

end LagForecast
