import LagForecast.Proofs.Forecast.Checks
import LagForecast.Proofs.Json.Faithful

/-!
# The periods of a forecast

The values of a forecast stand at the periods that follow the last observation.  A period has 64
bits, and so has the number of periods that are left after one, which they may not hold: it counts
as the greatest number then.  Here a run stops where 64 bits do not hold a period or a count that it
goes on with.  It never stops, and it answers as if there were no bound on the numbers.
-/

set_option autoImplicit false

namespace LagForecast

instance (i : Int) : Decidable (Json.Int64 i) := inferInstanceAs (Decidable (_ ∧ _))

/-- A number that 64 bits have to hold. -/
def int64? (i : Int) : Option Int := if Json.Int64 i then some i else none

def unsigned? (i : Int) : Option Int := if 0 ≤ i then some i else none

/-- The number of periods that can be counted after a period, or the greatest number of 64 bits if
it is greater. -/
def headroom64 (last : Int) : Int := (int64? (lastPossiblePeriod - last)).getD lastPossiblePeriod

private theorem int64?_eq {i : Int} (h : Json.Int64 i) : int64? i = some i := if_pos h

private theorem unsigned?_eq {i : Int} (h : 0 ≤ i) : unsigned? i = some i := if_pos h

private theorem int64_of_le {i j : Int} (hi : Json.Int64 i) (hle : i ≤ j)
    (hj : j ≤ lastPossiblePeriod) : Json.Int64 j :=
  ⟨hi.1.trans hle, hj⟩

private theorem int64_of_nonneg {i : Int} (h : 0 ≤ i) (hi : i ≤ lastPossiblePeriod) :
    Json.Int64 i :=
  int64_of_le (by decide) h hi

private theorem headroom64_of_nonneg {last : Int} (h : 0 ≤ last)
    (hlast : last ≤ lastPossiblePeriod) : headroom64 last = headroom last := by
  have hroom : Json.Int64 (lastPossiblePeriod - last) := int64_of_nonneg (by omega) (by omega)
  rw [headroom64, int64?_eq hroom]
  rfl

private theorem headroom64_of_neg {last : Int} (h : last < 0) :
    headroom64 last = lastPossiblePeriod := by
  have hroom : ¬ Json.Int64 (lastPossiblePeriod - last) := by
    unfold Json.Int64 lastPossiblePeriod
    omega
  rw [headroom64, int64?, if_neg hroom]
  rfl

def runModel? (model : BaselineModel) (h : History) (horizon : Horizon) :
    Option (Attempt ForecastError ForecastVector) := do
  let steps ← int64? horizon.steps
  if headroom64 h.lastPeriod < steps then
    let max ← unsigned? (headroom64 h.lastPeriod)
    return .error (.invalidHorizon steps max)
  let startPeriod ← int64? (h.lastPeriod + 1)
  return do
    let p ← model.project h horizon
    if p.values.length ≠ horizon.steps then
      .error (.numerical (.wrongLength model.name p.values.length horizon.steps))
    return {
      values := p.values
      startPeriod
      metadata := {
        series := none
        model := model.name
        order := model.order
        window := p.window
        historyLength := h.size
        flags := forecastFlags h.size model.order p.clampedSteps } }

def ForecastVector.periods? (v : ForecastVector) : Option (List (Int × Float)) :=
  v.values.zipIdx.mapM fun p => do
    let place ← int64? p.2
    let period ← int64? (v.startPeriod + place)
    return (period, p.1)

section Run

variable {model : BaselineModel} {h : History} {horizon : Horizon}

private theorem steps_le_of_bounded {requested : Int} {max : Nat}
    (hrequested : Json.Int64 requested) (hhorizon : Horizon.bounded requested max = .ok horizon) :
    (horizon.steps : Int) ≤ lastPossiblePeriod := by
  unfold Json.Int64 at hrequested
  unfold lastPossiblePeriod
  unfold Horizon.bounded at hhorizon
  split at hhorizon
  · cases hhorizon
    change ((requested.toNat : Nat) : Int) ≤ _
    omega
  · cases hhorizon

/-- After a period below zero there is room for every horizon. -/
theorem no_overflow_of_neg (hsteps : (horizon.steps : Int) ≤ lastPossiblePeriod)
    (hneg : h.lastPeriod < 0) : h.lastPeriod + horizon.steps ≤ lastPossiblePeriod := by
  omega

private theorem runModel?_eq (hlast : Json.Int64 h.lastPeriod)
    (hsteps : (horizon.steps : Int) ≤ lastPossiblePeriod) :
    runModel? model h horizon = some (runModel model h horizon) := by
  have hpositive := horizon.positive
  have hgreatest : h.lastPeriod ≤ lastPossiblePeriod := hlast.2
  simp only [runModel?, int64?_eq (int64_of_nonneg (by omega) hsteps), Option.bind_eq_bind,
    Option.bind_some]
  by_cases hoverflow : lastPossiblePeriod < h.lastPeriod + horizon.steps
  · have hnonneg : 0 ≤ h.lastPeriod := by omega
    have hroom : headroom64 h.lastPeriod < horizon.steps ∧ 0 ≤ headroom64 h.lastPeriod := by
      rw [headroom64_of_nonneg hnonneg hgreatest, headroom]
      omega
    rw [if_pos hroom.1, unsigned?_eq hroom.2, runModel_of_overflow hoverflow,
      headroom64_of_nonneg hnonneg hgreatest]
    rfl
  · have hroom : ¬ headroom64 h.lastPeriod < horizon.steps := by
      rcases lt_or_ge h.lastPeriod 0 with hneg | hnonneg
      · rw [headroom64_of_neg hneg]
        omega
      · rw [headroom64_of_nonneg hnonneg hgreatest, headroom]
        omega
    have hstart : Json.Int64 (h.lastPeriod + 1) := int64_of_le hlast (by omega) (by omega)
    rw [if_neg hroom, int64?_eq hstart, runModel, if_neg (by unfold headroom; omega)]
    rfl

private theorem periods?_eq {v : ForecastVector} (hstart : Json.Int64 v.startPeriod)
    (hlength : (v.values.length : Int) ≤ lastPossiblePeriod)
    (hend : v.startPeriod + v.values.length ≤ lastPossiblePeriod + 1) :
    v.periods? = some v.periods := by
  apply mapM_eq_some_map
  rintro ⟨x, i⟩ hx
  have hi : i < v.values.length := List.snd_lt_of_mem_zipIdx hx
  have hplace : Json.Int64 i := int64_of_nonneg (by omega) (by omega)
  have hperiod : Json.Int64 (v.startPeriod + i) := int64_of_le hstart (by omega) (by omega)
  simp only [int64?_eq hplace, int64?_eq hperiod, Option.bind_eq_bind, Option.bind_some]
  rfl

end Run

/-- Flags that tell whether observations are missing, then whether steps were moved. -/
structure TellsOf (available required steps : Nat) (m : ForecastMetadata) : Prop where
  flags : m.flags.Sublist [.insufficientHistory available required, .clamped steps]
  short : .insufficientHistory available required ∈ m.flags ↔ available < required
  clamped : .clamped steps ∈ m.flags ↔ 0 < steps
  insufficientHistory : m.insufficientHistory = true ↔ available < required
  clampedSteps : m.clampedSteps = steps

private theorem TellsOf.flags_eq {available required steps : Nat} {m : ForecastMetadata}
    (h : TellsOf available required steps m) :
    m.flags = forecastFlags available required steps := by
  have hcases := List.mem_sublists.2 h.flags
  have hshort := h.short
  have hclamped := h.clamped
  simp only [List.sublists, List.foldr_cons, List.foldr_nil, List.flatMap_cons, List.flatMap_nil,
    List.append_nil, List.cons_append, List.nil_append, List.mem_cons, List.not_mem_nil,
    or_false] at hcases
  unfold forecastFlags
  rcases hcases with hl | hl | hl | hl <;> rw [hl] at hshort hclamped ⊢ <;>
    simp at hshort hclamped <;> simp [hshort, hclamped]

private theorem tellsOf_forecastFlags {available required steps : Nat} {m : ForecastMetadata}
    (h : m.flags = forecastFlags available required steps) :
    TellsOf available required steps m := by
  unfold forecastFlags at h
  by_cases hshort : available < required <;> rcases Nat.eq_zero_or_pos steps with hzero | hpos
  all_goals
    simp only [hshort, if_true, if_false] at h
    constructor <;>
      simp_all [ForecastMetadata.insufficientHistory, ForecastMetadata.clampedSteps]

section Outcome

variable (model : BaselineModel) (h : History) (horizon : Horizon)

/-- A forecast made of what a model predicts: the values at the periods that follow the history, and
how they were made. -/
structure Continues (p : Projection Float) (v : ForecastVector) : Prop where
  values : v.values = p.values
  startPeriod : v.startPeriod = h.lastPeriod + 1
  periods : v.periods =
    ((List.range horizon.steps).map fun i : Nat => h.lastPeriod + 1 + i).zip p.values
  series : v.metadata.series = none
  name : v.metadata.model = model.name
  order : v.metadata.order = model.order
  window : v.metadata.window = p.window
  historyLength : v.metadata.historyLength = h.size
  flags : TellsOf h.size model.order p.clampedSteps v.metadata

inductive RunOutcome : Attempt ForecastError ForecastVector → Prop
  /-- There are not enough periods after the last one. -/
  | overflow (hlast : lastPossiblePeriod < h.lastPeriod + horizon.steps) :
    RunOutcome (.error (.invalidHorizon horizon.steps (lastPossiblePeriod - h.lastPeriod)))
  | failed {e : ForecastError} (hlast : h.lastPeriod + horizon.steps ≤ lastPossiblePeriod)
    (hp : model.project h horizon = .error e) : RunOutcome (.error e)
  | stopped (hlast : h.lastPeriod + horizon.steps ≤ lastPossiblePeriod)
    (hp : model.project h horizon = .stopped) : RunOutcome .stopped
  /-- The model predicts more values, or less. -/
  | wrongLength {p : Projection Float}
    (hlast : h.lastPeriod + horizon.steps ≤ lastPossiblePeriod)
    (hp : model.project h horizon = .ok p) (hlength : p.values.length ≠ horizon.steps) :
    RunOutcome (.error (.numerical (.wrongLength model.name p.values.length horizon.steps)))
  | done {p : Projection Float} {v : ForecastVector}
    (hlast : h.lastPeriod + horizon.steps ≤ lastPossiblePeriod)
    (hp : model.project h horizon = .ok p) (hlength : p.values.length = horizon.steps)
    (hv : Continues model h horizon p v) : RunOutcome (.ok v)

variable {model h horizon}

private theorem Continues.unique {p : Projection Float} {v v' : ForecastVector}
    (hv : Continues model h horizon p v) (hv' : Continues model h horizon p v') : v = v' := by
  have hflags := hv.flags.flags_eq.trans hv'.flags.flags_eq.symm
  have hvalues := hv.values.trans hv'.values.symm
  have hstart := hv.startPeriod.trans hv'.startPeriod.symm
  have hseries := hv.series.trans hv'.series.symm
  have hname := hv.name.trans hv'.name.symm
  have horder := hv.order.trans hv'.order.symm
  have hwindow := hv.window.trans hv'.window.symm
  have hsize := hv.historyLength.trans hv'.historyLength.symm
  obtain ⟨values, start, series, name, order, window, size, flags⟩ := v
  obtain ⟨values', start', series', name', order', window', size', flags'⟩ := v'
  simp_all

private theorem runModel_of_wrongLength (hlast : h.lastPeriod + horizon.steps ≤ lastPossiblePeriod)
    {p : Projection Float} (hp : model.project h horizon = .ok p)
    (hlength : p.values.length ≠ horizon.steps) :
    runModel model h horizon =
      .error (.numerical (.wrongLength model.name p.values.length horizon.steps)) := by
  unfold runModel
  rw [if_neg (not_headroom_lt hlast), hp]
  change (if p.values.length ≠ horizon.steps then _ else _) = _
  rw [if_pos hlength]
  rfl

private theorem exists_continues (hlast : h.lastPeriod + horizon.steps ≤ lastPossiblePeriod)
    {p : Projection Float} (hp : model.project h horizon = .ok p)
    (hlength : p.values.length = horizon.steps) :
    ∃ v, runModel model h horizon = .ok v ∧ Continues model h horizon p v := by
  refine ⟨_, runModel_of_ok hlast hp hlength, rfl, rfl, ?_, rfl, rfl, rfl, rfl, rfl,
    tellsOf_forecastFlags rfl⟩
  apply List.ext_getElem
  · simp [ForecastVector.periods, hlength]
  · intro i hi hi'
    simp [ForecastVector.periods]

private theorem runModel_eq_iff {r : Attempt ForecastError ForecastVector} :
    runModel model h horizon = r ↔ RunOutcome model h horizon r := by
  constructor
  · rintro rfl
    rcases lt_or_ge lastPossiblePeriod (h.lastPeriod + horizon.steps) with hover | hlast
    · rw [runModel_of_overflow hover]
      exact .overflow hover
    · cases hp : model.project h horizon with
      | error e =>
        rw [runModel_of_error hlast hp]
        exact .failed hlast hp
      | stopped =>
        rw [runModel_of_stopped hlast hp]
        exact .stopped hlast hp
      | ok p =>
        by_cases hlength : p.values.length = horizon.steps
        · obtain ⟨v, hrun, hv⟩ := exists_continues hlast hp hlength
          rw [hrun]
          exact .done hlast hp hlength hv
        · rw [runModel_of_wrongLength hlast hp hlength]
          exact .wrongLength hlast hp hlength
  · intro hr
    cases hr with
    | overflow hover => exact runModel_of_overflow hover
    | failed hlast hp => exact runModel_of_error hlast hp
    | stopped hlast hp => exact runModel_of_stopped hlast hp
    | wrongLength hlast hp hlength => exact runModel_of_wrongLength hlast hp hlength
    | done hlast hp hlength hv =>
      obtain ⟨v', hrun, hv'⟩ := exists_continues hlast hp hlength
      rw [hrun, hv.unique hv']

private theorem periods?_of_runModel (hlast : Json.Int64 h.lastPeriod)
    (hsteps : (horizon.steps : Int) ≤ lastPossiblePeriod) {v : ForecastVector}
    (hrun : runModel model h horizon = .ok v) : v.periods? = some v.periods := by
  have hpositive := horizon.positive
  cases runModel_eq_iff.1 hrun with
  | done hroom hp hlength hv =>
    have hcount : v.values.length = horizon.steps := by rw [hv.values, hlength]
    refine periods?_eq ?_ ?_ ?_
    · rw [hv.startPeriod]
      exact int64_of_le hlast (by omega) (by omega)
    · rw [hcount]
      exact hsteps
    · rw [hcount, hv.startPeriod]
      omega

/-- An error of the model's own apart, a horizon is refused if and only if it ends too late. -/
theorem runModel_eq_invalidHorizon
    (hp : model.project h horizon ≠
      .error (.invalidHorizon horizon.steps (lastPossiblePeriod - h.lastPeriod))) :
    runModel model h horizon =
        .error (.invalidHorizon horizon.steps (lastPossiblePeriod - h.lastPeriod)) ↔
      lastPossiblePeriod < h.lastPeriod + horizon.steps := by
  constructor
  · intro hrun
    cases runModel_eq_iff.1 hrun with
    | overflow hover => exact hover
    | failed _ hfailed => exact absurd hfailed hp
  · exact runModel_of_overflow

end Outcome

/-- The window of a lag model is too short if and only if the forecast tells so. -/
theorem window_of_runModel {m : LagModel Float} {h : History} {horizon : Horizon}
    {v : ForecastVector} (hrun : runModel m.toBaseline h horizon = .ok v) :
    v.metadata.window = min h.size m.order ∧
      (v.metadata.window < v.metadata.order ↔ v.metadata.insufficientHistory = true) := by
  cases runModel_eq_iff.1 hrun with
  | done hroom hp hlength hv =>
    have hwindow : v.metadata.window = min h.size m.order := by
      rw [hv.window, (LagModel.project_eq_ok.1 hp).2.2, History.values, List.length_map,
        History.size]
    have horder : v.metadata.order = m.order := hv.order
    refine ⟨hwindow, ?_⟩
    rw [hv.flags.insufficientHistory, hwindow, horder]
    exact min_lt_iff.trans (or_iff_left (lt_irrefl _))

/-- Whatever the model, a run never leaves the periods that 64 bits hold, nor do the periods of its
forecast, and it comes to its one outcome: an end that is too late, which there is none of after a
period below zero, an error of the model or its breaking off, a wrong number of values, or the
forecast. -/
theorem run_periods_follow_history (model : BaselineModel) (h : History) (horizon : Horizon)
    (hlast : Json.Int64 h.lastPeriod) (hsteps : (horizon.steps : Int) ≤ lastPossiblePeriod) :
    runModel? model h horizon = some (runModel model h horizon) ∧
      (∀ r, runModel model h horizon = r ↔ RunOutcome model h horizon r) ∧
      (model.project h horizon ≠
          .error (.invalidHorizon horizon.steps (lastPossiblePeriod - h.lastPeriod)) →
        (runModel model h horizon =
            .error (.invalidHorizon horizon.steps (lastPossiblePeriod - h.lastPeriod)) ↔
          lastPossiblePeriod < h.lastPeriod + horizon.steps)) ∧
      (h.lastPeriod < 0 → h.lastPeriod + horizon.steps ≤ lastPossiblePeriod) ∧
      (∀ v, runModel model h horizon = .ok v → v.periods? = some v.periods) ∧
      ∀ m : LagModel Float, ∀ v, runModel m.toBaseline h horizon = .ok v →
        v.metadata.window = min h.size m.order ∧
          (v.metadata.window < v.metadata.order ↔ v.metadata.insufficientHistory = true) :=
  ⟨runModel?_eq hlast hsteps, fun _ => runModel_eq_iff, runModel_eq_invalidHorizon,
    no_overflow_of_neg hsteps, fun _ => periods?_of_runModel hlast hsteps,
    fun _ _ => window_of_runModel⟩

/-- One value fits after the last period but one, and no more. -/
theorem run_periods_follow_history_of_last_but_one :
    let h : History := ⟨[⟨0x7FFFFFFFFFFFFFFE, 1.0⟩], by simp, by decide +kernel, by simp⟩
    let run := runModel? LagModel.standard.toBaseline h
    Json.Int64 h.lastPeriod ∧
      (∃ v, run ⟨1, by decide⟩ = some (.ok v) ∧
        v.periods?.map (List.map Prod.fst) = some [0x7FFFFFFFFFFFFFFF] ∧
        v.metadata.window = 1 ∧ v.metadata.insufficientHistory = true) ∧
      run ⟨2, by decide⟩ = some (.error (.invalidHorizon 2 1)) := by
  intro h run
  have hlast : Json.Int64 h.lastPeriod := by decide +kernel
  have hone : Horizon.bounded 1 Horizon.defaultMax = .ok ⟨1, by decide⟩ := rfl
  have htwo : Horizon.bounded 2 Horizon.defaultMax = .ok ⟨2, by decide⟩ := rfl
  refine ⟨hlast, ?_, ?_⟩
  · obtain ⟨hrun, -, -, -, hperiods, -⟩ :=
      run_periods_follow_history LagModel.standard.toBaseline h ⟨1, by decide⟩ hlast
        (steps_le_of_bounded (by decide) hone)
    have hvalue : (runModel LagModel.standard.toBaseline h ⟨1, by decide⟩).toOption.map
        (fun v => (v.periods.map Prod.fst, v.metadata.window, v.metadata.insufficientHistory)) =
        some ([0x7FFFFFFFFFFFFFFF], 1, true) := by decide +kernel
    obtain ⟨v, hv, hfields⟩ := Option.map_eq_some_iff.1 hvalue
    rw [Attempt.toOption_eq_some] at hv
    obtain ⟨hplaces, hmetadata⟩ := Prod.mk.inj hfields
    obtain ⟨hwindow, hshort⟩ := Prod.mk.inj hmetadata
    refine ⟨v, hrun.trans (congrArg some hv), ?_, hwindow, hshort⟩
    rw [hperiods v hv, Option.map_some, hplaces]
  · obtain ⟨hrun, houtcome, -⟩ :=
      run_periods_follow_history LagModel.standard.toBaseline h ⟨2, by decide⟩ hlast
        (steps_le_of_bounded (by decide) htwo)
    exact hrun.trans (congrArg some ((houtcome _).2 (.overflow (by decide +kernel))))

end LagForecast
