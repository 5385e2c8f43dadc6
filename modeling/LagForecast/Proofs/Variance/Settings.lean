import LagForecast.Proofs.Variance.Reference

/-!
# How the settings of a comparison act on its report

The threshold is held against the differences of the periods that are compared.  A greater one
leaves out more points and changes nothing else: what is left out is counted, and a period that is
dropped is dropped at every threshold, whatever its difference would be.  The policy for missing
values acts on the periods that one list lacks and on no others.
-/

set_option autoImplicit false

namespace LagForecast

def VarianceConfig.reportOn (c : VarianceConfig) (base compare : List Observation) :
    VarianceReport :=
  .ofVerdicts ((align base compare).entries.map fun p => c.judge p.1 p.2)

private theorem computeVariance_eq_reportOn {c : VarianceConfig}
    (hc : VarianceConfig.validThreshold c.noiseThreshold = true) (base compare : List Observation) :
    computeVariance base compare c = .ok (c.reportOn base compare) :=
  computeVariance_of_valid hc

/-- A verdict after its difference is held against one more threshold. -/
def Verdict.heldAgainst (t : Float) : Verdict → Verdict
  | .skipped => .skipped
  | .suppressed => .suppressed
  | .point p => if p.delta.abs < t then .suppressed else .point p

/-- A report without the points whose difference is of a size below a threshold; they are counted
with what was left out before. -/
def VarianceReport.leaveOut (t : Float) (r : VarianceReport) : VarianceReport :=
  { r with
    points := r.points.filter fun x => ¬ x.delta.abs < t
    suppressed := r.suppressed + r.points.countP fun x => x.delta.abs < t }

private theorem leaveOut_record (t : Float) (v : Verdict) (r : VarianceReport) :
    (r.record v).leaveOut t = (r.leaveOut t).record (v.heldAgainst t) := by
  cases v with
  | skipped => rfl
  | suppressed =>
    simp only [VarianceReport.record, VarianceReport.leaveOut, Verdict.heldAgainst]
    rw [Nat.add_right_comm]
  | point p =>
    by_cases hbelow : p.delta.abs < t <;>
      simp [VarianceReport.record, VarianceReport.leaveOut, Verdict.heldAgainst, hbelow,
        Nat.add_assoc]

private theorem ofVerdicts_heldAgainst (t : Float) (l : List Verdict) :
    VarianceReport.ofVerdicts (l.map (Verdict.heldAgainst t)) =
      (VarianceReport.ofVerdicts l).leaveOut t := by
  induction l with
  | nil => rfl
  | cons v rest ih =>
    rw [List.map_cons, VarianceReport.ofVerdicts, List.foldr_cons, ← VarianceReport.ofVerdicts, ih,
      ← leaveOut_record]
    rfl

section Thresholds

variable {c : VarianceConfig} {t : Float}

private theorem validThreshold_of_le (hc : VarianceConfig.validThreshold c.noiseThreshold = true)
    (ht : t.isFinite = true) (hle : c.noiseThreshold ≤ t) :
    VarianceConfig.validThreshold t = true := by
  obtain ⟨hfinite, hnonneg⟩ := validThreshold_iff.1 hc
  have hzero : (0.0 : Float).isNaN = false := by decide +kernel
  rw [le_iff_rank_le hzero (isNaN_of_isFinite hfinite)] at hnonneg
  rw [le_iff_rank_le (isNaN_of_isFinite hfinite) (isNaN_of_isFinite ht)] at hle
  exact validThreshold_iff.2
    ⟨ht, (le_iff_rank_le hzero (isNaN_of_isFinite ht)).2 (hnonneg.trans hle)⟩

/-- The verdict on a period at a greater threshold.  What is below the smaller one is below the
greater one too, and a difference that is not a number is below neither. -/
theorem judge_heldAgainst (hc : c.noiseThreshold.isFinite = true) (ht : t.isFinite = true)
    (hle : c.noiseThreshold ≤ t) (period : Int) (values : Option Float × Option Float) :
    { c with noiseThreshold := t }.judge period values =
      (c.judge period values).heldAgainst t := by
  have hoperands : { c with noiseThreshold := t }.operands values.1 values.2 =
      c.operands values.1 values.2 := rfl
  unfold VarianceConfig.judge
  rw [hoperands]
  cases c.operands values.1 values.2 with
  | none => rfl
  | some p =>
    obtain ⟨b, v⟩ := p
    have hdelta : { c with noiseThreshold := t }.delta b v = c.delta b v := rfl
    by_cases hbelow : (c.delta b v).abs < c.noiseThreshold
    · have hbelow' : (c.delta b v).abs < t :=
        lt_of_lt_le (isNaN_of_isFinite hc) (isNaN_of_isFinite ht) hbelow hle
      simp only [hdelta, if_pos hbelow, if_pos hbelow', Verdict.heldAgainst]
    · simp only [hdelta, if_neg hbelow, Verdict.heldAgainst]

private theorem reportOn_leaveOut (hc : c.noiseThreshold.isFinite = true) (ht : t.isFinite = true)
    (hle : c.noiseThreshold ≤ t) (base compare : List Observation) :
    { c with noiseThreshold := t }.reportOn base compare =
      (c.reportOn base compare).leaveOut t := by
  have hjudge := funext fun p : Int × Option Float × Option Float =>
    judge_heldAgainst hc ht hle p.1 p.2
  rw [VarianceConfig.reportOn, VarianceConfig.reportOn, hjudge, ← ofVerdicts_heldAgainst,
    List.map_map]
  rfl

end Thresholds

def periodsOf (l : List Observation) : Finset Int := (l.map Observation.period).toFinset

private theorem lastValue_eq_none_iff_notMem {l : List Observation} {period : Int} :
    lastValue l period = none ↔ period ∉ periodsOf l := by
  rw [lastValue_eq_none_iff, periodsOf, List.mem_toFinset, List.mem_map]
  push Not
  rfl

private theorem eitherPeriod_eq_union (base compare : List Observation) :
    eitherPeriod base compare = periodsOf base ∪ periodsOf compare := by
  rw [eitherPeriod, List.map_append, List.toFinset_append, periodsOf, periodsOf]

section Policies

variable (c : VarianceConfig) {base compare : List Observation} {period : Int}

private theorem drops_skip_iff : { c with missing := .skip }.Drops base compare period ↔
    period ∉ periodsOf base ∩ periodsOf compare := by
  unfold VarianceConfig.Drops
  rw [lastValue_eq_none_iff_notMem, lastValue_eq_none_iff_notMem, Finset.mem_inter, not_and_or,
    and_iff_right rfl]

private theorem not_drops_zero : ¬ { c with missing := .zero }.Drops base compare period :=
  fun h => nomatch h.1

private theorem dropped_eq_symmDiff : {period ∈ eitherPeriod base compare |
    { c with missing := .skip }.Drops base compare period} =
      symmDiff (periodsOf base) (periodsOf compare) := by
  ext period
  rw [Finset.mem_filter, drops_skip_iff, eitherPeriod_eq_union, Finset.mem_symmDiff,
    Finset.mem_union, Finset.mem_inter]
  tauto

variable (base compare)

private theorem points_skip : ({ c with missing := .skip }.reportOn base compare).points =
    ({ c with missing := .zero }.reportOn base compare).points.filter fun x =>
      x.period ∈ periodsOf base ∩ periodsOf compare := by
  rw [VarianceConfig.reportOn, VarianceConfig.reportOn, report_align, report_align,
    List.filter_map, List.filter_filter]
  refine congrArg (List.map _) (List.filter_congr fun period _ => ?_)
  rw [Bool.eq_iff_iff, Bool.and_eq_true, Function.comp_apply, decide_eq_true_iff,
    decide_eq_true_iff, decide_eq_true_iff, drops_skip_iff, not_not,
    and_iff_right (not_drops_zero c)]
  rfl

private theorem skipped_skip : ({ c with missing := .skip }.reportOn base compare).skipped =
    (symmDiff (periodsOf base) (periodsOf compare)).card := by
  rw [VarianceConfig.reportOn, report_align, ← dropped_eq_symmDiff c]
  exact countP_sort _ _

private theorem skipped_zero : ({ c with missing := .zero }.reportOn base compare).skipped = 0 := by
  rw [VarianceConfig.reportOn, report_align]
  exact List.countP_eq_zero.2 fun period _ => by simpa using not_drops_zero c

end Policies

/-- A greater threshold takes away the points whose differences are below it and adds their number
to what is left out.  Where missing values are not filled with zeros, the points are those of the
periods of both lists, and the periods of one list only are dropped.  Every threshold that is not
accepted is refused, whatever the other settings are. -/
theorem settings_act_separately (base compare : List Observation) (c : VarianceConfig) :
    (∀ t t' : Float, 0.0 ≤ t → t ≤ t' → t'.isFinite = true →
      ∃ r, computeVariance base compare { c with noiseThreshold := t } = .ok r ∧
        computeVariance base compare { c with noiseThreshold := t' } = .ok (r.leaveOut t')) ∧
    (c.noiseThreshold.isFinite = true ∧ 0.0 ≤ c.noiseThreshold →
      ∃ s z, computeVariance base compare { c with missing := .skip } = .ok s ∧
        computeVariance base compare { c with missing := .zero } = .ok z ∧
        s.points = z.points.filter (fun x => x.period ∈ periodsOf base ∩ periodsOf compare) ∧
        s.skipped = (symmDiff (periodsOf base) (periodsOf compare)).card ∧ z.skipped = 0) ∧
    (¬ (c.noiseThreshold.isFinite = true ∧ 0.0 ≤ c.noiseThreshold) →
      ∀ missing, computeVariance base compare { c with missing } =
        .error (.invalidParameter .noiseThreshold)) := by
  refine ⟨fun t t' hnonneg hle ht' => ?_, fun h => ?_, fun h missing => ?_⟩
  · have hzero : (0.0 : Float).isFinite = true := by decide +kernel
    have ht := isFinite_of_between hzero ht' hnonneg hle
    let lower : VarianceConfig := { c with noiseThreshold := t }
    let upper : VarianceConfig := { c with noiseThreshold := t' }
    have hlower : VarianceConfig.validThreshold lower.noiseThreshold = true :=
      validThreshold_iff.2 ⟨ht, hnonneg⟩
    have hupper : VarianceConfig.validThreshold upper.noiseThreshold = true :=
      validThreshold_of_le hlower ht' hle
    have hreport : upper.reportOn base compare = (lower.reportOn base compare).leaveOut t' :=
      reportOn_leaveOut (c := lower) ht ht' hle base compare
    refine ⟨lower.reportOn base compare, computeVariance_eq_reportOn hlower base compare, ?_⟩
    rw [← hreport]
    exact computeVariance_eq_reportOn hupper base compare
  · have hvalid := validThreshold_iff.2 h
    exact ⟨_, _, computeVariance_eq_reportOn (c := { c with missing := .skip }) hvalid base compare,
      computeVariance_eq_reportOn (c := { c with missing := .zero }) hvalid base compare,
      points_skip c base compare, skipped_skip c base compare, skipped_zero c base compare⟩
  · have hinvalid : VarianceConfig.validThreshold c.noiseThreshold = false := by
      rw [← validThreshold_iff] at h
      exact Bool.eq_false_of_not_eq_true h
    rw [computeVariance, Forecaster.validate_of_invalid (c := { c with missing }) hinvalid]
    rfl

/-- Two values at one period, a difference between the two thresholds, one that is out of range, one
that is not a number, and a period of each list alone. -/
theorem settings_act_separately_on_six_periods :
    let base : List Observation :=
      [⟨2, 20.0⟩, ⟨1, 10.0⟩, ⟨2, 5.0⟩, ⟨3, -1.7e308⟩, ⟨4, 1.0 / 0.0⟩, ⟨6, 1.0⟩]
    let compare : List Observation :=
      [⟨4, 1.0 / 0.0⟩, ⟨3, 1.7e308⟩, ⟨2, 5.5⟩, ⟨1, 8.0⟩, ⟨5, 0.5⟩]
    let c : VarianceConfig := { noiseThreshold := 0.25 }
    (∃ r, computeVariance base compare c = .ok r ∧
      computeVariance base compare { c with noiseThreshold := 1.0 } = .ok (r.leaveOut 1.0) ∧
      r.points.map (fun x => (x.period, x.delta)) =
        [(1, -2.0), (2, 0.5), (3, 1.0 / 0.0), (4, 0.0 / 0.0)] ∧
      ((r.leaveOut 1.0).points.map VariancePoint.period, (r.leaveOut 1.0).suppressed) =
        ([1, 3, 4], 1)) ∧
    (∃ s z, computeVariance base compare c = .ok s ∧
      computeVariance base compare { c with missing := .zero } = .ok z ∧
      s.points = z.points.filter (fun x => x.period ∈ periodsOf base ∩ periodsOf compare) ∧
      z.points.map VariancePoint.period = [1, 2, 3, 4, 5, 6] ∧ s.skipped = 2 ∧ z.skipped = 0) ∧
    computeVariance base compare { noiseThreshold := -1.0, missing := .zero } =
      .error (.invalidParameter .noiseThreshold) := by
  intro base compare c
  have horder : (0.0 : Float) ≤ 0.25 ∧ (0.25 : Float) ≤ 1.0 ∧ (1.0 : Float).isFinite = true := by
    decide +kernel
  have haccepted : (0.25 : Float).isFinite = true ∧ (0.0 : Float) ≤ 0.25 := by decide +kernel
  have hrefused : ¬ ((-1.0 : Float).isFinite = true ∧ (0.0 : Float) ≤ -1.0) := by decide +kernel
  obtain ⟨hthresholds, hpolicies, -⟩ := settings_act_separately base compare c
  obtain ⟨r, hr, hr'⟩ := hthresholds 0.25 1.0 horder.1 horder.2.1 horder.2.2
  obtain ⟨s, z, hs, hz, hpoints, hskipped, hfilled⟩ := hpolicies haccepted
  have hrun : (computeVariance base compare c).toOption.map (fun r =>
      (r.points.map (fun x => (x.period, x.delta)),
        (r.leaveOut 1.0).points.map VariancePoint.period, (r.leaveOut 1.0).suppressed)) =
      some ([(1, -2.0), (2, 0.5), (3, 1.0 / 0.0), (4, 0.0 / 0.0)], [1, 3, 4], 1) := by
    decide +kernel
  have hzeros : (computeVariance base compare { c with missing := .zero }).toOption.map (fun z =>
      z.points.map VariancePoint.period) = some [1, 2, 3, 4, 5, 6] := by decide +kernel
  rw [show computeVariance base compare c = .ok r from hr] at hrun
  rw [hz] at hzeros
  obtain ⟨hdeltas, hraised⟩ := Prod.mk.inj (Option.some.inj hrun)
  exact ⟨⟨r, hr, hr', hdeltas, hraised⟩,
    ⟨s, z, hs, hz, hpoints, Option.some.inj hzeros, hskipped.trans (by decide), hfilled⟩,
    (settings_act_separately base compare { noiseThreshold := -1.0 }).2.2 hrefused .zero⟩

end LagForecast
