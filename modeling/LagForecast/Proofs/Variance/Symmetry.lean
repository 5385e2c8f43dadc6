import LagForecast.Proofs.Number.Negation
import LagForecast.Proofs.Variance.Finiteness

/-!
# Comparisons the other way round

The direction of a comparison gives every difference its sign and nothing else: the size that is
held against the threshold does not depend on it, and the difference relative to the base changes
its sign with the difference.  With the two lists exchanged and the direction flipped the same
differences are found, but for zeros, which may have either sign.
-/

set_option autoImplicit false

namespace LagForecast

def Direction.flipped : Direction → Direction
  | favorable => adverse
  | adverse => favorable

def VarianceConfig.flipped (c : VarianceConfig) : VarianceConfig :=
  { c with direction := c.direction.flipped }

def VariancePoint.negated (x : VariancePoint) : VariancePoint :=
  { x with delta := -x.delta, percent := x.percent.map fun p => -p }

def VarianceReport.negated (r : VarianceReport) : VarianceReport :=
  { r with points := r.points.map VariancePoint.negated }

/-- A point of the same period and difference, whose values are exchanged. -/
structure VariancePoint.Exchanged (x y : VariancePoint) : Prop where
  period : y.period = x.period
  base : y.base = x.compare
  compare : y.compare = x.base
  delta : (y.delta == x.delta) = true

private theorem Direction.sign_flipped (d : Direction) : d.flipped.sign = -d.sign := by
  cases d with
  | favorable => rfl
  | adverse => decide +kernel

section Periods

variable {base compare : List Observation} (c : VarianceConfig) (period : Int)

private theorem deltaAt_flipped :
    c.flipped.deltaAt base compare period = -c.deltaAt base compare period := by
  unfold VarianceConfig.deltaAt
  rw [VarianceConfig.flipped, Direction.sign_flipped, mul_neg_eq]

private theorem suppresses_flipped :
    c.flipped.Suppresses base compare period ↔ c.Suppresses base compare period := by
  unfold VarianceConfig.Suppresses
  rw [deltaAt_flipped, abs_neg_eq]
  rfl

private theorem pointAt_flipped :
    c.flipped.pointAt base compare period = (c.pointAt base compare period).negated := by
  have houtput : c.flipped.outputPercent = c.outputPercent := rfl
  unfold VarianceConfig.pointAt VariancePoint.negated
  rw [deltaAt_flipped, neg_div_eq, houtput]
  dsimp only
  rw [apply_ite (Option.map fun p : Float => -p)]
  rfl

private theorem drops_exchanged :
    c.flipped.Drops compare base period ↔ c.Drops base compare period :=
  and_congr_right fun _ => or_comm

private theorem deltaAt_exchanged :
    Alike (c.flipped.deltaAt compare base period) (c.deltaAt base compare period) := by
  unfold VarianceConfig.deltaAt
  rw [VarianceConfig.flipped, Direction.sign_flipped, ← neg_mul_neg_eq (_ - _) c.direction.sign]
  exact (sub_swap_alike _ _).mul_right _

private theorem suppresses_exchanged :
    c.flipped.Suppresses compare base period ↔ c.Suppresses base compare period :=
  (deltaAt_exchanged c period).abs.lt_iff (Alike.refl c.noiseThreshold)

variable {c period}

private theorem isNaN_deltaAt (hbase : ∀ o ∈ base, o.value.isFinite = true)
    (hcompare : ∀ o ∈ compare, o.value.isFinite = true) :
    (c.deltaAt base compare period).isNaN = false := by
  have hdifference := isNaN_sub (isFinite_filledValue hcompare period)
    (isFinite_filledValue hbase period)
  unfold VarianceConfig.deltaAt
  cases c.direction with
  | favorable => exact isNaN_mul_of_finite hdifference ⟨.positive, _, _, by decide, rfl⟩
  | adverse => exact isNaN_mul_of_finite hdifference ⟨.negative, _, _, by decide, rfl⟩

private theorem pointAt_exchanged (hbase : ∀ o ∈ base, o.value.isFinite = true)
    (hcompare : ∀ o ∈ compare, o.value.isFinite = true) :
    (c.pointAt base compare period).Exchanged (c.flipped.pointAt compare base period) where
  period := rfl
  base := rfl
  compare := rfl
  delta := (deltaAt_exchanged c period).beq_of_not_isNaN (isNaN_deltaAt hcompare hbase)

end Periods

section Reports

variable {base compare : List Observation} {c : VarianceConfig}

private theorem eitherPeriod_comm (base compare : List Observation) :
    eitherPeriod compare base = eitherPeriod base compare := by
  ext period
  rw [mem_eitherPeriod, mem_eitherPeriod, and_comm]

private theorem computeVariance_flipped (hc : VarianceConfig.validThreshold c.noiseThreshold = true)
    {r : VarianceReport} (hr : computeVariance base compare c = .ok r) :
    computeVariance base compare c.flipped = .ok r.negated := by
  have hdrops (period : Int) :
      c.flipped.Drops base compare period ↔ c.Drops base compare period := Iff.rfl
  rw [computeVariance_of_valid hc, report_align] at hr
  obtain rfl := Except.ok.inj hr
  have hpoint : c.flipped.pointAt base compare =
      VariancePoint.negated ∘ c.pointAt base compare := funext (pointAt_flipped c)
  rw [computeVariance_of_valid (c := c.flipped) hc, report_align]
  simp only [hdrops, suppresses_flipped, hpoint, VarianceReport.negated, List.map_map]

private theorem computeVariance_exchanged
    (hc : VarianceConfig.validThreshold c.noiseThreshold = true)
    (hfinite : ∀ o ∈ base ++ compare, o.value.isFinite = true) {r : VarianceReport}
    (hr : computeVariance base compare c = .ok r) :
    ∃ r', computeVariance compare base c.flipped = .ok r' ∧ r'.skipped = r.skipped ∧
      r'.suppressed = r.suppressed ∧
      List.Forall₂ VariancePoint.Exchanged r.points r'.points := by
  have hbase : ∀ o ∈ base, o.value.isFinite = true := fun o ho =>
    hfinite o (List.mem_append_left compare ho)
  have hcompare : ∀ o ∈ compare, o.value.isFinite = true := fun o ho =>
    hfinite o (List.mem_append_right base ho)
  rw [computeVariance_of_valid hc, report_align] at hr
  obtain rfl := Except.ok.inj hr
  refine ⟨_, computeVariance_of_valid (c := c.flipped) hc, ?_⟩
  rw [report_align, eitherPeriod_comm]
  simp only [drops_exchanged, suppresses_exchanged, true_and]
  rw [List.forall₂_map_left_iff, List.forall₂_map_right_iff, List.forall₂_same]
  exact fun period _ => pointAt_exchanged hbase hcompare

end Reports

/-- Flipping the direction of a comparison negates every difference, absolute and relative, and
leaves all else as it is.  Exchanging the two lists as well leaves the differences as they are, as
numbers, and exchanges the two values of each point. -/
theorem comparison_is_symmetric (base compare : List Observation) (c : VarianceConfig)
    (hc : c.noiseThreshold.isFinite = true ∧ 0.0 ≤ c.noiseThreshold)
    (hfinite : ∀ o ∈ base ++ compare, o.value.isFinite = true) :
    ∃ r r', computeVariance base compare c = .ok r ∧
      computeVariance base compare c.flipped = .ok r.negated ∧
      computeVariance compare base c.flipped = .ok r' ∧
      r'.skipped = r.skipped ∧ r'.suppressed = r.suppressed ∧
      List.Forall₂ VariancePoint.Exchanged r.points r'.points := by
  have hvalid := validThreshold_iff.2 hc
  have hr : computeVariance base compare c = .ok _ := computeVariance_of_valid hvalid
  obtain ⟨r', hr', hcounts⟩ := computeVariance_exchanged hvalid hfinite hr
  exact ⟨_, r', hr, computeVariance_flipped hvalid hr, hr', hcounts⟩

/-- A period of one list only, a difference below the threshold, and one that is out of range. -/
theorem comparison_is_symmetric_of_three_periods :
    let base : List Observation := [⟨1, 10.0⟩, ⟨2, 5.0⟩, ⟨3, -1.7e308⟩, ⟨4, 1.0⟩]
    let compare : List Observation := [⟨3, 1.7e308⟩, ⟨2, 5.5⟩, ⟨1, 8.0⟩]
    let c : VarianceConfig := { noiseThreshold := 1.0 }
    ∃ r, computeVariance base compare c = .ok r ∧
      r.points.map (fun x => (x.period, x.delta)) = [(1, -2.0), (3, 1.0 / 0.0)] ∧
      computeVariance base compare c.flipped = .ok r.negated ∧ r.skipped = 1 ∧
      r.suppressed = 1 ∧
      ∃ r', computeVariance compare base c.flipped = .ok r' ∧
        List.Forall₂ VariancePoint.Exchanged r.points r'.points := by
  intro base compare c
  have hthreshold : (1.0 : Float).isFinite = true ∧ (0.0 : Float) ≤ 1.0 := by decide +kernel
  have hfinite : ∀ o ∈ base ++ compare, o.value.isFinite = true := by
    simp only [base, compare, List.cons_append, List.nil_append, List.forall_mem_cons]
    decide +kernel
  have hrun : (computeVariance base compare c).toOption.map (fun r =>
      (r.points.map (fun x => (x.period, x.delta)), r.skipped, r.suppressed)) =
      some ([(1, -2.0), (3, 1.0 / 0.0)], 1, 1) := by decide +kernel
  obtain ⟨r, r', hr, hflipped, hexchanged, -, -, hpoints⟩ :=
    comparison_is_symmetric base compare c hthreshold hfinite
  rw [hr] at hrun
  obtain ⟨hdeltas, hcounts⟩ := Prod.mk.inj (Option.some.inj hrun)
  obtain ⟨hskipped, hsuppressed⟩ := Prod.mk.inj hcounts
  exact ⟨r, hr, hdeltas, hflipped, hskipped, hsuppressed, r', hexchanged, hpoints⟩

end LagForecast
