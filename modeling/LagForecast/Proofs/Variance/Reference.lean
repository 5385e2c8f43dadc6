import LagForecast.Proofs.Forecast.Service
import LagForecast.Proofs.Number.Order

/-!
# What a comparison reports

A comparison reports on every period at which one of two lists has an observation, on each of them
in one of three ways: the period is dropped, its difference is left out, or it has a point.  All
that matters of a list is the last value that it has at each period, so two lists that are the same
at every period are compared alike.
-/

set_option autoImplicit false

namespace LagForecast

private theorem eq_of_increasing {α : Type} (key : α → Int) {l l' : List α}
    (h : l.Pairwise fun a b => key a < key b) (h' : l'.Pairwise fun a b => key a < key b)
    (hmem : ∀ a, a ∈ l ↔ a ∈ l') : l = l' := by
  have hnodup {m : List α} (hm : m.Pairwise fun a b => key a < key b) : m.Nodup :=
    hm.imp fun hlt heq => hlt.ne (congrArg key heq)
  have hperm := (List.perm_ext_iff_of_nodup (hnodup h) (hnodup h')).2 hmem
  exact hperm.eq_of_pairwise (fun a b _ _ hab hba => absurd hba hab.asymm) h h'

/-- The value of the last observation of a list at a period. -/
def lastValue (l : List Observation) (period : Int) : Option Float :=
  ((l.filter fun o => o.period = period).getLast?).map Observation.value

def filledValue (l : List Observation) (period : Int) : Float := (lastValue l period).getD 0.0

def eitherPeriod (base compare : List Observation) : Finset Int :=
  ((base ++ compare).map Observation.period).toFinset

/-- The two lists have the same observations, and at every period in the same order. -/
def SameAtEachPeriod (l l' : List Observation) : Prop :=
  ∀ period, (l.filter fun o => o.period = period) = l'.filter fun o => o.period = period

theorem lastValue_eq_none_iff {l : List Observation} {period : Int} :
    lastValue l period = none ↔ ∀ o ∈ l, o.period ≠ period := by
  simp [lastValue]

private theorem SameAtEachPeriod.lastValue_eq {l l' : List Observation}
    (h : SameAtEachPeriod l l') : lastValue l = lastValue l' := by
  funext period
  rw [lastValue, h period, lastValue]

private theorem find?_byPeriod (l : List Observation) (period : Int) :
    (byPeriod l).find? period = lastValue l period := by
  rw [byPeriod, OrderedMap.find?_ofList, List.filter_map, List.getLast?_map, Option.map_map,
    lastValue]
  have hkey : (fun p : Int × Float => compare period p.1 == .eq) ∘
      (fun o : Observation => (o.period, o.value)) = fun o => decide (o.period = period) := by
    funext o
    rw [Function.comp_apply, Bool.eq_iff_iff, beq_iff_eq, Std.LawfulEqOrd.compare_eq_iff_eq,
      decide_eq_true_iff, eq_comm]
  rw [hkey]
  rfl

theorem mem_eitherPeriod {base compare : List Observation} {period : Int} :
    period ∈ eitherPeriod base compare ↔
      ¬ (lastValue base period = none ∧ lastValue compare period = none) := by
  simp only [eitherPeriod, lastValue_eq_none_iff, List.mem_toFinset, List.mem_map, List.mem_append]
  constructor
  · rintro ⟨o, ho | ho, rfl⟩ ⟨hbase, hcompare⟩
    · exact hbase o ho rfl
    · exact hcompare o ho rfl
  · intro h
    by_contra hnone
    exact h ⟨fun o ho hp => hnone ⟨o, Or.inl ho, hp⟩, fun o ho hp => hnone ⟨o, Or.inr ho, hp⟩⟩

private theorem entries_align (base compare : List Observation) :
    (align base compare).entries = ((eitherPeriod base compare).sort (· ≤ ·)).map fun period =>
      (period, lastValue base period, lastValue compare period) := by
  apply eq_of_increasing Prod.fst
  · exact (align base compare).increasing.imp fun h => compare_lt_iff_lt.1 h
  · rw [List.pairwise_map]
    exact (eitherPeriod base compare).sortedLT_sort.pairwise
  · rintro ⟨period, sides⟩
    rw [← OrderedMap.find?_eq_some_iff, align, OrderedMap.find?_join, find?_byPeriod,
      find?_byPeriod]
    simp only [List.mem_map, Finset.mem_sort, mem_eitherPeriod, Prod.mk.injEq]
    cases hb : lastValue base period <;> cases hc : lastValue compare period <;>
      simp [OrderedMap.sides, hb, hc]

private theorem SameAtEachPeriod.align_eq {base base' compare compare' : List Observation}
    (hb : SameAtEachPeriod base base') (hc : SameAtEachPeriod compare compare') :
    align base compare = align base' compare' := by
  apply OrderedMap.ext_find?
  intro period
  simp only [align, OrderedMap.find?_join, find?_byPeriod, hb.lastValue_eq, hc.lastValue_eq]

namespace VarianceConfig

section Periods

variable (c : VarianceConfig) (base compare : List Observation) (period : Int)

/-- One of the lists has no value at the period, and such periods are dropped. -/
def Drops : Prop :=
  c.missing = .skip ∧ (lastValue base period = none ∨ lastValue compare period = none)

def deltaAt : Float :=
  (filledValue compare period - filledValue base period) * c.direction.sign

/-- The difference at a period is too small to have a point. -/
def Suppresses : Prop := (c.deltaAt base compare period).abs < c.noiseThreshold

def pointAt : VariancePoint where
  period
  base := filledValue base period
  compare := filledValue compare period
  delta := c.deltaAt base compare period
  percent :=
    if c.outputPercent = true ∧ (filledValue base period != 0.0) = true then
      some (c.deltaAt base compare period / filledValue base period)
    else none

instance : Decidable (c.Drops base compare period) := inferInstanceAs (Decidable (_ ∧ _))

instance : Decidable (c.Suppresses base compare period) := inferInstanceAs (Decidable (_ < _))

variable {c base compare period}

private theorem operands_of_drops (h : c.Drops base compare period) :
    c.operands (lastValue base period) (lastValue compare period) = none := by
  obtain ⟨hskip, hb | hc⟩ := h
  · unfold operands
    rw [hb, hskip]
  · unfold operands
    rw [hc, hskip]
    cases lastValue base period <;> rfl

private theorem operands_of_not_drops (h : ¬ c.Drops base compare period) :
    c.operands (lastValue base period) (lastValue compare period) =
      some (filledValue base period, filledValue compare period) := by
  unfold Drops at h
  unfold operands filledValue
  cases hb : lastValue base period <;> cases hc : lastValue compare period <;>
    cases hm : c.missing <;> simp_all

variable (c base compare period)

private theorem judge_eq :
    c.judge period (lastValue base period, lastValue compare period) =
      if c.Drops base compare period then .skipped
      else if c.Suppresses base compare period then .suppressed
      else .point (c.pointAt base compare period) := by
  unfold judge
  split_ifs with hdrops hsuppresses
  · rw [operands_of_drops hdrops]
  · rw [operands_of_not_drops hdrops]
    exact if_pos hsuppresses
  · rw [operands_of_not_drops hdrops]
    refine (if_neg hsuppresses).trans ?_
    simp only [pointAt, Bool.and_eq_true]
    rfl

end Periods

end VarianceConfig

section Report

variable (base compare : List Observation) (c : VarianceConfig)

/-- A report that counts every period of two lists once, in one of the three ways. -/
structure IsComparison (r : VarianceReport) : Prop where
  unnamed : r.baseSeries = none ∧ r.compareSeries = none
  increasing : r.points.Pairwise fun x y => x.period < y.period
  mem_points : ∀ x, x ∈ r.points ↔ ∃ period ∈ eitherPeriod base compare,
    ¬ c.Drops base compare period ∧ ¬ c.Suppresses base compare period ∧
      x = c.pointAt base compare period
  skipped : r.skipped = {period ∈ eitherPeriod base compare | c.Drops base compare period}.card
  suppressed : r.suppressed = {period ∈ eitherPeriod base compare |
    ¬ c.Drops base compare period ∧ c.Suppresses base compare period}.card
  total : r.points.length + r.skipped + r.suppressed = (eitherPeriod base compare).card

variable {base compare c}

private theorem IsComparison.unique {r r' : VarianceReport} (h : IsComparison base compare c r)
    (h' : IsComparison base compare c r') : r = r' := by
  obtain ⟨series, series', points, skipped, suppressed⟩ := r
  obtain ⟨named, named', points', skipped', suppressed'⟩ := r'
  obtain ⟨rfl, rfl⟩ := h.unnamed
  obtain ⟨rfl, rfl⟩ := h'.unnamed
  obtain rfl : skipped = skipped' := h.skipped.trans h'.skipped.symm
  obtain rfl : suppressed = suppressed' := h.suppressed.trans h'.suppressed.symm
  obtain rfl : points = points' := eq_of_increasing VariancePoint.period
    h.increasing h'.increasing fun x =>
    (h.mem_points x).trans (h'.mem_points x).symm
  rfl

variable (base compare c)

private theorem ofVerdicts_eq (periods : List Int) :
    VarianceReport.ofVerdicts (periods.map fun period =>
        c.judge period (lastValue base period, lastValue compare period)) = {
      points := (periods.filter fun period =>
        ¬ c.Drops base compare period ∧ ¬ c.Suppresses base compare period).map
          (c.pointAt base compare)
      skipped := periods.countP (c.Drops base compare ·)
      suppressed := periods.countP fun period =>
        ¬ c.Drops base compare period ∧ c.Suppresses base compare period } := by
  induction periods with
  | nil => rfl
  | cons period rest ih =>
    rw [List.map_cons, VarianceReport.ofVerdicts, List.foldr_cons, ← VarianceReport.ofVerdicts, ih,
      c.judge_eq base compare period]
    by_cases hdrops : c.Drops base compare period
    · simp [VarianceReport.record, hdrops]
    · by_cases hsuppresses : c.Suppresses base compare period <;>
        simp [VarianceReport.record, hdrops, hsuppresses]

private theorem total_ofVerdicts (l : List Verdict) :
    (VarianceReport.ofVerdicts l).points.length + (VarianceReport.ofVerdicts l).skipped +
      (VarianceReport.ofVerdicts l).suppressed = l.length := by
  induction l with
  | nil => rfl
  | cons v rest ih =>
    rw [VarianceReport.ofVerdicts, List.foldr_cons, ← VarianceReport.ofVerdicts, List.length_cons,
      ← ih]
    cases v <;> simp only [VarianceReport.record, List.length_cons] <;> omega

theorem countP_sort (s : Finset Int) (P : Int → Prop) [DecidablePred P] :
    (s.sort (· ≤ ·)).countP (fun i => P i) = {i ∈ s | P i}.card := by
  rw [List.countP_eq_length_filter, ← List.toFinset_card_of_nodup ((s.sort_nodup _).filter _),
    List.toFinset_filter, s.sort_toFinset]
  simp only [decide_eq_true_eq]

theorem report_align :
    VarianceReport.ofVerdicts ((align base compare).entries.map fun p => c.judge p.1 p.2) = {
      points := (((eitherPeriod base compare).sort (· ≤ ·)).filter fun period =>
        ¬ c.Drops base compare period ∧ ¬ c.Suppresses base compare period).map
          (c.pointAt base compare)
      skipped := ((eitherPeriod base compare).sort (· ≤ ·)).countP (c.Drops base compare ·)
      suppressed := ((eitherPeriod base compare).sort (· ≤ ·)).countP fun period =>
        ¬ c.Drops base compare period ∧ c.Suppresses base compare period } := by
  rw [entries_align, List.map_map]
  exact ofVerdicts_eq base compare c _

theorem isComparison_of_align : IsComparison base compare c
    (.ofVerdicts ((align base compare).entries.map fun p => c.judge p.1 p.2)) := by
  have htotal := total_ofVerdicts ((align base compare).entries.map fun p => c.judge p.1 p.2)
  have hlength : ((align base compare).entries.map fun p => c.judge p.1 p.2).length =
      (eitherPeriod base compare).card := by
    rw [entries_align, List.map_map, List.length_map, Finset.length_sort]
  refine ⟨?_, ?_, ?_, ?_, ?_, htotal.trans hlength⟩ <;> rw [report_align]
  · exact ⟨rfl, rfl⟩
  · rw [List.pairwise_map]
    exact (eitherPeriod base compare).sortedLT_sort.pairwise.filter _
  · intro x
    simp only [List.mem_map, List.mem_filter, Finset.mem_sort, decide_eq_true_eq]
    constructor
    · rintro ⟨period, ⟨hperiod, hdrops, hsuppresses⟩, rfl⟩
      exact ⟨period, hperiod, hdrops, hsuppresses, rfl⟩
    · rintro ⟨period, hperiod, hdrops, hsuppresses, rfl⟩
      exact ⟨period, ⟨hperiod, hdrops, hsuppresses⟩, rfl⟩
  · exact countP_sort _ _
  · exact countP_sort _ _

end Report

theorem validThreshold_iff {t : Float} :
    VarianceConfig.validThreshold t = true ↔ t.isFinite = true ∧ 0.0 ≤ t := by
  have hzero : (0.0 : Float).isNaN = false := by decide +kernel
  rw [VarianceConfig.validThreshold, Bool.and_eq_true, Bool.not_eq_true', decide_eq_false_iff_not]
  refine and_congr_right fun ht => ?_
  have hnumber := isNaN_of_isFinite ht
  rw [lt_iff_rank_lt hnumber hzero, le_iff_rank_le hzero hnumber, not_lt]

theorem computeVariance_of_valid {base compare : List Observation} {c : VarianceConfig}
    (h : VarianceConfig.validThreshold c.noiseThreshold = true) :
    computeVariance base compare c =
      .ok (.ofVerdicts ((align base compare).entries.map fun p => c.judge p.1 p.2)) := by
  rw [computeVariance, Forecaster.validate_of_valid h]
  rfl

/-- With a threshold that is finite and not below zero, two lists are compared in the one report
that counts each of their periods once; lists that are the same at every period are compared alike;
and every other threshold is refused. -/
theorem comparison_counts_each_period (base compare : List Observation) (c : VarianceConfig) :
    (c.noiseThreshold.isFinite = true ∧ 0.0 ≤ c.noiseThreshold →
      ∃ r, computeVariance base compare c = .ok r ∧
        ∀ r', IsComparison base compare c r' ↔ r' = r) ∧
    (¬ (c.noiseThreshold.isFinite = true ∧ 0.0 ≤ c.noiseThreshold) →
      computeVariance base compare c = .error (.invalidParameter .noiseThreshold)) ∧
    ∀ base' compare', SameAtEachPeriod base base' → SameAtEachPeriod compare compare' →
      computeVariance base' compare' c = computeVariance base compare c := by
  refine ⟨fun h => ?_, fun h => ?_, fun base' compare' hb hc => ?_⟩
  · have hreport := isComparison_of_align base compare c
    refine ⟨_, computeVariance_of_valid (validThreshold_iff.2 h), fun r' => ⟨fun h' => ?_, ?_⟩⟩
    · exact h'.unique hreport
    · rintro rfl
      exact hreport
  · have hinvalid : VarianceConfig.validThreshold c.noiseThreshold = false := by
      rw [← validThreshold_iff] at h
      exact Bool.eq_false_of_not_eq_true h
    rw [computeVariance, Forecaster.validate_of_invalid hinvalid]
    rfl
  · rw [computeVariance, computeVariance, hb.align_eq hc]

/-- The base has two values at its second period, the other list has no value at the first and one
more at a third: one point, made from the later value, and two periods that are dropped. -/
theorem comparison_counts_each_period_of_three_periods :
    let base : List Observation := [⟨2, 20.0⟩, ⟨1, 10.0⟩, ⟨2, 25.0⟩]
    let compare : List Observation := [⟨3, 7.0⟩, ⟨2, 30.0⟩]
    ∃ r, computeVariance base compare {} = .ok r ∧ IsComparison base compare {} r ∧
      r.points.map (fun x => (x.period, x.delta, x.percent)) = [(2, 5.0, some 0.2)] ∧
      r.skipped = 2 ∧ r.suppressed = 0 := by
  intro base compare
  have hthreshold : (0.0 : Float).isFinite = true ∧ (0.0 : Float) ≤ 0.0 := by decide +kernel
  obtain ⟨r, hr, hiff⟩ := (comparison_counts_each_period base compare {}).1 hthreshold
  have hrun : (computeVariance base compare {}).toOption.map (fun r =>
      (r.points.map (fun x => (x.period, x.delta, x.percent)), r.skipped, r.suppressed)) =
      some ([(2, 5.0, some 0.2)], 2, 0) := by decide +kernel
  rw [hr] at hrun
  obtain ⟨hpoints, hcounts⟩ := Prod.mk.inj (Option.some.inj hrun)
  obtain ⟨hskipped, hsuppressed⟩ := Prod.mk.inj hcounts
  exact ⟨r, hr, (hiff r).2 rfl, hpoints, hskipped, hsuppressed⟩

end LagForecast
