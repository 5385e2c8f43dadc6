import LagForecast.Proofs.Number.Overflow
import LagForecast.Proofs.Server.Results
import LagForecast.Proofs.Variance.Reference

/-!
# Differences that are out of range

The values of two histories are finite, but their difference may be greater than every number, and
so may be the difference relative to a base that is close to zero.  Such a difference is infinite.
It has a point like any other, for no threshold is above it, and is written as null: a report with
an infinite difference cannot be read back, and one with an infinite relative difference is read
back without it.
-/

set_option autoImplicit false

namespace LagForecast

open Json (Int64 Nat64 decode)

private theorem lastValue_mem {l : List Observation} {period : Int} {x : Float}
    (h : lastValue l period = some x) : ∃ o ∈ l, o.period = period ∧ o.value = x := by
  obtain ⟨o, ho, rfl⟩ := Option.map_eq_some_iff.1 h
  obtain ⟨hmem, hperiod⟩ := List.mem_filter.1 (List.mem_of_getLast? ho)
  exact ⟨o, hmem, of_decide_eq_true hperiod, rfl⟩

theorem isFinite_filledValue {l : List Observation} (h : ∀ o ∈ l, o.value.isFinite = true)
    (period : Int) : (filledValue l period).isFinite = true := by
  rw [filledValue]
  cases hx : lastValue l period with
  | none => decide +kernel
  | some x =>
    obtain ⟨o, ho, -, rfl⟩ := lastValue_mem hx
    exact h o ho

private theorem isFinite_mul_sign (x : Float) (d : Direction) :
    (x * d.sign).isFinite = x.isFinite := by
  cases d with
  | favorable => exact isFinite_mul_unit (s := .positive) (h := by decide) rfl
  | adverse => exact isFinite_mul_unit (s := .negative) (h := by decide) rfl

private theorem beq_zero_iff {x : Float} (hx : x.isFinite = true) :
    (x == 0.0) = true ↔ exactValue x = 0 := by
  have hzero : (0.0 : Float).isNaN = false := by decide +kernel
  rw [beq_iff_rank_eq (isNaN_of_isFinite hx) hzero, rank, exactValue]
  rcases zero_or_canonical hx with ⟨s, hu⟩ | ⟨s, b, hb, hu⟩ <;> rw [hu]
  · exact iff_of_true rfl rfl
  · refine iff_of_false (fun hrank => ?_) fun hvalue => ?_
    · have hsign := congrArg (fun p => (ofLex p).1) hrank
      cases s <;> cases hsign
    · have habs := abs_unpackedValue s (e := b.exponent) hb.pos
      have hpos : (0 : ℚ) < b.significand := by exact_mod_cast hb.pos
      rw [hvalue, abs_zero] at habs
      exact (mul_pos hpos (zpow_pos two_pos b.exponent)).ne habs

private theorem isFinite_quotient_iff {x y : Float} (hy : y.isFinite = true)
    (hne : (y != 0.0) = true) : (x / y).isFinite = true ↔
      x.isFinite = true ∧ |exactValue x / exactValue y| < overflowBound := by
  have hvalue : exactValue y ≠ 0 := by
    rw [ne_eq, ← beq_zero_iff hy]
    simpa [bne] using hne
  cases hx : x.isFinite with
  | true => rw [isFinite_div_iff hx hy hvalue, and_iff_right rfl]
  | false =>
    rw [isFinite_div_of_nonFinite hx]
    simp

section Periods

variable {base compare : List Observation} (c : VarianceConfig) (period : Int)

private theorem isFinite_deltaAt_iff (hbase : ∀ o ∈ base, o.value.isFinite = true)
    (hcompare : ∀ o ∈ compare, o.value.isFinite = true) :
    (c.deltaAt base compare period).isFinite = true ↔
      |exactValue (filledValue compare period) - exactValue (filledValue base period)| <
        overflowBound := by
  rw [VarianceConfig.deltaAt, isFinite_mul_sign]
  exact isFinite_sub_iff (isFinite_filledValue hcompare period) (isFinite_filledValue hbase period)

end Periods

private theorem Json.float_eq_null_iff {x : Float} : Json.float x = .null ↔ x.isFinite = false := by
  cases hx : x.isFinite with
  | true => exact iff_of_false (Json.float_ne_null hx) (by decide)
  | false =>
    refine iff_of_true ?_ rfl
    rw [Json.float, if_neg (by rw [hx]; exact Bool.false_ne_true)]

private theorem VariancePoint.null_notMem_slots_iff {p : VariancePoint}
    (hb : p.base.isFinite = true) (hc : p.compare.isFinite = true) : some Json.null ∉ p.slots ↔
      p.delta.isFinite = true ∧ ∀ x, p.percent = some x → x.isFinite = true := by
  have hint : Json.null ≠ .int p.period := nofun
  have hfloat (x : Float) : Json.null = .float x ↔ x.isFinite = false :=
    eq_comm.trans Json.float_eq_null_iff
  simp only [slots, List.mem_cons, List.not_mem_nil, or_false, not_or, Option.some.injEq, hint,
    not_false_eq_true, true_and, hfloat, hb, hc, Bool.true_eq_false, Bool.not_eq_false]
  refine and_congr_right fun _ => ?_
  cases p.percent with
  | none => simp
  | some x => simp [hfloat]

namespace VarianceReport

/-- All differences of a report are finite, and so are those relative to a base. -/
def AllFinite (r : VarianceReport) : Prop :=
  ∀ x ∈ r.points, x.delta.isFinite = true ∧ ∀ p, x.percent = some p → p.isFinite = true

def finitePercents (r : VarianceReport) : VarianceReport :=
  { r with points := r.points.map fun x => { x with percent := x.percent.filter Float.isFinite } }

/-- A report with finite values at periods of 64 bits, and counts of 64 bits. -/
structure Compares (r : VarianceReport) : Prop where
  period : ∀ x ∈ r.points, Int64 x.period
  base : ∀ x ∈ r.points, x.base.isFinite = true
  compare : ∀ x ∈ r.points, x.compare.isFinite = true
  skipped : Nat64 r.skipped
  suppressed : Nat64 r.suppressed

variable {r : VarianceReport}

private theorem decode_printed (hr : r.Compares) : decode ofJson (Text.bytes r.toJson.compact) =
    (Json.decodeAll VariancePoint.ofJson (r.points.map VariancePoint.toJson)).map fun points =>
      { r with points } := by
  rw [Json.decode_compact (printable_report r), ofJson_toJson_eq hr.skipped hr.suppressed]

private theorem decode_of_finite (hr : r.Compares)
    (hdelta : ∀ x ∈ r.points, x.delta.isFinite = true) :
    decode ofJson (Text.bytes r.toJson.compact) = .ok r.finitePercents := by
  have hpoints : ∀ x ∈ r.points, VariancePoint.ofJson x.toJson =
      .ok { x with percent := x.percent.filter Float.isFinite } := by
    intro x hx
    rw [VariancePoint.ofJson_toJson_eq (hr.period x hx) (hr.base x hx) (hr.compare x hx),
      Json.toFloat_float (hdelta x hx)]
    rfl
  rw [decode_printed hr, Json.decodeAll_map_of hpoints]
  rfl

private theorem decode_of_nonFinite (hr : r.Compares)
    (hdelta : ∃ x ∈ r.points, x.delta.isFinite = false) :
    decode ofJson (Text.bytes r.toJson.compact) = Json.unreadable := by
  have hpoint : ∀ x ∈ r.points, VariancePoint.ofJson x.toJson = _ := fun x hx =>
    VariancePoint.ofJson_toJson_eq (hr.period x hx) (hr.base x hx) (hr.compare x hx)
  have hbad {x : VariancePoint} (hx : x ∈ r.points) (hfin : x.delta.isFinite = false) :
      VariancePoint.ofJson x.toJson = Json.unreadable := by
    rw [hpoint x hx, Json.toFloat_float_of_nonFinite hfin]
    rfl
  have hall : ∀ x ∈ r.points, (∃ y, VariancePoint.ofJson x.toJson = .ok y) ∨
      VariancePoint.ofJson x.toJson = Json.unreadable := by
    intro x hx
    cases hfin : x.delta.isFinite with
    | true =>
      rw [hpoint x hx, Json.toFloat_float hfin]
      exact Or.inl ⟨_, rfl⟩
    | false => exact Or.inr (hbad hx hfin)
  obtain ⟨x, hx, hfin⟩ := hdelta
  rw [decode_printed hr, Json.decodeAll_map_unreadable hall ⟨x, hx, hbad hx hfin⟩]
  rfl

private theorem finitePercents_of_allFinite (h : r.AllFinite) : r.finitePercents = r := by
  have hpoints : r.points.map (fun x => { x with percent := x.percent.filter Float.isFinite }) =
      r.points := by
    conv_rhs => rw [← List.map_id r.points]
    refine List.map_congr_left fun x hx => ?_
    rw [VariancePoint.filter_isFinite (h x hx).2]
    rfl
  rw [finitePercents, hpoints]

private theorem decode_eq_ok_iff (hr : r.Compares) :
    decode ofJson (Text.bytes r.toJson.compact) = .ok r ↔ r.AllFinite := by
  constructor
  · intro h
    have hwritable := writable_of_ofJson (Json.decode_eq_ok.1 h).1
    exact fun x hx => ⟨(hwritable.points x hx).delta, (hwritable.points x hx).percent⟩
  · intro h
    rw [decode_of_finite hr fun x hx => (h x hx).1, finitePercents_of_allFinite h]

private theorem allFinite_iff_no_null (hr : r.Compares) :
    r.AllFinite ↔ ∀ x ∈ r.points, some Json.null ∉ x.slots :=
  forall₂_congr fun x hx => (VariancePoint.null_notMem_slots_iff (hr.base x hx)
    (hr.compare x hx)).symm

end VarianceReport

section Comparison

variable {base compare : List Observation} {c : VarianceConfig} {r : VarianceReport}

private theorem IsComparison.compares (h : IsComparison base compare c r)
    (hfinite : ∀ o ∈ base ++ compare, o.value.isFinite = true)
    (hcounted : ∀ o ∈ base ++ compare, o.Counted)
    (hsize : Nat64 (base.length + compare.length)) : r.Compares := by
  have hbase := isFinite_filledValue fun o ho => hfinite o (List.mem_append_left compare ho)
  have hcompare := isFinite_filledValue fun o ho => hfinite o (List.mem_append_right base ho)
  have hcard : (eitherPeriod base compare).card ≤ base.length + compare.length := by
    rw [← List.length_append, ← List.length_map Observation.period]
    exact List.toFinset_card_le _
  have htotal := h.total
  refine ⟨fun x hx => ?_, fun x hx => ?_, fun x hx => ?_, ?_, ?_⟩
  · obtain ⟨period, hperiod, -, -, rfl⟩ := (h.mem_points x).1 hx
    obtain ⟨o, ho, rfl⟩ := List.mem_map.1 (List.mem_toFinset.1 hperiod)
    exact hcounted o ho
  · obtain ⟨period, -, -, -, rfl⟩ := (h.mem_points x).1 hx
    exact hbase period
  · obtain ⟨period, -, -, -, rfl⟩ := (h.mem_points x).1 hx
    exact hcompare period
  · have hskipped : r.skipped ≤ base.length + compare.length := by omega
    exact hskipped.trans hsize
  · have hsuppressed : r.suppressed ≤ base.length + compare.length := by omega
    exact hsuppressed.trans hsize

/-- No threshold leaves out a difference that is not finite, so a report has them all. -/
theorem IsComparison.finite_deltas_iff (h : IsComparison base compare c r)
    (hfinite : ∀ o ∈ base ++ compare, o.value.isFinite = true) :
    (∀ x ∈ r.points, x.delta.isFinite = true) ↔
      ∀ period ∈ eitherPeriod base compare, ¬ c.Drops base compare period →
        |exactValue (filledValue compare period) - exactValue (filledValue base period)| <
          overflowBound := by
  have hdelta (period : Int) := isFinite_deltaAt_iff c period
    (fun o ho => hfinite o (List.mem_append_left compare ho))
    (fun o ho => hfinite o (List.mem_append_right base ho))
  constructor
  · intro hall period hperiod hdrops
    rw [← hdelta]
    by_contra hinfinite
    rw [Bool.not_eq_true] at hinfinite
    have hkept : ¬ c.Suppresses base compare period := by
      unfold VarianceConfig.Suppresses
      exact not_abs_lt_of_nonFinite hinfinite c.noiseThreshold
    have hpoint := (h.mem_points (c.pointAt base compare period)).2
      ⟨period, hperiod, hdrops, hkept, rfl⟩
    have hpointFinite := hall (c.pointAt base compare period) hpoint
    rw [VarianceConfig.pointAt, hinfinite] at hpointFinite
    exact Bool.false_ne_true hpointFinite
  · intro hall x hx
    obtain ⟨period, hperiod, hdrops, -, rfl⟩ := (h.mem_points x).1 hx
    exact (hdelta period).2 (hall period hperiod hdrops)

private theorem IsComparison.finite_percent_iff (h : IsComparison base compare c r)
    (hfinite : ∀ o ∈ base, o.value.isFinite = true) :
    ∀ x ∈ r.points, ∀ p, x.percent = some p → (p.isFinite = true ↔
      x.delta.isFinite = true ∧ |exactValue x.delta / exactValue x.base| < overflowBound) := by
  intro x hx p hp
  obtain ⟨period, -, -, -, rfl⟩ := (h.mem_points x).1 hx
  simp only [VarianceConfig.pointAt] at hp ⊢
  split at hp
  next hgiven =>
    obtain rfl := Option.some.inj hp
    exact isFinite_quotient_iff (isFinite_filledValue hfinite period) hgiven.2
  next => cases hp

end Comparison

/-- The differences of two histories are finite if and only if no two values are too far apart, and
a relative one if its difference is finite and the exact quotient in range.  A report is read back,
and has no null for a number, if and only if all are finite.  If a relative difference is not, it is
missing from what is read back, and if a difference is not, nothing is read back. -/
theorem comparison_read_back_iff_finite (base compare : History) (c : VarianceConfig)
    (hc : c.noiseThreshold.isFinite = true ∧ 0.0 ≤ c.noiseThreshold)
    (hcounted : ∀ o ∈ base.observations ++ compare.observations, o.Counted)
    (hsize : Nat64 (base.size + compare.size)) :
    ∃ r, computeVariance base.observations compare.observations c = .ok r ∧
      ((∀ x ∈ r.points, x.delta.isFinite = true) ↔
        ∀ period ∈ eitherPeriod base.observations compare.observations,
          ¬ c.Drops base.observations compare.observations period →
            |exactValue (filledValue compare.observations period) -
              exactValue (filledValue base.observations period)| < overflowBound) ∧
      (∀ x ∈ r.points, ∀ p, x.percent = some p → (p.isFinite = true ↔
        x.delta.isFinite = true ∧ |exactValue x.delta / exactValue x.base| < overflowBound)) ∧
      (r.AllFinite ↔ ∀ x ∈ r.points, some Json.null ∉ x.slots) ∧
      (decode VarianceReport.ofJson (Text.bytes r.toJson.compact) = .ok r ↔ r.AllFinite) ∧
      ((∀ x ∈ r.points, x.delta.isFinite = true) →
        decode VarianceReport.ofJson (Text.bytes r.toJson.compact) = .ok r.finitePercents) ∧
      ((∃ x ∈ r.points, x.delta.isFinite = false) →
        decode VarianceReport.ofJson (Text.bytes r.toJson.compact) = Json.unreadable) := by
  have hfinite : ∀ o ∈ base.observations ++ compare.observations, o.value.isFinite = true := by
    intro o ho
    rcases List.mem_append.1 ho with ho | ho
    · exact base.finite o ho
    · exact compare.finite o ho
  have hreport := isComparison_of_align base.observations compare.observations c
  have hcompares := hreport.compares hfinite hcounted hsize
  exact ⟨_, computeVariance_of_valid (validThreshold_iff.2 hc),
    hreport.finite_deltas_iff hfinite, hreport.finite_percent_iff base.finite,
    VarianceReport.allFinite_iff_no_null hcompares, VarianceReport.decode_eq_ok_iff hcompares,
    VarianceReport.decode_of_finite hcompares, VarianceReport.decode_of_nonFinite hcompares⟩

/-- Ten is too many times a base that is close to zero: the difference is read back, but not the
relative one. -/
theorem comparison_read_back_iff_finite_of_small_base :
    let base : History := ⟨[⟨1, 1e-308⟩], by simp, by decide +kernel, by simp⟩
    let compare : History := ⟨[⟨1, 10.0⟩], by simp, by decide +kernel, by simp⟩
    ∃ r, computeVariance base.observations compare.observations {} = .ok r ∧ ¬ r.AllFinite ∧
      decode VarianceReport.ofJson (Text.bytes r.toJson.compact) = .ok r.finitePercents ∧
      decode VarianceReport.ofJson (Text.bytes r.toJson.compact) ≠ .ok r := by
  intro base compare
  have hthreshold : (0.0 : Float).isFinite = true ∧ (0.0 : Float) ≤ 0.0 := by decide +kernel
  have hcounted : ∀ o ∈ base.observations ++ compare.observations, o.Counted := by
    simp only [base, compare, List.cons_append, List.nil_append, List.forall_mem_cons,
      Observation.Counted]
    decide
  have hsize : Nat64 (base.size + compare.size) := show 2 ≤ 0xFFFFFFFFFFFFFFFF by decide
  obtain ⟨r, hr, -, -, -, hread, hfinite, -⟩ :=
    comparison_read_back_iff_finite base compare {} hthreshold hcounted hsize
  have hrun : (computeVariance base.observations compare.observations {}).toOption.map (fun r =>
      (r.points.all fun x => x.delta.isFinite,
        r.points.any fun x => x.percent.any fun p => !p.isFinite)) =
      some (true, true) := by decide +kernel
  rw [hr] at hrun
  obtain ⟨hdeltas, hpercents⟩ := Prod.mk.inj (Option.some.inj hrun)
  have hinfinite : ¬ r.AllFinite := by
    intro hall
    obtain ⟨x, hx, hpercent⟩ := List.any_eq_true.1 hpercents
    obtain ⟨p, hp, hnot⟩ := (Option.any_eq_true _ _).1 hpercent
    rw [(hall x hx).2 p hp] at hnot
    cases hnot
  exact ⟨r, hr, hinfinite, hfinite (List.all_eq_true.1 hdeltas), mt hread.1 hinfinite⟩

/-- Two values on either side of zero are too far apart. -/
theorem not_every_comparison_finite :
    ¬ ∀ (base compare : History) (c : VarianceConfig) (r : VarianceReport),
      c.noiseThreshold.isFinite = true ∧ 0.0 ≤ c.noiseThreshold →
        computeVariance base.observations compare.observations c = .ok r → r.AllFinite := by
  intro hall
  let base : History := ⟨[⟨1, -1.7e308⟩], by simp, by decide +kernel, by simp⟩
  let compare : History := ⟨[⟨1, 1.7e308⟩], by simp, by decide +kernel, by simp⟩
  have hthreshold : (0.0 : Float).isFinite = true ∧ (0.0 : Float) ≤ 0.0 := by decide +kernel
  have hrun : (computeVariance base.observations compare.observations {}).toOption.map
      (fun r => r.points.map fun x => x.delta.isFinite) = some [false] := by decide +kernel
  obtain ⟨r, hr, hpoints⟩ := Option.map_eq_some_iff.1 hrun
  have hfinite := hall base compare {} r hthreshold (toOption_eq_some.1 hr)
  obtain ⟨x, hx, hdelta⟩ := List.mem_map.1 (hpoints ▸ List.mem_singleton_self false)
  exact Bool.false_ne_true (hdelta.symm.trans (hfinite x hx).1)

end LagForecast
