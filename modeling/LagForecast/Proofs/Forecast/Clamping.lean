import LagForecast.Proofs.Forecast.Recurrence

/-!
# Staying within the observed range

What a model that stays within the observed range predicts lies between the least and the greatest
observed value, however the weights are signed and however far it predicts, and it counts the
predictions that were outside of them.
-/

set_option autoImplicit false

namespace LagForecast

section Bounds

variable {lo hi raw : Float}

theorem confine_moved_iff : (confine (some (lo, hi)) raw).2 = true ↔ raw < lo ∨ hi < raw := by
  simp only [confine, Scalar.below, decide_eq_true_eq]
  by_cases hlo : raw < lo
  · rw [if_pos hlo]
    exact iff_of_true rfl (Or.inl hlo)
  · by_cases hhi : hi < raw
    · rw [if_neg hlo, if_pos hhi]
      exact iff_of_true rfl (Or.inr hhi)
    · rw [if_neg hlo, if_neg hhi]
      exact iff_of_false Bool.false_ne_true (not_or.2 ⟨hlo, hhi⟩)

private theorem confine_between (hlo : lo.isFinite = true) (hhi : hi.isFinite = true)
    (hle : lo ≤ hi) (hraw : raw.isFinite = true) :
    lo ≤ (confine (some (lo, hi)) raw).1 ∧ (confine (some (lo, hi)) raw).1 ≤ hi := by
  have hlo' := isNaN_of_isFinite hlo
  have hhi' := isNaN_of_isFinite hhi
  have hraw' := isNaN_of_isFinite hraw
  simp only [confine, Scalar.below, decide_eq_true_eq]
  by_cases hbelow : raw < lo
  · rw [if_pos hbelow]
    exact ⟨(le_iff_rank_le hlo' hlo').2 le_rfl, hle⟩
  · by_cases habove : hi < raw
    · rw [if_neg hbelow, if_pos habove]
      exact ⟨hle, (le_iff_rank_le hhi' hhi').2 le_rfl⟩
    · rw [if_neg hbelow, if_neg habove]
      exact ⟨le_of_not_lt hraw' hlo' hbelow, le_of_not_lt hhi' hraw' habove⟩

end Bounds

namespace LagModel

variable {m : LagModel Float} {h : History}

private theorem limits_of_clamps (hm : m.clamps = true) : m.limits h = some h.range := by
  rw [limits, if_pos hm]

theorem valueAt_between (hm : m.clamps = true) {s : Nat} (hraw : (m.rawAt h s).isFinite = true) :
    h.range.1 ≤ m.valueAt h s ∧ m.valueAt h s ≤ h.range.2 := by
  rw [valueAt, limits_of_clamps hm]
  exact confine_between h.range_finite.1 h.range_finite.2 h.range_le hraw

private theorem movedSteps_of_clamps (hm : m.clamps = true) (n : Nat) :
    m.movedSteps h n = (List.range n).countP fun s =>
      decide (m.rawStep h s < h.range.1 ∨ h.range.2 < m.rawStep h s) := by
  refine congrArg (List.countP · (List.range n)) (funext fun s => ?_)
  rw [limits_of_clamps hm, rawStep_eq, Bool.eq_iff_iff, confine_moved_iff, decide_eq_true_iff]

end LagModel

/-- The observed range of a history is finite, holds every observed value and ends at two of them.
A model that stays within it always can, predicts nothing outside of it, and counts the steps whose
prediction was outside of it before. -/
theorem clamped_predictions_stay_in_range (h : History) :
    (h.range.1.isFinite = true ∧ h.range.2.isFinite = true) ∧
    h.range.1 ≤ h.range.2 ∧
    (∀ v ∈ h.values, h.range.1 ≤ v ∧ v ≤ h.range.2) ∧
    (h.range.1 ∈ h.values ∧ h.range.2 ∈ h.values) ∧
    ∀ m : LagModel Float, m.clamps = true → ∀ horizon : Horizon,
      m.project? h horizon = some (m.project h horizon) ∧
      ∀ p, m.project h horizon = .ok p →
        (∀ v ∈ p.values, h.range.1 ≤ v ∧ v ≤ h.range.2) ∧
        p.clampedSteps = (List.range horizon.steps).countP (fun s =>
          decide (m.rawStep h s < h.range.1 ∨ h.range.2 < m.rawStep h s)) ∧
        p.clampedSteps ≤ horizon.steps := by
  refine ⟨h.range_finite, h.range_le, h.range_bounds, h.range_mem, ?_⟩
  intro m hm horizon
  refine ⟨m.project?_eq h horizon, fun p hp => ?_⟩
  obtain ⟨-, hraw, rfl⟩ := LagModel.project_eq_ok.1 hp
  refine ⟨fun v hv => ?_, LagModel.movedSteps_of_clamps hm horizon.steps, ?_⟩
  · obtain ⟨s, hs, rfl⟩ := List.mem_map.1 hv
    exact LagModel.valueAt_between hm (hraw s (List.mem_range.1 hs))
  · calc m.movedSteps h horizon.steps
        ≤ (List.range horizon.steps).length := List.countP_le_length
      _ = horizon.steps := List.length_range

/-- A weight below zero: the first prediction lies above the range, the second does not. -/
theorem clamped_predictions_stay_in_range_of_negative_weight :
    let m : LagModel Float := ⟨[-1.0, 2.0], true, by decide +kernel⟩
    let h : History := ⟨[⟨1, 1.0⟩, ⟨2, 3.0⟩], by decide, by decide +kernel, by decide⟩
    let horizon : Horizon := ⟨2, by decide⟩
    ∃ p, m.project h horizon = .ok p ∧ p.values = [3.0, 3.0] ∧ p.clampedSteps = 1 ∧
      (∀ v ∈ p.values, h.range.1 ≤ v ∧ v ≤ h.range.2) ∧ p.clampedSteps ≤ 2 := by
  intro m h horizon
  have hrun : (m.project h horizon).toOption.map (fun p => (p.values, p.clampedSteps)) =
      some ([3.0, 3.0], 1) := by decide +kernel
  obtain ⟨p, hsome, hp⟩ := Option.map_eq_some_iff.1 hrun
  obtain ⟨hvalues, hclamped⟩ := Prod.mk.inj hp
  have hok : m.project h horizon = .ok p := Attempt.toOption_eq_some.1 hsome
  obtain ⟨hbetween, -, hcount⟩ :=
    ((clamped_predictions_stay_in_range h).2.2.2.2 m rfl horizon).2 p hok
  exact ⟨p, hok, hvalues, hclamped, hbetween, hcount⟩

end LagForecast
