import LagForecast.Proofs.Forecast.Clamping

/-!
# Where a range makes no difference

The same weights are run twice over a history: without a range to stay within, and within the
observed one.  Bounds that have moved nothing leave the window as it is without them, so both runs
predict the same until a prediction is outside of the range.  Whether a prediction is finite is
asked before it is moved, so a run that fails before anything is moved fails in both.
-/

set_option autoImplicit false

namespace LagForecast

section Runs

variable {α : Type} [Scalar α] {weights window : List α} {bounds : Option (α × α)}

private theorem confine_of_unmoved {raw : α} (h : (confine bounds raw).2 = false) :
    (confine bounds raw).1 = raw := by
  cases bounds with
  | none => rfl
  | some b =>
    unfold confine at h ⊢
    dsimp only at h ⊢
    split at h
    · cases h
    next hlo =>
      split at h
      · cases h
      next hhi => rw [if_neg hlo, if_neg hhi]

/-- Bounds that have moved nothing yet leave the window as it is without them. -/
theorem windowAfter_of_unmoved {s : Nat}
    (h : ∀ t < s, (confine bounds (rawPrediction weights none window t)).2 = false) :
    windowAfter weights bounds s window = windowAfter weights none s window := by
  induction s with
  | zero => rfl
  | succ s ih =>
    have hwindow := ih fun t ht => h t (by omega)
    have hraw : rawPrediction weights bounds window s = rawPrediction weights none window s :=
      congrArg (predict weights) hwindow
    rw [windowAfter_succ, windowAfter_succ, hwindow, hraw, confine_of_unmoved (h s (by omega))]
    rfl

end Runs

namespace History

/-- A number lies between the least and the greatest observed value. -/
def Covers (h : History) (v : Float) : Prop := h.range.1 ≤ v ∧ v ≤ h.range.2

variable {h : History} {raw : Float}

private theorem Covers.isFinite (hraw : h.Covers raw) : raw.isFinite = true :=
  isFinite_of_between h.range_finite.1 h.range_finite.2 hraw.1 hraw.2

private theorem covers_iff_unmoved (hraw : raw.isFinite = true) :
    h.Covers raw ↔ (confine (some h.range) raw).2 = false := by
  have hlo := isNaN_of_isFinite h.range_finite.1
  have hhi := isNaN_of_isFinite h.range_finite.2
  have hnumber := isNaN_of_isFinite hraw
  rw [← Bool.not_eq_true, confine_moved_iff, not_or, Covers, le_iff_rank_le hlo hnumber,
    le_iff_rank_le hnumber hhi, lt_iff_rank_lt hnumber hlo, lt_iff_rank_lt hhi hnumber, not_lt,
    not_lt]

end History

namespace LagModel

section Steps

variable {m : LagModel Float} {h : History} {s : Nat}

/-- Both runs predict the same as long as the range covers what was predicted before. -/
theorem rawAt_clamped_of_covers (hs : ∀ t < s, h.Covers ((m.withClamp false).rawAt h t)) :
    (m.withClamp true).rawAt h s = (m.withClamp false).rawAt h s :=
  congrArg (predict m.weights) (windowAfter_of_unmoved fun t ht =>
    (History.covers_iff_unmoved (hs t ht).isFinite).1 (hs t ht))

private theorem covers_clamped_iff (s : Nat) :
    (∀ t < s, h.Covers ((m.withClamp true).rawAt h t)) ↔
      ∀ t < s, h.Covers ((m.withClamp false).rawAt h t) := by
  induction s with
  | zero => exact iff_of_true (fun t ht => absurd ht t.not_lt_zero) fun t ht =>
      absurd ht t.not_lt_zero
  | succ s ih =>
    rw [Nat.forall_lt_succ_right, Nat.forall_lt_succ_right, ih]
    exact and_congr_right fun hbefore => by rw [rawAt_clamped_of_covers hbefore]

private theorem valueAt_clamped_of_covers (hs : ∀ t < s, h.Covers ((m.withClamp false).rawAt h t)) :
    ∀ t < s, (m.withClamp true).valueAt h t = (m.withClamp false).valueAt h t := by
  intro t ht
  have hcovers := (covers_clamped_iff s).2 hs t ht
  have hkept : (m.withClamp true).valueAt h t = (m.withClamp true).rawAt h t :=
    confine_of_unmoved ((History.covers_iff_unmoved hcovers.isFinite).1 hcovers)
  exact hkept.trans (rawAt_clamped_of_covers fun r hr => hs r (hr.trans ht))

private theorem movedSteps_eq_zero_iff {n : Nat}
    (hraw : ∀ t < n, ((m.withClamp true).rawAt h t).isFinite = true) :
    (m.withClamp true).movedSteps h n = 0 ↔
      ∀ t < n, h.Covers ((m.withClamp true).rawAt h t) := by
  rw [movedSteps, List.countP_eq_zero]
  constructor
  · intro hnone t ht
    have hkept := hnone t (List.mem_range.2 ht)
    exact (History.covers_iff_unmoved (hraw t ht)).2 (Bool.eq_false_of_not_eq_true hkept)
  · intro hall t ht hmoved
    have ht' := List.mem_range.1 ht
    have hkept := (History.covers_iff_unmoved (hraw t ht')).1 (hall t ht')
    exact Bool.false_ne_true (hkept.symm.trans hmoved)

end Steps

section Projections

variable {m : LagModel Float} {h : History} {horizon : Horizon}

private theorem project_clamped_of_covers (hsteps : horizon.steps < 2 ^ 60)
    (hall : ∀ t < horizon.steps, h.Covers ((m.withClamp false).rawAt h t)) :
    (m.withClamp true).project h horizon = (m.withClamp false).project h horizon ∧
      (m.withClamp true).movedSteps h horizon.steps = 0 := by
  have hclamped := (covers_clamped_iff horizon.steps).2 hall
  have hunmoved : (m.withClamp true).movedSteps h horizon.steps = 0 :=
    (movedSteps_eq_zero_iff fun t ht => (hclamped t ht).isFinite).2 hclamped
  have hfree : (m.withClamp false).movedSteps h horizon.steps = 0 :=
    List.countP_eq_zero.2 fun _ _ => Bool.false_ne_true
  have hvalues : (List.range horizon.steps).map ((m.withClamp true).valueAt h) =
      (List.range horizon.steps).map ((m.withClamp false).valueAt h) :=
    List.map_congr_left fun t ht => valueAt_clamped_of_covers hall t (List.mem_range.1 ht)
  refine ⟨?_, hunmoved⟩
  rw [project_of_finite hsteps fun t ht => (hclamped t ht).isFinite,
    project_of_finite hsteps fun t ht => (hall t ht).isFinite, hvalues, hunmoved, hfree]
  rfl

private theorem covers_of_projected {p : Projection Float}
    (hp : (m.withClamp false).project h horizon = .ok p) (hcovers : ∀ v ∈ p.values, h.Covers v) :
    horizon.steps < 2 ^ 60 ∧
      ∀ t < horizon.steps, h.Covers ((m.withClamp false).rawAt h t) := by
  obtain ⟨hsteps, -, rfl⟩ := project_eq_ok.1 hp
  exact ⟨hsteps, fun t ht => hcovers _ (List.mem_map_of_mem (List.mem_range.2 ht))⟩

private theorem unmoved_iff_covers :
    (∃ q, (m.withClamp true).project h horizon = .ok q ∧ q.clampedSteps = 0) ↔
      ∃ p, (m.withClamp false).project h horizon = .ok p ∧ ∀ v ∈ p.values, h.Covers v := by
  constructor
  · rintro ⟨q, hq, hmoved⟩
    obtain ⟨hsteps, hraw, rfl⟩ := project_eq_ok.1 hq
    have hall := (covers_clamped_iff horizon.steps).1 ((movedSteps_eq_zero_iff hraw).1 hmoved)
    refine ⟨_, project_of_finite hsteps fun t ht => (hall t ht).isFinite, fun v hv => ?_⟩
    obtain ⟨t, ht, rfl⟩ := List.mem_map.1 hv
    exact hall t (List.mem_range.1 ht)
  · rintro ⟨p, hp, hcovers⟩
    obtain ⟨hsteps, hall⟩ := covers_of_projected hp hcovers
    obtain ⟨hsame, hmoved⟩ := project_clamped_of_covers hsteps hall
    have hq := hsame.trans hp
    obtain ⟨-, -, rfl⟩ := project_eq_ok.1 hq
    exact ⟨_, hq, hmoved⟩

private theorem take_values_of_covers {p q : Projection Float}
    (hp : (m.withClamp false).project h horizon = .ok p)
    (hq : (m.withClamp true).project h horizon = .ok q) {s : Nat}
    (hs : ∀ t < s, h.Covers ((m.withClamp false).rawAt h t)) :
    q.values.take s = p.values.take s := by
  obtain ⟨-, -, rfl⟩ := project_eq_ok.1 hp
  obtain ⟨-, -, rfl⟩ := project_eq_ok.1 hq
  rw [← List.map_take, ← List.map_take, List.take_range]
  refine List.map_congr_left fun t ht => valueAt_clamped_of_covers hs t ?_
  exact (List.mem_range.1 ht).trans_le (Nat.min_le_left _ _)

private theorem project_clamped_fails {s : Nat}
    (hfree : (m.withClamp false).project h horizon = .error (.numerical (.nonFinite (s + 1))))
    (hs : ∀ t < s, h.Covers ((m.withClamp false).rawAt h t)) :
    (m.withClamp true).project h horizon = .error (.numerical (.nonFinite (s + 1))) := by
  obtain ⟨hsteps, k, hk, hraw, -, heq⟩ := project_eq_error.1 hfree
  cases heq
  have hclamped := (covers_clamped_iff s).2 hs
  refine project_of_nonFinite hsteps hk ?_ fun t ht => (hclamped t ht).isFinite
  rw [rawAt_clamped_of_covers hs, hraw]

end Projections

/-- A model that stays within the observed range predicts what it would without, until a prediction
is outside of the range.  It moves nothing if and only if the range covers all that is predicted
without it, and then both runs give the same; before the first prediction that the range does not
cover they have the same values; and if there is none before a prediction that is not finite, both
fail there. -/
theorem clamping_starts_outside_range (m : LagModel Float) (h : History) (horizon : Horizon) :
    let free := m.withClamp false
    let clamped := m.withClamp true
    ((∃ q, clamped.project h horizon = .ok q ∧ q.clampedSteps = 0) ↔
      ∃ p, free.project h horizon = .ok p ∧ ∀ v ∈ p.values, h.Covers v) ∧
    (∀ q, clamped.project h horizon = .ok q → q.clampedSteps = 0 →
      free.project h horizon = .ok q) ∧
    (∀ s, (∀ t < s, h.Covers (free.rawStep h t)) →
      (∀ t ≤ s, clamped.rawStep h t = free.rawStep h t) ∧
      (∀ t < s, clamped.fedStep h t = free.fedStep h t) ∧
      (∀ p q, free.project h horizon = .ok p → clamped.project h horizon = .ok q →
        q.values.take s = p.values.take s) ∧
      (free.project h horizon = .error (.numerical (.nonFinite (s + 1))) →
        clamped.project h horizon = .error (.numerical (.nonFinite (s + 1))))) := by
  intro free clamped
  refine ⟨unmoved_iff_covers, fun q hq hmoved => ?_, fun s hs => ?_⟩
  · obtain ⟨p, hp, hcovers⟩ := unmoved_iff_covers.1 ⟨q, hq, hmoved⟩
    obtain ⟨hsteps, hall⟩ := covers_of_projected hp hcovers
    exact (project_clamped_of_covers hsteps hall).1.symm.trans hq
  · have hcovers : ∀ t < s, h.Covers (free.rawAt h t) := fun t ht => rawStep_eq t ▸ hs t ht
    refine ⟨fun t ht => ?_, fun t ht => ?_, fun p q hp hq => take_values_of_covers hp hq hcovers,
      fun hfree => project_clamped_fails hfree hcovers⟩
    · rw [rawStep_eq, rawStep_eq]
      exact rawAt_clamped_of_covers fun r hr => hcovers r (hr.trans_le ht)
    · rw [fedStep_eq, fedStep_eq]
      exact valueAt_clamped_of_covers hcovers t ht

/-- The range covers the first prediction and not the second, which is moved. -/
theorem clamping_starts_outside_range_at_second_step :
    let m : LagModel Float := ⟨[-2.0, 4.0], false, by decide +kernel⟩
    let h : History :=
      ⟨[⟨1, 1.0⟩, ⟨2, 3.0⟩, ⟨3, 2.0⟩], by decide, by decide +kernel, by decide⟩
    let horizon : Horizon := ⟨2, by decide⟩
    ∃ p q, (m.withClamp false).project h horizon = .ok p ∧
      (m.withClamp true).project h horizon = .ok q ∧ p.values = [2.0, 4.0] ∧
      q.values = [2.0, 3.0] ∧ q.clampedSteps = 1 ∧ q.values.take 1 = p.values.take 1 ∧
      ¬ ∀ v ∈ p.values, h.Covers v := by
  intro m h horizon
  have hfree : ((m.withClamp false).project h horizon).toOption.map Projection.values =
      some [2.0, 4.0] := by decide +kernel
  have hclamped : ((m.withClamp true).project h horizon).toOption.map
      (fun q => (q.values, q.clampedSteps)) = some ([2.0, 3.0], 1) := by decide +kernel
  obtain ⟨p, hp, hvalues⟩ := Option.map_eq_some_iff.1 hfree
  obtain ⟨q, hq, heq⟩ := Option.map_eq_some_iff.1 hclamped
  obtain ⟨hvalues', hmoved⟩ := Prod.mk.inj heq
  have hfirst : ∀ t < 1, h.Covers ((m.withClamp false).rawStep h t) := by
    intro t ht
    obtain rfl : t = 0 := by omega
    unfold History.Covers
    decide +kernel
  obtain ⟨hiff, hunmoved, hsteps⟩ := clamping_starts_outside_range m h horizon
  have hp : (m.withClamp false).project h horizon = .ok p := Attempt.toOption_eq_some.1 hp
  have hq : (m.withClamp true).project h horizon = .ok q := Attempt.toOption_eq_some.1 hq
  have hprefix := (hsteps 1 hfirst).2.2.1 p q hp hq
  refine ⟨p, q, hp, hq, hvalues, hvalues', hmoved, hprefix, fun hcovers => ?_⟩
  obtain ⟨q', hq', hmoved'⟩ := hiff.2 ⟨p, hp, hcovers⟩
  obtain rfl : q = q' := Attempt.ok.inj (hq.symm.trans hq')
  omega

end LagModel

end LagForecast
