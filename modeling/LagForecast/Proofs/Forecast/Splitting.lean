import LagForecast.Proofs.Forecast.Clamping
import LagForecast.Proofs.History.Validity

/-!
# Forecasts in two parts

A horizon may be split: what is predicted for its first steps is taken for observed, and the rest is
predicted from there.  The window that is then taken afresh is the one that the first steps left.
Predictions that stay within the observed range do not widen it, though a bound that is zero may
change its sign, so that the zeros of the second part may do so as well.
-/

set_option autoImplicit false

namespace LagForecast

def Horizon.followedBy (first second : Horizon) : Horizon :=
  ⟨first.steps + second.steps, Nat.add_pos_left first.positive second.steps⟩

def AlikeBounds : Option (Float × Float) → Option (Float × Float) → Prop :=
  Option.Rel fun b b' => Alike b.1 b'.1 ∧ Alike b.2 b'.2

section Runs

variable {weights window window' : List Float} {bounds bounds' : Option (Float × Float)}

private theorem predict_alike (hwindow : List.Forall₂ Alike window window') :
    Alike (predict weights window) (predict weights window') := by
  have hsum {ws : List Float} {total total' : Float} (htotal : Alike total total') :
      Alike (((ws.zip window).map fun p => p.1 * p.2).foldl (· + ·) total)
        (((ws.zip window').map fun p => p.1 * p.2).foldl (· + ·) total') := by
    induction hwindow generalizing ws total total' with
    | nil =>
      rw [List.zip_nil_right]
      exact htotal
    | cons hv _ ih =>
      cases ws with
      | nil => exact htotal
      | cons w ws => exact ih (htotal.add (hv.mul_left w))
  unfold predict
  rw [hwindow.length_eq]
  exact hsum (Alike.refl (-0.0))

private theorem confine_alike (hbounds : AlikeBounds bounds bounds') {raw raw' : Float}
    (hraw : Alike raw raw') :
    Alike (confine bounds raw).1 (confine bounds' raw').1 ∧
      (confine bounds raw).2 = (confine bounds' raw').2 := by
  cases hbounds with
  | none => exact ⟨hraw, rfl⟩
  | some hb =>
    rename_i b b'
    simp only [confine, Scalar.below, decide_eq_true_eq, hraw.lt_iff hb.1, hb.2.lt_iff hraw]
    by_cases hlo : raw' < b'.1
    · rw [if_pos hlo, if_pos hlo]
      exact ⟨hb.1, rfl⟩
    · by_cases hhi : b'.2 < raw'
      · rw [if_neg hlo, if_neg hlo, if_pos hhi, if_pos hhi]
        exact ⟨hb.2, rfl⟩
      · rw [if_neg hlo, if_neg hlo, if_neg hhi, if_neg hhi]
        exact ⟨hraw, rfl⟩

private theorem advance_alike {order : Nat} (hwindow : List.Forall₂ Alike window window')
    {v v' : Float} (hv : Alike v v') :
    List.Forall₂ Alike (advance order window v) (advance order window' v') := by
  unfold advance
  rw [hwindow.length_eq]
  refine List.rel_append ?_ (.cons hv .nil)
  split
  · exact List.forall₂_drop 1 hwindow
  · exact hwindow

private theorem windowAfter_alike (hbounds : AlikeBounds bounds bounds')
    (hwindow : List.Forall₂ Alike window window') (s : Nat) :
    List.Forall₂ Alike (windowAfter weights bounds s window)
      (windowAfter weights bounds' s window') := by
  induction s generalizing window window' with
  | zero => exact hwindow
  | succ s ih =>
    rw [windowAfter, windowAfter]
    exact ih (advance_alike hwindow (confine_alike hbounds (predict_alike hwindow)).1)

private theorem rawPrediction_alike (hbounds : AlikeBounds bounds bounds')
    (hwindow : List.Forall₂ Alike window window') (s : Nat) :
    Alike (rawPrediction weights bounds window s) (rawPrediction weights bounds' window' s) :=
  predict_alike (windowAfter_alike hbounds hwindow s)

end Runs

/-- Values within the observed range do not widen it. -/
theorem History.range_alike {h h' : History} {values : List Float}
    (happend : h'.values = h.values ++ values)
    (hvalues : ∀ v ∈ values, h.range.1 ≤ v ∧ v ≤ h.range.2) :
    Alike h.range.1 h'.range.1 ∧ Alike h.range.2 h'.range.2 := by
  have hwithin : ∀ v ∈ h'.values, h.range.1 ≤ v ∧ v ≤ h.range.2 := by
    intro v hv
    rw [happend] at hv
    rcases List.mem_append.1 hv with hv | hv
    · exact h.range_bounds v hv
    · exact hvalues v hv
  have hkept : ∀ v ∈ h.values, h'.range.1 ≤ v ∧ v ≤ h'.range.2 := fun v hv =>
    h'.range_bounds v (happend ▸ List.mem_append_left values hv)
  constructor
  · exact Alike.of_le_of_le h.range_finite.1 h'.range_finite.1
      (hwithin _ h'.range_mem.1).1 (hkept _ h.range_mem.1).1
  · exact Alike.of_le_of_le h.range_finite.2 h'.range_finite.2
      (hkept _ h.range_mem.2).2 (hwithin _ h'.range_mem.2).2

namespace LagModel

variable {m : LagModel Float} {h h' : History} {n : Nat}

/-- The window taken afresh is the one that the first predictions left. -/
theorem firstWindow_extended
    (happend : h'.values = h.values ++ (List.range n).map (m.valueAt h)) :
    m.firstWindow h' = windowAfter m.weights (m.limits h) n (m.firstWindow h) := by
  rw [windowAfter_firstWindow, firstWindow_eq_rtake, happend]

private theorem rawAt_add
    (happend : h'.values = h.values ++ (List.range n).map (m.valueAt h)) (s : Nat) :
    m.rawAt h (n + s) = rawPrediction m.weights (m.limits h) (m.firstWindow h') s := by
  rw [rawAt, rawPrediction, windowAfter_add, ← firstWindow_extended happend, rawPrediction]

private theorem limits_alike (happend : h'.values = h.values ++ (List.range n).map (m.valueAt h))
    (hraw : ∀ s < n, (m.rawAt h s).isFinite = true) :
    AlikeBounds (m.limits h) (m.limits h') := by
  unfold limits
  split
  next hm =>
    refine .some (History.range_alike happend fun v hv => ?_)
    obtain ⟨s, hs, rfl⟩ := List.mem_map.1 hv
    exact valueAt_between hm (hraw s (List.mem_range.1 hs))
  next => exact .none

private theorem rawAt_alike (happend : h'.values = h.values ++ (List.range n).map (m.valueAt h))
    (hraw : ∀ s < n, (m.rawAt h s).isFinite = true) (s : Nat) :
    Alike (m.rawAt h (n + s)) (m.rawAt h' s) := by
  rw [rawAt_add happend]
  exact rawPrediction_alike (limits_alike happend hraw)
    (List.forall₂_same.2 fun v _ => Alike.refl v) s

private theorem step_alike (happend : h'.values = h.values ++ (List.range n).map (m.valueAt h))
    (hraw : ∀ s < n, (m.rawAt h s).isFinite = true) (s : Nat) :
    Alike (m.valueAt h (n + s)) (m.valueAt h' s) ∧
      (confine (m.limits h) (m.rawAt h (n + s))).2 = (confine (m.limits h') (m.rawAt h' s)).2 :=
  confine_alike (limits_alike happend hraw) (rawAt_alike happend hraw s)

/-- Without a range to stay within nothing depends on where the history was extended. -/
theorem valueAt_add (hm : m.clamps = false)
    (happend : h'.values = h.values ++ (List.range n).map (m.valueAt h)) (s : Nat) :
    m.valueAt h (n + s) = m.valueAt h' s := by
  have hlimits (g : History) : m.limits g = none := by
    rw [limits, hm, if_neg Bool.false_ne_true]
  rw [valueAt, valueAt, rawAt_add happend, rawAt, hlimits, hlimits]

section Whole

variable {first second : Horizon} (hsteps : first.steps + second.steps < 2 ^ 60)

include hsteps

private theorem projection_first_fails {e : ForecastError} (hfirst : m.project h first = .error e) :
    m.project h (first.followedBy second) = .error e := by
  obtain ⟨-, s, hs, hstep, hbefore, rfl⟩ := project_eq_error.1 hfirst
  exact project_of_nonFinite hsteps (Nat.lt_add_right second.steps hs) hstep hbefore

section Second

variable (happend : h'.values = h.values ++ (List.range first.steps).map (m.valueAt h))
  (hraw : ∀ s < first.steps, (m.rawAt h s).isFinite = true)

include happend hraw

omit hsteps in
private theorem finite_add {s : Nat} (hs : ∀ t < s, (m.rawAt h' t).isFinite = true) :
    ∀ t < first.steps + s, (m.rawAt h t).isFinite = true := by
  -- A step before the split is one of the first part, and a later one is alike in the second.
  intro t ht
  by_cases hfirst : t < first.steps
  · exact hraw t hfirst
  · obtain ⟨k, rfl⟩ : ∃ k, t = first.steps + k := ⟨t - first.steps, by omega⟩
    rw [(rawAt_alike happend hraw k).isFinite_eq]
    exact hs k (by omega)

private theorem projection_second_fails {s : Nat}
    (hsecond : m.project h' second = .error (.numerical (.nonFinite s))) :
    m.project h (first.followedBy second) =
      .error (.numerical (.nonFinite (first.steps + s))) := by
  obtain ⟨-, t, ht, hstep, hbefore, heq⟩ := project_eq_error.1 hsecond
  cases heq
  have hwhole : (m.rawAt h (first.steps + t)).isFinite = false := by
    rw [(rawAt_alike happend hraw t).isFinite_eq, hstep]
  exact project_of_nonFinite hsteps (Nat.add_lt_add_left ht first.steps) hwhole
    (finite_add happend hraw hbefore)

private theorem projection_both_succeed {q : Projection Float}
    (hsecond : m.project h' second = .ok q) : ∃ rest, m.project h (first.followedBy second) =
        .ok ⟨(List.range first.steps).map (m.valueAt h) ++ rest, min h.values.length m.order,
          m.movedSteps h first.steps + q.clampedSteps⟩ ∧
      List.Forall₂ (fun x y => (x == y) = true) rest q.values ∧
      (m.clamps = false → rest = q.values) := by
  obtain ⟨-, hlater, rfl⟩ := project_eq_ok.1 hsecond
  have hwhole := finite_add happend hraw hlater
  have hmoved : m.movedSteps h (first.steps + second.steps) =
      m.movedSteps h first.steps + m.movedSteps h' second.steps := by
    have hsame : (fun s => (confine (m.limits h) (m.rawAt h s)).2) ∘ (first.steps + ·) =
        fun s => (confine (m.limits h') (m.rawAt h' s)).2 :=
      funext fun s => (step_alike happend hraw s).2
    rw [movedSteps, List.range_add, List.countP_append, List.countP_map, hsame]
    rfl
  refine ⟨(List.range second.steps).map fun s => m.valueAt h (first.steps + s), ?_, ?_, ?_⟩
  · rw [project_of_finite hsteps hwhole, Horizon.followedBy, hmoved, List.range_add, List.map_append,
      List.map_map]
    rfl
  · rw [List.forall₂_map_left_iff, List.forall₂_map_right_iff, List.forall₂_same]
    intro s hs
    have hstep : first.steps + s < first.steps + second.steps :=
      Nat.add_lt_add_left (List.mem_range.1 hs) first.steps
    exact (step_alike happend hraw s).1.beq (valueAt_finite (hwhole _ hstep))
  · intro hm
    exact congrArg (List.map · (List.range second.steps)) (funext (valueAt_add hm happend))

end Second

/-- The first predictions extend the history, and what is predicted from there is the rest. -/
theorem project_extended {p : Projection Float} (hfirst : m.project h first = .ok p) :
    ∃ h', h.extended p.values = .ok h' ∧ h'.lastPeriod = h.lastPeriod + first.steps ∧
      (∀ s, m.project h' second = .error (.numerical (.nonFinite s)) →
        m.project h (first.followedBy second) =
          .error (.numerical (.nonFinite (first.steps + s)))) ∧
      ∀ q, m.project h' second = .ok q →
        ∃ rest, m.project h (first.followedBy second) =
            .ok ⟨p.values ++ rest, p.window, p.clampedSteps + q.clampedSteps⟩ ∧
          List.Forall₂ (fun x y => (x == y) = true) rest q.values ∧
          (m.clamps = false → rest = q.values) := by
  obtain ⟨-, hfinite⟩ := project_finite hfirst
  obtain ⟨-, hraw, rfl⟩ := project_eq_ok.1 hfirst
  obtain ⟨h', hextended, happend, hlast⟩ := h.exists_extended hfinite
  refine ⟨h', hextended, ?_, fun s => projection_second_fails hsteps happend hraw,
    fun q => projection_both_succeed hsteps happend hraw⟩
  rw [hlast, List.length_map, List.length_range]

private theorem exists_project_iff :
    (∃ r, m.project h (first.followedBy second) = .ok r) ↔
      ∃ p h' q, m.project h first = .ok p ∧ h.extended p.values = .ok h' ∧
        m.project h' second = .ok q := by
  have hfirst : first.steps < 2 ^ 60 := by omega
  have hsecond : second.steps < 2 ^ 60 := by omega
  constructor
  · rintro ⟨r, hr⟩
    cases hp : m.project h first with
    | stopped => exact absurd (project_eq_stopped.1 hp) (by omega)
    | error e =>
      rw [projection_first_fails hsteps hp] at hr
      cases hr
    | ok p =>
      obtain ⟨h', hextended, -, hfails, -⟩ := project_extended hsteps hp
      cases hq : m.project h' second with
      | stopped => exact absurd (project_eq_stopped.1 hq) (by omega)
      | error e =>
        obtain ⟨-, s, -, -, -, rfl⟩ := project_eq_error.1 hq
        rw [hfails _ hq] at hr
        cases hr
      | ok q => exact ⟨p, h', q, rfl, hextended, hq⟩
  · rintro ⟨p, h', q, hp, hextended, hq⟩
    obtain ⟨g, hg, -, -, hsucceeds⟩ := project_extended hsteps hp
    obtain rfl : g = h' := Except.ok.inj (hg.symm.trans hextended)
    obtain ⟨rest, hwhole, -⟩ := hsucceeds q hq
    exact ⟨_, hwhole⟩

end Whole

/-- Predicting over two horizons at once is predicting over the first, taking what was predicted for
observed, and predicting over the second from there; the observations end where the first horizon
does.  Only zeros of the second part may differ, by their sign and under a range to stay within.
This is so if memory can hold both parts at once; if not, the run over both breaks off, whatever
the first part alone would come to. -/
theorem project_in_two_parts (m : LagModel Float) (h : History) (first second : Horizon) :
    (m.project h (first.followedBy second) = .stopped ↔ 2 ^ 60 ≤ first.steps + second.steps) ∧
    (first.steps + second.steps < 2 ^ 60 →
      (∀ e, m.project h first = .error e →
        m.project h (first.followedBy second) = .error e) ∧
      (∀ p, m.project h first = .ok p →
        ∃ h', h.extended p.values = .ok h' ∧ h'.lastPeriod = h.lastPeriod + first.steps ∧
          (∀ s, m.project h' second = .error (.numerical (.nonFinite s)) →
            m.project h (first.followedBy second) =
              .error (.numerical (.nonFinite (first.steps + s)))) ∧
          ∀ q, m.project h' second = .ok q →
            ∃ rest, m.project h (first.followedBy second) =
                .ok ⟨p.values ++ rest, p.window, p.clampedSteps + q.clampedSteps⟩ ∧
              List.Forall₂ (fun x y => (x == y) = true) rest q.values ∧
              (m.clamps = false → rest = q.values)) ∧
      ((∃ r, m.project h (first.followedBy second) = .ok r) ↔
        ∃ p h' q, m.project h first = .ok p ∧ h.extended p.values = .ok h' ∧
          m.project h' second = .ok q)) :=
  ⟨project_eq_stopped, fun hsteps => ⟨fun _ => projection_first_fails hsteps,
    fun _ => project_extended hsteps, exists_project_iff hsteps⟩⟩

/-- A first step that is moved into the range and a second that is not. -/
theorem project_in_two_parts_of_negative_weight :
    let m : LagModel Float := ⟨[-0.5, 1.5], true, by decide +kernel⟩
    let h : History := ⟨[⟨1, 2.0⟩, ⟨2, 4.0⟩], by decide, by decide +kernel, by decide⟩
    let step : Horizon := ⟨1, by decide⟩
    ∃ p h' q rest, m.project h step = .ok p ∧ p.values = [4.0] ∧ p.clampedSteps = 1 ∧
      h.extended p.values = .ok h' ∧ m.project h' step = .ok q ∧ q.clampedSteps = 0 ∧
      m.project h (step.followedBy step) =
        .ok ⟨p.values ++ rest, p.window, p.clampedSteps + q.clampedSteps⟩ := by
  intro m h step
  let h' : History :=
    ⟨[⟨1, 2.0⟩, ⟨2, 4.0⟩, ⟨3, 4.0⟩], by decide, by decide +kernel, by decide⟩
  have hrun : (m.project h step).toOption.map (fun p => (p.values, p.clampedSteps)) =
      some ([4.0], 1) := by decide +kernel
  have hnext : (m.project h' step).toOption.map Projection.clampedSteps = some 0 := by
    decide +kernel
  obtain ⟨p, hp, heq⟩ := Option.map_eq_some_iff.1 hrun
  obtain ⟨hvalues, hmoved⟩ := Prod.mk.inj heq
  obtain ⟨q, hq, hkept⟩ := Option.map_eq_some_iff.1 hnext
  have hfirst : m.project h step = .ok p := Attempt.toOption_eq_some.1 hp
  have hsecond : m.project h' step = .ok q := Attempt.toOption_eq_some.1 hq
  have hextended : h.extended p.values = .ok h' := by
    rw [hvalues]
    exact History.ofList_observations h'
  obtain ⟨-, hparts, -⟩ := (project_in_two_parts m h step step).2 (by decide)
  obtain ⟨g, hg, -, -, hsucceeds⟩ := hparts p hfirst
  obtain rfl : g = h' := Except.ok.inj (hg.symm.trans hextended)
  obtain ⟨rest, hwhole, -⟩ := hsucceeds q hsecond
  exact ⟨p, h', q, rest, hfirst, hvalues, hmoved, hextended, hsecond, hkept, hwhole⟩

/-- A first step whose prediction is not finite, with more steps after it than memory holds. -/
theorem not_every_projection_fails_with_its_first_part :
    ¬ ∀ (m : LagModel Float) (h : History) (first second : Horizon) (e : ForecastError),
      m.project h first = .error e → m.project h (first.followedBy second) = .error e := by
  intro hall
  let m : LagModel Float := ⟨[1e300], false, by decide +kernel⟩
  let h : History := ⟨[⟨1, 1e300⟩], by decide, by decide +kernel, by decide⟩
  let first : Horizon := ⟨1, by decide⟩
  let second : Horizon := ⟨2 ^ 60, by decide⟩
  have hraw : (m.rawAt h 0).isFinite = false := by decide +kernel
  have hfirst : m.project h first = .error (.numerical (.nonFinite 1)) :=
    project_of_nonFinite (by decide) (by decide) hraw fun t ht => absurd ht t.not_lt_zero
  have hwhole : m.project h (first.followedBy second) = .stopped := project_of_le (by decide)
  cases hwhole.symm.trans (hall m h first second _ hfirst)

end LagModel

end LagForecast
