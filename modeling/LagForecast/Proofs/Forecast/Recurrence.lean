import LagForecast.Proofs.Forecast.Checks

/-!
# The recurrence of a lag model

Predictions as a recurrence over one sequence of known values, the observed ones followed by the
predicted ones, with no window that is moved along: every prediction is a weighted sum of the last
known values, and where it crosses a bound of the observed range, the bound stands in for it.
-/

set_option autoImplicit false

namespace LagForecast

namespace LagModel

section Sequence

variable (m : LagModel Float) (h : History)

def reach (known : List Float) : Nat := min m.order known.length

/-- The weighted sum of the last known values, added up from the oldest on. -/
def weightedSum (known : List Float) : Float :=
  (List.ofFn fun j : Fin (m.reach known) =>
    (windowWeights m.weights (m.reach known)).get ⟨j, by
        rw [length_windowWeights j.pos (Nat.min_le_left _ _)]
        exact j.isLt⟩ *
      known.get ⟨known.length - m.reach known + j, by
        have hreach : m.reach known ≤ known.length := Nat.min_le_right _ _
        have hj := j.isLt
        omega⟩).foldl (· + ·) (-0.0)

/-- The bound of the observed range that a prediction has crossed, if it has to stay within it. -/
def crossed (raw : Float) : Option Float :=
  if m.clamps then
    if raw < h.range.1 then some h.range.1
    else if h.range.2 < raw then some h.range.2
    else none
  else none

def sequence : Nat → List Float
  | 0 => h.values
  | s + 1 =>
    let raw := m.weightedSum (sequence s)
    sequence s ++ [(m.crossed h raw).getD raw]

/-- The prediction that follows `s` others in the sequence, before a bound stands in for it. -/
def rawStep (s : Nat) : Float := m.weightedSum (m.sequence h s)

def fedStep (s : Nat) : Float := (m.crossed h (m.rawStep h s)).getD (m.rawStep h s)

/-- What the recurrence gives for `n` steps; the error is the first step, counted from one, whose
prediction is not finite. -/
def recurrence (n : Nat) : Except Nat (Projection Float) :=
  match (List.range n).find? fun s => !(m.rawStep h s).isFinite with
  | some s => .error (s + 1)
  | none => .ok {
      values := (List.range n).map (m.fedStep h)
      window := min h.size m.order
      clampedSteps := (List.range n).countP fun s => (m.crossed h (m.rawStep h s)).isSome }

end Sequence

variable {m : LagModel Float} {h : History}

private theorem weightedSum_eq_predict (known : List Float) :
    m.weightedSum known = predict m.weights (known.rtake m.order) := by
  have hwindow : (known.rtake m.order).length = m.reach known := by
    rw [length_rtake, reach, Nat.min_comm]
  have hreach : m.reach known ≤ m.weights.length := Nat.min_le_left _ _
  have hstart : known.length - m.order = known.length - m.reach known := by
    unfold reach
    omega
  have hweights (hpos : 0 < m.reach known) :
      (windowWeights m.weights (m.reach known)).length = m.reach known :=
    length_windowWeights hpos hreach
  unfold weightedSum predict Scalar.sum
  refine congrArg (List.foldl (· + ·) (-0.0)) ?_
  rw [hwindow]
  apply List.ext_getElem
  · rw [List.length_ofFn, List.length_map, List.length_zip, hwindow]
    omega
  · intro j hj hj'
    rw [List.length_ofFn] at hj
    simp only [List.getElem_ofFn, List.getElem_map, List.getElem_zip, List.get_eq_getElem,
      List.rtake, List.getElem_drop, hstart]

private theorem confine_eq_crossed (raw : Float) :
    confine (m.limits h) raw = ((m.crossed h raw).getD raw, (m.crossed h raw).isSome) := by
  unfold limits crossed
  split
  · simp only [confine, Scalar.below, decide_eq_true_eq]
    split
    · rfl
    · split <;> rfl
  · rfl

/-- The sequence holds what the model predicts, step after step. -/
theorem sequence_eq (s : Nat) :
    m.sequence h s = h.values ++ (List.range s).map (m.valueAt h) := by
  -- The next prediction is made from the same values on both sides.
  induction s with
  | zero => rw [sequence, List.range_zero, List.map_nil, List.append_nil]
  | succ s ih =>
    have hraw : m.weightedSum (m.sequence h s) = m.rawAt h s := by
      rw [weightedSum_eq_predict, ih, ← rawAt_eq_predict]
    have hvalue : (m.crossed h (m.rawAt h s)).getD (m.rawAt h s) = m.valueAt h s := by
      rw [valueAt, confine_eq_crossed]
    rw [sequence, hraw]
    rw [hvalue, ih, List.range_succ, List.map_append, ← List.append_assoc]
    rfl

theorem rawStep_eq (s : Nat) : m.rawStep h s = m.rawAt h s := by
  rw [rawStep, weightedSum_eq_predict, sequence_eq, ← rawAt_eq_predict]

theorem fedStep_eq (s : Nat) : m.fedStep h s = m.valueAt h s := by
  rw [fedStep, rawStep_eq, valueAt, confine_eq_crossed]

private theorem recurrence_of_finite {n : Nat} (hraw : ∀ s < n, (m.rawAt h s).isFinite = true) :
    m.recurrence h n = .ok ⟨(List.range n).map (m.valueAt h), min h.values.length m.order,
      m.movedSteps h n⟩ := by
  have hfind : (List.range n).find? (fun s => !(m.rawStep h s).isFinite) = none := by
    rw [List.find?_eq_none]
    intro s hs
    rw [rawStep_eq, hraw s (List.mem_range.1 hs)]
    exact Bool.false_ne_true
  have hvalues : m.fedStep h = m.valueAt h := funext fedStep_eq
  have hmoved : (fun s => (m.crossed h (m.rawStep h s)).isSome) =
      fun s => (confine (m.limits h) (m.rawAt h s)).2 := by
    funext s
    rw [rawStep_eq, confine_eq_crossed]
  unfold recurrence
  rw [hfind, hvalues, hmoved]
  simp only [History.size, History.values, List.length_map, movedSteps]

private theorem recurrence_of_nonFinite {n s : Nat} (hs : s < n)
    (hraw : (m.rawAt h s).isFinite = false) (hbefore : ∀ t < s, (m.rawAt h t).isFinite = true) :
    m.recurrence h n = .error (s + 1) := by
  have hfind : (List.range n).find? (fun s => !(m.rawStep h s).isFinite) = some s := by
    rw [List.find?_range_eq_some]
    refine ⟨?_, List.mem_range.2 hs, fun t ht => ?_⟩
    · rw [rawStep_eq, hraw]
      rfl
    · rw [rawStep_eq, hbefore t ht]
      rfl
  unfold recurrence
  rw [hfind]

private theorem project_eq_recurrence {horizon : Horizon} (hsteps : horizon.steps < 2 ^ 60) :
    m.project h horizon = .ofExcept
      ((m.recurrence h horizon.steps).mapError fun step => .numerical (.nonFinite step)) := by
  rcases finite_or_first_nonFinite horizon.steps (m.firstWindow h) with
    hraw | ⟨s, hs, hraw, hbefore⟩
  · rw [project_of_finite hsteps hraw, recurrence_of_finite hraw]
    rfl
  · rw [project_of_nonFinite hsteps hs hraw hbefore, recurrence_of_nonFinite hs hraw hbefore]
    rfl

theorem project_finite {horizon : Horizon} {p : Projection Float}
    (hp : m.project h horizon = .ok p) :
    p.values.length = horizon.steps ∧ ∀ v ∈ p.values, v.isFinite = true := by
  obtain ⟨-, hraw, rfl⟩ := project_eq_ok.1 hp
  refine ⟨by rw [List.length_map, List.length_range], fun v hv => ?_⟩
  obtain ⟨s, hs, rfl⟩ := List.mem_map.1 hv
  exact valueAt_finite (hraw s (List.mem_range.1 hs))

/-- A lag model predicts what the recurrence gives: a finite value for each step of the horizon, or
else the first step at which there is none.  Everything that is taken for granted on the way is
there, but for the memory: a run over `2 ^ 60` steps or more breaks off before the first. -/
theorem project_follows_recurrence (m : LagModel Float) (h : History) (horizon : Horizon) :
    (horizon.steps < 2 ^ 60 → m.project h horizon = .ofExcept
      ((m.recurrence h horizon.steps).mapError fun step => .numerical (.nonFinite step))) ∧
    (m.project h horizon = .stopped ↔ 2 ^ 60 ≤ horizon.steps) ∧
    (∀ p, m.project h horizon = .ok p →
      p.values.length = horizon.steps ∧ ∀ v ∈ p.values, v.isFinite = true) ∧
    m.project? h horizon = some (m.project h horizon) :=
  ⟨project_eq_recurrence, project_eq_stopped, fun _ => project_finite, m.project?_eq h horizon⟩

/-- Two weights and one observation: the window is not full at the first step. -/
theorem project_follows_recurrence_of_one_observation :
    let m : LagModel Float := ⟨[1.0, 1.0], false, by decide +kernel⟩
    let h : History := ⟨[⟨1, 3.0⟩], by decide, by decide +kernel, by decide⟩
    let horizon : Horizon := ⟨2, by decide⟩
    ∃ p, m.project h horizon = .ok p ∧ m.recurrence h 2 = .ok p ∧ p.values = [6.0, 9.0] ∧
      p.window = 1 ∧ p.values.length = 2 ∧ ∀ v ∈ p.values, v.isFinite = true := by
  intro m h horizon
  have hrun : (m.project h horizon).toOption.map (fun p => (p.values, p.window)) =
      some ([6.0, 9.0], 1) := by decide +kernel
  obtain ⟨p, hsome, hp⟩ := Option.map_eq_some_iff.1 hrun
  obtain ⟨hvalues, hwindow⟩ := Prod.mk.inj hp
  have hok : m.project h horizon = .ok p := Attempt.toOption_eq_some.1 hsome
  obtain ⟨hfollows, -, hfinite, -⟩ := project_follows_recurrence m h horizon
  have hrecurrence : m.recurrence h 2 = .ok p :=
    mapError_eq_ok.1 (Attempt.ofExcept_eq_ok.1 ((hfollows (by decide)).symm.trans hok))
  exact ⟨p, hok, hrecurrence, hvalues, hwindow, hfinite p hok⟩

/-- The first prediction is not finite, and a run over too many steps does not come to it. -/
theorem not_every_projection_follows_recurrence :
    ¬ ∀ (m : LagModel Float) (h : History) (horizon : Horizon), m.project h horizon = .ofExcept
      ((m.recurrence h horizon.steps).mapError fun step => .numerical (.nonFinite step)) := by
  intro hall
  let m : LagModel Float := ⟨[1e300], false, by decide +kernel⟩
  let h : History := ⟨[⟨1, 1e300⟩], by decide, by decide +kernel, by decide⟩
  have hraw : (m.rawAt h 0).isFinite = false := by decide +kernel
  have hreported : m.recurrence h (2 ^ 60) = .error 1 :=
    recurrence_of_nonFinite (by decide) hraw fun t ht => absurd ht t.not_lt_zero
  have hstopped : m.project h ⟨2 ^ 60, by decide⟩ = .stopped := project_of_le le_rfl
  have hrun := hall m h ⟨2 ^ 60, by decide⟩
  rw [hstopped, hreported] at hrun
  cases hrun

end LagModel

end LagForecast
