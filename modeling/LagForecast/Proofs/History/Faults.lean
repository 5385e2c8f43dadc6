import LagForecast.Proofs.History.Validity

/-!
# What keeps observations from being a history

Three things do, and the first of them that applies is reported: there are no observations, or a
value is not finite, wherever it stands, or a period does not follow the one before it.  That each
period follows the one before it is the same as that they increase throughout.

Values alone are given the periods that are counted off from a first one.  The count is one period
ahead of the values, so it comes to an end before the last possible period has a value.
-/

set_option autoImplicit false

namespace LagForecast

namespace History

/-- What is reported of observations that are no history. -/
inductive Refused : List Observation → HistoryError → Prop
  | empty : Refused [] .empty
  | nonFinite {before after : List Observation} {o : Observation}
      (hbefore : ∀ x ∈ before, x.value.isFinite = true) (ho : o.value.isFinite = false) :
      Refused (before ++ o :: after) (.nonFinite o.period)
  | nonIncreasing {before after : List Observation} {a b : Observation}
      (hfinite : ∀ x ∈ before ++ a :: b :: after, x.value.isFinite = true)
      (hbefore : (before ++ [a]).IsChain fun x y => x.period < y.period)
      (hab : b.period ≤ a.period) :
      Refused (before ++ a :: b :: after) (.nonIncreasing a.period b.period)

variable {l : List Observation}

private theorem firstNonFinite_eq_some_iff {o : Observation} : firstNonFinite l = some o ↔
    ∃ before after, l = before ++ o :: after ∧ (∀ x ∈ before, x.value.isFinite = true) ∧
      o.value.isFinite = false := by
  simp only [firstNonFinite, List.find?_eq_some_iff_append, Bool.not_not, Bool.not_eq_true']
  constructor
  · rintro ⟨ho, before, after, hl, hbefore⟩
    exact ⟨before, after, hl, hbefore, ho⟩
  · rintro ⟨before, after, hl, hbefore, ho⟩
    exact ⟨ho, before, after, hl, hbefore⟩

private theorem exists_of_firstDescent {previous current : Int}
    (h : firstDescent l = some (previous, current)) :
    ∃ before after a b, l = before ++ a :: b :: after ∧
      (before ++ [a]).IsChain (fun x y => x.period < y.period) ∧ b.period ≤ a.period ∧
      (previous, current) = (a.period, b.period) := by
  induction l using firstDescent.induct with
  | case1 x y rest hxy =>
    rw [firstDescent, if_pos hxy] at h
    exact ⟨[], rest, x, y, rfl, .singleton x, hxy, (Option.some.inj h).symm⟩
  | case2 x y rest hxy ih =>
    rw [firstDescent, if_neg hxy] at h
    obtain ⟨before, after, a, b, hl, hbefore, hab, hperiods⟩ := ih h
    refine ⟨x :: before, after, a, b, congrArg (x :: ·) hl, ?_, hab, hperiods⟩
    -- The neighbour that `x` was compared with is `a` itself or stands before it.
    cases before with
    | nil =>
      obtain rfl : y = a := (List.cons.inj hl).1
      exact .cons_cons (Int.not_le.1 hxy) hbefore
    | cons z before =>
      obtain rfl : y = z := (List.cons.inj hl).1
      exact .cons_cons (Int.not_le.1 hxy) hbefore
  | case3 l hl =>
    cases l with
    | nil => cases h
    | cons x rest =>
      cases rest with
      | nil => cases h
      | cons y rest => exact absurd rfl (hl x y rest)

private theorem ofList_eq_error_iff {e : HistoryError} : ofList l = .error e ↔ Refused l e := by
  constructor
  · intro h
    by_cases hne : l = []
    · subst hne
      cases h
      exact .empty
    cases hf : firstNonFinite l with
    | some o =>
      rw [ofList_of_nonFinite hf] at h
      obtain ⟨before, after, rfl, hbefore, ho⟩ := firstNonFinite_eq_some_iff.1 hf
      cases h
      exact .nonFinite hbefore ho
    | none =>
      cases hd : firstDescent l with
      | some p =>
        obtain ⟨previous, current⟩ := p
        rw [ofList_of_descent hf hd] at h
        obtain ⟨before, after, a, b, rfl, hbefore, hab, hperiods⟩ := exists_of_firstDescent hd
        cases hperiods
        cases h
        exact .nonIncreasing (finite_of_firstNonFinite hf) hbefore hab
      | none =>
        exact absurd ⟨hne, finite_of_firstNonFinite hf, increasing_of_firstDescent hd⟩
          (not_isHistory_of_error h)
  · intro h
    cases h with
    | empty => rfl
    | nonFinite hbefore ho =>
      exact ofList_of_nonFinite (firstNonFinite_eq_some_iff.2 ⟨_, _, rfl, hbefore, ho⟩)
    | nonIncreasing hfinite hbefore hab =>
      exact ofList_of_descent (firstNonFinite_eq_none_iff.2 hfinite)
        (firstDescent_append_cons _ hbefore hab)

private theorem consecutive_eq_mapIdx (start : Int) (values : List Float) :
    consecutive start values = values.mapIdx fun i v => ⟨start + i, v⟩ := by
  induction values generalizing start with
  | nil => rfl
  | cons v rest ih =>
    have hnext (i : Nat) : start + 1 + (i : Int) = start + ((i + 1 : Nat) : Int) := by omega
    have hfirst : start + ((0 : Nat) : Int) = start := Int.add_zero start
    rw [consecutive, ih, List.mapIdx_cons, hfirst]
    simp only [hnext]

/-- The periods can be counted off if and only if there is one more after the last value. -/
theorem counted_eq (start : Int) (values : List Float) :
    counted start values =
      if values = [] ∨ start + values.length ≤ lastPossiblePeriod then
        some (consecutive start values)
      else none := by
  induction values generalizing start with
  | nil => rfl
  | cons v rest ih =>
    have hstep : (v :: rest = [] ∨ start + (v :: rest).length ≤ lastPossiblePeriod) ↔
        start < lastPossiblePeriod ∧
          (rest = [] ∨ start + 1 + rest.length ≤ lastPossiblePeriod) := by
      cases rest with
      | nil =>
        simp only [reduceCtorEq, false_or, true_or, and_true, List.length_singleton]
        omega
      | cons w rest =>
        simp only [reduceCtorEq, false_or, List.length_cons]
        omega
    rw [counted, ih]
    by_cases hstart : start < lastPossiblePeriod
    · rw [if_pos hstart]
      by_cases hrest : rest = [] ∨ start + 1 + rest.length ≤ lastPossiblePeriod
      · rw [if_pos hrest, if_pos (hstep.2 ⟨hstart, hrest⟩)]
        rfl
      · rw [if_neg hrest, if_neg fun h => hrest (hstep.1 h).2]
        rfl
    · rw [if_neg hstart, if_neg fun h => hstart (hstep.1 h).1]

private theorem ofValues_eq (start : Int) (values : List Float) :
    ofValues start values =
      if values = [] ∨ start + values.length ≤ lastPossiblePeriod then
        some (ofList (values.mapIdx fun i v => ⟨start + i, v⟩))
      else none := by
  rw [ofValues, counted_eq, consecutive_eq_mapIdx]
  exact apply_ite (Option.map ofList) _ _ _

private theorem isHistory_mapIdx (start : Int) {values : List Float} (hne : values ≠ [])
    (hfinite : ∀ v ∈ values, v.isFinite = true) :
    IsHistory (values.mapIdx fun i v => ⟨start + i, v⟩) where
  nonempty := by simpa using hne
  finite := by
    intro o ho
    obtain ⟨i, hi, rfl⟩ := List.mem_mapIdx.1 ho
    exact hfinite _ (List.getElem_mem hi)
  increasing := by
    rw [List.pairwise_iff_getElem]
    intro i j hi hj hij
    rw [List.getElem_mapIdx, List.getElem_mapIdx]
    exact Int.add_lt_add_left (Int.ofNat_lt.2 hij) start

end History

open History

/-- A list is taken as a history if and only if it is one, and otherwise the first fault is
reported.  Values alone are taken with the periods from the first one on, as long as there is one
more possible period after the last value; where there is none, there is no answer. -/
theorem histories_and_faults (l : List Observation) (start : Int) (values : List Float) :
    ((∃ h, ofList l = .ok h ∧ h.observations = l) ↔
      l ≠ [] ∧ (∀ o ∈ l, o.value.isFinite = true) ∧
        ∀ i j : Fin l.length, i < j → (l.get i).period < (l.get j).period) ∧
    (∀ e, ofList l = .error e ↔ Refused l e) ∧
    (ofValues start values =
      if values = [] ∨ start + values.length ≤ lastPossiblePeriod then
        some (ofList (values.mapIdx fun i v => ⟨start + i, v⟩))
      else none) ∧
    (values ≠ [] → (∀ v ∈ values, v.isFinite = true) →
      start + values.length ≤ lastPossiblePeriod →
      ∃ h, ofValues start values = some (.ok h) ∧
        h.observations = values.mapIdx fun i v => ⟨start + i, v⟩) := by
  refine ⟨⟨?_, ?_⟩, fun e => ofList_eq_error_iff, ofValues_eq start values,
    fun hne hfinite hlast => ?_⟩
  · rintro ⟨h, hok, rfl⟩
    exact ⟨h.nonempty, h.finite, List.pairwise_iff_get.1 h.increasing⟩
  · rintro ⟨hne, hfinite, hincreasing⟩
    have hl : IsHistory l := ⟨hne, hfinite, List.pairwise_iff_get.2 hincreasing⟩
    exact ⟨_, ofList_of_isHistory hl, rfl⟩
  · have hhistory := isHistory_mapIdx start hne hfinite
    refine ⟨⟨_, hhistory.nonempty, hhistory.finite, hhistory.increasing⟩, ?_, rfl⟩
    rw [ofValues_eq, if_pos (Or.inr hlast), ofList_of_isHistory hhistory]

/-- Two values up to the last period but one, and a value that is not finite after two periods that
do not increase. -/
theorem histories_and_faults_near_last_period :
    (∃ h, ofValues 9223372036854775805 [1.0, 2.0] = some (.ok h) ∧
      h.observations = [⟨9223372036854775805, 1.0⟩, ⟨9223372036854775806, 2.0⟩]) ∧
    ofList [⟨2, 1.0⟩, ⟨1, 1.0⟩, ⟨3, 0.0 / 0.0⟩] = .error (.nonFinite 3) := by
  have hfinite : ∀ v ∈ [(1.0 : Float), 2.0], v.isFinite = true := by
    simp only [List.forall_mem_cons]
    decide +kernel
  have hbefore : ∀ x ∈ [(⟨2, 1.0⟩ : Observation), ⟨1, 1.0⟩], x.value.isFinite = true := by
    simp only [List.forall_mem_cons]
    decide +kernel
  obtain ⟨-, hfaults, -, hvalues⟩ := histories_and_faults
    [⟨2, 1.0⟩, ⟨1, 1.0⟩, ⟨3, 0.0 / 0.0⟩] 9223372036854775805 [1.0, 2.0]
  exact ⟨hvalues (List.cons_ne_nil _ _) hfinite (by decide),
    (hfaults _).2 (.nonFinite (o := ⟨3, 0.0 / 0.0⟩) hbefore (by decide +kernel))⟩

/-- A history that would end at the last possible period cannot be made from its values. -/
theorem not_every_history_counted :
    ¬ ∀ (start : Int) (values : List Float), start ≤ lastPossiblePeriod → values ≠ [] →
      (∀ v ∈ values, v.isFinite = true) → start + values.length - 1 ≤ lastPossiblePeriod →
      ∃ h, ofValues start values = some (.ok h) ∧
        h.observations = values.mapIdx fun i v => ⟨start + i, v⟩ := by
  intro hall
  have hfinite : ∀ v ∈ [(1.0 : Float)], v.isFinite = true := by
    simp only [List.forall_mem_cons]
    decide +kernel
  obtain ⟨h, hok, -⟩ := hall 9223372036854775807 [1.0] (by decide) (List.cons_ne_nil _ _) hfinite
    (by decide)
  have hnone : ofValues 9223372036854775807 [1.0] = none := rfl
  rw [hnone] at hok
  cases hok

end LagForecast
