import LagForecast.History.Basic
import Mathlib.Data.List.Chain

/-!
Which lists of observations are histories.  A list is accepted exactly if it is one, and one more
observation is judged by its own value and by the last period alone.  So a history is continued by
finite values one after the other, and every list on the way is a history.
-/

set_option autoImplicit false

namespace LagForecast

/-- Observations that make a history. -/
structure IsHistory (l : List Observation) : Prop where
  nonempty : l ≠ []
  finite : ∀ o ∈ l, o.value.isFinite = true
  increasing : l.Pairwise fun a b => a.period < b.period

namespace History

theorem isHistory (h : History) : IsHistory h.observations :=
  ⟨h.nonempty, h.finite, h.increasing⟩

theorem ext_observations {g h : History} (e : g.observations = h.observations) : g = h := by
  cases g
  cases h
  cases e
  rfl

theorem firstNonFinite_eq_none_iff {l : List Observation} :
    firstNonFinite l = none ↔ ∀ o ∈ l, o.value.isFinite = true := by
  constructor
  · exact finite_of_firstNonFinite
  · intro h
    simpa [firstNonFinite, List.find?_eq_none] using h

private theorem firstDescent_eq_none_iff {l : List Observation} :
    firstDescent l = none ↔ l.Pairwise fun a b => a.period < b.period := by
  constructor
  · exact increasing_of_firstDescent
  · intro h
    induction l with
    | nil => rfl
    | cons a l ih =>
      cases l with
      | nil => rfl
      | cons b l =>
        have hp := List.pairwise_cons.1 h
        have hab : a.period < b.period := hp.1 b (by simp)
        rw [firstDescent, if_neg (by omega)]
        exact ih hp.2

private theorem firstNonFinite_append {l : List Observation} {o : Observation}
    (hl : ∀ x ∈ l, x.value.isFinite = true) (ho : o.value.isFinite = false) :
    firstNonFinite (l ++ [o]) = some o := by
  have hnone : l.find? (fun x => !x.value.isFinite) = none := firstNonFinite_eq_none_iff.2 hl
  rw [firstNonFinite, List.find?_append, hnone]
  simp [ho]

theorem firstDescent_append_cons {before : List Observation} (after : List Observation)
    {a b : Observation} (hbefore : (before ++ [a]).IsChain fun x y => x.period < y.period)
    (hab : b.period ≤ a.period) :
    firstDescent (before ++ a :: b :: after) = some (a.period, b.period) := by
  induction before with
  | nil => exact if_pos hab
  | cons x before ih =>
    cases before with
    | nil =>
      obtain ⟨hxa, hrest⟩ := List.isChain_cons_cons.1 hbefore
      exact (if_neg (Int.not_le.2 hxa)).trans (ih hrest)
    | cons y before =>
      obtain ⟨hxy, hrest⟩ := List.isChain_cons_cons.1 hbefore
      exact (if_neg (Int.not_le.2 hxy)).trans (ih hrest)

theorem ofList_of_isHistory {l : List Observation} (hl : IsHistory l) :
    ofList l = .ok ⟨l, hl.nonempty, hl.finite, hl.increasing⟩ := by
  unfold ofList
  rw [dif_neg hl.nonempty]
  split
  next o ho =>
    rw [firstNonFinite_eq_none_iff.2 hl.finite] at ho
    cases ho
  next =>
    split
    next p c hd =>
      rw [firstDescent_eq_none_iff.2 hl.increasing] at hd
      cases hd
    next => rfl

@[simp] theorem ofList_observations (h : History) : ofList h.observations = .ok h :=
  ofList_of_isHistory h.isHistory

theorem observations_of_ofList {l : List Observation} {h : History} (e : ofList l = .ok h) :
    h.observations = l := by
  unfold ofList at e
  split at e
  · cases e
  · split at e
    · cases e
    · split at e
      · cases e
      · cases e
        rfl

theorem exists_ofList_iff {l : List Observation} : (∃ h, ofList l = .ok h) ↔ IsHistory l := by
  constructor
  · rintro ⟨h, e⟩
    rw [← observations_of_ofList e]
    exact h.isHistory
  · intro hl
    exact ⟨_, ofList_of_isHistory hl⟩

theorem not_isHistory_of_error {l : List Observation} {e : HistoryError}
    (h : ofList l = .error e) : ¬ IsHistory l := by
  intro hl
  rw [ofList_of_isHistory hl] at h
  cases h

theorem ofList_of_nonFinite {l : List Observation} {o : Observation}
    (h : firstNonFinite l = some o) : ofList l = .error (.nonFinite o.period) := by
  have hne : l ≠ [] := by
    rintro rfl
    cases h
  unfold ofList
  rw [dif_neg hne]
  split
  next x hx =>
    rw [h] at hx
    cases hx
    rfl
  next hx =>
    rw [h] at hx
    cases hx

theorem ofList_of_descent {l : List Observation} {previous current : Int}
    (hf : firstNonFinite l = none) (hd : firstDescent l = some (previous, current)) :
    ofList l = .error (.nonIncreasing previous current) := by
  have hne : l ≠ [] := by
    rintro rfl
    cases hd
  unfold ofList
  rw [dif_neg hne]
  split
  next x hx =>
    rw [hf] at hx
    cases hx
  next =>
    split
    next p c hx =>
      rw [hd] at hx
      cases hx
      rfl
    next hx =>
      rw [hd] at hx
      cases hx

theorem ofList_append_of_nonFinite {l : List Observation} {o : Observation}
    (hl : ∀ x ∈ l, x.value.isFinite = true) (ho : o.value.isFinite = false) :
    ofList (l ++ [o]) = .error (.nonFinite o.period) :=
  ofList_of_nonFinite (firstNonFinite_append hl ho)

private theorem finite_append {l : List Observation} {o : Observation}
    (hl : ∀ x ∈ l, x.value.isFinite = true) (ho : o.value.isFinite = true) :
    ∀ x ∈ l ++ [o], x.value.isFinite = true := by
  intro x hx
  rcases List.mem_append.1 hx with hx | hx
  · exact hl x hx
  · rw [List.mem_singleton.1 hx]
    exact ho

theorem ofList_append_of_le (h : History) {o : Observation} (ho : o.value.isFinite = true)
    (hp : o.period ≤ h.lastPeriod) :
    ofList (h.observations ++ [o]) = .error (.nonIncreasing h.lastPeriod o.period) := by
  have hsplit := List.dropLast_concat_getLast h.nonempty
  have hchain := h.increasing.isChain
  have hd : firstDescent (h.observations ++ [o]) = some (h.lastPeriod, o.period) := by
    rw [← hsplit] at hchain
    have hd := firstDescent_append_cons [] hchain hp
    rwa [List.append_cons, hsplit] at hd
  exact ofList_of_descent (firstNonFinite_eq_none_iff.2 (finite_append h.finite ho)) hd

private theorem period_le_lastPeriod (h : History) :
    ∀ o ∈ h.observations, o.period ≤ h.lastPeriod := by
  intro o ho
  have hsplit := List.dropLast_concat_getLast h.nonempty
  have hinc := h.increasing
  rw [← hsplit] at ho hinc
  rcases List.mem_append.1 ho with ho | ho
  · exact Int.le_of_lt ((List.pairwise_append.1 hinc).2.2 o ho _ (by simp))
  · rw [List.mem_singleton.1 ho]
    exact Int.le_refl _

theorem isHistory_append (h : History) {o : Observation} (ho : o.value.isFinite = true)
    (hp : h.lastPeriod < o.period) : IsHistory (h.observations ++ [o]) where
  nonempty := by simp
  finite := finite_append h.finite ho
  increasing := by
    refine List.pairwise_append.2 ⟨h.increasing, List.pairwise_singleton _ _, ?_⟩
    intro x hx y hy
    rw [List.mem_singleton.1 hy]
    have := h.period_le_lastPeriod x hx
    omega

theorem isHistory_singleton {o : Observation} (ho : o.value.isFinite = true) : IsHistory [o] where
  nonempty := by simp
  finite := by simpa using ho
  increasing := List.pairwise_singleton _ _

theorem isHistory_of_append {l r : List Observation} (h : IsHistory (l ++ r)) (hl : l ≠ []) :
    IsHistory l where
  nonempty := hl
  finite := fun o ho => h.finite o (List.mem_append_left r ho)
  increasing := (List.pairwise_append.1 h.increasing).1

end History

namespace History

def extended (h : History) (values : List Float) : Except HistoryError History :=
  ofList (h.observations ++ consecutive (h.lastPeriod + 1) values)

theorem exists_extended (h : History) {values : List Float}
    (hvalues : ∀ v ∈ values, v.isFinite = true) :
    ∃ h', h.extended values = .ok h' ∧ h'.values = h.values ++ values ∧
      h'.lastPeriod = h.lastPeriod + values.length := by
  induction values generalizing h with
  | nil =>
    refine ⟨h, ?_, (List.append_nil h.values).symm, (Int.add_zero h.lastPeriod).symm⟩
    rw [extended, consecutive, List.append_nil, ofList_observations]
  | cons v rest ih =>
    have hone : IsHistory (h.observations ++ [⟨h.lastPeriod + 1, v⟩]) :=
      h.isHistory_append (hvalues v List.mem_cons_self) (Int.lt_succ h.lastPeriod)
    let next : History := ⟨_, hone.nonempty, hone.finite, hone.increasing⟩
    have hperiod : next.lastPeriod = h.lastPeriod + 1 :=
      congrArg Observation.period List.getLast_concat
    have hnext : next.values = h.values ++ [v] := List.map_append
    have hsame : h.extended (v :: rest) = next.extended rest := by
      rw [extended, extended, hperiod]
      exact congrArg ofList (List.append_cons h.observations ⟨h.lastPeriod + 1, v⟩ _)
    obtain ⟨h', hok, hall, hlast⟩ := ih next fun w hw => hvalues w (List.mem_cons_of_mem v hw)
    refine ⟨h', hsame.trans hok, ?_, ?_⟩
    · rw [hall, hnext, ← List.append_cons]
    · rw [hlast, hperiod, List.length_cons]
      omega

end History

end LagForecast
