import LagForecast.Forecast.Lag

/-!
The recursion of a lag model, step by step.  A run stops at the first step whose prediction is not
finite, and otherwise gives the prediction of every step, brought within the bounds.
-/

set_option autoImplicit false

namespace LagForecast

section Steps

variable {α : Type} [Scalar α]

def windowAfter (weights : List α) (bounds : Option (α × α)) : Nat → List α → List α
  | 0, window => window
  | s + 1, window =>
    windowAfter weights bounds s
      (advance weights.length window (confine bounds (predict weights window)).1)

/-- The prediction that follows `s` others, before it is brought within the bounds. -/
def rawPrediction (weights : List α) (bounds : Option (α × α)) (window : List α) (s : Nat) : α :=
  predict weights (windowAfter weights bounds s window)

variable {weights : List α} {bounds : Option (α × α)}

private theorem predictions_succ_of_finite {n step : Nat} {window : List α}
    (h : Scalar.isFinite (predict weights window) = true) :
    predictions weights bounds (n + 1) step window =
      (predictions weights bounds n (step + 1)
        (advance weights.length window (confine bounds (predict weights window)).1)).map fun r =>
          ((confine bounds (predict weights window)).1 :: r.1,
            if (confine bounds (predict weights window)).2 then r.2 + 1 else r.2) := by
  rw [predictions]
  simp only [h, if_true]
  cases predictions weights bounds n (step + 1)
    (advance weights.length window (confine bounds (predict weights window)).1) <;> rfl

private theorem predictions_succ_of_nonFinite {n step : Nat} {window : List α}
    (h : Scalar.isFinite (predict weights window) = false) :
    predictions weights bounds (n + 1) step window = .error step := by
  rw [predictions]
  simp [h]

/-- A run whose predictions are all finite gives each of them within the bounds, and counts those
that had to be moved. -/
theorem predictions_of_finite {n step : Nat} {window : List α}
    (h : ∀ s < n, Scalar.isFinite (rawPrediction weights bounds window s) = true) :
    predictions weights bounds n step window = .ok
      ((List.range n).map fun s => (confine bounds (rawPrediction weights bounds window s)).1,
        (List.range n).countP fun s =>
          (confine bounds (rawPrediction weights bounds window s)).2) := by
  induction n generalizing step window with
  | zero => rfl
  | succ n ih =>
    have hraw : Scalar.isFinite (predict weights window) = true := h 0 (by omega)
    have hrest : ∀ s < n, Scalar.isFinite (rawPrediction weights bounds
        (advance weights.length window (confine bounds (predict weights window)).1) s) = true :=
      fun s hs => h (s + 1) (by omega)
    rw [predictions_succ_of_finite hraw, ih hrest, List.range_succ_eq_map, List.map_cons,
      List.map_map, List.countP_cons, List.countP_map]
    simp only [Except.map]
    cases hmoved : (confine bounds (predict weights window)).2 <;>
      simp [rawPrediction, windowAfter, Function.comp_def, hmoved]

theorem predictions_of_nonFinite {n step s : Nat} {window : List α} (hs : s < n)
    (h : Scalar.isFinite (rawPrediction weights bounds window s) = false)
    (hbefore : ∀ t < s, Scalar.isFinite (rawPrediction weights bounds window t) = true) :
    predictions weights bounds n step window = .error (step + s) := by
  induction n generalizing step s window with
  | zero => omega
  | succ n ih =>
    cases s with
    | zero => exact predictions_succ_of_nonFinite h
    | succ s =>
      have hraw : Scalar.isFinite (predict weights window) = true := hbefore 0 (by omega)
      have hrest : predictions weights bounds n (step + 1)
          (advance weights.length window (confine bounds (predict weights window)).1) =
            .error (step + 1 + s) :=
        ih (by omega) h fun t ht => hbefore (t + 1) (by omega)
      have hstep : step + 1 + s = step + (s + 1) := by omega
      rw [predictions_succ_of_finite hraw, hrest, hstep]
      rfl

theorem finite_or_first_nonFinite (n : Nat) (window : List α) :
    (∀ s < n, Scalar.isFinite (rawPrediction weights bounds window s) = true) ∨
      ∃ s < n, Scalar.isFinite (rawPrediction weights bounds window s) = false ∧
        ∀ t < s, Scalar.isFinite (rawPrediction weights bounds window t) = true := by
  induction n with
  | zero => exact Or.inl fun s hs => by omega
  | succ n ih =>
    rcases ih with hall | ⟨s, hs, hfirst⟩
    · cases hn : Scalar.isFinite (rawPrediction weights bounds window n) with
      | false => exact Or.inr ⟨n, by omega, hn, hall⟩
      | true =>
        refine Or.inl fun s hs => ?_
        by_cases hsn : s = n
        · rw [hsn]
          exact hn
        · exact hall s (by omega)
    · exact Or.inr ⟨s, by omega, hfirst⟩

theorem confine_finite {raw : α} (hraw : Scalar.isFinite raw = true)
    (hbounds : ∀ b, bounds = some b → Scalar.isFinite b.1 = true ∧ Scalar.isFinite b.2 = true) :
    Scalar.isFinite (confine bounds raw).1 = true := by
  cases bounds with
  | none => exact hraw
  | some b =>
    obtain ⟨hlo, hhi⟩ := hbounds b rfl
    unfold confine
    dsimp only
    split
    · exact hlo
    · split
      · exact hhi
      · exact hraw

end Steps

end LagForecast
