import LagForecast.Proofs.Forecast.Projection
import LagForecast.Proofs.Outcome

/-!
# What a run takes for granted

A run takes parts of lists, looks up tables, subtracts counts, pairs weights with values and moves
predictions between two bounds.  Here each of these is done only where it is possible: a part has to
lie within its list, a table has to be there, a count may not fall below zero, there has to be one
weight for each value, and bounds have to be in order.  A run that gives up where one of these fails
never gives up, so that it breaks off for want of memory only.
-/

set_option autoImplicit false

namespace LagForecast

def difference? (a b : Nat) : Option Nat := if b ≤ a then some (a - b) else none

def suffix? {α : Type} (l : List α) (start : Nat) : Option (List α) :=
  if start ≤ l.length then some (l.drop start) else none

def nearest? (lo hi n : Nat) : Option Nat := if lo ≤ hi then some (max lo (min n hi)) else none

private theorem difference?_eq {a b : Nat} (h : b ≤ a) : difference? a b = some (a - b) := if_pos h

private theorem suffix?_eq {α : Type} {l : List α} {start : Nat} (h : start ≤ l.length) :
    suffix? l start = some (l.drop start) := if_pos h

private theorem nearest?_eq {lo hi : Nat} (h : lo ≤ hi) (n : Nat) :
    nearest? lo hi n = some (max lo (min n hi)) := if_pos h

section Weights

variable {α : Type} [Scalar α]

open Scalar (sum)

def partialWeights? (weights : List α) (m : Nat) : Option (List α) := do
  let tail ← suffix? weights (← difference? weights.length m)
  return if m = weights.length then tail
    else if Scalar.isNegligible (sum tail) then
      List.replicate m (sum weights / Scalar.ofCount m)
    else tail.map fun w => w * (sum weights / sum tail)

def tables? (weights : List α) : Option (List (List α)) :=
  (List.range weights.length).mapM fun i => partialWeights? weights (i + 1)

def windowWeights? (weights : List α) (n : Nat) : Option (List α) := do
  let tables ← tables? weights
  tables[← difference? (← nearest? 1 weights.length n) 1]?

def predict? (weights window : List α) : Option α := do
  let ws ← windowWeights? weights window.length
  if ws.length = window.length then return sum ((ws.zip window).map fun p => p.1 * p.2)
  else none

variable {weights : List α}

private theorem partialWeights?_eq {m : Nat} (hm : m ≤ weights.length) :
    partialWeights? weights m = some (partialWeights weights m) := by
  simp only [partialWeights?, difference?_eq hm, suffix?_eq (Nat.sub_le _ _), Option.bind_eq_bind,
    Option.bind_some]
  rfl

private theorem tables?_eq (weights : List α) :
    tables? weights =
      some ((List.range weights.length).map fun i => partialWeights weights (i + 1)) := by
  apply mapM_eq_some_map
  intro i hi
  have hlt := List.mem_range.1 hi
  exact partialWeights?_eq (by omega)

private theorem windowWeights?_eq (hpos : 0 < weights.length) (n : Nat) :
    windowWeights? weights n = some (windowWeights weights n) := by
  have hone : 1 ≤ max 1 (min n weights.length) := Nat.le_max_left _ _
  have hplace : max 1 (min n weights.length) - 1 < weights.length := by omega
  simp only [windowWeights?, tables?_eq, nearest?_eq hpos, difference?_eq hone,
    Option.bind_eq_bind, Option.bind_some]
  rw [List.getElem?_map, List.getElem?_range hplace, Option.map_some, Nat.sub_add_cancel hone]
  rfl

private theorem predict?_eq {window : List α} (hpos : 0 < window.length)
    (hlength : window.length ≤ weights.length) :
    predict? weights window = some (predict weights window) := by
  simp only [predict?, windowWeights?_eq (hpos.trans_le hlength), Option.bind_eq_bind,
    Option.bind_some, length_windowWeights hpos hlength, if_true]
  rfl

end Weights

/-- Bring a prediction within bounds, which have to be in order where it lies outside of them, and
tell whether it had to be moved. -/
def confine? (bounds : Option (Float × Float)) (raw : Float) : Option (Float × Bool) :=
  match bounds with
  | none => some (raw, false)
  | some (lo, hi) =>
    if raw < lo ∨ hi < raw then
      if lo ≤ hi then some (if raw < lo then lo else hi, true) else none
    else some (raw, false)

def predictions? (weights : List Float) (bounds : Option (Float × Float)) :
    Nat → Nat → List Float → Option (Except Nat (List Float × Nat))
  | 0, _, _ => some (.ok ([], 0))
  | n + 1, step, window => do
    let raw ← predict? weights window
    if raw.isFinite then
      let (v, moved) ← confine? bounds raw
      let rest ← predictions? weights bounds n (step + 1) (advance weights.length window v)
      return rest.map fun r => (v :: r.1, if moved then r.2 + 1 else r.2)
    else return .error step

/-- A run that gives up, with `none`, where one of these is not possible. -/
def LagModel.project? (m : LagModel Float) (h : History) (horizon : Horizon) :
    Option (Attempt ForecastError (Projection Float)) := do
  let available := min h.values.length m.order
  let window ← suffix? h.values (← difference? h.values.length available)
  let bounds := if m.clamps then some h.range else none
  if Attempt.fits horizon.steps then
    let run ← predictions? m.weights bounds horizon.steps 1 window
    return .ofExcept ((run.map fun r => ⟨r.1, available, r.2⟩).mapError fun step =>
      .numerical (.nonFinite step))
  else return .stopped

private theorem confine?_eq {bounds : Option (Float × Float)}
    (hbounds : ∀ b, bounds = some b → b.1 ≤ b.2) (raw : Float) :
    confine? bounds raw = some (confine bounds raw) := by
  cases bounds with
  | none => rfl
  | some b =>
    obtain ⟨lo, hi⟩ := b
    have hle : lo ≤ hi := hbounds (lo, hi) rfl
    simp only [confine?, confine, Scalar.below, decide_eq_true_eq]
    by_cases hlo : raw < lo
    · rw [if_pos (Or.inl hlo), if_pos hle, if_pos hlo, if_pos hlo]
    · by_cases hhi : hi < raw
      · rw [if_pos (Or.inr hhi), if_pos hle, if_neg hlo, if_neg hlo, if_pos hhi]
      · rw [if_neg (not_or.2 ⟨hlo, hhi⟩), if_neg hlo, if_neg hhi]

private theorem length_advance {α : Type} {order : Nat} {window : List α} (hpos : 0 < window.length)
    (hlength : window.length ≤ order) (v : α) :
    0 < (advance order window v).length ∧ (advance order window v).length ≤ order := by
  rw [advance, List.length_append, List.length_singleton]
  split
  next hfull =>
    rw [List.length_drop]
    omega
  next hroom => omega

/-- The window never is empty and never outgrows the weights, so that every step can be taken. -/
theorem predictions?_eq {weights : List Float} {bounds : Option (Float × Float)}
    (hbounds : ∀ b, bounds = some b → b.1 ≤ b.2) {n step : Nat} {window : List Float}
    (hpos : 0 < window.length) (hlength : window.length ≤ weights.length) :
    predictions? weights bounds n step window =
      some (predictions weights bounds n step window) := by
  induction n generalizing step window with
  | zero => rfl
  | succ n ih =>
    simp only [predictions?, predict?_eq hpos hlength, confine?_eq hbounds, Option.bind_eq_bind,
      Option.bind_some]
    obtain ⟨hpos', hlength'⟩ := length_advance hpos hlength
      (confine bounds (predict weights window)).1
    rw [ih hpos' hlength', predictions]
    dsimp only [Scalar.isFinite]
    split
    · cases predictions weights bounds n (step + 1)
        (advance weights.length window (confine bounds (predict weights window)).1) <;> rfl
    · rfl

theorem LagModel.project?_eq (m : LagModel Float) (h : History) (horizon : Horizon) :
    m.project? h horizon = some (m.project h horizon) := by
  have havailable : min h.values.length m.order ≤ h.values.length := Nat.min_le_left _ _
  have hvalues : 0 < h.values.length := List.length_pos_iff.2 h.values_ne_nil
  have horder := m.one_le_order
  have hwindow : (m.firstWindow h).length = min h.values.length m.order := by
    rw [firstWindow_eq_rtake, length_rtake]
  have hlimits : ∀ b, m.limits h = some b → b.1 ≤ b.2 := by
    intro b hb
    rw [eq_range_of_limits hb]
    exact h.range_le
  have hrun : predictions? m.weights (m.limits h) horizon.steps 1 (m.firstWindow h) =
      some (predictions m.weights (m.limits h) horizon.steps 1 (m.firstWindow h)) :=
    predictions?_eq hlimits (by omega) (hwindow.trans_le (Nat.min_le_right _ _))
  simp only [project?, difference?_eq havailable, suffix?_eq (Nat.sub_le _ _), Option.bind_eq_bind,
    Option.bind_some]
  rcases Nat.lt_or_ge horizon.steps (2 ^ 60) with hlt | hle
  · rw [if_pos (Attempt.fits_iff.2 hlt), project_of_lt hlt]
    change (predictions? m.weights (m.limits h) horizon.steps 1 (m.firstWindow h)).bind _ = _
    rw [hrun]
    cases predictions m.weights (m.limits h) horizon.steps 1 (m.firstWindow h) <;> rfl
  · rw [if_neg (by rw [Attempt.fits_iff]; omega), project_of_le hle]
    rfl

end LagForecast
