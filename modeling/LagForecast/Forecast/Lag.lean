import LagForecast.Number.Scalar

/-!
Lag models: the next value is a weighted sum of the last few, and predictions are fed back as if
they had been observed.  While fewer values than weights are known, the newest weights are used,
rescaled so that their sum stays what the sum of all weights is.
-/

set_option autoImplicit false

namespace LagForecast

inductive WeightFault where
  | none
  | nonFinite
  | zeroTotal
  deriving DecidableEq

section Weights

variable {α : Type} [Scalar α]

open Scalar (sum)

def weightFault (weights : List α) : Option WeightFault :=
  if weights.isEmpty then some .none
  else if weights.any fun w => !Scalar.isFinite w then some .nonFinite
  else if Scalar.isNegligible (sum weights) then some .zeroTotal
  else none

/-- The last `m` weights, rescaled to the sum of all.  Weights whose sum is negligible are replaced
by equal ones. -/
def partialWeights (weights : List α) (m : Nat) : List α :=
  let tail := weights.drop (weights.length - m)
  if m = weights.length then tail
  else
    let tailSum := sum tail
    if Scalar.isNegligible tailSum then List.replicate m (sum weights / Scalar.ofCount m)
    else
      let scale := sum weights / tailSum
      tail.map fun w => w * scale

/-- The weights for a window of `n` values; there are as many windows as there are weights. -/
def windowWeights (weights : List α) (n : Nat) : List α :=
  partialWeights weights (max 1 (min n weights.length))

def predict (weights window : List α) : α :=
  sum (((windowWeights weights window.length).zip window).map fun p => p.1 * p.2)

/-- Move the window on by one value; it grows up to `order` values. -/
def advance (order : Nat) (window : List α) (v : α) : List α :=
  (if window.length = order then window.drop 1 else window) ++ [v]

/-- Bring a prediction within bounds, and tell whether it had to be moved. -/
def confine (bounds : Option (α × α)) (raw : α) : α × Bool :=
  match bounds with
  | none => (raw, false)
  | some (lo, hi) =>
    if Scalar.below raw lo then (lo, true)
    else if Scalar.below hi raw then (hi, true)
    else (raw, false)

/-- Predict `n` values one after the other, the first at step `step`, and count those that were
moved.  The error is the first step whose prediction is not finite. -/
def predictions (weights : List α) (bounds : Option (α × α)) :
    Nat → Nat → List α → Except Nat (List α × Nat)
  | 0, _, _ => .ok ([], 0)
  | n + 1, step, window =>
    let raw := predict weights window
    if Scalar.isFinite raw then do
      let (v, moved) := confine bounds raw
      let (rest, count) ← predictions weights bounds n (step + 1) (advance weights.length window v)
      return (v :: rest, if moved then count + 1 else count)
    else .error step

end Weights

/-- A lag model: weights, the oldest lag first, and whether predictions stay within the observed
range. -/
structure LagModel (α : Type) [Scalar α] where
  weights : List α
  clamps : Bool
  accepted : weightFault weights = none

/-- What a model predicts: values, the number of observations that the first was made from, and
the number of values that were moved into the observed range. -/
structure Projection (α : Type) where
  values : List α
  window : Nat
  clampedSteps : Nat

namespace LagModel

variable {α : Type} [Scalar α]

def weighted (weights : List α) : Except WeightFault (LagModel α) :=
  match h : weightFault weights with
  | some fault => .error fault
  | none => .ok ⟨weights, false, h⟩

def equalWeights (order : Nat) : List α :=
  List.replicate order (Scalar.ofCount 1 / Scalar.ofCount order)

def withClamp (m : LagModel α) (clamps : Bool) : LagModel α := { m with clamps }

def order (m : LagModel α) : Nat := m.weights.length

/-- Predict `n` values from observed ones; `range` is their least and their greatest. -/
def projectValues (m : LagModel α) (range : α × α) (observed : List α) (n : Nat) :
    Except Nat (Projection α) := do
  let available := min observed.length m.order
  let window := observed.drop (observed.length - available)
  let bounds := if m.clamps then some range else none
  let (values, clamped) ← predictions m.weights bounds n 1 window
  return ⟨values, available, clamped⟩

end LagModel

end LagForecast
