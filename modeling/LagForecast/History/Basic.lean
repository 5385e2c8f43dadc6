import LagForecast.Series.Wire

/-!
Observed values, also as JSON, and histories of them.  A history is not empty, its periods increase
and its values are finite; `ofList` reports what keeps a list from being one.
-/

set_option autoImplicit false

namespace LagForecast

def lastPossiblePeriod : Int := 0x7FFFFFFFFFFFFFFF

structure Observation where
  period : Int
  value : Float

/-- What keeps observations from being a history. -/
inductive HistoryError where
  | empty
  | nonIncreasing (previous current : Int)
  | nonFinite (period : Int)
  deriving DecidableEq

def HistoryError.message : HistoryError → String
  | empty => "History contains no observations"
  | nonIncreasing previous current =>
    "Period " ++ toString current ++ " does not follow period " ++ toString previous
  | nonFinite period => "Non-finite value at period " ++ toString period

/-- Observations at increasing periods with finite values, at least one. -/
structure History where
  observations : List Observation
  nonempty : observations ≠ []
  finite : ∀ o ∈ observations, o.value.isFinite = true
  increasing : observations.Pairwise fun a b => a.period < b.period

namespace History

def firstNonFinite (l : List Observation) : Option Observation := l.find? fun o => !o.value.isFinite

def firstDescent : List Observation → Option (Int × Int)
  | a :: b :: rest =>
    if b.period ≤ a.period then some (a.period, b.period) else firstDescent (b :: rest)
  | _ => none

theorem finite_of_firstNonFinite {l : List Observation} (h : firstNonFinite l = none) :
    ∀ o ∈ l, o.value.isFinite = true := by
  simpa [firstNonFinite, List.find?_eq_none] using h

theorem increasing_of_firstDescent {l : List Observation} (h : firstDescent l = none) :
    l.Pairwise fun a b => a.period < b.period := by
  induction l with
  | nil => simp
  | cons a rest ih =>
    cases rest with
    | nil => simp
    | cons b rest =>
      simp only [firstDescent] at h
      split at h
      · cases h
      next hab =>
        have hrest := ih h
        refine List.pairwise_cons.2 ⟨fun x hx => ?_, hrest⟩
        rcases List.mem_cons.1 hx with rfl | hx
        · omega
        · have := (List.pairwise_cons.1 hrest).1 x hx
          omega

/-- The history of some observations.  A value that is not finite is reported before a period
that does not follow. -/
def ofList (l : List Observation) : Except HistoryError History :=
  if hne : l = [] then .error .empty
  else
    match hf : firstNonFinite l with
    | some o => .error (.nonFinite o.period)
    | none =>
      match hd : firstDescent l with
      | some (previous, current) => .error (.nonIncreasing previous current)
      | none => .ok ⟨l, hne, finite_of_firstNonFinite hf, increasing_of_firstDescent hd⟩

def consecutive (start : Int) : List Float → List Observation
  | [] => []
  | v :: rest => ⟨start, v⟩ :: consecutive (start + 1) rest

/-- Values with the periods that are counted off from `start` on.  With each value the period after
it is counted already, so there is no answer where there is no such period. -/
def counted (start : Int) : List Float → Option (List Observation)
  | [] => some []
  | v :: rest =>
    if start < lastPossiblePeriod then (counted (start + 1) rest).map (⟨start, v⟩ :: ·) else none

def ofValues (start : Int) (values : List Float) : Option (Except HistoryError History) :=
  (counted start values).map ofList

variable (h : History)

def size : Nat := h.observations.length

def values : List Float := h.observations.map Observation.value

def firstPeriod : Int := (h.observations.head h.nonempty).period

def lastPeriod : Int := (h.observations.getLast h.nonempty).period

/-- The smaller of two numbers; of equal ones the second. -/
def lesser (a b : Float) : Float := if a < b then a else b

def greater (a b : Float) : Float := if b < a then a else b

/-- The least and the greatest observed value; of zeros of either sign the newest counts. -/
def range : Float × Float :=
  h.values.foldl (fun r v => (lesser r.1 v, greater r.2 v)) (1.0 / 0.0, -(1.0 / 0.0))

end History

namespace Observation

open Json (Field)

def toJson (o : Observation) : Json :=
  .record [("period", .int o.period), ("value", .float o.value)]

def fields : List (Field KeyError Observation) := [
  ⟨"period", true, fun v r => do return { r with period := ← v.toInt64 }⟩,
  ⟨"value", true, fun v r => do return { r with value := ← v.toFloat }⟩]

def ofJson (v : Json) : Wire Observation := v.toRecord fields ⟨0, 0.0⟩

end Observation

end LagForecast
