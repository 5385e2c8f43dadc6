import LagForecast.Series.Key

/-!
Series keys put together step by step.
-/

set_option autoImplicit false

namespace LagForecast

/-- A key in the making: the scope given last, the filters so far, and the first fault among them.
With a fault the filters are given up. -/
structure KeyDraft where
  scope : Option String
  filters : Filters
  fault : Option KeyError

namespace KeyDraft

def start : KeyDraft := ⟨none, .empty, none⟩

/-- Give the scope; the one given last counts. -/
def withScope (d : KeyDraft) (scope : String) : KeyDraft := { d with scope := some scope }

/-- Select a value on a dimension; after a fault nothing is selected any more. -/
def withFilter (d : KeyDraft) (dimension value : String) : KeyDraft :=
  match d.fault with
  | some _ => d
  | none =>
    match d.filters.select dimension value with
    | .ok filters => { d with filters }
    | .error fault => { d with filters := .empty, fault := some fault }

/-- The key.  A fault among the filters is reported before a missing or blank scope. -/
def build (d : KeyDraft) : Except KeyError SeriesKey :=
  match d.fault with
  | some fault => .error fault
  | none =>
    match d.scope with
    | none => .error .emptyScope
    | some scope => SeriesKey.make scope d.filters

end KeyDraft

end LagForecast
