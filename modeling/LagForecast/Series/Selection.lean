import LagForecast.Series.Key

/-!
Selections and series as they are written by a client: one value for a dimension, or a list of
values.  What is written is kept as it is, and checked when the key is asked for.
-/

set_option autoImplicit false

namespace LagForecast

open Text (Blank)

/-- What is written for one dimension. -/
inductive Selection where
  | one (value : String)
  | many (values : List String)
  deriving DecidableEq

def Selection.values : Selection → List String
  | one v => [v]
  | many vs => vs

namespace Filters

/-- Select the values written for a dimension.  At least one has to be written. -/
def selectAll (f : Filters) (dimension : String) (s : Selection) : Except KeyError Filters :=
  match s.values with
  | [] => .error (if Blank dimension then .emptyDimension else .emptySelection dimension)
  | vs => vs.foldlM (fun f v => f.select dimension v) f

/-- Select what is written for each dimension, in order of the dimensions. -/
def ofSelections (m : OrderedMap String Selection) : Except KeyError Filters :=
  m.entries.foldlM (fun f p => f.selectAll p.1 p.2) empty

/-- The selection in which a list of values is written: a lone value stands for itself. -/
def selectionOf : List String → Selection
  | [v] => .one v
  | vs => .many vs

def selections (f : Filters) : List (String × Selection) :=
  f.listing.map fun p => (p.1, selectionOf p.2)

end Filters

/-- A scope and what is written for each dimension, unchecked. -/
structure SeriesSelector where
  scope : String
  selections : OrderedMap String Selection
  deriving DecidableEq, Inhabited

/-- The key that a selector names.  A bad selection is reported before a blank scope. -/
def SeriesSelector.key (s : SeriesSelector) : Except KeyError SeriesKey := do
  let filters ← Filters.ofSelections s.selections
  SeriesKey.make s.scope filters

end LagForecast
