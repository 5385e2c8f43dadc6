import LagForecast.Series.Wire

/-!
Forecasts as they are returned: values, the first period, and how they were made.
-/

set_option autoImplicit false

namespace LagForecast

open Json (Field)

/-- What is worth knowing about a forecast. -/
inductive ForecastFlag where
  /-- Fewer observations than the model wants. -/
  | insufficientHistory (available required : Nat)
  /-- Some values were moved into the observed range. -/
  | clamped (steps : Nat)
  deriving DecidableEq

namespace ForecastFlag

def toJson : ForecastFlag → Json
  | insufficientHistory available required =>
    .record [("kind", .text "insufficient_history"), ("available", .int available),
      ("required", .int required)]
  | clamped steps => .record [("kind", .text "clamped"), ("steps", .int steps)]

def shortFields : List (Field KeyError (Nat × Nat)) := [
  ⟨"available", true, fun v r => do return (← v.toNat64, r.2)⟩,
  ⟨"required", true, fun v r => do return (r.1, ← v.toNat64)⟩]

def clampedFields : List (Field KeyError Nat) := [⟨"steps", true, fun v _ => v.toNat64⟩]

/-- Read a flag that stands at a place where `room` levels may still be nested. -/
def ofJson (room : Nat) (v : Json) : Wire ForecastFlag :=
  v.toTagged "kind" room [
    ("insufficient_history", fun v =>
      (v.toRecord shortFields (0, 0)).map fun r => insufficientHistory r.1 r.2),
    ("clamped", fun v => (v.toRecord clampedFields 0).map clamped)]

end ForecastFlag

structure ForecastMetadata where
  /-- The fingerprint of the series, if the forecast is for a series of a store. -/
  series : Option String
  model : String
  order : Nat
  /-- The number of observations that the first value was made from. -/
  window : Nat
  historyLength : Nat
  flags : List ForecastFlag
  deriving Inhabited

namespace ForecastMetadata

def insufficientHistory (m : ForecastMetadata) : Bool :=
  m.flags.any fun
    | .insufficientHistory .. => true
    | .clamped _ => false

def clampedSteps (m : ForecastMetadata) : Nat :=
  (m.flags.findSome? fun
    | .clamped steps => some steps
    | .insufficientHistory .. => none).getD 0

def optionalText (name : String) : Option String → List (String × Json)
  | none => []
  | some s => [(name, .text s)]

def toJson (m : ForecastMetadata) : Json :=
  .record (optionalText "series" m.series ++
    [("model", .text m.model), ("order", .int m.order), ("window", .int m.window),
      ("history_len", .int m.historyLength), ("flags", .array (m.flags.map ForecastFlag.toJson))])

/-- The fields of metadata; flags stand one level deeper than `room` says. -/
def fields (room : Nat) : List (Field KeyError ForecastMetadata) := [
  ⟨"series", false, fun v r => do return { r with series := ← v.toOption Json.toText }⟩,
  ⟨"model", true, fun v r => do return { r with model := ← v.toText }⟩,
  ⟨"order", true, fun v r => do return { r with order := ← v.toNat64 }⟩,
  ⟨"window", true, fun v r => do return { r with window := ← v.toNat64 }⟩,
  ⟨"history_len", true, fun v r => do return { r with historyLength := ← v.toNat64 }⟩,
  ⟨"flags", false, fun v r => do
    return { r with flags := ← v.toList (ForecastFlag.ofJson (room - 2)) }⟩]

def ofJson (room : Nat) (v : Json) : Wire ForecastMetadata := v.toRecord (fields room) default

end ForecastMetadata

/-- A forecast: one value a period from the first period on. -/
structure ForecastVector where
  values : List Float
  startPeriod : Int
  metadata : ForecastMetadata
  deriving Inhabited

namespace ForecastVector

def periods (f : ForecastVector) : List (Int × Float) :=
  f.values.zipIdx.map fun p => (f.startPeriod + p.2, p.1)

def toJson (f : ForecastVector) : Json :=
  .record [("forecast", .array (f.values.map .float)), ("start_period", .int f.startPeriod),
    ("metadata", f.metadata.toJson)]

def fields : List (Field KeyError ForecastVector) := [
  ⟨"forecast", true, fun v r => do return { r with values := ← v.toList Json.toFloat }⟩,
  ⟨"start_period", true, fun v r => do return { r with startPeriod := ← v.toInt64 }⟩,
  ⟨"metadata", true, fun v r => do
    return { r with metadata := ← ForecastMetadata.ofJson (Json.depthLimit - 1) v }⟩]

def ofJson (v : Json) : Wire ForecastVector := v.toRecord fields default

end ForecastVector

end LagForecast
