import LagForecast.Forecast.Vector
import LagForecast.Variance.Basic

/-!
Settings and results of a comparison as JSON.
-/

set_option autoImplicit false

namespace LagForecast

open Json (Field)

def Direction.names : List (String × Direction) :=
  [("favorable", .favorable), ("adverse", .adverse)]

def Direction.name : Direction → String
  | favorable => "favorable"
  | adverse => "adverse"

def MissingPolicy.names : List (String × MissingPolicy) := [("skip", .skip), ("zero", .zero)]

def MissingPolicy.name : MissingPolicy → String
  | skip => "skip"
  | zero => "zero"

namespace VarianceConfig

def entries (c : VarianceConfig) : List (String × Json) :=
  [("direction", .text c.direction.name), ("noise_threshold", .float c.noiseThreshold),
    ("missing", .text c.missing.name), ("output_percent", .bool c.outputPercent)]

def toJson (c : VarianceConfig) : Json := .record c.entries

/-- The fields of settings, where names are read by `toName`. -/
def fieldsWith (toName : {α : Type} → List (String × α) → Json → Wire α) :
    List (Field KeyError VarianceConfig) := [
  ⟨"direction", false, fun v r => do return { r with direction := ← toName Direction.names v }⟩,
  ⟨"noise_threshold", false, fun v r => do return { r with noiseThreshold := ← v.toFloat }⟩,
  ⟨"missing", false, fun v r => do return { r with missing := ← toName MissingPolicy.names v }⟩,
  ⟨"output_percent", false, fun v r => do return { r with outputPercent := ← v.toBool }⟩]

def ofJson (v : Json) : Wire VarianceConfig := v.toRecord (fieldsWith Json.toName) {}

end VarianceConfig

namespace VariancePoint

/-- A point as an object; a relative difference that is not given is left out. -/
def toJson (p : VariancePoint) : Json :=
  .record ([("period", .int p.period), ("base", .float p.base), ("compare", .float p.compare),
    ("delta", .float p.delta)] ++ p.percent.elim [] fun x => [("percent", .float x)])

def fields : List (Field KeyError VariancePoint) := [
  ⟨"period", true, fun v r => do return { r with period := ← v.toInt64 }⟩,
  ⟨"base", true, fun v r => do return { r with base := ← v.toFloat }⟩,
  ⟨"compare", true, fun v r => do return { r with compare := ← v.toFloat }⟩,
  ⟨"delta", true, fun v r => do return { r with delta := ← v.toFloat }⟩,
  ⟨"percent", false, fun v r => do return { r with percent := ← v.toOption Json.toFloat }⟩]

def ofJson (v : Json) : Wire VariancePoint := v.toRecord fields default

end VariancePoint

namespace VarianceReport

def toJson (r : VarianceReport) : Json :=
  .record (ForecastMetadata.optionalText "base_series" r.baseSeries ++
    ForecastMetadata.optionalText "compare_series" r.compareSeries ++
    [("points", .array (r.points.map VariancePoint.toJson)), ("skipped", .int r.skipped),
      ("suppressed", .int r.suppressed)])

def fields : List (Field KeyError VarianceReport) := [
  ⟨"base_series", false, fun v r => do return { r with baseSeries := ← v.toOption Json.toText }⟩,
  ⟨"compare_series", false, fun v r => do
    return { r with compareSeries := ← v.toOption Json.toText }⟩,
  ⟨"points", true, fun v r => do return { r with points := ← v.toList VariancePoint.ofJson }⟩,
  ⟨"skipped", true, fun v r => do return { r with skipped := ← v.toNat64 }⟩,
  ⟨"suppressed", true, fun v r => do return { r with suppressed := ← v.toNat64 }⟩]

def ofJson (v : Json) : Wire VarianceReport := v.toRecord fields {}

end VarianceReport

end LagForecast
