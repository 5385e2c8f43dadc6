import LagForecast.Series.Wire
import LagForecast.Variance.Wire

/-!
What clients ask for.
-/

set_option autoImplicit false

namespace LagForecast

open Json (Field)

def SeriesSelector.requestedKey (s : SeriesSelector) : Except ForecastError SeriesKey :=
  s.key.mapError .invalidKey

structure ForecastRequest where
  series : SeriesSelector
  horizonPeriods : Int
  deriving DecidableEq, Inhabited

namespace ForecastRequest

def toJson (r : ForecastRequest) : Json :=
  .record [("scoping_id", .text r.series.scope),
    ("dimension_filters", selectionsToJson r.series.selections.entries),
    ("horizon_periods", .int r.horizonPeriods)]

def fields : List (Field KeyError ForecastRequest) :=
  (SeriesSelector.fields.map fun f =>
    ⟨f.name, f.required, fun v r => do return { r with series := ← f.store v r.series }⟩) ++
  [⟨"horizon_periods", true, fun v r => do return { r with horizonPeriods := ← v.toInt64 }⟩]

def ofJson (v : Json) : Wire ForecastRequest := v.toRecord fields default

end ForecastRequest

structure VarianceRequest where
  base : SeriesSelector
  compare : SeriesSelector
  config : VarianceConfig := {}

namespace VarianceRequest

/-- A request as an object, in which the settings stand beside the series. -/
def toJson (r : VarianceRequest) : Json :=
  .record ([("base", r.base.toJson), ("compare", r.compare.toJson)] ++ r.config.entries)

/-- The two series of a request, and the entries that are not series, last one first. -/
structure Parts where
  base : Option SeriesSelector := none
  compare : Option SeriesSelector := none
  others : List (Option String × Json) := []

/-- Sort the entries of a request.  Entries that are not series have to be sound. -/
def sortEntries : Parts → List (Option String × Json) → Wire Parts
  | parts, [] => .ok parts
  | _, (none, _) :: _ => Json.unreadable
  | parts, (some name, v) :: rest => do
    if name = "base" then
      if parts.base.isSome then Json.unreadable
      else sortEntries { parts with base := some (← SeriesSelector.ofJson v) } rest
    else if name = "compare" then
      if parts.compare.isSome then Json.unreadable
      else sortEntries { parts with compare := some (← SeriesSelector.ofJson v) } rest
    else if v.sound (Json.depthLimit - 1) then
      sortEntries { parts with others := (some name, v) :: parts.others } rest
    else Json.unreadable

/-- One of some names where the settings of a request stand: `null` may also be an empty
object. -/
def toName {α : Type} (names : List (String × α)) : Json → Wire α
  | .object [(name, .object [])] => Json.toName names (.object [(name, .null)])
  | v => v.toName names

def ofJson : Json → Wire VarianceRequest
  | .object entries => do
    let parts ← sortEntries {} entries
    match parts.base, parts.compare with
    | some base, some compare =>
      let config ←
        (Json.object parts.others.reverse).toRecord (VarianceConfig.fieldsWith toName) {}
      return { base, compare, config }
    | _, _ => Json.unreadable
  | _ => Json.unreadable

end VarianceRequest

end LagForecast
