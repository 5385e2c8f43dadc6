import LagForecast.Json.Decoder
import LagForecast.Json.Printer
import LagForecast.Series.Selection

/-!
Filters, keys and selectors as JSON.
-/

set_option autoImplicit false

namespace LagForecast

open Json (Decoded Field)

/-- What a text was asked for and does not hold; a key error says why a key in it is refused. -/
abbrev WireFault := Json.Fault KeyError

/-- The text shown for a fault; the place and nature of a fault of the text itself are left out. -/
def WireFault.message : WireFault → String
  | .unreadable => "<json>"
  | .refused e => e.message

abbrev Wire (α : Type) := Except WireFault α

namespace Selection

def toJson : Selection → Json
  | one v => .text v
  | many vs => .array (vs.map .text)

def ofJson : Json → Wire Selection
  | .string (some s) => .ok (one s)
  | .array items => (Json.decodeAll Json.toText items).map many
  | _ => Json.unreadable

end Selection

def selectionsToJson (l : List (String × Selection)) : Json :=
  .record (l.map fun p => (p.1, p.2.toJson))

/-- Read selections; of entries with one name the last counts. -/
def selectionsOfJson : Json → Wire (OrderedMap String Selection)
  | .object entries => (Json.decodeEntries Selection.ofJson entries).map OrderedMap.ofList
  | _ => Json.unreadable

namespace Filters

def toJson (f : Filters) : Json := selectionsToJson f.selections

/-- Read filters.  They are checked as soon as the object has been read. -/
def ofJson (v : Json) : Wire Filters := do
  let m ← selectionsOfJson v
  Json.refuse (ofSelections m)

end Filters

namespace SeriesKey

def toJson (k : SeriesKey) : Json :=
  .record [("scoping_id", .text k.scope), ("dimension_filters", k.filters.toJson)]

def fields : List (Field KeyError (String × Filters)) := [
  ⟨"scoping_id", true, fun v r => do return (← v.toText, r.2)⟩,
  ⟨"dimension_filters", false, fun v r => do return (r.1, ← Filters.ofJson v)⟩]

/-- Read a key.  The scope is checked when all has been read. -/
def ofJson (v : Json) : Wire SeriesKey := do
  let (scope, filters) ← v.toRecord fields ("", .empty)
  Json.refuse (make scope filters)

end SeriesKey

namespace SeriesSelector

def toJson (s : SeriesSelector) : Json :=
  .record [("scoping_id", .text s.scope),
    ("dimension_filters", selectionsToJson s.selections.entries)]

def fields : List (Field KeyError SeriesSelector) := [
  ⟨"scoping_id", true, fun v r => do return { r with scope := ← v.toText }⟩,
  ⟨"dimension_filters", false, fun v r => do
    return { r with selections := ← selectionsOfJson v }⟩]

def ofJson (v : Json) : Wire SeriesSelector := v.toRecord fields default

end SeriesSelector

end LagForecast
