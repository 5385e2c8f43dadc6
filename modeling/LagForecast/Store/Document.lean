import LagForecast.Store.Basic

/-!
Documents that hold the observations of many series, and the store that reads one from a file each
time it is asked.
-/

set_option autoImplicit false

namespace LagForecast

open Json (Field)

/-- One series of a document.  Its scope is checked when its key is asked for. -/
structure SeriesRecord where
  scope : String
  filters : Filters
  observations : List Observation
  deriving Inhabited

namespace SeriesRecord

def ofKey (k : SeriesKey) (observations : List Observation) : SeriesRecord :=
  ⟨k.scope, k.filters, observations⟩

def key (r : SeriesRecord) : Except StoreError SeriesKey :=
  match SeriesKey.make r.scope r.filters with
  | .ok k => .ok k
  | .error e => .error (.malformed (.key e))

def toJson (r : SeriesRecord) : Json :=
  .record [("scoping_id", .text r.scope), ("dimension_filters", r.filters.toJson),
    ("observations", .array (r.observations.map Observation.toJson))]

def fields : List (Field KeyError SeriesRecord) := [
  ⟨"scoping_id", true, fun v r => do return { r with scope := ← v.toText }⟩,
  ⟨"dimension_filters", false, fun v r => do return { r with filters := ← Filters.ofJson v }⟩,
  ⟨"observations", false, fun v r => do
    return { r with observations := ← v.toList Observation.ofJson }⟩]

def ofJson (v : Json) : Wire SeriesRecord := v.toRecord fields default

end SeriesRecord

structure HistoryDocument where
  series : List SeriesRecord
  deriving Inhabited

namespace HistoryDocument

def toJson (d : HistoryDocument) : Json :=
  .record [("series", .array (d.series.map SeriesRecord.toJson))]

def fields : List (Field KeyError HistoryDocument) := [
  ⟨"series", false, fun v _ => do return ⟨← v.toList SeriesRecord.ofJson⟩⟩]

def ofJson (v : Json) : Wire HistoryDocument := v.toRecord fields default

def ofBytes (text : List UInt8) : Except StoreError HistoryDocument :=
  match Json.decode ofJson text with
  | .ok d => .ok d
  | .error fault => .error (.malformed (.text fault))

/-- The observations of a series among some records, given what was found before them. -/
def findFrom (k : SeriesKey) :
    Option (List Observation) → List SeriesRecord → Except StoreError (Option (List Observation))
  | found, [] => .ok found
  | found, r :: rest => do
    let key ← r.key
    if key = k then
      if found.isSome then throw (.malformed (.repeated k.canonical))
      else findFrom k (some r.observations) rest
    else findFrom k found rest

/-- The observations of a series, if the document has it.  Every record has to have a key, and
no two records that of the series. -/
def find (d : HistoryDocument) (k : SeriesKey) : Except StoreError (Option (List Observation)) :=
  findFrom k none d.series

end HistoryDocument

/-- The files at some moment: the bytes at each path, or why there are none. -/
abbrev FileView := String → Except FileFault (List UInt8)

def HistoryDocument.load (files : FileView) (path : String) : Except StoreError HistoryDocument :=
  match files path with
  | .ok bytes => ofBytes bytes
  | .error fault => .error (.unavailable (.file path fault))

/-- The store that reads a file anew for every answer. -/
def HistoryStore.jsonFile (files : FileView) (path : String) : HistoryStore :=
  ⟨"json_file", fun k => do
    let d ← HistoryDocument.load files path
    return (← d.find k).getD []⟩

end LagForecast
