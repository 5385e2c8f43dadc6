import LagForecast.CommandLine.Error
import LagForecast.Json.Embedded
import LagForecast.Number.Real
import LagForecast.Number.Whole
import LagForecast.Store.Document
import LagForecast.Text.Csv
import LagForecast.Text.Basic

/-!
Observations read from tables and from JSON texts.
-/

set_option autoImplicit false

namespace LagForecast

namespace Table

def periodColumn (headers : List String) : Option Nat :=
  headers.findIdx? fun h => Text.sameLetters (Text.trim h) "period"

/-- The column of the values: the one that is asked for by number or by name, else the one of that
name, else the first that is not the column of the periods. -/
def valueColumn (headers : List String) (column : Option String) : Except LoadError Nat :=
  match column with
  | some name =>
    match readNat 0xFFFFFFFFFFFFFFFF name with
    | .ok i => .ok i
    | .error _ =>
      match headers.findIdx? fun h => Text.trim h = name with
      | some i => .ok i
      | none => .error (.noColumn name)
  | none =>
    match headers.findIdx? fun h => Text.sameLetters (Text.trim h) "value" with
    | some i => .ok i
    | none =>
      match (List.range headers.length).find? fun i => some i ≠ periodColumn headers with
      | some i => .ok i
      | none => .error .noValueColumn

def rowValue (row : Nat) (raw : Option String) : Except LoadError Float :=
  let text := Text.trim (raw.getD "")
  if text = "" then .error (.missingValue row)
  else (readFloat text).mapError fun _ => .notNumber row text

/-- The period of a row; without a column of periods the rows are numbered from one. -/
def rowPeriod (row : Nat) (raw : Option String) : Except LoadError Int :=
  match raw with
  | some text => (readInt 0x7FFFFFFFFFFFFFFF (Text.trim text)).mapError fun _ => .notInteger row text
  | none => .ok row

/-- The observations in the rows of a table, the first of which has the number `row`.  A row has
to have as many fields as the headers. -/
def rows (width value : Nat) (period : Option Nat) :
    Nat → List (List (List UInt8)) → Except LoadError (List Observation)
  | _, [] => .ok []
  | row, fields :: rest =>
    match if fields.length = width then Csv.texts? fields else none with
    | none => .error .record
    | some texts => do
      let v ← rowValue row texts[value]?
      let p ← rowPeriod row (period.bind fun i => texts[i]?)
      let others ← rows width value period (row + 1) rest
      return ⟨p, v⟩ :: others

def observations (column : Option String) (bs : List UInt8) :
    Except LoadError (List Observation) := do
  let (first, rest) :=
    match Csv.records bs with
    | [] => ([], [])
    | first :: rest => (first, rest)
  match Csv.texts? first with
  | none => throw .headers
  | some headers =>
    let value ← valueColumn headers column
    match ← rows headers.length value (periodColumn headers) 1 rest with
    | [] => throw .noRows
    | l => return l

end Table

namespace Json

def arrayNames : List String := ["observations", "values", "data"]

def observationArray : Json → Except LoadError (List Json)
  | .array items => .ok items
  | .object entries =>
    let array (name : String) : Option (List Json) :=
      match lastEntry? name entries with
      | some (.array items) => some items
      | _ => none
    match arrayNames.findSome? array with
    | some items => .ok items
    | none => .error .noArray
  | _ => .error .noNumbers

def entryNumber (name : String) (entries : List (Option String × Json)) : Option Float :=
  match lastEntry? name entries with
  | some (.number n) => some n.toFloat
  | _ => none

/-- The period of an entry; one that has none has its place as its period. -/
def entryPeriod (place : Nat) (entries : List (Option String × Json)) : Except LoadError Int :=
  match lastEntry? "period" entries with
  | none => .ok place
  | some (.number n) =>
    match n.toInt? with
    | some p =>
      if -0x8000000000000000 ≤ p ∧ p ≤ lastPossiblePeriod then .ok p else .error (.entryPeriod place)
    | none => .error (.entryPeriod place)
  | some _ => .error (.entryPeriod place)

def entryObservation (valueName : String) (place : Nat) : Json → Except LoadError Observation
  | .number n => .ok ⟨place, n.toFloat⟩
  | .object entries => do
    let p ← entryPeriod place entries
    match entryNumber valueName entries with
    | some v => return ⟨p, v⟩
    | none => throw (.entryValue place)
  | _ => .error (.entryValue place)

/-- The observations in the items of an array, the first of which has the place `place`. -/
def entryObservations (valueName : String) : Nat → List Json → Except LoadError (List Observation)
  | _, [] => .ok []
  | place, v :: rest => do
    let o ← entryObservation valueName place v
    let others ← entryObservations valueName (place + 1) rest
    return o :: others

def observations (column : Option String) (bs : List UInt8) :
    Except LoadError (List Observation) := do
  match readExpanded? bs with
  | none => throw .json
  | some v =>
    let items ← observationArray v
    match ← entryObservations (column.getD "value") 1 items with
    | [] => throw .noNumbers
    | l => return l

end Json

/-- The last part of a path, unless the path names no file. -/
def fileName? (path : String) : Option (List Char) :=
  let names := (Text.parts '/' path).filter fun p => p ≠ [] && p ≠ ['.']
  names.getLast?.filter fun p => p ≠ ['.', '.']

/-- What follows the last point of a file name, in small letters; a point at its start does not
count. -/
def extension (path : String) : String :=
  let name := (fileName? path).getD []
  let tail := name.reverse.takeWhile (· ≠ '.')
  if tail.length + 1 < name.length then String.ofList (tail.reverse.map Char.toLower) else ""

/-- The observations in a file, read by `parse`; `unread` is the error for a directory, which can be
opened but not read. -/
def loadWith (files : FileView) (path : String) (unread : LoadError)
    (parse : List UInt8 → Except LoadError (List Observation)) :
    Except LoadError (List Observation) :=
  match files path with
  | .ok bytes => parse bytes
  | .error .directory => .error unread
  | .error fault => .error (.opening fault)

def loadTable (files : FileView) (path : String) (column : Option String) :
    Except LoadError (List Observation) :=
  loadWith files path .headers (Table.observations column)

def loadJson (files : FileView) (path : String) (column : Option String) :
    Except LoadError (List Observation) :=
  loadWith files path .json (Json.observations column)

/-- The observations in a file, whose extension says what it holds.  With another extension it is
read as a table, and as JSON if that fails. -/
def loadObservations (files : FileView) (path : String) (column : Option String) :
    Except LoadError (List Observation) :=
  if extension path = "csv" then loadTable files path column
  else if extension path = "json" then loadJson files path column
  else
    match loadTable files path column with
    | .ok l => .ok l
    | .error _ => loadJson files path column

end LagForecast
