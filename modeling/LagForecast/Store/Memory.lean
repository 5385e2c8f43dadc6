import LagForecast.Collection.OrderedMap
import LagForecast.Store.Basic
import LagForecast.Store.Document

/-!
Histories kept in memory.  Whatever is stored is a history.  What clients ask for is work on the
store that may break off, and nothing is taken back then; `serve_insert`, `serve_append` and
`serve_remove` say what each call answers and leaves.
-/

set_option autoImplicit false

namespace LagForecast

structure MemoryStore where
  histories : OrderedMap SeriesKey History

inductive StoreCall where
  | insert (k : SeriesKey) (l : List Observation)
  | append (k : SeriesKey) (o : Observation)
  | remove (k : SeriesKey)

/-- Work on a store that may break off.  What it has written by then stays written. -/
abbrev StoreWork := ExceptT HistoryError (StateM MemoryStore)

namespace MemoryStore

def empty : MemoryStore := ⟨.empty⟩

def get? (m : MemoryStore) (k : SeriesKey) : Option History := m.histories.find? k

def contains (m : MemoryStore) (k : SeriesKey) : Bool := m.histories.contains k

def size (m : MemoryStore) : Nat := m.histories.size

def observations (m : MemoryStore) (k : SeriesKey) : List Observation :=
  match m.get? k with
  | some h => h.observations
  | none => []

def put (m : MemoryStore) (k : SeriesKey) (h : History) : MemoryStore := ⟨m.histories.insert k h⟩

def erase (m : MemoryStore) (k : SeriesKey) : MemoryStore := ⟨m.histories.erase k⟩

end MemoryStore

namespace StoreCall

open MonadExcept (ofExcept)

def key : StoreCall → SeriesKey
  | insert k _ | append k _ | remove k => k

/-- Do what a call asks for; the answer tells whether there was something to do. -/
def perform : StoreCall → StoreWork Bool
  | insert k l => do
    let h ← ofExcept (History.ofList l)
    modify fun m => m.put k h
    return true
  | append k o => do
    let m ← get
    let h ← ofExcept (History.ofList (m.observations k ++ [o]))
    set (m.put k h)
    return true
  | remove k => do
    let m ← get
    set (m.erase k)
    return m.contains k

end StoreCall

namespace MemoryStore

def serve (m : MemoryStore) (c : StoreCall) : Except HistoryError Bool × MemoryStore :=
  Id.run (StateT.run (ExceptT.run c.perform) m)

theorem serve_insert (m : MemoryStore) (k : SeriesKey) (l : List Observation) :
    m.serve (.insert k l) =
      match History.ofList l with
      | .ok h => (.ok true, m.put k h)
      | .error e => (.error e, m) := by
  simp only [serve, StoreCall.perform]
  cases History.ofList l <;> rfl

theorem serve_append (m : MemoryStore) (k : SeriesKey) (o : Observation) :
    m.serve (.append k o) =
      match History.ofList (m.observations k ++ [o]) with
      | .ok h => (.ok true, m.put k h)
      | .error e => (.error e, m) := by
  change Id.run (StateT.run (ExceptT.run do
    let h ← MonadExcept.ofExcept (History.ofList (m.observations k ++ [o]))
    set (m.put k h)
    return true) m) = _
  cases History.ofList (m.observations k ++ [o]) <;> rfl

theorem serve_remove (m : MemoryStore) (k : SeriesKey) :
    m.serve (.remove k) = (.ok (m.contains k), m.erase k) := rfl

/-- The store that served work leaves, unless the work broke off. -/
def served : Except HistoryError Bool × MemoryStore → Except HistoryError MemoryStore
  | (.ok _, m) => .ok m
  | (.error e, _) => .error e

def insert (m : MemoryStore) (k : SeriesKey) (l : List Observation) :
    Except HistoryError MemoryStore :=
  served (m.serve (.insert k l))

def append (m : MemoryStore) (k : SeriesKey) (o : Observation) : Except HistoryError MemoryStore :=
  served (m.serve (.append k o))

def addRecord (m : MemoryStore) (r : SeriesRecord) : Except StoreError MemoryStore := do
  let k ← r.key
  if m.contains k then throw (.malformed (.repeated k.canonical))
  else
    match m.insert k r.observations with
    | .ok m => return m
    | .error e => throw (.malformed (.inSeries k.canonical e))

/-- Keep all series of a document, reporting the first record that cannot be kept. -/
def ofDocument (d : HistoryDocument) : Except StoreError MemoryStore :=
  d.series.foldlM addRecord empty

def store (m : MemoryStore) : HistoryStore := ⟨"memory", fun k => .ok (m.observations k)⟩

end MemoryStore

end LagForecast
