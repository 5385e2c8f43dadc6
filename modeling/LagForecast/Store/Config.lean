import LagForecast.Store.Document
import LagForecast.Store.Memory

/-!
Which store to use, and the store in use.
-/

set_option autoImplicit false

namespace LagForecast

open Json (Field)

/-- Which store to use: memory, perhaps seeded from a document in a file, or a file. -/
inductive StoreConfig where
  | memory (seed : Option String)
  | jsonFile (path : String)
  deriving DecidableEq

instance : Inhabited StoreConfig := ⟨.memory none⟩

namespace StoreConfig

def kind : StoreConfig → String
  | memory _ => "memory"
  | jsonFile _ => "json_file"

def toJson (c : StoreConfig) : Json :=
  match c with
  | memory seed => .record [("kind", .text c.kind), ("seed", seed.elim .null .text)]
  | jsonFile path => .record [("kind", .text c.kind), ("path", .text path)]

def memoryFields : List (Field KeyError (Option String)) := [
  ⟨"seed", false, fun v _ => v.toOption Json.toText⟩]

def fileFields : List (Field KeyError String) := [⟨"path", true, fun v _ => v.toText⟩]

def ofJson (v : Json) : Wire StoreConfig :=
  v.toTagged "kind" Json.depthLimit [
    ("memory", fun v => (v.toRecord memoryFields none).map memory),
    ("json_file", fun v => (v.toRecord fileFields "").map jsonFile)]

end StoreConfig

inductive Backend where
  | memory (store : MemoryStore)
  | jsonFile (path : String)
  | other (store : HistoryStore)

namespace Backend

/-- The store as it answers while the files are as given. -/
def store (files : FileView) : Backend → HistoryStore
  | memory m => m.store
  | jsonFile path => .jsonFile files path
  | other s => s

end Backend

/-- Open a store.  A seed is read now; a file store reads its file when it is asked. -/
def StoreConfig.connect (files : FileView) : StoreConfig → Except StoreError Backend
  | memory none => .ok (.memory .empty)
  | memory (some path) => do
    let d ← HistoryDocument.load files path
    return .memory (← MemoryStore.ofDocument d)
  | jsonFile path => .ok (.jsonFile path)

end LagForecast
