import LagForecast.Number.Numeral

/-!
JSON texts as trees.  A tree says what stands in a text up to the place where the text can no
longer be read, and marks that place, so that whoever walks the tree in reading order meets the
faults of the text in the order in which they stand.
-/

set_option autoImplicit false

namespace LagForecast

/-- What a JSON text holds.  A string is `none` if it denotes no text; the entries of an object
are kept as they stand, repeated names included. -/
inductive Json where
  | null
  | bool (b : Bool)
  | number (n : Numeral)
  | string (s : Option String)
  | array (items : List Json)
  | object (entries : List (Option String × Json))
  /-- The place where the text cannot be read on. -/
  | broken

namespace Json

/-- How deep arrays and objects may be nested where a value is taken over whole. -/
def depthLimit : Nat := 127

def text (s : String) : Json := .string (some s)

def int (i : Int) : Json := .number (.ofInt i)

def record (entries : List (String × Json)) : Json :=
  .object (entries.map fun e => (some e.1, e.2))

mutual

def readable : Json → Bool
  | .broken => false
  | .array items => allReadable items
  | .object entries => allEntriesReadable entries
  | _ => true

def allReadable : List Json → Bool
  | [] => true
  | v :: rest => readable v && allReadable rest

def allEntriesReadable : List (Option String × Json) → Bool
  | [] => true
  | (_, v) :: rest => readable v && allEntriesReadable rest

end

mutual

/-- Whether the value can be taken over whole: it can be read, its strings denote texts, its
numbers are within range, and its arrays and objects are nested at most `room` deep. -/
def sound (room : Nat) : Json → Bool
  | .null => true
  | .bool _ => true
  | .number n => n.toFloat.isFinite
  | .string s => s.isSome
  | .array items => room != 0 && allSound (room - 1) items
  | .object entries => room != 0 && allEntriesSound (room - 1) entries
  | .broken => false

def allSound (room : Nat) : List Json → Bool
  | [] => true
  | v :: rest => sound room v && allSound room rest

def allEntriesSound (room : Nat) : List (Option String × Json) → Bool
  | [] => true
  | (k, v) :: rest => k.isSome && sound room v && allEntriesSound room rest

end

def lastEntry? (name : String) (entries : List (Option String × Json)) : Option Json :=
  (entries.reverse.find? fun e => e.1 == some name).map Prod.snd

end Json

end LagForecast
