import LagForecast.Json.Reader

/-!
Values of other types taken from JSON trees.  A decoder walks the tree in reading order and stops
at the first fault; a fault is either that the text does not hold what is wanted, or that the type
asked for refuses what it holds, for a reason of its own.
-/

set_option autoImplicit false

namespace LagForecast

namespace Json

/-- Why a text could not be taken as a value of some type. -/
inductive Fault (ε : Type) where
  | unreadable
  | refused (reason : ε)
  deriving DecidableEq

abbrev Decoded (ε α : Type) := Except (Fault ε) α

variable {ε α β : Type}

def unreadable : Decoded ε α := .error .unreadable

def refuse : Except ε α → Decoded ε α
  | .ok a => .ok a
  | .error e => .error (.refused e)

def present : Option α → Decoded ε α
  | some a => .ok a
  | none => unreadable

def toText : Json → Decoded ε String
  | .string (some s) => .ok s
  | _ => unreadable

def toBool : Json → Decoded ε Bool
  | .bool b => .ok b
  | _ => unreadable

/-- A whole number of a range, written without fraction and exponent. -/
def toIntWithin (least greatest : Int) : Json → Decoded ε Int
  | .number n =>
    match n.toInt? with
    | some i => if least ≤ i ∧ i ≤ greatest then .ok i else unreadable
    | none => unreadable
  | _ => unreadable

def toInt64 : Json → Decoded ε Int := toIntWithin (-0x8000000000000000) 0x7FFFFFFFFFFFFFFF

def toNat64 (v : Json) : Decoded ε Nat := (toIntWithin 0 0xFFFFFFFFFFFFFFFF v).map Int.toNat

/-- A number; one that is out of range is refused. -/
def toFloat : Json → Decoded ε Float
  | .number n => if n.toFloat.isFinite then .ok n.toFloat else unreadable
  | _ => unreadable

def toOption (decode : Json → Decoded ε α) : Json → Decoded ε (Option α)
  | .null => .ok none
  | v => (decode v).map some

def decodeAll (decode : Json → Decoded ε α) : List Json → Decoded ε (List α)
  | [] => .ok []
  | v :: rest => do
    let a ← decode v
    let others ← decodeAll decode rest
    return a :: others

def toList (decode : Json → Decoded ε α) : Json → Decoded ε (List α)
  | .array items => decodeAll decode items
  | _ => unreadable

def decodeEntries (decode : Json → Decoded ε α) :
    List (Option String × Json) → Decoded ε (List (String × α))
  | [] => .ok []
  | (name, v) :: rest => do
    let name ← present name
    let a ← decode v
    let others ← decodeEntries decode rest
    return (name, a) :: others

/-- One of some names, as a string or as an object whose only entry has that name and `null`. -/
def toName (names : List (String × α)) : Json → Decoded ε α
  | .string (some s) => present (names.lookup s)
  | .object [(some s, .null)] => present (names.lookup s)
  | _ => unreadable

/-- A field of a record: its name, whether it must be given, and how it is stored. -/
structure Field (ε ρ : Type) where
  name : String
  required : Bool
  store : Json → ρ → Decoded ε ρ

/-- The fields as they stand in an object.  A field may stand once; entries of other names are
passed over, but have to be readable. -/
def readFields {ρ : Type} (fields : List (Field ε ρ)) :
    List String → ρ → List (Option String × Json) → Decoded ε ρ
  | seen, r, [] =>
    if fields.all fun f => !f.required || seen.contains f.name then .ok r else unreadable
  | _, _, (none, _) :: _ => unreadable
  | seen, r, (some name, v) :: rest =>
    match fields.find? fun f => f.name == name with
    | none => if v.readable then readFields fields seen r rest else unreadable
    | some f =>
      if seen.contains name then unreadable
      else do
        let r ← f.store v r
        readFields fields (name :: seen) r rest

/-- The fields as they stand in an array: in their order, and those at the end may be left out
unless they are required. -/
def readPositions {ρ : Type} : List (Field ε ρ) → ρ → List Json → Decoded ε ρ
  | fields, r, [] => if fields.all fun f => !f.required then .ok r else unreadable
  | [], _, _ :: _ => unreadable
  | f :: fields, r, v :: rest => do
    let r ← f.store v r
    readPositions fields r rest

def toRecord {ρ : Type} (fields : List (Field ε ρ)) (start : ρ) : Json → Decoded ε ρ
  | .object entries => readFields fields [] start entries
  | .array items => readPositions fields start items
  | _ => unreadable

/-- A value of one of several kinds, each with fields of its own: an object with the name of the
kind in the entry `tag`, or an array that begins with it.  The text of the whole value has to be
sound, at most `room` deep. -/
def toTagged (tag : String) (room : Nat) (kinds : List (String × (Json → Decoded ε α)))
    (v : Json) : Decoded ε α :=
  if v.sound room then
    match v with
    | .object entries => do
      match entries.partition fun e => e.1 == some tag with
      | ([(_, kind)], others) =>
        let name ← toText kind
        let decode ← present (kinds.lookup name)
        decode (.object others)
      | _ => unreadable
    | .array (kind :: items) => do
      let name ← toText kind
      let decode ← present (kinds.lookup name)
      decode (.array items)
    | _ => unreadable
  else unreadable

/-- Decode the value at the start of a text, whatever follows it. -/
def decodeStart (decode : Json → Decoded ε α) (text : List UInt8) : Decoded ε α :=
  decode (read text).value

def decode (decode : Json → Decoded ε α) (text : List UInt8) : Decoded ε α := do
  let r := read text
  let a ← decode r.value
  if r.complete then return a else unreadable

end Json

end LagForecast
