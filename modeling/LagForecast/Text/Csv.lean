import LagForecast.Text.Basic

/-!
Records of fields with commas between them.  Records end at a line feed, a carriage return or both,
and empty lines are passed over.  A field that begins with a quotation mark may hold commas and
line ends up to the next lone mark, and two marks stand for one.
-/

set_option autoImplicit false

namespace LagForecast

namespace Csv

/-- Where in a text a byte stands. -/
inductive Place where
  /-- Before a record. -/
  | record
  /-- At the start of a field. -/
  | field
  /-- In a field, outside quotation marks. -/
  | plain
  /-- Between quotation marks. -/
  | quoted
  /-- After a quotation mark between quotation marks. -/
  | mark
  deriving DecidableEq

/-- What was read: complete records, the complete fields of the present one, and the bytes of the
present field, each last one first. -/
structure State where
  place : Place
  bytes : List UInt8
  fields : List (List UInt8)
  records : List (List (List UInt8))

def State.start : State := ⟨.record, [], [], []⟩

namespace State

variable (s : State)

def endField : State := { s with place := .field, bytes := [], fields := s.bytes.reverse :: s.fields }

def endRecord : State :=
  ⟨.record, [], [], (s.bytes.reverse :: s.fields).reverse :: s.records⟩

def push (place : Place) (b : UInt8) : State := { s with place, bytes := b :: s.bytes }

def outside (b : UInt8) : State :=
  if b = 0x2C then s.endField
  else if b = 0x0A || b = 0x0D then s.endRecord
  else s.push .plain b

def opening (b : UInt8) : State :=
  if b = 0x22 then { s with place := .quoted } else s.outside b

def step (b : UInt8) : State :=
  match s.place with
  | .record => if b = 0x0A || b = 0x0D then s else s.opening b
  | .field => s.opening b
  | .plain => s.outside b
  | .quoted => if b = 0x22 then { s with place := .mark } else s.push .quoted b
  | .mark => if b = 0x22 then s.push .quoted b else s.outside b

/-- The records at the end of a text; a record that was begun ends there. -/
def finish : List (List (List UInt8)) :=
  (if s.place = .record then s else s.endRecord).records.reverse

end State

/-- The records of a text, a byte order mark in front of it left out. -/
def records (bs : List UInt8) : List (List (List UInt8)) :=
  let bs :=
    match bs with
    | 0xEF :: 0xBB :: 0xBF :: rest => rest
    | bs => bs
  (bs.foldl State.step .start).finish

def texts? (fields : List (List UInt8)) : Option (List String) := fields.mapM Text.ofBytes?

end Csv

end LagForecast
