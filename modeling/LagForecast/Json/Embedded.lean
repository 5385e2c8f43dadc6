import LagForecast.Json.Reader

/-!
JSON texts read whole, in which a value may also stand as a string that holds its text: an object
whose first entry has the reserved name is read as the value whose text the entry holds.
-/

set_option autoImplicit false

namespace LagForecast

namespace Json

def embeddedName : String := "$serde_json::private::RawValue"

/-- The value that a text holds, if all of the text can be taken over. -/
def readWhole? (bs : List UInt8) : Option Json :=
  let r := read bs
  if r.complete && r.value.sound depthLimit then some r.value else none

def embeds (entries : List (Option String × Json)) : Bool :=
  entries.head?.bind Prod.fst == some embeddedName

/-- Put the values that are held as texts in the places of their objects.  Such an object has no
other entry, and the text in it is read whole.  `fuel` bounds the depth, through which every step
goes down by one. -/
def expand : Nat → Json → Option Json
  | 0, _ => none
  | fuel + 1, .array items => (items.mapM (expand fuel)).map .array
  | fuel + 1, .object entries =>
    if embeds entries then
      match entries with
      | [(_, .string (some text))] => (readWhole? (Text.bytes text)).bind (expand fuel)
      | _ => none
    else (entries.mapM fun e => (expand fuel e.2).map (e.1, ·)).map .object
  | _ + 1, v => some v

/-- The value that a text holds, with the values that it holds as texts in their places.  A text
that is held is shorter than what holds it, so the length bounds the depth. -/
def readExpanded? (bs : List UInt8) : Option Json :=
  (readWhole? bs).bind (expand (bs.length + 1))

end Json

end LagForecast
