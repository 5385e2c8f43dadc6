import LagForecast.Json.Basic
import LagForecast.Text.Basic

/-!
JSON read from bytes.  A reading never fails: it returns the tree of what could be read, and the
bytes after it unless the text broke off inside.
-/

set_option autoImplicit false

namespace LagForecast

namespace Json

/-- A value found at the start of some bytes, and the bytes after it if it could be read to its
end. -/
structure Reading (α : Type) where
  value : α
  rest : Option (List UInt8)

def isSpace (b : UInt8) : Bool := b = 0x20 || b = 0x09 || b = 0x0A || b = 0x0D

def skipSpaces (bs : List UInt8) : List UInt8 := bs.dropWhile isSpace

def ascii (c : Char) : UInt8 := c.toNat.toUInt8

def byteDigit? (b : UInt8) : Option Digit := Digit.ofChar? (Char.ofNat b.toNat)

/-- An optional fraction: a point with at least one digit after it. -/
def readFraction : List UInt8 → Option (List Digit × List UInt8)
  | [] => some ([], [])
  | b :: rest =>
    if b = ascii '.' then
      match leadingDigits byteDigit? rest with
      | ([], _) => none
      | (ds, after) => some (ds, after)
    else some ([], b :: rest)

def readPower (minus : Bool) (bs : List UInt8) : Option (Option (Bool × List Digit) × List UInt8) :=
  match leadingDigits byteDigit? bs with
  | ([], _) => none
  | (ds, after) => some (some (minus, ds), after)

def readExponent : List UInt8 → Option (Option (Bool × List Digit) × List UInt8)
  | [] => some (none, [])
  | b :: rest =>
    if b = ascii 'e' || b = ascii 'E' then
      match rest with
      | [] => none
      | c :: after =>
        if c = ascii '-' then readPower true after
        else if c = ascii '+' then readPower false after
        else readPower false (c :: after)
    else some (none, b :: rest)

/-- A numeral without its sign.  A leading zero stands alone. -/
def readUnsigned (negative : Bool) (bs : List UInt8) : Option (Numeral × List UInt8) :=
  match leadingDigits byteDigit? bs with
  | ([], _) => none
  | (d :: ds, rest) =>
    if d = .zero ∧ ds ≠ [] then none
    else
      match readFraction rest with
      | none => none
      | some (fraction, rest) =>
        match readExponent rest with
        | none => none
        | some (exponent, rest) => some (⟨negative, d :: ds, fraction, exponent⟩, rest)

def readNumeral : List UInt8 → Option (Numeral × List UInt8)
  | [] => none
  | b :: rest => if b = ascii '-' then readUnsigned true rest else readUnsigned false (b :: rest)

/-- The number that four hexadecimal digits denote. -/
def hexUnit? (a b c d : UInt8) : Option Nat := do
  let digit (x : UInt8) := Text.hexValue? (Char.ofNat x.toNat)
  return (((← digit a) * 16 + (← digit b)) * 16 + (← digit c)) * 16 + (← digit d)

def unescaped? (b : UInt8) : Option UInt8 :=
  if b = ascii '"' then some (ascii '"')
  else if b = ascii '\\' then some (ascii '\\')
  else if b = ascii '/' then some (ascii '/')
  else if b = ascii 'b' then some 0x08
  else if b = ascii 'f' then some 0x0C
  else if b = ascii 'n' then some 0x0A
  else if b = ascii 'r' then some 0x0D
  else if b = ascii 't' then some 0x09
  else none

/-- Put bytes in front of what is read next.  If the first half of a pair of units is `open` the
bytes are not its other half, and the string denotes no text. -/
def consBytes (half : Option Nat) (bs : List UInt8) :
    Option (Option (List UInt8) × List UInt8) → Option (Option (List UInt8) × List UInt8) :=
  Option.map fun (content, rest) => (if half.isNone then content.map (bs ++ ·) else none, rest)

/-- The bytes of a string up to its closing quotation mark, and what follows it.  The content is
`none` where an escaped half of a pair stands without the other; the whole is `none` where no
string can be read.  `half` is the first half of a pair read last. -/
def readString (half : Option Nat) : List UInt8 → Option (Option (List UInt8) × List UInt8)
  | [] => none
  | b :: rest =>
    if b = ascii '"' then some (if half.isNone then some [] else none, rest)
    else if b = ascii '\\' then
      match rest with
      | [] => none
      | e :: rest =>
        if e = ascii 'u' then
          match rest with
          | h₁ :: h₂ :: h₃ :: h₄ :: rest =>
            match hexUnit? h₁ h₂ h₃ h₄ with
            | none => none
            | some unit =>
              if 0xDC00 ≤ unit ∧ unit < 0xE000 then
                match half with
                | some high =>
                  let code := 0x10000 + (high - 0xD800) * 0x400 + (unit - 0xDC00)
                  consBytes none (String.utf8EncodeChar (Char.ofNat code)) (readString none rest)
                | none => (readString none rest).map fun (_, rest) => (none, rest)
              else if 0xD800 ≤ unit ∧ unit < 0xDC00 then
                consBytes half [] (readString (some unit) rest)
              else consBytes half (String.utf8EncodeChar (Char.ofNat unit)) (readString none rest)
          | _ => none
        else
          match unescaped? e with
          | none => none
          | some x => consBytes half [x] (readString none rest)
    else if b < 0x20 then none
    else consBytes half [b] (readString none rest)

def stuck : Reading Json := ⟨.broken, none⟩

def afterWord? (word : String) (bs : List UInt8) : Option (List UInt8) :=
  let w := Text.bytes word
  if bs.take w.length = w then some (bs.drop w.length) else none

def readPlain (bs : List UInt8) : Reading Json :=
  match afterWord? "null" bs, afterWord? "true" bs, afterWord? "false" bs with
  | some rest, _, _ => ⟨.null, some rest⟩
  | _, some rest, _ => ⟨.bool true, some rest⟩
  | _, _, some rest => ⟨.bool false, some rest⟩
  | none, none, none =>
    match readNumeral bs with
    | some (n, rest) => ⟨.number n, some rest⟩
    | none => stuck

mutual

/-- The value at the start of some bytes; `fuel` bounds the number of steps. -/
def readValue (fuel : Nat) (bs : List UInt8) : Reading Json :=
  match fuel with
  | 0 => stuck
  | fuel + 1 =>
    match skipSpaces bs with
    | [] => stuck
    | b :: rest =>
      if b = ascii '"' then
        match readString none rest with
        | some (content, after) => ⟨.string (content.bind Text.ofBytes?), some after⟩
        | none => stuck
      else if b = ascii '[' then
        match skipSpaces rest with
        | [] => ⟨.array [.broken], none⟩
        | c :: after =>
          if c = ascii ']' then ⟨.array [], some after⟩
          else
            let items := readItems fuel (c :: after)
            ⟨.array items.value, items.rest⟩
      else if b = ascii '\x7b' then
        match skipSpaces rest with
        | [] => ⟨.object [(none, .broken)], none⟩
        | c :: after =>
          if c = ascii '\x7d' then ⟨.object [], some after⟩
          else
            let entries := readEntries fuel (c :: after)
            ⟨.object entries.value, entries.rest⟩
      else readPlain (b :: rest)

def readItems (fuel : Nat) (bs : List UInt8) : Reading (List Json) :=
  match fuel with
  | 0 => ⟨[.broken], none⟩
  | fuel + 1 =>
    let first := readValue fuel bs
    match first.rest with
    | none => ⟨[first.value], none⟩
    | some rest =>
      match skipSpaces rest with
      | [] => ⟨[first.value, .broken], none⟩
      | b :: rest =>
        if b = ascii ']' then ⟨[first.value], some rest⟩
        else if b = ascii ',' then
          let others := readItems fuel rest
          ⟨first.value :: others.value, others.rest⟩
        else ⟨[first.value, .broken], none⟩

def readEntries (fuel : Nat) (bs : List UInt8) : Reading (List (Option String × Json)) :=
  match fuel with
  | 0 => ⟨[(none, .broken)], none⟩
  | fuel + 1 =>
    match skipSpaces bs with
    | [] => ⟨[(none, .broken)], none⟩
    | q :: bs =>
      if q = ascii '"' then
        match readString none bs with
        | none => ⟨[(none, .broken)], none⟩
        | some (content, rest) =>
          let name := content.bind Text.ofBytes?
          match skipSpaces rest with
          | [] => ⟨[(name, .broken)], none⟩
          | c :: rest =>
            if c = ascii ':' then
              let first := readValue fuel rest
              match first.rest with
              | none => ⟨[(name, first.value)], none⟩
              | some rest =>
                match skipSpaces rest with
                | [] => ⟨[(name, first.value), (none, .broken)], none⟩
                | b :: rest =>
                  if b = ascii '\x7d' then ⟨[(name, first.value)], some rest⟩
                  else if b = ascii ',' then
                    let others := readEntries fuel rest
                    ⟨(name, first.value) :: others.value, others.rest⟩
                  else ⟨[(name, first.value), (none, .broken)], none⟩
            else ⟨[(name, .broken)], none⟩
      else ⟨[(none, .broken)], none⟩

end

def read (bs : List UInt8) : Reading Json := readValue (2 * bs.length + 1) bs

/-- Whether a value was read to its end and nothing but white space follows. -/
def Reading.complete {α : Type} (r : Reading α) : Bool := r.rest.any fun bs => bs.all isSpace

end Json

end LagForecast
