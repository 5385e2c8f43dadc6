import LagForecast.Json.Basic
import LagForecast.Number.Shortest
import LagForecast.Text.Basic

/-!
JSON values written as text, on one line or with an indentation of two spaces.
-/

set_option autoImplicit false

namespace LagForecast

namespace Json

/-- A number; what is not finite has no numeral and is written as `null`. -/
def float (x : Float) : Json := if x.isFinite then .number (.ofFloat x) else .null

/-- How a character stands in a string: quotation mark, backslash and control characters are
escaped. -/
def escapedChar (c : Char) : List Char :=
  if c = '"' then ['\\', '"']
  else if c = '\\' then ['\\', '\\']
  else if c = '\x08' then ['\\', 'b']
  else if c = '\x0c' then ['\\', 'f']
  else if c = '\n' then ['\\', 'n']
  else if c = '\r' then ['\\', 'r']
  else if c = '\t' then ['\\', 't']
  else if c.toNat < 0x20 then '\\' :: 'u' :: Text.hexDigits 4 c.toNat
  else [c]

/-- The characters of a string; what denotes no text is written as the empty string. -/
def stringChars (s : Option String) : List Char :=
  '"' :: (s.getD "").toList.flatMap escapedChar ++ ['"']

mutual

def chars : Json → List Char
  | .null => "null".toList
  | .bool true => "true".toList
  | .bool false => "false".toList
  | .number n => n.chars
  | .string s => stringChars s
  | .array items => '[' :: itemChars items ++ [']']
  | .object entries => '\x7b' :: entryChars entries ++ ['\x7d']
  | .broken => []

def itemChars : List Json → List Char
  | [] => []
  | [v] => chars v
  | v :: rest => chars v ++ ',' :: itemChars rest

def entryChars : List (Option String × Json) → List Char
  | [] => []
  | [(k, v)] => stringChars k ++ ':' :: chars v
  | (k, v) :: rest => stringChars k ++ ':' :: (chars v ++ ',' :: entryChars rest)

end

def newLine (depth : Nat) : List Char := '\n' :: List.replicate (2 * depth) ' '

mutual

def prettyChars (depth : Nat) : Json → List Char
  | .array (v :: rest) =>
    '[' :: prettyItems (depth + 1) (v :: rest) ++ newLine depth ++ [']']
  | .object (e :: rest) =>
    '\x7b' :: prettyEntries (depth + 1) (e :: rest) ++ newLine depth ++ ['\x7d']
  | v => chars v

def prettyItems (depth : Nat) : List Json → List Char
  | [] => []
  | [v] => newLine depth ++ prettyChars depth v
  | v :: rest => newLine depth ++ prettyChars depth v ++ ',' :: prettyItems depth rest

def prettyEntries (depth : Nat) : List (Option String × Json) → List Char
  | [] => []
  | [(k, v)] => newLine depth ++ stringChars k ++ ':' :: ' ' :: prettyChars depth v
  | (k, v) :: rest =>
    newLine depth ++ stringChars k ++ ':' :: ' ' :: prettyChars depth v ++
      ',' :: prettyEntries depth rest

end

def compact (v : Json) : String := String.ofList v.chars

def pretty (v : Json) : String := String.ofList (v.prettyChars 0)

end Json

end LagForecast
