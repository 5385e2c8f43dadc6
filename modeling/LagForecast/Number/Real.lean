import LagForecast.Number.Numeral

/-!
Numbers with a fraction or an exponent, read from a text that holds nothing else.
-/

set_option autoImplicit false

namespace LagForecast

inductive RealFault where
  | empty
  | invalid
  deriving DecidableEq

namespace RealFault

def message : RealFault → String
  | empty => "cannot parse float from empty string"
  | invalid => "invalid float literal"

end RealFault

/-- An exponent mark with its whole number, or nothing at all. -/
def exponentPart : List Char → Option Int
  | [] => some 0
  | mark :: cs =>
    if mark = 'e' ∨ mark = 'E' then
      let (negative, cs) :=
        match cs with
        | '-' :: rest => (true, rest)
        | '+' :: rest => (false, rest)
        | rest => (false, rest)
      match leadingDigits Digit.ofChar? cs with
      | (d :: ds, []) => some (if negative then -(value (d :: ds) : Int) else value (d :: ds))
      | _ => none
    else none

/-- Digits with at most one point among or beside them, then an exponent. -/
def unsignedDecimal (negative : Bool) (cs : List Char) : Option Decimal :=
  let (whole, cs) := leadingDigits Digit.ofChar? cs
  let (fraction, cs) :=
    match cs with
    | '.' :: rest => leadingDigits Digit.ofChar? rest
    | rest => ([], rest)
  if whole = [] ∧ fraction = [] then none
  else (exponentPart cs).map fun e => ⟨negative, value (whole ++ fraction), e - fraction.length⟩

/-- Read a number: a sign, then digits or the name of an infinity or of no number, in any case. -/
def readFloat (s : String) : Except RealFault Float :=
  match s.toList with
  | [] => .error .empty
  | c :: cs =>
    let negative := c = '-'
    let body := if c = '-' ∨ c = '+' then cs else c :: cs
    let name := String.ofList (body.map Char.toLower)
    if name = "inf" ∨ name = "infinity" then
      .ok (if negative then -(1.0 / 0.0) else 1.0 / 0.0)
    else if name = "nan" then .ok (0.0 / 0.0)
    else
      match unsignedDecimal negative body with
      | some d => .ok d.toFloat
      | none => .error .invalid

end LagForecast
