import LagForecast.Number.Digits

/-!
Whole numbers read from a text that holds nothing else.
-/

set_option autoImplicit false

namespace LagForecast

inductive WholeFault where
  | empty
  | invalidDigit
  | tooLarge
  | tooSmall
  deriving DecidableEq

namespace WholeFault

def message : WholeFault → String
  | empty => "cannot parse integer from empty string"
  | invalidDigit => "invalid digit found in string"
  | tooLarge => "number too large to fit in target type"
  | tooSmall => "number too small to fit in target type"

end WholeFault

/-- Read digits up to a bound, reporting the first character that is no digit or the first digit
that passes the bound, whichever stands first. -/
def boundedDigits (bound : Nat) (excess : WholeFault) : Nat → List Char → Except WholeFault Nat
  | n, [] => .ok n
  | n, c :: rest =>
    match Digit.ofChar? c with
    | none => .error .invalidDigit
    | some d =>
      if bound < 10 * n + d.val then .error excess
      else boundedDigits bound excess (10 * n + d.val) rest

def someDigits (bound : Nat) (excess : WholeFault) : List Char → Except WholeFault Nat
  | [] => .error .invalidDigit
  | cs => boundedDigits bound excess 0 cs

/-- Read a whole number from zero to `bound`; a plus sign may stand in front. -/
def readNat (bound : Nat) (s : String) : Except WholeFault Nat :=
  match s.toList with
  | [] => .error .empty
  | '+' :: cs => someDigits bound .tooLarge cs
  | cs => someDigits bound .tooLarge cs

/-- Read a whole number from `-(bound + 1)` to `bound`; a sign may stand in front. -/
def readInt (bound : Nat) (s : String) : Except WholeFault Int :=
  match s.toList with
  | [] => .error .empty
  | '+' :: cs => (someDigits bound .tooLarge cs).map Int.ofNat
  | '-' :: cs => (someDigits (bound + 1) .tooSmall cs).map fun n => -(n : Int)
  | cs => (someDigits bound .tooLarge cs).map Int.ofNat

end LagForecast
