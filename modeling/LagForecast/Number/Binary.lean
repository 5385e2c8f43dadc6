import LagForecast.Number.Digits

/-!
Finite binary numbers as a whole number times a power of two, and with a set number of decimal places:
the exact value is rounded once, and a half goes to the even neighbour.
-/

set_option autoImplicit false

namespace LagForecast

/-- A size `significand * 2 ^ exponent`. -/
structure Binary where
  significand : Nat
  exponent : Int
  deriving DecidableEq

namespace Binary

def ofFloat (x : Float) : Binary :=
  let bits : Nat := x.toBits.toNat
  let biased : Nat := bits / 0x10000000000000 % 0x800
  let fraction : Nat := bits % 0x10000000000000
  if biased = 0 then ⟨fraction, -1074⟩ else ⟨0x10000000000000 + fraction, (biased : Int) - 1075⟩

def numerator (b : Binary) : Nat := b.significand * Nat.pow 2 b.exponent.toNat

def denominator (b : Binary) : Nat := Nat.pow 2 (-b.exponent).toNat

end Binary

/-- Whether the sign of a number is minus; zero has a sign too. -/
def signIsMinus (x : Float) : Bool := x.toBits.toNat / 0x8000000000000000 % 2 = 1

/-- The whole number nearest to a quotient, ties to even. -/
def roundQuotient (num den : Nat) : Nat :=
  let q := num / den
  match compare (2 * (num % den)) den with
  | .lt => q
  | .gt => q + 1
  | .eq => if q % 2 = 0 then q else q + 1

/-- A number with a set number of decimal places; zero keeps its sign. -/
def fixedPlaces (places : Nat) (x : Float) : String :=
  if x.isNaN then "NaN"
  else
    let sign := if signIsMinus x then ['-'] else []
    if !x.isFinite then String.ofList (sign ++ ['i', 'n', 'f'])
    else
      let b := Binary.ofFloat x
      let scaled := digits (roundQuotient (b.numerator * Nat.pow 10 places) b.denominator)
      let padded := List.replicate (places + 1 - scaled.length) .zero ++ scaled
      let (whole, fraction) := padded.splitAt (padded.length - places)
      String.ofList (sign ++ whole.map Digit.char ++ '.' :: fraction.map Digit.char)

end LagForecast
