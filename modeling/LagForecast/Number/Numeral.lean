import LagForecast.Number.Digits

/-!
Decimal numbers, and the form in which they are written: digits, perhaps a fraction, perhaps an
exponent.  The form tells whole numbers from others, so that `1` and `1.0` are different numerals of
one value.
-/

set_option autoImplicit false

namespace LagForecast

/-- A decimal number: `coefficient * 10 ^ exponent` with a sign. -/
structure Decimal where
  negative : Bool
  coefficient : Nat
  exponent : Int
  deriving DecidableEq

namespace Decimal

/-- The binary number nearest to the size of a decimal, ties to even.  Beyond 400 places on either
side the answer is known without computing the power. -/
def magnitude (d : Decimal) : Float :=
  if d.coefficient = 0 then 0.0
  else if 400 < d.exponent then 1.0 / 0.0
  else if d.exponent < -(d.coefficient.log2 + 400 : Nat) then 0.0
  else Float.ofScientific d.coefficient (d.exponent < 0) d.exponent.natAbs

def toFloat (d : Decimal) : Float := if d.negative then -d.magnitude else d.magnitude

end Decimal

/-- A written number.  Without a fraction the digits after the point are none. -/
structure Numeral where
  negative : Bool
  whole : List Digit
  fraction : List Digit
  /-- The power of ten, as whether its sign is minus and its digits. -/
  exponent : Option (Bool × List Digit)
  deriving DecidableEq

namespace Numeral

def power (n : Numeral) : Int :=
  match n.exponent with
  | none => 0
  | some (true, ds) => -(value ds : Int)
  | some (false, ds) => value ds

def toDecimal (n : Numeral) : Decimal :=
  ⟨n.negative, value (n.whole ++ n.fraction), n.power - n.fraction.length⟩

def toFloat (n : Numeral) : Float := n.toDecimal.toFloat

/-- The whole number that is written, if it is written as one.  A zero with a minus sign is not. -/
def toInt? (n : Numeral) : Option Int :=
  if n.fraction = [] ∧ n.exponent = none then
    if n.negative then
      if value n.whole = 0 then none else some (-(value n.whole : Int))
    else some (value n.whole)
  else none

def ofInt (i : Int) : Numeral := ⟨i < 0, digits i.natAbs, [], none⟩

def chars (n : Numeral) : List Char :=
  (if n.negative then ['-'] else []) ++ n.whole.map Digit.char ++
    (if n.fraction = [] then [] else '.' :: n.fraction.map Digit.char) ++
    match n.exponent with
    | none => []
    | some (minus, ds) => 'e' :: (if minus then '-' else '+') :: ds.map Digit.char

@[simp] theorem toInt?_ofInt (i : Int) : (ofInt i).toInt? = some i := by
  simp only [toInt?, ofInt, and_self, if_true, value_digits, decide_eq_true_eq]
  split
  · rw [if_neg (by omega)]
    congr 1
    omega
  · congr 1
    omega

end Numeral

end LagForecast
