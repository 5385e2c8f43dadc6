/-!
The arithmetic that a model computes with.  Models run on binary floating-point numbers; laws that
rounding breaks can be studied on numbers that are exact.
-/

set_option autoImplicit false

namespace LagForecast

/-- Numbers with the operations and tests of a model. -/
class Scalar (α : Type) extends Add α, Mul α, Div α where
  /-- What an empty sum is. -/
  zero : α
  ofCount : Nat → α
  isFinite : α → Bool
  /-- Whether a number is too small to divide by: at most `2 ^ (-52)` in size. -/
  isNegligible : α → Bool
  below : α → α → Bool

/-- The sum of a list, from the left. -/
def Scalar.sum {α : Type} [Scalar α] (l : List α) : α := l.foldl (· + ·) Scalar.zero

def epsilon : Float := Float.ofBits 0x3CB0000000000000

/-- Sums start from a negative zero, so that a sum of negative zeros is one. -/
instance : Scalar Float where
  zero := -0.0
  ofCount n := Float.ofNat n
  isFinite x := x.isFinite
  isNegligible x := decide (x.abs ≤ epsilon)
  below x y := decide (x < y)

end LagForecast
