import LagForecast.Number.Binary
import LagForecast.Number.Numeral

/-!
The fewest digits that identify a binary number.  Candidates of one digit, of two and so on are
read back, and the first that gives the number is taken; of two that do, the nearer, and of two
equally near the one whose last digit is even.
-/

set_option autoImplicit false

namespace LagForecast

namespace Numeral

/-- The decimal exponents of the leading digit from which on, and below which, numbers are written
without a power of ten. -/
def plainFrom : Int := -5

def plainBelow : Int := 16

def stripZeros : Nat → Nat → Int → Nat × Int
  | 0, c, e => (c, e)
  | k + 1, c, e => if c % 10 = 0 then stripZeros k (c / 10) (e + 1) else (c, e)

/-- Write `coefficient * 10 ^ exponent`, with a point and a digit after it unless a power of ten
is written. -/
def place (negative : Bool) (coefficient : Nat) (exponent : Int) : Numeral :=
  let ds := digits coefficient
  let point := (ds.length : Int) + exponent
  if plainFrom < point ∧ point ≤ plainBelow then
    if 0 ≤ exponent then ⟨negative, ds ++ List.replicate exponent.toNat .zero, [.zero], none⟩
    else if 0 < point then
      ⟨negative, ds.take point.toNat, ds.drop point.toNat, none⟩
    else ⟨negative, [.zero], List.replicate (-point).toNat .zero ++ ds, none⟩
  else
    ⟨negative, ds.take 1, ds.drop 1, some (point - 1 < 0, digits (point - 1).natAbs)⟩

def layout (negative : Bool) (coefficient : Nat) (exponent : Int) : Numeral :=
  let (coefficient, exponent) := stripZeros coefficient.log2 coefficient exponent
  place negative coefficient exponent

def leadingPlace (num den : Nat) : Int :=
  if den ≤ num then (digits (num / den)).length
  else 1 - ((digits ((den - 1) / num)).length : Int)

/-- The numerals on the grid `10 ^ place` that stand next to a quotient, the nearer first. -/
def neighbours (negative : Bool) (num den : Nat) (place : Int) : List Numeral :=
  let top := num * Nat.pow 10 (-place).toNat
  let unit := den * Nat.pow 10 place.toNat
  let c := top / unit
  let below := layout negative c place
  let above := layout negative (c + 1) place
  match compare (2 * (top % unit)) unit with
  | .lt => [below, above]
  | .gt => [above, below]
  | .eq => if c % 2 = 0 then [below, above] else [above, below]

def exact (negative : Bool) (b : Binary) : Numeral :=
  layout negative (b.numerator * Nat.pow 5 (-b.exponent).toNat)
    (min b.exponent 0)

/-- The shortest numeral of a finite number.  Seventeen digits identify every number; the exact
value would be written otherwise. -/
def ofFloat (x : Float) : Numeral :=
  let negative := signIsMinus x
  let b := Binary.ofFloat x
  if b.significand = 0 then ⟨negative, [.zero], [.zero], none⟩
  else
    let num := b.numerator
    let den := b.denominator
    let top := leadingPlace num den
    let candidates := (List.range 17).flatMap fun n =>
      neighbours negative num den (top - (n + 1 : Nat))
    (candidates.find? fun c => c.toFloat.toBits == x.toBits).getD (exact negative b)

end Numeral

end LagForecast
