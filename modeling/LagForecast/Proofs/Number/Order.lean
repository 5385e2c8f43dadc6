import LagForecast.Proofs.Number.Comparison
import Mathlib

/-!
# The order of numbers

Numbers other than NaN are compared as what they stand for in a linear order, in which the two zeros
stand in one place.  Numbers in one place are the same or both zero, and whether a zero has a sign
makes no difference to sums, products and comparisons but for the sign of another zero.
-/

set_option autoImplicit false

namespace LagForecast

open Float.Model (Format UnpackedFloat)
open Float.Model.UnpackedFloat (Sign)

/-- Where a number stands among the others: by its sign, then by its exponent, then by its
significand. -/
def unpackedRank : UnpackedFloat → Int ×ₗ Int ×ₗ Int
  | .infinity s => toLex (s.apply 2, toLex (0, 0))
  | .notANumber | .zero _ => toLex (0, toLex (0, 0))
  | .finite s m e _ => toLex (s.apply 1, toLex (s.apply e, s.apply m))

def rank (x : Float) : Int ×ₗ Int ×ₗ Int := unpackedRank x.toModel.unpack

private theorem compare_natCast (m n : Nat) : compare (m : Int) (n : Int) = compare m n := by
  rw [← cmp_eq_compare, ← cmp_eq_compare, Nat.strictMono_cast.cmp_map_eq]

private theorem compare_neg (a b : Int) : compare (-a) (-b) = (compare a b).swap := by
  have hneg : StrictAnti fun a : Int => -a := fun _ _ h => neg_lt_neg h
  rw [← cmp_eq_compare, ← cmp_eq_compare, cmp_swap]
  exact hneg.cmp_map_eq a b

private theorem compare_eq_rank {u v : UnpackedFloat} (hu : u ≠ .notANumber)
    (hv : v ≠ .notANumber) : u.compare v = some (compare (unpackedRank u) (unpackedRank v)) := by
  cases u with
  | notANumber => exact absurd rfl hu
  | infinity s =>
    cases v with
    | notANumber => exact absurd rfl hv
    | infinity t => cases s <;> cases t <;> rfl
    | zero t => cases s <;> rfl
    | finite t n f hn => cases s <;> cases t <;> rfl
  | zero s =>
    cases v with
    | notANumber => exact absurd rfl hv
    | infinity t => cases t <;> rfl
    | zero t => rfl
    | finite t n f hn => cases t <;> rfl
  | finite s m e hm =>
    cases v with
    | notANumber => exact absurd rfl hv
    | infinity t => cases s <;> cases t <;> rfl
    | zero t => cases s <;> rfl
    | finite t n f hn =>
      cases s with
      | negative =>
        cases t with
        | negative =>
          change some ((compare e f).then (compare m n)).swap =
            some ((compare (-e) (-f)).then (compare (-(m : Int)) (-(n : Int))))
          rw [Ordering.swap_then, compare_neg, compare_neg, compare_natCast]
        | positive => rfl
      | positive =>
        cases t with
        | negative => rfl
        | positive =>
          change _ = some ((compare e f).then (compare (m : Int) (n : Int)))
          rw [compare_natCast]
          rfl

section Comparisons

variable {x y z : Float}

theorem isNaN_of_isFinite (hx : x.isFinite = true) : x.isNaN = false := by
  change x.toModel.unpack.isFinite = true at hx
  change x.toModel.unpack.isNaN = false
  cases hu : x.toModel.unpack with
  | notANumber =>
    rw [hu] at hx
    cases hx
  | infinity s | zero s | finite s m e hm => rfl

private theorem isNaN_of_lt (h : x < y) : x.isNaN = false := by
  rw [lt_iff_compare_eq_lt] at h
  change x.toModel.unpack.isNaN = false
  cases hu : x.toModel.unpack with
  | notANumber =>
    rw [hu] at h
    cases h
  | infinity s | zero s | finite s m e hm => rfl

private theorem compare_rank (hx : x.isNaN = false) (hy : y.isNaN = false) :
    x.toModel.unpack.compare y.toModel.unpack = some (compare (rank x) (rank y)) := by
  have hnumber {z : Float} (hz : z.isNaN = false) : z.toModel.unpack ≠ .notANumber := by
    intro hu
    change z.toModel.unpack.isNaN = false at hz
    rw [hu] at hz
    cases hz
  exact compare_eq_rank (hnumber hx) (hnumber hy)

theorem lt_iff_rank_lt (hx : x.isNaN = false) (hy : y.isNaN = false) :
    x < y ↔ rank x < rank y := by
  rw [lt_iff_compare_eq_lt, compare_rank hx hy, Option.some.injEq, compare_lt_iff_lt]

theorem le_iff_rank_le (hx : x.isNaN = false) (hy : y.isNaN = false) :
    x ≤ y ↔ rank x ≤ rank y := by
  rw [le_iff_compare_isLE, compare_rank hx hy, Option.any_some, ← Ordering.ne_gt_iff_isLE]
  exact compare_le_iff_le

theorem le_of_not_lt (hx : x.isNaN = false) (hy : y.isNaN = false) (h : ¬ x < y) : y ≤ x :=
  (le_iff_rank_le hy hx).2 (not_lt.1 fun hlt => h ((lt_iff_rank_lt hx hy).2 hlt))

theorem lt_of_lt_le (hy : y.isNaN = false) (hz : z.isNaN = false) (hxy : x < y) (hyz : y ≤ z) :
    x < z := by
  have hx := isNaN_of_lt hxy
  rw [lt_iff_rank_lt hx hy] at hxy
  rw [le_iff_rank_le hy hz] at hyz
  exact (lt_iff_rank_lt hx hz).2 (hxy.trans_le hyz)

theorem beq_iff_rank_eq (hx : x.isNaN = false) (hy : y.isNaN = false) :
    (x == y) = true ↔ rank x = rank y := by
  change (x.toModel.unpack.compare y.toModel.unpack == some .eq) = true ↔ _
  rw [compare_rank hx hy, beq_iff_eq, Option.some.injEq, compare_eq_iff_eq]

/-- A number that a finite one is not above and another not below is finite. -/
theorem isFinite_of_between (hx : x.isFinite = true) (hz : z.isFinite = true) (hxy : x ≤ y)
    (hyz : y ≤ z) : y.isFinite = true := by
  rw [le_iff_compare_isLE] at hxy hyz
  change x.toModel.unpack.isFinite = true at hx
  change z.toModel.unpack.isFinite = true at hz
  change y.toModel.unpack.isFinite = true
  generalize x.toModel.unpack = u at hx hxy
  generalize z.toModel.unpack = w at hz hyz
  cases hy : y.toModel.unpack with
  | zero s | finite s m e hm => rfl
  | notANumber =>
    rw [hy] at hxy
    cases u <;> cases hxy
  | infinity s =>
    rw [hy] at hxy hyz
    cases s with
    | negative =>
      cases u with
      | notANumber | infinity t => cases hx
      | zero t => cases hxy
      | finite t m e hm => cases t <;> cases hxy
    | positive =>
      cases w with
      | notANumber | infinity t => cases hz
      | zero t => cases hyz
      | finite t m e hm => cases t <;> cases hyz

end Comparisons

/-- Two numbers that are the same, or zeros of either sign. -/
inductive UnpackedAlike : UnpackedFloat → UnpackedFloat → Prop
  | refl (u : UnpackedFloat) : UnpackedAlike u u
  | zeros (s t : Sign) : UnpackedAlike (.zero s) (.zero t)

namespace UnpackedAlike

variable {u v u' v' : UnpackedFloat}

private theorem add (spec : Format) (hu : UnpackedAlike u u') (hv : UnpackedAlike v v') :
    UnpackedAlike (UnpackedFloat.add spec u v) (UnpackedFloat.add spec u' v') := by
  have sum_zeros (r s : Sign) : ∃ t, UnpackedFloat.add spec (.zero r) (.zero s) = .zero t := by
    cases r <;> cases s <;> exact ⟨_, rfl⟩
  have zeros (r s r' s' : Sign) : UnpackedAlike (UnpackedFloat.add spec (.zero r) (.zero s))
      (UnpackedFloat.add spec (.zero r') (.zero s')) := by
    obtain ⟨t, ht⟩ := sum_zeros r s
    obtain ⟨t', ht'⟩ := sum_zeros r' s'
    rw [ht, ht']
    exact .zeros t t'
  cases hu with
  | refl =>
    cases hv with
    | refl => exact .refl _
    | zeros s t =>
      cases u with
      | zero r => exact zeros r s r t
      | notANumber | infinity r | finite r m e hm => exact .refl _
  | zeros s t =>
    cases hv with
    | refl =>
      cases v with
      | zero r => exact zeros s r t r
      | notANumber | infinity r | finite r m e hm => exact .refl _
    | zeros s' t' => exact zeros s s' t t'

private theorem mul_left (spec : Format) (w : UnpackedFloat) (hu : UnpackedAlike u u') :
    UnpackedAlike (UnpackedFloat.mul spec w u) (UnpackedFloat.mul spec w u') := by
  cases hu with
  | refl => exact .refl _
  | zeros s t =>
    cases w with
    | notANumber | infinity r => exact .refl _
    | zero r | finite r m e hm => exact .zeros _ _

private theorem mul_right (spec : Format) (w : UnpackedFloat) (hu : UnpackedAlike u u') :
    UnpackedAlike (UnpackedFloat.mul spec u w) (UnpackedFloat.mul spec u' w) := by
  cases hu with
  | refl => exact .refl _
  | zeros s t =>
    cases w with
    | notANumber | infinity r => exact .refl _
    | zero r | finite r m e hm => exact .zeros _ _

private theorem abs (hu : UnpackedAlike u u') : UnpackedAlike u.abs u'.abs := by
  cases hu <;> exact .refl _

private theorem isFinite_eq (hu : UnpackedAlike u u') : u.isFinite = u'.isFinite := by
  cases hu <;> rfl

private theorem compare_eq (hu : UnpackedAlike u u') (hv : UnpackedAlike v v') :
    u.compare v = u'.compare v' := by
  cases hu with
  | refl =>
    cases hv with
    | refl => rfl
    | zeros s t =>
      cases u with
      | notANumber | zero r => rfl
      | infinity r | finite r m e hm => cases r <;> rfl
  | zeros s t =>
    cases hv with
    | refl =>
      cases v with
      | notANumber | zero r => rfl
      | infinity r | finite r m e hm => cases r <;> rfl
    | zeros s' t' => rfl

theorem unpack_pack (h : UnpackedAlike u v) :
    UnpackedAlike (Float.Model.pack u).unpack (Float.Model.pack v).unpack := by
  have unpack_zero (s : Sign) : (Float.Model.pack (.zero s)).unpack = .zero s := by
    cases s <;> rfl
  cases h with
  | refl => exact .refl _
  | zeros s t =>
    rw [unpack_zero, unpack_zero]
    exact .zeros s t

private theorem of_rank_eq (hu : u.isFinite = true) (hv : v.isFinite = true)
    (h : unpackedRank u = unpackedRank v) : UnpackedAlike u v := by
  have hsign := congrArg (fun p => (ofLex p).1) h
  have hexponent := congrArg (fun p => (ofLex (ofLex p).2).1) h
  have hsignificand := congrArg (fun p => (ofLex (ofLex p).2).2) h
  cases u with
  | notANumber | infinity s => cases hu
  | zero s =>
    cases v with
    | notANumber | infinity t => cases hv
    | zero t => exact .zeros s t
    | finite t n f hn => cases t <;> cases hsign
  | finite s m e hm =>
    cases v with
    | notANumber | infinity t => cases hv
    | zero t => cases s <;> cases hsign
    | finite t n f hn =>
      dsimp only [unpackedRank, ofLex_toLex] at hexponent hsignificand
      obtain rfl : s = t := by
        cases s with
        | negative =>
          cases t with
          | negative => rfl
          | positive => cases hsign
        | positive =>
          cases t with
          | negative => cases hsign
          | positive => rfl
      obtain ⟨rfl, rfl⟩ : m = n ∧ e = f := by
        cases s <;> simp only [Sign.apply] at hexponent hsignificand <;> omega
      exact .refl _

end UnpackedAlike

def Alike (x y : Float) : Prop := UnpackedAlike x.toModel.unpack y.toModel.unpack

namespace Alike

variable {x y x' y' : Float}

theorem refl (x : Float) : Alike x x := UnpackedAlike.refl _

theorem add (hx : Alike x x') (hy : Alike y y') : Alike (x + y) (x' + y') :=
  (UnpackedAlike.add Format.binary64 hx hy).unpack_pack

theorem mul_left (w : Float) (hx : Alike x x') : Alike (w * x) (w * x') :=
  (UnpackedAlike.mul_left Format.binary64 w.toModel.unpack hx).unpack_pack

theorem mul_right (w : Float) (hx : Alike x x') : Alike (x * w) (x' * w) :=
  (UnpackedAlike.mul_right Format.binary64 w.toModel.unpack hx).unpack_pack

theorem abs (hx : Alike x x') : Alike x.abs x'.abs := (UnpackedAlike.abs hx).unpack_pack

theorem isFinite_eq (hx : Alike x x') : x.isFinite = x'.isFinite := UnpackedAlike.isFinite_eq hx

theorem lt_iff (hx : Alike x x') (hy : Alike y y') : x < y ↔ x' < y' := by
  rw [lt_iff_compare_eq_lt, lt_iff_compare_eq_lt, UnpackedAlike.compare_eq hx hy]

private theorem of_rank_eq (hx : x.isFinite = true) (hy : y.isFinite = true) (h : rank x = rank y) :
    Alike x y := UnpackedAlike.of_rank_eq hx hy h

theorem of_le_of_le (hx : x.isFinite = true) (hy : y.isFinite = true) (hxy : x ≤ y) (hyx : y ≤ x) :
    Alike x y := by
  have hx' := isNaN_of_isFinite hx
  have hy' := isNaN_of_isFinite hy
  exact of_rank_eq hx hy (le_antisymm ((le_iff_rank_le hx' hy').1 hxy)
    ((le_iff_rank_le hy' hx').1 hyx))

theorem beq_of_not_isNaN (hx : x.isNaN = false) (h : Alike x y) : (x == y) = true := by
  change (x.toModel.unpack.compare y.toModel.unpack == some .eq) = true
  rw [← UnpackedAlike.compare_eq (.refl x.toModel.unpack) h]
  exact (beq_iff_rank_eq hx hx).2 rfl

theorem beq (hx : x.isFinite = true) (h : Alike x y) : (x == y) = true :=
  h.beq_of_not_isNaN (isNaN_of_isFinite hx)

end Alike

end LagForecast
