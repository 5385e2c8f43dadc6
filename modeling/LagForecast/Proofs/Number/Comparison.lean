/-!
Comparisons of binary numbers with the infinities.  Numbers are compared by their parts, and the
parts of an infinity decide without a look at the other number.
-/

set_option autoImplicit false

namespace LagForecast

open Float.Model (UnpackedFloat)

theorem lt_iff_compare_eq_lt (x y : Float) :
    x < y ↔ x.toModel.unpack.compare y.toModel.unpack = some .lt := by
  change decide (x.toModel.unpack.lt y.toModel.unpack = true) = true ↔ _
  rw [decide_eq_true_iff]
  exact beq_iff_eq

theorem le_iff_compare_isLE (x y : Float) :
    x ≤ y ↔ (x.toModel.unpack.compare y.toModel.unpack).any (·.isLE) = true := by
  change decide ((x.toModel.unpack.compare y.toModel.unpack).any (·.isLE) = true) = true ↔ _
  rw [decide_eq_true_iff]

private theorem compare_infinity_ne_lt (u : UnpackedFloat) :
    UnpackedFloat.compare (.infinity .positive) u ≠ some .lt := by
  intro h
  cases u with
  | infinity s => cases s <;> cases h
  | notANumber => cases h
  | zero s => cases h
  | finite s m e hm => cases h

private theorem compare_minus_infinity_ne_lt (u : UnpackedFloat) :
    u.compare (.infinity .negative) ≠ some .lt := by
  intro h
  cases u with
  | infinity s => cases s <;> cases h
  | notANumber => cases h
  | zero s => cases h
  | finite s m e hm => cases s <;> cases h

theorem not_infinity_lt (x : Float) : ¬ (1.0 / 0.0 : Float) < x := by
  have hinf : (1.0 / 0.0 : Float).toModel.unpack = .infinity .positive := rfl
  rw [lt_iff_compare_eq_lt, hinf]
  exact compare_infinity_ne_lt _

theorem not_lt_minus_infinity (x : Float) : ¬ x < -(1.0 / 0.0 : Float) := by
  have hinf : (-(1.0 / 0.0) : Float).toModel.unpack = .infinity .negative := rfl
  rw [lt_iff_compare_eq_lt, hinf]
  exact compare_minus_infinity_ne_lt _

end LagForecast
