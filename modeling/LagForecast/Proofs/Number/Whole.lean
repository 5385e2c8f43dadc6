import LagForecast.Number.Numeral
import LagForecast.Proofs.Number.Shortest

/-!
# Whole numbers as binary numbers

A whole number below `2 ^ 64` may have to be rounded, but the binary number nearest to it is finite.
-/

set_option autoImplicit false

namespace LagForecast

open Float.Model (Format UnpackedFloat totalExponent)
open Float.Model.UnpackedFloat

theorem isFinite_pack_finite (s : Sign) {m : Nat} {e : Int} (hm : 0 < m) (he : e ≤ 971) :
    (Float.ofModel (.pack (.finite s m e hm))).isFinite = true := by
  have hbias : (e + (Format.binary64.exponentBias : Int) +
      (Format.binary64.mantissaBitsWithoutImplicit : Int)).toNat = (e + 1075).toNat := by
    change (e + 1023 + 52).toNat = _
    omega
  have hpack : ∃ biased < 2047, ∃ fraction, UnpackedFloat.pack Format.binary64 (.finite s m e hm) =
      packComponents Format.binary64 s (BitVec.ofNat 11 biased) fraction := by
    rw [UnpackedFloat.pack]
    dsimp only
    rw [hbias, if_neg (by change ¬ 2048 ≤ _; omega)]
    split
    · exact ⟨(e + 1075).toNat, by omega, _, rfl⟩
    · exact ⟨0, by decide, _, rfl⟩
  obtain ⟨biased, hlt, fraction, hpack⟩ := hpack
  rw [isFinite_iff]
  have hfield := toNat_unpackExponent
    (Float.ofModel (.pack (.finite s m e hm))).toModel.toBits.toBitVec
  change BitVec.toNat (@unpackExponent Format.binary64
    (UnpackedFloat.pack Format.binary64 (.finite s m e hm))) = _ at hfield
  rw [hpack, unpackExponent_packComponents, BitVec.toNat_ofNat] at hfield
  change exponentField _ ≠ 2047
  have hexp : exponentField (Float.ofModel (.pack (.finite s m e hm))) = biased % 2 ^ 11 :=
    hfield.symm
  omega

theorem isFinite_pack_zero (s : Sign) :
    (Float.ofModel (.pack (.zero s))).isFinite = true := by
  cases s <;> rfl

theorem roundedMantissa_le (em : ExtendedMantissa) : em.roundedMantissa ≤ em.mantissa + 1 := by
  obtain ⟨m, r, t⟩ := em
  cases r <;> cases t <;>
    simp only [ExtendedMantissa.roundedMantissa, ExtendedMantissa.accuracy,
      Accuracy.roundToNearestEven] <;> omega

private theorem mantissa_shiftRight_le (em : ExtendedMantissa) (k : Nat) :
    (em >>> k).mantissa ≤ em.mantissa := by
  induction k with
  | zero => exact Nat.le_refl _
  | succ k ih => exact (Nat.div_le_self _ 2).trans ih

/-- Shifting to the exponent that rounding aims at makes a significand no greater, and leads to an
exponent that its number of digits bounds. -/
theorem shiftToTargetExponent_le {m k : Nat} {e : Int} (hm : m < 2 ^ k) (he : -1074 ≤ e) :
    (shiftToTargetExponent Format.binary64 m e .exact).1.mantissa ≤ m ∧
      e ≤ (shiftToTargetExponent Format.binary64 m e .exact).2 ∧
      (shiftToTargetExponent Format.binary64 m e .exact).2 ≤ e + k := by
  have hlog : m.log2 ≤ k := by
    by_cases h0 : m = 0
    · rw [h0]
      exact Nat.zero_le k
    · exact ((Nat.log2_lt h0).2 hm).le
  refine ⟨mantissa_shiftRight_le _ _, ?_, ?_⟩
  · change e ≤ e + (_ : Nat)
    omega
  · change e + ((max ((m.log2 : Int) + 1 + e - 53) (-1074) - e).toNat : Int) ≤ e + k
    omega

private theorem isFinite_round {m k : Nat} {e : Int} (s : Sign) (hm : m < 2 ^ k) (hk : k ≤ 300)
    (he : -1074 ≤ e) (he' : e ≤ 0) :
    (Float.ofModel (.pack (roundWithAccuracy Format.binary64 s m e .exact))).isFinite = true := by
  rw [roundWithAccuracy]
  obtain ⟨hm₁, hle, hle'⟩ := shiftToTargetExponent_le hm he
  generalize shiftToTargetExponent Format.binary64 m e .exact = first at hm₁ hle hle'
  obtain ⟨em, e₁⟩ := first
  dsimp only at hm₁ hle hle' ⊢
  have hrounded : em.roundedMantissa < 2 ^ (k + 1) := by
    have hround := roundedMantissa_le em
    have hpow : 2 ^ k + 2 ^ k = 2 ^ (k + 1) := by ring
    have hone : 1 ≤ 2 ^ k := Nat.one_le_two_pow
    omega
  obtain ⟨-, -, hle₂⟩ := shiftToTargetExponent_le hrounded (by omega : -1074 ≤ e₁)
  generalize shiftToTargetExponent Format.binary64 em.roundedMantissa e₁ .exact = second at hle₂
  obtain ⟨em₂, e₂⟩ := second
  dsimp only at hle₂ ⊢
  split
  · exact isFinite_pack_zero s
  · next hne => exact isFinite_pack_finite s (Nat.pos_of_ne_zero hne) (by push_cast at hle₂; omega)

theorem exists_canonical {c : Nat} (hc : 0 < c) (hlt : c < 2 ^ 53) :
    ∃ b : Binary, b.Canonical ∧ (c : ℚ) * 10 ^ (0 : Int) = b.size := by
  have hlog : c.log2 < 53 := (Nat.log2_lt hc.ne').2 hlt
  have hlow : 2 ^ c.log2 ≤ c := Nat.log2_self_le hc.ne'
  have hhigh : c < 2 ^ (c.log2 + 1) := Nat.lt_log2_self
  have hsum : c.log2 + (52 - c.log2) = 52 := by omega
  have hsum' : c.log2 + 1 + (52 - c.log2) = 53 := by omega
  refine ⟨⟨c * 2 ^ (52 - c.log2), -((52 - c.log2 : Nat) : Int)⟩, ⟨?_, ?_, ?_, ?_, ?_⟩, ?_⟩
  · exact Nat.mul_pos hc (Nat.two_pow_pos _)
  · calc c * 2 ^ (52 - c.log2) < 2 ^ (c.log2 + 1) * 2 ^ (52 - c.log2) :=
          Nat.mul_lt_mul_of_pos_right hhigh (Nat.two_pow_pos _)
      _ = 2 ^ 53 := by rw [← pow_add, hsum']
  · dsimp only
    omega
  · dsimp only
    omega
  · intro _
    calc 2 ^ 52 = 2 ^ c.log2 * 2 ^ (52 - c.log2) := by rw [← pow_add, hsum]
      _ ≤ c * 2 ^ (52 - c.log2) := Nat.mul_le_mul_right _ hlow
  · rw [Binary.size, zpow_zero, mul_one, zpow_neg, zpow_natCast]
    push_cast
    rw [mul_inv_cancel_right₀ (by positivity)]

private theorem isFinite_ofScientific {c : Nat} (hc : 0 < c) (hlt : c < 2 ^ 64) :
    (Float.ofScientific c false 0).isFinite = true := by
  by_cases hfast : c < 2 ^ 53
  · obtain ⟨b, hb, hsize⟩ := exists_canonical hc hfast
    have hexact : Float.ofScientific c false 0 = hb.toFloat .positive := ofScientific_eq hb hc hsize
    rw [hexact]
    exact isFinite_toFloat hb .positive
  · rw [Float.ofScientific, dif_neg fun h => hfast h.1]
    change (Float.ofModel (.pack (UnpackedFloat.ofScientific Format.binary64 c 0))).isFinite = true
    rw [UnpackedFloat.ofScientific, dif_neg hc.ne', if_neg (by decide),
      if_neg (by change ¬ (0 : Int) < -(2048 + (c.log2 : Int)); omega), if_pos (Int.le_refl 0)]
    simp only [UnpackedFloat.mul]
    apply isFinite_round (k := 117)
    · change (c <<< 53) * 10 ^ 0 < 2 ^ 117
      rw [Nat.shiftLeft_eq, pow_zero, mul_one]
      omega
    · decide
    · decide
    · decide

theorem isFinite_neg {x : Float} (hx : x.isFinite = true) : (-x).isFinite = true := by
  by_cases hzero : (Binary.ofFloat x).significand = 0
  · rw [eq_zero_of_significand hzero]
    split <;> decide +kernel
  · have hpos : 0 < (Binary.ofFloat x).significand := Nat.pos_of_ne_zero hzero
    have hcanonical := canonical_ofFloat hx hpos
    have hunpack := unpack_eq hx hpos
    change (Float.ofModel (.pack x.toModel.unpack.neg)).isFinite = true
    rw [hunpack]
    exact isFinite_toFloat hcanonical (-signOf x)

private theorem Decimal.isFinite_magnitude {n : Nat} (negative : Bool)
    (hn : n ≤ 0xFFFFFFFFFFFFFFFF) : (Decimal.mk negative n 0).magnitude.isFinite = true := by
  rw [magnitude]
  dsimp only
  by_cases h0 : n = 0
  · rw [if_pos h0]
    decide +kernel
  · rw [if_neg h0, if_neg (by decide), if_neg (by omega)]
    exact isFinite_ofScientific (Nat.pos_of_ne_zero h0) (by omega)

theorem Numeral.isFinite_toFloat_ofInt {i : Int} (hi : i.natAbs ≤ 0xFFFFFFFFFFFFFFFF) :
    (Numeral.ofInt i).toFloat.isFinite = true := by
  have hdecimal : (Numeral.ofInt i).toDecimal = ⟨i < 0, i.natAbs, 0⟩ := by
    simp [Numeral.toDecimal, Numeral.ofInt, Numeral.power]
  have hmagnitude := Decimal.isFinite_magnitude (decide (i < 0)) hi
  rw [Numeral.toFloat, hdecimal, Decimal.toFloat]
  split
  · exact isFinite_neg hmagnitude
  · exact hmagnitude

end LagForecast
