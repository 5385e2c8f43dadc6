import LagForecast.Number.Numeral
import LagForecast.Proofs.Number.Binary64

/-!
# Results that need no rounding

A product or a quotient of binary numbers that is itself a number of 64 bits is computed without an
error, and so is the number that a decimal denotes, by either of the two ways in which a decimal is
turned into a binary number.  Numbers are compared as rationals, because the factors and the result
are kept with different exponents.
-/

set_option autoImplicit false

namespace LagForecast

open Float.Model (Format UnpackedFloat totalExponent)
open Float.Model.UnpackedFloat

def Binary.size (b : Binary) : ℚ := b.significand * 2 ^ b.exponent

def Decimal.size (d : Decimal) : ℚ := d.coefficient * 10 ^ d.exponent

theorem zpow_eq_div {a : ℚ} (ha : a ≠ 0) (e : Int) :
    a ^ e = a ^ e.toNat / a ^ (-e).toNat := by
  have hsplit : e = (e.toNat : Int) - ((-e).toNat : Int) := by omega
  conv_lhs => rw [hsplit]
  rw [zpow_sub₀ ha, zpow_natCast, zpow_natCast]

private theorem numerator_eq (b : Binary) : (b.numerator : ℚ) = b.size * b.denominator := by
  have hpow : (2 : ℚ) ^ (-b.exponent).toNat ≠ 0 := pow_ne_zero _ two_ne_zero
  rw [Binary.numerator, Binary.denominator, Binary.size, zpow_eq_div two_ne_zero]
  change ((b.significand * 2 ^ b.exponent.toNat : Nat) : ℚ) =
    b.significand * (2 ^ b.exponent.toNat / 2 ^ (-b.exponent).toNat) *
      ((2 ^ (-b.exponent).toNat : Nat) : ℚ)
  push_cast
  field_simp

theorem log2_mul_two_pow {m : Nat} (hm : m ≠ 0) (k : Nat) : (m * 2 ^ k).log2 = m.log2 + k := by
  induction k with
  | zero => rw [Nat.pow_zero, Nat.mul_one, Nat.add_zero]
  | succ k ih =>
    have hne : m * 2 ^ k ≠ 0 := Nat.mul_ne_zero hm (Nat.two_pow_pos k).ne'
    rw [Nat.pow_succ, ← Nat.mul_assoc, Nat.mul_comm, Nat.log2_two_mul hne, ih, Nat.add_assoc]

private theorem shiftRight_exact (m k : Nat) :
    ExtendedMantissa.ofMantissaAndAccuracy (m * 2 ^ k) .exact >>> k =
      ExtendedMantissa.ofMantissaAndAccuracy m .exact := by
  induction k generalizing m with
  | zero =>
    rw [Nat.pow_zero, Nat.mul_one]
    rfl
  | succ k ih =>
    have hstep : ExtendedMantissa.ofMantissaAndAccuracy (m * 2 ^ (k + 1)) .exact >>> (k + 1) =
        (ExtendedMantissa.ofMantissaAndAccuracy (m * 2 * 2 ^ k) .exact >>> k).shiftRightOne := by
      rw [Nat.pow_succ, Nat.mul_comm (2 ^ k) 2, ← Nat.mul_assoc]
      rfl
    rw [hstep, ih]
    simp [ExtendedMantissa.ofMantissaAndAccuracy, ExtendedMantissa.shiftRightOne]

theorem targetExponent_eq {b : Binary} (h : b.Canonical) :
    Format.binary64.targetExponent (totalExponent b.significand b.exponent) = b.exponent := by
  obtain ⟨hpos, hlt, hleast, hgreatest, hfull⟩ := h
  have hlog : b.significand.log2 < 53 := (Nat.log2_lt (by omega)).2 hlt
  change max ((b.significand.log2 : Int) + 1 + b.exponent - 53) (-1074) = b.exponent
  by_cases he : b.exponent = -1074
  · omega
  · have h52 : 52 ≤ b.significand.log2 := (Nat.le_log2 (by omega)).2 (hfull he)
    omega

/-- What can be kept exactly is not changed by rounding. -/
theorem roundWithAccuracy_exact {b : Binary} (h : b.Canonical) (s : Sign) (k : Nat) :
    roundWithAccuracy Format.binary64 s (b.significand * 2 ^ k) (b.exponent - k) .exact =
      .finite s b.significand b.exponent h.pos := by
  have htotal : totalExponent (b.significand * 2 ^ k) (b.exponent - k) =
      totalExponent b.significand b.exponent := by
    rw [totalExponent, totalExponent, log2_mul_two_pow h.pos.ne']
    push_cast
    ring
  have hfirst : shiftToTargetExponent Format.binary64 (b.significand * 2 ^ k) (b.exponent - k)
      .exact = (ExtendedMantissa.ofMantissaAndAccuracy b.significand .exact, b.exponent) := by
    have hamount : (b.exponent - (b.exponent - k)).toNat = k := by omega
    rw [shiftToTargetExponent, htotal, targetExponent_eq h, shiftToExponent, hamount,
      shiftRight_exact, sub_add_cancel]
  have hsecond : shiftToTargetExponent Format.binary64 b.significand b.exponent .exact =
      (ExtendedMantissa.ofMantissaAndAccuracy b.significand .exact, b.exponent) := by
    rw [shiftToTargetExponent, targetExponent_eq h, shiftToExponent, sub_self, Int.toNat_zero,
      Nat.cast_zero, add_zero]
    rfl
  have hrounded : (ExtendedMantissa.ofMantissaAndAccuracy b.significand .exact).roundedMantissa =
      b.significand := rfl
  rw [roundWithAccuracy, hfirst]
  dsimp only
  rw [hrounded, hsecond]
  exact dif_neg h.pos.ne'

private theorem eq_mul_two_pow {b : Binary} {p : Nat} {e : Int} (hsize : (p : ℚ) * 2 ^ e = b.size)
    (he : e ≤ b.exponent) : p = b.significand * 2 ^ (b.exponent - e).toNat := by
  obtain ⟨k, hk⟩ := Int.eq_ofNat_of_zero_le (Int.sub_nonneg.2 he)
  have htwo : (2 : ℚ) ^ e ≠ 0 := zpow_ne_zero e two_ne_zero
  have hsplit : b.exponent = k + e := by omega
  rw [Binary.size, hsplit, zpow_add₀ two_ne_zero, ← mul_assoc] at hsize
  have hcast := mul_right_cancel₀ htwo hsize
  rw [hk, Int.toNat_natCast]
  rw [zpow_natCast] at hcast
  exact_mod_cast hcast

private theorem round_eq {b : Binary} (h : b.Canonical) (s : Sign) {p : Nat} {e : Int}
    (hsize : (p : ℚ) * 2 ^ e = b.size) (he : e ≤ b.exponent) :
    roundWithAccuracy Format.binary64 s p e .exact = .finite s b.significand b.exponent h.pos := by
  have hround := roundWithAccuracy_exact h s (b.exponent - e).toNat
  rwa [← eq_mul_two_pow hsize he, Int.toNat_of_nonneg (Int.sub_nonneg.2 he),
    sub_sub_cancel] at hround

private theorem mul_eq {b : Binary} (h : b.Canonical) {m₁ m₂ : Nat} {e₁ e₂ : Int} (h₁ : 0 < m₁)
    (h₂ : 0 < m₂) (hsize : (m₁ : ℚ) * 2 ^ e₁ * (m₂ * 2 ^ e₂) = b.size) (hfull : 2 ^ 52 ≤ m₁ * m₂) :
    UnpackedFloat.mul Format.binary64 (.finite .positive m₁ e₁ h₁) (.finite .positive m₂ e₂ h₂) =
      .finite .positive b.significand b.exponent h.pos := by
  have hprod : ((m₁ * m₂ : Nat) : ℚ) * 2 ^ (e₁ + e₂) = b.size := by
    rw [← hsize, zpow_add₀ two_ne_zero]
    push_cast
    ring
  have he : e₁ + e₂ ≤ b.exponent := by
    by_contra hlt
    have hswap : b.significand = m₁ * m₂ * 2 ^ (e₁ + e₂ - b.exponent).toNat :=
      eq_mul_two_pow (b := ⟨m₁ * m₂, e₁ + e₂⟩) hprod.symm (Int.le_of_lt (not_le.1 hlt))
    have hk : 1 ≤ (e₁ + e₂ - b.exponent).toNat := by omega
    have htwo : 2 ^ 1 ≤ 2 ^ (e₁ + e₂ - b.exponent).toNat := Nat.pow_le_pow_right (by decide) hk
    have hbig := Nat.mul_le_mul hfull htwo
    have hsmall := h.lt
    omega
  exact round_eq h _ hprod he

/-- The leading digit of a quotient stands no lower than the places of the leading digits of the
two numbers say. -/
theorem totalExponent_sub_le {b : Binary} (h : b.Canonical) {m₁ m₂ : Nat} {e₁ e₂ : Int}
    (h₁ : 0 < m₁) (h₂ : 0 < m₂) (hsize : (m₁ : ℚ) * 2 ^ e₁ = b.size * (m₂ * 2 ^ e₂)) :
    totalExponent m₁ e₁ - totalExponent m₂ e₂ ≤ totalExponent b.significand b.exponent := by
  have hle : (2 : ℚ) ^ (m₁.log2 + e₁ : Int) ≤ m₁ * 2 ^ e₁ := by
    rw [zpow_add₀ two_ne_zero, zpow_natCast]
    have hlog : 2 ^ m₁.log2 ≤ m₁ := Nat.log2_self_le h₁.ne'
    have hcast : (2 : ℚ) ^ m₁.log2 ≤ m₁ := by exact_mod_cast hlog
    gcongr
  have hlt {m : Nat} (hm : 0 < m) (e : Int) :
      (m : ℚ) * 2 ^ e < 2 ^ (m.log2 + 1 + e : Int) := by
    have hlog : m < 2 ^ (m.log2 + 1) := Nat.lt_log2_self
    have hcast : (m : ℚ) < 2 ^ (m.log2 + 1) := by exact_mod_cast hlog
    have hsplit : (2 : ℚ) ^ (m.log2 + 1 + e : Int) = 2 ^ (m.log2 + 1) * 2 ^ e := by
      rw [zpow_add₀ two_ne_zero, ← zpow_natCast]
      norm_cast
    rw [hsplit]
    gcongr
  have hnonneg : 0 ≤ b.size := by
    rw [Binary.size]
    positivity
  have hprod : b.size * (m₂ * 2 ^ e₂) <
      2 ^ (totalExponent b.significand b.exponent + totalExponent m₂ e₂) := by
    rw [zpow_add₀ two_ne_zero]
    exact mul_lt_mul'' (hlt h.pos b.exponent) (hlt h₂ e₂) hnonneg (by positivity)
  have hbelow := (hle.trans_eq hsize).trans_lt hprod
  have hpow := (zpow_lt_zpow_iff_right₀ one_lt_two).1 hbelow
  have htotal : totalExponent m₁ e₁ = m₁.log2 + e₁ + 1 := by
    rw [totalExponent]
    ring
  omega

private theorem div_eq {b : Binary} (h : b.Canonical) {m₁ m₂ : Nat} {e₁ e₂ : Int} (h₁ : 0 < m₁)
    (h₂ : 0 < m₂) (hsize : (m₁ : ℚ) * 2 ^ e₁ = b.size * (m₂ * 2 ^ e₂)) :
    UnpackedFloat.div Format.binary64 (.finite .positive m₁ e₁ h₁) (.finite .positive m₂ e₂ h₂) =
      .finite .positive b.significand b.exponent h.pos := by
  obtain ⟨t, ht⟩ : ∃ t, t = min (e₁ - e₂)
      (Format.binary64.targetExponent (totalExponent m₁ e₁ - totalExponent m₂ e₂)) := ⟨_, rfl⟩
  have hte : t ≤ b.exponent := by
    have htotal := totalExponent_sub_le h h₁ h₂ hsize
    have hexp := targetExponent_eq h
    rw [Format.targetExponent] at hexp ht
    omega
  obtain ⟨k, hk⟩ := Int.eq_ofNat_of_zero_le (show 0 ≤ e₁ - e₂ - t by omega)
  have hquot : m₁ <<< k = b.significand * 2 ^ (b.exponent - t).toNat * m₂ := by
    have hscaled : ((m₁ <<< k : Nat) : ℚ) * 2 ^ t =
        Binary.size ⟨b.significand * m₂, b.exponent⟩ := by
      have htwo : (2 : ℚ) ^ e₂ ≠ 0 := zpow_ne_zero e₂ two_ne_zero
      have he₁ : e₁ = k + t + e₂ := by omega
      rw [he₁, zpow_add₀ two_ne_zero, zpow_add₀ two_ne_zero, zpow_natCast] at hsize
      apply mul_right_cancel₀ htwo
      rw [Nat.shiftLeft_eq, Binary.size]
      rw [Binary.size] at hsize
      push_cast
      linarith
    rw [eq_mul_two_pow hscaled hte]
    ring
  have hdiv : m₁ <<< k / m₂ = b.significand * 2 ^ (b.exponent - t).toNat := by
    rw [hquot, Nat.mul_div_cancel _ h₂]
  have hmod : m₁ <<< k % m₂ = 0 := by
    rw [hquot, Nat.mul_mod_left]
  have hround := roundWithAccuracy_exact h .positive (b.exponent - t).toNat
  rw [UnpackedFloat.div, divCore]
  dsimp only
  rw [← ht, hk, Int.toNat_natCast, hdiv, hmod]
  rwa [Int.toNat_of_nonneg (Int.sub_nonneg.2 hte), sub_sub_cancel] at hround

private theorem mul_eq_toFloat {b : Binary} (h : b.Canonical) {x y : Float} {m₁ m₂ : Nat}
    {e₁ e₂ : Int} {h₁ : 0 < m₁} {h₂ : 0 < m₂} (hx : x.toModel.unpack = .finite .positive m₁ e₁ h₁)
    (hy : y.toModel.unpack = .finite .positive m₂ e₂ h₂)
    (hsize : (m₁ : ℚ) * 2 ^ e₁ * (m₂ * 2 ^ e₂) = b.size) (hfull : 2 ^ 52 ≤ m₁ * m₂) :
    x * y = h.toFloat .positive := by
  change Float.ofModel (.pack (UnpackedFloat.mul _ x.toModel.unpack y.toModel.unpack)) = _
  rw [hx, hy, mul_eq h h₁ h₂ hsize hfull]
  rfl

private theorem div_eq_toFloat {b : Binary} (h : b.Canonical) {x y : Float} {m₁ m₂ : Nat}
    {e₁ e₂ : Int} {h₁ : 0 < m₁} {h₂ : 0 < m₂} (hx : x.toModel.unpack = .finite .positive m₁ e₁ h₁)
    (hy : y.toModel.unpack = .finite .positive m₂ e₂ h₂)
    (hsize : (m₁ : ℚ) * 2 ^ e₁ = b.size * (m₂ * 2 ^ e₂)) :
    x / y = h.toFloat .positive := by
  change Float.ofModel (.pack (UnpackedFloat.div _ x.toModel.unpack y.toModel.unpack)) = _
  rw [hx, hy, div_eq h h₁ h₂ hsize]
  rfl

private theorem unpack_ofUInt64 {m : Nat} (hpos : 0 < m) (hlt : m < 2 ^ 53) :
    ∃ (m' : Nat) (e : Int) (h : 0 < m'), (m.toUInt64.toFloat).toModel.unpack =
      .finite .positive m' e h ∧ (m' : ℚ) * 2 ^ e = m := by
  have hlog : m.log2 < 53 := (Nat.log2_lt hpos.ne').2 hlt
  obtain ⟨k, hk⟩ : ∃ k, m.log2 + k = 52 := ⟨52 - m.log2, by omega⟩
  have hscaled : (m * 2 ^ k).log2 = 52 := by rw [log2_mul_two_pow hpos.ne', hk]
  have hne : m * 2 ^ k ≠ 0 := Nat.mul_ne_zero hpos.ne' (Nat.two_pow_pos k).ne'
  have hb : Binary.Canonical ⟨m * 2 ^ k, -k⟩ := by
    refine ⟨Nat.pos_of_ne_zero hne, ?_, ?_, ?_, ?_⟩
    · exact (Nat.log2_lt hne).1 (by omega)
    · dsimp only; omega
    · dsimp only; omega
    · exact fun _ => (Nat.le_log2 hne).1 (by omega)
  have htarget : Format.binary64.targetExponent (totalExponent m 0) = -k := by
    change max ((m.log2 : Int) + 1 + 0 - 53) (-1074) = -k
    omega
  have hnat : m.toUInt64.toNat = m := by
    change m % 2 ^ 64 = m
    omega
  have hround : UnpackedFloat.ofUInt64 Format.binary64 m.toUInt64 =
      .finite .positive (m * 2 ^ k) (-k) (Nat.pos_of_ne_zero hne) := by
    have hcompare : compare (m : Int) 0 = .gt := by
      rw [compare_gt_iff_gt]
      omega
    rw [UnpackedFloat.ofUInt64, UnpackedFloat.ofNat, UnpackedFloat.ofInt, hnat,
      UnpackedFloat.normalize, hcompare]
    dsimp only
    rw [Int.toNat_natCast, UnpackedFloat.round, htarget, decreaseExponent]
    dsimp only
    rw [zero_sub, neg_neg, Int.toNat_natCast, Nat.shiftLeft_eq, zero_sub]
    have hexact := roundWithAccuracy_exact hb .positive 0
    rw [Nat.pow_zero, Nat.mul_one, Nat.cast_zero, sub_zero] at hexact
    exact hexact
  refine ⟨m * 2 ^ k, -k, Nat.pos_of_ne_zero hne, ?_, ?_⟩
  · rw [← unpack_toFloat hb .positive]
    change (Float.Model.pack (UnpackedFloat.ofUInt64 Format.binary64 m.toUInt64)).unpack = _
    rw [hround]
    rfl
  · push_cast
    rw [mul_assoc, zpow_neg, zpow_natCast, mul_inv_cancel₀ (by positivity), mul_one]

/-- The powers of ten that are kept in a table are numbers of 64 bits with all their digits. -/
private theorem powersOfTen : ∀ e : Fin 23,
    let x := getElem Float.exactlyRepresentablePowersOfTen e.val e.isLt
    x.isFinite = true ∧ signIsMinus x = false ∧ 2 ^ 52 ≤ (Binary.ofFloat x).significand ∧
      (Binary.ofFloat x).numerator = 10 ^ e.val * (Binary.ofFloat x).denominator := by
  decide +kernel

private theorem unpack_powerOfTen {e : Nat} (he : e < 23) :
    ∃ (m : Nat) (k : Int) (h : 0 < m),
      (getElem Float.exactlyRepresentablePowersOfTen e he).toModel.unpack =
          .finite .positive m k h ∧
        (m : ℚ) * 2 ^ k = 10 ^ e ∧ 2 ^ 52 ≤ m := by
  obtain ⟨hfin, hsign, hfull, hvalue⟩ := powersOfTen ⟨e, he⟩
  generalize hx : getElem Float.exactlyRepresentablePowersOfTen e he = x at *
  have hpos : 0 < (Binary.ofFloat x).significand := Nat.lt_of_lt_of_le (by decide) hfull
  have hpositive : signOf x = .positive := by
    rw [signOf, hsign]
    rfl
  have hden : ((Binary.ofFloat x).denominator : ℚ) ≠ 0 := by
    have hnat : (Binary.ofFloat x).denominator ≠ 0 := (Nat.two_pow_pos _).ne'
    exact_mod_cast hnat
  refine ⟨(Binary.ofFloat x).significand, (Binary.ofFloat x).exponent, hpos, ?_, ?_, hfull⟩
  · rw [← hpositive, ← unpack_eq hfin hpos, ← hx]
  · apply mul_right_cancel₀ hden
    change (Binary.ofFloat x).size * _ = _
    rw [← numerator_eq]
    exact_mod_cast hvalue

private theorem exponent_le {b : Binary} (h : b.Canonical) {c : Nat} {e : Int} (hc : 0 < c)
    (hsize : (c : ℚ) * 10 ^ e = b.size) : e ≤ 308 := by
  have hlt : b.size < 2 ^ (1024 : Int) := by
    have hm : (b.significand : ℚ) < 2 ^ (53 : Int) := by exact_mod_cast h.lt
    calc b.size < 2 ^ (53 : Int) * 2 ^ b.exponent := by unfold Binary.size; gcongr
      _ = 2 ^ (53 + b.exponent) := (zpow_add₀ two_ne_zero _ _).symm
      _ ≤ 2 ^ (1024 : Int) := zpow_le_zpow_right₀ one_le_two (by have := h.le_greatest; omega)
  have hone : (1 : ℚ) ≤ c := by exact_mod_cast hc
  have hle : (10 : ℚ) ^ e ≤ c * 10 ^ e := le_mul_of_one_le_left (by positivity) hone
  have htwo : (2 : ℚ) ^ (1024 : Int) < 10 ^ (309 : Int) := by
    have hnat : 2 ^ 1024 < 10 ^ 309 := by decide +kernel
    exact_mod_cast hnat
  have hten : (10 : ℚ) ^ e < 10 ^ (309 : Int) := (hle.trans_eq hsize).trans_lt (hlt.trans htwo)
  have he := (zpow_lt_zpow_iff_right₀ (by norm_num)).1 hten
  omega

private theorem le_exponent {b : Binary} (h : b.Canonical) {c : Nat} {e : Int}
    (hsize : (c : ℚ) * 10 ^ e = b.size) : -((c.log2 + 400 : Nat) : Int) ≤ e := by
  have hle : (2 : ℚ) ^ (-1074 : Int) ≤ b.size := by
    have hm : (1 : ℚ) ≤ b.significand := by exact_mod_cast h.pos
    have he : (2 : ℚ) ^ (-1074 : Int) ≤ 2 ^ b.exponent := zpow_le_zpow_right₀ one_le_two h.least_le
    exact he.trans (le_mul_of_one_le_left (by positivity) hm)
  have hlt : (c : ℚ) * 10 ^ e < 10 ^ ((c.log2 + 1 : Nat) + e) := by
    have hlog : c < 2 ^ (c.log2 + 1) := Nat.lt_log2_self
    have hten : 2 ^ (c.log2 + 1) ≤ 10 ^ (c.log2 + 1) := Nat.pow_le_pow_left (by decide) _
    have hc : (c : ℚ) < 10 ^ (c.log2 + 1) := by exact_mod_cast hlog.trans_le hten
    rw [zpow_add₀ (by norm_num), zpow_natCast]
    gcongr
  have hten : (10 : ℚ) ^ (-399 : Int) < 2 ^ (-1074 : Int) := by
    have hnat : 2 ^ 1074 < 10 ^ 399 := by decide +kernel
    have hcast : (2 : ℚ) ^ 1074 < 10 ^ 399 := by exact_mod_cast hnat
    rw [zpow_neg, zpow_neg]
    exact inv_strictAnti₀ (by positivity) (by exact_mod_cast hcast)
  have hpow := ((hten.trans_le hle).trans_eq hsize.symm).trans hlt
  have he := (zpow_lt_zpow_iff_right₀ (by norm_num)).1 hpow
  omega

private theorem unpacked_ofScientific_eq {b : Binary} (h : b.Canonical) {c : Nat} {e : Int}
    (hc : 0 < c) (hsize : (c : ℚ) * 10 ^ e = b.size) :
    UnpackedFloat.ofScientific Format.binary64 c e =
      .finite .positive b.significand b.exponent h.pos := by
  have hgreatest := exponent_le h hc hsize
  have hleast := le_exponent h hsize
  rw [UnpackedFloat.ofScientific, dif_neg hc.ne', if_neg (by change ¬ e > 2048; omega),
    if_neg (by change ¬ e < -(2048 + (c.log2 : Int)); omega)]
  by_cases he : 0 ≤ e
  · obtain ⟨k, rfl⟩ := Int.eq_ofNat_of_zero_le he
    rw [if_pos he]
    rw [zpow_natCast] at hsize
    apply mul_eq h
    · change ((c <<< 53 : Nat) : ℚ) * 2 ^ (-53 : Int) * ((10 ^ k : Nat) * 2 ^ (0 : Int)) = b.size
      rw [← hsize, Nat.shiftLeft_eq]
      have htwo : (2 : ℚ) ^ 53 * 2 ^ (-53 : Int) = 1 := by norm_num
      rw [zpow_zero, mul_one, Nat.cast_mul, Nat.cast_pow, Nat.cast_pow, Nat.cast_ofNat,
        mul_assoc (c : ℚ), htwo, mul_one]
      rfl
    · have hpow : 1 ≤ 10 ^ k := Nat.one_le_pow _ _ (by decide)
      change 2 ^ 52 ≤ (c <<< 53) * 10 ^ k
      rw [Nat.shiftLeft_eq]
      nlinarith
  · obtain ⟨k, hk⟩ := Int.eq_ofNat_of_zero_le (show 0 ≤ -e by omega)
    obtain rfl : e = -k := by omega
    rw [if_neg he]
    apply div_eq h
    rw [← hsize, neg_neg, Int.toNat_natCast, zpow_zero, mul_one, mul_one, zpow_neg, zpow_natCast]
    push_cast
    rw [inv_mul_cancel_right₀ (by positivity)]

/-- A coefficient and a power of ten that denote a number of 64 bits are turned into it. -/
theorem ofScientific_eq {b : Binary} (h : b.Canonical) {c : Nat} {e : Int} (hc : 0 < c)
    (hsize : (c : ℚ) * 10 ^ e = b.size) :
    Float.ofScientific c (e < 0) e.natAbs = h.toFloat .positive := by
  rw [Float.ofScientific]
  by_cases hfast : c < 2 ^ 53 ∧ e.natAbs ≤ 22
  · rw [dif_pos hfast]
    obtain ⟨m, k, hm, hcoefficient, hvalue⟩ := unpack_ofUInt64 hc hfast.1
    obtain ⟨m', k', hm', hpower, hvalue', hfull⟩ := unpack_powerOfTen (Nat.lt_succ_of_le hfast.2)
    dsimp only
    by_cases he : e < 0
    · have hexp : e = -(e.natAbs : Int) := by omega
      rw [if_pos (decide_eq_true he)]
      apply div_eq_toFloat h hcoefficient hpower
      rw [hvalue, hvalue', ← hsize, hexp, Int.natAbs_neg, Int.natAbs_natCast, zpow_neg,
        zpow_natCast, inv_mul_cancel_right₀ (by positivity)]
    · have hexp : e = (e.natAbs : Int) := by omega
      rw [if_neg (by simpa using he)]
      apply mul_eq_toFloat h hcoefficient hpower
      · rw [hvalue, hvalue', ← hsize, hexp, Int.natAbs_natCast, zpow_natCast]
      · exact hfull.trans (Nat.le_mul_of_pos_left m' hm)
  · rw [dif_neg hfast]
    have hexp : (if decide (e < 0) = true then Int.negOfNat e.natAbs else Int.ofNat e.natAbs) =
        e := by
      by_cases he : e < 0
      · rw [if_pos (decide_eq_true he), Int.negOfNat_eq]
        change -(e.natAbs : Int) = e
        omega
      · rw [if_neg (by simpa using he)]
        change (e.natAbs : Int) = e
        omega
    rw [hexp]
    change Float.ofModel (.pack (UnpackedFloat.ofScientific Format.binary64 c e)) = _
    rw [unpacked_ofScientific_eq h hc hsize]
    rfl

private theorem neg_toFloat {b : Binary} (h : b.Canonical) :
    -(h.toFloat .positive) = h.toFloat .negative := by
  change Float.ofModel (.pack (h.toFloat .positive).toModel.unpack.neg) = _
  rw [unpack_toFloat h]
  rfl

theorem Decimal.toFloat_eq {b : Binary} (h : b.Canonical) {d : Decimal} (hsize : d.size = b.size) :
    d.toFloat = h.toFloat (if d.negative then .negative else .positive) := by
  have hcoefficient : d.coefficient ≠ 0 := by
    intro hzero
    have hpos : (0 : ℚ) < b.significand := by exact_mod_cast h.pos
    rw [Decimal.size, hzero, Nat.cast_zero, zero_mul, Binary.size] at hsize
    exact absurd hsize.symm (mul_ne_zero hpos.ne' (zpow_ne_zero _ two_ne_zero))
  have hpos := Nat.pos_of_ne_zero hcoefficient
  have hgreatest := exponent_le h hpos hsize
  have hleast := le_exponent h hsize
  have hmagnitude : d.magnitude = h.toFloat .positive := by
    rw [Decimal.magnitude, if_neg hcoefficient, if_neg (by omega), if_neg (by omega),
      ofScientific_eq h hpos hsize]
  rw [Decimal.toFloat, hmagnitude]
  by_cases hneg : d.negative = true
  · rw [if_pos hneg, if_pos hneg, neg_toFloat]
  · rw [if_neg hneg, if_neg hneg]

theorem Decimal.toFloat_of_zero {d : Decimal} (h : d.coefficient = 0) :
    d.toFloat = if d.negative then -0.0 else 0.0 := by
  rw [Decimal.toFloat, Decimal.magnitude, if_pos h]

end LagForecast
