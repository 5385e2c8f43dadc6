import LagForecast.Number.Binary
import Mathlib

/-!
# Binary numbers of 64 bits by sign, significand and exponent

The bits of a finite number other than a zero are its sign, its significand and its exponent, and
each size has one such form.  Both ways between the bits and the form are given here, for normal
and for subnormal numbers, together with what the arithmetic of numbers unpacks.
-/

set_option autoImplicit false

namespace LagForecast

open Float.Model (Format UnpackedFloat)
open Float.Model.UnpackedFloat

def signOf (x : Float) : Sign := if signIsMinus x then .negative else .positive

/-- The sizes other than zero that a number of 64 bits can have, each in the form in which it is
kept: with all 53 digits of the significand, unless the exponent is the least. -/
structure Binary.Canonical (b : Binary) : Prop where
  pos : 0 < b.significand
  lt : b.significand < 2 ^ 53
  least_le : -1074 ≤ b.exponent
  le_greatest : b.exponent ≤ 971
  full : b.exponent ≠ -1074 → 2 ^ 52 ≤ b.significand

theorem ext_toBits {x y : Float} (h : x.toBits = y.toBits) : x = y := by
  obtain ⟨⟨bits, hx⟩⟩ := x
  obtain ⟨⟨bits', hy⟩⟩ := y
  have hbits : bits = bits' := h
  subst hbits
  rfl

private theorem toNat_append {m n : Nat} (x : BitVec m) (y : BitVec n) :
    (x ++ y).toNat = x.toNat * 2 ^ n + y.toNat := by
  rw [BitVec.toNat_append, Nat.shiftLeft_eq, Nat.mul_comm, Nat.two_pow_add_eq_or_of_lt y.isLt]

private theorem toNat_unpackMantissa (b : BitVec 64) :
    (@unpackMantissa Format.binary64 b).toNat = b.toNat % 2 ^ 52 := by
  simp [unpackMantissa, BitVec.extractLsb, BitVec.extractLsb']

theorem toNat_unpackExponent (b : BitVec 64) :
    (@unpackExponent Format.binary64 b).toNat = b.toNat / 2 ^ 52 % 2 ^ 11 := by
  simp [unpackExponent, BitVec.extractLsb, BitVec.extractLsb', Nat.shiftRight_eq_div_pow]

private theorem toNat_unpackSign (b : BitVec 64) :
    (@unpackSign Format.binary64 b).toNat = b.toNat / 2 ^ 63 % 2 := by
  simp [unpackSign, BitVec.extractLsb, BitVec.extractLsb', Nat.shiftRight_eq_div_pow]

def exponentField (x : Float) : Nat := x.toBits.toNat / 2 ^ 52 % 2 ^ 11

def fractionField (x : Float) : Nat := x.toBits.toNat % 2 ^ 52

theorem ofFloat_of_subnormal {x : Float} (h : exponentField x = 0) :
    Binary.ofFloat x = ⟨fractionField x, -1074⟩ := if_pos h

theorem ofFloat_of_normal {x : Float} (h : exponentField x ≠ 0) :
    Binary.ofFloat x = ⟨2 ^ 52 + fractionField x, (exponentField x : Int) - 1075⟩ := if_neg h

theorem unpackExponent_eq_iff (x : Float) (e : BitVec 11) :
    @unpackExponent Format.binary64 x.toModel.toBits.toBitVec = e ↔ exponentField x = e.toNat := by
  rw [← BitVec.toNat_inj, toNat_unpackExponent]
  rfl

private theorem unpackMantissa_eq_zero_iff (x : Float) :
    @unpackMantissa Format.binary64 x.toModel.toBits.toBitVec = 0#52 ↔
      x.toBits.toNat % 2 ^ 52 = 0 := by
  rw [← BitVec.toNat_inj, toNat_unpackMantissa]
  rfl

theorem ofBitVec_unpackSign (x : Float) :
    Sign.ofBitVec (@unpackSign Format.binary64 x.toModel.toBits.toBitVec) = signOf x := by
  have hsign : @unpackSign Format.binary64 x.toModel.toBits.toBitVec = 0#1 ↔
      ¬ x.toBits.toNat / 2 ^ 63 % 2 = 1 := by
    rw [← BitVec.toNat_inj, toNat_unpackSign, Nat.mod_two_not_eq_one]
    rfl
  by_cases h : x.toBits.toNat / 2 ^ 63 % 2 = 1
  · have hneg : signIsMinus x = true := decide_eq_true h
    rw [Sign.ofBitVec, if_neg (fun hz => hsign.1 hz h), signOf, if_pos hneg]
  · have hpos : ¬ signIsMinus x = true := fun hs => h (of_decide_eq_true hs)
    rw [Sign.ofBitVec, if_pos (hsign.2 h), signOf, if_neg hpos]

/-- A number is finite if not every bit of its exponent is set. -/
theorem isFinite_iff (x : Float) : x.isFinite = true ↔ exponentField x ≠ 2047 := by
  have hall := unpackExponent_eq_iff x (-1#11)
  rw [show (-1#11 : BitVec 11).toNat = 2047 from rfl] at hall
  rw [ne_eq, ← hall, Float.isFinite, Float.Model.isFinite, Float.Model.unpack, UnpackedFloat.unpack]
  change UnpackedFloat.isFinite
    (if @unpackExponent Format.binary64 x.toModel.toBits.toBitVec = -1#11 then _ else _) = true ↔ _
  by_cases h : @unpackExponent Format.binary64 x.toModel.toBits.toBitVec = -1#11
  · rw [if_pos h]
    split <;> simp [UnpackedFloat.isFinite, h]
  · rw [if_neg h]
    refine ⟨fun _ => h, fun _ => ?_⟩
    split
    · split <;> rfl
    · rfl

theorem unpack_eq {x : Float} (hfin : x.isFinite = true) (h : 0 < (Binary.ofFloat x).significand) :
    x.toModel.unpack = .finite (signOf x) (Binary.ofFloat x).significand
      (Binary.ofFloat x).exponent h := by
  have hall : ¬ @unpackExponent Format.binary64 x.toModel.toBits.toBitVec = -1#11 := fun he =>
    (isFinite_iff x).1 hfin ((unpackExponent_eq_iff x (-1#11)).1 he)
  have hzero := unpackExponent_eq_iff x 0#11
  have hnone := unpackMantissa_eq_zero_iff x
  rw [Float.Model.unpack, UnpackedFloat.unpack]
  dsimp only
  rw [if_neg hall]
  by_cases h0 : exponentField x = 0
  · have hx := ofFloat_of_subnormal h0
    have hfrac : ¬ @unpackMantissa Format.binary64 x.toModel.toBits.toBitVec = 0#52 := by
      intro hf
      rw [hx] at h
      exact Nat.ne_of_gt h (hnone.1 hf)
    rw [if_pos (hzero.2 h0), dif_neg hfrac]
    congr 1
    · exact ofBitVec_unpackSign x
    · rw [hx, toNat_unpackMantissa]
      rfl
    · rw [toNat_unpackExponent, hx]
      change ((exponentField x : Nat) : Int) - (1023 + 52) + 1 = -1074
      rw [h0]
      rfl
  · have hx := ofFloat_of_normal h0
    rw [if_neg (fun hz => h0 (hzero.1 hz))]
    congr 1
    · exact ofBitVec_unpackSign x
    · rw [hx, toNat_append, toNat_unpackMantissa]
      rfl
    · rw [toNat_unpackExponent, hx]
      change ((exponentField x : Nat) : Int) - (1023 + 52) = exponentField x - 1075
      rfl

theorem canonical_ofFloat {x : Float} (hfin : x.isFinite = true)
    (h : 0 < (Binary.ofFloat x).significand) : (Binary.ofFloat x).Canonical := by
  have hall := (isFinite_iff x).1 hfin
  have hfrac : fractionField x < 2 ^ 52 := Nat.mod_lt _ (by decide)
  have hexp : exponentField x < 2 ^ 11 := Nat.mod_lt _ (by decide)
  by_cases h0 : exponentField x = 0
  · have hx := ofFloat_of_subnormal h0
    rw [hx] at h ⊢
    constructor
    case pos => exact h
    case full => exact fun hne => absurd rfl hne
    all_goals dsimp only; omega
  · have hx := ofFloat_of_normal h0
    rw [hx]
    constructor <;> dsimp only <;> omega

theorem packComponents_unpack (x : Float) :
    packComponents Format.binary64 (signOf x)
      (@unpackExponent Format.binary64 x.toModel.toBits.toBitVec)
      (@unpackMantissa Format.binary64 x.toModel.toBits.toBitVec) = x.toModel.toBits.toBitVec := by
  have hsign (v : BitVec 1) : (Sign.ofBitVec v).toBitVec = v := by
    revert v
    decide
  rw [← ofBitVec_unpackSign]
  simp only [packComponents, hsign, unpackSign, unpackExponent, unpackMantissa, BitVec.extractLsb]
  ext i hi
  grind

theorem unpackSign_packComponents (s : Sign) (e : BitVec 11) (m : BitVec 52) :
    unpackSign (packComponents Format.binary64 s e m) = s.toBitVec := by
  change (s.toBitVec ++ e ++ m).extractLsb' 63 1 = s.toBitVec
  rw [BitVec.extractLsb'_append_eq_of_le (by decide),
    BitVec.extractLsb'_append_eq_of_le (by decide)]
  cases s <;> rfl

private theorem pack_finite (s : Sign) {b : Binary} (h : b.Canonical) :
    UnpackedFloat.pack Format.binary64 (.finite s b.significand b.exponent h.pos) =
      packComponents Format.binary64 s
        (BitVec.ofNat 11 (if b.significand < 2 ^ 52 then 0 else (b.exponent + 1075).toNat))
        (BitVec.ofNat 52 b.significand) := by
  obtain ⟨hpos, hlt, hleast, hgreatest, hfull⟩ := h
  have hbias : (b.exponent + (Format.binary64.exponentBias : Int) +
      (Format.binary64.mantissaBitsWithoutImplicit : Int)).toNat = (b.exponent + 1075).toNat := by
    change (b.exponent + 1023 + 52).toNat = _
    omega
  rw [UnpackedFloat.pack]
  dsimp only
  rw [hbias, if_neg (by change ¬ 2048 ≤ _; omega)]
  by_cases hs : b.significand < 2 ^ 52
  · have hlog : b.significand.log2 < 52 := (Nat.log2_lt (by omega)).2 hs
    rw [if_neg (by change ¬ _ = 53; omega), if_pos hs]
  · have hlog : b.significand.log2 = 52 :=
      (Nat.log2_eq_iff (by omega)).2 ⟨Nat.not_lt.1 hs, hlt⟩
    rw [if_pos (by rw [hlog]; rfl), if_neg hs]

def Binary.Canonical.toFloat {b : Binary} (h : b.Canonical) (s : Sign) : Float :=
  .ofModel (.pack (.finite s b.significand b.exponent h.pos))

private theorem toBitVec_toFloat {b : Binary} (h : b.Canonical) (s : Sign) :
    (h.toFloat s).toModel.toBits.toBitVec = packComponents Format.binary64 s
      (BitVec.ofNat 11 (if b.significand < 2 ^ 52 then 0 else (b.exponent + 1075).toNat))
      (BitVec.ofNat 52 b.significand) := pack_finite s h

theorem toFloat_ofFloat {x : Float} (hfin : x.isFinite = true)
    (h : 0 < (Binary.ofFloat x).significand) :
    (canonical_ofFloat hfin h).toFloat (signOf x) = x := by
  have hfrac : fractionField x < 2 ^ 52 := Nat.mod_lt _ (by decide)
  have hexp : exponentField x < 2 ^ 11 := Nat.mod_lt _ (by decide)
  apply ext_toBits
  apply UInt64.toBitVec_inj.1
  change _ = x.toModel.toBits.toBitVec
  rw [← packComponents_unpack x]
  change ((canonical_ofFloat hfin h).toFloat (signOf x)).toModel.toBits.toBitVec = _
  rw [toBitVec_toFloat]
  congr 1
  · apply BitVec.eq_of_toNat_eq
    rw [toNat_unpackExponent, BitVec.toNat_ofNat]
    change _ = exponentField x
    by_cases h0 : exponentField x = 0
    · rw [ofFloat_of_subnormal h0, if_pos hfrac, h0]
    · rw [ofFloat_of_normal h0, if_neg (by dsimp only; omega)]
      dsimp only
      omega
  · apply BitVec.eq_of_toNat_eq
    rw [toNat_unpackMantissa, BitVec.toNat_ofNat]
    change _ = fractionField x
    by_cases h0 : exponentField x = 0
    · rw [ofFloat_of_subnormal h0]
      exact Nat.mod_eq_of_lt hfrac
    · rw [ofFloat_of_normal h0]
      dsimp only
      omega

private theorem signOf_toFloat {b : Binary} (h : b.Canonical) (s : Sign) :
    signOf (h.toFloat s) = s := by
  rw [← ofBitVec_unpackSign, toBitVec_toFloat, unpackSign_packComponents]
  cases s <;> rfl

private theorem exponentField_toFloat {b : Binary} (h : b.Canonical) (s : Sign) :
    exponentField (h.toFloat s) =
      if b.significand < 2 ^ 52 then 0 else (b.exponent + 1075).toNat := by
  obtain ⟨-, -, hleast, hgreatest, -⟩ := id h
  have hfield := toNat_unpackExponent (h.toFloat s).toModel.toBits.toBitVec
  rw [toBitVec_toFloat, unpackExponent_packComponents, ← toBitVec_toFloat,
    BitVec.toNat_ofNat] at hfield
  refine hfield.symm.trans (Nat.mod_eq_of_lt ?_)
  change _ < 2048
  split <;> omega

private theorem fractionField_toFloat {b : Binary} (h : b.Canonical) (s : Sign) :
    fractionField (h.toFloat s) = b.significand % 2 ^ 52 := by
  have hfield := toNat_unpackMantissa (h.toFloat s).toModel.toBits.toBitVec
  rw [toBitVec_toFloat, unpackMantissa_packComponents, ← toBitVec_toFloat,
    BitVec.toNat_ofNat] at hfield
  exact hfield.symm

theorem isFinite_toFloat {b : Binary} (h : b.Canonical) (s : Sign) :
    (h.toFloat s).isFinite = true := by
  obtain ⟨-, -, hleast, hgreatest, -⟩ := h
  rw [isFinite_iff, exponentField_toFloat]
  split <;> omega

private theorem ofFloat_toFloat {b : Binary} (h : b.Canonical) (s : Sign) :
    Binary.ofFloat (h.toFloat s) = b := by
  have hexp := exponentField_toFloat h s
  have hfrac := fractionField_toFloat h s
  obtain ⟨hpos, hlt, hleast, hgreatest, hfull⟩ := id h
  by_cases hs : b.significand < 2 ^ 52
  · rw [if_pos hs] at hexp
    rw [ofFloat_of_subnormal hexp, hfrac, Nat.mod_eq_of_lt hs]
    have he : b.exponent = -1074 := by
      by_contra hne
      exact absurd (hfull hne) (Nat.not_le.2 hs)
    rw [← he]
  · rw [if_neg hs] at hexp
    rw [ofFloat_of_normal (by omega), hfrac, hexp]
    cases b with
    | mk m e =>
      dsimp only at hs hlt hleast ⊢
      congr 1 <;> omega

theorem unpack_toFloat {b : Binary} (h : b.Canonical) (s : Sign) :
    (h.toFloat s).toModel.unpack = .finite s b.significand b.exponent h.pos := by
  have hb := ofFloat_toFloat h s
  have hpos : 0 < (Binary.ofFloat (h.toFloat s)).significand := by rw [hb]; exact h.pos
  rw [unpack_eq (isFinite_toFloat h s) hpos, signOf_toFloat]
  congr 1
  · rw [hb]
  · rw [hb]

end LagForecast
