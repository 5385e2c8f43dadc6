import LagForecast.Proofs.Number.Order
import LagForecast.Proofs.Number.Overflow

/-!
# Negation

A number is negated by its sign alone: the digits to which a product or a quotient is rounded do not
depend on it, nor does where it ends in an infinity.  A difference taken the other way round is the
negative of the difference, but for a zero, which stays a positive one.
-/

set_option autoImplicit false

namespace LagForecast

open Float.Model (Format UnpackedFloat)
open Float.Model.UnpackedFloat

private theorem unpack_packComponents_neg (s : Sign) (e : BitVec 11) (m : BitVec 52) :
    UnpackedFloat.unpack Format.binary64 (packComponents Format.binary64 (-s) e m) =
      (UnpackedFloat.unpack Format.binary64 (packComponents Format.binary64 s e m)).neg := by
  have hsign (t : Sign) : Sign.ofBitVec t.toBitVec = t := by
    cases t <;> rfl
  unfold UnpackedFloat.unpack
  simp only [unpackMantissa_packComponents, unpackExponent_packComponents,
    unpackSign_packComponents, hsign]
  split_ifs <;> rfl

private theorem pack_eq_packComponents (u : UnpackedFloat) : u = .notANumber ∨
    ∃ s e m, UnpackedFloat.pack Format.binary64 u = packComponents Format.binary64 s e m ∧
      UnpackedFloat.pack Format.binary64 u.neg = packComponents Format.binary64 (-s) e m := by
  cases u with
  | notANumber => exact Or.inl rfl
  | infinity s => exact Or.inr ⟨s, _, _, rfl, rfl⟩
  | zero s => exact Or.inr ⟨s, _, _, rfl, rfl⟩
  | finite s m e hm =>
    refine Or.inr ⟨s, ?_⟩
    simp only [UnpackedFloat.neg, UnpackedFloat.pack]
    split_ifs
    · exact ⟨_, _, rfl, rfl⟩
    · exact ⟨_, _, rfl, rfl⟩
    · exact ⟨_, _, rfl, rfl⟩

private theorem unpack_pack_neg (u : UnpackedFloat) :
    (Float.Model.pack u.neg).unpack = (Float.Model.pack u).unpack.neg := by
  rcases pack_eq_packComponents u with rfl | ⟨s, e, m, hu, hneg⟩
  · rfl
  · change UnpackedFloat.unpack _ (UnpackedFloat.pack _ u.neg) =
      (UnpackedFloat.unpack _ (UnpackedFloat.pack _ u)).neg
    rw [hu, hneg, unpack_packComponents_neg]

private theorem pack_unpack (x : Float) : Float.ofModel (.pack x.toModel.unpack) = x := by
  cases hx : x.isFinite with
  | true =>
    rcases Nat.eq_zero_or_pos (Binary.ofFloat x).significand with hzero | hpos
    · rw [eq_zero_of_significand hzero]
      split <;> rfl
    · rw [unpack_eq hx hpos]
      exact toFloat_ofFloat hx hpos
  | false =>
    have hexponent : @unpackExponent Format.binary64 x.toModel.toBits.toBitVec = -1#11 := by
      rw [unpackExponent_eq_iff]
      by_contra hne
      exact Bool.false_ne_true (hx.symm.trans ((isFinite_iff x).2 hne))
    have hbits := packComponents_unpack x
    apply ext_toBits
    apply UInt64.toBitVec_inj.1
    change UnpackedFloat.pack Format.binary64 x.toModel.unpack = x.toModel.toBits.toBitVec
    rw [Float.Model.unpack, UnpackedFloat.unpack]
    dsimp only
    rw [if_pos hexponent]
    by_cases hmantissa : @unpackMantissa Format.binary64 x.toModel.toBits.toBitVec = 0#52
    · rw [if_pos hmantissa, ofBitVec_unpackSign]
      rw [hexponent, hmantissa] at hbits
      exact hbits
    · rw [if_neg hmantissa]
      exact (x.toModel.valid.eq_packedNaN hexponent hmantissa).symm

theorem unpack_neg (x : Float) : (-x).toModel.unpack = x.toModel.unpack.neg := by
  change (Float.Model.pack x.toModel.unpack.neg).unpack = _
  rw [unpack_pack_neg]
  exact congrArg (fun y : Float => y.toModel.unpack.neg) (pack_unpack x)

private theorem neg_pack (u : UnpackedFloat) :
    -Float.ofModel (.pack u) = Float.ofModel (.pack u.neg) := by
  change Float.ofModel (.pack (Float.Model.pack u).unpack.neg) = _
  rw [← unpack_pack_neg]
  exact pack_unpack (Float.ofModel (.pack u.neg))

private theorem roundWithAccuracy_neg (spec : Format) (s : Sign) (m : Nat) (e : Int)
    (acc : Accuracy) :
    roundWithAccuracy spec (-s) m e acc = (roundWithAccuracy spec s m e acc).neg := by
  simp only [roundWithAccuracy]
  split_ifs <;> rfl

private theorem normalize_neg {spec : Format} {m e : Int} (z : Sign) (hm : m ≠ 0) :
    UnpackedFloat.normalize spec (-m) e z = (UnpackedFloat.normalize spec m e z).neg := by
  unfold UnpackedFloat.normalize
  rcases lt_or_gt_of_ne hm with hneg | hpos
  · rw [compare_lt_iff_lt.2 hneg, compare_gt_iff_gt.2 (neg_pos.2 hneg)]
    exact roundWithAccuracy_neg spec .negative _ _ _
  · rw [compare_gt_iff_gt.2 hpos, compare_lt_iff_lt.2 (neg_lt_zero.2 hpos), neg_neg]
    exact roundWithAccuracy_neg spec .positive _ _ _

section Unpacked

variable (spec : Format) (u v : UnpackedFloat)

private theorem mul_neg_unpacked :
    UnpackedFloat.mul spec u v.neg = (UnpackedFloat.mul spec u v).neg := by
  have hsign (s t : Sign) : s * -t = -(s * t) := by
    cases s <;> cases t <;> rfl
  cases u <;> cases v <;>
    simp only [UnpackedFloat.mul, UnpackedFloat.neg, hsign, roundWithAccuracy_neg]

private theorem neg_mul_neg_unpacked :
    UnpackedFloat.mul spec u.neg v.neg = UnpackedFloat.mul spec u v := by
  have hsign (s t : Sign) : -s * -t = s * t := by
    cases s <;> cases t <;> rfl
  cases u <;> cases v <;> simp only [UnpackedFloat.mul, UnpackedFloat.neg, hsign]

private theorem neg_div_unpacked :
    UnpackedFloat.div spec u.neg v = (UnpackedFloat.div spec u v).neg := by
  have hsign (s t : Sign) : -s / t = -(s / t) := by
    cases s <;> cases t <;> rfl
  cases u <;> cases v <;>
    simp only [UnpackedFloat.div, UnpackedFloat.neg, hsign, roundWithAccuracy_neg]

private theorem sub_swap_unpacked :
    UnpackedAlike (UnpackedFloat.sub spec u v) (UnpackedFloat.sub spec v u).neg := by
  cases u with
  | notANumber => cases v <;> exact .refl _
  | infinity s =>
    cases v with
    | infinity t => cases s <;> cases t <;> exact .refl _
    | notANumber | zero t | finite t n f hn => cases s <;> exact .refl _
  | zero s =>
    cases v with
    | notANumber => exact .refl _
    | infinity t => exact .refl _
    | zero t => cases s <;> cases t <;> exact .zeros _ _
    | finite t n f hn => exact .refl _
  | finite s m e hm =>
    cases v with
    | notANumber => exact .refl _
    | infinity t => exact .refl _
    | zero t => cases s <;> exact .refl _
    | finite t n f hn =>
      simp only [UnpackedFloat.sub, decreaseExponent, min_comm f e]
      generalize s.apply _ = a
      generalize t.apply _ = b
      by_cases hzero : b - a = 0
      · have hzero' : a - b = 0 := by omega
        rw [hzero, hzero']
        exact .zeros _ _
      · rw [← neg_sub b a, normalize_neg .positive hzero]
        exact .refl _

end Unpacked

section Numbers

variable (x y : Float)

theorem mul_neg_eq : x * -y = -(x * y) := by
  change Float.ofModel (.pack (UnpackedFloat.mul _ x.toModel.unpack (-y).toModel.unpack)) =
    -Float.ofModel (.pack (UnpackedFloat.mul _ x.toModel.unpack y.toModel.unpack))
  rw [unpack_neg, mul_neg_unpacked, neg_pack]

theorem neg_mul_neg_eq : -x * -y = x * y := by
  change Float.ofModel (.pack (UnpackedFloat.mul _ (-x).toModel.unpack (-y).toModel.unpack)) =
    Float.ofModel (.pack (UnpackedFloat.mul _ x.toModel.unpack y.toModel.unpack))
  rw [unpack_neg, unpack_neg, neg_mul_neg_unpacked]

theorem neg_div_eq : -x / y = -(x / y) := by
  change Float.ofModel (.pack (UnpackedFloat.div _ (-x).toModel.unpack y.toModel.unpack)) =
    -Float.ofModel (.pack (UnpackedFloat.div _ x.toModel.unpack y.toModel.unpack))
  rw [unpack_neg, neg_div_unpacked, neg_pack]

theorem abs_neg_eq : (-x).abs = x.abs := by
  change Float.ofModel (.pack (-x).toModel.unpack.abs) = .ofModel (.pack x.toModel.unpack.abs)
  rw [unpack_neg]
  cases x.toModel.unpack <;> rfl

/-- A difference taken the other way round is the negative of the difference, or both are zero. -/
theorem sub_swap_alike : Alike (x - y) (-(y - x)) := by
  have hswap := sub_swap_unpacked Format.binary64 x.toModel.unpack y.toModel.unpack
  have hunpacked := hswap.unpack_pack
  rw [unpack_pack_neg] at hunpacked
  change UnpackedAlike (x - y).toModel.unpack (-(y - x)).toModel.unpack
  rw [unpack_neg]
  exact hunpacked

end Numbers

private theorem isNaN_pack {u : UnpackedFloat} (hu : u ≠ .notANumber) :
    (Float.ofModel (.pack u)).isNaN = false := by
  cases u with
  | notANumber => exact absurd rfl hu
  | infinity s | zero s => cases s <;> rfl
  | finite s m e hm =>
    rcases le_or_gt e 971 with he | he
    · exact isNaN_of_isFinite (isFinite_pack_finite s hm he)
    · rw [pack_finite_of_overflow s hm he]
      cases s <;> rfl

private theorem round_ne_notANumber (spec : Format) (s : Sign) (m : Nat) (e : Int)
    (acc : Accuracy) : roundWithAccuracy spec s m e acc ≠ .notANumber := by
  simp only [roundWithAccuracy]
  split_ifs <;> simp

section Numbers

variable {x y : Float}

/-- The difference of finite numbers may be infinite, but is a number. -/
theorem isNaN_sub (hx : x.isFinite = true) (hy : y.isFinite = true) :
    (x - y).isNaN = false := by
  change (Float.ofModel (.pack
    (UnpackedFloat.sub _ x.toModel.unpack y.toModel.unpack))).isNaN = false
  apply isNaN_pack
  rcases zero_or_canonical hx with ⟨s, hu⟩ | ⟨s, b, hb, hu⟩ <;>
    rcases zero_or_canonical hy with ⟨t, hv⟩ | ⟨t, c, hc, hv⟩ <;> rw [hu, hv]
  · intro hsub
    cases s <;> cases t <;> cases hsub
  · simp [UnpackedFloat.sub]
  · simp [UnpackedFloat.sub]
  · simp only [UnpackedFloat.sub, UnpackedFloat.normalize]
    split
    · exact round_ne_notANumber _ _ _ _ _
    · simp
    · exact round_ne_notANumber _ _ _ _ _

theorem isNaN_mul_of_finite (hx : x.isNaN = false)
    (hy : ∃ s m e, ∃ hm : 0 < m, y.toModel.unpack = .finite s m e hm) :
    (x * y).isNaN = false := by
  obtain ⟨s, m, e, hm, hy⟩ := hy
  change x.toModel.unpack.isNaN = false at hx
  change (Float.ofModel (.pack
    (UnpackedFloat.mul _ x.toModel.unpack y.toModel.unpack))).isNaN = false
  apply isNaN_pack
  rw [hy]
  cases hu : x.toModel.unpack with
  | notANumber =>
    rw [hu] at hx
    cases hx
  | infinity t | zero t => simp [UnpackedFloat.mul]
  | finite t n f hn => exact round_ne_notANumber _ _ _ _ _

end Numbers

end LagForecast
