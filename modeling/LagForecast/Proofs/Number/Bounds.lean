import LagForecast.Number.Scalar
import LagForecast.Proofs.Number.Negation

/-!
# Numbers within powers of two

What a result of finite numbers is rounded to is on the same side of a power of two as the exact
result, and it is not carried past one by less than half a step.  So bounds by powers of two go
through sums, products and quotients as they do for exact numbers, and through sums of any length.
-/

set_option autoImplicit false

namespace LagForecast

open Float.Model (Format UnpackedFloat)
open Float.Model.UnpackedFloat

variable {x y : Float} {r : ℚ} {j k : Int}

section Significands

variable {em : ExtendedMantissa} {q : ℚ} {n : Nat}

private theorem roundedMantissa_of_down (h : em.roundBit = false) :
    em.roundedMantissa = em.mantissa := by
  obtain ⟨m, r, t⟩ := em
  cases h
  cases t <;> rfl

/-- What is not below a whole number is not rounded to below it. -/
theorem Stands.le_roundedMantissa (h : Stands em q) (hq : (n : ℚ) ≤ q) :
    n ≤ em.roundedMantissa := by
  have hmantissa : (n : ℚ) < (em.mantissa + 1 : Nat) := by
    rw [Nat.cast_add_one]
    exact hq.trans_lt h.lt
  exact (Nat.lt_succ_iff.1 (Nat.cast_lt.1 hmantissa)).trans (LagForecast.le_roundedMantissa em)

/-- What passes a whole number by less than a half is rounded to it or below. -/
theorem Stands.roundedMantissa_le (h : Stands em q) (hq : q < n + 1 / 2) :
    em.roundedMantissa ≤ n := by
  have hmantissa : em.mantissa < n + 1 := by
    have hcast : (em.mantissa : ℚ) < (n + 1 : Nat) := by
      rw [Nat.cast_add_one]
      linarith only [h.le, hq]
    exact Nat.cast_lt.1 hcast
  rcases Nat.lt_succ_iff_lt_or_eq.1 hmantissa with hlt | heq
  · exact (LagForecast.roundedMantissa_le em).trans hlt
  · have hdown : em.roundBit = false := by
      by_contra hbit
      have hhalf := h.half.1 (Bool.eq_true_of_not_eq_false hbit)
      rw [heq] at hhalf
      exact absurd hq (not_lt.2 hhalf)
    rw [roundedMantissa_of_down hdown, heq]

end Significands

private theorem exists_steps {t k : Int} (h : t ≤ k) :
    ∃ d : Nat, k = d + t ∧ (2 : ℚ) ^ k = (2 ^ d : Nat) * 2 ^ t := by
  obtain ⟨d, hd⟩ := Int.eq_ofNat_of_zero_le (Int.sub_nonneg.2 h)
  have hsplit : k = d + t := by omega
  refine ⟨d, hsplit, ?_⟩
  rw [hsplit, zpow_add₀ two_ne_zero, zpow_natCast]
  push_cast
  rfl

private theorem exactValue_zero (s : Sign) : exactValue (.ofModel (.pack (.zero s))) = 0 := by
  cases s <;> rfl

private theorem exactValue_toFloat {b : Binary} (hb : b.Canonical) (s : Sign) :
    |exactValue (hb.toFloat s)| = b.size := by
  rw [exactValue, unpack_toFloat hb s, abs_unpackedValue]
  rfl

private theorem Rounded.exists_placed (h : Rounded x r) (hx : x.isFinite = true) :
    ∃ em t, Placed r em t ∧ |exactValue x| = em.roundedMantissa * 2 ^ t := by
  obtain ⟨s, em, t, hr, rfl⟩ := h
  refine ⟨em, t, hr, ?_⟩
  obtain ⟨-, hlt, hleast, hfull⟩ := hr
  have hle := le_roundedMantissa em
  have hup := roundedMantissa_le em
  unfold roundedFloat at hx ⊢
  split_ifs at hx ⊢ with hzero hbelow
  · rw [exactValue_zero, hzero, abs_zero, Nat.cast_zero, zero_mul]
  · have hb : Binary.Canonical ⟨em.roundedMantissa, t⟩ :=
      ⟨Nat.pos_of_ne_zero hzero, hbelow, hleast, (isFinite_pack_finite_iff s _).1 hx,
        fun hne => (hfull (lt_of_le_of_ne hleast (Ne.symm hne))).trans hle⟩
    exact exactValue_toFloat hb s
  · have hb : Binary.Canonical ⟨2 ^ 52, t + 1⟩ :=
      ⟨Nat.two_pow_pos 52, Nat.pow_lt_pow_right one_lt_two (by decide), hleast.trans (by simp),
        (isFinite_pack_finite_iff s _).1 hx, fun _ => le_rfl⟩
    have hcarry : em.roundedMantissa = 2 ^ 53 := by omega
    refine (exactValue_toFloat hb s).trans ?_
    rw [Binary.size, hcarry, zpow_add₀ two_ne_zero, zpow_one]
    push_cast
    ring

private theorem Placed.lt_of_lt {em : ExtendedMantissa} {t : Int} (h : Placed r em t)
    (hk : -1074 ≤ k) (hlt : k < t) : 2 ^ k + 2 ^ (k - 53) < r := by
  have hstep : (0 : ℚ) < 2 ^ t := zpow_pos two_pos t
  have hmantissa : (2 : ℚ) ^ 52 ≤ em.mantissa := by exact_mod_cast h.full (hk.trans_lt hlt)
  have hpower : (2 : ℚ) ^ k ≤ 2 ^ t := zpow_le_zpow_right₀ one_le_two hlt.le
  have hhalf : (2 : ℚ) ^ (k - 53) ≤ 2 ^ t := zpow_le_zpow_right₀ one_le_two (by omega)
  calc (2 : ℚ) ^ k + 2 ^ (k - 53) ≤ 2 ^ t + 2 ^ t := add_le_add hpower hhalf
    _ = 2 * 2 ^ t := (two_mul _).symm
    _ < 2 ^ 52 * 2 ^ t := by
      gcongr
      norm_num
    _ ≤ r := (le_div_iff₀ hstep).1 (hmantissa.trans h.stands.le)

/-- A size that is not below a power of two is not rounded to below it. -/
theorem Rounded.le_abs (h : Rounded x r) (hx : x.isFinite = true) (hk : -1074 ≤ k)
    (hr : 2 ^ k ≤ r) : 2 ^ k ≤ |exactValue x| := by
  obtain ⟨em, t, hplaced, hvalue⟩ := h.exists_placed hx
  have hstep : (0 : ℚ) < 2 ^ t := zpow_pos two_pos t
  rw [hvalue]
  rcases lt_or_ge k t with hlt | hge
  · have hmantissa : 1 ≤ em.roundedMantissa :=
      (Nat.one_le_two_pow.trans (hplaced.full (hk.trans_lt hlt))).trans (le_roundedMantissa em)
    calc (2 : ℚ) ^ k ≤ 2 ^ t := zpow_le_zpow_right₀ one_le_two hlt.le
      _ = 1 * 2 ^ t := (one_mul _).symm
      _ ≤ em.roundedMantissa * 2 ^ t := by
        gcongr
        exact_mod_cast hmantissa
  · obtain ⟨d, -, hsplit⟩ := exists_steps hge
    have hquotient : ((2 ^ d : Nat) : ℚ) ≤ r / 2 ^ t := by
      rwa [le_div_iff₀ hstep, ← hsplit]
    rw [hsplit]
    gcongr
    exact hplaced.stands.le_roundedMantissa hquotient

/-- A finite number of size at most `2 ^ k`. -/
structure Within (x : Float) (k : Int) : Prop where
  finite : x.isFinite = true
  le : |exactValue x| ≤ 2 ^ k

private theorem lt_overflowBound_of_lt (hk : k ≤ 1023) (hr : r < 2 ^ k + 2 ^ (k - 53)) :
    r < overflowBound := by
  have hpower : (2 : ℚ) ^ k ≤ 2 ^ (1023 : Int) := zpow_le_zpow_right₀ one_le_two hk
  have hhalf : (2 : ℚ) ^ (k - 53) ≤ 2 ^ (970 : Int) := zpow_le_zpow_right₀ one_le_two (by omega)
  have hdouble : (2 : ℚ) ^ (1024 : Int) = 2 ^ (1023 : Int) * 2 := zpow_add_one₀ two_ne_zero 1023
  have hsmall : (2 : ℚ) ^ (970 : Int) * 2 ≤ 2 ^ (1023 : Int) := by
    rw [← zpow_add_one₀ two_ne_zero]
    exact zpow_le_zpow_right₀ one_le_two (by decide)
  rw [overflowBound, hdouble]
  generalize (2 : ℚ) ^ (1023 : Int) = p at *
  generalize (2 : ℚ) ^ (970 : Int) = q at *
  linarith

/-- A size that passes a power of two by less than half a step is rounded to it or below. -/
theorem Rounded.within (h : Rounded x r) (hk : -1074 ≤ k) (hgreatest : k ≤ 1023)
    (hr : r < 2 ^ k + 2 ^ (k - 53)) : Within x k := by
  have hfinite := h.isFinite_iff.2 (lt_overflowBound_of_lt hgreatest hr)
  refine ⟨hfinite, ?_⟩
  obtain ⟨em, t, hplaced, hvalue⟩ := h.exists_placed hfinite
  have hstep : (0 : ℚ) < 2 ^ t := zpow_pos two_pos t
  have hle : t ≤ k := not_lt.1 fun hlt => lt_asymm hr (hplaced.lt_of_lt hk hlt)
  obtain ⟨d, rfl, hsplit⟩ := exists_steps hle
  rw [hvalue, hsplit]
  gcongr
  rcases Nat.lt_or_ge d 53 with hfew | hmany
  · have hhalf : (2 : ℚ) ^ (d + t - 53) ≤ 1 / 2 * 2 ^ t := by
      have hstep' : (2 : ℚ) ^ (t - 1) = 1 / 2 * 2 ^ t := by
        rw [zpow_sub_one₀ two_ne_zero]
        ring
      rw [← hstep']
      exact zpow_le_zpow_right₀ one_le_two (by omega)
    apply hplaced.stands.roundedMantissa_le
    rw [div_lt_iff₀ hstep, add_mul, ← hsplit]
    exact hr.trans_le (add_le_add le_rfl hhalf)
  · -- A significand has no more digits than this.
    calc em.roundedMantissa ≤ em.mantissa + 1 := roundedMantissa_le em
      _ ≤ 2 ^ 53 := hplaced.lt
      _ ≤ 2 ^ d := Nat.pow_le_pow_right two_pos hmany

private theorem exactValue_neg (hx : x.isFinite = true) : exactValue (-x) = -exactValue x := by
  rw [exactValue, exactValue, unpack_neg]
  rcases zero_or_canonical hx with ⟨s, hu⟩ | ⟨s, b, hb, hu⟩ <;> rw [hu]
  · exact neg_zero.symm
  · cases s <;> simp [UnpackedFloat.neg, unpackedValue, Sign.apply]

private theorem add_eq_sub_neg (x y : Float) : x + y = x - -y := by
  change Float.ofModel (.pack (UnpackedFloat.add _ x.toModel.unpack y.toModel.unpack)) =
    Float.ofModel (.pack (UnpackedFloat.sub _ x.toModel.unpack (-y).toModel.unpack))
  rw [unpack_neg]
  congr 2
  have happly (s : Sign) (n : Int) : (-s).apply n = -s.apply n := by
    cases s
    · exact (neg_neg n).symm
    · rfl
  cases x.toModel.unpack with
  | notANumber => cases y.toModel.unpack <;> rfl
  | infinity s =>
    cases y.toModel.unpack with
    | infinity t => cases s <;> cases t <;> rfl
    | notANumber | zero t | finite t n f hn => rfl
  | zero s =>
    cases y.toModel.unpack with
    | infinity t | zero t => cases s <;> cases t <;> rfl
    | finite t n f hn => cases t <;> rfl
    | notANumber => rfl
  | finite s m e hm =>
    cases y.toModel.unpack with
    | infinity t => cases t <;> rfl
    | finite t n f hn =>
      simp only [UnpackedFloat.add, UnpackedFloat.sub, UnpackedFloat.neg, happly, sub_neg_eq_add]
    | notANumber | zero t => rfl

private theorem rounded_add (hx : x.isFinite = true) (hy : y.isFinite = true) :
    Rounded (x + y) |exactValue x + exactValue y| := by
  rw [add_eq_sub_neg, ← sub_neg_eq_add, ← exactValue_neg hy]
  exact rounded_sub hx (isFinite_neg hy)

namespace Within

theorem mono (hx : Within x k) (hkj : k ≤ j) : Within x j :=
  ⟨hx.finite, hx.le.trans (zpow_le_zpow_right₀ one_le_two hkj)⟩

/-- A number that is much smaller does not carry a sum past a power of two. -/
theorem add (hx : Within x k) (hy : Within y j) (hj : j < k - 53) (hk : -1074 ≤ k)
    (hgreatest : k ≤ 1023) : Within (x + y) k := by
  refine (rounded_add hx.finite hy.finite).within hk hgreatest ?_
  calc |exactValue x + exactValue y| ≤ |exactValue x| + |exactValue y| := abs_add_le _ _
    _ ≤ 2 ^ k + 2 ^ j := add_le_add hx.le hy.le
    _ < 2 ^ k + 2 ^ (k - 53) := by
      gcongr
      exact one_lt_two

theorem mul (hx : Within x k) (hy : Within y j) (hleast : -1074 ≤ k + j)
    (hgreatest : k + j ≤ 1023) : Within (x * y) (k + j) := by
  refine (rounded_mul hx.finite hy.finite).within hleast hgreatest ?_
  have hproduct : |exactValue x * exactValue y| ≤ 2 ^ (k + j) := by
    rw [abs_mul, zpow_add₀ two_ne_zero]
    exact mul_le_mul hx.le hy.le (abs_nonneg _) (zpow_nonneg two_pos.le k)
  exact hproduct.trans_lt (lt_add_of_pos_right _ (zpow_pos two_pos _))

theorem div (hx : Within x k) (hy : y.isFinite = true) (hj : 2 ^ j ≤ |exactValue y|)
    (hleast : -1074 ≤ k - j) (hgreatest : k - j ≤ 1023) : Within (x / y) (k - j) := by
  have hpos : (0 : ℚ) < 2 ^ j := zpow_pos two_pos j
  have hne : exactValue y ≠ 0 := abs_pos.1 (hpos.trans_le hj)
  refine (rounded_div hx.finite hy hne).within hleast hgreatest ?_
  have hquotient : |exactValue x / exactValue y| ≤ 2 ^ (k - j) := by
    rw [abs_div, zpow_sub₀ two_ne_zero]
    exact div_le_div₀ (zpow_nonneg two_pos.le k) hx.le hpos hj
  exact hquotient.trans_lt (lt_add_of_pos_right _ (zpow_pos two_pos _))

end Within

/-- A sum of any length stays within `2 ^ 54` times the bound of its terms: at that size a term is
less than half a step, and is lost. -/
theorem within_sum {l : List Float} (h : ∀ w ∈ l, Within w j) (hleast : -1074 ≤ j + 54)
    (hgreatest : j + 54 ≤ 1023) : Within (Scalar.sum l) (j + 54) := by
  have hfold (start : Float) (hstart : Within start (j + 54)) :
      Within (l.foldl (· + ·) start) (j + 54) := by
    induction l generalizing start with
    | nil => exact hstart
    | cons w l ih =>
      exact ih (fun v hv => h v (List.mem_cons_of_mem w hv)) (start + w)
        (hstart.add (h w List.mem_cons_self) (by omega) hleast hgreatest)
  refine hfold _ ⟨by decide +kernel, ?_⟩
  have hzero : exactValue (-0.0) = 0 := rfl
  change |exactValue (-0.0)| ≤ _
  rw [hzero, abs_zero]
  exact zpow_nonneg two_pos.le _

theorem rounded_ofNat {n : Nat} (hn : 0 < n) : Rounded (Float.ofNat n) n := by
  change Rounded (Float.ofScientific n false 0) n
  by_cases hfast : n < 2 ^ 53
  · obtain ⟨b, hb, hsize⟩ := exists_canonical hn hfast
    have hexact : Float.ofScientific n false 0 = hb.toFloat .positive := ofScientific_eq hb hn hsize
    rw [hexact, ← mul_one (n : ℚ), ← zpow_zero (10 : ℚ), hsize]
    exact rounded_canonical .positive hb
  · have hscale : (n : ℚ) = ((n <<< 53 * 10 ^ 0 : Nat) : ℚ) * 2 ^ (-53 + 0 : Int) := by
      rw [Nat.shiftLeft_eq]
      norm_num
      ring
    have hdigits : 2 ^ 52 ≤ n <<< 53 * 10 ^ 0 := by
      rw [Nat.shiftLeft_eq, pow_zero, mul_one]
      omega
    have hround : UnpackedFloat.ofScientific Format.binary64 n 0 =
        roundWithAccuracy Format.binary64 .positive (n <<< 53 * 10 ^ 0) (-53 + 0) .exact := by
      rw [UnpackedFloat.ofScientific, dif_neg hn.ne', if_neg (by decide),
        if_neg (by change ¬ (0 : Int) < -(2048 + (n.log2 : Int)); omega), if_pos (Int.le_refl 0)]
      rfl
    rw [Float.ofScientific, dif_neg fun h => hfast h.1]
    change Rounded (Float.ofModel (.pack (UnpackedFloat.ofScientific Format.binary64 n 0))) n
    rw [hround, hscale]
    exact rounded_of_stands .positive (stands_exact _) (le_targetExponent hdigits)

private theorem Rounded.exists_infinity (h : Rounded x r) (hx : x.isFinite = false) :
    ∃ s, x.toModel.unpack = .infinity s := by
  have hunpack (s : Sign) : (Float.ofModel (.pack (.infinity s))).toModel.unpack = .infinity s := by
    cases s <;> rfl
  obtain ⟨s, em, t, -, rfl⟩ := h
  refine ⟨s, ?_⟩
  unfold roundedFloat at hx ⊢
  split_ifs at hx ⊢ with hzero hbelow
  · rw [isFinite_pack_zero] at hx
    cases hx
  · have hgreat : ¬ t ≤ 971 := fun ht => by
      rw [isFinite_pack_finite s _ ht] at hx
      cases hx
    rw [pack_finite_of_overflow s _ (not_le.1 hgreat), hunpack]
  · have hgreat : ¬ t + 1 ≤ 971 := fun ht => by
      rw [isFinite_pack_finite s _ ht] at hx
      cases hx
    rw [pack_finite_of_overflow s _ (not_le.1 hgreat), hunpack]

private theorem abs_exactValue_lt (hx : x.isFinite = true) : |exactValue x| < overflowBound := by
  rcases zero_or_canonical hx with ⟨s, hu⟩ | ⟨s, b, hb, hu⟩ <;> rw [exactValue, hu]
  · rw [unpackedValue, abs_zero]
    exact overflowBound_pos
  · rw [abs_unpackedValue]
    exact (rounded_canonical s hb).isFinite_iff.1 (isFinite_pack_finite s hb.pos hb.le_greatest)

/-- A quotient by a count is no greater than the number itself, also where the count is too great
for a finite number. -/
theorem exists_rounded_div_ofNat (hx : x.isFinite = true) {n : Nat} (hn : 0 < n) :
    ∃ r, Rounded (x / Float.ofNat n) r ∧ r ≤ |exactValue x| := by
  have hcount := rounded_ofNat hn
  cases hfinite : (Float.ofNat n).isFinite with
  | true =>
    have hone : (2 : ℚ) ^ (0 : Int) ≤ |exactValue (Float.ofNat n)| := by
      apply hcount.le_abs hfinite (by decide)
      rw [zpow_zero]
      exact_mod_cast hn
    rw [zpow_zero] at hone
    have hne : exactValue (Float.ofNat n) ≠ 0 := abs_pos.1 (one_pos.trans_le hone)
    refine ⟨_, rounded_div hx hfinite hne, ?_⟩
    rw [abs_div]
    exact div_le_self (abs_nonneg _) hone
  | false =>
    obtain ⟨s, hs⟩ := hcount.exists_infinity hfinite
    refine ⟨0, ?_, abs_nonneg _⟩
    change Rounded (Float.ofModel (.pack (UnpackedFloat.div _ x.toModel.unpack
      (Float.ofNat n).toModel.unpack))) 0
    rw [hs]
    rcases zero_or_canonical hx with ⟨t, hu⟩ | ⟨t, b, hb, hu⟩ <;> rw [hu]
    · exact rounded_zero (t / s)
    · exact rounded_zero (t / s)

theorem isFinite_div_ofNat (hx : x.isFinite = true) {n : Nat} (hn : 0 < n) :
    (x / Float.ofNat n).isFinite = true := by
  obtain ⟨r, hr, hle⟩ := exists_rounded_div_ofNat hx hn
  exact hr.isFinite_iff.2 (hle.trans_lt (abs_exactValue_lt hx))

theorem Within.div_ofNat (hx : Within x k) {n : Nat} (hn : 0 < n) (hleast : -1074 ≤ k)
    (hgreatest : k ≤ 1023) : Within (x / Float.ofNat n) k := by
  obtain ⟨r, hr, hle⟩ := exists_rounded_div_ofNat hx.finite hn
  exact hr.within hleast hgreatest
    ((hle.trans hx.le).trans_lt (lt_add_of_pos_right _ (zpow_pos two_pos _)))

theorem le_abs_of_not_negligible (hx : x.isFinite = true) (h : Scalar.isNegligible x = false) :
    2 ^ (-52 : Int) ≤ |exactValue x| := by
  by_contra hsmall
  rw [not_le] at hsmall
  have hnot : ¬ x.abs ≤ epsilon := of_decide_eq_false h
  apply hnot
  have hepsilon : epsilon.toModel.unpack = .finite .positive (2 ^ 52) (-104) (by decide) := rfl
  rw [le_iff_compare_isLE, hepsilon]
  change (UnpackedFloat.compare (Float.Model.pack x.toModel.unpack.abs).unpack _).any _ = true
  rw [exactValue] at hsmall
  rcases zero_or_canonical hx with ⟨s, hu⟩ | ⟨s, b, hb, hu⟩ <;> rw [hu] at hsmall ⊢
  · have hunpack : (Float.Model.pack (.zero .positive)).unpack = .zero .positive := rfl
    rw [UnpackedFloat.abs, hunpack]
    rfl
  · have hunpack : (Float.Model.pack (.finite .positive b.significand b.exponent hb.pos)).unpack =
        .finite .positive b.significand b.exponent hb.pos := unpack_toFloat hb .positive
    rw [UnpackedFloat.abs, hunpack]
    rw [abs_unpackedValue] at hsmall
    have hbound : (2 : ℚ) ^ (-52 : Int) = 2 ^ 52 * 2 ^ (-104 : Int) := by norm_num
    rw [hbound] at hsmall
    change ((compare b.exponent (-104)).then (compare b.significand (2 ^ 52))).isLE = true
    rcases lt_trichotomy b.exponent (-104) with hlt | heq | hgt
    · rw [compare_lt_iff_lt.2 hlt]
      rfl
    · rw [heq] at hsmall ⊢
      have hlt : (b.significand : ℚ) < ((2 ^ 52 : Nat) : ℚ) := by
        push_cast
        exact lt_of_mul_lt_mul_right hsmall (zpow_nonneg two_pos.le _)
      rw [compare_eq_iff_eq.2 rfl, compare_lt_iff_lt.2 (Nat.cast_lt.1 hlt)]
      rfl
    · have hfull : (2 : ℚ) ^ 52 ≤ b.significand := by exact_mod_cast hb.full (by omega)
      have hstep : (2 : ℚ) ^ (-104 : Int) ≤ 2 ^ b.exponent :=
        zpow_le_zpow_right₀ one_le_two hgt.le
      have hge : (2 : ℚ) ^ 52 * 2 ^ (-104 : Int) ≤ b.significand * 2 ^ b.exponent :=
        mul_le_mul hfull hstep (zpow_nonneg two_pos.le _) (Nat.cast_nonneg _)
      exact absurd hsmall (not_lt.2 hge)

end LagForecast
