import LagForecast.Proofs.Number.Comparison
import LagForecast.Proofs.Number.Whole

/-!
# Where numbers end

The exact difference, product or quotient of two finite numbers is rounded to the nearest number.
The result is finite if and only if the exact one stays below the middle between the greatest number
and the one that would come next.  The significand is shifted to its place bit by bit; what is
shifted out tells whether at least half a step is lost, and nothing else matters at the end of the
numbers.
-/

set_option autoImplicit false

namespace LagForecast

open Float.Model (Format UnpackedFloat totalExponent)
open Float.Model.UnpackedFloat

/-- The middle between the greatest number and the one that would come next. -/
def overflowBound : ℚ := 2 ^ (1024 : Int) - 2 ^ (970 : Int)

/-- The greatest significand is `2 ^ 53 - 1`, and its last digit stands for `2 ^ 971`. -/
theorem overflowBound_eq : overflowBound = (2 ^ 53 - 1 / 2) * 2 ^ (971 : Int) := by
  have hgreatest : (2 : ℚ) ^ (970 + 1 : Int) = 2 ^ (970 : Int) * 2 ^ (1 : Int) :=
    zpow_add₀ two_ne_zero _ _
  have hnext : (2 : ℚ) ^ (970 + 54 : Int) = 2 ^ (970 : Int) * 2 ^ (54 : Int) :=
    zpow_add₀ two_ne_zero _ _
  change (2 : ℚ) ^ (970 + 54 : Int) - 2 ^ (970 : Int) = (2 ^ 53 - 1 / 2) * 2 ^ (970 + 1 : Int)
  rw [hgreatest, hnext]
  generalize (2 : ℚ) ^ (970 : Int) = p
  norm_num
  ring

theorem overflowBound_pos : 0 < overflowBound := by
  rw [overflowBound_eq]
  exact mul_pos (by norm_num) (zpow_pos two_pos _)

def unpackedValue : UnpackedFloat → ℚ
  | .finite s m e _ => (s.apply m : Int) * 2 ^ e
  | .zero _ | .infinity _ | .notANumber => 0

/-- The number that a finite number of 64 bits stands for. -/
def exactValue (x : Float) : ℚ := unpackedValue x.toModel.unpack

/-- A significand is the whole part of a number, and its round bit tells whether the rest is at
least a half. -/
structure Stands (em : ExtendedMantissa) (q : ℚ) : Prop where
  le : (em.mantissa : ℚ) ≤ q
  lt : q < em.mantissa + 1
  half : em.roundBit = true ↔ (em.mantissa : ℚ) + 1 / 2 ≤ q

private theorem Stands.shiftRightOne {em : ExtendedMantissa} {q : ℚ} (h : Stands em q) :
    Stands em.shiftRightOne (q / 2) := by
  obtain ⟨hle, hlt, -⟩ := h
  obtain ⟨m, r, t⟩ := em
  dsimp only at hle hlt
  rcases Nat.even_or_odd' m with ⟨a, rfl | rfl⟩
  · have hdiv : 2 * a / 2 = a := by omega
    have hmod : 2 * a % 2 = 0 := by omega
    push_cast at hle hlt
    constructor <;> simp only [ExtendedMantissa.shiftRightOne, hdiv, hmod]
    · linarith
    · linarith
    · refine iff_of_false (by decide) ?_
      linarith
  · have hdiv : (2 * a + 1) / 2 = a := by omega
    have hmod : (2 * a + 1) % 2 = 1 := by omega
    push_cast at hle hlt
    constructor <;> simp only [ExtendedMantissa.shiftRightOne, hdiv, hmod]
    · linarith
    · linarith
    · refine iff_of_true (by decide) ?_
      linarith

private theorem Stands.shiftRight {em : ExtendedMantissa} {q : ℚ} (h : Stands em q) (k : Nat) :
    Stands (em >>> k) (q / 2 ^ k) := by
  induction k with
  | zero =>
    rw [pow_zero, div_one]
    exact h
  | succ k ih =>
    rw [pow_succ, ← div_div]
    exact ih.shiftRightOne

private theorem mantissa_ofMantissaAndAccuracy (m : Nat) (acc : Accuracy) :
    (ExtendedMantissa.ofMantissaAndAccuracy m acc).mantissa = m := by
  unfold ExtendedMantissa.ofMantissaAndAccuracy
  split <;> rfl

theorem stands_exact (m : Nat) : Stands (.ofMantissaAndAccuracy m .exact) m := by
  constructor <;> simp [ExtendedMantissa.ofMantissaAndAccuracy]

private theorem stands_fraction (m : Nat) {n : Nat} (hn : 0 < n) :
    Stands (.ofMantissaAndAccuracy (m / n) (accuracyOfFraction (m % n) n)) (m / n) := by
  have hn' : (0 : ℚ) < n := by exact_mod_cast hn
  have hsplit : (m : ℚ) = ((m / n : Nat) : ℚ) * n + ((m % n : Nat) : ℚ) := by
    exact_mod_cast (Nat.div_add_mod' m n).symm
  have hrest : ((m % n : Nat) : ℚ) < n := by exact_mod_cast Nat.mod_lt m hn
  have hmantissa :=
    mantissa_ofMantissaAndAccuracy (m / n) (accuracyOfFraction (m % n) n)
  have hround : (ExtendedMantissa.ofMantissaAndAccuracy (m / n)
      (accuracyOfFraction (m % n) n)).roundBit = true ↔ n ≤ 2 * (m % n) := by
    rw [accuracyOfFraction]
    by_cases hzero : m % n = 0
    · rw [if_pos hzero, hzero]
      exact iff_of_false Bool.false_ne_true (by omega)
    · rw [if_neg hzero]
      cases hcompare : compare (2 * (m % n)) n with
      | lt =>
        have hlt := compare_lt_iff_lt.1 hcompare
        exact iff_of_false Bool.false_ne_true (by omega)
      | eq =>
        have heq := compare_eq_iff_eq.1 hcompare
        exact iff_of_true rfl (by omega)
      | gt =>
        have hgt := compare_gt_iff_gt.1 hcompare
        exact iff_of_true rfl (by omega)
  constructor
  · rw [hmantissa, le_div_iff₀ hn']
    have hnonneg : (0 : ℚ) ≤ ((m % n : Nat) : ℚ) := Nat.cast_nonneg _
    linarith
  · rw [hmantissa, div_lt_iff₀ hn']
    linarith
  · have hcast : n ≤ 2 * (m % n) ↔ (n : ℚ) ≤ 2 * ((m % n : Nat) : ℚ) := by norm_cast
    rw [hround, hmantissa, le_div_iff₀ hn', hcast]
    constructor <;> intro h <;> linarith

theorem le_roundedMantissa (em : ExtendedMantissa) : em.mantissa ≤ em.roundedMantissa := by
  obtain ⟨m, r, t⟩ := em
  cases r <;> cases t <;>
    simp only [ExtendedMantissa.roundedMantissa, ExtendedMantissa.accuracy,
      Accuracy.roundToNearestEven] <;> omega

/-- An odd significand is rounded up if and only if half a step is lost. -/
theorem roundedMantissa_of_odd {em : ExtendedMantissa} (hodd : em.mantissa % 2 = 1) :
    em.roundedMantissa = if em.roundBit = true then em.mantissa + 1 else em.mantissa := by
  obtain ⟨m, r, t⟩ := em
  dsimp only at hodd
  cases r <;> cases t <;>
    simp [ExtendedMantissa.roundedMantissa, ExtendedMantissa.accuracy,
      Accuracy.roundToNearestEven, hodd]

private theorem shiftToTargetExponent_of_lt {m : Nat} {e : Int} (hm : m < 2 ^ 53) (he : -1074 ≤ e) :
    shiftToTargetExponent Format.binary64 m e .exact =
      (.ofMantissaAndAccuracy m .exact, e) := by
  have hlog : m.log2 < 53 := by
    by_cases h0 : m = 0
    · rw [h0]
      decide
    · exact (Nat.log2_lt h0).2 hm
  have htarget : Format.binary64.targetExponent (totalExponent m e) ≤ e := by
    change max ((m.log2 : Int) + 1 + e - 53) (-1074) ≤ e
    omega
  have hamount : (Format.binary64.targetExponent (totalExponent m e) - e).toNat = 0 := by omega
  rw [shiftToTargetExponent, shiftToExponent, hamount, Nat.cast_zero, add_zero]
  rfl

private theorem shiftToTargetExponent_carry {e : Int} (he : -1074 ≤ e) :
    shiftToTargetExponent Format.binary64 (2 ^ 53) e .exact =
      (.ofMantissaAndAccuracy (2 ^ 52) .exact, e + 1) := by
  have htarget : Format.binary64.targetExponent (totalExponent (2 ^ 53) e) = e + 1 := by
    rw [totalExponent, Nat.log2_two_pow]
    change max (((53 : Nat) : Int) + 1 + e - 53) (-1074) = e + 1
    omega
  have hamount : (e + 1 - e).toNat = 1 := by omega
  rw [shiftToTargetExponent, htarget, shiftToExponent, hamount]
  rfl

def roundedFloat (s : Sign) (m : Nat) (t : Int) : UnpackedFloat :=
  if h : m = 0 then .zero s
  else if m < 2 ^ 53 then .finite s m t (Nat.pos_of_ne_zero h)
  else .finite s (2 ^ 52) (t + 1) (by decide)

/-- Rounding ends at the exponent that it aims at, or at the next one. -/
theorem roundWithAccuracy_eq (s : Sign) {m : Nat} {e t : Int} {acc : Accuracy}
    {em : ExtendedMantissa}
    (hshift : shiftToTargetExponent Format.binary64 m e acc = (em, t)) (ht : -1074 ≤ t)
    (hle : em.roundedMantissa ≤ 2 ^ 53) :
    roundWithAccuracy Format.binary64 s m e acc = roundedFloat s em.roundedMantissa t := by
  rw [roundWithAccuracy, hshift]
  dsimp only
  by_cases hlt : em.roundedMantissa < 2 ^ 53
  · rw [shiftToTargetExponent_of_lt hlt ht, roundedFloat]
    simp only [if_pos hlt]
    rfl
  · have heq : em.roundedMantissa = 2 ^ 53 := by omega
    rw [heq, shiftToTargetExponent_carry ht]
    rfl

theorem pack_finite_of_overflow (s : Sign) {m : Nat} {e : Int} (hm : 0 < m) (he : 971 < e) :
    Float.ofModel (.pack (.finite s m e hm)) = Float.ofModel (.pack (.infinity s)) := by
  have hbias : (e + (Format.binary64.exponentBias : Int) +
      (Format.binary64.mantissaBitsWithoutImplicit : Int)).toNat = (e + 1075).toNat := by
    change (e + 1023 + 52).toNat = _
    omega
  have hpack : UnpackedFloat.pack Format.binary64 (.finite s m e hm) =
      packedInfinity Format.binary64 s := by
    rw [UnpackedFloat.pack]
    dsimp only
    rw [hbias, if_pos (by change 2048 ≤ _; omega)]
  apply ext_toBits
  apply UInt64.toBitVec_inj.1
  exact hpack

private theorem isFinite_pack_infinity (s : Sign) :
    (Float.ofModel (.pack (.infinity s))).isFinite = false := by
  cases s <;> decide +kernel

theorem isFinite_pack_finite_iff (s : Sign) {m : Nat} {e : Int} (hm : 0 < m) :
    (Float.ofModel (.pack (.finite s m e hm))).isFinite = true ↔ e ≤ 971 := by
  refine ⟨fun hfin => ?_, isFinite_pack_finite s hm⟩
  by_contra he
  rw [pack_finite_of_overflow s hm (by omega), isFinite_pack_infinity] at hfin
  cases hfin

section Round

variable {em : ExtendedMantissa} {t : Int} {p : ℚ}

/-- At the greatest exponent a number is below the bound if and only if its significand is not
rounded up to one digit more. -/
theorem lt_iff_roundedMantissa_lt (hp : Stands em p) (hbelow : em.mantissa < 2 ^ 53) :
    p < 2 ^ 53 - 1 / 2 ↔ em.roundedMantissa < 2 ^ 53 := by
  obtain ⟨-, hlt, hhalf⟩ := hp
  rcases Nat.lt_or_ge em.mantissa (2 ^ 53 - 1) with hsmall | hgreat
  · have hround := roundedMantissa_le em
    have hcast : (em.mantissa : ℚ) + 2 ≤ 2 ^ 53 := by
      have hnat : em.mantissa + 2 ≤ 2 ^ 53 := by omega
      exact_mod_cast hnat
    refine iff_of_true ?_ (by omega)
    linarith
  · have heq : em.mantissa = 2 ^ 53 - 1 := by omega
    have hcast : (em.mantissa : ℚ) = 2 ^ 53 - 1 := by
      rw [heq]
      norm_num
    rw [roundedMantissa_of_odd (by rw [heq]; decide), heq]
    rw [hcast] at hhalf
    have hmiddle : (2 : ℚ) ^ 53 - 1 + 1 / 2 ≤ p ↔ ¬ p < 2 ^ 53 - 1 / 2 := by
      rw [not_lt]
      constructor <;> intro h <;> linarith
    rw [hmiddle] at hhalf
    by_cases hround : em.roundBit = true
    · rw [if_pos hround]
      exact iff_of_false (hhalf.1 hround) (by decide)
    · rw [if_neg hround]
      exact iff_of_true (not_not.1 fun h => hround (hhalf.2 h)) (by decide)

private theorem lt_overflowBound_iff (hp : Stands em p) (hbelow : em.mantissa < 2 ^ 53)
    (hfull : -1074 < t → 2 ^ 52 ≤ em.mantissa) :
    p * 2 ^ t < overflowBound ↔ t ≤ 970 ∨ t = 971 ∧ em.roundedMantissa < 2 ^ 53 := by
  have hpow (e : Int) : (0 : ℚ) < 2 ^ e := zpow_pos two_pos e
  rcases lt_trichotomy t 971 with hlt | rfl | hgt
  · refine iff_of_true ?_ (Or.inl (by omega))
    have hp53 : p < 2 ^ 53 := by
      have hcast : (em.mantissa : ℚ) + 1 ≤ 2 ^ 53 := by exact_mod_cast hbelow
      exact hp.lt.trans_le hcast
    have hstep : (2 : ℚ) ^ t ≤ 2 ^ (970 : Int) := zpow_le_zpow_right₀ one_le_two (by omega)
    have hgreatest : (2 : ℚ) ^ (970 + 1 : Int) = 2 ^ (970 : Int) * 2 ^ (1 : Int) :=
      zpow_add₀ two_ne_zero _ _
    have hhalf : (2 : ℚ) ^ (970 : Int) = 2 ^ (971 : Int) / 2 := by
      rw [show (971 : Int) = 970 + 1 from rfl, hgreatest, zpow_one,
        mul_div_cancel_right₀ _ two_ne_zero]
    calc p * 2 ^ t < 2 ^ 53 * 2 ^ t := by gcongr
      _ ≤ 2 ^ 53 * 2 ^ (970 : Int) := by gcongr
      _ = 2 ^ 52 * 2 ^ (971 : Int) := by rw [hhalf]; ring
      _ < overflowBound := by
        rw [overflowBound_eq]
        have := hpow 971
        gcongr
        norm_num
  · rw [overflowBound_eq, mul_lt_mul_iff_left₀ (hpow 971), lt_iff_roundedMantissa_lt hp hbelow]
    simp
  · refine iff_of_false ?_ (by omega)
    have hp52 : (2 : ℚ) ^ 52 ≤ p := by
      have hcast : (2 : ℚ) ^ 52 ≤ em.mantissa := by exact_mod_cast hfull (by omega)
      exact hcast.trans hp.le
    have hstep : (2 : ℚ) ^ (971 + 1 : Int) ≤ 2 ^ t := zpow_le_zpow_right₀ one_le_two (by omega)
    rw [zpow_add₀ two_ne_zero, zpow_one] at hstep
    rw [not_lt]
    calc overflowBound ≤ 2 ^ 53 * 2 ^ (971 : Int) := by
          rw [overflowBound_eq]
          have := hpow 971
          gcongr
          norm_num
      _ = 2 ^ 52 * (2 ^ (971 : Int) * 2) := by ring
      _ ≤ p * 2 ^ t := by gcongr

private theorem isFinite_rounded_iff (s : Sign) (hfull : -1074 < t → 2 ^ 52 ≤ em.mantissa) :
    (Float.ofModel (.pack (roundedFloat s em.roundedMantissa t))).isFinite = true ↔
      t ≤ 970 ∨ t = 971 ∧ em.roundedMantissa < 2 ^ 53 := by
  have hround := le_roundedMantissa em
  rw [roundedFloat]
  split_ifs with hzero hlt
  · refine iff_of_true (isFinite_pack_zero s) (Or.inl ?_)
    by_contra ht
    have := hfull (by omega)
    omega
  · rw [isFinite_pack_finite_iff]
    omega
  · rw [isFinite_pack_finite_iff]
    omega

/-- A size at its place: with all 53 digits of the significand, unless the exponent is the
least. -/
structure Placed (r : ℚ) (em : ExtendedMantissa) (t : Int) : Prop where
  stands : Stands em (r / 2 ^ t)
  lt : em.mantissa < 2 ^ 53
  least_le : -1074 ≤ t
  full : -1074 < t → 2 ^ 52 ≤ em.mantissa

/-- A number is the one to which a size is rounded, with either sign. -/
def Rounded (x : Float) (r : ℚ) : Prop :=
  ∃ s em t, Placed r em t ∧ x = .ofModel (.pack (roundedFloat s em.roundedMantissa t))

/-- A rounded number is finite if and only if what it stands for is below the bound. -/
theorem Rounded.isFinite_iff {x : Float} {r : ℚ} (h : Rounded x r) :
    x.isFinite = true ↔ r < overflowBound := by
  obtain ⟨s, em, t, hr, rfl⟩ := h
  have hscale : r = r / 2 ^ t * 2 ^ t := (div_mul_cancel₀ r (zpow_ne_zero t two_ne_zero)).symm
  rw [isFinite_rounded_iff s hr.full, hscale, lt_overflowBound_iff hr.stands hr.lt hr.full]

variable {m : Nat} {e : Int} {acc : Accuracy} {q : ℚ}

theorem rounded_of_stands (s : Sign) (hq : Stands (.ofMantissaAndAccuracy m acc) q)
    (he : e ≤ Format.binary64.targetExponent (totalExponent m e)) :
    Rounded (.ofModel (.pack (roundWithAccuracy Format.binary64 s m e acc))) (q * 2 ^ e) := by
  obtain ⟨t, ht⟩ : ∃ t, t = Format.binary64.targetExponent (totalExponent m e) := ⟨_, rfl⟩
  obtain ⟨k, hk⟩ := Int.eq_ofNat_of_zero_le (show 0 ≤ t - e by omega)
  have htarget : t = max ((m.log2 : Int) + 1 + e - 53) (-1074) := ht
  obtain ⟨em, hem⟩ : ∃ em, em = ExtendedMantissa.ofMantissaAndAccuracy m acc >>> k := ⟨_, rfl⟩
  have hshift : shiftToTargetExponent Format.binary64 m e acc = (em, t) := by
    rw [shiftToTargetExponent, shiftToExponent, ← ht, hk, Int.toNat_natCast, hem]
    congr 1
    omega
  have hpow : (0 : ℚ) < 2 ^ k := pow_pos two_pos k
  have hscale : q * 2 ^ e / 2 ^ t = q / 2 ^ k := by
    have hsplit : t = k + e := by omega
    rw [hsplit, zpow_add₀ two_ne_zero, zpow_natCast,
      mul_div_mul_right _ _ (zpow_ne_zero e two_ne_zero)]
  have hstands : Stands em (q / 2 ^ k) := hem ▸ hq.shiftRight k
  have hmq : (m : ℚ) ≤ q ∧ q < m + 1 := by
    rw [← mantissa_ofMantissaAndAccuracy m acc]
    exact ⟨hq.le, hq.lt⟩
  have hbelow : em.mantissa < 2 ^ 53 := by
    have hlog : m + 1 ≤ 2 ^ (53 + k) :=
      Nat.lt_log2_self.trans_le (Nat.pow_le_pow_right (by decide) (by omega))
    have hcast : (m : ℚ) + 1 ≤ 2 ^ 53 * 2 ^ k := by
      rw [← pow_add]
      exact_mod_cast hlog
    have hlt : q / 2 ^ k < 2 ^ 53 := (div_lt_iff₀ hpow).2 (hmq.2.trans_le hcast)
    exact_mod_cast hstands.le.trans_lt hlt
  have hfull : -1074 < t → 2 ^ 52 ≤ em.mantissa := by
    intro hleast
    have hne : m ≠ 0 := by
      rintro rfl
      have hzero : Nat.log2 0 = 0 := by decide
      omega
    have hlog : 2 ^ (52 + k) ≤ m :=
      (Nat.pow_le_pow_right (by decide) (by omega)).trans (Nat.log2_self_le hne)
    have hcast : (2 : ℚ) ^ 52 * 2 ^ k ≤ m := by
      rw [← pow_add]
      exact_mod_cast hlog
    have hle : (2 : ℚ) ^ 52 ≤ q / 2 ^ k := (le_div_iff₀ hpow).2 (hcast.trans hmq.1)
    have hlt : ((2 ^ 52 : Nat) : ℚ) < (em.mantissa + 1 : Nat) := by
      push_cast
      exact hle.trans_lt hstands.lt
    exact Nat.lt_succ_iff.1 (Nat.cast_lt.1 hlt)
  have hround := roundedMantissa_le em
  exact ⟨s, em, t, ⟨hscale ▸ hstands, hbelow, by omega, hfull⟩,
    by rw [roundWithAccuracy_eq s hshift (by omega) (by omega)]⟩

end Round

theorem le_targetExponent {m : Nat} {e : Int} (hm : 2 ^ 52 ≤ m) :
    e ≤ Format.binary64.targetExponent (totalExponent m e) := by
  have hlog : 52 ≤ m.log2 := (Nat.le_log2 (by omega)).2 hm
  change e ≤ max ((m.log2 : Int) + 1 + e - 53) (-1074)
  omega

theorem rounded_zero (s : Sign) : Rounded (.ofModel (.pack (.zero s))) 0 := by
  have hzero : Stands (.ofMantissaAndAccuracy 0 .exact) ((0 : Nat) : ℚ) := stands_exact 0
  have hrounded := rounded_of_stands (e := -1074) s hzero (by decide)
  rw [Nat.cast_zero, zero_mul] at hrounded
  exact hrounded

theorem rounded_canonical (s : Sign) {b : Binary} (hb : b.Canonical) :
    Rounded (.ofModel (.pack (.finite s b.significand b.exponent hb.pos))) b.size := by
  have hrounded := rounded_of_stands s (stands_exact b.significand) (targetExponent_eq hb).ge
  have hexact := roundWithAccuracy_exact hb s 0
  rw [pow_zero, mul_one, Nat.cast_zero, sub_zero] at hexact
  rw [hexact] at hrounded
  exact hrounded

private theorem rounded_round_whole (s : Sign) {m : Nat} (hm : m ≠ 0) (e : Int) :
    Rounded (.ofModel (.pack (UnpackedFloat.round Format.binary64 s m e))) (m * 2 ^ e) := by
  obtain ⟨t, ht⟩ : ∃ t, t = Format.binary64.targetExponent (totalExponent m e) := ⟨_, rfl⟩
  obtain ⟨k, hk⟩ : ∃ k, k = (e - t).toNat := ⟨_, rfl⟩
  have hround : UnpackedFloat.round Format.binary64 s m e =
      roundWithAccuracy Format.binary64 s (m * 2 ^ k) (e - k) .exact := by
    rw [UnpackedFloat.round, ← ht, decreaseExponent, ← hk, Nat.shiftLeft_eq]
  have hscale : (m : ℚ) * 2 ^ e = ((m * 2 ^ k : Nat) : ℚ) * 2 ^ (e - k) := by
    push_cast
    rw [mul_assoc, ← zpow_natCast, ← zpow_add₀ two_ne_zero, add_sub_cancel]
  rw [hround, hscale]
  apply rounded_of_stands s (stands_exact _)
  have htotal : totalExponent (m * 2 ^ k) (e - k) = totalExponent m e := by
    rw [totalExponent, totalExponent, log2_mul_two_pow hm]
    push_cast
    ring
  rw [htotal, ← ht]
  omega

private theorem rounded_normalize (m e : Int) (z : Sign) :
    Rounded (.ofModel (.pack (UnpackedFloat.normalize Format.binary64 m e z)))
      (|(m : ℚ)| * 2 ^ e) := by
  have habs : |(m : ℚ)| = (m.natAbs : ℚ) := by
    rw [← Int.cast_abs, Int.abs_eq_natAbs]
    rfl
  rw [UnpackedFloat.normalize, habs]
  cases hcompare : compare m 0 with
  | lt =>
    have hneg := compare_lt_iff_lt.1 hcompare
    have hnat : (-m).toNat = m.natAbs := by omega
    dsimp only
    rw [hnat]
    exact rounded_round_whole _ (by omega) e
  | eq =>
    have hzero := compare_eq_iff_eq.1 hcompare
    rw [hzero, Int.natAbs_zero, Nat.cast_zero, zero_mul]
    exact rounded_zero z
  | gt =>
    have hpos := compare_gt_iff_gt.1 hcompare
    have hnat : m.toNat = m.natAbs := by omega
    dsimp only
    rw [hnat]
    exact rounded_round_whole _ (by omega) e

theorem zero_or_canonical {x : Float} (hx : x.isFinite = true) :
    (∃ s, x.toModel.unpack = .zero s) ∨ ∃ (s : Sign) (b : Binary) (h : b.Canonical),
      x.toModel.unpack = .finite s b.significand b.exponent h.pos := by
  rcases Nat.eq_zero_or_pos (Binary.ofFloat x).significand with hzero | hpos
  · left
    rw [eq_zero_of_significand hzero]
    split
    · exact ⟨.negative, rfl⟩
    · exact ⟨.positive, rfl⟩
  · exact Or.inr ⟨signOf x, _, canonical_ofFloat hx hpos, unpack_eq hx hpos⟩

theorem abs_unpackedValue (s : Sign) {m : Nat} {e : Int} (hm : 0 < m) :
    |unpackedValue (.finite s m e hm)| = m * 2 ^ e := by
  have hpow : (0 : ℚ) < 2 ^ e := zpow_pos two_pos e
  rw [unpackedValue, abs_mul, abs_of_pos hpow]
  cases s <;> simp [Sign.apply]

private theorem shiftLeft_value (s : Sign) (m : Nat) {e d : Int} (h : e ≤ d) :
    ((s.apply (m <<< (d - e).toNat : Nat) : Int) : ℚ) * 2 ^ e = (s.apply m : Int) * 2 ^ d := by
  obtain ⟨k, hk⟩ := Int.eq_ofNat_of_zero_le (Int.sub_nonneg.2 h)
  have hsplit : d = k + e := by omega
  have hscale : ((m <<< k : Nat) : ℚ) * 2 ^ e = m * 2 ^ d := by
    rw [hsplit, zpow_add₀ two_ne_zero, zpow_natCast, Nat.shiftLeft_eq]
    push_cast
    ring
  rw [hk, Int.toNat_natCast]
  cases s
  · change ((-((m <<< k : Nat) : Int) : Int) : ℚ) * 2 ^ e = ((-(m : Int) : Int) : ℚ) * 2 ^ d
    rw [Int.cast_neg, Int.cast_neg, Int.cast_natCast, Int.cast_natCast, neg_mul, neg_mul, hscale]
  · exact hscale

section Finite

variable {x y : Float}

/-- The difference of finite numbers is the exact one, rounded. -/
theorem rounded_sub (hx : x.isFinite = true) (hy : y.isFinite = true) :
    Rounded (x - y) |exactValue x - exactValue y| := by
  change Rounded (Float.ofModel (.pack
    (UnpackedFloat.sub _ x.toModel.unpack y.toModel.unpack))) _
  unfold exactValue
  rcases zero_or_canonical hx with ⟨s, hu⟩ | ⟨s, b, hb, hu⟩ <;>
    rcases zero_or_canonical hy with ⟨t, hv⟩ | ⟨t, c, hc, hv⟩ <;> rw [hu, hv]
  · have hzero : ∃ r, UnpackedFloat.sub Format.binary64 (.zero s) (.zero t) = .zero r := by
      cases s <;> cases t <;> exact ⟨_, rfl⟩
    obtain ⟨r, hr⟩ := hzero
    rw [hr, unpackedValue, unpackedValue, sub_self, abs_zero]
    exact rounded_zero r
  · rw [show unpackedValue (.zero s) = 0 from rfl, zero_sub, abs_neg, abs_unpackedValue]
    exact rounded_canonical (-t) hc
  · rw [show unpackedValue (.zero t) = 0 from rfl, sub_zero, abs_unpackedValue]
    exact rounded_canonical s hb
  · rw [UnpackedFloat.sub]
    dsimp only [decreaseExponent]
    obtain ⟨e, he⟩ : ∃ e, e = min b.exponent c.exponent := ⟨_, rfl⟩
    rw [← he]
    have hpow : (0 : ℚ) < 2 ^ e := zpow_pos two_pos e
    have hdiff : unpackedValue (.finite s b.significand b.exponent hb.pos) -
        unpackedValue (.finite t c.significand c.exponent hc.pos) =
        ((s.apply (b.significand <<< (b.exponent - e).toNat : Nat) -
          t.apply (c.significand <<< (c.exponent - e).toNat : Nat) : Int) : ℚ) * 2 ^ e := by
      rw [Int.cast_sub, sub_mul, shiftLeft_value s _ (by omega), shiftLeft_value t _ (by omega)]
      rfl
    rw [hdiff, abs_mul, abs_of_pos hpow]
    exact rounded_normalize _ e .positive

private theorem le_targetExponent_product {b c : Binary} (hb : b.Canonical) (hc : c.Canonical) :
    b.exponent + c.exponent ≤ Format.binary64.targetExponent
      (totalExponent (b.significand * c.significand) (b.exponent + c.exponent)) := by
  by_cases hleast : b.exponent = -1074 ∧ c.exponent = -1074
  · have hsum : b.exponent + c.exponent ≤ -1074 := by omega
    exact hsum.trans (le_max_right _ _)
  · apply le_targetExponent
    rcases not_and_or.1 hleast with h | h
    · exact (hb.full h).trans (Nat.le_mul_of_pos_right _ hc.pos)
    · exact (hc.full h).trans (Nat.le_mul_of_pos_left _ hb.pos)

theorem rounded_mul (hx : x.isFinite = true) (hy : y.isFinite = true) :
    Rounded (x * y) |exactValue x * exactValue y| := by
  change Rounded (Float.ofModel (.pack
    (UnpackedFloat.mul _ x.toModel.unpack y.toModel.unpack))) _
  unfold exactValue
  rcases zero_or_canonical hx with ⟨s, hu⟩ | ⟨s, b, hb, hu⟩ <;>
    rcases zero_or_canonical hy with ⟨t, hv⟩ | ⟨t, c, hc, hv⟩ <;> rw [hu, hv]
  · rw [show unpackedValue (.zero s) = 0 from rfl, zero_mul, abs_zero]
    exact rounded_zero (s * t)
  · rw [show unpackedValue (.zero s) = 0 from rfl, zero_mul, abs_zero]
    exact rounded_zero (s * t)
  · rw [show unpackedValue (.zero t) = 0 from rfl, mul_zero, abs_zero]
    exact rounded_zero (s * t)
  · have hproduct : |unpackedValue (.finite s b.significand b.exponent hb.pos) *
        unpackedValue (.finite t c.significand c.exponent hc.pos)| =
        ((b.significand * c.significand : Nat) : ℚ) * 2 ^ (b.exponent + c.exponent) := by
      rw [abs_mul, abs_unpackedValue, abs_unpackedValue, zpow_add₀ two_ne_zero]
      push_cast
      ring
    rw [hproduct]
    exact rounded_of_stands (s * t) (stands_exact _) (le_targetExponent_product hb hc)

/-- A quotient is computed with all the digits that it is rounded to. -/
theorem le_targetExponent_quotient {m₁ m₂ k : Nat} {e₁ e₂ t : Int} (h₁ : 0 < m₁) (h₂ : 0 < m₂)
    (ht : t = min (e₁ - e₂)
      (Format.binary64.targetExponent (totalExponent m₁ e₁ - totalExponent m₂ e₂)))
    (hk : e₁ - e₂ - t = k) :
    t ≤ Format.binary64.targetExponent (totalExponent ((m₁ <<< k) / m₂) t) := by
  replace ht : t = min (e₁ - e₂)
      (max ((m₁.log2 : Int) + 1 + e₁ - (m₂.log2 + 1 + e₂) - 53) (-1074)) := ht
  rcases le_or_gt t (-1074) with hleast | hleast
  · exact hleast.trans (le_max_right _ _)
  · have hdigits : m₂.log2 + 53 ≤ m₁.log2 + k := by omega
    apply le_targetExponent
    rw [Nat.le_div_iff_mul_le h₂, Nat.shiftLeft_eq]
    calc 2 ^ 52 * m₂ ≤ 2 ^ 52 * 2 ^ (m₂.log2 + 1) :=
          Nat.mul_le_mul_left _ Nat.lt_log2_self.le
      _ = 2 ^ (m₂.log2 + 53) := by rw [← pow_add]; congr 1; omega
      _ ≤ 2 ^ (m₁.log2 + k) := Nat.pow_le_pow_right (by decide) hdigits
      _ = 2 ^ m₁.log2 * 2 ^ k := pow_add _ _ _
      _ ≤ m₁ * 2 ^ k := Nat.mul_le_mul_right _ (Nat.log2_self_le h₁.ne')

private theorem rounded_div_finite (s t : Sign) {m₁ m₂ : Nat} {e₁ e₂ : Int} (h₁ : 0 < m₁)
    (h₂ : 0 < m₂) :
    Rounded (.ofModel (.pack (UnpackedFloat.div Format.binary64 (.finite s m₁ e₁ h₁)
      (.finite t m₂ e₂ h₂)))) (m₁ * 2 ^ e₁ / (m₂ * 2 ^ e₂)) := by
  obtain ⟨u, hu⟩ : ∃ u, u = min (e₁ - e₂)
      (Format.binary64.targetExponent (totalExponent m₁ e₁ - totalExponent m₂ e₂)) := ⟨_, rfl⟩
  obtain ⟨k, hk⟩ := Int.eq_ofNat_of_zero_le (show 0 ≤ e₁ - e₂ - u by omega)
  have hscale : (m₁ : ℚ) * 2 ^ e₁ / (m₂ * 2 ^ e₂) = ((m₁ <<< k : Nat) : ℚ) / m₂ * 2 ^ u := by
    have hsplit : e₁ = k + u + e₂ := by omega
    have hpow : (2 : ℚ) ^ e₂ ≠ 0 := zpow_ne_zero e₂ two_ne_zero
    have hm₂ : (m₂ : ℚ) ≠ 0 := Nat.cast_ne_zero.2 h₂.ne'
    rw [hsplit, zpow_add₀ two_ne_zero, zpow_add₀ two_ne_zero, zpow_natCast, Nat.shiftLeft_eq]
    push_cast
    field_simp
  rw [UnpackedFloat.div, divCore]
  dsimp only
  rw [← hu, hk, Int.toNat_natCast, hscale]
  exact rounded_of_stands _ (stands_fraction _ h₂) (le_targetExponent_quotient h₁ h₂ hu hk)

theorem rounded_div (hx : x.isFinite = true) (hy : y.isFinite = true) (hne : exactValue y ≠ 0) :
    Rounded (x / y) |exactValue x / exactValue y| := by
  change Rounded (Float.ofModel (.pack
    (UnpackedFloat.div _ x.toModel.unpack y.toModel.unpack))) _
  unfold exactValue at hne ⊢
  rcases zero_or_canonical hy with ⟨t, hv⟩ | ⟨t, c, hc, hv⟩ <;> rw [hv] at hne ⊢
  · exact absurd rfl hne
  · rcases zero_or_canonical hx with ⟨s, hu⟩ | ⟨s, b, hb, hu⟩ <;> rw [hu]
    · rw [show unpackedValue (.zero s) = 0 from rfl, zero_div, abs_zero]
      exact rounded_zero (s / t)
    · rw [abs_div, abs_unpackedValue, abs_unpackedValue]
      exact rounded_div_finite s t hb.pos hc.pos

theorem isFinite_sub_iff (hx : x.isFinite = true) (hy : y.isFinite = true) :
    (x - y).isFinite = true ↔ |exactValue x - exactValue y| < overflowBound :=
  (rounded_sub hx hy).isFinite_iff

theorem isFinite_mul_iff (hx : x.isFinite = true) (hy : y.isFinite = true) :
    (x * y).isFinite = true ↔ |exactValue x * exactValue y| < overflowBound :=
  (rounded_mul hx hy).isFinite_iff

theorem isFinite_div_iff (hx : x.isFinite = true) (hy : y.isFinite = true)
    (hne : exactValue y ≠ 0) :
    (x / y).isFinite = true ↔ |exactValue x / exactValue y| < overflowBound :=
  (rounded_div hx hy hne).isFinite_iff

end Finite

section NonFinite

variable {x y : Float}

private theorem infinite_or_nan (hx : x.isFinite = false) :
    (∃ s, x.toModel.unpack = .infinity s) ∨ x.toModel.unpack = .notANumber := by
  change x.toModel.unpack.isFinite = false at hx
  cases hu : x.toModel.unpack with
  | infinity s => exact Or.inl ⟨s, rfl⟩
  | notANumber => exact Or.inr rfl
  | zero s | finite s m e hm =>
    rw [hu] at hx
    cases hx

private theorem isFinite_pack_notANumber :
    (Float.ofModel (.pack .notANumber)).isFinite = false := by
  decide +kernel

theorem isFinite_mul_unit {s : Sign} {h : 0 < 2 ^ 52}
    (hy : y.toModel.unpack = .finite s (2 ^ 52) (-52) h) : (x * y).isFinite = x.isFinite := by
  change (Float.ofModel (.pack
    (UnpackedFloat.mul _ x.toModel.unpack y.toModel.unpack))).isFinite = _
  rw [hy]
  cases hx : x.isFinite with
  | true =>
    rcases zero_or_canonical hx with ⟨t, hu⟩ | ⟨t, b, hb, hu⟩ <;> rw [hu]
    · exact isFinite_pack_zero _
    · have hround : UnpackedFloat.mul Format.binary64
          (.finite t b.significand b.exponent hb.pos) (.finite s (2 ^ 52) (-52) h) =
          .finite (t * s) b.significand b.exponent hb.pos :=
        roundWithAccuracy_exact hb (t * s) 52
      rw [hround]
      exact isFinite_pack_finite _ hb.pos hb.le_greatest
  | false =>
    rcases infinite_or_nan hx with ⟨t, hu⟩ | hu <;> rw [hu]
    · exact isFinite_pack_infinity _
    · exact isFinite_pack_notANumber

theorem not_abs_lt_of_nonFinite (hx : x.isFinite = false) (y : Float) : ¬ x.abs < y := by
  have habs : x.abs = .ofModel (.pack x.toModel.unpack.abs) := rfl
  rcases infinite_or_nan hx with ⟨s, hu⟩ | hu <;> rw [habs, hu]
  · have hinf : Float.ofModel (.pack (.infinity .positive)) = 1.0 / 0.0 := rfl
    rw [UnpackedFloat.abs, hinf]
    exact not_infinity_lt y
  · have hnan : (Float.ofModel (.pack .notANumber)).toModel.unpack = .notANumber := rfl
    rw [UnpackedFloat.abs, lt_iff_compare_eq_lt, hnan]
    nofun

theorem isFinite_div_of_nonFinite (hx : x.isFinite = false) (y : Float) :
    (x / y).isFinite = false := by
  change (Float.ofModel (.pack
    (UnpackedFloat.div _ x.toModel.unpack y.toModel.unpack))).isFinite = false
  rcases infinite_or_nan hx with ⟨s, hu⟩ | hu <;> rw [hu]
  · cases y.toModel.unpack with
    | notANumber | infinity t => exact isFinite_pack_notANumber
    | zero t | finite t n f hn => exact isFinite_pack_infinity _
  · exact isFinite_pack_notANumber

private theorem isFinite_mul_of_nonFinite (x : Float) (hy : y.isFinite = false) :
    (x * y).isFinite = false := by
  change (Float.ofModel (.pack
    (UnpackedFloat.mul _ x.toModel.unpack y.toModel.unpack))).isFinite = false
  rcases infinite_or_nan hy with ⟨s, hv⟩ | hv <;> rw [hv]
  · cases x.toModel.unpack with
    | notANumber | zero t => exact isFinite_pack_notANumber
    | infinity t | finite t n f hn => exact isFinite_pack_infinity _
  · cases x.toModel.unpack with
    | notANumber | infinity t | zero t | finite t n f hn => exact isFinite_pack_notANumber

theorem isFinite_of_div (h : (x / y).isFinite = true) : x.isFinite = true := by
  by_contra hx
  rw [isFinite_div_of_nonFinite (Bool.eq_false_of_not_eq_true hx)] at h
  cases h

theorem isFinite_of_mul (h : (x * y).isFinite = true) : y.isFinite = true := by
  by_contra hy
  rw [isFinite_mul_of_nonFinite x (Bool.eq_false_of_not_eq_true hy)] at h
  cases h

end NonFinite

end LagForecast
