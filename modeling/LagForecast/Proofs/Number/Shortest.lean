import LagForecast.Number.Shortest
import LagForecast.Proofs.Json.Numerals
import LagForecast.Proofs.Number.Exact

/-!
# Numbers read back from their numerals

Every finite number has a numeral that may be written in a text and that is read as the same number,
bit by bit.  A numeral of few digits was tried before it was taken, and the numeral with all digits
denotes the number itself, so that reading it needs no rounding.
-/

set_option autoImplicit false

namespace LagForecast

private theorem valueFrom_replicate_zero (start k : Nat) :
    valueFrom start (List.replicate k Digit.zero) = start * 10 ^ k := by
  induction k generalizing start with
  | zero => rw [Nat.pow_zero, Nat.mul_one]; rfl
  | succ k ih =>
    have hstep : valueFrom start (List.replicate (k + 1) Digit.zero) =
        valueFrom (10 * start) (List.replicate k Digit.zero) := rfl
    rw [hstep, ih, Nat.pow_succ]
    ring

private theorem value_append_zeros (ds : List Digit) (k : Nat) :
    value (ds ++ List.replicate k Digit.zero) = value ds * 10 ^ k := by
  rw [value, valueFrom_append, valueFrom_replicate_zero]
  rfl

private theorem value_zeros_append (k : Nat) (ds : List Digit) :
    value (List.replicate k Digit.zero ++ ds) = value ds := by
  rw [value, valueFrom_append, valueFrom_replicate_zero, Nat.zero_mul]
  rfl

namespace Numeral

private theorem stripZeros_spec (k c : Nat) (e : Int) :
    ((stripZeros k c e).1 : ℚ) * 10 ^ (stripZeros k c e).2 = c * 10 ^ e := by
  induction k generalizing c e with
  | zero => rfl
  | succ k ih =>
    rw [stripZeros]
    by_cases h : c % 10 = 0
    · rw [if_pos h, ih, zpow_add_one₀ (by norm_num)]
      have hc : (c : ℚ) = (c / 10 : Nat) * 10 := by
        exact_mod_cast (Nat.div_mul_cancel (Nat.dvd_of_mod_eq_zero h)).symm
      rw [hc]
      ring
    · rw [if_neg h]

private theorem layout_eq_place (negative : Bool) (c : Nat) (e : Int) :
    layout negative c e =
      place negative (stripZeros c.log2 c e).1 (stripZeros c.log2 c e).2 := rfl

private theorem negative_place (negative : Bool) (c : Nat) (e : Int) :
    (place negative c e).negative = negative := by
  simp only [place]
  split
  · split
    · rfl
    · split <;> rfl
  · rfl

private theorem size_toDecimal_place (negative : Bool) (c : Nat) (e : Int) :
    (place negative c e).toDecimal.size = c * 10 ^ e := by
  have hlen : 0 < (digits c).length := List.length_pos_iff.2 (digits_ne_nil c)
  have hten : (10 : ℚ) ≠ 0 := by norm_num
  simp only [place]
  split
  · split
    next he =>
      obtain ⟨k, rfl⟩ := Int.eq_ofNat_of_zero_le he
      have hvalue : value (digits c ++ List.replicate k Digit.zero ++ [Digit.zero]) =
          10 * (c * 10 ^ k) := by
        rw [value_append_singleton, value_append_zeros, value_digits]
        rfl
      simp only [toDecimal, power, Decimal.size, Int.toNat_natCast, hvalue, List.length_singleton]
      rw [zero_sub, zpow_natCast]
      push_cast
      rw [zpow_neg, zpow_one]
      ring
    next he =>
      split
      next hpoint =>
        simp only [toDecimal, power, Decimal.size, List.take_append_drop, value_digits,
          List.length_drop]
        congr 2
        omega
      next hpoint =>
        have hvalue (k : Nat) :
            value ([Digit.zero] ++ (List.replicate k Digit.zero ++ digits c)) = c := by
          rw [← List.append_assoc, ← List.replicate_one, List.replicate_append_replicate,
            value_zeros_append, value_digits]
        simp only [toDecimal, power, Decimal.size, hvalue, List.length_append,
          List.length_replicate]
        congr 2
        omega
  · simp only [toDecimal, Decimal.size, List.take_append_drop, value_digits, List.length_drop]
    congr 2
    by_cases hneg : (digits c).length + e - 1 < 0
    · simp only [power, hneg, decide_true, value_digits]
      omega
    · simp only [power, hneg, decide_false, value_digits]
      omega

private theorem wellFormed_place (negative : Bool) {c : Nat} (hc : c ≠ 0) (e : Int) :
    (place negative c e).WellFormed := by
  obtain ⟨d, ds, hdigits, hd⟩ := digits_head c hc
  have hlead (ds' rest : List Digit) (h : d :: ds' = Digit.zero :: rest) : rest = [] :=
    absurd (List.cons.inj h).1 hd
  simp only [place, hdigits]
  split
  · split
    · exact ⟨List.cons_ne_nil _ _, hlead _, nofun⟩
    · split
      next hpoint =>
        obtain ⟨k, hk⟩ := Nat.exists_eq_add_one.2 (Int.pos_iff_toNat_pos.1 hpoint)
        rw [hk]
        exact ⟨List.cons_ne_nil _ _, hlead _, nofun⟩
      next =>
        refine ⟨List.cons_ne_nil _ _, ?_, nofun⟩
        intro rest h
        exact (List.cons.inj h).2.symm
  · refine ⟨List.cons_ne_nil _ _, hlead _, ?_⟩
    intro power hpower
    rw [← Option.some.inj hpower]
    exact digits_ne_nil _

private theorem size_toDecimal_layout (negative : Bool) (c : Nat) (e : Int) :
    (layout negative c e).toDecimal.size = c * 10 ^ e := by
  rw [layout_eq_place, size_toDecimal_place, stripZeros_spec]

private theorem negative_layout (negative : Bool) (c : Nat) (e : Int) :
    (layout negative c e).negative = negative := by
  rw [layout_eq_place, negative_place]

private theorem wellFormed_layout (negative : Bool) {c : Nat} (hc : c ≠ 0) (e : Int) :
    (layout negative c e).WellFormed := by
  rw [layout_eq_place]
  apply wellFormed_place
  intro h
  have hstrip := stripZeros_spec c.log2 c e
  rw [h, Nat.cast_zero, zero_mul, eq_comm, mul_eq_zero] at hstrip
  rcases hstrip with hzero | hzero
  · exact hc (by exact_mod_cast hzero)
  · exact absurd hzero (zpow_ne_zero e (by norm_num))

end Numeral

private theorem significand_zero : (Binary.ofFloat 0.0).significand = 0 := by decide +kernel

private theorem significand_neg_zero : (Binary.ofFloat (-0.0)).significand = 0 := by decide +kernel

theorem eq_zero_of_significand {x : Float} (h : (Binary.ofFloat x).significand = 0) :
    x = if signIsMinus x then -0.0 else 0.0 := by
  have hx : exponentField x = 0 ∧ fractionField x = 0 := by
    by_cases h0 : exponentField x = 0
    · rw [ofFloat_of_subnormal h0] at h
      exact ⟨h0, h⟩
    · rw [ofFloat_of_normal h0] at h
      dsimp only at h
      omega
  have hbits : x.toBits.toNat < 2 ^ 64 := x.toBits.toBitVec.isLt
  obtain ⟨hexp, hfrac⟩ := hx
  rw [exponentField] at hexp
  rw [fractionField] at hfrac
  apply ext_toBits
  apply UInt64.toNat_inj.1
  by_cases hs : signIsMinus x = true
  · have hsign : x.toBits.toNat / 0x8000000000000000 % 2 = 1 := of_decide_eq_true hs
    rw [if_pos hs, show (-0.0 : Float).toBits.toNat = 2 ^ 63 by decide +kernel]
    omega
  · have hsign : ¬ x.toBits.toNat / 0x8000000000000000 % 2 = 1 := fun hone =>
      hs (decide_eq_true hone)
    rw [if_neg hs, show (0.0 : Float).toBits.toNat = 0 by decide +kernel]
    omega

namespace Numeral

private theorem size_exact (negative : Bool) (b : Binary) :
    (exact negative b).toDecimal.size = b.size := by
  have hten : (10 : ℚ) ^ (min b.exponent 0) =
      1 / (2 ^ (-b.exponent).toNat * 5 ^ (-b.exponent).toNat) := by
    rw [zpow_eq_div (by norm_num), show (min b.exponent 0).toNat = 0 by omega,
      show (-min b.exponent 0).toNat = (-b.exponent).toNat by omega, ← mul_pow]
    norm_num
  rw [exact, size_toDecimal_layout, Binary.numerator, Binary.size, hten, zpow_eq_div two_ne_zero]
  change ((b.significand * 2 ^ b.exponent.toNat * 5 ^ (-b.exponent).toNat : Nat) : ℚ) * _ = _
  push_cast
  field_simp

private theorem exists_layout_of_mem_neighbours {negative : Bool} {num den : Nat} {p : Int}
    {n : Numeral} (h : n ∈ neighbours negative num den p) : ∃ c, n = layout negative c p := by
  have pair {a b : Numeral} (hab : n ∈ [a, b]) : n = a ∨ n = b := by simpa using hab
  rw [neighbours] at h
  split at h
  · rcases pair h with rfl | rfl <;> exact ⟨_, rfl⟩
  · rcases pair h with rfl | rfl <;> exact ⟨_, rfl⟩
  · split at h
    · rcases pair h with rfl | rfl <;> exact ⟨_, rfl⟩
    · rcases pair h with rfl | rfl <;> exact ⟨_, rfl⟩

/-- The numeral of a finite number other than a zero: one of the short ones that is read as the
number, or the one with all digits. -/
theorem ofFloat_cases {x : Float} (h : (Binary.ofFloat x).significand ≠ 0) :
    (∃ c p, ofFloat x = layout (signIsMinus x) c p ∧ (ofFloat x).toFloat = x) ∨
      ofFloat x = exact (signIsMinus x) (Binary.ofFloat x) := by
  rw [ofFloat]
  dsimp only
  rw [if_neg h]
  generalize hfind : List.find? _ _ = found
  cases found with
  | none => exact Or.inr rfl
  | some n =>
    have hbits : n.toFloat.toBits = x.toBits := by
      have htest := List.find?_some hfind
      exact eq_of_beq htest
    obtain ⟨i, -, hmem⟩ := List.mem_flatMap.1 (List.mem_of_find?_eq_some hfind)
    obtain ⟨c, hc⟩ := exists_layout_of_mem_neighbours hmem
    exact Or.inl ⟨c, _, hc, ext_toBits hbits⟩

/-- Every finite number is read back from its numeral. -/
theorem toFloat_ofFloat {x : Float} (hfin : x.isFinite = true) : (ofFloat x).toFloat = x := by
  by_cases h : (Binary.ofFloat x).significand = 0
  · have hzero := eq_zero_of_significand h
    rw [ofFloat]
    dsimp only
    rw [if_pos h, toFloat, Decimal.toFloat_of_zero rfl]
    exact hzero.symm
  · rcases ofFloat_cases h with ⟨-, -, -, hx⟩ | hx
    · exact hx
    · have hpos := Nat.pos_of_ne_zero h
      rw [hx, toFloat, Decimal.toFloat_eq (canonical_ofFloat hfin hpos) (size_exact _ _)]
      have hneg : (exact (signIsMinus x) (Binary.ofFloat x)).toDecimal.negative = signIsMinus x :=
        negative_layout _ _ _
      rw [hneg]
      exact LagForecast.toFloat_ofFloat hfin hpos

theorem wellFormed_ofFloat (x : Float) : (ofFloat x).WellFormed := by
  by_cases h : (Binary.ofFloat x).significand = 0
  · rw [ofFloat]
    dsimp only
    rw [if_pos h]
    exact ⟨List.cons_ne_nil _ _, fun ds hds => (List.cons.inj hds).2.symm, nofun⟩
  · rcases ofFloat_cases h with ⟨c, p, hlayout, hx⟩ | hx
    · rw [hlayout]
      apply wellFormed_layout
      rintro rfl
      have hsize := size_toDecimal_layout (signIsMinus x) 0 p
      have hcoefficient : (ofFloat x).toDecimal.coefficient = 0 := by
        rw [Nat.cast_zero, zero_mul, ← hlayout, Decimal.size, mul_eq_zero] at hsize
        rcases hsize with hzero | hzero
        · exact_mod_cast hzero
        · exact absurd hzero (zpow_ne_zero _ (by norm_num))
      rw [toFloat, Decimal.toFloat_of_zero hcoefficient] at hx
      apply h
      rw [← hx]
      split
      · exact significand_neg_zero
      · exact significand_zero
    · rw [hx]
      apply wellFormed_layout
      have htwo : Nat.pow 2 (Binary.ofFloat x).exponent.toNat ≠ 0 := (Nat.two_pow_pos _).ne'
      have hfive : Nat.pow 5 (-(Binary.ofFloat x).exponent).toNat ≠ 0 :=
        (Nat.pow_pos (by decide)).ne'
      exact Nat.mul_ne_zero (Nat.mul_ne_zero h htwo) hfive

end Numeral

end LagForecast
