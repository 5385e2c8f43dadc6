import LagForecast.Forecast.Model
import LagForecast.Proofs.Forecast.Projection
import LagForecast.Proofs.Number.Bounds

/-!
# Rescaled weights

The weights for a short window are the last ones, rescaled to the sum of all.  They are finite if
and only if that sum is and no rescaled weight ends beyond the greatest number, which the checks of
a model do not tell.  Weights that are not extremely great never do, nor do those of a mean.
-/

set_option autoImplicit false

namespace LagForecast

open Scalar (sum)

variable {weights : List Float} {n : Nat}

/-- The last `n` weights are rescaled within the finite numbers. -/
structure Rescales (weights : List Float) (n : Nat) : Prop where
  total : (sum weights).isFinite = true
  scale (h : Scalar.isNegligible (sum (weights.rtake n)) = false) :
    (sum weights / sum (weights.rtake n)).isFinite = true
  products (h : Scalar.isNegligible (sum (weights.rtake n)) = false) :
    ∀ w ∈ weights.rtake n,
      |exactValue w * exactValue (sum weights / sum (weights.rtake n))| < overflowBound

private theorem windowWeights_eq (hpos : 0 < n) (hn : n < weights.length) :
    windowWeights weights n =
      if Scalar.isNegligible (sum (weights.rtake n)) then
        List.replicate n (sum weights / Float.ofNat n)
      else (weights.rtake n).map fun w => w * (sum weights / sum (weights.rtake n)) := by
  have hsize : max 1 (min n weights.length) = n := by omega
  rw [windowWeights, hsize, partialWeights]
  dsimp only
  rw [if_neg hn.ne]
  rfl

private theorem windowWeights_length (hpos : 0 < weights.length) :
    windowWeights weights weights.length = weights := by
  have hsize : max 1 (min weights.length weights.length) = weights.length := by omega
  rw [windowWeights, hsize, partialWeights]
  dsimp only
  rw [if_pos rfl, Nat.sub_self, List.drop_zero]

private theorem isFinite_windowWeights_iff (hweights : ∀ w ∈ weights, w.isFinite = true)
    (hpos : 0 < n) (hn : n < weights.length) :
    (∀ w ∈ windowWeights weights n, w.isFinite = true) ↔ Rescales weights n := by
  rw [windowWeights_eq hpos hn]
  cases hnegligible : Scalar.isNegligible (sum (weights.rtake n)) with
  | true =>
    have hquotient : (sum weights / Float.ofNat n).isFinite = true ↔
        (sum weights).isFinite = true :=
      ⟨isFinite_of_div, fun h => isFinite_div_ofNat h hpos⟩
    have hnot : Scalar.isNegligible (sum (weights.rtake n)) ≠ false := by
      rw [hnegligible]
      decide
    rw [if_pos rfl, List.forall_mem_replicate, hquotient]
    constructor
    · intro h
      exact ⟨h.resolve_left hpos.ne', fun h => absurd h hnot, fun h => absurd h hnot⟩
    · exact fun h => Or.inr h.total
  | false =>
    have htail : ∀ w ∈ weights.rtake n, w.isFinite = true := fun w hw =>
      hweights w (List.mem_of_mem_drop hw)
    rw [if_neg Bool.false_ne_true, List.forall_mem_map]
    constructor
    · intro h
      obtain ⟨v, hv⟩ : ∃ v, v ∈ weights.rtake n := by
        apply List.exists_mem_of_length_pos
        rw [length_rtake]
        omega
      have hscale := isFinite_of_mul (h v hv)
      exact ⟨isFinite_of_div hscale, fun _ => hscale, fun _ w hw =>
        (isFinite_mul_iff (htail w hw) hscale).1 (h w hw)⟩
    · intro h w hw
      exact (isFinite_mul_iff (htail w hw) (h.scale hnegligible)).2 (h.products hnegligible w hw)

/-- Weights of at most `2 ^ 458` in size: their sum is at most `2 ^ 512`, the scale `2 ^ 564`, and a
rescaled weight `2 ^ 1022`. -/
theorem isFinite_partialWeights (hweights : ∀ w ∈ weights, Within w 458) (hpos : 0 < n) :
    ∀ w ∈ partialWeights weights n, w.isFinite = true := by
  have htail : ∀ w ∈ weights.drop (weights.length - n), Within w 458 := fun w hw =>
    hweights w (List.mem_of_mem_drop hw)
  have htotal : Within (sum weights) (458 + 54) := within_sum hweights (by decide) (by decide)
  have htailSum := within_sum htail (by decide) (by decide)
  intro w hw
  unfold partialWeights at hw
  dsimp only at hw
  split at hw
  · exact (htail w hw).finite
  · split at hw
    · rw [List.eq_of_mem_replicate hw]
      exact (htotal.div_ofNat hpos (by decide) (by decide)).finite
    · next hnegligible =>
      obtain ⟨v, hv, rfl⟩ := List.mem_map.1 hw
      have hscale := htotal.div htailSum.finite
        (le_abs_of_not_negligible htailSum.finite (Bool.not_eq_true _ ▸ hnegligible))
        (by decide) (by decide)
      exact ((htail v hv).mul hscale (by decide) (by decide)).finite

private theorem within_equalWeights (order : Nat) :
    ∀ w ∈ (LagModel.equalWeights order : List Float), Within w 0 := by
  intro w hw
  obtain ⟨hne, rfl⟩ := List.mem_replicate.1 hw
  have hone : Within (Float.ofNat 1) 0 :=
    (rounded_ofNat one_pos).within (by decide) (by decide) (by norm_num)
  exact hone.div_ofNat (Nat.pos_of_ne_zero hne) (by decide) (by decide)

namespace LagModel

/-- The table for each window of a model has as many weights as the window has values.  That of all
weights is finite, and one of fewer is if and only if they are rescaled within the finite numbers;
so are all tables if no weight is greater than `2 ^ 458` in size, and those of a mean. -/
theorem tables_finite_where_rescaled (m : LagModel Float) :
    (∀ n, 1 ≤ n → n ≤ m.order → (windowWeights m.weights n).length = n) ∧
    windowWeights m.weights m.order = m.weights ∧ (∀ w ∈ m.weights, w.isFinite = true) ∧
    (∀ n, 1 ≤ n → n < m.order →
      ((∀ w ∈ windowWeights m.weights n, w.isFinite = true) ↔ Rescales m.weights n)) ∧
    ((∀ w ∈ m.weights, |exactValue w| ≤ 2 ^ 458) →
      ∀ n, ∀ w ∈ windowWeights m.weights n, w.isFinite = true) ∧
    ∀ order, movingAverage order = .ok m →
      ∀ n, ∀ w ∈ windowWeights m.weights n, w.isFinite = true := by
  have hweights := m.isFinite_of_mem_weights
  have hbounded (h : ∀ w ∈ m.weights, Within w 458) :
      ∀ n, ∀ w ∈ windowWeights m.weights n, w.isFinite = true := fun n =>
    isFinite_partialWeights h (Nat.le_max_left 1 _)
  refine ⟨fun n => length_windowWeights, windowWeights_length m.one_le_order, hweights,
    fun n => isFinite_windowWeights_iff hweights, fun h => ?_, fun order horder => ?_⟩
  · exact hbounded fun w hw => ⟨hweights w hw, by exact_mod_cast h w hw⟩
  · have hequal := weights_of_movingAverage horder
    rw [hequal] at hbounded
    rw [hequal]
    exact hbounded fun w hw => (within_equalWeights order w hw).mono (by decide)

/-- The mean of three values where only two are known. -/
theorem tables_finite_where_rescaled_of_mean_of_three :
    ∃ m, movingAverage 3 = .ok m ∧ (windowWeights m.weights 2).length = 2 ∧
      (∀ w ∈ windowWeights m.weights 2, w.isFinite = true) ∧ Rescales m.weights 2 := by
  have hmodel : ((movingAverage 3).toOption.map order) = some 3 := by decide +kernel
  obtain ⟨m, hm, horder⟩ := Option.map_eq_some_iff.1 hmodel
  have hmean : movingAverage 3 = .ok m := Attempt.toOption_eq_some.1 hm
  obtain ⟨hlength, -, -, hrescales, -, hfinite⟩ := tables_finite_where_rescaled m
  have htable := hfinite 3 hmean 2
  exact ⟨m, hmean, hlength 2 (by decide) (by omega), htable,
    (hrescales 2 (by decide) (by omega)).1 htable⟩

/-- The last weight may be so small that the others are too great to be put on it. -/
theorem not_every_table_finite :
    ¬ ∀ (weights : List Float) (m : LagModel Float), weighted weights = .ok m →
      ∀ n, 1 ≤ n → n ≤ m.order → (windowWeights m.weights n).length = n ∧
        ∀ w ∈ windowWeights m.weights n, w.isFinite = true := by
  intro h
  have hmodel : ((weighted [1e308, 1e-15]).toOption.map order) = some 2 := by decide +kernel
  obtain ⟨m, hm, horder⟩ := Option.map_eq_some_iff.1 hmodel
  have hweighted : weighted [1e308, 1e-15] = .ok m := toOption_eq_some.1 hm
  have hfinite := (h _ m hweighted 1 le_rfl (by omega)).2
  rw [weights_of_weighted hweighted] at hfinite
  have htable : windowWeights [1e308, 1e-15] 1 = [1.0 / 0.0] := by decide +kernel
  have hinfinite := hfinite (1.0 / 0.0) (by rw [htable]; exact List.mem_singleton_self _)
  exact absurd hinfinite (by decide +kernel)

end LagModel

end LagForecast
