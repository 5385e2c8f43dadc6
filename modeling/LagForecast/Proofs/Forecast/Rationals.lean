import LagForecast.Proofs.Forecast.Projection
import Mathlib.Algebra.BigOperators.Group.List.Lemmas
import Mathlib.Algebra.Order.BigOperators.Group.List
import Mathlib.Algebra.Order.Field.Rat

/-!
# Lag models on rational numbers

The same model on numbers that are exact: `project_eq_projectFrom` and `movingAverage_eq_ok` say
that on binary numbers it is the one that runs, in memory.  Rescaled weights then keep the sum of
all weights, whichever way they are rescaled, so the first prediction of a moving average is the
mean of what was observed, and weights whose sum is one continue a constant history as it is, while
the window grows and takes other weights at every step.
-/

set_option autoImplicit false

namespace LagForecast

/-- Rational numbers are all finite.  What is negligible is what is among binary numbers. -/
instance : Scalar ℚ where
  zero := 0
  ofCount n := n
  isFinite _ := true
  isNegligible x := decide (|x| ≤ 1 / 2 ^ 52)
  below x y := decide (x < y)

namespace LagModel

section Arithmetic

variable {α : Type} [Scalar α]

def extent (first : α) (rest : List α) : α × α :=
  (rest.foldl (fun a b => if Scalar.below a b then a else b) first,
    rest.foldl (fun a b => if Scalar.below b a then a else b) first)

def projectFrom (m : LagModel α) (first : α) (rest : List α) (n : Nat) :
    Except Nat (Projection α) :=
  m.projectValues (extent first rest) (first :: rest) n

/-- What is predicted from a history is predicted from its values, once there is memory for it. -/
theorem project_eq_projectFrom (m : LagModel Float) {h : History} {first : Float}
    {rest : List Float} (hvalues : h.values = first :: rest) (horizon : Horizon) :
    m.project h horizon = Attempt.reserve horizon.steps >>= fun _ =>
      .ofExcept ((m.projectFrom first rest horizon.steps).mapError fun step =>
        .numerical (.nonFinite step)) := by
  have hless : (fun a b : Float => if Scalar.below a b then a else b) = History.lesser := by
    funext a b
    simp only [Scalar.below, decide_eq_true_eq, History.lesser]
  have hgreater : (fun a b : Float => if Scalar.below b a then a else b) = History.greater := by
    funext a b
    simp only [Scalar.below, decide_eq_true_eq, History.greater]
  rw [project, projectFrom, extent, hless, hgreater, ← h.range_eq hvalues, hvalues]

end Arithmetic

end LagModel

section Weights

variable {weights : List ℚ} {n : Nat}

private theorem sum_eq_sum (l : List ℚ) : Scalar.sum l = l.sum := List.sum_eq_foldl.symm

/-- Weights that are split evenly, rescaled or left as they are have the same sum. -/
theorem sum_partialWeights (weights : List ℚ) (hpos : 0 < n) :
    (partialWeights weights n).sum = weights.sum := by
  unfold partialWeights
  simp only [sum_eq_sum]
  split
  next hfull => rw [hfull, Nat.sub_self, List.drop_zero]
  next hshort =>
    split
    next heven =>
      have hcount : (n : ℚ) ≠ 0 := Nat.cast_ne_zero.2 hpos.ne'
      rw [List.sum_replicate, nsmul_eq_mul]
      exact mul_div_cancel₀ weights.sum hcount
    next hscaled =>
      have htail : (weights.drop (weights.length - n)).sum ≠ 0 := by
        intro hzero
        rw [hzero] at hscaled
        exact hscaled (by decide +kernel)
      rw [List.sum_map_mul_right, List.map_id', mul_div_cancel₀ weights.sum htail]

private theorem sum_windowWeights (weights : List ℚ) (n : Nat) :
    (windowWeights weights n).sum = weights.sum :=
  sum_partialWeights weights (Nat.le_max_left 1 _)

private theorem sum_equalWeights {order : Nat} (hpos : 0 < order) :
    (LagModel.equalWeights order : List ℚ).sum = 1 := by
  have horder : (order : ℚ) ≠ 0 := Nat.cast_ne_zero.2 hpos.ne'
  rw [LagModel.equalWeights, List.sum_replicate, nsmul_eq_mul]
  change (order : ℚ) * ((1 : Nat) / (order : ℚ)) = 1
  rw [Nat.cast_one, mul_one_div_cancel horder]

private theorem windowWeights_equalWeights {order : Nat} (hpos : 0 < n) (hn : n ≤ order) :
    windowWeights (LagModel.equalWeights order) n = List.replicate n (1 / (n : ℚ)) := by
  have hsize : max 1 (min n order) = n := by omega
  -- All weights in the table are the same, whichever way they were found.
  obtain ⟨w, hw⟩ : ∃ w : ℚ, windowWeights (LagModel.equalWeights order) n = List.replicate n w := by
    unfold windowWeights partialWeights LagModel.equalWeights
    simp only [hsize, List.length_replicate, List.drop_replicate, Nat.sub_sub_self hn,
      List.map_replicate]
    split
    · exact ⟨_, rfl⟩
    · split <;> exact ⟨_, rfl⟩
  have hsum := sum_windowWeights (LagModel.equalWeights order) n
  rw [hw, List.sum_replicate, nsmul_eq_mul, sum_equalWeights (hpos.trans_le hn)] at hsum
  rw [hw, eq_one_div_of_mul_eq_one_right hsum]

private theorem predict_replicate (hpos : 0 < n) (hn : n ≤ weights.length) (c : ℚ) :
    predict weights (List.replicate n c) = weights.sum * c := by
  have hwindow : List.replicate n c = (windowWeights weights n).map fun _ => c := by
    rw [List.map_const', length_windowWeights hpos hn]
  have hterms : ((windowWeights weights n).zip (List.replicate n c)).map (fun p => p.1 * p.2) =
      (windowWeights weights n).map fun w => w * c := by
    rw [hwindow, ← List.map_prod_left_eq_zip, List.map_map]
    rfl
  rw [predict, List.length_replicate, hterms, sum_eq_sum, List.sum_map_mul_right, List.map_id',
    sum_windowWeights]

private theorem predict_equalWeights {order : Nat} {window : List ℚ} (hpos : 0 < window.length)
    (hlength : window.length ≤ order) :
    predict (LagModel.equalWeights order) window = window.sum / window.length := by
  have hterms : ((List.replicate window.length (1 / (window.length : ℚ))).zip window).map
      (fun p => p.1 * p.2) = window.map fun v => 1 / (window.length : ℚ) * v := by
    rw [← List.map_const', ← List.map_prod_right_eq_zip, List.map_map]
    rfl
  rw [predict, windowWeights_equalWeights hpos hlength, hterms, sum_eq_sum, List.sum_map_mul_left,
    List.map_id', one_div_mul_eq_div]

end Weights

section Runs

variable {weights : List ℚ} {bounds : Option (ℚ × ℚ)} {c : ℚ} {k : Nat}

private theorem advance_replicate {order : Nat} (hpos : 0 < k) (hk : k ≤ order) (c : ℚ) :
    ∃ j, 0 < j ∧ j ≤ order ∧ advance order (List.replicate k c) c = List.replicate j c := by
  unfold advance
  rw [List.length_replicate]
  split
  next hfull =>
    refine ⟨k, hpos, hk, ?_⟩
    rw [List.drop_replicate, ← List.replicate_succ', Nat.sub_add_cancel hpos]
  next hroom => exact ⟨k + 1, Nat.succ_pos k, by omega, List.replicate_succ'.symm⟩

/-- The invariant of a run over a constant history: the window holds nothing but the constant,
however many of it, for which every table of weights predicts the constant again. -/
theorem exists_windowAfter_replicate (hsum : weights.sum = 1)
    (hwithin : confine bounds c = (c, false)) (hpos : 0 < k) (hk : k ≤ weights.length) (s : Nat) :
    ∃ j, 0 < j ∧ j ≤ weights.length ∧
      windowAfter weights bounds s (List.replicate k c) = List.replicate j c := by
  induction s generalizing k with
  | zero => exact ⟨k, hpos, hk, rfl⟩
  | succ s ih =>
    obtain ⟨j, hj, hjk, hadvance⟩ := advance_replicate hpos hk c
    rw [windowAfter, predict_replicate hpos hk, hsum, one_mul, hwithin, hadvance]
    exact ih hj hjk

private theorem rawPrediction_replicate (hsum : weights.sum = 1)
    (hwithin : confine bounds c = (c, false)) (hpos : 0 < k) (hk : k ≤ weights.length) (s : Nat) :
    rawPrediction weights bounds (List.replicate k c) s = c := by
  obtain ⟨j, hj, hjk, hwindow⟩ := exists_windowAfter_replicate hsum hwithin hpos hk s
  rw [rawPrediction, hwindow, predict_replicate hj hjk, hsum, one_mul]

end Runs

namespace LagModel

section Range

variable {first : ℚ} {rest : List ℚ}

private theorem extent_bounds (first : ℚ) (rest : List ℚ) :
    ∀ v ∈ first :: rest, (extent first rest).1 ≤ v ∧ v ≤ (extent first rest).2 := by
  have hmin : (fun a b : ℚ => if Scalar.below a b then a else b) = min := by
    funext a b
    simp only [Scalar.below, decide_eq_true_eq, min_def_lt]
  have hmax : (fun a b : ℚ => if Scalar.below b a then a else b) = max := by
    funext a b
    simp only [Scalar.below, decide_eq_true_eq, max_comm a b, max_def_lt]
  have hlo := (History.foldl_choice (P := fun _ => True) (R := (· ≤ ·)) (l := rest) (a := first)
    (le_refl ·) (fun _ _ _ => le_trans)
    (fun a b _ _ => ⟨min_choice a b, min_le_left a b, min_le_right a b⟩)
    (fun _ _ => trivial) trivial).2
  have hhi := (History.foldl_choice (P := fun _ => True) (R := (· ≥ ·)) (l := rest) (a := first)
    (le_refl ·) (fun _ _ _ => ge_trans)
    (fun a b _ _ => ⟨max_choice a b, le_max_left a b, le_max_right a b⟩)
    (fun _ _ => trivial) trivial).2
  intro v hv
  rw [extent, hmin, hmax]
  exact ⟨hlo v hv, hhi v hv⟩

private theorem mean_within (first : ℚ) (rest : List ℚ) :
    (extent first rest).1 ≤ (first :: rest).sum / (first :: rest).length ∧
      (first :: rest).sum / (first :: rest).length ≤ (extent first rest).2 := by
  have hcount : 0 < ((first :: rest).length : ℚ) := Nat.cast_pos.2 (Nat.succ_pos rest.length)
  have hlo := (first :: rest).card_nsmul_le_sum _ fun v hv => (extent_bounds first rest v hv).1
  have hhi := (first :: rest).sum_le_card_nsmul _ fun v hv => (extent_bounds first rest v hv).2
  rw [nsmul_eq_mul] at hlo hhi
  rw [le_div_iff₀' hcount, div_le_iff₀' hcount]
  exact ⟨hlo, hhi⟩

private theorem confine_of_within {raw : ℚ} (clamps : Bool)
    (h : (extent first rest).1 ≤ raw ∧ raw ≤ (extent first rest).2) :
    confine (if clamps then some (extent first rest) else none) raw = (raw, false) := by
  cases clamps with
  | false => rfl
  | true =>
    have hlo : Scalar.below raw (extent first rest).1 = false := decide_eq_false h.1.not_gt
    have hhi : Scalar.below (extent first rest).2 raw = false := decide_eq_false h.2.not_gt
    simp [confine, hlo, hhi]

end Range

/-- On rational numbers every run comes to its end. -/
theorem projectFrom_eq (m : LagModel ℚ) (first : ℚ) (rest : List ℚ) (n : Nat) :
    let bounds := if m.clamps then some (extent first rest) else none
    let raw := rawPrediction m.weights bounds ((first :: rest).rtake m.order)
    m.projectFrom first rest n = .ok ⟨(List.range n).map fun s => (confine bounds (raw s)).1,
      min (rest.length + 1) m.order, (List.range n).countP fun s => (confine bounds (raw s)).2⟩ := by
  intro bounds raw
  have hwindow : (first :: rest).drop
      ((first :: rest).length - min (first :: rest).length m.order) =
        (first :: rest).rtake m.order := by
    unfold List.rtake
    congr 1
    omega
  have hrun : predictions m.weights bounds n 1 ((first :: rest).rtake m.order) = .ok _ :=
    predictions_of_finite fun s _ => rfl
  unfold projectFrom projectValues
  dsimp only
  rw [hwindow, hrun]
  rfl

private theorem projectFrom_constant {m : LagModel ℚ} (hsum : m.weights.sum = 1) (c : ℚ)
    (count n : Nat) :
    m.projectFrom c (List.replicate count c) n =
      .ok ⟨List.replicate n c, min (count + 1) m.order, 0⟩ := by
  have hwithin := confine_of_within m.clamps
    (extent_bounds c (List.replicate count c) c List.mem_cons_self)
  have hwindow : (c :: List.replicate count c).rtake m.order =
      List.replicate (min (count + 1) m.order) c := by
    rw [← List.replicate_succ, List.rtake, List.length_replicate, List.drop_replicate]
    congr 1
    omega
  have hraw (s : Nat) := rawPrediction_replicate hsum hwithin
    (lt_min (Nat.succ_pos count) m.one_le_order) (Nat.min_le_right _ _) s
  rw [projectFrom_eq]
  simp only [hwindow, hraw, hwithin, List.length_replicate, List.map_const', List.length_range,
    List.countP_false, Function.const_apply]

private theorem exists_averaging {order : Nat} (hpos : 0 < order) :
    ∃ m : LagModel ℚ, averaging order = .ok m := by
  have hnonempty : (equalWeights order : List ℚ).isEmpty = false := by
    rw [equalWeights, List.isEmpty_eq_false_iff, Ne, List.replicate_eq_nil_iff]
    exact hpos.ne'
  have hfinite : ((equalWeights order : List ℚ).any fun w => !Scalar.isFinite w) = false :=
    List.any_eq_false.2 fun w _ => Bool.false_ne_true
  have htotal : Scalar.isNegligible (Scalar.sum (equalWeights order : List ℚ)) = false := by
    rw [sum_eq_sum, sum_equalWeights hpos]
    decide +kernel
  have haccepted : weightFault (equalWeights order : List ℚ) = none := by
    simp [weightFault, hnonempty, hfinite, htotal]
  refine ⟨⟨equalWeights order, false, haccepted⟩, ?_⟩
  rw [averaging, if_neg hpos.ne', weighted_of_accepted haccepted]
  rfl

private theorem head?_projectFrom_averaging {m : LagModel ℚ} {order : Nat}
    (hm : averaging order = .ok m)
    {first : ℚ} {rest : List ℚ} (hrest : (first :: rest).length ≤ order) (clamps : Bool) (n : Nat) :
    ∃ p, (m.withClamp clamps).projectFrom first rest (n + 1) = .ok p ∧
      p.values.head? = some ((first :: rest).sum / (first :: rest).length) := by
  have hpos : 0 < (first :: rest).length := Nat.succ_pos rest.length
  have hweights := weights_of_averaging hm
  have horder : (m.withClamp clamps).order = order := by
    change m.weights.length = order
    rw [hweights, equalWeights, List.length_replicate]
  have hwindow : (first :: rest).rtake order = first :: rest := by
    rw [List.rtake, Nat.sub_eq_zero_of_le hrest, List.drop_zero]
  have hraw (bounds : Option (ℚ × ℚ)) :
      rawPrediction (m.withClamp clamps).weights bounds (first :: rest) 0 =
        (first :: rest).sum / (first :: rest).length := by
    change predict m.weights (first :: rest) = _
    rw [hweights, predict_equalWeights hpos hrest]
  refine ⟨_, projectFrom_eq _ first rest (n + 1), ?_⟩
  dsimp only
  rw [horder, hwindow, List.range_succ_eq_map, List.map_cons, List.head?_cons, hraw,
    confine_of_within _ (mean_within first rest)]

/-- On rational numbers the weights of every window have the sum of all weights.  So the first
prediction of a moving average from too few values is their mean, and weights whose sum is one
continue a constant history as it is, and stay in its range. -/
theorem windows_keep_sum :
    (∀ (m : LagModel ℚ) (n : Nat), 1 ≤ n → n ≤ m.order →
      (windowWeights m.weights n).length = n ∧
        (windowWeights m.weights n).sum = m.weights.sum) ∧
    (∀ order, 0 < order → ∃ m : LagModel ℚ, averaging order = .ok m ∧
      ∀ first rest, (first :: rest).length ≤ order → ∀ clamps n,
        ∃ p, (m.withClamp clamps).projectFrom first rest (n + 1) = .ok p ∧
          p.values.head? = some ((first :: rest).sum / (first :: rest).length)) ∧
    ∀ m : LagModel ℚ, m.weights.sum = 1 → ∀ c count clamps n,
      (m.withClamp clamps).projectFrom c (List.replicate count c) n =
        .ok ⟨List.replicate n c, min (count + 1) m.order, 0⟩ := by
  refine ⟨fun m n hpos hn => ⟨length_windowWeights hpos hn, sum_windowWeights m.weights n⟩, ?_, ?_⟩
  · intro order hpos
    obtain ⟨m, hm⟩ := exists_averaging hpos
    exact ⟨m, hm, fun first rest => head?_projectFrom_averaging hm⟩
  · intro m hsum c count clamps n
    have hconstant : (m.withClamp clamps).weights.sum = 1 := hsum
    exact projectFrom_constant hconstant c count n

/-- Weights of either sign, whose last one is split evenly and whose last two are rescaled, on a
constant history that is shorter than they are; and the mean of two values where four are wanted. -/
theorem windows_keep_sum_of_mixed_weights :
    let m : LagModel ℚ := ⟨[3, -2, 0], false, by decide +kernel⟩
    windowWeights m.weights 1 = [1] ∧ windowWeights m.weights 2 = [1, 0] ∧
      (windowWeights m.weights 2).sum = m.weights.sum ∧
      (m.withClamp true).projectFrom 7 [7] 3 = .ok ⟨[7, 7, 7], 2, 0⟩ ∧
      ∃ a : LagModel ℚ, averaging 4 = .ok a ∧
        ∃ p, (a.withClamp false).projectFrom 10 [20] 3 = .ok p ∧ p.values.head? = some 15 := by
  intro m
  obtain ⟨hsum, hmean, hconstant⟩ := windows_keep_sum
  obtain ⟨a, ha, hfirst⟩ := hmean 4 (by decide)
  obtain ⟨p, hp, hhead⟩ := hfirst 10 [20] (by decide) false 2
  have hmixed := (hsum m 2 (by decide) (by decide)).2
  have hseven := hconstant m (by decide +kernel) 7 1 true 3
  refine ⟨by decide +kernel, by decide +kernel, hmixed, hseven, a, ha, p, hp, ?_⟩
  rw [hhead]
  decide +kernel

end LagModel

end LagForecast
