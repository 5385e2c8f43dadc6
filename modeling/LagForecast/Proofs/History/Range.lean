import LagForecast.History.Basic
import LagForecast.Proofs.Number.Order

/-!
The observed range of a history.  The fold that finds it starts from the infinities, which the first
observed value replaces; from then on both bounds are observed values, and nothing that was observed
is outside of them.
-/

set_option autoImplicit false

namespace LagForecast

namespace History

private theorem values_finite (h : History) : ∀ v ∈ h.values, v.isFinite = true := by
  intro v hv
  obtain ⟨o, ho, rfl⟩ := List.mem_map.1 hv
  exact h.finite o ho

theorem values_ne_nil (h : History) : h.values ≠ [] := by
  intro hnil
  exact h.nonempty (List.map_eq_nil_iff.1 hnil)

private theorem foldl_pair (l : List Float) (r : Float × Float) :
    l.foldl (fun r v => (lesser r.1 v, greater r.2 v)) r =
      (l.foldl lesser r.1, l.foldl greater r.2) := by
  induction l generalizing r with
  | nil => rfl
  | cons v l ih => exact ih _

/-- The infinities leave no trace. -/
theorem range_eq (h : History) {v : Float} {l : List Float} (hvalues : h.values = v :: l) :
    h.range = (l.foldl lesser v, l.foldl greater v) := by
  have hlo : lesser (1.0 / 0.0) v = v := if_neg (not_infinity_lt v)
  have hhi : greater (-(1.0 / 0.0)) v = v := if_neg (not_lt_minus_infinity v)
  rw [range, hvalues, List.foldl_cons, hlo, hhi, foldl_pair]

/-- A choice between two things, made over and over, ends with one of them that is related to all
if every choice is. -/
theorem foldl_choice {α : Type} {P : α → Prop} {choose : α → α → α} {R : α → α → Prop}
    (hrefl : ∀ a, R a a) (htrans : ∀ a b c, R a b → R b c → R a c)
    (hchoose : ∀ a b, P a → P b →
      (choose a b = a ∨ choose a b = b) ∧ R (choose a b) a ∧ R (choose a b) b)
    {l : List α} (hl : ∀ v ∈ l, P v) {a : α} (ha : P a) :
    l.foldl choose a ∈ a :: l ∧ ∀ v ∈ a :: l, R (l.foldl choose a) v := by
  induction l generalizing a with
  | nil => exact ⟨List.mem_singleton_self a, List.forall_mem_singleton.2 (hrefl a)⟩
  | cons b l ih =>
    have hb := hl b List.mem_cons_self
    obtain ⟨hone, hba, hbb⟩ := hchoose a b ha hb
    have hchosen : P (choose a b) := by
      rcases hone with hone | hone <;> rw [hone] <;> assumption
    obtain ⟨hmem, hbelow⟩ := ih (fun v hv => hl v (List.mem_cons_of_mem b hv)) hchosen
    have hfirst := hbelow _ List.mem_cons_self
    constructor
    · rcases List.mem_cons.1 hmem with heq | hmem
      · rw [List.foldl_cons, heq]
        rcases hone with hone | hone <;> simp [hone]
      · exact List.mem_cons_of_mem a (List.mem_cons_of_mem b hmem)
    · intro v hv
      rcases List.mem_cons.1 hv with rfl | hv
      · exact htrans _ _ _ hfirst hba
      · rcases List.mem_cons.1 hv with rfl | hv
        · exact htrans _ _ _ hfirst hbb
        · exact hbelow v (List.mem_cons_of_mem _ hv)

private theorem lesser_spec {a b : Float} (ha : a.isFinite = true) (hb : b.isFinite = true) :
    (lesser a b = a ∨ lesser a b = b) ∧
      rank (lesser a b) ≤ rank a ∧ rank (lesser a b) ≤ rank b := by
  have hlt := lt_iff_rank_lt (isNaN_of_isFinite ha) (isNaN_of_isFinite hb)
  unfold lesser
  split
  next h => exact ⟨Or.inl rfl, le_rfl, (hlt.1 h).le⟩
  next h => exact ⟨Or.inr rfl, not_lt.1 fun hab => h (hlt.2 hab), le_rfl⟩

private theorem greater_spec {a b : Float} (ha : a.isFinite = true) (hb : b.isFinite = true) :
    (greater a b = a ∨ greater a b = b) ∧
      rank a ≤ rank (greater a b) ∧ rank b ≤ rank (greater a b) := by
  have hlt := lt_iff_rank_lt (isNaN_of_isFinite hb) (isNaN_of_isFinite ha)
  unfold greater
  split
  next h => exact ⟨Or.inl rfl, le_rfl, (hlt.1 h).le⟩
  next h => exact ⟨Or.inr rfl, not_lt.1 fun hba => h (hlt.2 hba), le_rfl⟩

private theorem range_spec (h : History) :
    (h.range.1 ∈ h.values ∧ ∀ v ∈ h.values, rank h.range.1 ≤ rank v) ∧
      h.range.2 ∈ h.values ∧ ∀ v ∈ h.values, rank v ≤ rank h.range.2 := by
  have hfinite := h.values_finite
  cases hvalues : h.values with
  | nil => exact absurd hvalues h.values_ne_nil
  | cons v l =>
    rw [hvalues] at hfinite
    have hv := hfinite v List.mem_cons_self
    have hl := fun w hw => hfinite w (List.mem_cons_of_mem v hw)
    rw [h.range_eq hvalues]
    exact ⟨foldl_choice (R := fun a b => rank a ≤ rank b) (fun _ => le_rfl)
        (fun _ _ _ => le_trans) (fun _ _ => lesser_spec) hl hv,
      foldl_choice (R := fun a b => rank b ≤ rank a) (fun _ => le_rfl)
        (fun _ _ _ hab hbc => hbc.trans hab) (fun _ _ => greater_spec) hl hv⟩

theorem range_mem (h : History) : h.range.1 ∈ h.values ∧ h.range.2 ∈ h.values :=
  ⟨h.range_spec.1.1, h.range_spec.2.1⟩

theorem range_finite (h : History) : h.range.1.isFinite = true ∧ h.range.2.isFinite = true :=
  ⟨h.values_finite _ h.range_mem.1, h.values_finite _ h.range_mem.2⟩

theorem range_bounds (h : History) : ∀ v ∈ h.values, h.range.1 ≤ v ∧ v ≤ h.range.2 := by
  intro v hv
  have hlo := isNaN_of_isFinite h.range_finite.1
  have hhi := isNaN_of_isFinite h.range_finite.2
  have hnumber := isNaN_of_isFinite (h.values_finite v hv)
  exact ⟨(le_iff_rank_le hlo hnumber).2 (h.range_spec.1.2 v hv),
    (le_iff_rank_le hnumber hhi).2 (h.range_spec.2.2 v hv)⟩

theorem range_le (h : History) : h.range.1 ≤ h.range.2 :=
  (h.range_bounds _ h.range_mem.1).2

end History

end LagForecast
