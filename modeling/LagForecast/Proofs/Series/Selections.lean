import LagForecast.Series.Selection

/-!
# Filters from what is written for each dimension

Filters can be put together from selections exactly when every dimension is named and has a value,
and no value is blank.  On each dimension they select the values that are written for it, in order
and each once, so the filters are lost neither in their own selections nor in any other way of
writing the same values.
-/

set_option autoImplicit false

namespace LagForecast

open Text (Blank)

structure Selection.Proper (dimension : String) (s : Selection) : Prop where
  named : ¬ Blank dimension
  nonempty : s.values ≠ []
  values_named : ∀ v ∈ s.values, ¬ Blank v

namespace Filters

theorem ext_get? {f g : Filters} (h : ∀ d, f.get? d = g.get? d) : f = g := by
  obtain ⟨m, hm⟩ := f
  obtain ⟨m', hm'⟩ := g
  obtain rfl : m = m' := OrderedMap.ext_find? h
  rfl

private theorem get?_empty (d : String) : empty.get? d = none := rfl

theorem select_of_named (f : Filters) {d v : String} (hd : ¬ Blank d) (hv : ¬ Blank v) :
    ∃ g, f.select d v = .ok g ∧
      ∀ e, g.get? e = if e = d then some (((f.get? d).getD .empty).insert v) else f.get? e := by
  refine ⟨_, by rw [select, dif_neg hd, dif_neg hv], fun e => ?_⟩
  simp only [get?, OrderedMap.find?_adjust, Std.LawfulEqOrd.compare_eq_iff_eq]

private theorem named_of_select {f g : Filters} {d v : String} (h : f.select d v = .ok g) :
    ¬ Blank d ∧ ¬ Blank v := by
  rw [select] at h
  by_cases hd : Blank d
  · rw [dif_pos hd] at h
    cases h
  · by_cases hv : Blank v
    · rw [dif_neg hd, dif_pos hv] at h
      cases h
    · exact ⟨hd, hv⟩

private theorem foldlM_select_of_named (f : Filters) {d : String} (hd : ¬ Blank d)
    {vs : List String} (hvs : ∀ v ∈ vs, ¬ Blank v) (hne : vs ≠ []) :
    ∃ g, vs.foldlM (fun f v => f.select d v) f = .ok g ∧
      ∀ e, g.get? e =
        if e = d then some (vs.foldl OrderedSet.insert ((f.get? d).getD .empty)) else f.get? e := by
  induction vs generalizing f with
  | nil => exact absurd rfl hne
  | cons v vs ih =>
    obtain ⟨g, hg, hget⟩ := select_of_named f hd (hvs v List.mem_cons_self)
    rw [List.foldlM_cons, hg]
    change ∃ g', vs.foldlM (fun f v => f.select d v) g = .ok g' ∧ _
    cases vs with
    | nil => exact ⟨g, rfl, hget⟩
    | cons w vs =>
      obtain ⟨g', hg', hget'⟩ := ih g (fun x hx => hvs x (List.mem_cons_of_mem v hx)) nofun
      refine ⟨g', hg', fun e => ?_⟩
      rw [hget', hget d, if_pos rfl, hget e]
      by_cases he : e = d
      · rw [if_pos he, if_pos he]
        rfl
      · rw [if_neg he, if_neg he, if_neg he]

private theorem named_of_foldlM_select {f g : Filters} {d : String} {vs : List String}
    (h : vs.foldlM (fun f v => f.select d v) f = .ok g) (hne : vs ≠ []) :
    ¬ Blank d ∧ ∀ v ∈ vs, ¬ Blank v := by
  induction vs generalizing f with
  | nil => exact absurd rfl hne
  | cons v vs ih =>
    rw [List.foldlM_cons] at h
    cases hs : f.select d v with
    | error e =>
      rw [hs] at h
      cases h
    | ok f' =>
      rw [hs] at h
      obtain ⟨hd, hv⟩ := named_of_select hs
      refine ⟨hd, fun w hw => ?_⟩
      rcases List.mem_cons.1 hw with rfl | hw
      · exact hv
      · exact (ih h (List.ne_nil_of_mem hw)).2 w hw

theorem selectAll_eq_foldlM (f : Filters) (d : String) {s : Selection} (h : s.values ≠ []) :
    f.selectAll d s = s.values.foldlM (fun f v => f.select d v) f := by
  rw [selectAll]
  split
  next hnil => exact absurd hnil h
  next => rfl

private theorem selectAll_of_proper {f : Filters} {d : String} {s : Selection} (h : s.Proper d)
    (hnew : f.get? d = none) :
    ∃ g, f.selectAll d s = .ok g ∧
      ∀ e, g.get? e = if e = d then some (OrderedSet.ofList s.values) else f.get? e := by
  obtain ⟨g, hg, hget⟩ := foldlM_select_of_named f h.named h.values_named h.nonempty
  rw [hnew] at hget
  exact ⟨g, (f.selectAll_eq_foldlM d h.nonempty).trans hg, hget⟩

private theorem proper_of_selectAll {f g : Filters} {d : String} {s : Selection}
    (h : f.selectAll d s = .ok g) : s.Proper d := by
  have hne : s.values ≠ [] := by
    intro hnil
    rw [selectAll, hnil] at h
    cases h
  rw [f.selectAll_eq_foldlM d hne] at h
  obtain ⟨hd, hvs⟩ := named_of_foldlM_select h hne
  exact ⟨hd, hne, hvs⟩

/-- The invariant of the fold: a dimension that is still to come has no values yet. -/
theorem foldlM_selectAll_of_proper (f : Filters) {l : List (String × Selection)}
    (hl : l.Pairwise fun a b => compare a.1 b.1 = .lt) (h : ∀ p ∈ l, p.2.Proper p.1)
    (hnew : ∀ p ∈ l, f.get? p.1 = none) :
    ∃ g, l.foldlM (fun f p => f.selectAll p.1 p.2) f = .ok g ∧
      ∀ d, g.get? d =
        ((OrderedMap.findIn d l).map fun s => OrderedSet.ofList s.values).or (f.get? d) := by
  induction l generalizing f with
  | nil => exact ⟨f, rfl, fun d => rfl⟩
  | cons p l ih =>
    have hp := List.pairwise_cons.1 hl
    obtain ⟨g, hg, hget⟩ := selectAll_of_proper (h p List.mem_cons_self)
      (hnew p List.mem_cons_self)
    have hlater : ∀ q ∈ l, g.get? q.1 = none := by
      intro q hq
      have hne : q.1 ≠ p.1 := by
        intro heq
        have hlt := hp.1 q hq
        rw [heq, Std.ReflOrd.compare_self] at hlt
        cases hlt
      rw [hget, if_neg hne]
      exact hnew q (List.mem_cons_of_mem p hq)
    obtain ⟨g', hg', hget'⟩ := ih g hp.2 (fun q hq => h q (List.mem_cons_of_mem p hq)) hlater
    rw [List.foldlM_cons, hg]
    refine ⟨g', hg', fun d => ?_⟩
    rw [hget', hget, OrderedMap.findIn]
    simp only [Std.LawfulEqOrd.compare_eq_iff_eq]
    by_cases hd : d = p.1
    · have hnone : OrderedMap.findIn d l = none :=
        OrderedMap.findIn_eq_none_of_lt fun q hq => hd ▸ hp.1 q hq
      rw [if_pos hd, if_pos hd, hnone]
      rfl
    · rw [if_neg hd, if_neg hd]

private theorem proper_of_foldlM_selectAll {f g : Filters} {l : List (String × Selection)}
    (h : l.foldlM (fun f p => f.selectAll p.1 p.2) f = .ok g) : ∀ p ∈ l, p.2.Proper p.1 := by
  induction l generalizing f with
  | nil => simp
  | cons p l ih =>
    rw [List.foldlM_cons] at h
    cases hs : f.selectAll p.1 p.2 with
    | error e =>
      rw [hs] at h
      cases h
    | ok f' =>
      rw [hs] at h
      intro q hq
      rcases List.mem_cons.1 hq with rfl | hq
      · exact proper_of_selectAll hs
      · exact ih h q hq

/-- When filters can be put together from selections, and what they select. -/
theorem ofSelections_eq_ok_iff {m : OrderedMap String Selection} {f : Filters} :
    ofSelections m = .ok f ↔ (∀ p ∈ m.entries, p.2.Proper p.1) ∧
      ∀ d, f.get? d = (m.find? d).map fun s => OrderedSet.ofList s.values := by
  constructor
  · intro h
    have hproper := proper_of_foldlM_selectAll h
    obtain ⟨g, hg, hget⟩ := foldlM_selectAll_of_proper empty m.increasing hproper fun _ _ => rfl
    obtain rfl : g = f := Except.ok.inj (hg.symm.trans h)
    refine ⟨hproper, fun d => ?_⟩
    rw [hget, get?_empty, Option.or_none]
    rfl
  · rintro ⟨hproper, hf⟩
    obtain ⟨g, hg, hget⟩ := foldlM_selectAll_of_proper empty m.increasing hproper fun _ _ => rfl
    have hgf : g = f := by
      apply ext_get?
      intro d
      rw [hget, hf, get?_empty, Option.or_none]
      rfl
    exact hgf ▸ hg

private theorem values_selectionOf (vs : List String) : (selectionOf vs).values = vs := by
  match vs with
  | [] => rfl
  | [v] => rfl
  | v :: w :: vs => rfl

theorem selections_eq (f : Filters) :
    f.selections = f.selected.entries.map fun p => (p.1, selectionOf p.2.items) := by
  rw [selections, listing, List.map_map]
  rfl

theorem increasing_selections (f : Filters) :
    f.selections.Pairwise fun a b => compare a.1 b.1 = .lt := by
  rw [selections_eq, List.pairwise_map]
  exact f.selected.increasing

private theorem findIn_selections (f : Filters) (d : String) :
    OrderedMap.findIn d f.selections = (f.get? d).map fun s => selectionOf s.items := by
  have hmap : ∀ l : List (String × OrderedSet String),
      OrderedMap.findIn d (l.map fun p => (p.1, selectionOf p.2.items)) =
        (OrderedMap.findIn d l).map fun s => selectionOf s.items := by
    intro l
    induction l with
    | nil => rfl
    | cons p l ih =>
      obtain ⟨k, s⟩ := p
      rw [List.map_cons, OrderedMap.findIn, OrderedMap.findIn, ih]
      split <;> rfl
  rw [selections_eq, hmap]
  rfl

private theorem ofList_items (s : OrderedSet String) : OrderedSet.ofList s.items = s :=
  OrderedSet.ext_mem fun _ => OrderedSet.mem_ofList

theorem ofSelections_selections (f : Filters) :
    ofSelections (OrderedMap.ofList f.selections) = .ok f := by
  have hmap : OrderedMap.ofList f.selections = ⟨f.selections, f.increasing_selections⟩ :=
    OrderedMap.ofList_entries ⟨f.selections, f.increasing_selections⟩
  rw [hmap, ofSelections_eq_ok_iff]
  constructor
  · intro p hp
    have hmem : p ∈ f.selections := hp
    rw [selections_eq] at hmem
    obtain ⟨q, hq, rfl⟩ := List.mem_map.1 hmem
    obtain ⟨hd, hne, hvs⟩ := f.named q hq
    refine ⟨hd, ?_, ?_⟩
    · rw [values_selectionOf]
      exact hne
    · rw [values_selectionOf]
      exact hvs
  · intro d
    rw [OrderedMap.find?, findIn_selections, Option.map_map]
    cases hget : f.get? d with
    | none => rfl
    | some s =>
      rw [Option.map_some, Function.comp_apply, values_selectionOf, ofList_items]

end Filters

end LagForecast
