import LagForecast.Proofs.Series.Canonical
import LagForecast.Proofs.Series.NormalForm
import LagForecast.Store.Basic

/-!
# Filters from pairs

Pairs of a dimension and a value are selected one after the other, up to the first that is blank on
one side.  An error depends on the order of the pairs.  The filters do not: what they select are the
pairs, and how they keep it is settled by that, so they are the same for every order of the pairs
and for any number of repetitions.
-/

set_option autoImplicit false

namespace LagForecast

namespace Filters

/-- A pair that can be selected: something is left of its dimension and of its value when they are
trimmed. -/
def Named (p : String × String) : Prop := Text.trim p.1 ≠ "" ∧ Text.trim p.2 ≠ ""

instance (p : String × String) : Decidable (Named p) := inferInstanceAs (Decidable (_ ∧ _))

/-- What is wrong with a pair.  The dimension is looked at before the value. -/
inductive PairFault : String × String → KeyError → Prop
  | dimension {d v : String} (hd : Text.trim d = "") : PairFault (d, v) .emptyDimension
  | value {d v : String} (hd : Text.trim d ≠ "") (hv : Text.trim v = "") :
    PairFault (d, v) (.emptyValue d)

private theorem named_or_fault (p : String × String) : Named p ∨ ∃ e, PairFault p e := by
  obtain ⟨d, v⟩ := p
  by_cases hd : Text.trim d = ""
  · exact Or.inr ⟨_, .dimension hd⟩
  · by_cases hv : Text.trim v = ""
    · exact Or.inr ⟨_, .value hd hv⟩
    · exact Or.inl ⟨hd, hv⟩

private theorem select_of_fault (f : Filters) {p : String × String} {e : KeyError}
    (h : PairFault p e) : f.select p.1 p.2 = .error e := by
  cases h with
  | dimension hd => rw [select, dif_pos ((Text.trim_eq_empty_iff _).1 hd)]
  | value hd hv =>
    rw [select, dif_neg (mt (Text.trim_eq_empty_iff _).2 hd),
      dif_pos ((Text.trim_eq_empty_iff _).1 hv)]

private theorem exists_select (f : Filters) {p : String × String} (h : Named p) :
    ∃ g, f.select p.1 p.2 = .ok g ∧ ∀ d v, g.Selects d v ↔ (d, v) = p ∨ f.Selects d v := by
  obtain ⟨d, v⟩ := p
  have hd : ¬ Text.Blank d := mt (Text.trim_eq_empty_iff d).2 h.1
  have hv : ¬ Text.Blank v := mt (Text.trim_eq_empty_iff v).2 h.2
  obtain ⟨g, hg, hget⟩ := f.select_of_named hd hv
  refine ⟨g, hg, fun e w => ?_⟩
  rw [Selects, Selects, hget, Prod.mk.injEq]
  by_cases he : e = d
  · subst he
    rw [if_pos rfl]
    cases hf : f.get? e <;> simp [OrderedSet.empty]
  · rw [if_neg he]
    simp [he]

/-- The pairs before one that is at fault make no difference to the error. -/
theorem foldlM_select_of_fault (f : Filters) {before after : List (String × String)}
    {p : String × String} {e : KeyError} (hbefore : ∀ q ∈ before, Named q) (hp : PairFault p e) :
    (before ++ p :: after).foldlM (fun f p => f.select p.1 p.2) f = .error e := by
  induction before generalizing f with
  | nil =>
    rw [List.nil_append, List.foldlM_cons, f.select_of_fault hp]
    rfl
  | cons q before ih =>
    obtain ⟨g, hg, -⟩ := f.exists_select (hbefore q List.mem_cons_self)
    rw [List.cons_append, List.foldlM_cons, hg]
    exact ih g fun x hx => hbefore x (List.mem_cons_of_mem q hx)

private theorem exists_foldlM_select (f : Filters) {pairs : List (String × String)}
    (h : ∀ p ∈ pairs, Named p) :
    ∃ g, pairs.foldlM (fun f p => f.select p.1 p.2) f = .ok g ∧
      ∀ d v, g.Selects d v ↔ (d, v) ∈ pairs ∨ f.Selects d v := by
  induction pairs generalizing f with
  | nil => exact ⟨f, rfl, by simp⟩
  | cons p pairs ih =>
    obtain ⟨g, hg, hstep⟩ := f.exists_select (h p List.mem_cons_self)
    obtain ⟨g', hg', hrun⟩ := ih g fun q hq => h q (List.mem_cons_of_mem p hq)
    rw [List.foldlM_cons, hg]
    refine ⟨g', hg', fun d v => ?_⟩
    rw [hrun, hstep, List.mem_cons]
    tauto

private theorem all_named_or_first_fault (pairs : List (String × String)) :
    (∀ p ∈ pairs, Named p) ∨ ∃ before p after e, pairs = before ++ p :: after ∧
      (∀ q ∈ before, Named q) ∧ PairFault p e := by
  induction pairs with
  | nil => exact Or.inl nofun
  | cons p pairs ih =>
    rcases named_or_fault p with hp | ⟨e, he⟩
    · rcases ih with hall | ⟨before, q, after, e, rfl, hbefore, he⟩
      · exact Or.inl (List.forall_mem_cons.2 ⟨hp, hall⟩)
      · exact Or.inr ⟨p :: before, q, after, e, rfl, List.forall_mem_cons.2 ⟨hp, hbefore⟩, he⟩
    · exact Or.inr ⟨[], p, pairs, e, rfl, nofun, he⟩

section Pairs

variable {pairs : List (String × String)} {f : Filters}

private theorem selects_of_ofPairs (hf : ofPairs pairs = .ok f) (d v : String) :
    f.Selects d v ↔ (d, v) ∈ pairs := by
  rcases all_named_or_first_fault pairs with hall | ⟨before, p, after, e, rfl, hbefore, he⟩
  · obtain ⟨g, hg, hselects⟩ := exists_foldlM_select empty hall
    obtain rfl : g = f := Except.ok.inj (hg.symm.trans hf)
    rw [hselects]
    exact or_iff_left nofun
  · rw [ofPairs, foldlM_select_of_fault _ hbefore he] at hf
    cases hf

theorem exists_ofPairs_iff : (∃ f, ofPairs pairs = .ok f) ↔ ∀ p ∈ pairs, Named p := by
  constructor
  · rintro ⟨f, hf⟩
    rcases all_named_or_first_fault pairs with hall | ⟨before, p, after, e, rfl, hbefore, he⟩
    · exact hall
    · rw [ofPairs, foldlM_select_of_fault _ hbefore he] at hf
      cases hf
  · intro hall
    obtain ⟨f, hf, -⟩ := exists_foldlM_select empty hall
    exact ⟨f, hf⟩

theorem ofPairs_eq_error_iff {e : KeyError} :
    ofPairs pairs = .error e ↔ ∃ before p after, pairs = before ++ p :: after ∧
      (∀ q ∈ before, Named q) ∧ PairFault p e := by
  constructor
  · intro hf
    rcases all_named_or_first_fault pairs with hall | ⟨before, p, after, e', rfl, hbefore, he⟩
    · obtain ⟨g, hg⟩ := exists_ofPairs_iff.2 hall
      rw [hg] at hf
      cases hf
    · rw [ofPairs, foldlM_select_of_fault _ hbefore he] at hf
      cases hf
      exact ⟨before, p, after, rfl, hbefore, he⟩
  · rintro ⟨before, p, after, rfl, hbefore, he⟩
    exact foldlM_select_of_fault _ hbefore he

/-- Filters that select the pairs of a list, in order: on each dimension that has one there are the
values that are paired with it. -/
structure Collects (pairs : List (String × String)) (f : Filters) : Prop where
  get?_eq_none : ∀ d, f.get? d = none ↔ ∀ v, (d, v) ∉ pairs
  mem_items : ∀ d s, f.get? d = some s → ∀ v, v ∈ s.items ↔ (d, v) ∈ pairs
  dimensions : f.selected.entries.Pairwise fun a b => Text.bytes a.1 < Text.bytes b.1
  nonempty : ∀ p ∈ f.selected.entries, p.2.items ≠ []
  values : ∀ p ∈ f.selected.entries, p.2.items.Pairwise fun a b => Text.bytes a < Text.bytes b

private theorem collects_iff : Collects pairs f ↔ ∀ d v, f.Selects d v ↔ (d, v) ∈ pairs := by
  constructor
  · intro h d v
    cases hs : f.get? d with
    | none =>
      have hnone := (h.get?_eq_none d).1 hs v
      simp [Selects, hs, hnone]
    | some s => simp [Selects, hs, h.mem_items d s hs v]
  · intro h
    refine ⟨fun d => ?_, fun d s hs v => ?_, ?_, ?_, ?_⟩
    · simp only [← h]
      cases hs : f.get? d with
      | none => simp [Selects, hs]
      | some s =>
        obtain ⟨-, hne, -⟩ := f.named (d, s) (OrderedMap.find?_eq_some_iff.1 hs)
        obtain ⟨v, hv⟩ := List.exists_mem_of_ne_nil _ hne
        exact iff_of_false nofun fun hall => hall v ⟨s, hs, hv⟩
    · rw [← h, Selects, hs]
      simp
    · exact f.selected.increasing.imp fun hlt => Text.compare_eq_lt_iff.1 hlt
    · exact fun p hp => (f.named p hp).2.1
    · exact fun p _ => p.2.increasing.imp fun hlt => Text.compare_eq_lt_iff.1 hlt

private theorem Collects.unique {g : Filters} (hf : Collects pairs f) (hg : Collects pairs g) :
    f = g :=
  ext_selects fun d v => (collects_iff.1 hf d v).trans (collects_iff.1 hg d v).symm

private theorem ofPairs_eq_ok_iff :
    ofPairs pairs = .ok f ↔ (∀ p ∈ pairs, Named p) ∧ Collects pairs f := by
  constructor
  · intro hf
    exact ⟨exists_ofPairs_iff.1 ⟨f, hf⟩, collects_iff.2 (selects_of_ofPairs hf)⟩
  · rintro ⟨hall, hcollects⟩
    obtain ⟨g, hg⟩ := exists_ofPairs_iff.2 hall
    rw [hg, (collects_iff.2 (selects_of_ofPairs hg)).unique hcollects]

private theorem mem_iff_of_eq {pairs' : List (String × String)} {f' : Filters}
    (hf : ofPairs pairs = .ok f) (hf' : ofPairs pairs' = .ok f') :
    f = f' ↔ ∀ p, p ∈ pairs ↔ p ∈ pairs' := by
  constructor
  · rintro rfl ⟨d, v⟩
    rw [← selects_of_ofPairs hf, ← selects_of_ofPairs hf']
  · intro hmem
    apply ext_selects
    intro d v
    rw [selects_of_ofPairs hf, selects_of_ofPairs hf', hmem]

private theorem ofPairs_eq_ok_of_mem_iff {pairs' : List (String × String)}
    (hmem : ∀ p, p ∈ pairs ↔ p ∈ pairs') (hf : ofPairs pairs = .ok f) :
    ofPairs pairs' = .ok f := by
  rw [ofPairs_eq_ok_iff, collects_iff] at hf ⊢
  simpa only [hmem] using hf

private theorem compact_inj {f' : Filters} (h : f.toJson.compact = f'.toJson.compact) : f = f' := by
  have hback (f : Filters) : Json.decode ofJson (Text.bytes f.toJson.compact) = .ok f :=
    (Json.decode_compact (printable_filters f)).trans (ofJson_toJson f)
  have hdecoded := hback f
  rw [h, hback f'] at hdecoded
  exact (Except.ok.inj hdecoded).symm

end Pairs

/-- Filters that are the same to whoever names a series by them. -/
structure Interchangeable (f f' : Filters) : Prop where
  equal : f = f'
  canonical : f.canonical = f'.canonical
  printed : f.toJson.compact = f'.toJson.compact
  make : ∀ scope, SeriesKey.make scope f = SeriesKey.make scope f'
  key : ∀ scope k k', SeriesKey.make scope f = .ok k → SeriesKey.make scope f' = .ok k' →
    k.canonical = k'.canonical ∧ k.fingerprint = k'.fingerprint ∧
      k.toJson.compact = k'.toJson.compact
  series : ∀ (store : HistoryStore) (scope : String) (k k' : SeriesKey),
    SeriesKey.make scope f = .ok k → SeriesKey.make scope f' = .ok k' →
      store.observations k = store.observations k'

private theorem Interchangeable.refl (f : Filters) : Interchangeable f f where
  equal := rfl
  canonical := rfl
  printed := rfl
  make _ := rfl
  key scope k k' hk hk' := by
    obtain rfl := Except.ok.inj (hk.symm.trans hk')
    exact ⟨rfl, rfl, rfl⟩
  series store scope k k' hk hk' := by
    obtain rfl := Except.ok.inj (hk.symm.trans hk')
    rfl

/-- Filters are made of a list of pairs if and only if no pair is blank on a side, and else the
first that is settles the error.  They are the one collection of the pairs, so lists make the same
filters if and only if they have the same pairs, and filters of different pairs are told apart by
either text. -/
theorem filters_collect_pairs (pairs : List (String × String)) :
    ((∃ f, ofPairs pairs = .ok f) ↔ ∀ p ∈ pairs, Named p) ∧
      (∀ f, ofPairs pairs = .ok f ↔ (∀ p ∈ pairs, Named p) ∧ Collects pairs f) ∧
      (∀ e, ofPairs pairs = .error e ↔ ∃ before p after, pairs = before ++ p :: after ∧
        (∀ q ∈ before, Named q) ∧ PairFault p e) ∧
      (∀ pairs' f, ofPairs pairs = .ok f → (∀ p, p ∈ pairs ↔ p ∈ pairs') →
        ∃ f', ofPairs pairs' = .ok f' ∧ Interchangeable f f') ∧
      ∀ pairs' f f', ofPairs pairs = .ok f → ofPairs pairs' = .ok f' →
        List.TFAE [∀ p, p ∈ pairs ↔ p ∈ pairs', f = f', f.canonical = f'.canonical,
          f.toJson.compact = f'.toJson.compact] := by
  refine ⟨exists_ofPairs_iff, fun f => ofPairs_eq_ok_iff, fun e => ofPairs_eq_error_iff,
    fun pairs' f hf hmem => ⟨f, ofPairs_eq_ok_of_mem_iff hmem hf, .refl f⟩,
    fun pairs' f f' hf hf' => ?_⟩
  tfae_have 1 ↔ 2 := (mem_iff_of_eq hf hf').symm
  tfae_have 2 ↔ 3 := ⟨congrArg _, canonical_inj⟩
  tfae_have 2 ↔ 4 := ⟨fun h => h ▸ rfl, compact_inj⟩
  tfae_finish

/-- Three pairs in another order, one of them twice, are the same filters; with blank pairs among
them, the first of those is reported, and of its sides the dimension. -/
theorem filters_collect_pairs_of_two_dimensions :
    let pairs := [("region", "emea"), ("product", "widget"), ("region", "apac")]
    let repeated := [("region", "apac"), ("product", "widget"), ("region", "emea"),
      ("product", "widget")]
    (∃ f, ofPairs pairs = .ok f ∧ ofPairs repeated = .ok f ∧
      f.canonical = "product=widget;region=apac,emea") ∧
    ofPairs (("site", "1") :: ("\u2003", " ") :: ("site", "") :: pairs) =
      .error .emptyDimension := by
  intro pairs repeated
  obtain ⟨hexists, -, -, hsame, -⟩ := filters_collect_pairs pairs
  obtain ⟨f, hf⟩ := hexists.2 (by decide +kernel)
  obtain ⟨f', hf', halike⟩ := hsame repeated f hf (by
    rintro ⟨d, v⟩
    simp only [pairs, repeated, List.mem_cons, List.not_mem_nil, or_false]
    tauto)
  have hcanonical : (ofPairs pairs).toOption.map canonical =
      some "product=widget;region=apac,emea" := by decide +kernel
  rw [hf] at hcanonical
  refine ⟨⟨f, hf, halike.equal ▸ hf', Option.some.inj hcanonical⟩, ?_⟩
  exact ((filters_collect_pairs _).2.2.1 _).2
    ⟨[("site", "1")], ("\u2003", " "), ("site", "") :: pairs, rfl, by decide +kernel,
      .dimension (by decide +kernel)⟩

end Filters

end LagForecast
