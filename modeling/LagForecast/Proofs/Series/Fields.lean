import LagForecast.Forecast.Request
import LagForecast.Proofs.Json.Records
import LagForecast.Proofs.Json.Values

/-!
# What is written for a series

Keys, selectors, stored series and requests are records that begin with the same two fields, a scope
and filters.  Each of them takes these two from the same places of a text, whatever other fields it
has.
-/

set_option autoImplicit false

namespace LagForecast

open Json (Field Fits fieldNames requiredNames field? readFields readPositions lastEntry?)

theorem text_inj {s t : String} (h : Json.text s = Json.text t) : s = t := by
  cases h
  rfl

def scopePart : Json → Option Json
  | .object entries => lastEntry? "scoping_id" entries
  | .array items => items[0]?
  | _ => none

def filtersPart : Json → Option Json
  | .object entries => lastEntry? "dimension_filters" entries
  | .array items => items[1]?
  | _ => none

/-- A value that holds a scope and perhaps filters, and nothing else that would be a fault. -/
def NamesSeries : Json → Prop
  | .object entries => Fits ["scoping_id", "dimension_filters"] ["scoping_id"] [] entries
  | .array items => items.length ≤ 2
  | _ => False

/-- A field that takes a scope and one that takes filters, the filters as `dec` reads them, followed
by fields that take other things. -/
structure ReadsSeries {ρ β : Type} (f g : Field KeyError ρ) (more : List (Field KeyError ρ))
    (scope : ρ → String) (part : ρ → β) (dec : Json → Wire β) : Prop where
  scope_name : f.name = "scoping_id"
  scope_required : f.required = true
  filters_name : g.name = "dimension_filters"
  scope_stored : ∀ v r r', f.store v r = .ok r' → v = .text (scope r') ∧ part r' = part r
  filters_stored : ∀ v r r', g.store v r = .ok r' → dec v = .ok (part r') ∧ scope r' = scope r
  stores_scope : ∀ s r, ∃ r', f.store (.text s) r = .ok r'
  stores_filters : ∀ v b, dec v = .ok b → ∀ r, ∃ r', g.store v r = .ok r'
  others : ∀ h ∈ more, ∀ v r r', h.store v r = .ok r' → scope r' = scope r ∧ part r' = part r

namespace ReadsSeries

variable {ρ β : Type} {f g : Field KeyError ρ} {more : List (Field KeyError ρ)} {scope : ρ → String}
  {part : ρ → β} {dec : Json → Wire β} {start r : ρ} {entries : List (Option String × Json)}
  {items : List Json}

private theorem scope_field (h : ReadsSeries f g more scope part dec) :
    field? (f :: g :: more) "scoping_id" = some f := by
  rw [field?, List.find?_cons_of_pos (by simp [h.scope_name])]

private theorem filters_field (h : ReadsSeries f g more scope part dec) :
    field? (f :: g :: more) "dimension_filters" = some g := by
  rw [field?, List.find?_cons_of_neg (by simp [h.scope_name]),
    List.find?_cons_of_pos (by simp [h.filters_name])]

private theorem scope_mem_required (h : ReadsSeries f g more scope part dec) :
    "scoping_id" ∈ requiredNames (f :: g :: more) := by
  rw [← h.scope_name]
  exact List.mem_map_of_mem (List.mem_filter.2 ⟨List.mem_cons_self, h.scope_required⟩)

private theorem scope_kept (h : ReadsSeries f g more scope part dec) :
    ∀ name h', field? (f :: g :: more) name = some h' → name ≠ f.name → ∀ v r r',
      h'.store v r = .ok r' → scope r' = scope r := by
  intro name h' hfield hname v r r' hstore
  obtain ⟨hmem, rfl⟩ := Json.mem_of_field? hfield
  rcases List.mem_cons.1 hmem with rfl | hmem
  · exact absurd rfl hname
  · rcases List.mem_cons.1 hmem with rfl | hmem
    · exact (h.filters_stored v r r' hstore).2
    · exact (h.others h' hmem v r r' hstore).1

private theorem part_kept (h : ReadsSeries f g more scope part dec) :
    ∀ name h', field? (f :: g :: more) name = some h' → name ≠ g.name → ∀ v r r',
      h'.store v r = .ok r' → part r' = part r := by
  intro name h' hfield hname v r r' hstore
  obtain ⟨hmem, rfl⟩ := Json.mem_of_field? hfield
  rcases List.mem_cons.1 hmem with rfl | hmem
  · exact (h.scope_stored v r r' hstore).2
  · rcases List.mem_cons.1 hmem with rfl | hmem
    · exact absurd rfl hname
    · exact (h.others h' hmem v r r' hstore).2

private theorem parts_of_readFields (h : ReadsSeries f g more scope part dec)
    (hr : readFields (f :: g :: more) [] start entries = .ok r) :
    lastEntry? "scoping_id" entries = some (.text (scope r)) ∧
      ( lastEntry? "dimension_filters" entries).elim (.ok (part start)) dec = .ok (part r) := by
  have hscope := h.scope_field
  have hfilters := h.filters_field
  rw [← h.scope_name] at hscope
  rw [← h.filters_name] at hfilters
  have hfits := Json.fits_of_readFields hr
  constructor
  · have hstored : ∀ v r r', f.store v r = .ok r' →
        (Json.toText v : Wire String) = .ok (scope r') := fun v r r' hs =>
      Json.toText_eq_ok.2 (h.scope_stored v r r' hs).1
    rcases Json.stored_of_readFields hscope hstored h.scope_kept List.not_mem_nil hr with
      ⟨hnone, -⟩ | ⟨v, hv, htext⟩
    · obtain ⟨v, hv⟩ := hfits.exists_of_required h.scope_mem_required List.not_mem_nil
      rw [h.scope_name] at hnone
      have hlast := (hfits.lastEntry_eq (Json.mem_fieldNames_of_field? h.scope_field)).2 v hv
      rw [hnone] at hlast
      cases hlast
    · rw [← h.scope_name, hv, Json.toText_eq_ok.1 htext]
  · have hstored : ∀ v r r', g.store v r = .ok r' → dec v = .ok (part r') := fun v r r' hs =>
      (h.filters_stored v r r' hs).1
    rcases Json.stored_of_readFields hfilters hstored h.part_kept List.not_mem_nil hr with
      ⟨hnone, hkept⟩ | ⟨v, hv, hdec⟩
    · rw [← h.filters_name, hnone]
      exact congrArg Except.ok hkept.symm
    · rw [← h.filters_name, hv]
      exact hdec

theorem exists_readFields (h : ReadsSeries f g more scope part dec)
    (hfits : Fits (fieldNames (f :: g :: more)) (requiredNames (f :: g :: more)) [] entries)
    (hknown : ∀ e ∈ entries, ∀ name, e.1 = some name → name ∈ fieldNames (f :: g :: more) →
      name = "scoping_id" ∨ name = "dimension_filters")
    (hscope : ∀ v, lastEntry? "scoping_id" entries = some v → ∃ s, v = .text s)
    (hfilters : ∀ v, lastEntry? "dimension_filters" entries = some v → ∃ b, dec v = .ok b) :
    ∃ r, readFields (f :: g :: more) [] start entries = .ok r := by
  apply Json.exists_readFields hfits
  intro name v h' hmem hfield
  have hname := Json.mem_fieldNames_of_field? hfield
  have hlast := (hfits.lastEntry_eq hname).2 v hmem
  rcases hknown (some name, v) hmem name rfl hname with rfl | rfl
  · obtain rfl : f = h' := Option.some.inj (h.scope_field.symm.trans hfield)
    obtain ⟨s, rfl⟩ := hscope v hlast
    exact h.stores_scope s
  · obtain rfl : g = h' := Option.some.inj (h.filters_field.symm.trans hfield)
    obtain ⟨b, hb⟩ := hfilters v hlast
    exact h.stores_filters v b hb

/-- What comes after the first two positions changes neither the scope nor the filters. -/
theorem kept_of_readPositions {more : List (Field KeyError ρ)}
    (hmore : ∀ h ∈ more, ∀ v r r', h.store v r = .ok r' → scope r' = scope r ∧ part r' = part r)
    {start : ρ} (hr : readPositions more start items = .ok r) :
    scope r = scope start ∧ part r = part start := by
  induction items generalizing more start with
  | nil =>
    rw [readPositions] at hr
    split at hr
    · cases hr
      exact ⟨rfl, rfl⟩
    · cases hr
  | cons v items ih =>
    cases more with
    | nil => cases hr
    | cons h more =>
      rw [readPositions] at hr
      obtain ⟨s, hs, hrest⟩ := bind_eq_ok.1 hr
      obtain ⟨hscope, hpart⟩ := ih (fun h' hmem => hmore h' (List.mem_cons_of_mem h hmem)) hrest
      obtain ⟨hscope', hpart'⟩ := hmore h List.mem_cons_self v start s hs
      exact ⟨hscope.trans hscope', hpart.trans hpart'⟩

private theorem parts_of_readPositions (h : ReadsSeries f g more scope part dec)
    (hr : readPositions (f :: g :: more) start items = .ok r) :
    items[0]? = some (.text (scope r)) ∧
      (items[1]?).elim (.ok (part start)) dec = .ok (part r) := by
  match items with
  | [] =>
    rw [readPositions, List.all_cons, h.scope_required] at hr
    cases hr
  | [a] =>
    rw [readPositions] at hr
    obtain ⟨s, hs, hrest⟩ := bind_eq_ok.1 hr
    obtain ⟨ha, hpart⟩ := h.scope_stored a start s hs
    rw [readPositions] at hrest
    split at hrest
    · cases hrest
      exact ⟨congrArg some ha, congrArg Except.ok hpart.symm⟩
    · cases hrest
  | a :: b :: items =>
    rw [readPositions] at hr
    obtain ⟨s, hs, hrest⟩ := bind_eq_ok.1 hr
    rw [readPositions] at hrest
    obtain ⟨s', hs', hrest⟩ := bind_eq_ok.1 hrest
    obtain ⟨ha, -⟩ := h.scope_stored a start s hs
    obtain ⟨hdec, hscope⟩ := h.filters_stored b s s' hs'
    obtain ⟨hkept, hkept'⟩ := kept_of_readPositions h.others hrest
    rw [hkept, hkept', hscope]
    exact ⟨congrArg some ha, hdec⟩

theorem parts_of_toRecord (h : ReadsSeries f g more scope part dec) {v : Json}
    (hr : v.toRecord (f :: g :: more) start = .ok r) :
    scopePart v = some (.text (scope r)) ∧
      (filtersPart v).elim (.ok (part start)) dec = .ok (part r) := by
  cases v with
  | object entries => exact h.parts_of_readFields hr
  | array items => exact h.parts_of_readPositions hr
  | null => cases hr
  | bool b => cases hr
  | number n => cases hr
  | string s => cases hr
  | broken => cases hr

private theorem length_of_readPositions (hr : readPositions [f, g] start items = .ok r) :
    items.length ≤ 2 := by
  match items with
  | [] => exact Nat.zero_le 2
  | [a] => exact Nat.le_succ 1
  | [a, b] => exact Nat.le_refl 2
  | a :: b :: c :: items =>
    rw [readPositions] at hr
    obtain ⟨s, -, hs⟩ := bind_eq_ok.1 hr
    rw [readPositions] at hs
    obtain ⟨s', -, hs'⟩ := bind_eq_ok.1 hs
    cases hs'

private theorem exists_readPositions (h : ReadsSeries f g [] scope part dec)
    (hoptional : g.required = false) (hlen : items.length ≤ 2) {s : String} {b : β}
    (hscope : items[0]? = some (.text s))
    (hfilters : (items[1]?).elim (.ok (part start)) dec = .ok b) :
    ∃ r, readPositions [f, g] start items = .ok r := by
  match items with
  | [] => cases hscope
  | [v] =>
    obtain rfl : v = .text s := Option.some.inj hscope
    obtain ⟨r, hr⟩ := h.stores_scope s start
    refine ⟨r, ?_⟩
    rw [readPositions, hr]
    change readPositions [g] r [] = .ok r
    rw [readPositions, List.all_cons, hoptional]
    rfl
  | [v, w] =>
    obtain rfl : v = .text s := Option.some.inj hscope
    obtain ⟨r, hr⟩ := h.stores_scope s start
    obtain ⟨r', hr'⟩ := h.stores_filters w b hfilters r
    refine ⟨r', ?_⟩
    rw [readPositions, hr]
    change readPositions [g] r [w] = .ok r'
    rw [readPositions, hr']
    rfl
  | v :: w :: x :: items =>
    rw [List.length_cons, List.length_cons, List.length_cons] at hlen
    omega

section Alone

variable (h : ReadsSeries f g [] scope part dec) (hoptional : g.required = false)

include h

private theorem fieldNames_alone : fieldNames [f, g] = ["scoping_id", "dimension_filters"] := by
  rw [fieldNames, List.map_cons, List.map_singleton, h.scope_name, h.filters_name]

include hoptional

private theorem requiredNames_alone : requiredNames [f, g] = ["scoping_id"] := by
  rw [requiredNames, List.filter_cons_of_pos h.scope_required,
    List.filter_cons_of_neg (by simp [hoptional]), List.filter_nil, fieldNames,
    List.map_singleton, h.scope_name]

private theorem namesSeries_of_toRecord {v : Json} (hr : v.toRecord [f, g] start = .ok r) :
    NamesSeries v := by
  cases v with
  | object entries =>
    have hfits := Json.fits_of_readFields hr
    rwa [h.fieldNames_alone, h.requiredNames_alone hoptional] at hfits
  | array items => exact length_of_readPositions hr
  | null => cases hr
  | bool b => cases hr
  | number n => cases hr
  | string s => cases hr
  | broken => cases hr

private theorem exists_toRecord {v : Json} (hv : NamesSeries v) {s : String} {b : β}
    (hscope : scopePart v = some (.text s))
    (hfilters : (filtersPart v).elim (.ok (part start)) dec = .ok b) :
    ∃ r, v.toRecord [f, g] start = .ok r := by
  cases v with
  | object entries =>
    apply h.exists_readFields
    · rw [h.fieldNames_alone, h.requiredNames_alone hoptional]
      exact hv
    · intro e he name hname hmem
      rw [h.fieldNames_alone] at hmem
      simpa using hmem
    · intro v hv
      exact ⟨s, Option.some.inj (hv.symm.trans hscope)⟩
    · intro v hv
      rw [filtersPart, hv] at hfilters
      exact ⟨b, hfilters⟩
  | array items => exact h.exists_readPositions hoptional hv hscope hfilters
  | null => exact hv.elim
  | bool b => exact hv.elim
  | number n => exact hv.elim
  | string s => exact hv.elim
  | broken => exact hv.elim

/-- A record without other fields is read from the values that name a series, as the record that
holds their scope and their filters. -/
theorem toRecord_eq_ok_iff (hext : ∀ r r', scope r = scope r' → part r = part r' → r = r')
    {v : Json} :
    v.toRecord [f, g] start = .ok r ↔ NamesSeries v ∧ scopePart v = some (.text (scope r)) ∧
      (filtersPart v).elim (.ok (part start)) dec = .ok (part r) := by
  constructor
  · intro hr
    exact ⟨h.namesSeries_of_toRecord hoptional hr, h.parts_of_toRecord hr⟩
  · rintro ⟨hv, hscope, hfilters⟩
    obtain ⟨s, hs⟩ := h.exists_toRecord hoptional hv hscope hfilters
    obtain ⟨hscope', hfilters'⟩ := h.parts_of_toRecord hs
    have heq : s = r := by
      apply hext
      · exact text_inj (Option.some.inj (hscope'.symm.trans hscope))
      · exact Except.ok.inj (hfilters'.symm.trans hfilters)
    rw [hs, heq]

end Alone

end ReadsSeries

theorem ReadsSeries.of_setters {ρ β : Type} {f g : Field KeyError ρ}
    {more : List (Field KeyError ρ)} {scope : ρ → String} {part : ρ → β} {dec : Json → Wire β}
    (setScope : String → ρ → ρ) (setPart : β → ρ → ρ)
    (hf : f.name = "scoping_id" ∧ f.required = true) (hg : g.name = "dimension_filters")
    (hscope : ∀ v r r', f.store v r = .ok r' ↔
      ∃ s, (v.toText : Wire String) = .ok s ∧ setScope s r = r')
    (hpart : ∀ v r r', g.store v r = .ok r' ↔ ∃ b, dec v = .ok b ∧ setPart b r = r')
    (hsetScope : ∀ s r, scope (setScope s r) = s ∧ part (setScope s r) = part r)
    (hsetPart : ∀ b r, scope (setPart b r) = scope r ∧ part (setPart b r) = b)
    (hmore : ∀ h ∈ more, ∀ v r r', h.store v r = .ok r' → scope r' = scope r ∧ part r' = part r) :
    ReadsSeries f g more scope part dec where
  scope_name := hf.1
  scope_required := hf.2
  filters_name := hg
  scope_stored := by
    intro v r r' hstore
    obtain ⟨s, hs, rfl⟩ := (hscope v r r').1 hstore
    rw [(hsetScope s r).1]
    exact ⟨Json.toText_eq_ok.1 hs, (hsetScope s r).2⟩
  filters_stored := by
    intro v r r' hstore
    obtain ⟨b, hb, rfl⟩ := (hpart v r r').1 hstore
    rw [(hsetPart b r).2]
    exact ⟨hb, (hsetPart b r).1⟩
  stores_scope := fun s r => ⟨setScope s r, (hscope _ _ _).2 ⟨s, rfl, rfl⟩⟩
  stores_filters := fun v b hb r => ⟨setPart b r, (hpart _ _ _).2 ⟨b, hb, rfl⟩⟩
  others := hmore

end LagForecast
