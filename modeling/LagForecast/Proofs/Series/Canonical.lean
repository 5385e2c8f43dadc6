import LagForecast.Series.Key

/-!
Canonical forms are unambiguous.  An escaped name holds no delimiter, so each of the three levels
of a form falls apart at its own delimiter in one way only, and the escapes themselves form a
prefix code.
-/

set_option autoImplicit false

namespace LagForecast

open Text (Blank)

namespace Canonical

def delimiters : List Char := [',', ';', '=', '|']

private def escapeDigits (c : Char) : List Char := (Text.hexDigits 2 c.toNat).map Char.toUpper

private theorem length_escapeDigits (c : Char) : (escapeDigits c).length = 2 := by
  simp [escapeDigits, Text.hexDigits]

private theorem escapeDigits_inj :
    ∀ c ∈ separators, ∀ d ∈ separators, escapeDigits c = escapeDigits d → c = d := by
  have table : (separators.all fun c => separators.all fun d =>
      escapeDigits c != escapeDigits d || c == d) = true := by
    decide
  intro c hc d hd hcd
  have entry := List.all_eq_true.1 (List.all_eq_true.1 table c hc) d hd
  simpa [hcd] using entry

private theorem delimiter_notMem_escapeDigits :
    ∀ c ∈ separators, ∀ d ∈ delimiters, d ∉ escapeDigits c := by
  have table : (separators.all fun c => delimiters.all fun d =>
      !(escapeDigits c).contains d) = true := by
    decide
  intro c hc d hd
  have entry := List.all_eq_true.1 (List.all_eq_true.1 table c hc) d hd
  simpa using entry

private theorem escapedChar_of_mem {c : Char} (h : c ∈ separators) :
    escapedChar c = '%' :: escapeDigits c :=
  if_pos h

private theorem escapedChar_of_notMem {c : Char} (h : c ∉ separators) : escapedChar c = [c] :=
  if_neg h

private theorem escapedChar_append_inj {c d : Char} {x y : List Char}
    (h : escapedChar c ++ x = escapedChar d ++ y) : c = d ∧ x = y := by
  have percent : '%' ∈ separators := by decide
  by_cases hc : c ∈ separators <;> by_cases hd : d ∈ separators
  · rw [escapedChar_of_mem hc, escapedChar_of_mem hd] at h
    have hlen : (escapeDigits c).length = (escapeDigits d).length := by
      rw [length_escapeDigits, length_escapeDigits]
    obtain ⟨hdigits, hrest⟩ := List.append_inj (List.cons.inj h).2 hlen
    exact ⟨escapeDigits_inj c hc d hd hdigits, hrest⟩
  · rw [escapedChar_of_mem hc, escapedChar_of_notMem hd] at h
    have : '%' = d := (List.cons.inj h).1
    exact absurd (this ▸ percent) hd
  · rw [escapedChar_of_notMem hc, escapedChar_of_mem hd] at h
    have : c = '%' := (List.cons.inj h).1
    exact absurd (this ▸ percent) hc
  · rw [escapedChar_of_notMem hc, escapedChar_of_notMem hd] at h
    exact List.cons.inj h

private theorem escapedChar_ne_nil (c : Char) : escapedChar c ≠ [] := by
  by_cases h : c ∈ separators
  · rw [escapedChar_of_mem h]
    exact List.cons_ne_nil _ _
  · rw [escapedChar_of_notMem h]
    exact List.cons_ne_nil _ _

private theorem flatMap_escapedChar_inj {l m : List Char}
    (h : l.flatMap escapedChar = m.flatMap escapedChar) : l = m := by
  induction l generalizing m with
  | nil =>
    cases m with
    | nil => rfl
    | cons d m =>
      rw [List.flatMap_nil, List.flatMap_cons] at h
      exact absurd (List.append_eq_nil_iff.1 h.symm).1 (escapedChar_ne_nil d)
  | cons c l ih =>
    cases m with
    | nil =>
      rw [List.flatMap_nil, List.flatMap_cons] at h
      exact absurd (List.append_eq_nil_iff.1 h).1 (escapedChar_ne_nil c)
    | cons d m =>
      rw [List.flatMap_cons, List.flatMap_cons] at h
      obtain ⟨hcd, hrest⟩ := escapedChar_append_inj h
      rw [hcd, ih hrest]

private theorem escaped_inj {s t : String} (h : escaped s = escaped t) : s = t :=
  String.toList_inj.1 (flatMap_escapedChar_inj h)

private theorem escaped_eq_nil_iff {s : String} : escaped s = [] ↔ s = "" := by
  constructor
  · intro h
    exact escaped_inj h
  · rintro rfl
    rfl

private theorem delimiter_notMem_escaped {d : Char} (hd : d ∈ delimiters) (s : String) :
    d ∉ escaped s := by
  intro hmem
  obtain ⟨c, -, hc⟩ := List.mem_flatMap.1 hmem
  have table : (delimiters.all fun d => separators.contains d && d != '%') = true := by decide
  have hentry : d ∈ separators ∧ d ≠ '%' := by simpa using List.all_eq_true.1 table d hd
  obtain ⟨hsep, hne⟩ := hentry
  by_cases h : c ∈ separators
  · rw [escapedChar_of_mem h] at hc
    rcases List.mem_cons.1 hc with hc | hc
    · exact hne hc
    · exact delimiter_notMem_escapeDigits c h d hd hc
  · rw [escapedChar_of_notMem h, List.mem_singleton] at hc
    exact h (hc ▸ hsep)

private theorem append_cons_inj {a : Char} {x x' z z' : List Char} (hx : a ∉ x) (hx' : a ∉ x')
    (h : x ++ a :: z = x' ++ a :: z') : x = x' ∧ z = z' := by
  have hsplit := congrArg (List.splitOn a) h
  rw [List.splitOn_append_cons_self_of_not_mem hx,
    List.splitOn_append_cons_self_of_not_mem hx'] at hsplit
  have hxx : x = x' := (List.cons.inj hsplit).1
  subst hxx
  exact ⟨rfl, (List.cons.inj (List.append_cancel_left h)).2⟩

/-- Parts that are not empty and hold no separator are found again. -/
private theorem intercalate_inj {a : Char} {l m : List (List Char)}
    (hl : ∀ p ∈ l, a ∉ p ∧ p ≠ []) (hm : ∀ p ∈ m, a ∉ p ∧ p ≠ [])
    (h : [a].intercalate l = [a].intercalate m) : l = m := by
  have parts {l : List (List Char)} (hl : ∀ p ∈ l, a ∉ p ∧ p ≠ []) (hne : l ≠ []) :
      ([a].intercalate l).splitOn a = l :=
    List.splitOn_intercalate a (fun p hp => (hl p hp).1) hne
  have empty {l : List (List Char)} (hl : ∀ p ∈ l, a ∉ p ∧ p ≠ [])
      (h : [a].intercalate l = []) : l = [] := by
    cases l with
    | nil => rfl
    | cons p l =>
      have hsplit := parts hl (List.cons_ne_nil p l)
      rw [h] at hsplit
      exact absurd rfl (hl [] (by rw [← hsplit]; simp)).2
  by_cases hln : l = []
  · subst hln
    exact (empty hm h.symm).symm
  · by_cases hmn : m = []
    · subst hmn
      exact empty hl h
    · rw [← parts hl hln, ← parts hm hmn, h]

private theorem mem_intercalate {a c : Char} {l : List (List Char)}
    (h : c ∈ [a].intercalate l) : c = a ∨ ∃ p ∈ l, c ∈ p := by
  induction l with
  | nil => simp at h
  | cons p l ih =>
    cases l with
    | nil => exact Or.inr ⟨p, by simp, by simpa using h⟩
    | cons q l =>
      rw [List.intercalate_cons_cons, List.append_assoc] at h
      rcases List.mem_append.1 h with h | h
      · exact Or.inr ⟨p, by simp, h⟩
      · rcases List.mem_cons.1 h with h | h
        · exact Or.inl h
        · exact (ih h).imp id fun ⟨r, hr, hc⟩ => ⟨r, List.mem_cons_of_mem p hr, hc⟩

private theorem notMem_dimension {d : Char} (hd : d ∈ delimiters) (hcomma : d ≠ ',')
    (heq : d ≠ '=') (p : String × List String) : d ∉ dimension p := by
  intro hmem
  rcases List.mem_append.1 hmem with h | h
  · exact delimiter_notMem_escaped hd p.1 h
  · rcases List.mem_cons.1 h with h | h
    · exact heq h
    · rcases mem_intercalate h with h | ⟨v, hv, h⟩
      · exact hcomma h
      · obtain ⟨s, -, rfl⟩ := List.mem_map.1 hv
        exact delimiter_notMem_escaped hd s h

private theorem dimension_inj {p q : String × List String} (hp : ∀ v ∈ p.2, v ≠ "")
    (hq : ∀ v ∈ q.2, v ≠ "") (h : dimension p = dimension q) : p = q := by
  have equals : '=' ∈ delimiters := by decide
  have comma : ',' ∈ delimiters := by decide
  have value {l : List String} (hl : ∀ v ∈ l, v ≠ "") :
      ∀ r ∈ l.map escaped, ',' ∉ r ∧ r ≠ [] := by
    intro r hr
    obtain ⟨s, hs, rfl⟩ := List.mem_map.1 hr
    exact ⟨delimiter_notMem_escaped comma s, fun hnil => hl s hs (escaped_eq_nil_iff.1 hnil)⟩
  obtain ⟨hname, hvalues⟩ := append_cons_inj (delimiter_notMem_escaped equals p.1)
    (delimiter_notMem_escaped equals q.1) h
  have hmap := intercalate_inj (value hp) (value hq) hvalues
  exact Prod.ext (escaped_inj hname) ((List.map_inj_right fun _ _ => escaped_inj).1 hmap)

private theorem dimension_ne_nil (p : String × List String) : dimension p ≠ [] := by
  simp [dimension]

private theorem map_dimension_inj {l m : List (String × List String)}
    (hl : ∀ p ∈ l, ∀ v ∈ p.2, v ≠ "") (hm : ∀ p ∈ m, ∀ v ∈ p.2, v ≠ "")
    (h : l.map dimension = m.map dimension) : l = m := by
  induction l generalizing m with
  | nil => exact (List.map_eq_nil_iff.1 h.symm).symm
  | cons p l ih =>
    cases m with
    | nil => exact absurd h (by simp)
    | cons q m =>
      rw [List.map_cons, List.map_cons] at h
      obtain ⟨hhead, htail⟩ := List.cons.inj h
      have hpq := dimension_inj (hl p (by simp)) (hm q (by simp)) hhead
      have hrest := ih (fun r hr => hl r (by simp [hr])) (fun r hr => hm r (by simp [hr])) htail
      rw [hpq, hrest]

private theorem parts_dimensions (l : List (String × List String)) :
    ∀ r ∈ l.map dimension, ';' ∉ r ∧ r ≠ [] := by
  intro r hr
  obtain ⟨p, -, rfl⟩ := List.mem_map.1 hr
  exact ⟨notMem_dimension (by decide) (by decide) (by decide) p, dimension_ne_nil p⟩

private theorem dimensions_inj {l m : List (String × List String)} (hl : ∀ p ∈ l, ∀ v ∈ p.2, v ≠ "")
    (hm : ∀ p ∈ m, ∀ v ∈ p.2, v ≠ "") (h : dimensions l = dimensions m) : l = m :=
  map_dimension_inj hl hm (intercalate_inj (parts_dimensions l) (parts_dimensions m) h)

end Canonical

namespace Filters

/-- No value of a listing is empty, for a blank value is not selected. -/
theorem listing_ne_empty (f : Filters) : ∀ p ∈ f.listing, ∀ v ∈ p.2, v ≠ "" := by
  intro p hp v hv hempty
  obtain ⟨q, hq, rfl⟩ := List.mem_map.1 hp
  have blank : Blank "" := by decide
  exact (f.named q hq).2.2 v hv (hempty ▸ blank)

private theorem eq_of_dimensions {f g : Filters}
    (h : Canonical.dimensions f.listing = Canonical.dimensions g.listing) : f = g :=
  ext_listing (Canonical.dimensions_inj f.listing_ne_empty g.listing_ne_empty h)

theorem canonical_inj {f g : Filters} (h : f.canonical = g.canonical) : f = g :=
  eq_of_dimensions (String.ofList_injective h)

end Filters

namespace SeriesKey

private theorem eq_of_canonical {a b : SeriesKey} (h : a.canonical = b.canonical) : a = b := by
  have bar : '|' ∈ Canonical.delimiters := by decide
  obtain ⟨hscope, hfilters⟩ := Canonical.append_cons_inj
    (Canonical.delimiter_notMem_escaped bar a.scope)
    (Canonical.delimiter_notMem_escaped bar b.scope) (String.ofList_injective h)
  have hs := Canonical.escaped_inj hscope
  have hf := Filters.eq_of_dimensions hfilters
  cases a
  cases b
  cases hs
  cases hf
  rfl

/-- Keys with one canonical form are equal, and so are filters; only filters that select everything
have an empty one. -/
theorem canonical_unambiguous :
    (∀ a b : SeriesKey, a.canonical = b.canonical ↔ a = b) ∧
      (∀ f g : Filters, f.canonical = g.canonical ↔ f = g) ∧
      ∀ f : Filters, f.canonical = "" ↔ f = .empty := by
  refine ⟨fun a b => ⟨eq_of_canonical, congrArg _⟩,
    fun f g => ⟨Filters.canonical_inj, congrArg _⟩, fun f => ⟨fun h => ?_, ?_⟩⟩
  · exact Filters.canonical_inj h
  · rintro rfl
    rfl

end SeriesKey

end LagForecast
