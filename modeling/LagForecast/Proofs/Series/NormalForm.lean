import LagForecast.Proofs.Series.Reading
import LagForecast.Proofs.Series.Selections

/-!
# One text for one selection

Filters and keys are read in many spellings: a lone value as a string or as a list, the values of a
list in any order and any number of times, dimensions in any order, and of dimensions of one name
the last.  They are printed in one: dimensions in the order of their bytes, a lone value as a
string, and more values as a list that increases strictly.
-/

set_option autoImplicit false

namespace LagForecast

open Json (Printable decode lastEntry?)

/-- The values that are written for one dimension. -/
def Json.Lists (w : Json) (x : String) : Prop :=
  w = .text x ∨ ∃ items, w = .array items ∧ Json.text x ∈ items

/-- The values that are written last for a dimension. -/
def Json.Selects (v : Json) (d x : String) : Prop :=
  ∃ entries w, v = .object entries ∧ lastEntry? d entries = some w ∧ w.Lists x

def Filters.Selects (f : Filters) (d x : String) : Prop := ∃ s, f.get? d = some s ∧ x ∈ s.items

private theorem decodeAll_toText {items : List Json} {vs : List String}
    (h : Json.decodeAll Json.toText items = (.ok vs : Wire (List String))) :
    items = vs.map .text := by
  induction items generalizing vs with
  | nil =>
    cases h
    rfl
  | cons v items ih =>
    rw [Json.decodeAll] at h
    obtain ⟨s, hs, hrest⟩ := bind_eq_ok.1 h
    obtain ⟨others, hothers, hvs⟩ := bind_eq_ok.1 hrest
    cases hvs
    rw [Json.toText_eq_ok.1 hs, ih hothers]
    rfl

private theorem Selection.mem_values_iff {w : Json} {s : Selection} (h : Selection.ofJson w = .ok s)
    (x : String) : x ∈ s.values ↔ w.Lists x := by
  cases w with
  | string t =>
    cases t with
    | none => cases h
    | some t =>
      cases h
      constructor
      · intro hx
        exact Or.inl (congrArg Json.text (List.mem_singleton.1 hx).symm)
      · rintro (hx | ⟨items, hitems, -⟩)
        · exact List.mem_singleton.2 (text_inj hx).symm
        · cases hitems
  | array items =>
    cases hvs : Json.decodeAll Json.toText items with
    | error fault =>
      rw [Selection.ofJson, hvs] at h
      cases h
    | ok vs =>
      rw [Selection.ofJson, hvs] at h
      cases h
      obtain rfl := decodeAll_toText hvs
      constructor
      · intro hx
        exact Or.inr ⟨_, rfl, List.mem_map_of_mem hx⟩
      · rintro (hx | ⟨items, hitems, hx⟩)
        · cases hx
        · cases hitems
          obtain ⟨y, hy, hyx⟩ := List.mem_map.1 hx
          exact text_inj hyx ▸ hy
  | null => cases h
  | bool b => cases h
  | number n => cases h
  | object entries => cases h
  | broken => cases h

private theorem decodeEntries_find? {α : Type} {dec : Json → Wire α}
    {entries : List (Option String × Json)} {l : List (String × α)}
    (h : Json.decodeEntries dec entries = .ok l) (d : String) :
    ( lastEntry? d entries).map dec = ((OrderedMap.ofList l).find? d).map .ok := by
  induction entries generalizing l with
  | nil =>
    cases h
    rfl
  | cons e entries ih =>
    obtain ⟨name, v⟩ := e
    rw [Json.decodeEntries] at h
    obtain ⟨key, hkey, hrest⟩ := bind_eq_ok.1 h
    obtain ⟨a, ha, hrest⟩ := bind_eq_ok.1 hrest
    obtain ⟨others, hothers, hl⟩ := bind_eq_ok.1 hrest
    cases hl
    cases name with
    | none => cases hkey
    | some name =>
      cases hkey
      have hlast := ih hothers
      rw [Json.lastEntry_cons, OrderedMap.find?_ofList_cons]
      simp only [Std.LawfulEqOrd.compare_eq_iff_eq, Option.some.injEq]
      by_cases hname : key = d
      · subst hname
        rw [if_pos rfl, if_pos rfl, Option.map_or, hlast, Option.map_some, ha, ← Option.or_some,
          Option.map_or, Option.map_some]
      · rw [if_neg hname, if_neg fun heq => hname heq.symm, Option.or_none]
        exact hlast

private theorem Filters.selects_iff {v : Json} {f : Filters} (h : Filters.ofJson v = .ok f)
    (d x : String) : f.Selects d x ↔ v.Selects d x := by
  obtain ⟨m, hm, hf⟩ := Filters.ofJson_eq_ok_iff.1 h
  have hget := (Filters.ofSelections_eq_ok_iff.1 hf).2 d
  cases v with
  | object entries =>
    cases hl : Json.decodeEntries Selection.ofJson entries with
    | error fault =>
      rw [selectionsOfJson, hl] at hm
      cases hm
    | ok l =>
      rw [selectionsOfJson, hl] at hm
      cases hm
      have hlast := decodeEntries_find? hl d
      constructor
      · rintro ⟨s, hs, hx⟩
        rw [hget] at hs
        obtain ⟨written, hfind, rfl⟩ := Option.map_eq_some_iff.1 hs
        rw [hfind] at hlast
        obtain ⟨w, hw, hwritten⟩ := Option.map_eq_some_iff.1 hlast
        exact ⟨entries, w, rfl, hw,
          (Selection.mem_values_iff hwritten x).1 (OrderedSet.mem_ofList.1 hx)⟩
      · rintro ⟨entries', w, hv, hw, hx⟩
        cases hv
        rw [hw] at hlast
        obtain ⟨written, hfind, hwritten⟩ := Option.map_eq_some_iff.1 hlast.symm
        refine ⟨OrderedSet.ofList written.values, ?_, ?_⟩
        · rw [hget, hfind]
          rfl
        · exact OrderedSet.mem_ofList.2 ((Selection.mem_values_iff hwritten.symm x).2 hx)
  | null => cases hm
  | bool b => cases hm
  | number n => cases hm
  | string s => cases hm
  | array items => cases hm
  | broken => cases hm

/-- Filters that select the same values are equal, because no dimension is without values. -/
theorem Filters.ext_selects {f g : Filters} (h : ∀ d x, f.Selects d x ↔ g.Selects d x) :
    f = g := by
  have hfound {f g : Filters} (h : ∀ d x, f.Selects d x ↔ g.Selects d x) {d : String}
      {s : OrderedSet String} (hs : f.get? d = some s) : g.get? d = some s := by
    obtain ⟨-, hne, -⟩ := f.named (d, s) (OrderedMap.find?_eq_some_iff.1 hs)
    obtain ⟨x, hx⟩ := List.exists_mem_of_ne_nil _ hne
    obtain ⟨s', hs', -⟩ := (h d x).1 ⟨s, hs, hx⟩
    have heq : s' = s := by
      apply OrderedSet.ext_mem
      intro y
      constructor
      · intro hy
        obtain ⟨t, ht, hyt⟩ := (h d y).2 ⟨s', hs', hy⟩
        rwa [Option.some.inj (hs.symm.trans ht)]
      · intro hy
        obtain ⟨t, ht, hyt⟩ := (h d y).1 ⟨s, hs, hy⟩
        rwa [Option.some.inj (hs'.symm.trans ht)]
    exact heq ▸ hs'
  apply Filters.ext_get?
  intro d
  cases hf : f.get? d with
  | some s => exact (hfound h hf).symm
  | none =>
    cases hg : g.get? d with
    | none => rfl
    | some s =>
      have hback := hfound (fun d x => (h d x).symm) hg
      rw [hf] at hback
      cases hback

/-- The values of one dimension in their normal form. -/
inductive NormalValues : Json → Prop
  | one (v : String) : NormalValues (.text v)
  | many {vs : List String} (hlen : 2 ≤ vs.length)
      (hincreasing : vs.Pairwise fun a b => Text.bytes a < Text.bytes b) :
      NormalValues (.array (vs.map .text))

inductive NormalFilters : Json → Prop
  | intro {entries : List (String × Json)}
      (hincreasing : entries.Pairwise fun a b => Text.bytes a.1 < Text.bytes b.1)
      (hvalues : ∀ e ∈ entries, NormalValues e.2) : NormalFilters (.record entries)

inductive NormalKey : Json → Prop
  | intro (scope : String) {w : Json} (hw : NormalFilters w) :
      NormalKey (.record [("scoping_id", .text scope), ("dimension_filters", w)])

private theorem normalValues_selectionOf {vs : List String} (hne : vs ≠ [])
    (hincreasing : vs.Pairwise fun a b => compare a b = .lt) :
    NormalValues (Filters.selectionOf vs).toJson := by
  match vs with
  | [] => exact absurd rfl hne
  | [v] => exact .one v
  | v :: w :: vs =>
    refine .many (Nat.le_add_left 2 vs.length) ?_
    exact hincreasing.imp fun h => Text.compare_eq_lt_iff.1 h

private theorem normalFilters_toJson (f : Filters) : NormalFilters f.toJson := by
  apply NormalFilters.intro
  · rw [List.pairwise_map]
    exact f.increasing_selections.imp fun h => Text.compare_eq_lt_iff.1 h
  · intro e he
    obtain ⟨p, hp, rfl⟩ := List.mem_map.1 he
    rw [Filters.selections_eq] at hp
    obtain ⟨q, hq, rfl⟩ := List.mem_map.1 hp
    exact normalValues_selectionOf (f.named q hq).2.1 q.2.increasing

private theorem normalKey_toJson (k : SeriesKey) : NormalKey k.toJson :=
  .intro k.scope (normalFilters_toJson k.filters)

theorem printable_selection (s : Selection) : Printable s.toJson := by
  cases s with
  | one v => exact .text v
  | many vs => exact Json.printable_array_map Printable.text vs

theorem printable_filters (f : Filters) : Printable f.toJson := by
  apply Json.printable_record
  intro e he
  obtain ⟨p, -, rfl⟩ := List.mem_map.1 he
  exact printable_selection p.2

private theorem printable_key (k : SeriesKey) : Printable k.toJson := by
  apply Json.printable_record
  intro e he
  rcases List.mem_cons.1 he with rfl | he
  · exact .text k.scope
  · rw [List.mem_singleton.1 he]
    exact printable_filters k.filters

theorem Selection.ofJson_toJson (s : Selection) : Selection.ofJson s.toJson = .ok s := by
  cases s with
  | one v => rfl
  | many vs =>
    have hvs : Json.decodeAll Json.toText (vs.map .text) = (.ok vs : Wire (List String)) :=
      Json.decodeAll_map fun v _ => rfl
    rw [Selection.toJson, Selection.ofJson, hvs]
    rfl

theorem decodeEntries_record {α : Type} {dec : Json → Wire α} {toJson : α → Json}
    (h : ∀ a, dec (toJson a) = .ok a) (l : List (String × α)) :
    Json.decodeEntries dec ((l.map fun p => (p.1, toJson p.2)).map fun e => (some e.1, e.2)) =
      .ok l := by
  induction l with
  | nil => rfl
  | cons p l ih =>
    rw [List.map_cons, List.map_cons, Json.decodeEntries, ih, h]
    rfl

theorem Filters.ofJson_toJson (f : Filters) : Filters.ofJson f.toJson = .ok f := by
  rw [Filters.ofJson_eq_ok_iff]
  refine ⟨.ofList f.selections, ?_, f.ofSelections_selections⟩
  rw [Filters.toJson, selectionsToJson, Json.record, selectionsOfJson,
    decodeEntries_record Selection.ofJson_toJson]
  rfl

private theorem SeriesKey.ofJson_toJson (k : SeriesKey) : SeriesKey.ofJson k.toJson = .ok k := by
  rw [SeriesKey.ofJson_eq_ok_iff]
  refine ⟨?_, rfl, k.filters.ofJson_toJson⟩
  simp [SeriesKey.toJson, Json.record, NamesSeries, Json.Fits]

def SameFilters (v v' : Json) : Prop := ∀ d x, v.Selects d x ↔ v'.Selects d x

/-- Two values that name the same scope and select the same. -/
def SameKey (v v' : Json) : Prop :=
  scopePart v = scopePart v' ∧
    ∀ d x, (∃ w, filtersPart v = some w ∧ w.Selects d x) ↔
      ∃ w, filtersPart v' = some w ∧ w.Selects d x

private theorem SeriesKey.selects_iff {v : Json} {k : SeriesKey} (h : SeriesKey.ofJson v = .ok k)
    (d x : String) : k.filters.Selects d x ↔ ∃ w, filtersPart v = some w ∧ w.Selects d x := by
  have hfilters := (ofJson_eq_ok_iff.1 h).2.2
  rw [readFilters] at hfilters
  cases hpart : filtersPart v with
  | none =>
    rw [hpart] at hfilters
    have hempty : Filters.empty = k.filters := Except.ok.inj hfilters
    constructor
    · rintro ⟨s, hs, -⟩
      rw [← hempty] at hs
      cases hs
    · rintro ⟨w, hw, -⟩
      cases hw
  | some w =>
    rw [hpart] at hfilters
    rw [Filters.selects_iff hfilters]
    constructor
    · intro hx
      exact ⟨w, rfl, hx⟩
    · rintro ⟨w', hw, hx⟩
      exact Option.some.inj hw ▸ hx

private theorem Filters.eq_iff_same {v v' : Json} {f f' : Filters} (h : Filters.ofJson v = .ok f)
    (h' : Filters.ofJson v' = .ok f') : f = f' ↔ SameFilters v v' := by
  constructor
  · rintro rfl d x
    rw [← selects_iff h, ← selects_iff h']
  · intro hsame
    apply ext_selects
    intro d x
    rw [selects_iff h, selects_iff h']
    exact hsame d x

private theorem SeriesKey.eq_iff_same {v v' : Json} {k k' : SeriesKey}
    (h : SeriesKey.ofJson v = .ok k)
    (h' : SeriesKey.ofJson v' = .ok k') : k = k' ↔ SameKey v v' := by
  have hscope := (ofJson_eq_ok_iff.1 h).2.1
  have hscope' := (ofJson_eq_ok_iff.1 h').2.1
  constructor
  · rintro rfl
    refine ⟨hscope.trans hscope'.symm, fun d x => ?_⟩
    rw [← selects_iff h, ← selects_iff h']
  · rintro ⟨hsame, hselects⟩
    rw [hscope, hscope'] at hsame
    have hfilters : k.filters = k'.filters := by
      apply Filters.ext_selects
      intro d x
      rw [selects_iff h, selects_iff h']
      exact hselects d x
    obtain ⟨scope, filters, hnamed⟩ := k
    obtain ⟨scope', filters', hnamed'⟩ := k'
    cases text_inj (Option.some.inj hsame)
    cases hfilters
    rfl

/-- The text that is printed for what a text holds. -/
def reprinted {α : Type} (ofJson : Json → Wire α) (toJson : α → Json) (text : List UInt8) :
    Wire (List UInt8) :=
  (decode ofJson text).map fun a => Text.bytes (toJson a).compact

theorem reprinted_eq_ok {α : Type} {ofJson : Json → Wire α} {toJson : α → Json}
    {t p : List UInt8} (h : reprinted ofJson toJson t = .ok p) :
    ∃ a, decode ofJson t = .ok a ∧ p = Text.bytes (toJson a).compact := by
  rw [reprinted] at h
  cases ht : decode ofJson t with
  | error fault =>
    rw [ht] at h
    cases h
  | ok a =>
    rw [ht] at h
    cases h
    exact ⟨a, rfl, rfl⟩

/-- Values that are read in many spellings and printed in one. -/
structure OneText {α : Type} (ofJson : Json → Wire α) (toJson : α → Json)
    (same : Json → Json → Prop) (normal : Json → Prop) : Prop where
  read_back : ∀ a, decode ofJson (Text.bytes (toJson a).compact) = .ok a
  printed_normal : ∀ a, normal (toJson a)
  settled : ∀ t p, reprinted ofJson toJson t = .ok p →
    decode ofJson p = decode ofJson t ∧ reprinted ofJson toJson p = .ok p
  one_text : ∀ t t' p p', reprinted ofJson toJson t = .ok p →
    reprinted ofJson toJson t' = .ok p' →
      (p = p' ↔ same (Json.read t).value (Json.read t').value)

private theorem OneText.of_values {α : Type} {ofJson : Json → Wire α} {toJson : α → Json}
    {same : Json → Json → Prop} {normal : Json → Prop} (hprintable : ∀ a, Printable (toJson a))
    (hread : ∀ a, ofJson (toJson a) = .ok a) (hnormal : ∀ a, normal (toJson a))
    (hsame : ∀ v v' a a', ofJson v = .ok a → ofJson v' = .ok a' → (a = a' ↔ same v v')) :
    OneText ofJson toJson same normal := by
  have hback : ∀ a, decode ofJson (Text.bytes (toJson a).compact) = .ok a := fun a =>
    (Json.decode_compact (hprintable a)).trans (hread a)
  refine ⟨hback, hnormal, ?_, ?_⟩
  · intro t p hp
    obtain ⟨a, ht, rfl⟩ := reprinted_eq_ok hp
    refine ⟨(hback a).trans ht.symm, ?_⟩
    rw [reprinted, hback]
    rfl
  · intro t t' p p' hp hp'
    obtain ⟨a, ht, rfl⟩ := reprinted_eq_ok hp
    obtain ⟨a', ht', rfl⟩ := reprinted_eq_ok hp'
    rw [← hsame _ _ a a' (Json.decode_eq_ok.1 ht).1 (Json.decode_eq_ok.1 ht').1]
    constructor
    · intro hbytes
      have hdecoded := (congrArg (decode ofJson) hbytes).trans (hback a')
      exact Except.ok.inj ((hback a).symm.trans hdecoded)
    · rintro rfl
      rfl

/-- Filters and keys have one text for each selection. -/
theorem selections_have_one_text :
    OneText Filters.ofJson Filters.toJson SameFilters NormalFilters ∧
      OneText SeriesKey.ofJson SeriesKey.toJson SameKey NormalKey :=
  ⟨.of_values printable_filters Filters.ofJson_toJson normalFilters_toJson fun _ _ _ _ =>
      Filters.eq_iff_same,
    .of_values printable_key SeriesKey.ofJson_toJson normalKey_toJson fun _ _ _ _ =>
      SeriesKey.eq_iff_same⟩

/-- Two spellings of one selection, and the text that is printed for both. -/
theorem selections_have_one_text_of_two_spellings :
    let t := Text.bytes "\x7b\"plant\":[\"b\",\"a\",\"b\"],\"area\":\"x\"\x7d"
    let t' := Text.bytes "\x7b\"area\":[\"x\"],\"plant\":\"c\",\"plant\":[\"a\",\"b\"]\x7d"
    let p := Text.bytes "\x7b\"area\":\"x\",\"plant\":[\"a\",\"b\"]\x7d"
    reprinted Filters.ofJson Filters.toJson t = .ok p ∧
      reprinted Filters.ofJson Filters.toJson t' = .ok p ∧
      reprinted Filters.ofJson Filters.toJson p = .ok p ∧
      SameFilters (Json.read t).value (Json.read t').value := by
  intro t t' p
  have ht : reprinted Filters.ofJson Filters.toJson t = .ok p :=
    toOption_eq_some.1 (by decide +kernel)
  have ht' : reprinted Filters.ofJson Filters.toJson t' = .ok p :=
    toOption_eq_some.1 (by decide +kernel)
  obtain ⟨-, -, hsettled, hone⟩ := selections_have_one_text.1
  exact ⟨ht, ht', (hsettled t p ht).2, (hone t t' p p ht ht').1 rfl⟩

end LagForecast
