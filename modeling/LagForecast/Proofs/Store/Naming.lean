import LagForecast.Proofs.Series.Reading

/-!
# Requests and stored series

A series that is stored under a scope and filters is the series that a request with the same scope
and filters asks for, and no other request reaches it.
-/

set_option autoImplicit false

namespace LagForecast

open Text (Blank)

namespace SeriesSelector

variable {s : SeriesSelector} {k : SeriesKey}

private theorem requestedKey_eq_ok_iff : s.requestedKey = .ok k ↔ s.key = .ok k := by
  rw [requestedKey]
  cases s.key with
  | error e => exact ⟨nofun, nofun⟩
  | ok j => exact ⟨fun h => congrArg Except.ok (Except.ok.inj h), fun h =>
      congrArg Except.ok (Except.ok.inj h)⟩

/-- A selector that is read from a value, by itself or with the rest of a request. -/
inductive Carried (w : Json) (s : SeriesSelector) : Prop
  | alone (h : SeriesSelector.ofJson w = .ok s)
  | request {q : ForecastRequest} (h : ForecastRequest.ofJson w = .ok q) (hs : q.series = s)

private theorem Carried.parts {w : Json} (h : Carried w s) : scopePart w = some (.text s.scope) ∧
    readFilters .empty selectionsOfJson w = .ok s.selections := by
  cases h with
  | alone h => exact (ofJson_eq_ok_iff.1 h).2
  | request h hs =>
    rw [← hs]
    exact ForecastRequest.parts_of_ofJson h

end SeriesSelector

open SeriesSelector (Carried)

/-- Two values in which the same is written for the scope and the filters of a series. -/
structure SameSelection (v w : Json) : Prop where
  scope : scopePart v = scopePart w
  filters : filtersPart v = filtersPart w

private theorem SameSelection.key_iff {v w : Json} (h : SameSelection v w) {r : SeriesRecord}
    {s : SeriesSelector} (hr : SeriesRecord.ofJson v = .ok r) (hs : Carried w s) (k : SeriesKey) :
    s.requestedKey = .ok k ↔ r.key = .ok k := by
  obtain ⟨hscope, hfilters⟩ := SeriesRecord.parts_of_ofJson hr
  obtain ⟨hscope', hselections⟩ := hs.parts
  have hsame : r.scope = s.scope := by
    rw [h.scope] at hscope
    exact text_inj (Option.some.inj (hscope.symm.trans hscope'))
  obtain ⟨m, hm, hchecked⟩ := readFilters_eq_ok_iff.1 hfilters
  have hwritten : m = s.selections := by
    rw [readFilters, h.filters] at hm
    exact Except.ok.inj (hm.symm.trans hselections)
  rw [SeriesSelector.requestedKey_eq_ok_iff, SeriesSelector.key_eq_ok_iff,
    SeriesRecord.key_eq_ok_iff, ← hwritten, hchecked, hsame]
  exact and_congr_right fun _ => ⟨Except.ok.inj, congrArg Except.ok⟩

namespace HistoryDocument

variable {before after : List SeriesRecord} {r : SeriesRecord} {k : SeriesKey}

private theorem find_of_only (hk : r.key = .ok k)
    (hothers : ∀ b ∈ before ++ after, ∃ j, b.key = .ok j ∧ j ≠ k) :
    find ⟨before ++ r :: after⟩ k = .ok (some r.observations) ∧
      ∀ j, j ≠ k → find ⟨before ++ r :: after⟩ j = find ⟨before ++ after⟩ j := by
  have hnamed : ∀ b ∈ before ++ after, ¬ Blank b.scope := fun b hb => by
    obtain ⟨j, hj, -⟩ := hothers b hb
    exact SeriesRecord.not_blank_of_key hj
  have hnamed' : ∀ b ∈ before ++ r :: after, ¬ Blank b.scope := by
    intro b hb
    rcases List.mem_append.1 hb with hb | hb
    · exact hnamed b (List.mem_append_left _ hb)
    · rcases List.mem_cons.1 hb with rfl | hb
      · exact SeriesRecord.not_blank_of_key hk
      · exact hnamed b (List.mem_append_right _ hb)
  constructor
  · have hnone : recordsOf k (before ++ after) = [] := by
      rw [recordsOf_eq_nil]
      intro b hb hbk
      obtain ⟨j, hj, hne⟩ := hothers b hb
      exact hne (Except.ok.inj (hj.symm.trans hbk))
    rw [recordsOf_append, List.append_eq_nil_iff] at hnone
    apply find_of_single hnamed'
    rw [recordsOf_append, recordsOf_cons_of_key hk, hnone.1, hnone.2]
    rfl
  · intro j hj
    have hother : r.key ≠ .ok j := fun h => hj (Except.ok.inj (h.symm.trans hk))
    apply find_congr hnamed' hnamed
    rw [recordsOf_append, recordsOf_append, recordsOf_cons_of_other hother]

end HistoryDocument

/-- A blank scope is a fault of a key that is read, of a selector when its key is asked for, and of
a stored series then too. -/
theorem blank_scope_refused {t : List UInt8} {s : SeriesSelector} {filters : Filters}
    (hs : Json.decode SeriesSelector.ofJson t = .ok s)
    (hfilters : Filters.ofSelections s.selections = .ok filters) (hblank : Blank s.scope) :
    Json.decode SeriesKey.ofJson t = .error (.refused .emptyScope) ∧
      s.requestedKey = .error (.invalidKey .emptyScope) ∧
      ∀ entries, (Json.read t).value = .object entries →
        (∀ e ∈ entries, e.1 ≠ some "observations") →
          ∃ r, Json.decode SeriesRecord.ofJson t = .ok r ∧
            r.key = .error (.malformed (.key .emptyScope)) := by
  obtain ⟨hvalue, hcomplete⟩ := Json.decode_eq_ok.1 hs
  refine ⟨?_, ?_, ?_⟩
  · rw [Json.decode, SeriesKey.ofJson_of_blank hvalue hfilters hblank]
    rfl
  · have hmake : SeriesKey.make s.scope filters = .error .emptyScope := dif_pos hblank
    rw [SeriesSelector.requestedKey, SeriesSelector.key, hfilters]
    change (SeriesKey.make s.scope filters).mapError ForecastError.invalidKey = _
    rw [hmake]
    rfl
  · intro entries hentries hnone
    rw [hentries] at hvalue
    obtain ⟨hnames, hscope, hm⟩ := SeriesSelector.ofJson_eq_ok_iff.1 hvalue
    have hread := readFilters_eq_ok_iff.2 ⟨s.selections, hm, hfilters⟩
    obtain ⟨r, hr, hrscope, -⟩ := SeriesRecord.exists_ofJson hnone hnames hscope hread
    rw [← hentries] at hr
    exact ⟨r, Json.decode_eq_ok.2 ⟨hr, hcomplete⟩, SeriesRecord.key_of_blank (hrscope ▸ hblank)⟩

/-- Keys, selectors and stored series without observations are read from the same texts, as far as
they have a key, and with the same key.  A selector that stands in a request and a stored series
have the same key if the same is written for both; so the request finds what is stored, and requests
with other keys find what they would find without it. -/
theorem requests_name_stored_series :
    (∀ t k, Json.decode SeriesKey.ofJson t = .ok k ↔
      ∃ s, Json.decode SeriesSelector.ofJson t = .ok s ∧ s.requestedKey = .ok k) ∧
    (∀ t entries, (Json.read t).value = .object entries →
      (∀ e ∈ entries, e.1 ≠ some "observations") → ∀ k,
        Json.decode SeriesKey.ofJson t = .ok k ↔
          ∃ r, Json.decode SeriesRecord.ofJson t = .ok r ∧ r.key = .ok k) ∧
    (∀ t s filters, Json.decode SeriesSelector.ofJson t = .ok s →
      Filters.ofSelections s.selections = .ok filters → Blank s.scope →
        Json.decode SeriesKey.ofJson t = .error (.refused .emptyScope) ∧
          s.requestedKey = .error (.invalidKey .emptyScope) ∧
          ∀ entries, (Json.read t).value = .object entries →
            (∀ e ∈ entries, e.1 ≠ some "observations") →
              ∃ r, Json.decode SeriesRecord.ofJson t = .ok r ∧
                r.key = .error (.malformed (.key .emptyScope))) ∧
    ∀ v w r s, SameSelection v w → SeriesRecord.ofJson v = .ok r → Carried w s →
      (∀ k, s.requestedKey = .ok k ↔ r.key = .ok k) ∧
      ∀ k before after, s.requestedKey = .ok k →
        (∀ b ∈ before ++ after, ∃ j, b.key = .ok j ∧ j ≠ k) →
          HistoryDocument.find ⟨before ++ r :: after⟩ k = .ok (some r.observations) ∧
            ∀ j, j ≠ k → HistoryDocument.find ⟨before ++ r :: after⟩ j =
              HistoryDocument.find ⟨before ++ after⟩ j := by
  refine ⟨?_, ?_, fun t s filters => blank_scope_refused, ?_⟩
  · intro t k
    simp only [Json.decode_eq_ok, SeriesKey.ofJson_eq_ok_iff_selector,
      SeriesSelector.requestedKey_eq_ok_iff]
    constructor
    · rintro ⟨⟨s, hs, hk⟩, hcomplete⟩
      exact ⟨s, ⟨hs, hcomplete⟩, hk⟩
    · rintro ⟨s, ⟨hs, hcomplete⟩, hk⟩
      exact ⟨⟨s, hs, hk⟩, hcomplete⟩
  · intro t entries hvalue hnone k
    simp only [Json.decode_eq_ok, hvalue, SeriesKey.ofJson_eq_ok_iff_record hnone]
    constructor
    · rintro ⟨⟨r, hr, hk⟩, hcomplete⟩
      exact ⟨r, ⟨hr, hcomplete⟩, hk⟩
    · rintro ⟨r, ⟨hr, hcomplete⟩, hk⟩
      exact ⟨⟨r, hr, hk⟩, hcomplete⟩
  · intro v w r s hsame hr hs
    refine ⟨hsame.key_iff hr hs, ?_⟩
    intro k before after hk hothers
    exact HistoryDocument.find_of_only ((hsame.key_iff hr hs k).1 hk) hothers

/-- A blank scope, and a series that is stored behind another one of the same scope. -/
theorem requests_name_stored_series_of_two_records :
    let blank := Text.bytes "\x7b\"scoping_id\":\" \"\x7d"
    let east : Json := .record [("plant", .text "east")]
    let stored : Json := .record [("scoping_id", .text "acme"), ("dimension_filters", east),
      ("observations", .array [])]
    let request : Json := .record [("horizon_periods", .int 2), ("dimension_filters", east),
      ("scoping_id", .text "acme")]
    Json.decode SeriesKey.ofJson blank = .error (.refused .emptyScope) ∧
      SameSelection stored request ∧ ∃ r s k, SeriesRecord.ofJson stored = .ok r ∧
        Carried request s ∧ s.requestedKey = .ok k ∧
        HistoryDocument.find ⟨[⟨"acme", .empty, []⟩, r]⟩ k = .ok (some r.observations) := by
  intro blank east stored request
  obtain ⟨-, -, hblank, hfound⟩ := requests_name_stored_series
  have hread : Json.decode SeriesSelector.ofJson blank = .ok ⟨" ", .empty⟩ :=
    toOption_eq_some.1 (by decide +kernel)
  let plants : Filters := ⟨⟨[("plant", ⟨["east"], by decide⟩)], by decide⟩, by decide⟩
  let k : SeriesKey := ⟨"acme", plants, by decide⟩
  have hsame : SameSelection stored request := ⟨rfl, rfl⟩
  have hparts : (SeriesRecord.ofJson stored).toOption.map (fun r => (r.scope, r.filters)) =
      some (k.scope, k.filters) := by decide +kernel
  obtain ⟨r, hr, hr_parts⟩ := Option.map_eq_some_iff.1 hparts
  have hk : r.key = .ok k := SeriesRecord.key_eq_ok_iff.2 (Prod.mk.inj hr_parts)
  have hs : Carried request ⟨"acme", .ofList [("plant", .one "east")]⟩ :=
    .request (q := ⟨_, 2⟩) (toOption_eq_some.1 (by decide +kernel)) rfl
  obtain ⟨hkey, hfind⟩ := hfound stored request r _ hsame (toOption_eq_some.1 hr) hs
  refine ⟨(hblank blank _ .empty hread rfl (by decide)).1, hsame, r, _, k,
    toOption_eq_some.1 hr, hs, (hkey k).2 hk, ?_⟩
  refine (hfind k [⟨"acme", .empty, []⟩] [] ((hkey k).2 hk) ?_).1
  intro b hb
  obtain rfl := List.mem_singleton.1 hb
  exact ⟨⟨"acme", .empty, by decide⟩, rfl, by decide⟩

end LagForecast
