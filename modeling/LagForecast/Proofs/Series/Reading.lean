import LagForecast.Proofs.Series.Fields
import LagForecast.Proofs.Store.Search

/-!
# Series in keys, selectors, stored series and requests

All of them take a scope and filters from the same parts of a value.  They differ only in what they
make of the filters and in when they look at them.
-/

set_option autoImplicit false

namespace LagForecast

open Json (Fits fieldNames requiredNames)

private theorem set_eq_ok_iff {α ρ : Type} {x : Wire α} {set : α → ρ} {r' : ρ} :
    (x >>= fun a => pure (set a)) = (.ok r' : Wire ρ) ↔ ∃ a, x = .ok a ∧ set a = r' := by
  rw [bind_eq_ok]
  constructor
  · rintro ⟨a, ha, hset⟩
    exact ⟨a, ha, Except.ok.inj hset⟩
  · rintro ⟨a, ha, rfl⟩
    exact ⟨a, ha, rfl⟩

private theorem set_set_eq_ok_iff {α ρ σ : Type} {x : Wire α} {set : α → ρ} {set' : ρ → σ}
    {r' : σ} : ((x >>= fun a => pure (set a)) >>= fun r => pure (set' r)) = (.ok r' : Wire σ) ↔
      ∃ a, x = .ok a ∧ set' (set a) = r' := by
  refine set_eq_ok_iff.trans ⟨?_, ?_⟩
  · rintro ⟨r, hr, rfl⟩
    obtain ⟨a, ha, rfl⟩ := set_eq_ok_iff.1 hr
    exact ⟨a, ha, rfl⟩
  · rintro ⟨a, ha, rfl⟩
    exact ⟨set a, set_eq_ok_iff.2 ⟨a, ha, rfl⟩, rfl⟩

private theorem SeriesKey.exists_readsSeries :
    ∃ f g, SeriesKey.fields = [f, g] ∧ g.required = false ∧
    ReadsSeries f g [] Prod.fst Prod.snd Filters.ofJson :=
  ⟨_, _, rfl, rfl, .of_setters (fun s r => (s, r.2)) (fun b r => (r.1, b)) ⟨rfl, rfl⟩ rfl
    (fun _ _ _ => set_eq_ok_iff) (fun _ _ _ => set_eq_ok_iff) (fun _ _ => ⟨rfl, rfl⟩)
    (fun _ _ => ⟨rfl, rfl⟩) (by simp)⟩

private theorem SeriesSelector.exists_readsSeries : ∃ f g, SeriesSelector.fields = [f, g] ∧
    g.required = false ∧
      ReadsSeries f g [] SeriesSelector.scope SeriesSelector.selections selectionsOfJson :=
  ⟨_, _, rfl, rfl, .of_setters (fun s r => { r with scope := s })
    (fun m r => { r with selections := m }) ⟨rfl, rfl⟩ rfl (fun _ _ _ => set_eq_ok_iff)
    (fun _ _ _ => set_eq_ok_iff) (fun _ _ => ⟨rfl, rfl⟩) (fun _ _ => ⟨rfl, rfl⟩) (by simp)⟩

private theorem SeriesRecord.exists_readsSeries : ∃ f g more, SeriesRecord.fields = f :: g :: more ∧
    ReadsSeries f g more SeriesRecord.scope SeriesRecord.filters Filters.ofJson := by
  refine ⟨_, _, _, rfl, .of_setters (fun s r => { r with scope := s })
    (fun b r => { r with filters := b }) ⟨rfl, rfl⟩ rfl (fun _ _ _ => set_eq_ok_iff)
    (fun _ _ _ => set_eq_ok_iff) (fun _ _ => ⟨rfl, rfl⟩) (fun _ _ => ⟨rfl, rfl⟩) ?_⟩
  intro h hmem v r r' hstore
  rw [List.mem_singleton.1 hmem] at hstore
  obtain ⟨l, -, rfl⟩ := set_eq_ok_iff.1 hstore
  exact ⟨rfl, rfl⟩

private theorem ForecastRequest.exists_readsSeries :
    ∃ f g more, ForecastRequest.fields = f :: g :: more ∧
    ReadsSeries f g more (fun q => q.series.scope) (fun q => q.series.selections)
      selectionsOfJson := by
  refine ⟨_, _, _, rfl, .of_setters (fun s q => { q with series := { q.series with scope := s } })
    (fun m q => { q with series := { q.series with selections := m } }) ⟨rfl, rfl⟩ rfl ?_ ?_
    (fun _ _ => ⟨rfl, rfl⟩) (fun _ _ => ⟨rfl, rfl⟩) ?_⟩
  · exact fun _ _ _ => set_set_eq_ok_iff
  · exact fun _ _ _ => set_set_eq_ok_iff
  · intro h hmem v q q' hstore
    rw [List.mem_singleton.1 hmem] at hstore
    obtain ⟨i, -, rfl⟩ := set_eq_ok_iff.1 hstore
    exact ⟨rfl, rfl⟩

/-- What the filters of a record are read as, if they are left out as `absent`. -/
def readFilters {β : Type} (absent : β) (dec : Json → Wire β) (v : Json) : Wire β :=
  (filtersPart v).elim (.ok absent) dec

theorem SeriesSelector.ofJson_eq_ok_iff {v : Json} {s : SeriesSelector} :
    SeriesSelector.ofJson v = .ok s ↔ NamesSeries v ∧ scopePart v = some (.text s.scope) ∧
      readFilters .empty selectionsOfJson v = .ok s.selections := by
  obtain ⟨f, g, hfields, hoptional, h⟩ := exists_readsSeries
  rw [SeriesSelector.ofJson, hfields]
  apply h.toRecord_eq_ok_iff hoptional
  rintro ⟨scope, m⟩ ⟨scope', m'⟩ hscope hm
  cases hscope
  cases hm
  rfl

private theorem SeriesKey.ofJson_eq {v : Json} {scope : String} {filters : Filters}
    (hnames : NamesSeries v) (hscope : scopePart v = some (.text scope))
    (hfilters : readFilters .empty Filters.ofJson v = .ok filters) :
    SeriesKey.ofJson v = Json.refuse (make scope filters) := by
  obtain ⟨f, g, hfields, hoptional, h⟩ := exists_readsSeries
  have hread : v.toRecord [f, g] ("", .empty) = .ok (scope, filters) :=
    (h.toRecord_eq_ok_iff hoptional fun _ _ h₁ h₂ => Prod.ext h₁ h₂).2 ⟨hnames, hscope, hfilters⟩
  rw [ofJson, hfields, hread]
  rfl

theorem SeriesKey.ofJson_eq_ok_iff {v : Json} {k : SeriesKey} :
    SeriesKey.ofJson v = .ok k ↔ NamesSeries v ∧ scopePart v = some (.text k.scope) ∧
      readFilters .empty Filters.ofJson v = .ok k.filters := by
  constructor
  · intro hk
    obtain ⟨f, g, hfields, hoptional, h⟩ := exists_readsSeries
    rw [ofJson, hfields] at hk
    obtain ⟨⟨scope, filters⟩, hr, hmake⟩ := bind_eq_ok.1 hk
    obtain ⟨rfl, rfl⟩ := make_eq_ok_iff.1 (Json.refuse_eq_ok_iff.1 hmake)
    exact (h.toRecord_eq_ok_iff hoptional fun _ _ h₁ h₂ => Prod.ext h₁ h₂).1 hr
  · rintro ⟨hnames, hscope, hfilters⟩
    rw [ofJson_eq hnames hscope hfilters, make_eq_ok_iff.2 ⟨rfl, rfl⟩]
    rfl

theorem SeriesRecord.parts_of_ofJson {v : Json} {r : SeriesRecord}
    (h : SeriesRecord.ofJson v = .ok r) : scopePart v = some (.text r.scope) ∧
      readFilters .empty Filters.ofJson v = .ok r.filters := by
  obtain ⟨f, g, more, hfields, hreads⟩ := exists_readsSeries
  rw [ofJson, hfields] at h
  exact hreads.parts_of_toRecord h

theorem ForecastRequest.parts_of_ofJson {v : Json} {q : ForecastRequest}
    (h : ForecastRequest.ofJson v = .ok q) : scopePart v = some (.text q.series.scope) ∧
      readFilters .empty selectionsOfJson v = .ok q.series.selections := by
  obtain ⟨f, g, more, hfields, hreads⟩ := exists_readsSeries
  rw [ofJson, hfields] at h
  exact hreads.parts_of_toRecord h

theorem Filters.ofJson_eq_ok_iff {v : Json} {f : Filters} :
    Filters.ofJson v = .ok f ↔ ∃ m, selectionsOfJson v = .ok m ∧ ofSelections m = .ok f := by
  rw [Filters.ofJson, bind_eq_ok]
  simp only [Json.refuse_eq_ok_iff]

theorem readFilters_eq_ok_iff {v : Json} {f : Filters} :
    readFilters .empty Filters.ofJson v = .ok f ↔
      ∃ m, readFilters .empty selectionsOfJson v = .ok m ∧ Filters.ofSelections m = .ok f := by
  rw [readFilters, readFilters]
  cases filtersPart v with
  | none =>
    have hempty : Filters.ofSelections .empty = .ok .empty := rfl
    constructor
    · intro h
      exact ⟨.empty, rfl, hempty.trans (congrArg Except.ok (Except.ok.inj h))⟩
    · rintro ⟨m, hm, h⟩
      cases hm
      exact congrArg Except.ok (Except.ok.inj (hempty.symm.trans h))
  | some w => exact Filters.ofJson_eq_ok_iff

theorem SeriesSelector.key_eq_ok_iff {s : SeriesSelector} {k : SeriesKey} :
    s.key = .ok k ↔ s.scope = k.scope ∧ Filters.ofSelections s.selections = .ok k.filters := by
  rw [SeriesSelector.key]
  cases hfilters : Filters.ofSelections s.selections with
  | error e => exact ⟨nofun, fun h => nomatch h.2⟩
  | ok f =>
    change SeriesKey.make s.scope f = .ok k ↔ _
    rw [SeriesKey.make_eq_ok_iff]
    exact and_congr_right fun _ => ⟨fun h => congrArg Except.ok h, fun h => Except.ok.inj h⟩

/-- A key is read where a selector is read that names the key. -/
theorem SeriesKey.ofJson_eq_ok_iff_selector {v : Json} {k : SeriesKey} :
    SeriesKey.ofJson v = .ok k ↔ ∃ s, SeriesSelector.ofJson v = .ok s ∧ s.key = .ok k := by
  rw [ofJson_eq_ok_iff, readFilters_eq_ok_iff]
  constructor
  · rintro ⟨hnames, hscope, m, hm, hfilters⟩
    refine ⟨⟨k.scope, m⟩, ?_, ?_⟩
    · exact SeriesSelector.ofJson_eq_ok_iff.2 ⟨hnames, hscope, hm⟩
    · exact SeriesSelector.key_eq_ok_iff.2 ⟨rfl, hfilters⟩
  · rintro ⟨s, hs, hkey⟩
    obtain ⟨hnames, hscope, hm⟩ := SeriesSelector.ofJson_eq_ok_iff.1 hs
    obtain ⟨hkscope, hfilters⟩ := SeriesSelector.key_eq_ok_iff.1 hkey
    exact ⟨hnames, hkscope ▸ hscope, s.selections, hm, hfilters⟩

theorem SeriesKey.ofJson_of_blank {v : Json} {s : SeriesSelector} {filters : Filters}
    (hs : SeriesSelector.ofJson v = .ok s)
    (hfilters : Filters.ofSelections s.selections = .ok filters)
    (hblank : Text.Blank s.scope) : SeriesKey.ofJson v = .error (.refused .emptyScope) := by
  obtain ⟨hnames, hscope, hm⟩ := SeriesSelector.ofJson_eq_ok_iff.1 hs
  have hmake : make s.scope filters = .error .emptyScope := dif_pos hblank
  rw [ofJson_eq hnames hscope (readFilters_eq_ok_iff.2 ⟨s.selections, hm, hfilters⟩), hmake]
  rfl

namespace SeriesRecord

variable {entries : List (Option String × Json)}

private theorem mem_fieldNames_iff (hnone : ∀ e ∈ entries, e.1 ≠ some "observations") :
    ∀ e ∈ entries, ∀ name, e.1 = some name →
      (name ∈ fieldNames fields ↔ name ∈ ["scoping_id", "dimension_filters"]) := by
  intro e he name hname
  have hne : name ≠ "observations" := fun heq => hnone e he (heq ▸ hname)
  change name ∈ ["scoping_id", "dimension_filters", "observations"] ↔ _
  simp [hne]

private theorem fits_iff_namesSeries (hnone : ∀ e ∈ entries, e.1 ≠ some "observations") :
    Fits (fieldNames fields) (requiredNames fields) [] entries ↔ NamesSeries (.object entries) :=
  Json.fits_congr (mem_fieldNames_iff hnone)

theorem exists_ofJson (hnone : ∀ e ∈ entries, e.1 ≠ some "observations") {scope : String}
    {filters : Filters} (hnames : NamesSeries (.object entries))
    (hscope : scopePart (.object entries) = some (.text scope))
    (hfilters : readFilters .empty Filters.ofJson (.object entries) = .ok filters) :
    ∃ r, ofJson (.object entries) = .ok r ∧ r.scope = scope ∧ r.filters = filters := by
  obtain ⟨f, g, more, hfields, hreads⟩ := exists_readsSeries
  have hfits := (fits_iff_namesSeries hnone).2 hnames
  have hknown := mem_fieldNames_iff hnone
  have hexists : ∃ r, ofJson (.object entries) = .ok r := by
    rw [ofJson, hfields]
    rw [hfields] at hfits hknown
    apply hreads.exists_readFields hfits
    · intro e he name hname hmem
      simpa using (hknown e he name hname).1 hmem
    · exact fun v hv => ⟨scope, Option.some.inj (hv.symm.trans hscope)⟩
    · intro v hv
      rw [readFilters, filtersPart, hv] at hfilters
      exact ⟨filters, hfilters⟩
  obtain ⟨r, hr⟩ := hexists
  obtain ⟨hscope', hfilters'⟩ := parts_of_ofJson hr
  refine ⟨r, hr, ?_, ?_⟩
  · exact text_inj (Option.some.inj (hscope'.symm.trans hscope))
  · exact Except.ok.inj (hfilters'.symm.trans hfilters)

end SeriesRecord

theorem SeriesKey.ofJson_eq_ok_iff_record {entries : List (Option String × Json)}
    (hnone : ∀ e ∈ entries, e.1 ≠ some "observations") {k : SeriesKey} :
    SeriesKey.ofJson (.object entries) = .ok k ↔
      ∃ r, SeriesRecord.ofJson (.object entries) = .ok r ∧ r.key = .ok k := by
  rw [ofJson_eq_ok_iff]
  constructor
  · rintro ⟨hnames, hscope, hfilters⟩
    obtain ⟨r, hr, hparts⟩ := SeriesRecord.exists_ofJson hnone hnames hscope hfilters
    exact ⟨r, hr, SeriesRecord.key_eq_ok_iff.2 hparts⟩
  · rintro ⟨r, hr, hkey⟩
    obtain ⟨hkscope, hkfilters⟩ := SeriesRecord.key_eq_ok_iff.1 hkey
    obtain ⟨hscope, hfilters⟩ := SeriesRecord.parts_of_ofJson hr
    have hnames := (SeriesRecord.fits_iff_namesSeries hnone).1 (Json.fits_of_readFields hr)
    exact ⟨hnames, hkscope ▸ hscope, hkfilters ▸ hfilters⟩

end LagForecast
