import LagForecast.Proofs.Server.Results

/-!
# Requests and settings that are read back

Requests and settings are read back from what is printed for them, also where the settings of a
request stand among its other entries.  With the results they make up all that goes over the wire,
and each text of them that is accepted is printed in a form that printing it again does not change.
-/

set_option autoImplicit false

namespace LagForecast

open Json (Faithful Printable Nat64 Int64 decode faithful_nat64 faithful_int64 faithful_float)

private theorem Selection.faithful : Faithful ofJson toJson fun _ => True where
  printable := printable_selection
  read_back s _ := s.ofJson_toJson
  writable_of_read _ _ _ := trivial

private theorem printable_selections (l : List (String × Selection)) :
    Printable (selectionsToJson l) := by
  apply Json.printable_record
  intro e he
  obtain ⟨p, -, rfl⟩ := List.mem_map.1 he
  exact printable_selection p.2

private theorem selectionsOfJson_selectionsToJson (m : OrderedMap String Selection) :
    selectionsOfJson (selectionsToJson m.entries) = .ok m := by
  rw [selectionsToJson, Json.record, selectionsOfJson,
    decodeEntries_record Selection.ofJson_toJson]
  exact congrArg Except.ok (OrderedMap.ofList_entries m)

namespace SeriesSelector

private theorem ofJson_toJson (s : SeriesSelector) : ofJson s.toJson = .ok s := by
  have hselections := selectionsOfJson_selectionsToJson s.selections
  rw [toJson, ofJson, Json.toRecord_record rfl (by decide)]
  simp only [List.map_cons, List.map_nil, fields, Json.readPositions, hselections]
  rfl

private theorem faithful : Faithful ofJson toJson fun _ => True where
  printable s := by
    apply Json.printable_record
    simp [Printable.text, printable_selections]
  read_back s _ := s.ofJson_toJson
  writable_of_read _ _ _ := trivial

end SeriesSelector

namespace ForecastRequest

def Writable (r : ForecastRequest) : Prop := Int64 r.horizonPeriods

private theorem ofJson_toJson {r : ForecastRequest} (h : r.Writable) : ofJson r.toJson = .ok r := by
  have hselections := selectionsOfJson_selectionsToJson r.series.selections
  have hhorizon : (Json.toInt64 (.int r.horizonPeriods) : Wire Int) = .ok r.horizonPeriods :=
    faithful_int64.read_back _ h
  rw [toJson, ofJson, Json.toRecord_record rfl (by decide)]
  simp only [List.map_cons, List.map_nil, fields, SeriesSelector.fields, List.cons_append,
    List.nil_append, Json.readPositions, hselections, hhorizon]
  rfl

private theorem writable_of_ofJson {v : Json} {r : ForecastRequest} (h : ofJson v = .ok r) :
    r.Writable := by
  have hstart : Writable default := ⟨by decide, by decide⟩
  apply Json.of_toRecord h hstart
  intro f hf
  simp only [fields, SeriesSelector.fields, List.map_cons, List.map_nil, List.cons_append,
    List.nil_append, List.mem_cons, List.not_mem_nil, or_false] at hf
  have keeps {x : Wire SeriesSelector} {r r' : ForecastRequest} (hr : r.Writable)
      (hset : (do return { r with series := ← x }) = Except.ok r') : r'.Writable := by
    obtain ⟨s, -, hset⟩ := bind_eq_ok.1 hset
    cases hset
    exact hr
  rcases hf with rfl | rfl | rfl
  · exact fun _ _ _ => keeps
  · exact fun _ _ _ => keeps
  · exact Json.kept_of_set fun v _ i _ hi => faithful_int64.writable_of_read v i hi

private theorem faithful : Faithful ofJson toJson Writable where
  printable r := by
    apply Json.printable_record
    simp [Printable.text, printable_selections, Json.printable_int]
  read_back _ := ofJson_toJson
  writable_of_read _ _ := writable_of_ofJson

end ForecastRequest

namespace VarianceConfig

def Writable (c : VarianceConfig) : Prop := c.noiseThreshold.isFinite = true

section Names

variable {toName : {α : Type} → List (String × α) → Json → Wire α}

private theorem toRecord_entries
    (hname : ∀ {α : Type} (names : List (String × α)) (s : String),
      toName names (.text s) = Json.present (names.lookup s))
    {c : VarianceConfig} (h : c.Writable) :
    (Json.record c.entries).toRecord (fieldsWith toName) {} = .ok c := by
  have hthreshold : (Json.toFloat (.float c.noiseThreshold) : Wire Float) = .ok c.noiseThreshold :=
    faithful_float.read_back _ h
  have hdirection : toName Direction.names (.text c.direction.name) = .ok c.direction := by
    rw [hname]
    cases c.direction <;> rfl
  have hmissing : toName MissingPolicy.names (.text c.missing.name) = .ok c.missing := by
    rw [hname]
    cases c.missing <;> rfl
  have hdistinct : (Json.fieldNames (fieldsWith toName)).Nodup := by
    change ["direction", "noise_threshold", "missing", "output_percent"].Nodup
    decide
  rw [entries, Json.toRecord_record rfl hdistinct]
  simp only [List.map_cons, List.map_nil, fieldsWith, Json.readPositions, hthreshold, hdirection,
    hmissing]
  rfl

private theorem writable_of_toRecord {v : Json} {c : VarianceConfig}
    (h : v.toRecord (fieldsWith toName) {} = .ok c) : c.Writable := by
  have hstart : Writable {} := by
    change (0.0 : Float).isFinite = true
    decide +kernel
  apply Json.of_toRecord h hstart
  intro f hf
  simp only [fieldsWith, List.mem_cons, List.not_mem_nil, or_false] at hf
  rcases hf with rfl | rfl | rfl | rfl
  · exact Json.kept_of_set fun _ _ _ hr _ => hr
  · exact Json.kept_of_set fun v _ x _ hx => faithful_float.writable_of_read v x hx
  · exact Json.kept_of_set fun _ _ _ hr _ => hr
  · exact Json.kept_of_set fun _ _ _ hr _ => hr

end Names

private theorem printable_entries (c : VarianceConfig) : ∀ e ∈ c.entries, Printable e.2 := by
  simp [entries, Printable.text, Printable.bool, Json.printable_float]

private theorem faithful : Faithful ofJson toJson Writable where
  printable c := Json.printable_record c.printable_entries
  read_back _ := toRecord_entries fun _ _ => rfl
  writable_of_read _ _ := writable_of_toRecord

end VarianceConfig

namespace VarianceRequest

def Writable (r : VarianceRequest) : Prop := r.config.Writable

private theorem sortEntries_others {entries : List (String × Json)}
    (hnames : ∀ e ∈ entries, e.1 ≠ "base" ∧ e.1 ≠ "compare")
    (hsound : ∀ e ∈ entries, e.2.sound (Json.depthLimit - 1) = true) (parts : Parts) :
    sortEntries parts (entries.map fun e => (some e.1, e.2)) =
      .ok { parts with
        others := (entries.map fun e => (some e.1, e.2)).reverse ++ parts.others } := by
  induction entries generalizing parts with
  | nil => rfl
  | cons e rest ih =>
    obtain ⟨hbase, hcompare⟩ := hnames e List.mem_cons_self
    rw [List.map_cons, sortEntries, if_neg hbase, if_neg hcompare,
      if_pos (hsound e List.mem_cons_self),
      ih (fun e he => hnames e (List.mem_cons_of_mem _ he)) fun e he =>
        hsound e (List.mem_cons_of_mem _ he)]
    simp

private theorem sound_config_entries {c : VarianceConfig} (h : c.Writable) (room : Nat) :
    ∀ e ∈ c.entries, e.2.sound room = true := by
  simp [VarianceConfig.entries, Json.sound_text, Json.sound_float h, Json.sound]

private theorem ofJson_toJson {r : VarianceRequest} (h : r.Writable) : ofJson r.toJson = .ok r := by
  have hnames : ∀ e ∈ r.config.entries, e.1 ≠ "base" ∧ e.1 ≠ "compare" := by
    simp [VarianceConfig.entries]
  have hothers := sortEntries_others hnames (sound_config_entries h _)
    { base := some r.base, compare := some r.compare }
  have hsort : sortEntries {} ((some "base", r.base.toJson) ::
      (some "compare", r.compare.toJson) ::
      r.config.entries.map fun e => (some e.1, e.2)) =
      .ok ⟨some r.base, some r.compare,
        (r.config.entries.map fun e => (some e.1, e.2)).reverse ++ []⟩ := by
    rw [sortEntries, if_pos rfl, if_neg (by simp), r.base.ofJson_toJson]
    change sortEntries { base := some r.base } _ = _
    rw [sortEntries, if_neg (by decide), if_pos rfl, if_neg (by simp), r.compare.ofJson_toJson]
    exact hothers
  have hconfig : (Json.object (r.config.entries.map fun e => (some e.1, e.2))).toRecord
      (VarianceConfig.fieldsWith toName) {} = .ok r.config :=
    VarianceConfig.toRecord_entries (fun _ _ => rfl) h
  change (sortEntries {} ((some "base", r.base.toJson) :: (some "compare", r.compare.toJson) ::
    r.config.entries.map fun e => (some e.1, e.2)) >>= _) = _
  rw [hsort]
  change ((Json.object (_ ++ []).reverse).toRecord (VarianceConfig.fieldsWith toName) {} >>= _) = _
  rw [List.append_nil, List.reverse_reverse, hconfig]
  rfl

private theorem writable_of_ofJson {v : Json} {r : VarianceRequest} (h : ofJson v = .ok r) :
    r.Writable := by
  cases v with
  | object entries =>
    obtain ⟨parts, -, h⟩ := bind_eq_ok.1 h
    split at h
    · obtain ⟨config, hconfig, h⟩ := bind_eq_ok.1 h
      cases h
      exact VarianceConfig.writable_of_toRecord hconfig
    · cases h
  | null | bool | number | string | array | broken => cases h

private theorem faithful : Faithful ofJson toJson Writable where
  printable r := by
    apply Json.printable_record
    rw [List.forall_mem_append]
    refine ⟨?_, r.config.printable_entries⟩
    simp [SeriesSelector.faithful.printable]
  read_back _ := ofJson_toJson
  writable_of_read _ _ := writable_of_ofJson

end VarianceRequest

namespace LagConfig

structure Writable (c : LagConfig) : Prop where
  order : Nat64 c.order
  weights : ∀ l, c.weights = some l → ∀ w ∈ l, w.isFinite = true

private theorem faithful_weights :
    Faithful (Json.toOption (Json.toList Json.toFloat) : Json → Wire (Option (List Float)))
      (fun o => o.elim .null fun l => .array (l.map .float))
      fun o => ∀ l, o = some l → ∀ w ∈ l, w.isFinite = true :=
  faithful_float.list.option fun _ _ => nofun

private theorem ofJson_toJson {c : LagConfig} (h : c.Writable) : ofJson c.toJson = .ok c := by
  have horder : (Json.toNat64 (.int c.order) : Wire Nat) = .ok c.order :=
    faithful_nat64.read_back _ h.order
  have hweights := faithful_weights.read_back c.weights h.weights
  rw [toJson, ofJson, Json.toRecord_record rfl (by decide)]
  simp only [List.map_cons, List.map_nil, fields, Json.readPositions, horder, hweights]
  rfl

private theorem writable_of_ofJson {v : Json} {c : LagConfig} (h : ofJson v = .ok c) :
    c.Writable := by
  have hstart : Writable {} := ⟨by unfold Nat64; decide, nofun⟩
  apply Json.of_toRecord h hstart
  intro f hf
  simp only [fields, List.mem_cons, List.not_mem_nil, or_false] at hf
  rcases hf with rfl | rfl | rfl
  · exact Json.kept_of_set fun v _ n hr hn =>
      { hr with order := faithful_nat64.writable_of_read v n hn }
  · exact Json.kept_of_set fun v _ o hr ho =>
      { hr with weights := faithful_weights.writable_of_read v o ho }
  · exact Json.kept_of_set fun _ _ _ hr _ => { hr with }

private theorem faithful : Faithful ofJson toJson Writable where
  printable c := by
    apply Json.printable_record
    have hweights := faithful_weights.printable c.weights
    simp [Printable.bool, Json.printable_int, hweights]
  read_back _ := ofJson_toJson
  writable_of_read _ _ := writable_of_ofJson

end LagConfig

namespace ForecasterConfig

structure Writable (c : ForecasterConfig) : Prop where
  model : c.model.Writable
  maxHorizon : Nat64 c.maxHorizon

private theorem ofJson_toJson {c : ForecasterConfig} (h : c.Writable) :
    ofJson c.toJson = .ok c := by
  have hmodel := LagConfig.ofJson_toJson h.model
  have hcap : (Json.toNat64 (.int c.maxHorizon) : Wire Nat) = .ok c.maxHorizon :=
    faithful_nat64.read_back _ h.maxHorizon
  rw [toJson, ofJson, Json.toRecord_record rfl (by decide)]
  simp only [List.map_cons, List.map_nil, fields, Json.readPositions, hmodel, hcap]
  rfl

private theorem writable_of_ofJson {v : Json} {c : ForecasterConfig} (h : ofJson v = .ok c) :
    c.Writable := by
  have hstart : Writable {} :=
    ⟨⟨by unfold Nat64; decide, nofun⟩, by unfold Nat64; decide⟩
  apply Json.of_toRecord h hstart
  intro f hf
  simp only [fields, List.mem_cons, List.not_mem_nil, or_false] at hf
  rcases hf with rfl | rfl
  · exact Json.kept_of_set fun _ _ _ hr hm => { hr with model := LagConfig.writable_of_ofJson hm }
  · exact Json.kept_of_set fun v _ n hr hn =>
      { hr with maxHorizon := faithful_nat64.writable_of_read v n hn }

private theorem faithful : Faithful ofJson toJson Writable where
  printable c := by
    apply Json.printable_record
    simp [Json.printable_int, LagConfig.faithful.printable]
  read_back _ := ofJson_toJson
  writable_of_read _ _ := writable_of_ofJson

end ForecasterConfig

namespace StoreConfig

private theorem ofJson_toJson (c : StoreConfig) : ofJson c.toJson = .ok c := by
  cases c with
  | memory seed =>
    have hsound : ∀ e ∈ [("seed", seed.elim Json.null .text)], e.2.sound 126 = true := by
      cases seed <;> simp [Json.sound_text, Json.sound]
    refine (Json.toTagged_record hsound (by simp) rfl).trans ?_
    rw [Json.toRecord_record rfl (by decide)]
    cases seed <;> rfl
  | jsonFile path =>
    have hsound : ∀ e ∈ [("path", Json.text path)], e.2.sound 126 = true := by
      simp [Json.sound_text]
    refine (Json.toTagged_record hsound (by simp) rfl).trans ?_
    rw [Json.toRecord_record rfl (by decide)]
    rfl

private theorem faithful : Faithful ofJson toJson fun _ => True where
  printable c := by
    cases c with
    | memory seed =>
      apply Json.printable_record
      cases seed <;> simp [Printable.text, Printable.null]
    | jsonFile path =>
      apply Json.printable_record
      simp [Printable.text]
  read_back c _ := c.ofJson_toJson
  writable_of_read _ _ _ := trivial

end StoreConfig

/-- Values that can be written are read back from their text, whatever is read can be written, and
what is printed for an accepted text holds the same and is printed again as it is. -/
structure RoundTrips {α : Type} (ofJson : Json → Wire α) (toJson : α → Json)
    (writable : α → Prop) : Prop where
  read_back : ∀ a, writable a → decode ofJson (Text.bytes (toJson a).compact) = .ok a
  writable_of_read : ∀ t a, decode ofJson t = .ok a → writable a
  settled : ∀ t p, reprinted ofJson toJson t = .ok p →
    decode ofJson p = decode ofJson t ∧ reprinted ofJson toJson p = .ok p

private theorem Json.Faithful.roundTrips {α : Type} {ofJson : Json → Wire α} {toJson : α → Json}
    {writable : α → Prop} (h : Faithful ofJson toJson writable) :
    RoundTrips ofJson toJson writable := by
  have hback (a : α) (ha : writable a) : decode ofJson (Text.bytes (toJson a).compact) = .ok a :=
    (Json.decode_compact (h.printable a)).trans (h.read_back a ha)
  have hwritable (t : List UInt8) (a : α) (ht : decode ofJson t = .ok a) : writable a :=
    h.writable_of_read _ a (Json.decode_eq_ok.1 ht).1
  refine ⟨hback, hwritable, fun t p hp => ?_⟩
  obtain ⟨a, ht, rfl⟩ := reprinted_eq_ok hp
  have hdecoded := hback a (hwritable t a ht)
  refine ⟨hdecoded.trans ht.symm, ?_⟩
  rw [reprinted, hdecoded]
  rfl

/-- Requests, settings and results are read back from what is printed for them, where numbers have
the width of their types and are finite, as they are in whatever is read; and a forecast of a lag
model over periods that can be counted can always be written, for a series or without one. -/
theorem wire_round_trips :
    RoundTrips ForecastRequest.ofJson ForecastRequest.toJson ForecastRequest.Writable ∧
      RoundTrips SeriesSelector.ofJson SeriesSelector.toJson (fun _ => True) ∧
      RoundTrips Selection.ofJson Selection.toJson (fun _ => True) ∧
      RoundTrips VarianceRequest.ofJson VarianceRequest.toJson VarianceRequest.Writable ∧
      RoundTrips LagConfig.ofJson LagConfig.toJson LagConfig.Writable ∧
      RoundTrips ForecasterConfig.ofJson ForecasterConfig.toJson ForecasterConfig.Writable ∧
      RoundTrips VarianceConfig.ofJson VarianceConfig.toJson VarianceConfig.Writable ∧
      RoundTrips StoreConfig.ofJson StoreConfig.toJson (fun _ => True) ∧
      RoundTrips (ForecastFlag.ofJson Json.depthLimit) ForecastFlag.toJson
        ForecastFlag.Writable ∧
      RoundTrips (ForecastMetadata.ofJson Json.depthLimit) ForecastMetadata.toJson
        ForecastMetadata.Writable ∧
      RoundTrips VarianceReport.ofJson VarianceReport.toJson VarianceReport.Writable ∧
      RoundTrips ForecastVector.ofJson ForecastVector.toJson ForecastVector.Writable ∧
      ∀ (m : LagModel Float) (h : History) (horizon : Horizon) (v : ForecastVector),
        Nat64 m.order → (∀ o ∈ h.observations, o.Counted) →
        runModel m.toBaseline h horizon = .ok v → ∀ series,
          let w : ForecastVector := { v with metadata := { v.metadata with series } }
          decode ForecastVector.ofJson (Text.bytes w.toJson.compact) = .ok w := by
  refine ⟨ForecastRequest.faithful.roundTrips, SeriesSelector.faithful.roundTrips,
    Selection.faithful.roundTrips, VarianceRequest.faithful.roundTrips,
    LagConfig.faithful.roundTrips, ForecasterConfig.faithful.roundTrips,
    VarianceConfig.faithful.roundTrips, StoreConfig.faithful.roundTrips,
    (ForecastFlag.faithful 126).roundTrips, (ForecastMetadata.faithful 124).roundTrips,
    VarianceReport.faithful.roundTrips, ForecastVector.faithful.roundTrips, ?_⟩
  intro m h horizon v horder hcounted hrun series w
  exact ForecastVector.faithful.roundTrips.read_back w
    (writable_of_runModel horder hcounted hrun series)

/-- The forecast of one value after one observation, for a series and without one. -/
theorem wire_round_trips_of_one_observation :
    let h : History := ⟨[⟨1, 2.0⟩], by simp, by simp; rfl, List.pairwise_singleton _ _⟩
    ∃ v, runModel LagModel.standard.toBaseline h ⟨1, Nat.one_pos⟩ = .ok v ∧ ∀ series,
      let w : ForecastVector := { v with metadata := { v.metadata with series } }
      decode ForecastVector.ofJson (Text.bytes w.toJson.compact) = .ok w := by
  intro h
  have hraw : ∀ s < 1, (LagModel.standard.rawAt h s).isFinite = true := by
    intro s hs
    obtain rfl : s = 0 := by omega
    decide +kernel
  have hrun : runModel LagModel.standard.toBaseline h ⟨1, Nat.one_pos⟩ = _ :=
    runModel_of_finite (by decide) (by decide) hraw
  have hcounted : ∀ o ∈ h.observations, o.Counted := by
    intro o ho
    rw [List.mem_singleton.1 ho]
    exact ⟨by decide, by decide⟩
  obtain ⟨-, -, -, -, -, -, -, -, -, -, -, -, hvector⟩ := wire_round_trips
  exact ⟨_, hrun, hvector _ h _ _ (by unfold Nat64; decide) hcounted hrun⟩

end LagForecast
