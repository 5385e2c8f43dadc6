import LagForecast.Proofs.Forecast.Cascade
import LagForecast.Proofs.Json.Faithful
import LagForecast.Proofs.Server.Replies
import LagForecast.Proofs.Store.Persistence

/-!
# Results that are read back

Flags, metadata, forecasts and comparisons are read back from what is printed for them, whether or
not the entries that may be left out are.  Counts and periods have 64 bits and values are finite in
whatever is read.
-/

set_option autoImplicit false

namespace LagForecast

open Json (Faithful Nat64 Int64 faithful_nat64 faithful_int64 faithful_float)

namespace ForecastFlag

def Writable : ForecastFlag → Prop
  | insufficientHistory available required => Nat64 available ∧ Nat64 required
  | clamped steps => Nat64 steps

private theorem ofJson_toJson {flag : ForecastFlag} (h : flag.Writable) (room : Nat) :
    ofJson (room + 1) flag.toJson = .ok flag := by
  cases flag with
  | insufficientHistory available required =>
    have hsound : ∀ e ∈ [("available", Json.int available), ("required", Json.int required)],
        e.2.sound room = true := by
      simp [Json.sound_nat64 h.1, Json.sound_nat64 h.2]
    refine (Json.toTagged_record hsound (by simp) rfl).trans ?_
    rw [Json.toRecord_record rfl (by decide)]
    simp only [List.map_cons, List.map_nil, shortFields, Json.readPositions,
      faithful_nat64.read_back _ h.1, faithful_nat64.read_back _ h.2]
    rfl
  | clamped steps =>
    have hsound : ∀ e ∈ [("steps", Json.int steps)], e.2.sound room = true := by
      simp [Json.sound_nat64 (n := steps) h]
    refine (Json.toTagged_record hsound (by simp) rfl).trans ?_
    rw [Json.toRecord_record rfl (by decide)]
    simp only [List.map_cons, List.map_nil, clampedFields, Json.readPositions,
      faithful_nat64.read_back _ h]
    rfl

private theorem writable_of_ofJson {room : Nat} {v : Json} {flag : ForecastFlag}
    (h : ofJson room v = .ok flag) : flag.Writable := by
  obtain ⟨p, hp, w, hw⟩ := Json.exists_of_toTagged h
  rcases List.mem_cons.1 hp with rfl | hp
  · obtain ⟨r, hr, rfl⟩ := map_eq_ok.1 hw
    have hstart : Nat64 0 ∧ Nat64 0 := ⟨Nat.zero_le _, Nat.zero_le _⟩
    refine Json.of_toRecord (P := fun r : Nat × Nat => Nat64 r.1 ∧ Nat64 r.2) hr hstart ?_
    exact List.forall_mem_cons.2 ⟨
      Json.kept_of_set fun v r n hr hn => ⟨faithful_nat64.writable_of_read v n hn, hr.2⟩,
      List.forall_mem_singleton.2 (Json.kept_of_set fun v r n hr hn =>
        ⟨hr.1, faithful_nat64.writable_of_read v n hn⟩)⟩
  · obtain rfl := List.mem_singleton.1 hp
    obtain ⟨n, hn, rfl⟩ := map_eq_ok.1 hw
    have hstart : Nat64 0 := Nat.zero_le _
    refine Json.of_toRecord (P := Nat64) hn hstart ?_
    exact List.forall_mem_singleton.2 fun v _ n _ hn => faithful_nat64.writable_of_read v n hn

theorem faithful (room : Nat) : Faithful (ofJson (room + 1)) toJson Writable where
  printable := printable_flag
  read_back _ h := ofJson_toJson h room
  writable_of_read _ _ := writable_of_ofJson

end ForecastFlag

namespace ForecastMetadata

structure Writable (m : ForecastMetadata) : Prop where
  order : Nat64 m.order
  window : Nat64 m.window
  historyLength : Nat64 m.historyLength
  flags : ∀ flag ∈ m.flags, flag.Writable

/-- What is written for each field, where a series that is not there is left out. -/
def slots (m : ForecastMetadata) : List (Option Json) :=
  [m.series.map .text, some (.text m.model), some (.int m.order), some (.int m.window),
    some (.int m.historyLength), some (.array (m.flags.map ForecastFlag.toJson))]

private theorem toJson_eq_written (m : ForecastMetadata) (room : Nat) :
    m.toJson = .record (Json.written ((fields room).zip m.slots)) := by
  obtain ⟨series, model, order, window, historyLength, flags⟩ := m
  cases series <;> rfl

private theorem ofJson_toJson {m : ForecastMetadata} (h : m.Writable) (room : Nat) :
    ofJson (room + 3) m.toJson = .ok m := by
  have hflags : Json.toList (ForecastFlag.ofJson (room + 3 - 2))
      (.array (m.flags.map ForecastFlag.toJson)) = .ok m.flags :=
    (ForecastFlag.faithful room).list.read_back m.flags h.flags
  have hdistinct : (Json.fieldNames (fields (room + 3))).Nodup := by
    change ["series", "model", "order", "window", "history_len", "flags"].Nodup
    decide
  have hall : (fields (room + 3)).length ≤ m.slots.length := Nat.le_refl 6
  have hrequired : ∀ p ∈ (fields (room + 3)).zip m.slots,
      p.1.required = true → p.2.isSome = true := by
    simp [fields, slots]
  rw [toJson_eq_written m (room + 3), ofJson,
    Json.toRecord_written default hdistinct hall hrequired]
  have horder : (Json.toNat64 (.int m.order) : Wire Nat) = .ok m.order :=
    faithful_nat64.read_back _ h.order
  have hwindow : (Json.toNat64 (.int m.window) : Wire Nat) = .ok m.window :=
    faithful_nat64.read_back _ h.window
  have hlength : (Json.toNat64 (.int m.historyLength) : Wire Nat) = .ok m.historyLength :=
    faithful_nat64.read_back _ h.historyLength
  obtain ⟨series, model, order, window, historyLength, flags⟩ := m
  cases series <;>
    simp only [fields, slots, Option.map, List.zip_cons_cons, List.zip_nil_left, Json.storeAll,
      horder, hwindow, hlength, hflags]
  · rfl
  · rfl

private theorem writable_of_ofJson {room : Nat} {v : Json} {m : ForecastMetadata}
    (h : ofJson room v = .ok m) : m.Writable := by
  have hstart : Writable default := ⟨Nat.zero_le _, Nat.zero_le _, Nat.zero_le _, nofun⟩
  apply Json.of_toRecord h hstart
  intro f hf
  simp only [fields, List.mem_cons, List.not_mem_nil, or_false] at hf
  rcases hf with rfl | rfl | rfl | rfl | rfl | rfl
  · exact Json.kept_of_set fun _ _ _ hr _ => { hr with }
  · exact Json.kept_of_set fun _ _ _ hr _ => { hr with }
  · exact Json.kept_of_set fun v _ n hr hn =>
      { hr with order := faithful_nat64.writable_of_read v n hn }
  · exact Json.kept_of_set fun v _ n hr hn =>
      { hr with window := faithful_nat64.writable_of_read v n hn }
  · exact Json.kept_of_set fun v _ n hr hn =>
      { hr with historyLength := faithful_nat64.writable_of_read v n hn }
  · refine Json.kept_of_set fun v _ l hr hl => { hr with flags := fun flag hflag => ?_ }
    cases v with
    | array items =>
      obtain ⟨w, -, hw⟩ := Json.mem_of_decodeAll hl hflag
      exact ForecastFlag.writable_of_ofJson hw
    | null | bool | number | string | object | broken => cases hl

theorem faithful (room : Nat) : Faithful (ofJson (room + 3)) toJson Writable where
  printable := printable_metadata
  read_back _ h := ofJson_toJson h room
  writable_of_read _ _ := writable_of_ofJson

end ForecastMetadata

namespace ForecastVector

/-- A forecast with finite values, whose first period and counts have 64 bits. -/
structure Writable (f : ForecastVector) : Prop where
  values : ∀ x ∈ f.values, x.isFinite = true
  startPeriod : Int64 f.startPeriod
  metadata : f.metadata.Writable

private theorem ofJson_toJson {f : ForecastVector} (h : f.Writable) : ofJson f.toJson = .ok f := by
  have hvalues : (Json.toList Json.toFloat (.array (f.values.map .float)) : Wire (List Float)) =
      .ok f.values :=
    faithful_float.list.read_back _ h.values
  have hstart : (Json.toInt64 (.int f.startPeriod) : Wire Int) = .ok f.startPeriod :=
    faithful_int64.read_back _ h.startPeriod
  have hmetadata : ForecastMetadata.ofJson (Json.depthLimit - 1) f.metadata.toJson =
      .ok f.metadata :=
    ForecastMetadata.ofJson_toJson h.metadata 123
  rw [toJson, ofJson, Json.toRecord_record rfl (by decide)]
  simp only [List.map_cons, List.map_nil, fields, Json.readPositions, hvalues, hstart, hmetadata]
  rfl

private theorem writable_of_ofJson {v : Json} {f : ForecastVector} (h : ofJson v = .ok f) :
    f.Writable := by
  have hstart : Writable default :=
    ⟨nofun, ⟨by decide, by decide⟩, ⟨Nat.zero_le _, Nat.zero_le _, Nat.zero_le _, nofun⟩⟩
  apply Json.of_toRecord h hstart
  intro f hf
  simp only [fields, List.mem_cons, List.not_mem_nil, or_false] at hf
  rcases hf with rfl | rfl | rfl
  · exact Json.kept_of_set fun v _ l hr hl =>
      { hr with values := faithful_float.list.writable_of_read v l hl }
  · exact Json.kept_of_set fun v _ i hr hi =>
      { hr with startPeriod := faithful_int64.writable_of_read v i hi }
  · exact Json.kept_of_set fun _ _ _ hr hm =>
      { hr with metadata := ForecastMetadata.writable_of_ofJson hm }

theorem faithful : Faithful ofJson toJson Writable where
  printable := printable_vector
  read_back _ := ofJson_toJson
  writable_of_read _ _ := writable_of_ofJson

end ForecastVector

/-- Increasing periods are no more than there is room for. -/
theorem length_le_of_increasing {l : List Observation} (hne : l ≠ [])
    (h : l.Pairwise fun a b => a.period < b.period) :
    (l.head hne).period + l.length ≤ (l.getLast hne).period + 1 := by
  induction l with
  | nil => exact absurd rfl hne
  | cons a rest ih =>
    cases rest with
    | nil =>
      change a.period + 1 ≤ a.period + 1
      omega
    | cons b rest =>
      obtain ⟨hfirst, hrest⟩ := List.pairwise_cons.1 h
      have hab := hfirst b List.mem_cons_self
      have hroom := ih (List.cons_ne_nil b rest) hrest
      rw [List.getLast_cons (List.cons_ne_nil b rest)]
      change b.period + _ ≤ _ at hroom
      change a.period + _ ≤ _
      rw [List.length_cons]
      push_cast at hroom ⊢
      omega

private theorem eq_continuation_of_runModel {m : LagModel Float} {h : History} {horizon : Horizon}
    {v : ForecastVector} (hrun : runModel m.toBaseline h horizon = .ok v) :
    h.lastPeriod + horizon.steps ≤ lastPossiblePeriod ∧
      (∀ s < horizon.steps, (m.rawAt h s).isFinite = true) ∧
      v = m.continuation h horizon.steps none := by
  by_cases hlast : h.lastPeriod + horizon.steps ≤ lastPossiblePeriod
  · cases hp : m.project h horizon with
    | stopped =>
      have hstopped : runModel m.toBaseline h horizon = .stopped := runModel_of_stopped hlast hp
      cases hrun.symm.trans hstopped
    | error e =>
      have hfailed : runModel m.toBaseline h horizon = .error e := runModel_of_error hlast hp
      cases hrun.symm.trans hfailed
    | ok p =>
      obtain ⟨hsteps, hall, -⟩ := LagModel.project_eq_ok.1 hp
      exact ⟨hlast, hall, Attempt.ok.inj (hrun.symm.trans (runModel_of_finite hlast hsteps hall))⟩
  · rw [runModel_of_overflow (by omega)] at hrun
    cases hrun

private theorem writable_continuation {m : LagModel Float} {h : History} {n : Nat}
    (horder : Nat64 m.order) (hcounted : ∀ o ∈ h.observations, o.Counted) (hn : 0 < n)
    (hlast : h.lastPeriod + n ≤ lastPossiblePeriod)
    (hraw : ∀ s < n, (m.rawAt h s).isFinite = true) (series : Option String) :
    (m.continuation h n series).Writable := by
  have hfirst : -0x8000000000000000 ≤ h.firstPeriod := (hcounted _ (List.head_mem h.nonempty)).1
  have hleast : -0x8000000000000000 ≤ h.lastPeriod := (hcounted _ (List.getLast_mem h.nonempty)).1
  have hroom : h.firstPeriod + h.size ≤ h.lastPeriod + 1 :=
    length_le_of_increasing h.nonempty h.increasing
  have hmoved : m.movedSteps h n ≤ n := by
    have hcount := List.countP_le_length
      (p := fun s => (confine (m.limits h) (m.rawAt h s)).2) (l := List.range n)
    rwa [List.length_range] at hcount
  unfold lastPossiblePeriod at hlast
  refine ⟨?_, ⟨?_, ?_⟩, ⟨horder, ?_, ?_, ?_⟩⟩
  · intro x hx
    obtain ⟨s, hs, rfl⟩ := List.mem_map.1 hx
    exact LagModel.valueAt_finite (hraw s (List.mem_range.1 hs))
  · change _ ≤ h.lastPeriod + 1
    omega
  · change h.lastPeriod + 1 ≤ _
    omega
  · exact (Nat.min_le_right _ _).trans horder
  · change h.size ≤ 0xFFFFFFFFFFFFFFFF
    omega
  · intro flag hflag
    change flag ∈ forecastFlags h.size m.order (m.movedSteps h n) at hflag
    rcases List.mem_append.1 hflag with hflag | hflag
    · split at hflag
      · rw [List.mem_singleton.1 hflag]
        refine ⟨?_, horder⟩
        change h.size ≤ 0xFFFFFFFFFFFFFFFF
        omega
      · cases hflag
    · split at hflag
      · rw [List.mem_singleton.1 hflag]
        change m.movedSteps h n ≤ 0xFFFFFFFFFFFFFFFF
        omega
      · cases hflag

/-- A forecast of a lag model can be written, for a series or without one. -/
theorem writable_of_runModel {m : LagModel Float} {h : History} {horizon : Horizon}
    {v : ForecastVector} (horder : Nat64 m.order) (hcounted : ∀ o ∈ h.observations, o.Counted)
    (hrun : runModel m.toBaseline h horizon = .ok v) (series : Option String) :
    ForecastVector.Writable { v with metadata := { v.metadata with series } } := by
  obtain ⟨hlast, hraw, rfl⟩ := eq_continuation_of_runModel hrun
  exact writable_continuation horder hcounted horizon.positive hlast hraw series

namespace VariancePoint

structure Writable (p : VariancePoint) : Prop where
  period : Int64 p.period
  base : p.base.isFinite = true
  compare : p.compare.isFinite = true
  delta : p.delta.isFinite = true
  percent : ∀ x, p.percent = some x → x.isFinite = true

def slots (p : VariancePoint) : List (Option Json) :=
  [some (.int p.period), some (.float p.base), some (.float p.compare), some (.float p.delta),
    p.percent.map .float]

private theorem toJson_eq_written (p : VariancePoint) :
    p.toJson = .record (Json.written (fields.zip p.slots)) := by
  obtain ⟨period, base, compare, delta, percent⟩ := p
  cases percent <;> rfl

private theorem toOption_toFloat (percent : Option Float) :
    (Json.toOption Json.toFloat (percent.elim .null .float) : Wire (Option Float)) =
      .ok (percent.filter Float.isFinite) := by
  cases percent with
  | none => rfl
  | some x =>
    cases hx : x.isFinite with
    | true =>
      rw [Option.elim_some, Json.toOption_of_ne_null (Json.float_ne_null hx), Json.toFloat_float hx,
        Option.filter_some, if_pos hx]
      rfl
    | false =>
      rw [Option.elim_some, Json.float, if_neg (by rw [hx]; exact Bool.false_ne_true),
        Option.filter_some, if_neg (by rw [hx]; exact Bool.false_ne_true)]
      rfl

/-- A relative difference that is not finite is read back as none. -/
theorem ofJson_toJson_eq {p : VariancePoint} (hp : Int64 p.period) (hb : p.base.isFinite = true)
    (hc : p.compare.isFinite = true) :
    ofJson p.toJson = (Json.toFloat (.float p.delta)).map fun delta =>
      { p with delta, percent := p.percent.filter Float.isFinite } := by
  have hall : fields.length ≤ p.slots.length := Nat.le_refl 5
  have hrequired : ∀ s ∈ fields.zip p.slots, s.1.required = true → s.2.isSome = true := by
    simp [fields, slots]
  rw [toJson_eq_written, ofJson, Json.toRecord_written default (by decide) hall hrequired]
  have hperiod : (Json.toInt64 (.int p.period) : Wire Int) = .ok p.period :=
    faithful_int64.read_back _ hp
  have hbase : (Json.toFloat (.float p.base) : Wire Float) = .ok p.base :=
    faithful_float.read_back _ hb
  have hcompare : (Json.toFloat (.float p.compare) : Wire Float) = .ok p.compare :=
    faithful_float.read_back _ hc
  have hpercent := toOption_toFloat p.percent
  obtain ⟨period, base, compare, delta, percent⟩ := p
  cases percent <;>
    simp only [fields, slots, Option.map, List.zip_cons_cons, List.zip_nil_left, Json.storeAll,
      hperiod, hbase, hcompare]
  · cases (Json.toFloat (.float delta) : Wire Float) <;> rfl
  · rw [Option.elim_some] at hpercent
    simp only [hpercent]
    cases (Json.toFloat (.float delta) : Wire Float) <;> rfl

theorem filter_isFinite {p : VariancePoint} (h : ∀ x, p.percent = some x → x.isFinite = true) :
    p.percent.filter Float.isFinite = p.percent := by
  cases hp : p.percent with
  | none => rfl
  | some x => rw [Option.filter_some, if_pos (h x hp)]

private theorem ofJson_toJson {p : VariancePoint} (h : p.Writable) : ofJson p.toJson = .ok p := by
  rw [ofJson_toJson_eq h.period h.base h.compare, Json.toFloat_float h.delta,
    filter_isFinite h.percent]
  rfl

private theorem writable_of_ofJson {v : Json} {p : VariancePoint} (h : ofJson v = .ok p) :
    p.Writable := by
  have hstart : Writable default := ⟨⟨by decide, by decide⟩, rfl, rfl, rfl, nofun⟩
  apply Json.of_toRecord h hstart
  intro f hf
  simp only [fields, List.mem_cons, List.not_mem_nil, or_false] at hf
  rcases hf with rfl | rfl | rfl | rfl | rfl
  · exact Json.kept_of_set fun v _ i hr hi =>
      { hr with period := faithful_int64.writable_of_read v i hi }
  · exact Json.kept_of_set fun v _ x hr hx =>
      { hr with base := faithful_float.writable_of_read v x hx }
  · exact Json.kept_of_set fun v _ x hr hx =>
      { hr with compare := faithful_float.writable_of_read v x hx }
  · exact Json.kept_of_set fun v _ x hr hx =>
      { hr with delta := faithful_float.writable_of_read v x hx }
  · exact Json.kept_of_set fun v _ x hr hx => { hr with
      percent := (faithful_float.option fun _ => Json.float_ne_null).writable_of_read v x hx }

private theorem faithful : Faithful ofJson toJson Writable where
  printable := printable_point
  read_back _ := ofJson_toJson
  writable_of_read _ _ := writable_of_ofJson

end VariancePoint

namespace VarianceReport

structure Writable (r : VarianceReport) : Prop where
  points : ∀ p ∈ r.points, p.Writable
  skipped : Nat64 r.skipped
  suppressed : Nat64 r.suppressed

def slots (r : VarianceReport) : List (Option Json) :=
  [r.baseSeries.map .text, r.compareSeries.map .text,
    some (.array (r.points.map VariancePoint.toJson)), some (.int r.skipped),
    some (.int r.suppressed)]

private theorem toJson_eq_written (r : VarianceReport) :
    r.toJson = .record (Json.written (fields.zip r.slots)) := by
  obtain ⟨base, compare, points, skipped, suppressed⟩ := r
  cases base <;> cases compare <;> rfl

theorem ofJson_toJson_eq {r : VarianceReport} (hs : Nat64 r.skipped) (hd : Nat64 r.suppressed) :
    ofJson r.toJson = (Json.decodeAll VariancePoint.ofJson
      (r.points.map VariancePoint.toJson)).map fun points => { r with points } := by
  have hall : fields.length ≤ r.slots.length := Nat.le_refl 5
  have hrequired : ∀ s ∈ fields.zip r.slots, s.1.required = true → s.2.isSome = true := by
    simp [fields, slots]
  rw [toJson_eq_written, ofJson, Json.toRecord_written {} (by decide) hall hrequired]
  have hskipped : (Json.toNat64 (.int r.skipped) : Wire Nat) = .ok r.skipped :=
    faithful_nat64.read_back _ hs
  have hsuppressed : (Json.toNat64 (.int r.suppressed) : Wire Nat) = .ok r.suppressed :=
    faithful_nat64.read_back _ hd
  obtain ⟨base, compare, points, skipped, suppressed⟩ := r
  cases base <;> cases compare <;>
    simp only [fields, slots, Option.map, List.zip_cons_cons, List.zip_nil_left, Json.storeAll,
      Json.toList, hskipped, hsuppressed] <;>
    cases Json.decodeAll VariancePoint.ofJson (points.map VariancePoint.toJson) <;> rfl

private theorem ofJson_toJson {r : VarianceReport} (h : r.Writable) : ofJson r.toJson = .ok r := by
  rw [ofJson_toJson_eq h.skipped h.suppressed,
    Json.decodeAll_map fun p hp => VariancePoint.ofJson_toJson (h.points p hp)]
  rfl

theorem writable_of_ofJson {v : Json} {r : VarianceReport} (h : ofJson v = .ok r) :
    r.Writable := by
  have hstart : Writable {} := ⟨nofun, Nat.zero_le _, Nat.zero_le _⟩
  apply Json.of_toRecord h hstart
  intro f hf
  simp only [fields, List.mem_cons, List.not_mem_nil, or_false] at hf
  rcases hf with rfl | rfl | rfl | rfl | rfl
  · exact Json.kept_of_set fun _ _ _ hr _ => { hr with }
  · exact Json.kept_of_set fun _ _ _ hr _ => { hr with }
  · exact Json.kept_of_set fun v _ l hr hl =>
      { hr with points := VariancePoint.faithful.list.writable_of_read v l hl }
  · exact Json.kept_of_set fun v _ n hr hn =>
      { hr with skipped := faithful_nat64.writable_of_read v n hn }
  · exact Json.kept_of_set fun v _ n hr hn =>
      { hr with suppressed := faithful_nat64.writable_of_read v n hn }

theorem faithful : Faithful ofJson toJson Writable where
  printable := printable_report
  read_back _ := ofJson_toJson
  writable_of_read _ _ := writable_of_ofJson

end VarianceReport

end LagForecast
