import LagForecast.Proofs.Series.NormalForm
import LagForecast.Proofs.Store.Search

/-!
# Documents that are written and read back

A document that is printed is read back as it was, if all of its values are finite.  A value that is
not finite is printed as `null`, and a text with such a value is not read as any document.
-/

set_option autoImplicit false

namespace LagForecast

open Json (Printable)
open Text (Blank)

private theorem printable_observation (o : Observation) : Printable o.toJson := by
  apply Json.printable_record
  intro e he
  rcases List.mem_cons.1 he with rfl | he
  · exact Json.printable_int o.period
  · rw [List.mem_singleton.1 he]
    exact Json.printable_float o.value

private theorem printable_series (r : SeriesRecord) : Printable r.toJson := by
  apply Json.printable_record
  intro e he
  rcases List.mem_cons.1 he with rfl | he
  · exact .text r.scope
  · rcases List.mem_cons.1 he with rfl | he
    · exact printable_filters r.filters
    · rw [List.mem_singleton.1 he]
      exact Json.printable_array_map printable_observation r.observations

private theorem printable_document (d : HistoryDocument) : Printable d.toJson := by
  apply Json.printable_record
  intro e he
  rw [List.mem_singleton.1 he]
  exact Json.printable_array_map printable_series d.series

namespace Observation

def Counted (o : Observation) : Prop :=
  -0x8000000000000000 ≤ o.period ∧ o.period ≤ lastPossiblePeriod

variable {o : Observation}

private theorem ofJson_toJson_eq (h : o.Counted) :
    ofJson o.toJson = (Json.toFloat (.float o.value)).map fun x => ⟨o.period, x⟩ := by
  have hperiod : (Json.toInt64 (.int o.period) : Wire Int) = .ok o.period :=
    Json.toInt64_int h.1 h.2
  have hread : ofJson o.toJson =
      Json.readPositions fields ⟨0, 0.0⟩ [.int o.period, .float o.value] :=
    Json.toRecord_record rfl (by decide)
  rw [hread]
  simp only [fields, Json.readPositions, hperiod]
  cases (Json.toFloat (.float o.value) : Wire Float) with
  | error fault => rfl
  | ok x => rfl

private theorem ofJson_toJson (h : o.Counted) (hvalue : o.value.isFinite = true) :
    ofJson o.toJson = .ok o := by
  rw [ofJson_toJson_eq h, Json.toFloat_float hvalue]
  rfl

private theorem ofJson_toJson_of_nonFinite (h : o.Counted) (hvalue : o.value.isFinite = false) :
    ofJson o.toJson = Json.unreadable := by
  rw [ofJson_toJson_eq h, Json.toFloat_float_of_nonFinite hvalue]
  rfl

private theorem ofJson_toJson_cases (h : o.Counted) :
    ofJson o.toJson = .ok o ∨ ofJson o.toJson = Json.unreadable := by
  cases hvalue : o.value.isFinite with
  | true => exact Or.inl (ofJson_toJson h hvalue)
  | false => exact Or.inr (ofJson_toJson_of_nonFinite h hvalue)

end Observation

namespace SeriesRecord

variable {r : SeriesRecord}

def Counted (r : SeriesRecord) : Prop := ∀ o ∈ r.observations, o.Counted

private theorem ofJson_toJson_eq (r : SeriesRecord) : ofJson r.toJson =
    (Json.decodeAll Observation.ofJson (r.observations.map Observation.toJson)).map fun l =>
      ⟨r.scope, r.filters, l⟩ := by
  have hscope : (Json.toText (.text r.scope) : Wire String) = .ok r.scope := rfl
  have hfilters : Filters.ofJson r.filters.toJson = .ok r.filters := r.filters.ofJson_toJson
  have hread : ofJson r.toJson = Json.readPositions fields default
      [.text r.scope, r.filters.toJson, .array (r.observations.map Observation.toJson)] :=
    Json.toRecord_record rfl (by decide)
  rw [hread]
  simp only [fields, Json.readPositions, Json.toList, hscope, hfilters]
  cases Json.decodeAll Observation.ofJson (r.observations.map Observation.toJson) with
  | error fault => rfl
  | ok l => rfl

private theorem ofJson_toJson (h : r.Counted)
    (hfinite : ∀ o ∈ r.observations, o.value.isFinite = true) : ofJson r.toJson = .ok r := by
  have hobservations := Json.decodeAll_map fun o ho =>
    Observation.ofJson_toJson (h o ho) (hfinite o ho)
  rw [ofJson_toJson_eq, hobservations]
  rfl

private theorem ofJson_toJson_of_nonFinite (h : r.Counted)
    (hbad : ∃ o ∈ r.observations, o.value.isFinite = false) :
    ofJson r.toJson = Json.unreadable := by
  obtain ⟨o, ho, hvalue⟩ := hbad
  have hobservations := Json.decodeAll_map_unreadable
    (fun o ho => (Observation.ofJson_toJson_cases (h o ho)).imp_left fun hok => ⟨o, hok⟩)
    ⟨o, ho, Observation.ofJson_toJson_of_nonFinite (h o ho) hvalue⟩
  rw [ofJson_toJson_eq, hobservations]
  rfl

private theorem ofJson_toJson_cases (h : r.Counted) :
    ofJson r.toJson = .ok r ∨ ofJson r.toJson = Json.unreadable := by
  by_cases hbad : ∃ o ∈ r.observations, o.value.isFinite = false
  · exact Or.inr (ofJson_toJson_of_nonFinite h hbad)
  · refine Or.inl (ofJson_toJson h fun o ho => ?_)
    by_contra hvalue
    exact hbad ⟨o, ho, Bool.eq_false_iff.2 hvalue⟩

end SeriesRecord

namespace HistoryDocument

variable {d : HistoryDocument}

private theorem ofJson_toJson_eq (d : HistoryDocument) : ofJson d.toJson =
    (Json.decodeAll SeriesRecord.ofJson (d.series.map SeriesRecord.toJson)).map fun l => ⟨l⟩ := by
  have hread : ofJson d.toJson =
      Json.readPositions fields default [.array (d.series.map SeriesRecord.toJson)] :=
    Json.toRecord_record rfl (by decide)
  rw [hread]
  simp only [fields, Json.readPositions, Json.toList]
  cases Json.decodeAll SeriesRecord.ofJson (d.series.map SeriesRecord.toJson) with
  | error fault => rfl
  | ok l => rfl

private theorem ofJson_toJson (h : ∀ r ∈ d.series, r.Counted)
    (hfinite : ∀ r ∈ d.series, ∀ o ∈ r.observations, o.value.isFinite = true) :
    ofJson d.toJson = .ok d := by
  have hseries := Json.decodeAll_map fun r hr => SeriesRecord.ofJson_toJson (h r hr) (hfinite r hr)
  rw [ofJson_toJson_eq, hseries]
  rfl

private theorem ofJson_toJson_of_nonFinite (h : ∀ r ∈ d.series, r.Counted)
    (hbad : ∃ r ∈ d.series, ∃ o ∈ r.observations, o.value.isFinite = false) :
    ofJson d.toJson = Json.unreadable := by
  obtain ⟨r, hr, hvalue⟩ := hbad
  have hseries := Json.decodeAll_map_unreadable
    (fun r hr => (SeriesRecord.ofJson_toJson_cases (h r hr)).imp_left fun hok => ⟨r, hok⟩)
    ⟨r, hr, SeriesRecord.ofJson_toJson_of_nonFinite (h r hr) hvalue⟩
  rw [ofJson_toJson_eq, hseries]
  rfl

private theorem ofBytes_compact (d : HistoryDocument) :
    ofBytes (Text.bytes d.toJson.compact) =
      (ofJson d.toJson).mapError fun fault => .malformed (.text fault) := by
  rw [ofBytes, Json.decode_compact (printable_document d)]
  cases ofJson d.toJson with
  | error fault => rfl
  | ok d' => rfl

def ofPairs (pairs : List (SeriesKey × List Observation)) : HistoryDocument :=
  ⟨pairs.map fun p => .ofKey p.1 p.2⟩

variable {pairs : List (SeriesKey × List Observation)} {k : SeriesKey}

private theorem named_ofPairs : ∀ r ∈ (ofPairs pairs).series, ¬ Blank r.scope := by
  intro r hr
  obtain ⟨p, -, rfl⟩ := List.mem_map.1 hr
  exact p.1.scope_named

private theorem recordsOf_ofPairs : recordsOf k (ofPairs pairs).series =
    (pairs.filter fun p => p.1 = k).map fun p => .ofKey p.1 p.2 := by
  have hkey : ∀ p : SeriesKey × List Observation,
      (SeriesRecord.ofKey p.1 p.2).key = .ok k ↔ p.1 = k := by
    intro p
    rw [SeriesRecord.key_ofKey, Except.ok.injEq]
  rw [recordsOf, ofPairs, List.filter_map]
  congr 2
  funext p
  exact decide_eq_decide.2 (hkey p)

private theorem find_ofPairs (pairs : List (SeriesKey × List Observation)) (k : SeriesKey) :
    (ofPairs pairs).find k = match pairs.filter fun p => p.1 = k with
      | [] => .ok none
      | [p] => .ok (some p.2)
      | _ => .error (.malformed (.repeated k.canonical)) := by
  have hrecords := @recordsOf_ofPairs pairs k
  cases hpairs : pairs.filter fun p => p.1 = k with
  | nil =>
    rw [hpairs] at hrecords
    exact find_of_absent named_ofPairs hrecords
  | cons p rest =>
    rw [hpairs] at hrecords
    cases rest with
    | nil => exact find_of_single named_ofPairs hrecords
    | cons q rest => exact find_of_repeated named_ofPairs hrecords

/-- A document of some series that is printed is read back as it was if all values are finite; if
not, its text is malformed.  What is found of a series in the document that is read back is what was
stored for it, and a fault if it was stored more than once. -/
theorem documents_persist (pairs : List (SeriesKey × List Observation))
    (hcounted : ∀ p ∈ pairs, ∀ o ∈ p.2, o.Counted) :
    let text := Text.bytes (ofPairs pairs).toJson.compact
    ((∀ p ∈ pairs, ∀ o ∈ p.2, o.value.isFinite = true) → ofBytes text = .ok (ofPairs pairs)) ∧
      ((∃ p ∈ pairs, ∃ o ∈ p.2, o.value.isFinite = false) →
        ofBytes text = .error (.malformed (.text .unreadable))) ∧
      ∀ d, ofBytes text = .ok d → ∀ k,
        d.find k = match pairs.filter fun p => p.1 = k with
          | [] => .ok none
          | [p] => .ok (some p.2)
          | _ => .error (.malformed (.repeated k.canonical)) := by
  intro text
  have hrecords : ∀ r ∈ (ofPairs pairs).series, r.Counted := by
    intro r hr
    obtain ⟨p, hp, rfl⟩ := List.mem_map.1 hr
    exact hcounted p hp
  have hkept : (∀ p ∈ pairs, ∀ o ∈ p.2, o.value.isFinite = true) →
      ofBytes text = .ok (ofPairs pairs) := by
    intro hfinite
    rw [ofBytes_compact, ofJson_toJson hrecords]
    · rfl
    · intro r hr
      obtain ⟨p, hp, rfl⟩ := List.mem_map.1 hr
      exact hfinite p hp
  have hrefused : (∃ p ∈ pairs, ∃ o ∈ p.2, o.value.isFinite = false) →
      ofBytes text = .error (.malformed (.text .unreadable)) := by
    rintro ⟨p, hp, hbad⟩
    rw [ofBytes_compact, ofJson_toJson_of_nonFinite hrecords]
    · rfl
    · exact ⟨.ofKey p.1 p.2, List.mem_map_of_mem hp, hbad⟩
  refine ⟨hkept, hrefused, fun d hd k => ?_⟩
  by_cases hbad : ∃ p ∈ pairs, ∃ o ∈ p.2, o.value.isFinite = false
  · cases (hrefused hbad).symm.trans hd
  · have hfinite : ∀ p ∈ pairs, ∀ o ∈ p.2, o.value.isFinite = true := by
      intro p hp o ho
      by_contra hvalue
      exact hbad ⟨p, hp, o, ho, Bool.eq_false_iff.2 hvalue⟩
    obtain rfl : ofPairs pairs = d := Except.ok.inj ((hkept hfinite).symm.trans hd)
    exact find_ofPairs pairs k

/-- A series with a period below zero and a zero with a sign. -/
theorem documents_persist_of_plant :
    let plant : SeriesKey := ⟨"plant", .empty, by decide⟩
    let pairs : List (SeriesKey × List Observation) := [(plant, [⟨-3, 2.5⟩, ⟨4, -0.0⟩])]
    (∀ p ∈ pairs, ∀ o ∈ p.2, o.Counted) ∧
      ∃ d, ofBytes (Text.bytes (ofPairs pairs).toJson.compact) = .ok d ∧
        d.find plant = .ok (some [⟨-3, 2.5⟩, ⟨4, -0.0⟩]) := by
  intro plant pairs
  have hcounted : ∀ p ∈ pairs, ∀ o ∈ p.2, o.Counted := by
    intro p hp o ho
    rw [List.mem_singleton.1 hp] at ho
    rcases List.mem_cons.1 ho with rfl | ho
    · exact ⟨by decide, by decide⟩
    · rw [List.mem_singleton.1 ho]
      exact ⟨by decide, by decide⟩
  have hfinite : ∀ p ∈ pairs, ∀ o ∈ p.2, o.value.isFinite = true := by
    intro p hp o ho
    rw [List.mem_singleton.1 hp] at ho
    rcases List.mem_cons.1 ho with rfl | ho
    · rfl
    · rw [List.mem_singleton.1 ho]
      rfl
  obtain ⟨hkept, -, hfound⟩ := documents_persist pairs hcounted
  have hread := hkept hfinite
  refine ⟨hcounted, ofPairs pairs, hread, ?_⟩
  rw [hfound (ofPairs pairs) hread plant]
  have hone : pairs.filter (fun p => p.1 = plant) = pairs := by simp [pairs]
  rw [hone]

end HistoryDocument

end LagForecast
