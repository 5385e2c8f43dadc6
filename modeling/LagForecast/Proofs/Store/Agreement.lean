import LagForecast.Forecast.Forecaster
import LagForecast.Proofs.Store.Calls
import LagForecast.Proofs.Store.Search
import LagForecast.Store.Document

/-!
A document kept in memory and the same document read from a file.  The memory store takes a document
only if it is sound, and reports the first record that is to blame otherwise; of a sound document
both stores have the same to say about every series.
-/

set_option autoImplicit false

namespace LagForecast

open Text (Blank)

open SeriesRecord (exists_key not_blank_of_key)

namespace HistoryDocument

/-- Records that can all be kept. -/
structure Sound (l : List SeriesRecord) : Prop where
  named : ∀ r ∈ l, ¬ Blank r.scope
  distinct : l.Pairwise fun a b => ∀ k, a.key = .ok k → b.key ≠ .ok k
  valid : ∀ r ∈ l, IsHistory r.observations

/-- What is wrong with a record that follows others; a fault rules out those before it. -/
inductive Offends (before : List SeriesRecord) (r : SeriesRecord) : Damage → Prop
  | blank (h : Blank r.scope) : Offends before r (.key .emptyScope)
  | repeated {k : SeriesKey} (hk : r.key = .ok k) (h : ∃ b ∈ before, b.key = .ok k) :
      Offends before r (.repeated k.canonical)
  | invalid {k : SeriesKey} {e : HistoryError} (hk : r.key = .ok k)
      (h : ∀ b ∈ before, b.key ≠ .ok k) (hl : ¬ IsHistory r.observations)
      (he : History.ofList r.observations = .error e) :
      Offends before r (.inSeries k.canonical e)

private theorem sound_nil : Sound [] where
  named := by simp
  distinct := List.Pairwise.nil
  valid := by simp

private theorem Sound.concat {l : List SeriesRecord} (h : Sound l) {r : SeriesRecord}
    {k : SeriesKey}
    (hk : r.key = .ok k) (hnew : ∀ b ∈ l, b.key ≠ .ok k) (hr : IsHistory r.observations) :
    Sound (l ++ [r]) where
  named := by
    intro a ha
    rcases List.mem_append.1 ha with ha | ha
    · exact h.named a ha
    · rw [List.mem_singleton.1 ha]
      exact not_blank_of_key hk
  distinct := by
    refine List.pairwise_append.2 ⟨h.distinct, List.pairwise_singleton _ _, ?_⟩
    intro a ha b hb j hj hbj
    rw [List.mem_singleton.1 hb, hk] at hbj
    cases hbj
    exact hnew a ha hj
  valid := by
    intro a ha
    rcases List.mem_append.1 ha with ha | ha
    · exact h.valid a ha
    · rw [List.mem_singleton.1 ha]
      exact hr

private theorem not_sound_of_offends {before after : List SeriesRecord} {r : SeriesRecord}
    {x : Damage} (h : Offends before r x) : ¬ Sound (before ++ r :: after) := by
  intro hs
  have hr : r ∈ before ++ r :: after := by simp
  cases h with
  | blank h => exact hs.named r hr h
  | repeated hk h =>
    obtain ⟨b, hb, hbk⟩ := h
    exact (List.pairwise_append.1 hs.distinct).2.2 b hb r (by simp) _ hbk hk
  | invalid hk h hl he => exact hl (hs.valid r hr)

private theorem Sound.recordsOf_eq_singleton {l : List SeriesRecord} (hs : Sound l)
    {r : SeriesRecord} {k : SeriesKey} (hr : r ∈ l) (hk : r.key = .ok k) : recordsOf k l = [r] := by
  have hmem : r ∈ recordsOf k l := mem_recordsOf.2 ⟨hr, hk⟩
  have hdistinct := hs.distinct.filter fun r => r.key = .ok k
  change (recordsOf k l).Pairwise _ at hdistinct
  match hrecords : recordsOf k l with
  | [] =>
    rw [hrecords] at hmem
    cases hmem
  | [a] =>
    rw [hrecords, List.mem_singleton] at hmem
    rw [hmem]
  | a :: b :: rest =>
    rw [hrecords] at hdistinct
    have hkeys : ∀ c ∈ a :: b :: rest, c.key = .ok k := fun c hc =>
      (mem_recordsOf.1 (hrecords ▸ hc)).2
    have hb := (List.pairwise_cons.1 hdistinct).1 b List.mem_cons_self k (hkeys a (by simp))
    exact absurd (hkeys b (by simp)) hb

end HistoryDocument

namespace MemoryStore

open HistoryDocument (Sound Offends sound_nil not_sound_of_offends)

/-- A store that keeps some records and nothing else. -/
structure Loaded (l : List SeriesRecord) (m : MemoryStore) : Prop where
  sound : Sound l
  stored : ∀ k h, m.get? k = some h ↔ ∃ r ∈ l, r.key = .ok k ∧ r.observations = h.observations

private theorem loaded_empty : Loaded [] empty where
  sound := sound_nil
  stored := by
    intro k h
    constructor
    · intro hk
      cases hk
    · rintro ⟨r, hr, -⟩
      cases hr

variable {l before after : List SeriesRecord} {m : MemoryStore} {r : SeriesRecord}

private theorem Loaded.contains_iff (hm : Loaded l m) (k : SeriesKey) :
    m.contains k = true ↔ ∃ b ∈ l, b.key = .ok k := by
  change (m.get? k).isSome = true ↔ _
  rw [Option.isSome_iff_exists]
  constructor
  · rintro ⟨h, hk⟩
    obtain ⟨b, hb, hbk, -⟩ := (hm.stored k h).1 hk
    exact ⟨b, hb, hbk⟩
  · rintro ⟨b, hb, hbk⟩
    obtain ⟨h, hh⟩ := History.exists_ofList_iff.2 (hm.sound.valid b hb)
    exact ⟨h, (hm.stored k h).2 ⟨b, hb, hbk, (History.observations_of_ofList hh).symm⟩⟩

private theorem addRecord_of_key {k : SeriesKey} (hk : r.key = .ok k) :
    m.addRecord r =
      if m.contains k then .error (.malformed (.repeated k.canonical))
      else
        match History.ofList r.observations with
        | .ok h => .ok (m.put k h)
        | .error e => .error (.malformed (.inSeries k.canonical e)) := by
  unfold addRecord
  rw [hk]
  change (if m.contains k then _ else _) = _
  split
  · rfl
  · unfold insert
    rw [serve_insert]
    cases History.ofList r.observations <;> rfl

private theorem addRecord_of_offends (hm : Loaded before m) {x : Damage} (hx : Offends before r x) :
    m.addRecord r = .error (.malformed x) := by
  cases hx with
  | blank h =>
    unfold addRecord
    rw [SeriesRecord.key_of_blank h]
    rfl
  | repeated hk h => rw [addRecord_of_key hk, if_pos ((hm.contains_iff _).2 h)]
  | invalid hk h hl he =>
    have hnew : ¬ m.contains _ = true := fun hc => by
      obtain ⟨b, hb, hbk⟩ := (hm.contains_iff _).1 hc
      exact h b hb hbk
    rw [addRecord_of_key hk, if_neg hnew, he]

private theorem Loaded.put (hm : Loaded before m) {k : SeriesKey} (hk : r.key = .ok k)
    (hnew : ∀ b ∈ before, b.key ≠ .ok k) {h : History} (hh : h.observations = r.observations) :
    Loaded (before ++ [r]) (m.put k h) where
  sound := hm.sound.concat hk hnew (hh ▸ h.isHistory)
  stored := by
    intro j g
    rw [get?_put]
    by_cases hj : j = k
    · subst hj
      rw [if_pos rfl]
      constructor
      · intro hg
        cases hg
        exact ⟨r, by simp, hk, hh.symm⟩
      · rintro ⟨b, hb, hbk, hobs⟩
        rcases List.mem_append.1 hb with hb | hb
        · exact absurd hbk (hnew b hb)
        · rw [List.mem_singleton.1 hb, ← hh] at hobs
          rw [History.ext_observations hobs]
    · rw [if_neg hj, hm.stored]
      constructor
      · rintro ⟨b, hb, hbk⟩
        exact ⟨b, List.mem_append_left _ hb, hbk⟩
      · rintro ⟨b, hb, hbk, hobs⟩
        rcases List.mem_append.1 hb with hb | hb
        · exact ⟨b, hb, hbk, hobs⟩
        · rw [List.mem_singleton.1 hb, hk] at hbk
          cases hbk
          exact absurd rfl hj

private theorem addRecord_cases (hm : Loaded before m) (r : SeriesRecord) :
    (∃ x, Offends before r x) ∨ ∃ m', m.addRecord r = .ok m' ∧ Loaded (before ++ [r]) m' := by
  by_cases hblank : Blank r.scope
  · exact Or.inl ⟨_, .blank hblank⟩
  · obtain ⟨k, hk⟩ := exists_key hblank
    by_cases hold : ∃ b ∈ before, b.key = .ok k
    · exact Or.inl ⟨_, .repeated hk hold⟩
    · have hnew : ∀ b ∈ before, b.key ≠ .ok k := fun b hb hbk => hold ⟨b, hb, hbk⟩
      have hcontains : ¬ m.contains k = true := fun hc => hold ((hm.contains_iff k).1 hc)
      cases hl : History.ofList r.observations with
      | error e => exact Or.inl ⟨_, .invalid hk hnew (History.not_isHistory_of_error hl) hl⟩
      | ok h =>
        refine Or.inr ⟨m.put k h, ?_, hm.put hk hnew (History.observations_of_ofList hl)⟩
        rw [addRecord_of_key hk, if_neg hcontains, hl]

/-- Records that go on from those that are kept are all kept as long as all are sound. -/
theorem foldlM_addRecord_of_sound (hm : Loaded before m) (hs : Sound (before ++ l)) :
    ∃ m', l.foldlM addRecord m = .ok m' ∧ Loaded (before ++ l) m' := by
  -- The records that are kept grow at the end while those to come shrink at the front.
  induction l generalizing before m with
  | nil =>
    rw [List.append_nil]
    exact ⟨m, rfl, hm⟩
  | cons r rest ih =>
    rcases addRecord_cases hm r with ⟨x, hx⟩ | ⟨m₁, hadd, hm₁⟩
    · exact absurd hs (not_sound_of_offends hx)
    · have hsplit : before ++ r :: rest = (before ++ [r]) ++ rest := by simp
      rw [hsplit] at hs ⊢
      rw [List.foldlM_cons, hadd]
      exact ih hm₁ hs

private theorem sound_or_offends (hm : Loaded before m) (l : List SeriesRecord) :
    Sound (before ++ l) ∨ ∃ clean r rest x, before ++ l = clean ++ r :: rest ∧ Sound clean ∧
      Offends clean r x := by
  induction l generalizing before m with
  | nil =>
    rw [List.append_nil]
    exact Or.inl hm.sound
  | cons r rest ih =>
    rcases addRecord_cases hm r with ⟨x, hx⟩ | ⟨m₁, -, hm₁⟩
    · exact Or.inr ⟨before, r, rest, x, rfl, hm.sound, hx⟩
    · have hsplit : before ++ r :: rest = (before ++ [r]) ++ rest := by simp
      rw [hsplit]
      exact ih hm₁

private theorem ofDocument_of_sound {d : HistoryDocument} (hs : Sound d.series) :
    ∃ m, ofDocument d = .ok m ∧ Loaded d.series m :=
  foldlM_addRecord_of_sound loaded_empty hs

private theorem ofDocument_of_offends {d : HistoryDocument} {x : Damage}
    (hd : d.series = before ++ r :: after) (hs : Sound before) (hx : Offends before r x) :
    ofDocument d = .error (.malformed x) := by
  obtain ⟨m, hrun, hm⟩ : ∃ m, before.foldlM addRecord empty = .ok m ∧ Loaded before m :=
    foldlM_addRecord_of_sound loaded_empty hs
  unfold ofDocument
  rw [hd, List.foldlM_append, hrun]
  change (m.addRecord r >>= fun m' => after.foldlM addRecord m') = _
  rw [addRecord_of_offends hm hx]
  rfl

private theorem ofDocument_cases (d : HistoryDocument) :
    (∃ m, ofDocument d = .ok m ∧ Loaded d.series m) ∨
      ∃ before r after x, d.series = before ++ r :: after ∧ Sound before ∧ Offends before r x ∧
        ofDocument d = .error (.malformed x) := by
  rcases sound_or_offends loaded_empty d.series with hs | ⟨before, r, after, x, hd, hs, hx⟩
  · exact Or.inl (ofDocument_of_sound hs)
  · exact Or.inr ⟨before, r, after, x, hd, hs, hx, ofDocument_of_offends hd hs hx⟩

private theorem loaded_of_ofDocument {d : HistoryDocument} (h : ofDocument d = .ok m) :
    Loaded d.series m := by
  rcases ofDocument_cases d with ⟨m', hm', hl⟩ | ⟨_, _, _, _, _, _, _, he⟩
  · rw [h] at hm'
    cases hm'
    exact hl
  · rw [h] at he
    cases he

private theorem Loaded.observations_of_mem (hm : Loaded l m) (hr : r ∈ l) {k : SeriesKey}
    (hk : r.key = .ok k) : m.observations k = r.observations := by
  obtain ⟨h, hh⟩ := History.exists_ofList_iff.2 (hm.sound.valid r hr)
  have hobs := History.observations_of_ofList hh
  have hget : m.get? k = some h := (hm.stored k h).2 ⟨r, hr, hk, hobs.symm⟩
  unfold observations
  rw [hget]
  exact hobs

private theorem Loaded.get?_of_absent (hm : Loaded l m) {k : SeriesKey}
    (h : ∀ r ∈ l, r.key ≠ .ok k) : m.get? k = none := by
  cases hk : m.get? k with
  | none => rfl
  | some g =>
    obtain ⟨r, hr, hrk, -⟩ := (hm.stored k g).1 hk
    exact absurd hrk (h r hr)

private theorem Loaded.observations_of_absent (hm : Loaded l m) {k : SeriesKey}
    (h : ∀ r ∈ l, r.key ≠ .ok k) : m.observations k = [] := by
  unfold observations
  rw [hm.get?_of_absent h]

private theorem Loaded.find_eq {d : HistoryDocument} (hm : Loaded d.series m) (k : SeriesKey) :
    d.find k = .ok ((m.get? k).map History.observations) := by
  cases hk : m.get? k with
  | some h =>
    obtain ⟨r, hr, hrk, hobs⟩ := (hm.stored k h).1 hk
    have hrecords := hm.sound.recordsOf_eq_singleton hr hrk
    rw [HistoryDocument.find_of_single hm.sound.named hrecords, hobs]
    rfl
  | none =>
    refine HistoryDocument.find_of_absent hm.sound.named (HistoryDocument.recordsOf_eq_nil.2 ?_)
    intro r hr hrk
    have hcontains := (hm.contains_iff k).2 ⟨r, hr, hrk⟩
    change (m.get? k).isSome = true at hcontains
    rw [hk] at hcontains
    cases hcontains

private theorem Loaded.jsonFile_eq {d : HistoryDocument} (hm : Loaded d.series m) {files : FileView}
    {path : String} (hload : HistoryDocument.load files path = .ok d) (k : SeriesKey) :
    (HistoryStore.jsonFile files path).observations k = .ok (m.observations k) := by
  change (HistoryDocument.load files path >>= fun d => d.find k >>= fun l => pure (l.getD [])) = _
  rw [hload]
  change (d.find k >>= fun l => pure (l.getD [])) = _
  rw [hm.find_eq, observations_eq_view]
  rfl

end MemoryStore

namespace Forecaster

variable {f g : Forecaster}

private theorem loadHistory_congr (hs : ∀ k, f.store.observations k = g.store.observations k)
    (k : SeriesKey) : f.loadHistory k = g.loadHistory k := by
  unfold loadHistory
  rw [hs]

private theorem forecast_congr (hs : ∀ k, f.store.observations k = g.store.observations k)
    (hm : f.model = g.model) (hc : f.maxHorizon = g.maxHorizon) (k : SeriesKey) (n : Int) :
    f.forecast k n = g.forecast k n := by
  rw [forecast_eq, forecast_eq, loadHistory_congr hs, hc]
  unfold forecastHistory
  rw [hm]

private theorem variance_congr (hs : ∀ k, f.store.observations k = g.store.observations k)
    (base compare : SeriesKey) (c : VarianceConfig) :
    f.variance base compare c = g.variance base compare c := by
  rw [variance_eq, variance_eq, loadHistory_congr hs, loadHistory_congr hs]

end Forecaster

open HistoryDocument (Sound Offends) in
/-- Which documents a memory store takes, and what it reports of the others: the fault of the first
record that cannot be kept with those before it.  A store that was made from a document and one that
reads the document from a file give the same answer about every series, which is never a fault, and
so forecasts and comparisons come to the same with either. -/
theorem stores_agree (d : HistoryDocument) :
    ((∃ m, MemoryStore.ofDocument d = .ok m) ↔ Sound d.series) ∧
      (∀ e, MemoryStore.ofDocument d = .error e ↔
        ∃ before r after x, d.series = before ++ r :: after ∧ Sound before ∧ Offends before r x ∧
          e = .malformed x) ∧
      ∀ m files path, MemoryStore.ofDocument d = .ok m → HistoryDocument.load files path = .ok d →
        (∀ k, ∃ l, m.store.observations k = .ok l ∧
          (HistoryStore.jsonFile files path).observations k = .ok l ∧
          (∀ r ∈ d.series, r.key = .ok k → l = r.observations) ∧
          ((∀ r ∈ d.series, r.key ≠ .ok k) → l = [])) ∧
        ∀ model cap,
          let kept : Forecaster := ⟨m.store, model, cap⟩
          let read : Forecaster := ⟨.jsonFile files path, model, cap⟩
          (∀ k n, kept.forecast k n = read.forecast k n) ∧
            ∀ base compare c, kept.variance base compare c = read.variance base compare c := by
  refine ⟨⟨?_, ?_⟩, ?_, ?_⟩
  · rintro ⟨m, hm⟩
    exact (MemoryStore.loaded_of_ofDocument hm).sound
  · intro hs
    obtain ⟨m, hm, -⟩ := MemoryStore.ofDocument_of_sound hs
    exact ⟨m, hm⟩
  · intro e
    constructor
    · intro he
      rcases MemoryStore.ofDocument_cases d with ⟨m, hm, -⟩ | ⟨before, r, after, x, hd, hs, hx, hr⟩
      · rw [he] at hm
        cases hm
      · rw [he] at hr
        cases hr
        exact ⟨before, r, after, x, hd, hs, hx, rfl⟩
    · rintro ⟨before, r, after, x, hd, hs, hx, rfl⟩
      exact MemoryStore.ofDocument_of_offends hd hs hx
  · intro m files path hm hload
    have hl := MemoryStore.loaded_of_ofDocument hm
    have same (k : SeriesKey) :
        m.store.observations k = (HistoryStore.jsonFile files path).observations k :=
      (hl.jsonFile_eq hload k).symm
    refine ⟨fun k => ⟨m.observations k, rfl, hl.jsonFile_eq hload k, ?_, ?_⟩, fun model cap => ?_⟩
    · exact fun r hr hk => hl.observations_of_mem hr hk
    · exact hl.observations_of_absent
    · exact ⟨Forecaster.forecast_congr same rfl rfl, Forecaster.variance_congr same⟩

set_option maxRecDepth 2000 in
/-- A document with one series, and a file that holds it. -/
theorem stores_agree_of_one_series :
    let d : HistoryDocument := ⟨[⟨"plant", .empty, [⟨1, 2.0⟩]⟩]⟩
    let files : FileView := fun _ => .ok (Text.bytes
      ("\x7b\"series\":[\x7b\"scoping_id\":\"plant\"," ++
        "\"observations\":[\x7b\"period\":1,\"value\":2\x7d]\x7d]\x7d"))
    HistoryDocument.load files "history.json" = .ok d ∧ ∃ m, MemoryStore.ofDocument d = .ok m ∧
      ∀ model cap k n,
        (Forecaster.mk m.store model cap).forecast k n =
          (Forecaster.mk (.jsonFile files "history.json") model cap).forecast k n := by
  intro d files
  have hload : HistoryDocument.load files "history.json" = .ok d := rfl
  have hsound : HistoryDocument.Sound d.series := by
    refine ⟨?_, List.pairwise_singleton _ _, ?_⟩
    · intro r hr
      rw [List.mem_singleton.1 hr]
      decide
    · intro r hr
      rw [List.mem_singleton.1 hr]
      exact History.isHistory_singleton rfl
  obtain ⟨m, hm⟩ := (stores_agree d).1.2 hsound
  refine ⟨hload, m, hm, fun model cap => ?_⟩
  exact (((stores_agree d).2.2 m files "history.json" hm hload).2 model cap).1

end LagForecast
