import LagForecast.Proofs.Outcome
import LagForecast.Store.Document

/-!
# What a document has of a series

A search goes through all records.  It fails at the first that has no key; when all have one, only
the records of the series count, and there may be one of them at most.
-/

set_option autoImplicit false

namespace LagForecast

open Text (Blank)

namespace SeriesRecord

variable {r : SeriesRecord}

theorem key_eq_ok_iff {k : SeriesKey} :
    r.key = .ok k ↔ r.scope = k.scope ∧ r.filters = k.filters := by
  rw [← SeriesKey.make_eq_ok_iff, key]
  cases SeriesKey.make r.scope r.filters with
  | error e => exact ⟨nofun, nofun⟩
  | ok k' => exact ⟨fun h => congrArg Except.ok (Except.ok.inj h), fun h =>
      congrArg Except.ok (Except.ok.inj h)⟩

instance (k : SeriesKey) : Decidable (r.key = .ok k) := decidable_of_iff _ key_eq_ok_iff.symm

theorem key_of_blank (h : Blank r.scope) : r.key = .error (.malformed (.key .emptyScope)) := by
  have hmake : SeriesKey.make r.scope r.filters = .error .emptyScope := dif_pos h
  unfold key
  rw [hmake]

theorem exists_key (h : ¬ Blank r.scope) : ∃ k, r.key = .ok k :=
  ⟨⟨r.scope, r.filters, h⟩, key_eq_ok_iff.2 ⟨rfl, rfl⟩⟩

theorem not_blank_of_key {k : SeriesKey} (h : r.key = .ok k) : ¬ Blank r.scope :=
  (key_eq_ok_iff.1 h).1 ▸ k.scope_named

private theorem key_eq_error {e : StoreError} (h : r.key = .error e) :
    ∃ damage, e = .malformed damage := by
  unfold key at h
  split at h
  · cases h
  · exact ⟨_, (Except.error.inj h).symm⟩

theorem key_ofKey (k : SeriesKey) (l : List Observation) : (ofKey k l).key = .ok k :=
  key_eq_ok_iff.2 ⟨rfl, rfl⟩

end SeriesRecord

open SeriesRecord (exists_key)

namespace HistoryDocument

variable {k : SeriesKey} {r : SeriesRecord} {l : List SeriesRecord}

def recordsOf (k : SeriesKey) (l : List SeriesRecord) : List SeriesRecord :=
  l.filter fun r => r.key = .ok k

theorem mem_recordsOf : r ∈ recordsOf k l ↔ r ∈ l ∧ r.key = .ok k := by
  rw [recordsOf, List.mem_filter, decide_eq_true_iff]

theorem recordsOf_eq_nil : recordsOf k l = [] ↔ ∀ r ∈ l, r.key ≠ .ok k := by
  simp [recordsOf]

theorem recordsOf_cons_of_key (hk : r.key = .ok k) (l : List SeriesRecord) :
    recordsOf k (r :: l) = r :: recordsOf k l :=
  List.filter_cons_of_pos (decide_eq_true hk)

theorem recordsOf_cons_of_other (h : r.key ≠ .ok k) (l : List SeriesRecord) :
    recordsOf k (r :: l) = recordsOf k l :=
  List.filter_cons_of_neg (by rwa [decide_eq_true_iff])

theorem recordsOf_append (l l' : List SeriesRecord) :
    recordsOf k (l ++ l') = recordsOf k l ++ recordsOf k l' := List.filter_append l l'

private theorem findFrom_of_other {j : SeriesKey} (hj : r.key = .ok j) (hne : j ≠ k)
    (found : Option (List Observation)) (rest : List SeriesRecord) :
    findFrom k found (r :: rest) = findFrom k found rest := by
  rw [findFrom, hj]
  exact if_neg hne

private theorem findFrom_of_first (hk : r.key = .ok k) (rest : List SeriesRecord) :
    findFrom k none (r :: rest) = findFrom k (some r.observations) rest := by
  rw [findFrom, hk]
  exact if_pos rfl

private theorem findFrom_of_repeated (hk : r.key = .ok k) (found : List Observation)
    (rest : List SeriesRecord) :
    findFrom k (some found) (r :: rest) = .error (.malformed (.repeated k.canonical)) := by
  rw [findFrom, hk]
  exact if_pos rfl

/-- Records of other series are passed over. -/
theorem findFrom_recordsOf (hnamed : ∀ r ∈ l, ¬ Blank r.scope)
    (found : Option (List Observation)) :
    findFrom k found l = findFrom k found (recordsOf k l) := by
  induction l generalizing found with
  | nil => rfl
  | cons r rest ih =>
    have hrest := ih fun a ha => hnamed a (List.mem_cons_of_mem r ha)
    obtain ⟨j, hj⟩ := exists_key (hnamed r List.mem_cons_self)
    by_cases hjk : j = k
    · subst hjk
      rw [recordsOf_cons_of_key hj]
      cases found with
      | none => rw [findFrom_of_first hj, findFrom_of_first hj, hrest]
      | some found => rw [findFrom_of_repeated hj, findFrom_of_repeated hj]
    · have hother : r.key ≠ .ok k := fun hk => hjk (Except.ok.inj (hj.symm.trans hk))
      rw [recordsOf_cons_of_other hother, findFrom_of_other hj hjk, hrest]

variable {d : HistoryDocument}

theorem find_congr {d' : HistoryDocument} (hnamed : ∀ r ∈ d.series, ¬ Blank r.scope)
    (hnamed' : ∀ r ∈ d'.series, ¬ Blank r.scope)
    (h : recordsOf k d.series = recordsOf k d'.series) : d.find k = d'.find k := by
  unfold find
  rw [findFrom_recordsOf hnamed, findFrom_recordsOf hnamed', h]

theorem find_of_absent (hnamed : ∀ r ∈ d.series, ¬ Blank r.scope)
    (h : recordsOf k d.series = []) : d.find k = .ok none := by
  unfold find
  rw [findFrom_recordsOf hnamed, h]
  rfl

theorem find_of_single (hnamed : ∀ r ∈ d.series, ¬ Blank r.scope)
    (h : recordsOf k d.series = [r]) : d.find k = .ok (some r.observations) := by
  have hmem : r ∈ recordsOf k d.series := h ▸ List.mem_singleton_self r
  unfold find
  rw [findFrom_recordsOf hnamed, h, findFrom_of_first (mem_recordsOf.1 hmem).2]
  rfl

theorem find_of_repeated {s : SeriesRecord} (hnamed : ∀ r ∈ d.series, ¬ Blank r.scope)
    (h : recordsOf k d.series = r :: s :: l) :
    d.find k = .error (.malformed (.repeated k.canonical)) := by
  have hkeys : ∀ a ∈ r :: s :: l, a.key = .ok k := fun a ha => (mem_recordsOf.1 (h ▸ ha)).2
  unfold find
  rw [findFrom_recordsOf hnamed, h, findFrom_of_first (hkeys r (by simp)),
    findFrom_of_repeated (hkeys s (by simp))]

private theorem not_blank_of_findFrom {found x : Option (List Observation)}
    (h : findFrom k found l = .ok x) : ∀ r ∈ l, ¬ Blank r.scope := by
  induction l generalizing found with
  | nil => exact List.forall_mem_nil _
  | cons r rest ih =>
    rw [findFrom] at h
    obtain ⟨j, hj, h⟩ := bind_eq_ok.1 h
    have hrest : ∀ a ∈ rest, ¬ Blank a.scope := by
      split at h
      · split at h
        · cases h
        · exact ih h
      · exact ih h
    exact List.forall_mem_cons.2 ⟨SeriesRecord.not_blank_of_key hj, hrest⟩

theorem malformed_of_findFrom {found : Option (List Observation)} {e : StoreError}
    (h : findFrom k found l = .error e) : ∃ damage, e = .malformed damage := by
  induction l generalizing found with
  | nil => cases h
  | cons r rest ih =>
    rw [findFrom] at h
    rcases bind_eq_error.1 h with hkey | ⟨j, -, h⟩
    · exact SeriesRecord.key_eq_error hkey
    · split at h
      · split at h
        · exact ⟨_, (Except.error.inj h).symm⟩
        · exact ih h
      · exact ih h

/-- A search succeeds if every record has a key and no two have that of the series. -/
theorem exists_find_iff :
    (∃ found, d.find k = .ok found) ↔
      (∀ r ∈ d.series, ¬ Blank r.scope) ∧ (recordsOf k d.series).length ≤ 1 := by
  constructor
  · rintro ⟨found, h⟩
    have hnamed : ∀ r ∈ d.series, ¬ Blank r.scope := not_blank_of_findFrom h
    refine ⟨hnamed, ?_⟩
    cases hrecords : recordsOf k d.series with
    | nil => exact Nat.zero_le 1
    | cons r others =>
      cases others with
      | nil => exact Nat.le_refl 1
      | cons s rest =>
        rw [find_of_repeated hnamed hrecords] at h
        cases h
  · rintro ⟨hnamed, hone⟩
    cases hrecords : recordsOf k d.series with
    | nil => exact ⟨none, find_of_absent hnamed hrecords⟩
    | cons r others =>
      rw [hrecords, List.length_cons] at hone
      obtain rfl : others = [] := List.eq_nil_of_length_eq_zero (by omega)
      exact ⟨_, find_of_single hnamed hrecords⟩

end HistoryDocument

end LagForecast
