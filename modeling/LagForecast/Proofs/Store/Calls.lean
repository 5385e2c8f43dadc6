import LagForecast.Proofs.History.Validity
import LagForecast.Store.Memory
import Mathlib.Logic.Function.Basic

/-!
A memory store that serves calls is a partial map from series to observations.  The map judges an
appended observation by the last one of its series alone, the store by checking the whole list
again; that every list of a reachable map is a history makes the two agree.
-/

set_option autoImplicit false

namespace LagForecast

abbrev SeriesMap := SeriesKey → Option (List Observation)

namespace SeriesMap

/-- Why an observation cannot follow those of a series. -/
def appendFault (s : SeriesMap) (k : SeriesKey) (o : Observation) : Option HistoryError :=
  if o.value.isFinite then
    match (s k).bind List.getLast? with
    | some last =>
      if o.period ≤ last.period then some (.nonIncreasing last.period o.period) else none
    | none => none
  else some (.nonFinite o.period)

/-- Serve a call on a partial map: what is answered, and the map afterwards. -/
def serve (s : SeriesMap) : StoreCall → Except HistoryError Bool × SeriesMap
  | .insert k l =>
    match History.ofList l with
    | .ok _ => (.ok true, Function.update s k (some l))
    | .error e => (.error e, s)
  | .append k o =>
    match s.appendFault k o with
    | none => (.ok true, Function.update s k (some ((s k).getD [] ++ [o])))
    | some e => (.error e, s)
  | .remove k => (.ok (s k).isSome, Function.update s k none)

def Valid (s : SeriesMap) : Prop := ∀ k l, s k = some l → IsHistory l

private theorem isHistory_of_appendFault {s : SeriesMap} (hs : s.Valid) {k : SeriesKey}
    {o : Observation} (hf : s.appendFault k o = none) : IsHistory ((s k).getD [] ++ [o]) := by
  unfold appendFault at hf
  by_cases ho : o.value.isFinite = true
  · rw [if_pos ho] at hf
    cases hk : s k with
    | none => exact History.isHistory_singleton ho
    | some l =>
      have hl := hs k l hk
      let h : History := ⟨l, hl.nonempty, hl.finite, hl.increasing⟩
      have hlast : (s k).bind List.getLast? = some (l.getLast hl.nonempty) := by
        rw [hk, Option.bind_some, List.getLast?_eq_some_getLast hl.nonempty]
      rw [hlast] at hf
      change (if o.period ≤ h.lastPeriod then
        some (HistoryError.nonIncreasing h.lastPeriod o.period) else none) = none at hf
      by_cases hp : o.period ≤ h.lastPeriod
      · rw [if_pos hp] at hf
        cases hf
      · exact h.isHistory_append ho (by omega)
  · rw [if_neg ho] at hf
    cases hf

private theorem valid_update {s : SeriesMap} (hs : s.Valid) {k : SeriesKey}
    {v : Option (List Observation)} (hv : ∀ l, v = some l → IsHistory l) :
    SeriesMap.Valid (Function.update s k v) := by
  intro j l hl
  by_cases hj : j = k
  · subst hj
    exact hv l (by simpa using hl)
  · exact hs j l (by simpa [hj] using hl)

/-- The last observation of a series decides well: no call makes a list that is no history. -/
theorem valid_serve {s : SeriesMap} (hs : s.Valid) (c : StoreCall) : (s.serve c).2.Valid := by
  cases c with
  | insert k l =>
    rw [serve]
    cases hl : History.ofList l with
    | error e => exact hs
    | ok h =>
      apply valid_update hs
      intro x hx
      cases hx
      exact History.exists_ofList_iff.1 ⟨h, hl⟩
  | append k o =>
    rw [serve]
    cases hf : s.appendFault k o with
    | some e => exact hs
    | none =>
      apply valid_update hs
      intro x hx
      cases hx
      exact isHistory_of_appendFault hs hf
  | remove k => exact valid_update hs fun x hx => by cases hx

end SeriesMap

def StoreCall.serveAll {σ α : Type} (serve : σ → StoreCall → α × σ) (s : σ) :
    List StoreCall → List α × σ
  | [] => ([], s)
  | c :: rest =>
    let next := serveAll serve (serve s c).2 rest
    ((serve s c).1 :: next.1, next.2)

private theorem SeriesMap.valid_serveAll {s : SeriesMap} (hs : s.Valid) (calls : List StoreCall) :
    (StoreCall.serveAll serve s calls).2.Valid := by
  induction calls generalizing s with
  | nil => exact hs
  | cons c rest ih => exact ih (valid_serve hs c)

namespace MemoryStore

def view (m : MemoryStore) : SeriesMap := fun k => (m.get? k).map History.observations

theorem get?_put (m : MemoryStore) (k j : SeriesKey) (h : History) :
    (m.put k h).get? j = if j = k then some h else m.get? j := by
  change (m.histories.insert k h).find? j = _
  rw [OrderedMap.find?_insert]
  simp only [Std.LawfulEqOrd.compare_eq_iff_eq]
  rfl

theorem get?_erase (m : MemoryStore) (k j : SeriesKey) :
    (m.erase k).get? j = if j = k then none else m.get? j := by
  change (m.histories.erase k).find? j = _
  rw [OrderedMap.find?_erase]
  simp only [Std.LawfulEqOrd.compare_eq_iff_eq]
  rfl

theorem ext_get? {m n : MemoryStore} (h : ∀ k, m.get? k = n.get? k) : m = n := by
  have : m.histories = n.histories := OrderedMap.ext_find? h
  cases m
  cases n
  cases this
  rfl

private theorem put_put (m : MemoryStore) (k : SeriesKey) (g h : History) :
    (m.put k g).put k h = m.put k h := by
  apply ext_get?
  intro j
  simp only [get?_put]
  split <;> rfl

private theorem view_put (m : MemoryStore) (k : SeriesKey) (h : History) :
    (m.put k h).view = Function.update m.view k (some h.observations) := by
  funext j
  by_cases hj : j = k
  · subst hj
    simp [view, get?_put]
  · simp [view, get?_put, hj]

private theorem view_erase (m : MemoryStore) (k : SeriesKey) :
    (m.erase k).view = Function.update m.view k none := by
  funext j
  by_cases hj : j = k
  · subst hj
    simp [view, get?_erase]
  · simp [view, get?_erase, hj]

theorem observations_eq_view (m : MemoryStore) (k : SeriesKey) :
    m.observations k = (m.view k).getD [] := by
  unfold observations view
  cases m.get? k <;> rfl

private theorem observations_put (m : MemoryStore) (k : SeriesKey) (h : History) :
    (m.put k h).observations k = h.observations := by
  simp [observations, get?_put]

private theorem serve_append_of_nonFinite (m : MemoryStore) (k : SeriesKey) {o : Observation}
    (ho : o.value.isFinite = false) :
    m.serve (.append k o) = (.error (.nonFinite o.period), m) := by
  have hl : ∀ x ∈ m.observations k, x.value.isFinite = true := by
    unfold observations
    cases m.get? k with
    | none => simp
    | some h => exact h.finite
  rw [serve_append, History.ofList_append_of_nonFinite hl ho]

private theorem serve_append_of_le (m : MemoryStore) {k : SeriesKey} {h : History}
    (hk : m.get? k = some h) {o : Observation} (ho : o.value.isFinite = true)
    (hp : o.period ≤ h.lastPeriod) :
    m.serve (.append k o) = (.error (.nonIncreasing h.lastPeriod o.period), m) := by
  have hobs : m.observations k = h.observations := by simp [observations, hk]
  rw [serve_append, hobs, History.ofList_append_of_le h ho hp]

private theorem serve_append_of_lt (m : MemoryStore) {k : SeriesKey} {o : Observation}
    (ho : o.value.isFinite = true) (hp : ∀ h, m.get? k = some h → h.lastPeriod < o.period) :
    ∃ h : History, h.observations = m.observations k ++ [o] ∧
      m.serve (.append k o) = (.ok true, m.put k h) := by
  have hvalid : IsHistory (m.observations k ++ [o]) := by
    unfold observations
    cases hk : m.get? k with
    | none => exact History.isHistory_singleton ho
    | some h => exact h.isHistory_append ho (hp h hk)
  obtain ⟨h, hh⟩ := History.exists_ofList_iff.2 hvalid
  refine ⟨h, History.observations_of_ofList hh, ?_⟩
  rw [serve_append, hh]

private theorem serve_append_eq (m : MemoryStore) (k : SeriesKey) (o : Observation) :
    match m.view.appendFault k o with
    | some e => m.serve (.append k o) = (.error e, m)
    | none => ∃ h : History, h.observations = m.observations k ++ [o] ∧
        m.serve (.append k o) = (.ok true, m.put k h) := by
  unfold SeriesMap.appendFault
  by_cases ho : o.value.isFinite = true
  · rw [if_pos ho]
    cases hk : m.get? k with
    | none =>
      have hnone : (m.view k).bind List.getLast? = none := by simp [view, hk]
      rw [hnone]
      exact m.serve_append_of_lt ho (by simp [hk])
    | some h =>
      have hlast : (m.view k).bind List.getLast? = some (h.observations.getLast h.nonempty) := by
        simp [view, hk, List.getLast?_eq_some_getLast h.nonempty]
      rw [hlast]
      change match (if o.period ≤ h.lastPeriod then
          some (HistoryError.nonIncreasing h.lastPeriod o.period) else none) with
        | some e => _
        | none => _
      by_cases hp : o.period ≤ h.lastPeriod
      · rw [if_pos hp]
        exact m.serve_append_of_le hk ho hp
      · rw [if_neg hp]
        apply m.serve_append_of_lt ho
        intro g hg
        rw [hk] at hg
        cases hg
        omega
  · rw [if_neg ho]
    exact m.serve_append_of_nonFinite k (by simpa using ho)

/-- One call: the store answers what the map answers, and stays its image. -/
theorem serve_view (m : MemoryStore) (c : StoreCall) :
    (m.serve c).1 = (m.view.serve c).1 ∧ (m.serve c).2.view = (m.view.serve c).2 := by
  cases c with
  | insert k l =>
    rw [serve_insert, SeriesMap.serve]
    cases hl : History.ofList l with
    | error e => exact ⟨rfl, rfl⟩
    | ok h =>
      refine ⟨rfl, ?_⟩
      rw [view_put, History.observations_of_ofList hl]
  | append k o =>
    have hserve := m.serve_append_eq k o
    rw [SeriesMap.serve]
    cases hf : m.view.appendFault k o with
    | some e =>
      rw [hf] at hserve
      rw [hserve]
      exact ⟨rfl, rfl⟩
    | none =>
      rw [hf] at hserve
      obtain ⟨h, hobs, hs⟩ := hserve
      rw [hs]
      refine ⟨rfl, ?_⟩
      rw [view_put, hobs, observations_eq_view]
  | remove k =>
    rw [serve_remove]
    refine ⟨?_, view_erase m k⟩
    change Except.ok (m.get? k).isSome = Except.ok ((m.get? k).map History.observations).isSome
    rw [Option.isSome_map]

private theorem serveAll_view (m : MemoryStore) (calls : List StoreCall) :
    (StoreCall.serveAll serve m calls).1 = (StoreCall.serveAll SeriesMap.serve m.view calls).1 ∧
      (StoreCall.serveAll serve m calls).2.view =
        (StoreCall.serveAll SeriesMap.serve m.view calls).2 := by
  induction calls generalizing m with
  | nil => exact ⟨rfl, rfl⟩
  | cons c rest ih =>
    obtain ⟨hanswer, hview⟩ := m.serve_view c
    obtain ⟨ihanswers, ihview⟩ := ih (m.serve c).2
    simp only [StoreCall.serveAll]
    rw [hanswer, ihanswers, ihview, hview]
    exact ⟨rfl, rfl⟩

/-- Observations that are appended one by one to a series are all taken exactly if they make a
history with those that are there. -/
private theorem serveAll_appends (m : MemoryStore) (k : SeriesKey) (l : List Observation) :
    (∀ a ∈ (StoreCall.serveAll serve m (l.map (.append k))).1, a = .ok true) ↔
      l = [] ∨ IsHistory (m.observations k ++ l) := by
  induction l generalizing m with
  | nil => simp [StoreCall.serveAll]
  | cons o rest ih =>
    simp only [List.map_cons, StoreCall.serveAll, List.forall_mem_cons, serve_append]
    have hsplit : m.observations k ++ o :: rest = (m.observations k ++ [o]) ++ rest := by simp
    cases hl : History.ofList (m.observations k ++ [o]) with
    | error e =>
      have hnot : ¬ IsHistory (m.observations k ++ o :: rest) := fun h =>
        History.not_isHistory_of_error hl (History.isHistory_of_append (hsplit ▸ h) (by simp))
      simp [hnot]
    | ok h =>
      have hobs := History.observations_of_ofList hl
      have hrest := ih (m.put k h)
      rw [observations_put, hobs] at hrest
      simp only [true_and, List.cons_ne_nil, false_or]
      rw [hrest, hsplit]
      constructor
      · rintro (rfl | hvalid)
        · rw [List.append_nil, ← hobs]
          exact h.isHistory
        · exact hvalid
      · exact Or.inr

private theorem serveAll_appends_eq_put (m : MemoryStore) (k : SeriesKey) {l : List Observation}
    (hne : l ≠ []) {h : History} (hobs : h.observations = m.observations k ++ l) :
    (StoreCall.serveAll serve m (l.map (.append k))).2 = m.put k h := by
  induction l generalizing m with
  | nil => exact absurd rfl hne
  | cons o rest ih =>
    have hsplit : h.observations = (m.observations k ++ [o]) ++ rest := by simp [hobs]
    have hfirst : IsHistory (m.observations k ++ [o]) :=
      History.isHistory_of_append (hsplit ▸ h.isHistory) (by simp)
    obtain ⟨g, hg⟩ := History.exists_ofList_iff.2 hfirst
    have hgobs := History.observations_of_ofList hg
    have hserve : (m.serve (.append k o)).2 = m.put k g := by rw [serve_append, hg]
    change (StoreCall.serveAll serve (m.serve (.append k o)).2 (rest.map (.append k))).2 = _
    rw [hserve]
    by_cases hrest : rest = []
    · subst hrest
      have hgh : g = h := History.ext_observations (by rw [hgobs, hsplit, List.append_nil])
      rw [← hgh]
      rfl
    · rw [ih (m.put k g) hrest (by rw [observations_put, hgobs, hsplit]), put_put]

private theorem serveAll_appends_iff_insert (m : MemoryStore) {k : SeriesKey} (hk : m.get? k = none)
    {l : List Observation} (hne : l ≠ []) :
    ((∀ a ∈ (StoreCall.serveAll serve m (l.map (.append k))).1, a = .ok true) ↔
        (m.serve (.insert k l)).1 = .ok true) ∧
      ((m.serve (.insert k l)).1 = .ok true →
        (StoreCall.serveAll serve m (l.map (.append k))).2 = (m.serve (.insert k l)).2) := by
  have hnone : m.observations k = [] := by simp [observations, hk]
  rw [serveAll_appends, hnone, List.nil_append, serve_insert]
  cases hl : History.ofList l with
  | error e => simp [hne, History.not_isHistory_of_error hl]
  | ok h =>
    have hobs := History.observations_of_ofList hl
    refine ⟨by simp [← hobs, h.isHistory], fun _ => ?_⟩
    exact m.serveAll_appends_eq_put k hne (by rw [hobs, hnone, List.nil_append])

private theorem serve_of_error (m : MemoryStore) {c : StoreCall} {e : HistoryError}
    (h : (m.serve c).1 = .error e) : (m.serve c).2 = m := by
  cases c with
  | insert k l =>
    rw [serve_insert] at h ⊢
    cases hl : History.ofList l with
    | error e => rfl
    | ok g => rw [hl] at h; cases h
  | append k o =>
    rw [serve_append] at h ⊢
    cases hl : History.ofList (m.observations k ++ [o]) with
    | error e => rfl
    | ok g => rw [hl] at h; cases h
  | remove k => cases h

theorem get?_serve_of_ne (m : MemoryStore) (c : StoreCall) {j : SeriesKey} (hj : j ≠ c.key) :
    (m.serve c).2.get? j = m.get? j := by
  cases c with
  | insert k l =>
    rw [serve_insert]
    cases History.ofList l with
    | error e => rfl
    | ok h => exact (m.get?_put k j h).trans (if_neg hj)
  | append k o =>
    rw [serve_append]
    cases History.ofList (m.observations k ++ [o]) with
    | error e => rfl
    | ok h => exact (m.get?_put k j h).trans (if_neg hj)
  | remove k => exact (m.get?_erase k j).trans (if_neg hj)

private theorem serve_append_error_iff (m : MemoryStore) (k : SeriesKey) (o : Observation)
    (e : HistoryError) :
    (m.serve (.append k o)).1 = .error e ↔
      o.value.isFinite = false ∧ e = .nonFinite o.period ∨
        o.value.isFinite = true ∧ ∃ h, m.get? k = some h ∧ o.period ≤ h.lastPeriod ∧
          e = .nonIncreasing h.lastPeriod o.period := by
  cases ho : o.value.isFinite with
  | false =>
    rw [m.serve_append_of_nonFinite k ho]
    simp [eq_comm]
  | true =>
    by_cases hp : ∃ h, m.get? k = some h ∧ o.period ≤ h.lastPeriod
    · obtain ⟨h, hk, hle⟩ := hp
      rw [m.serve_append_of_le hk ho hle]
      simp [hk, hle, eq_comm]
    · have hlt : ∀ h, m.get? k = some h → h.lastPeriod < o.period := by
        intro h hk
        have : ¬ o.period ≤ h.lastPeriod := fun hle => hp ⟨h, hk, hle⟩
        omega
      obtain ⟨g, -, hs⟩ := m.serve_append_of_lt ho hlt
      rw [hs]
      constructor
      · intro h
        cases h
      · rintro (⟨h, -⟩ | ⟨-, h, hk, hle, -⟩)
        · cases h
        · exact absurd ⟨h, hk, hle⟩ hp

private theorem view_serve_append_of_ok (m : MemoryStore) {k : SeriesKey} {o : Observation}
    {b : Bool} (h : (m.serve (.append k o)).1 = .ok b) :
    (m.serve (.append k o)).2.view k = some (m.observations k ++ [o]) := by
  rw [serve_append] at h ⊢
  cases hl : History.ofList (m.observations k ++ [o]) with
  | error e => rw [hl] at h; cases h
  | ok g => simp [view_put, History.observations_of_ofList hl]

/-- Whatever calls a store has served from the beginning, it has answered them as the partial map
does and is its image, and every series of the map is a history.  A call that fails changes nothing,
any other call only its own series.  An appended observation is refused for its value, or else for
its period if a period of its series has been as late, and is added at the end otherwise, so that a
series comes to the same one by one and all at once. -/
theorem calls_refine_seriesMap (calls : List StoreCall) :
    let map := StoreCall.serveAll SeriesMap.serve (fun _ => none) calls
    let m := (StoreCall.serveAll serve empty calls).2
    (StoreCall.serveAll serve empty calls).1 = map.1 ∧ m.view = map.2 ∧ map.2.Valid ∧
      (∀ k, m.store.observations k = .ok ((map.2 k).getD [])) ∧
      (∀ c e, (m.serve c).1 = .error e → (m.serve c).2 = m) ∧
      (∀ c j, j ≠ c.key → (m.serve c).2.get? j = m.get? j) ∧
      (∀ k o e, (m.serve (.append k o)).1 = .error e ↔
        o.value.isFinite = false ∧ e = .nonFinite o.period ∨
          o.value.isFinite = true ∧ ∃ h, m.get? k = some h ∧ o.period ≤ h.lastPeriod ∧
            e = .nonIncreasing h.lastPeriod o.period) ∧
      (∀ k o b, (m.serve (.append k o)).1 = .ok b →
        (m.serve (.append k o)).2.view k = some (m.observations k ++ [o])) ∧
      ∀ k l, m.get? k = none → l ≠ [] →
        ((∀ a ∈ (StoreCall.serveAll serve m (l.map (.append k))).1, a = .ok true) ↔
            (m.serve (.insert k l)).1 = .ok true) ∧
          ((m.serve (.insert k l)).1 = .ok true →
            (StoreCall.serveAll serve m (l.map (.append k))).2 = (m.serve (.insert k l)).2) := by
  intro map m
  obtain ⟨hanswers, hview⟩ := serveAll_view empty calls
  have hvalid : map.2.Valid := SeriesMap.valid_serveAll (fun _ _ h => by cases h) calls
  refine ⟨hanswers, hview, hvalid, fun k => ?_, fun c e => m.serve_of_error,
    fun c j => m.get?_serve_of_ne c, m.serve_append_error_iff,
    fun k o b => m.view_serve_append_of_ok, fun k l hk hne => m.serveAll_appends_iff_insert hk hne⟩
  have hobs : m.observations k = (map.2 k).getD [] := by rw [observations_eq_view, hview]; rfl
  exact congrArg Except.ok hobs

end MemoryStore

end LagForecast
