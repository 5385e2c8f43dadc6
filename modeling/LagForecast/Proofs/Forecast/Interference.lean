import LagForecast.Proofs.Forecast.Cascade
import LagForecast.Proofs.Store.Calls

/-!
A service over a memory store that clients also write to.  Calls are served one at a time, whoever
makes them; what a call is answered depends on the store only through the series that the call is
about, and only calls to the store change anything, each its own series.  So an answer is what the
calls to the store about the same series make it.
-/

set_option autoImplicit false

namespace LagForecast

inductive ServiceCall where
  | store (c : StoreCall)
  | forecast (k : SeriesKey) (n : Int)
  | variance (base compare : SeriesKey) (c : VarianceConfig)

inductive ServiceAnswer where
  | stored (answer : Except HistoryError Bool)
  | forecast (answer : Attempt ForecastError ForecastVector)
  | variance (answer : Except ForecastError VarianceReport)

namespace ServiceCall

def keys : ServiceCall → List SeriesKey
  | store c => [c.key]
  | forecast k _ => [k]
  | variance base compare _ => [base, compare]

/-- The calls to the store about some series, in their order. -/
def storeCalls (ks : List SeriesKey) (calls : List ServiceCall) : List StoreCall :=
  calls.filterMap fun
    | store c => if c.key ∈ ks then some c else none
    | _ => none

end ServiceCall

namespace MemoryStore

def ask (k : SeriesKey) : StateM MemoryStore (Except StoreError (List Observation)) := do
  return (← get).store.observations k

def SameOn (ks : List SeriesKey) (m m' : MemoryStore) : Prop := ∀ k ∈ ks, m.get? k = m'.get? k

variable {m m' : MemoryStore}

private theorem observations_congr {k : SeriesKey} (h : m.get? k = m'.get? k) :
    m.observations k = m'.observations k := by
  unfold observations
  rw [h]

/-- What a call to the store does to its series depends on that series only. -/
theorem serve_congr {c : StoreCall} (h : m.get? c.key = m'.get? c.key) :
    (m.serve c).1 = (m'.serve c).1 ∧ (m.serve c).2.get? c.key = (m'.serve c).2.get? c.key := by
  cases c with
  | insert k l =>
    rw [serve_insert, serve_insert]
    cases History.ofList l with
    | error e => exact ⟨rfl, h⟩
    | ok g => exact ⟨rfl, by rw [get?_put, get?_put]; exact if_congr Iff.rfl rfl h⟩
  | append k o =>
    have hobs : m.observations k = m'.observations k := observations_congr h
    rw [serve_append, serve_append, hobs]
    cases History.ofList (m'.observations k ++ [o]) with
    | error e => exact ⟨rfl, h⟩
    | ok g => exact ⟨rfl, by rw [get?_put, get?_put]; exact if_congr Iff.rfl rfl h⟩
  | remove k =>
    rw [serve_remove, serve_remove]
    refine ⟨?_, by rw [get?_erase, get?_erase]; exact if_congr Iff.rfl rfl h⟩
    change Except.ok (m.get? k).isSome = Except.ok (m'.get? k).isSome
    exact congrArg (fun x => Except.ok x.isSome) h

private theorem get?_serve_congr {k : SeriesKey} (h : m.get? k = m'.get? k) (c : StoreCall) :
    (m.serve c).2.get? k = (m'.serve c).2.get? k := by
  by_cases hc : k = c.key
  · subst hc
    exact (serve_congr h).2
  · rw [get?_serve_of_ne m c hc, get?_serve_of_ne m' c hc]
    exact h

end MemoryStore

namespace Forecaster

open MonadExcept (ofExcept)
open MemoryStore (SameOn ask)

variable (f : Forecaster)

def withStore (m : MemoryStore) : Forecaster := { f with store := m.store }

/-- Serve a call on a memory store: what is answered, and the store afterwards. -/
def serve (m : MemoryStore) : ServiceCall → ServiceAnswer × MemoryStore
  | .store c => (.stored (m.serve c).1, (m.serve c).2)
  | .forecast k n => Id.run ((.forecast <$> f.forecastBy ask k n : StateM _ _).run m)
  | .variance base compare c =>
    Id.run ((.variance <$> (varianceBy ask base compare c).run : StateM _ _).run m)

def serveAll (m : MemoryStore) : List ServiceCall → List ServiceAnswer × MemoryStore
  | [] => ([], m)
  | x :: rest =>
    let next := serveAll (f.serve m x).2 rest
    ((f.serve m x).1 :: next.1, next.2)

variable {f} {ks : List SeriesKey} {m m' : MemoryStore}

private theorem serve_forecast (m : MemoryStore) (k : SeriesKey) (n : Int) :
    f.serve m (.forecast k n) = (.forecast ((f.withStore m).forecast k n), m) := by
  by_cases hn : 0 < n ∧ n ≤ f.maxHorizon
  · have hanswer : (f.answering (.ok (m.observations k))).forecast k n =
        (f.withStore m).forecast k n := by
      rw [forecast_eq, forecast_eq]
      rfl
    rw [serve, forecastBy_of_inRange hn, ← hanswer]
    rfl
  · have hout : n ≤ 0 ∨ f.maxHorizon < n := by omega
    rw [serve, forecastBy_of_outOfRange hout, forecast_of_outOfRange (f := f.withStore m) hout]
    rfl

private theorem run_ofExcept_bind {ε α β : Type} (x : Except ε α)
    (next : α → ExceptT ε (StateM MemoryStore) β) (m : MemoryStore) :
    (ofExcept x >>= next : ExceptT ε (StateM MemoryStore) β).run.run m =
      match x with
      | .ok a => (next a).run.run m
      | .error e => (.error e, m) := by
  cases x <;> rfl

private theorem run_load_bind {β : Type} (k : SeriesKey)
    (next : History → ExceptT ForecastError (StateM MemoryStore) β) (m : MemoryStore) :
    (loadHistoryBy ask k >>= next).run.run m =
      match (f.withStore m).loadHistory k with
      | .ok h => (next h).run.run m
      | .error e => (.error e, m) := by
  change (loadHistoryBy ask k >>= next).run.run m =
    match historyIn k (.ok (m.observations k)) with
    | .ok h => (next h).run.run m
    | .error e => (.error e, m)
  rw [loadHistoryBy, bind_assoc]
  change (ofExcept (historyIn k (.ok (m.observations k))) >>= next).run.run m = _
  cases historyIn k (.ok (m.observations k)) <;> rfl

private theorem serve_variance (m : MemoryStore) (base compare : SeriesKey) (c : VarianceConfig) :
    f.serve m (.variance base compare c) =
      (.variance ((f.withStore m).variance base compare c), m) := by
  have hrun : (varianceBy ask base compare c).run.run m =
      ((f.withStore m).variance base compare c, m) := by
    rw [varianceBy, variance_eq, run_ofExcept_bind]
    cases c.validate with
    | error e => rfl
    | ok _ =>
      simp only [run_load_bind (f := f)]
      cases (f.withStore m).loadHistory base with
      | error e => rfl
      | ok b =>
        cases (f.withStore m).loadHistory compare with
        | error e => rfl
        | ok v =>
          simp only [run_ofExcept_bind]
          change _ = ((computeVariance b.observations v.observations c >>= _), m)
          cases computeVariance b.observations v.observations c <;> rfl
  rw [serve]
  exact congrArg (fun r => (ServiceAnswer.variance r.1, r.2)) hrun

private theorem loadHistory_withStore_congr {k : SeriesKey} (h : m.get? k = m'.get? k) :
    (f.withStore m).loadHistory k = (f.withStore m').loadHistory k := by
  change historyIn k (.ok (m.observations k)) = historyIn k (.ok (m'.observations k))
  rw [MemoryStore.observations_congr h]

private theorem answer_congr {x : ServiceCall} (h : SameOn x.keys m m') :
    (f.serve m x).1 = (f.serve m' x).1 := by
  cases x with
  | store c =>
    have hc : m.get? c.key = m'.get? c.key := h c.key (List.mem_singleton.2 rfl)
    exact congrArg ServiceAnswer.stored (MemoryStore.serve_congr hc).1
  | forecast k n =>
    have hload := loadHistory_withStore_congr (f := f) (h k (List.mem_singleton.2 rfl))
    rw [serve_forecast, serve_forecast, forecast_eq, forecast_eq, hload]
    rfl
  | variance base compare c =>
    have hbase := loadHistory_withStore_congr (f := f) (h base List.mem_cons_self)
    have hcompare := loadHistory_withStore_congr (f := f)
      (h compare (List.mem_cons_of_mem base List.mem_cons_self))
    rw [serve_variance, serve_variance, variance_eq, variance_eq, hbase, hcompare]

private theorem get?_serve (m : MemoryStore) {x : ServiceCall} {k : SeriesKey}
    (h : ∀ c, x = .store c → k ≠ c.key) : (f.serve m x).2.get? k = m.get? k := by
  cases x with
  | store c => exact m.get?_serve_of_ne c (h c rfl)
  | forecast j n => rw [serve_forecast]
  | variance base compare c => rw [serve_variance]

private theorem get?_serve_of_not_mem (m : MemoryStore) {x : ServiceCall} {k : SeriesKey}
    (h : k ∉ x.keys) : (f.serve m x).2.get? k = m.get? k := by
  apply get?_serve
  rintro c rfl rfl
  exact h (List.mem_singleton.2 rfl)

private theorem get?_serve_congr {k : SeriesKey} (h : m.get? k = m'.get? k) (x : ServiceCall) :
    (f.serve m x).2.get? k = (f.serve m' x).2.get? k := by
  cases x with
  | store c => exact MemoryStore.get?_serve_congr h c
  | forecast j n =>
    rw [serve_forecast, serve_forecast]
    exact h
  | variance base compare c =>
    rw [serve_variance, serve_variance]
    exact h

private theorem serveAll_append (m : MemoryStore) (before after : List ServiceCall) :
    f.serveAll m (before ++ after) =
      ((f.serveAll m before).1 ++ (f.serveAll (f.serveAll m before).2 after).1,
        (f.serveAll (f.serveAll m before).2 after).2) := by
  induction before generalizing m with
  | nil => rfl
  | cons x rest ih =>
    rw [List.cons_append, serveAll, ih]
    rfl

private theorem length_serveAll (m : MemoryStore) (calls : List ServiceCall) :
    (f.serveAll m calls).1.length = calls.length := by
  induction calls generalizing m with
  | nil => rfl
  | cons x rest ih => exact congrArg (· + 1) (ih (f.serve m x).2)

private theorem getElem?_serveAll (m : MemoryStore) (before : List ServiceCall) (x : ServiceCall)
    (after : List ServiceCall) :
    (f.serveAll m (before ++ x :: after)).1[before.length]? =
      some (f.serve (f.serveAll m before).2 x).1 := by
  rw [serveAll_append, ← length_serveAll (f := f) m before, List.getElem?_append_right (by omega),
    Nat.sub_self]
  rfl

open ServiceCall (storeCalls)

/-- Some series after a run are what the calls to the store about them make of them. -/
theorem sameOn_serveAll (h : SameOn ks m m') (calls : List ServiceCall) :
    SameOn ks (f.serveAll m calls).2
      (StoreCall.serveAll MemoryStore.serve m' (storeCalls ks calls)).2 := by
  -- The stores agree on these series only: all other calls move the first store alone.
  induction calls generalizing m m' with
  | nil => exact h
  | cons x rest ih =>
    have skip (hx : ∀ c, x = .store c → c.key ∉ ks) :
        SameOn ks (f.serveAll (f.serve m x).2 rest).2
          (StoreCall.serveAll MemoryStore.serve m' (storeCalls ks rest)).2 := by
      refine ih fun k hk => ?_
      rw [get?_serve m fun c hc hkc => hx c hc (hkc ▸ hk)]
      exact h k hk
    cases x with
    | store c =>
      by_cases hc : c.key ∈ ks
      · have hcalls : storeCalls ks (.store c :: rest) = c :: storeCalls ks rest :=
          List.filterMap_cons_some (if_pos hc)
        rw [hcalls]
        exact ih fun k hk => MemoryStore.get?_serve_congr (h k hk) c
      · have hcalls : storeCalls ks (.store c :: rest) = storeCalls ks rest :=
          List.filterMap_cons_none (if_neg hc)
        rw [hcalls]
        exact skip fun d hd => by cases hd; exact hc
    | forecast k n => exact skip fun c hc => nomatch hc
    | variance base compare c => exact skip fun d hd => nomatch hd

private theorem serve_comm (m : MemoryStore) {x y : ServiceCall} (h : ∀ k ∈ x.keys, k ∉ y.keys) :
    (f.serve (f.serve m y).2 x).1 = (f.serve m x).1 ∧
      (f.serve (f.serve m x).2 y).1 = (f.serve m y).1 ∧
      (f.serve (f.serve m x).2 y).2 = (f.serve (f.serve m y).2 x).2 := by
  refine ⟨?_, ?_, MemoryStore.ext_get? fun k => ?_⟩
  · exact answer_congr fun k hk => get?_serve_of_not_mem m (h k hk)
  · exact answer_congr fun k hk => get?_serve_of_not_mem m fun hx => h k hx hk
  · by_cases hk : k ∈ x.keys
    · calc (f.serve (f.serve m x).2 y).2.get? k
          = (f.serve m x).2.get? k := get?_serve_of_not_mem _ (h k hk)
        _ = (f.serve (f.serve m y).2 x).2.get? k :=
          get?_serve_congr (get?_serve_of_not_mem m (h k hk)).symm x
    · calc (f.serve (f.serve m x).2 y).2.get? k
          = (f.serve m y).2.get? k := get?_serve_congr (get?_serve_of_not_mem m hk) y
        _ = (f.serve (f.serve m y).2 x).2.get? k := (get?_serve_of_not_mem _ hk).symm

end Forecaster

open ServiceCall (storeCalls) in
/-- Calls of any number of clients, served one after the other in any order.  What a forecast or a
comparison is answered, and a call to the store too, is what it is answered after the earlier calls
to the store about its own series alone; forecasts and comparisons leave the store as it is, a call
to the store leaves every other series, and calls about different series can be served in either
order. -/
theorem calls_do_not_interfere (f : Forecaster) (m : MemoryStore) :
    (∀ before x after,
      let alone := (StoreCall.serveAll MemoryStore.serve m (storeCalls x.keys before)).2
      (f.serveAll m (before ++ x :: after)).1[before.length]? = some (f.serve alone x).1) ∧
    (∀ k n, f.serve m (.forecast k n) = (.forecast ((f.withStore m).forecast k n), m)) ∧
    (∀ base compare c, f.serve m (.variance base compare c) =
      (.variance ((f.withStore m).variance base compare c), m)) ∧
    (∀ c j, j ≠ c.key → (f.serve m (.store c)).2.get? j = m.get? j) ∧
    ∀ x y, (∀ k ∈ x.keys, k ∉ y.keys) →
      (f.serve (f.serve m y).2 x).1 = (f.serve m x).1 ∧
        (f.serve (f.serve m x).2 y).1 = (f.serve m y).1 ∧
        (f.serve (f.serve m x).2 y).2 = (f.serve (f.serve m y).2 x).2 := by
  refine ⟨?_, Forecaster.serve_forecast m, Forecaster.serve_variance m,
    fun c j hj => m.get?_serve_of_ne c hj, fun x y => Forecaster.serve_comm m⟩
  intro before x after alone
  rw [Forecaster.getElem?_serveAll]
  refine congrArg some (Forecaster.answer_congr ?_)
  exact Forecaster.sameOn_serveAll (fun _ _ => rfl) before

end LagForecast
