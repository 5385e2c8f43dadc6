import LagForecast.Proofs.Forecast.Projection
import LagForecast.Proofs.Server.Replies
import LagForecast.Proofs.Store.Search

/-!
# The readiness report

The report is about one series, which no store needs to have, and about a short history of its own.
It speaks for all series nevertheless: a store that cannot be reached for one series cannot be
reached for any, and only where the store cannot be reached is a request told to come back later.
-/

set_option autoImplicit false

namespace LagForecast

open Text (Blank)

/-- The stores that a server may be run over: one in memory, a file, one that is down, and one that
has the same observations for every series. -/
inductive Backend.Provided : Backend → Prop
  | memory (m : MemoryStore) : Provided (.memory m)
  | jsonFile (path : String) : Provided (.jsonFile path)
  | down (reason : String) : Provided (.other (.down reason))
  | raw (l : List Observation) : Provided (.other (.raw l))

section Stores

variable {files : FileView} {path : String} {k : SeriesKey} {outage : Outage}

private theorem HistoryDocument.find_ne_unavailable (d : HistoryDocument) :
    d.find k ≠ .error (.unavailable outage) := by
  intro h
  obtain ⟨damage, hdamage⟩ := malformed_of_findFrom h
  cases hdamage

private theorem HistoryStore.jsonFile_unavailable_iff :
    (jsonFile files path).observations k = .error (.unavailable outage) ↔
      HistoryDocument.load files path = .error (.unavailable outage) := by
  constructor
  · intro h
    rcases bind_eq_error.1 h with hload | ⟨d, -, h⟩
    · exact hload
    · rcases bind_eq_error.1 h with hfind | ⟨found, -, h⟩
      · exact absurd hfind d.find_ne_unavailable
      · cases h
  · intro hload
    exact bind_eq_error.2 (Or.inl hload)

private theorem HistoryStore.exists_jsonFile_iff :
    (∃ l, (jsonFile files path).observations k = .ok l) ↔
      ∃ bytes d, files path = .ok bytes ∧ HistoryDocument.ofBytes bytes = .ok d ∧
        ∃ found, d.find k = .ok found := by
  constructor
  · rintro ⟨l, h⟩
    obtain ⟨d, hload, h⟩ := bind_eq_ok.1 h
    obtain ⟨found, hfind, -⟩ := bind_eq_ok.1 h
    unfold HistoryDocument.load at hload
    split at hload
    next bytes hbytes => exact ⟨bytes, d, hbytes, hload, found, hfind⟩
    next => cases hload
  · rintro ⟨bytes, d, hbytes, hd, found, hfind⟩
    have hload : HistoryDocument.load files path = .ok d := by
      rw [HistoryDocument.load, hbytes]
      exact hd
    exact ⟨found.getD [], bind_eq_ok.2 ⟨d, hload, bind_eq_ok.2 ⟨found, hfind, rfl⟩⟩⟩

private theorem Backend.Provided.unavailable {b : Backend} (hb : b.Provided)
    (hk : (b.store files).observations k = .error (.unavailable outage)) (j : SeriesKey) :
    (b.store files).observations j = .error (.unavailable outage) := by
  -- A search of a document fails for damage only, so that the file alone decides.
  cases hb with
  | memory m => cases hk
  | jsonFile path =>
    exact HistoryStore.jsonFile_unavailable_iff.2 (HistoryStore.jsonFile_unavailable_iff.1 hk)
  | down reason => exact hk
  | raw l => cases hk

end Stores

/-- A model that does not blame the store, which it is not given. -/
def BaselineModel.LeavesStoreOut (model : BaselineModel) : Prop :=
  ∀ h horizon outage, model.project h horizon ≠ .error (.storeUnavailable outage)

/-- A model that does not break off where one value is asked for. -/
def BaselineModel.TakesOneStep (model : BaselineModel) : Prop :=
  ∀ h, model.project h ⟨1, Nat.one_pos⟩ ≠ .stopped

private theorem LagModel.leavesStoreOut (m : LagModel Float) : m.toBaseline.LeavesStoreOut := by
  intro h horizon outage hp
  obtain ⟨-, s, -, -, -, he⟩ := LagModel.project_eq_error.1 hp
  cases he

private theorem LagModel.takesOneStep (m : LagModel Float) :
    m.toBaseline.TakesOneStep := fun _ hp =>
  absurd (LagModel.project_eq_stopped.1 hp) (by decide)

private theorem runModel_ne_outage {model : BaselineModel} (hmodel : model.LeavesStoreOut)
    (h : History) (horizon : Horizon) (outage : Outage) :
    runModel model h horizon ≠ .error (.storeUnavailable outage) := by
  intro hrun
  unfold runModel at hrun
  split at hrun
  · cases hrun
  · rcases Attempt.bind_eq_error.1 hrun with hp | ⟨p, -, hrun⟩
    · exact hmodel h horizon outage hp
    · split at hrun
      · cases hrun
      · cases hrun

namespace Forecaster

variable {f : Forecaster} {k base compare : SeriesKey} {c : VarianceConfig} {outage : Outage}

private theorem unavailable_of_loadHistory
    (h : f.loadHistory k = .error (.storeUnavailable outage)) :
    f.store.observations k = .error (.unavailable outage) := by
  rw [loadHistory, historyIn] at h
  rcases bind_eq_error.1 h with h | ⟨l, -, h⟩
  · obtain ⟨e, hanswer, he⟩ := mapError_eq_error.1 h
    cases e with
    | unavailable outage' =>
      cases he
      exact hanswer
    | malformed damage => cases he
  · split at h
    · cases h
    · obtain ⟨e, -, he⟩ := mapError_eq_error.1 h
      cases he

private theorem unavailable_of_forecast (hmodel : f.model.LeavesStoreOut) {n : Int}
    (h : f.forecast k n = .error (.storeUnavailable outage)) :
    f.store.observations k = .error (.unavailable outage) := by
  have hbounded : Horizon.bounded n f.maxHorizon ≠ .error (.storeUnavailable outage) := by
    intro h
    unfold Horizon.bounded at h
    split at h <;> cases h
  rw [forecast_eq] at h
  rcases Attempt.bind_eq_error.1 h with h | ⟨horizon, -, h⟩
  · exact absurd (Attempt.ofExcept_eq_error.1 h) hbounded
  · rcases Attempt.bind_eq_error.1 h with h | ⟨history, -, h⟩
    · exact unavailable_of_loadHistory (Attempt.ofExcept_eq_error.1 h)
    · rcases Attempt.bind_eq_error.1 h with h | ⟨v, -, h⟩
      · exact absurd h (runModel_ne_outage hmodel history horizon outage)
      · cases h

private theorem unavailable_of_variance
    (h : f.variance base compare c = .error (.storeUnavailable outage)) :
    ∃ k, f.store.observations k = .error (.unavailable outage) := by
  have hsettings : c.validate ≠ .error (.storeUnavailable outage) := by
    intro h
    unfold VarianceConfig.validate at h
    split at h <;> cases h
  have hcompute (l l' : List Observation) :
      computeVariance l l' c ≠ .error (.storeUnavailable outage) := by
    intro h
    obtain ⟨-, -, h⟩ := eq_error_of_bind h hsettings
    cases h
  rw [variance_eq] at h
  obtain ⟨-, -, h⟩ := eq_error_of_bind h hsettings
  rcases bind_eq_error.1 h with h | ⟨b, -, h⟩
  · exact ⟨base, unavailable_of_loadHistory h⟩
  · rcases bind_eq_error.1 h with h | ⟨v, -, h⟩
    · exact ⟨compare, unavailable_of_loadHistory h⟩
    · obtain ⟨r, -, h⟩ := eq_error_of_bind h (hcompute _ _)
      cases h

end Forecaster

private theorem ApiError.outage_of_status {e : ApiError} (h : e.status = 503) :
    ∃ outage, e = .forecast (.storeUnavailable outage) := by
  cases e with
  | body fault => cases h
  | forecast error =>
    cases error with
    | storeUnavailable outage => exact ⟨outage, rfl⟩
    | invalidHorizon | seriesNotFound | invalidKey | corruptHistory | invalidParameter
    | numerical => cases h

namespace AppState

variable {s : AppState} {files : FileView} {r : HttpRequest} {outage : Outage}

private theorem outage_of_reply {x : Except ApiError Json} (h : (reply x).status = 503) :
    ∃ outage, x = .error (.forecast (.storeUnavailable outage)) := by
  cases x with
  | ok v => cases h
  | error e =>
    have hstatus : e.status = 503 := by
      rw [reply] at h
      split at h <;> exact h
    obtain ⟨outage, rfl⟩ := ApiError.outage_of_status hstatus
    exact ⟨outage, rfl⟩

private theorem readBody_ne_forecast {α : Type} (decode : Json → Wire α) (e : ForecastError) :
    readBody decode r ≠ .error (.forecast e) := by
  intro h
  unfold readBody at h
  split at h
  · cases h
  · split at h
    · cases h
    · obtain ⟨fault, -, he⟩ := mapError_eq_error.1 h
      cases he

private theorem requestedKey_ne_outage (t : SeriesSelector) (outage : Outage) :
    t.requestedKey.mapError ApiError.forecast ≠ .error (.forecast (.storeUnavailable outage)) := by
  intro h
  obtain ⟨e, h, he⟩ := mapError_eq_error.1 h
  cases he
  obtain ⟨fault, -, he⟩ := mapError_eq_error.1 h
  cases he

private theorem unavailable_of_forecast (hmodel : s.model.LeavesStoreOut)
    (h : s.forecast files r = .error (.forecast (.storeUnavailable outage))) :
    ∃ k outage, (s.backend.store files).observations k = .error (.unavailable outage) := by
  rcases Attempt.bind_eq_error.1 h with h | ⟨q, -, h⟩
  · exact absurd (Attempt.ofExcept_eq_error.1 h) (readBody_ne_forecast _ _)
  · rcases Attempt.bind_eq_error.1 h with h | ⟨k, -, h⟩
    · exact absurd (Attempt.ofExcept_eq_error.1 h) (requestedKey_ne_outage _ _)
    · rcases Attempt.bind_eq_error.1 h with h | ⟨v, -, h⟩
      · obtain ⟨e, h, he⟩ := Attempt.mapError_eq_error.1 h
        cases he
        exact ⟨k, outage, Forecaster.unavailable_of_forecast hmodel h⟩
      · cases h

private theorem unavailable_of_variance
    (h : s.variance files r = .error (.forecast (.storeUnavailable outage))) :
    ∃ k outage, (s.backend.store files).observations k = .error (.unavailable outage) := by
  have hsettings (c : VarianceConfig) (e : ForecastError) :
      c.validate.mapError (fun e => ApiError.body (.settings e)) ≠ .error (.forecast e) := by
    intro h
    obtain ⟨fault, -, he⟩ := mapError_eq_error.1 h
    cases he
  obtain ⟨q, -, h⟩ := eq_error_of_bind h (readBody_ne_forecast _ _)
  obtain ⟨-, -, h⟩ := eq_error_of_bind h (hsettings q.config _)
  obtain ⟨base, -, h⟩ := eq_error_of_bind h (requestedKey_ne_outage _ _)
  obtain ⟨compare, -, h⟩ := eq_error_of_bind h (requestedKey_ne_outage _ _)
  rcases bind_eq_error.1 h with h | ⟨v, -, h⟩
  · obtain ⟨e, h, he⟩ := mapError_eq_error.1 h
    cases he
    obtain ⟨k, hk⟩ := Forecaster.unavailable_of_variance h
    exact ⟨k, outage, hk⟩
  · cases h

structure Probe (r : HttpRequest) : Prop where
  method : r.method = "GET"
  path : Endpoint.ofPath? r.path = some .readiness

def probeKey : SeriesKey := ⟨"readiness-probe", .empty, by decide⟩

private theorem checkStore_healthy_iff {f : Forecaster} :
    (checkStore f).fault = none ↔ ∃ l, f.store.observations probeKey = .ok l := by
  have hkey : SeriesKey.make "readiness-probe" .empty = .ok probeKey :=
    SeriesKey.make_eq_ok_iff.2 ⟨rfl, rfl⟩
  unfold checkStore
  rw [hkey]
  dsimp only
  cases f.store.observations probeKey with
  | ok l => exact iff_of_true rfl ⟨l, rfl⟩
  | error e => exact iff_of_false nofun nofun

private theorem exists_check {response : HttpResponse} (h : s.readiness files = some response) :
    ∃ check : Check, check.name = "baseline_model" ∧
      response = s.report files [checkStore (s.forecaster files), check] := by
  obtain ⟨check, hcheck, rfl⟩ := Option.map_eq_some_iff.1 h
  obtain ⟨run, -, rfl⟩ := Option.map_eq_some_iff.1 hcheck
  exact ⟨_, rfl, rfl⟩

private theorem exists_readiness (hmodel : s.model.TakesOneStep) :
    ∃ response, s.readiness files = some response := by
  have hrun (h : History) {horizon : Horizon}
      (hone : Horizon.bounded 1 Horizon.defaultMax = .ok horizon) :
      runModel s.model h horizon ≠ .stopped := by
    cases hone
    exact runModel_ne_stopped (hmodel h)
  suffices hcheck : checkModel (s.forecaster files) ≠ none by
    obtain ⟨check, hcheck⟩ := Option.ne_none_iff_exists'.1 hcheck
    exact ⟨_, Option.map_eq_some_iff.2 ⟨check, hcheck, rfl⟩⟩
  intro hnone
  have hstopped := Attempt.result?_eq_none.1 (Option.map_eq_none_iff.1 hnone)
  obtain ⟨h, -, hstopped⟩ :=
    (Attempt.bind_eq_stopped.1 hstopped).resolve_left Attempt.ofExcept_ne_stopped
  obtain ⟨horizon, hone, hstopped⟩ :=
    (Attempt.bind_eq_stopped.1 hstopped).resolve_left Attempt.ofExcept_ne_stopped
  exact hrun h (mapError_eq_ok.1 (Attempt.ofExcept_eq_ok.1 hone))
    (Attempt.mapError_eq_stopped.1 hstopped)

private theorem report_status (s : AppState) (files : FileView) (checks : List Check) :
    (s.report files checks).status = 200 ∨ (s.report files checks).status = 503 := by
  unfold report jsonResponse
  dsimp only
  split
  · exact Or.inl rfl
  · exact Or.inr rfl

private theorem report_of_unavailable {outage : Outage} (check : Check)
    (h : (s.backend.store files).observations probeKey = .error (.unavailable outage)) :
    (s.report files [checkStore (s.forecaster files), check]).status = 503 := by
  have hfault : (checkStore (s.forecaster files)).fault.isNone = false := by
    rw [Bool.eq_false_iff, ne_eq, Option.isNone_iff_eq_none, checkStore_healthy_iff]
    rintro ⟨l, hl⟩
    cases h.symm.trans hl
  unfold report jsonResponse
  dsimp only
  rw [List.all_cons, hfault, Bool.false_and, if_neg Bool.false_ne_true]

private theorem readiness_of_unavailable {outage : Outage} {response : HttpResponse}
    (hresponse : s.readiness files = some response)
    (h : (s.backend.store files).observations probeKey = .error (.unavailable outage)) :
    response.status = 503 := by
  obtain ⟨check, -, rfl⟩ := exists_check hresponse
  exact report_of_unavailable check h

private theorem readiness_status {response : HttpResponse}
    (hresponse : s.readiness files = some response) :
    response.status = 200 ∨ response.status = 503 := by
  obtain ⟨check, -, rfl⟩ := exists_check hresponse
  exact report_status s files _

/-- A request is told to come back later only where the report says so, or where the store cannot be
reached for some series. -/
theorem unready_or_unavailable (hmodel : s.model.LeavesStoreOut) {response : HttpResponse}
    (hresponse : s.respond files r = some response) (hstatus : response.status = 503) :
    (∃ report, s.readiness files = some report ∧ report.status = 503) ∨
      ∃ k outage, (s.backend.store files).observations k = .error (.unavailable outage) := by
  obtain ⟨routed, hrouted, rfl⟩ := Option.map_eq_some_iff.1 hresponse
  change routed.status = 503 at hstatus
  unfold route at hrouted
  dsimp only at hrouted
  split at hrouted
  · cases hrouted
    cases hstatus
  · split at hrouted
    · cases hrouted
      cases hstatus
    next e he =>
      split at hrouted
      · obtain ⟨answered, hanswered, rfl⟩ := Option.map_eq_some_iff.1 hrouted
        have hstatus : answered.status = 503 := by
          split at hstatus <;> exact hstatus
        cases e with
        | liveness =>
          cases hanswered
          cases hstatus
        | readiness => exact Or.inl ⟨answered, hanswered, hstatus⟩
        | forecast =>
          obtain ⟨x, hx, rfl⟩ := Option.map_eq_some_iff.1 hanswered
          obtain ⟨outage, rfl⟩ := outage_of_reply hstatus
          exact Or.inr (unavailable_of_forecast hmodel (Attempt.result?_eq_some.1 hx))
        | variance =>
          cases hanswered
          obtain ⟨outage, h⟩ := outage_of_reply hstatus
          exact Or.inr (unavailable_of_variance h)
      · cases hrouted
        cases hstatus

private theorem respond_probe (s : AppState) (files : FileView) (hprobe : Probe r) :
    s.respond files r = (s.readiness files).map fun response =>
      { response with headers := ("access-control-allow-origin", "*") :: response.headers } := by
  have hroute : s.route files r = s.readiness files := by
    rw [route, hprobe.path, hprobe.method, if_neg (by decide)]
    change (if "GET" ∈ Endpoint.readiness.methods then (s.readiness files).map fun response =>
      if "GET" = "HEAD" then { response with body := "" } else response else _) = _
    rw [if_pos (by decide)]
    cases s.readiness files <;> rfl
  rw [respond, hroute]

private theorem holds_report (s : AppState) (files : FileView) (checks : List Check) :
    ∃ entries, Holds (s.report files checks).body (.record entries) ∧
      entries.lookup "checks" = some (.array (checks.map checkJson)) := by
  have hcheck (c : Check) : Json.Printable (checkJson c) := by
    apply Json.printable_record
    rw [List.forall_mem_append]
    refine ⟨?_, printable_optionalText "message" c.fault⟩
    simp [Json.Printable.text, Json.Printable.bool]
  refine ⟨_, holds_compact (Json.printable_record ?_), rfl⟩
  simpa [Json.Printable.text, Json.printable_int] using Json.printable_array_map hcheck checks

private theorem lookup_check {check : List (String × Json)} {c : Check}
    (h : .record check = checkJson c) :
    check.lookup "name" = some (.text c.name) ∧
      check.lookup "healthy" = some (.bool c.fault.isNone) := by
  obtain rfl := Json.record_inj h
  exact ⟨rfl, rfl⟩

end AppState

/-- A text with a list of checks, in which the one of some name is healthy. -/
def ReportsHealthy (text name : String) : Prop :=
  ∃ (entries : List (String × Json)) (checks : List Json) (check : List (String × Json)),
    Holds text (.record entries) ∧ entries.lookup "checks" = some (.array checks) ∧
      .record check ∈ checks ∧ check.lookup "name" = some (.text name) ∧
        check.lookup "healthy" = some (.bool true)

open AppState (probeKey)

private theorem reportsHealthy_iff {s : AppState} {files : FileView} {response : HttpResponse}
    (hresponse : s.readiness files = some response) :
    ReportsHealthy response.body "history_store" ↔
      ∃ l, (s.backend.store files).observations probeKey = .ok l := by
  obtain ⟨modelCheck, hmodel, rfl⟩ := AppState.exists_check hresponse
  obtain ⟨entries, hholds, hlookup⟩ := AppState.holds_report s files
    [AppState.checkStore (s.forecaster files), modelCheck]
  refine Iff.trans ?_ (AppState.checkStore_healthy_iff (f := s.forecaster files))
  constructor
  · rintro ⟨entries', checks, check, hholds', hlookup', hmem, hname, hhealthy⟩
    obtain rfl := Json.record_inj (hholds.unique hholds')
    obtain rfl := Json.array.inj (Option.some.inj (hlookup.symm.trans hlookup'))
    rcases List.mem_cons.1 hmem with hstore | hmem
    · have hfault := (AppState.lookup_check hstore).2
      rw [hhealthy] at hfault
      exact Option.isNone_iff_eq_none.1 (Json.bool.inj (Option.some.inj hfault)).symm
    · have hother := (AppState.lookup_check (List.mem_singleton.1 hmem)).1
      rw [hname, hmodel] at hother
      have hsame : "history_store" = "baseline_model" :=
        Option.some.inj (Json.string.inj (Option.some.inj hother))
      exact absurd hsame (by decide)
  · intro hfault
    refine ⟨entries, _, _, hholds, hlookup, List.mem_cons_self, rfl, ?_⟩
    have hhealthy := (AppState.lookup_check (c := AppState.checkStore (s.forecaster files)) rfl).2
    rw [hhealthy, hfault]
    rfl

open HistoryDocument (recordsOf) in
/-- Where the report says that the server is ready, no request is told to come back later, whatever
it asks for.  Of a file store the report says that it is healthy exactly where the file is a
document in which every series has a name and the one that the report asks for stands once at most.
A model may be any that does not blame the store, as a lag model never does, nor one that always
predicts the same; if it does not break off where one value is asked for, as these never do, there
is a report. -/
theorem readiness_is_sound :
    (∀ m : LagModel Float, m.toBaseline.LeavesStoreOut ∧ m.toBaseline.TakesOneStep) ∧
    (∀ name order p, (BaselineModel.mk name order fun _ _ => .ok p).LeavesStoreOut ∧
      (BaselineModel.mk name order fun _ _ => .ok p).TakesOneStep) ∧
    ∀ (s : AppState) (files : FileView) (probe : HttpRequest),
      s.backend.Provided → s.model.LeavesStoreOut → AppState.Probe probe →
      (s.model.TakesOneStep → ∃ report, s.respond files probe = some report) ∧
      ∀ report, s.respond files probe = some report →
        (report.status = 200 ∨ report.status = 503) ∧
        (report.status = 200 → ∀ r response, s.respond files r = some response →
          response.status ≠ 503) ∧
        ((∃ r response, s.respond files r = some response ∧ response.status = 503) →
          report.status = 503) ∧
        ∀ path, s.backend = .jsonFile path →
          (ReportsHealthy report.body "history_store" ↔
            ∃ bytes d, files path = .ok bytes ∧ HistoryDocument.ofBytes bytes = .ok d ∧
              (∀ r ∈ d.series, ¬ Blank r.scope) ∧ (recordsOf probeKey d.series).length ≤ 1) := by
  refine ⟨fun m => ⟨m.leavesStoreOut, m.takesOneStep⟩,
    fun name order p => ⟨fun h horizon outage => nofun, fun h => nofun⟩, ?_⟩
  intro s files probe hstore hmodel hprobe
  have hrespond := AppState.respond_probe s files hprobe
  refine ⟨fun hone => ?_, fun report hreport => ?_⟩
  · obtain ⟨response, hresponse⟩ : ∃ response, s.readiness files = some response :=
      AppState.exists_readiness hone
    exact ⟨_, hrespond.trans (Option.map_eq_some_iff.2 ⟨response, hresponse, rfl⟩)⟩
  obtain ⟨told, htold, rfl⟩ := Option.map_eq_some_iff.1 (hrespond.symm.trans hreport)
  have hsound {r : HttpRequest} {response : HttpResponse}
      (hresponse : s.respond files r = some response) (hstatus : response.status = 503) :
      told.status = 503 := by
    rcases AppState.unready_or_unavailable hmodel hresponse hstatus with
      ⟨same, hsame, hunready⟩ | ⟨k, outage, hk⟩
    · exact Option.some.inj (hsame.symm.trans htold) ▸ hunready
    · exact AppState.readiness_of_unavailable htold (hstore.unavailable hk probeKey)
  have hstatus := AppState.readiness_status htold
  have hhealthy := reportsHealthy_iff htold
  refine ⟨hstatus, fun hready r response hresponse hstatus => ?_,
    fun ⟨r, response, hresponse, hstatus⟩ => hsound hresponse hstatus, fun path hpath => ?_⟩
  · cases hready.symm.trans (hsound hresponse hstatus)
  · rw [hpath] at hhealthy
    refine (hhealthy.trans HistoryStore.exists_jsonFile_iff).trans ?_
    simp only [HistoryDocument.exists_find_iff]

/-- A file with two series, of which the report asks for one. -/
theorem readiness_is_sound_of_two_series :
    let text := "\x7b\"series\":[\x7b\"scoping_id\":\"acme\"\x7d," ++
      "\x7b\"scoping_id\":\"readiness-probe\"\x7d]\x7d"
    let files : FileView := fun _ => .ok (Text.bytes text)
    let s : AppState :=
      ⟨.jsonFile "history.json", LagModel.standard.toBaseline, 12, "json_file"⟩
    let probe : HttpRequest := ⟨"GET", "/health/ready", [], []⟩
    ∃ report, s.respond files probe = some report ∧ report.status = 200 ∧
      (∀ r response, s.respond files r = some response → response.status ≠ 503) ∧
      ReportsHealthy report.body "history_store" := by
  intro text files s probe
  let d : HistoryDocument := ⟨[⟨"acme", .empty, []⟩, ⟨"readiness-probe", .empty, []⟩]⟩
  have hpath : Endpoint.ofPath? probe.path = some .readiness := by decide
  obtain ⟨hanswered, hsound⟩ := readiness_is_sound.2.2 s files probe (.jsonFile "history.json")
    LagModel.standard.leavesStoreOut ⟨rfl, hpath⟩
  obtain ⟨report, hreport⟩ := hanswered LagModel.standard.takesOneStep
  obtain ⟨-, hkept, -, hhealthy⟩ := hsound report hreport
  have hstatus : (s.respond files probe).map HttpResponse.status = some 200 := by decide +kernel
  have hready : report.status = 200 := by
    rw [hreport] at hstatus
    exact Option.some.inj hstatus
  have hdocument : HistoryDocument.ofBytes (Text.bytes text) = .ok d := rfl
  have hnamed : ∀ r ∈ d.series, ¬ Blank r.scope := by decide
  have hone : (HistoryDocument.recordsOf probeKey d.series).length ≤ 1 := by decide
  exact ⟨report, hreport, hready, hkept hready,
    (hhealthy "history.json" rfl).2 ⟨_, d, rfl, hdocument, hnamed, hone⟩⟩

end LagForecast
