import LagForecast.CommandLine.Run
import LagForecast.Proofs.CommandLine.Entries
import LagForecast.Proofs.CommandLine.Tables
import LagForecast.Proofs.Forecast.Cascade

/-!
# Files and series

A forecast from a file that lists some observations is the one that the service makes for a series
of which its store has these observations, and so is a comparison.  The command checks the horizon,
reads the file and makes the model; the service makes the model, checks the horizon and asks the
store.  What fails in either order fails in the other.
-/

set_option autoImplicit false

namespace LagForecast

/-- A file that lists observations: a table with columns of periods and of values, or a JSON text
with an array of objects, whatever else the text holds and however the numbers are spelled. -/
inductive FileLists (files : FileView) (path : String) (l : List Observation) : Prop
  | table {bs : List UInt8} {lines : List (List (List UInt8))} (hpath : extension path = "csv")
      (hfile : files path = .ok bs) (hbytes : Csv.records bs = Table.header :: lines)
      (h : List.Forall₂ Table.RowHolds lines l)
  | json {bs : List UInt8} {entries : List (Option String × Json)} {items : List Json}
      (hpath : extension path = "json") (hfile : files path = .ok bs)
      (hbytes : Json.readExpanded? bs = some (.object entries))
      (hitems : Json.lastEntry? "observations" entries = some (.array items))
      (h : List.Forall₂ Json.ItemHolds items l)

variable {files : FileView} {path : String} {column : Option String} {l : List Observation}

theorem loadTable_eq {bs : List UInt8} (h : files path = .ok bs) :
    loadTable files path column = Table.observations column bs := by
  rw [loadTable, loadWith, h]

theorem loadJson_eq {bs : List UInt8} (h : files path = .ok bs) :
    loadJson files path column = Json.observations column bs := by
  rw [loadJson, loadWith, h]

private theorem FileLists.load (h : FileLists files path l) (hl : ∀ o ∈ l, Json.Int64 o.period)
    (hcolumn : column.getD "value" = "value") :
    (loadObservations files path column).toOption = if l = [] then none else some l := by
  have hloaded {e : LoadError} {x : Except LoadError (List Observation)}
      (hx : x = if l = [] then .error e else .ok l) :
      x.toOption = if l = [] then none else some l := by
    rw [hx]
    split <;> rfl
  cases h with
  | table hpath hfile hbytes hrows =>
    rw [loadObservations, if_pos hpath, loadTable_eq hfile]
    exact hloaded (Table.observations_of_rows hcolumn hbytes hrows)
  | json hpath hfile hbytes hitems hall =>
    have hne : extension path ≠ "csv" := by
      rw [hpath]
      decide
    rw [loadObservations, if_neg hne, if_pos hpath, loadJson_eq hfile]
    exact hloaded (Json.observations_of_items hcolumn hbytes hitems hall hl)

private theorem fileLists_table {eol : List UInt8} (heol : eol ∈ Csv.lineEnds)
    (hpath : extension path = "csv") (hfile : files path = .ok (Table.written eol l))
    (hp : ∀ o ∈ l, Json.Int64 o.period) (hv : ∀ o ∈ l, o.value.isFinite = true) :
    FileLists files path l := by
  refine .table hpath hfile (Table.records_written heol l) ?_
  rw [List.forall₂_map_left_iff]
  exact List.forall₂_same.2 fun o ho => Table.rowHolds_row (hp o ho) (hv o ho)

private theorem fileLists_json (hpath : extension path = "json")
    (hfile : files path = .ok (Text.bytes (Json.listing l).compact))
    (hp : ∀ o ∈ l, Json.Int64 o.period) (hv : ∀ o ∈ l, o.value.isFinite = true) :
    FileLists files path l := by
  refine .json hpath hfile (Json.readExpanded_listing hp hv) rfl ?_
  rw [List.forall₂_map_left_iff]
  exact List.forall₂_same.2 fun o ho => Json.itemHolds_toJson (hv o ho)

def ForecastVector.unnamed (v : ForecastVector) : ForecastVector :=
  { v with metadata := { v.metadata with series := none } }

def VarianceReport.unnamed (r : VarianceReport) : VarianceReport :=
  { r with baseSeries := none, compareSeries := none }

def ForecastCommand.served (c : ForecastCommand) (store : HistoryStore) (k : SeriesKey) :
    Attempt ForecastError ForecastVector := do
  let f ← ForecasterConfig.build ⟨c.model, c.maxHorizon⟩ store
  f.forecast k c.horizon

private theorem unnamed_of_runModel {model : BaselineModel} {h : History} {horizon : Horizon}
    {v : ForecastVector} (hv : runModel model h horizon = .ok v) (name : String) :
    ForecastVector.unnamed { v with metadata := { v.metadata with series := some name } } = v := by
  unfold runModel at hv
  split at hv
  · cases hv
  · obtain ⟨p, -, hv⟩ := Attempt.bind_eq_ok.1 hv
    split at hv
    · cases hv
    · cases hv
      rfl

private theorem FileLists.history (h : FileLists files path l) (hl : ∀ o ∈ l, Json.Int64 o.period)
    (hcolumn : column.getD "value" = "value") (k : SeriesKey) :
    (loadHistoryFile files path column).toOption =
      (Forecaster.historyIn k (.ok l)).toOption := by
  have hload := h.load hl hcolumn
  rw [loadHistoryFile, toOption_bind, toOption_mapError, hload]
  by_cases hne : l = []
  · subst hne
    rfl
  · rw [if_neg hne, Forecaster.historyIn_of_ne_nil k hne, toOption_mapError]
    exact toOption_mapError _ _

private theorem toOption_served {c : ForecastCommand} (hcap : c.maxHorizon ≠ 0)
    {store : HistoryStore} {k : SeriesKey} (hk : store.observations k = .ok l) :
    (c.served store k).toOption.map ForecastVector.unnamed =
      c.model.build.toOption.bind fun m =>
        (Horizon.bounded c.horizon c.maxHorizon).toOption.bind fun horizon =>
          (Forecaster.historyIn k (.ok l)).toOption.bind fun h =>
            (runModel m.toBaseline h horizon).toOption := by
  have hbuild : (ForecasterConfig.build ⟨c.model, c.maxHorizon⟩ store).toOption =
      c.model.build.toOption.map fun m => ⟨store, m.toBaseline, c.maxHorizon⟩ := by
    rw [ForecasterConfig.build, if_neg hcap]
    cases c.model.build <;> rfl
  have hnamed (m : LagModel Float) (horizon : Horizon) (h : History) :
      (runModel m.toBaseline h horizon >>= fun v => Attempt.ok
        { v with metadata := { v.metadata with series := some k.fingerprint } }).toOption.map
          ForecastVector.unnamed = (runModel m.toBaseline h horizon).toOption := by
    cases hv : runModel m.toBaseline h horizon with
    | error | stopped => rfl
    | ok v => exact congrArg some (unnamed_of_runModel hv k.fingerprint)
  rw [ForecastCommand.served, Attempt.toOption_bind, hbuild]
  cases c.model.build with
  | error | stopped => rfl
  | ok m =>
    change ((Forecaster.mk store m.toBaseline c.maxHorizon).forecast k c.horizon).toOption.map
      ForecastVector.unnamed = _
    rw [Forecaster.forecast_eq, Forecaster.loadHistory, hk]
    cases Horizon.bounded c.horizon c.maxHorizon with
    | error e => rfl
    | ok horizon =>
      cases Forecaster.historyIn k (.ok l) with
      | error e => rfl
      | ok h => exact hnamed m horizon h

private theorem FileLists.forecast {c : ForecastCommand} (h : FileLists files c.input l)
    (hl : ∀ o ∈ l, Json.Int64 o.period) (hcolumn : c.column.getD "value" = "value")
    {store : HistoryStore} {k : SeriesKey} (hk : store.observations k = .ok l) :
    (forecastFile files c).toOption = (c.served store k).toOption.map ForecastVector.unnamed := by
  by_cases hcap : c.maxHorizon = 0
  · have hbounded : Horizon.bounded c.horizon c.maxHorizon =
        .error (.invalidHorizon c.horizon c.maxHorizon) :=
      Horizon.bounded_of_outOfRange (by omega)
    rw [forecastFile, hbounded, ForecastCommand.served, ForecasterConfig.build, if_pos hcap]
    rfl
  · have hhistory := h.history hl hcolumn k
    rw [toOption_served hcap hk, forecastFile]
    simp only [Attempt.toOption_bind, Attempt.toOption_mapError, Attempt.toOption_liftM,
      toOption_mapError, hhistory]
    -- The model is made last here and first there.
    refine Eq.trans (congrArg (Option.bind _) (funext fun horizon => ?_)) (Option.bind_comm _ _)
    exact Option.bind_comm _ _

private theorem unnamed_ofVerdicts (l : List Verdict) (base compare : Option String) :
    VarianceReport.unnamed
      { VarianceReport.ofVerdicts l with baseSeries := base, compareSeries := compare } =
        VarianceReport.ofVerdicts l := by
  induction l with
  | nil => rfl
  | cons v rest ih =>
    cases v with
    | skipped => exact congrArg (VarianceReport.record .skipped) ih
    | suppressed => exact congrArg (VarianceReport.record .suppressed) ih
    | point p => exact congrArg (VarianceReport.record (.point p)) ih

private theorem FileLists.variance {c : VarianceCommand} {m : List Observation}
    (hbase : FileLists files c.base l) (hcompare : FileLists files c.compare m)
    (hl : ∀ o ∈ l, Json.Int64 o.period) (hm : ∀ o ∈ m, Json.Int64 o.period)
    (hlvalid : IsHistory l) (hmvalid : IsHistory m) (hcolumn : c.column.getD "value" = "value")
    {f : Forecaster} {base compare : SeriesKey} (hb : f.store.observations base = .ok l)
    (hc : f.store.observations compare = .ok m) :
    varianceFiles files c =
      ((f.variance base compare c.config).map VarianceReport.unnamed).mapError .forecast := by
  have hloaded {path : String} {l : List Observation} (h : FileLists files path l)
      (hl : ∀ o ∈ l, Json.Int64 o.period) (hvalid : IsHistory l) :
      loadObservations files path c.column = .ok l := by
    have hload := h.load hl hcolumn
    rw [if_neg hvalid.nonempty] at hload
    exact toOption_eq_some.1 hload
  have hserved {k : SeriesKey} {l : List Observation} (hk : f.store.observations k = .ok l)
      (hvalid : IsHistory l) : ∃ h, f.loadHistory k = .ok h ∧ h.observations = l := by
    obtain ⟨h, hh⟩ := History.exists_ofList_iff.2 hvalid
    obtain rfl := History.observations_of_ofList hh
    refine ⟨h, ?_, rfl⟩
    rw [Forecaster.loadHistory, hk, Forecaster.historyIn_of_isHistory]
  obtain ⟨h, hbase', rfl⟩ := hserved hb hlvalid
  obtain ⟨h', hcompare', rfl⟩ := hserved hc hmvalid
  rw [varianceFiles, hloaded hbase hl hlvalid, hloaded hcompare hm hmvalid,
    Forecaster.variance_eq, hbase', hcompare']
  cases hconfig : c.config.validate with
  | error e =>
    change Except.mapError _ (computeVariance _ _ _) = _
    rw [computeVariance, hconfig]
    rfl
  | ok _ =>
    change Except.mapError _ (computeVariance _ _ _) =
      ((computeVariance _ _ _ >>= fun r => Except.ok { r with
        baseSeries := some base.fingerprint,
        compareSeries := some compare.fingerprint }).map VarianceReport.unnamed).mapError _
    rw [computeVariance, hconfig]
    exact congrArg Except.ok (unnamed_ofVerdicts _ _ _).symm

/-- Whatever files there are: from one that lists observations with 64-bit periods the command
forecasts exactly when the service does so over any store that has them, and the same, but that the
service names the series; two that list histories are compared as the service compares them.  A
table without a column of periods, or an array without periods, is numbered from 1 on, and so is an
item without a period among others.  Every list of finite values is listed by a table, with either
end of lines, and by a JSON text. -/
theorem files_agree_with_service (files : FileView) :
    (∀ (c : ForecastCommand) (l : List Observation), FileLists files c.input l →
      (∀ o ∈ l, Json.Int64 o.period) → c.column.getD "value" = "value" →
      ∀ (store : HistoryStore) (k : SeriesKey), store.observations k = .ok l →
        (forecastFile files c).toOption =
          (c.served store k).toOption.map ForecastVector.unnamed) ∧
    (∀ (c : VarianceCommand) (l m : List Observation),
      FileLists files c.base l → FileLists files c.compare m →
      (∀ o ∈ l, Json.Int64 o.period) → (∀ o ∈ m, Json.Int64 o.period) →
      IsHistory l → IsHistory m → c.column.getD "value" = "value" →
      ∀ (f : Forecaster) (base compare : SeriesKey), f.store.observations base = .ok l →
        f.store.observations compare = .ok m →
        varianceFiles files c =
          ((f.variance base compare c.config).map VarianceReport.unnamed).mapError .forecast) ∧
    (∀ (path : String) (bs : List UInt8), files path = .ok bs → ∀ column l,
      (∀ first lines names value, Csv.records bs = first :: lines →
        Csv.texts? first = some names → Table.periodColumn names = none →
        Table.valueColumn names column = .ok value →
        (loadTable files path column = .ok l ↔ l ≠ [] ∧ ∃ values,
          List.Forall₂ (Table.RowValue names.length value) lines values ∧
          l = History.consecutive 1 values)) ∧
      ∀ v items, Json.readExpanded? bs = some v → Json.observationArray v = .ok items →
        ((∀ item ∈ items, Json.Periodless item) →
          (loadJson files path column = .ok l ↔ l ≠ [] ∧ ∃ values,
            List.Forall₂ (Json.ItemValue (column.getD "value")) items values ∧
            l = History.consecutive 1 values)) ∧
        (loadJson files path column = .ok l → ∀ (i : Nat) (item : Json), items[i]? = some item →
          Json.Periodless item →
          ∃ x, Json.ItemValue (column.getD "value") item x ∧ l[i]? = some ⟨i + 1, x⟩)) ∧
    ∀ (path : String) (l : List Observation), (∀ o ∈ l, Json.Int64 o.period) →
      (∀ o ∈ l, o.value.isFinite = true) →
      (extension path = "csv" → ∀ eol ∈ Csv.lineEnds, files path = .ok (Table.written eol l) →
        FileLists files path l) ∧
      (extension path = "json" → files path = .ok (Text.bytes (Json.listing l).compact) →
        FileLists files path l) := by
  refine ⟨?_, ?_, ?_, ?_⟩
  · intro c l h hl hcolumn store k hk
    exact h.forecast hl hcolumn hk
  · intro c l m hbase hcompare hl hm hlvalid hmvalid hcolumn f base compare hb hc
    exact hbase.variance hcompare hl hm hlvalid hmvalid hcolumn hb hc
  · intro path bs hfile column l
    rw [loadTable_eq hfile, loadJson_eq hfile]
    refine ⟨?_, ?_⟩
    · intro first lines names value hbytes hnames hperiods hvalue
      exact Table.observations_unnumbered hbytes hnames hperiods hvalue l
    · intro v items hbytes hitems
      exact Json.observations_periodless hbytes hitems l
  · intro path l hp hv
    refine ⟨?_, ?_⟩
    · intro hpath eol heol hfile
      exact fileLists_table heol hpath hfile hp hv
    · intro hpath hfile
      exact fileLists_json hpath hfile hp hv

/-- Two rows, in a table and in a JSON text. -/
theorem files_agree_with_service_of_two_rows :
    let table := "period,value\n1,2.5\n2,3.5\n"
    let array := "\x7b\"observations\":[\x7b\"period\":1,\"value\":2.5\x7d," ++
      "\x7b\"period\":2,\"value\":3.5\x7d]\x7d"
    let files : FileView := fun path => .ok (Text.bytes (if path = "a.csv" then table else array))
    let c : ForecastCommand := { input := "a.csv", horizon := 2, model := { order := 1 } }
    ∃ v : ForecastVector, v.values = [3.5, 3.5] ∧ v.startPeriod = 3 ∧
      forecastFile files c = .ok v ∧ forecastFile files { c with input := "a.json" } = .ok v := by
  intro table array files c
  let l : List Observation := [⟨1, 2.5⟩, ⟨2, 3.5⟩]
  have hp : ∀ o ∈ l, Json.Int64 o.period := by simp [l, Json.Int64]
  have hv : ∀ o ∈ l, o.value.isFinite = true :=
    List.forall_mem_cons.2 ⟨by decide +kernel, List.forall_mem_singleton.2 (by decide +kernel)⟩
  have htable : files "a.csv" = .ok (Table.written [0x0A] l) :=
    congrArg Except.ok (by decide +kernel)
  have harray : files "a.json" = .ok (Text.bytes (Json.listing l).compact) :=
    congrArg Except.ok (by decide +kernel)
  obtain ⟨hforecast, -, -, hlists⟩ := files_agree_with_service files
  have hcsv := (hlists "a.csv" l hp hv).1 rfl [0x0A] (by decide) htable
  have hjson := (hlists "a.json" l hp hv).2 rfl harray
  have hserved : ((ForecastCommand.served
      { input := "a.csv", horizon := 2, model := { order := 1 } }
      (.raw [⟨1, 2.5⟩, ⟨2, 3.5⟩]) ⟨"s", .empty, by decide⟩).toOption.map fun v =>
        (v.values, v.startPeriod)) = some ([3.5, 3.5], 3) := by decide +kernel
  obtain ⟨v, hsome, hvalues⟩ := Option.map_eq_some_iff.1 hserved
  obtain ⟨hvalues, hstart⟩ := Prod.mk.inj hvalues
  have hfirst := hforecast c l hcsv hp rfl (.raw l) ⟨"s", .empty, by decide⟩ rfl
  have hsecond := hforecast { c with input := "a.json" } l hjson hp rfl (.raw l)
    ⟨"s", .empty, by decide⟩ rfl
  change _ = (c.served (.raw l) _).toOption.map _ at hsecond
  rw [hsome] at hfirst hsecond
  exact ⟨v.unnamed, hvalues, hstart, Attempt.toOption_eq_some.1 hfirst,
    Attempt.toOption_eq_some.1 hsecond⟩

end LagForecast
