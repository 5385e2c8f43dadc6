import LagForecast.CommandLine.Arguments
import LagForecast.CommandLine.Input
import LagForecast.Forecast.Run
import LagForecast.Number.Binary
import LagForecast.Store.FileTree
import LagForecast.Text.Quoted
import LagForecast.Variance.Compute

/-!
What commands do, and what they print.
-/

set_option autoImplicit false

namespace LagForecast

def loadHistoryFile (files : FileView) (path : String) (column : Option String) :
    Except CommandError History := do
  let l ← (loadObservations files path column).mapError .load
  (History.ofList l).mapError .history

/-- Forecast from a file.  The horizon is checked before the file is read, and the model is made
after it. -/
def forecastFile (files : FileView) (c : ForecastCommand) :
    Attempt CommandError ForecastVector := do
  let horizon ← (Horizon.bounded c.horizon c.maxHorizon).mapError CommandError.forecast
  let h ← loadHistoryFile files c.input c.column
  let model ← c.model.build.mapError .forecast
  (runModel model.toBaseline h horizon).mapError .forecast

def varianceFiles (files : FileView) (c : VarianceCommand) : Except CommandError VarianceReport := do
  let base ← (loadObservations files c.base c.column).mapError .load
  let compare ← (loadObservations files c.compare c.column).mapError .load
  (computeVariance base compare c.config).mapError .forecast

/-- What a command has to tell: notes for the reader, the result, and the file to write it to. -/
structure CommandReport where
  notes : String
  result : Json
  output : Option String

structure CommandOutcome where
  exit : Nat
  stdout : String
  stderr : String
  deriving DecidableEq

def joinLines (lines : List String) : String := String.join (lines.map fun l => l ++ "\n")

def forecastNotes (input : String) (v : ForecastVector) : String :=
  let m := v.metadata
  let name := String.ofList ((fileName? input).getD [])
  joinLines
    (["Loaded " ++ toString m.historyLength ++ " observations from " ++ Text.quoted name,
      "Model: " ++ m.model ++ " (order " ++ toString m.order ++ ", window " ++
        toString m.window ++ ")"] ++
    (if m.insufficientHistory then
      ["Warning: fewer observations than the model order; partial window used"]
    else []) ++
    v.periods.map fun p => "  Period " ++ toString p.1 ++ ": " ++ fixedPlaces 4 p.2)

def varianceNotes (r : VarianceReport) : String :=
  joinLines [toString r.points.length ++ " points, " ++ toString r.skipped ++ " skipped, " ++
    toString r.suppressed ++ " suppressed, total delta " ++ fixedPlaces 4 r.totalDelta]

def Command.run (files : FileView) : Command → Attempt CommandError CommandReport
  | .forecast c => do
    let v ← forecastFile files c
    return ⟨forecastNotes c.input v, v.toJson, c.output⟩
  | .variance c => do
    let r ← varianceFiles files c
    return ⟨varianceNotes r, r.toJson, c.output⟩

namespace CommandOutcome

def usage : CommandOutcome :=
  ⟨2, "", joinLines ["Usage: baseline forecast --input <FILE> --horizon <N> [options]",
    "       baseline variance --base <FILE> --compare <FILE> [options]"]⟩

def failed (notes : String) (e : CommandError) : CommandOutcome :=
  ⟨1, "", notes ++ joinLines ["Error: " ++ e.message]⟩

end CommandOutcome

namespace CommandReport

def text (r : CommandReport) : String := r.result.pretty

/-- The end of a command whose file, if there is one, could be written or not. -/
def finish (r : CommandReport) (written : Except FileFault Unit) : CommandOutcome :=
  match r.output, written with
  | none, _ => ⟨0, joinLines [r.text], r.notes⟩
  | some path, .ok () => ⟨0, joinLines ["Results written to " ++ Text.quoted path], r.notes⟩
  | some _, .error fault => .failed r.notes (.output fault)

end CommandReport

/-- Run a command on a tree of files: what it prints, and the files after it, unless it breaks
off. -/
def Command.runIn (t : FileTree) (c : Command) : Option (CommandOutcome × FileTree) := do
  match ← (c.run t.view).result? with
  | .error e => return (.failed "" e, t)
  | .ok report =>
    match report.output with
    | none => return (report.finish (.ok ()), t)
    | some path =>
      match t.write path (Text.bytes report.text) with
      | .ok after => return (report.finish (.ok ()), after)
      | .error fault => return (report.finish (.error fault), t)

end LagForecast
