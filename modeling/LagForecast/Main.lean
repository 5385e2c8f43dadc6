import LagForecast.CommandLine.Run

/-!
The command line program: it reads the files that a command names, runs the command on them, and
writes and prints what the command has to tell.
-/

set_option autoImplicit false

namespace LagForecast

def FileFault.ofSystem : IO.Error → FileFault
  | .noFileOrDirectory .. => .missing
  | .inappropriateType _ code _ => if code = 21 then .directory else .notDirectory
  | .invalidArgument .. => .nameTooLong
  | .permissionDenied .. => .denied
  | _ => .directory

def tryFile {α : Type} (act : IO α) : IO (Except FileFault α) := do
  match ← act.toBaseIO with
  | .ok a => return .ok a
  | .error e => return .error (.ofSystem e)

def readInputs (paths : List String) : IO FileView := do
  let contents ← paths.mapM fun (path : String) => do
    let read ← tryFile (IO.FS.readBinFile path)
    return (path, read.map fun bytes => bytes.data.toList)
  return fun path => (contents.lookup path).getD (.error .missing)

def conclude (o : CommandOutcome) : IO UInt32 := do
  IO.eprint o.stderr
  IO.print o.stdout
  return o.exit.toUInt32

/-- The exit code of a program that has broken off. -/
def brokenOff : UInt32 := 101

def runArguments (args : List String) : IO UInt32 := do
  match Command.ofArguments args with
  | none => conclude .usage
  | some command =>
    match command.run (← readInputs command.inputs) with
    | .stopped => return brokenOff
    | .error e => conclude (.failed "" e)
    | .ok report =>
      let written ← match report.output with
        | none => pure (.ok ())
        | some path => tryFile (IO.FS.writeFile path report.text)
      conclude (report.finish written)

end LagForecast

def main (args : List String) : IO UInt32 := LagForecast.runArguments args
