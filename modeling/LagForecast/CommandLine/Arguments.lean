import LagForecast.Forecast.Config
import LagForecast.Number.Real
import LagForecast.Number.Whole
import LagForecast.Text.Basic
import LagForecast.Variance.Wire

/-!
The arguments of the command line: a command, then its options in any order.
-/

set_option autoImplicit false

namespace LagForecast

/-- An option of a command: its names, how it may be given, and how its value is stored. -/
structure CommandOption (ρ : Type) where
  long : String
  short : Option Char
  store : String → ρ → Option ρ
  takesValue : Bool := true
  /-- Whether a negative number may be its value in an argument of its own. -/
  allowsNegative : Bool := false
  repeatable : Bool := false
  required : Bool := false

/-- Digits with at most one point, not in front, and at most one exponent mark, neither in front
nor at the end. -/
def looksNumeric (cs : List Char) : Bool :=
  let (whole, rest) := leadingDigits Digit.ofChar? cs
  let rest :=
    match whole, rest with
    | _ :: _, '.' :: rest => (leadingDigits Digit.ofChar? rest).2
    | _, rest => rest
  match rest with
  | [] => true
  | c :: rest =>
    (c = 'e' || c = 'E') && whole ≠ [] && rest ≠ [] && (leadingDigits Digit.ofChar? rest).2 = []

namespace CommandOption

variable {ρ : Type}

def takes (o : CommandOption ρ) (arg : String) : Bool :=
  match arg.toList with
  | '-' :: c :: rest => o.allowsNegative && looksNumeric (c :: rest)
  | _ => true

/-- The option that an argument names, and the value attached to it. -/
def named? (options : List (CommandOption ρ)) (arg : String) :
    Option (CommandOption ρ × Option String) :=
  match arg.toList with
  | '-' :: '-' :: cs =>
    let name := cs.takeWhile (· ≠ '=')
    let value :=
      match cs.drop name.length with
      | [] => none
      | _ :: rest => some (String.ofList rest)
    (options.find? fun o => o.long.toList = name).map fun o => (o, value)
  | '-' :: c :: cs =>
    let value :=
      match cs with
      | [] => none
      | '=' :: rest => some (String.ofList rest)
      | cs => some (String.ofList cs)
    (options.find? fun o => o.short = some c).map fun o => (o, value)
  | _ => none

/-- Store what the arguments say, one option after the other.  An option may be given once unless
it is repeatable, and the required ones have to be given; two dashes may end the list. -/
def parse (options : List (CommandOption ρ)) : List String → ρ → List String → Option ρ
  | seen, r, [] =>
    if options.all fun o => !o.required || seen.contains o.long then some r else none
  | seen, r, arg :: rest =>
    if arg = "--" then
      if rest = [] ∧ options.all fun o => !o.required || seen.contains o.long then some r else none
    else
      match named? options arg with
      | none => none
      | some (o, attached) =>
        if seen.contains o.long && !o.repeatable then none
        else
          match o.takesValue, attached, rest with
          | true, some value, rest => do
            let r ← o.store value r
            parse options (o.long :: seen) r rest
          | true, none, value :: rest =>
            if o.takes value then do
              let r ← o.store value r
              parse options (o.long :: seen) r rest
            else none
          | true, none, [] => none
          | false, none, rest => do
            let r ← o.store "" r
            parse options (o.long :: seen) r rest
          | false, some _, _ => none

end CommandOption

structure ForecastCommand where
  input : String := ""
  horizon : Int := 0
  model : LagConfig := {}
  maxHorizon : Nat := Horizon.defaultMax
  column : Option String := none
  output : Option String := none

structure VarianceCommand where
  base : String := ""
  compare : String := ""
  config : VarianceConfig := {}
  column : Option String := none
  output : Option String := none

inductive Command where
  | forecast (c : ForecastCommand)
  | variance (c : VarianceCommand)

namespace Command

def path? (s : String) : Option String := if s = "" then none else some s

def nat? (s : String) : Option Nat := (readNat 0xFFFFFFFFFFFFFFFF s).toOption

def int? (s : String) : Option Int := (readInt 0x7FFFFFFFFFFFFFFF s).toOption

def float? (s : String) : Option Float := (readFloat s).toOption

def floats? (s : String) : Option (List Float) :=
  (Text.parts ',' s).mapM fun part => float? (String.ofList part)

def forecastOptions : List (CommandOption ForecastCommand) := [
  { long := "input", short := some 'i', required := true
    store := fun s c => do return { c with input := ← path? s } },
  { long := "horizon", short := none, required := true, allowsNegative := true
    store := fun s c => do return { c with horizon := ← int? s } },
  { long := "order", short := some 'k'
    store := fun s c => do return { c with model := { c.model with order := ← nat? s } } },
  { long := "weights", short := some 'w', allowsNegative := true, repeatable := true
    store := fun s c => do
      let weights := c.model.weights.getD [] ++ (← floats? s)
      return { c with model := { c.model with weights := some weights } } },
  { long := "clamp", short := none, takesValue := false
    store := fun _ c => some { c with model := { c.model with clampToHistory := true } } },
  { long := "max-horizon", short := none
    store := fun s c => do return { c with maxHorizon := ← nat? s } },
  { long := "column", short := some 'c'
    store := fun s c => some { c with column := some s } },
  { long := "output", short := some 'o'
    store := fun s c => do return { c with output := some (← path? s) } }]

def varianceOptions : List (CommandOption VarianceCommand) := [
  { long := "base", short := some 'b', required := true
    store := fun s c => do return { c with base := ← path? s } },
  { long := "compare", short := some 'x', required := true
    store := fun s c => do return { c with compare := ← path? s } },
  { long := "adverse", short := none, takesValue := false
    store := fun _ c => some { c with config := { c.config with direction := .adverse } } },
  { long := "noise", short := none
    store := fun s c => do
      return { c with config := { c.config with noiseThreshold := ← float? s } } },
  { long := "missing", short := none
    store := fun s c => do
      return { c with config := { c.config with missing := ← MissingPolicy.names.lookup s } } },
  { long := "column", short := some 'c'
    store := fun s c => some { c with column := some s } },
  { long := "output", short := some 'o'
    store := fun s c => do return { c with output := some (← path? s) } }]

def ofArguments : List String → Option Command
  | "forecast" :: rest => (CommandOption.parse forecastOptions [] {} rest).map forecast
  | "variance" :: rest => (CommandOption.parse varianceOptions [] {} rest).map variance
  | _ => none

def inputs : Command → List String
  | forecast c => [c.input]
  | variance c => [c.base, c.compare]

end Command

end LagForecast
