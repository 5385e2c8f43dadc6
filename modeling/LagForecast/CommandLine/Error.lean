import LagForecast.Forecast.Error

/-!
Why a command fails.
-/

set_option autoImplicit false

namespace LagForecast

/-- Why a file holds no observations. -/
inductive LoadError where
  | opening (fault : FileFault)
  | headers
  /-- A record cannot be read, or has not as many fields as the first. -/
  | record
  | noColumn (name : String)
  | noValueColumn
  | missingValue (row : Nat)
  | notNumber (row : Nat) (text : String)
  | notInteger (row : Nat) (text : String)
  | noRows
  | json
  | noArray
  | noNumbers
  | entryPeriod (entry : Nat)
  | entryValue (entry : Nat)
  deriving DecidableEq

/-- The text shown when a file holds no observations; the place and nature of a fault of the text
itself are left out. -/
def LoadError.message : LoadError → String
  | opening fault => "Failed to open file: " ++ fault.message
  | headers => "Failed to read headers: <detail>"
  | record => "Failed to read record: <detail>"
  | noColumn name => "Column '" ++ name ++ "' not found"
  | noValueColumn => "No value column found"
  | missingValue row => "Row " ++ toString row ++ ": missing value"
  | notNumber row text => "Row " ++ toString row ++ ": '" ++ text ++ "' is not a number"
  | notInteger row text =>
    "Row " ++ toString row ++ ": period '" ++ text ++ "' is not an integer"
  | noRows => "No numeric data found in the specified column"
  | json => "Failed to parse JSON: <detail>"
  | noArray => "Could not find an observation array in JSON"
  | noNumbers => "Could not extract numeric data from JSON"
  | entryPeriod entry => "Entry " ++ toString entry ++ ": period is not an integer"
  | entryValue entry => "Entry " ++ toString entry ++ ": no numeric value"

inductive CommandError where
  | load (error : LoadError)
  | history (error : HistoryError)
  | forecast (error : ForecastError)
  | output (fault : FileFault)
  deriving DecidableEq

def CommandError.message : CommandError → String
  | load error => error.message
  | history error => "Invalid history: " ++ error.message
  | forecast error => error.message
  | output fault => "Failed to create output: " ++ fault.message

end LagForecast
