import LagForecast.History.Basic
import LagForecast.Series.Wire

/-!
Stores of histories.  A store gives no answer where it cannot be reached or where what it holds is
damaged.
-/

set_option autoImplicit false

namespace LagForecast

inductive FileFault where
  | missing
  /-- A directory stands where a file is wanted. -/
  | directory
  /-- A file stands where a directory is wanted. -/
  | notDirectory
  | nameTooLong
  /-- The path holds a zero byte. -/
  | zeroByte
  | denied
  deriving DecidableEq

def FileFault.message : FileFault → String
  | missing => "No such file or directory (os error 2)"
  | directory => "Is a directory (os error 21)"
  | notDirectory => "Not a directory (os error 20)"
  | nameTooLong => "File name too long (os error 36)"
  | zeroByte => "file name contained an unexpected NUL byte"
  | denied => "Permission denied (os error 13)"

inductive Outage where
  | file (path : String) (fault : FileFault)
  | stated (reason : String)
  deriving DecidableEq

def Outage.message : Outage → String
  | file path fault => path ++ ": " ++ fault.message
  | stated reason => reason

/-- What is wrong with stored data. -/
inductive Damage where
  | text (fault : WireFault)
  | key (error : KeyError)
  | repeated (series : String)
  | inSeries (series : String) (error : HistoryError)
  | history (error : HistoryError)
  deriving DecidableEq

def Damage.message : Damage → String
  | text fault => WireFault.message fault
  | key error => error.message
  | repeated series => "series " ++ series ++ " listed more than once"
  | inSeries series error => "series " ++ series ++ ": " ++ error.message
  | history error => error.message

/-- Why a store gives no answer. -/
inductive StoreError where
  | unavailable (outage : Outage)
  | malformed (damage : Damage)
  deriving DecidableEq

namespace StoreError

def message : StoreError → String
  | unavailable outage => "History store unavailable: " ++ outage.message
  | malformed damage => "Malformed history data: " ++ damage.message

def transient : StoreError → Bool
  | unavailable _ => true
  | malformed _ => false

end StoreError

/-- A store of observations.  A series that it does not have is no fault: it has no observations. -/
structure HistoryStore where
  name : String
  observations : SeriesKey → Except StoreError (List Observation)

namespace HistoryStore

def down (reason : String) : HistoryStore :=
  ⟨"down", fun _ => .error (.unavailable (.stated reason))⟩

/-- A store that has the same observations, unchecked, for every series. -/
def raw (observations : List Observation) : HistoryStore := ⟨"raw", fun _ => .ok observations⟩

end HistoryStore

end LagForecast
