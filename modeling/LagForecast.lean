import LagForecast.Main
import LagForecast.Proofs.Series.Construction
import LagForecast.Proofs.Store.Naming
import LagForecast.Proofs.Store.Agreement
import LagForecast.Proofs.History.Faults
import LagForecast.Proofs.Forecast.Rescaling
import LagForecast.Proofs.Forecast.Rationals
import LagForecast.Proofs.Forecast.Unclamped
import LagForecast.Proofs.Forecast.Splitting
import LagForecast.Proofs.Forecast.Periods
import LagForecast.Proofs.Forecast.Interference
import LagForecast.Proofs.Variance.Settings
import LagForecast.Proofs.Variance.Symmetry
import LagForecast.Proofs.Server.Startup
import LagForecast.Proofs.Server.Contract
import LagForecast.Proofs.Server.Readiness
import LagForecast.Proofs.Server.RoundTrips
import LagForecast.Proofs.CommandLine.Detection
