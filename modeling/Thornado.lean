import Thornado.Lib.Concat
import Thornado.Lib.Transition
import Thornado.Lib.Gate
import Thornado.Execution.Gateway
import Thornado.Execution.Authorization
import Thornado.Execution.Policy
import Thornado.Rust.Prelude
import Thornado.Markets.Rows
import Thornado.Markets.Feed
import Thornado.Lib.Replica
import Thornado.Markets.Convergence
import Thornado.Markets.Delivery
import Thornado.Lib.KeyedFold
import Thornado.Lib.Timeline
import Thornado.Orderbook.State
import Thornado.Rust.Json
import Thornado.Orderbook.Market
import Thornado.Orderbook.Upstream
import Thornado.Lib.Ranked
import Thornado.Orderbook.TopOfBook
import Thornado.Chart.Store
import Thornado.Chart.Series
import Thornado.Chart.Cache
import Thornado.Chart.Worker
import Thornado.Chart.WorkerFacts
import Thornado.Chart.SeriesRun
import Thornado.Chart.CacheSync
import Thornado.Chart.Repair
import Thornado.Chart.Subscribers
import Thornado.Chart.Announce
import Thornado.Symbols.Directory
import Thornado.Chart.Isolation
import Thornado.Lib.Registry
import Thornado.Lib.Orphans
import Thornado.Chart.EnsureSeries
import Thornado.Orderbook.EnsureMarket
import Thornado.Workers
import Thornado.Auth.NonceStore
import Thornado.Auth.Login
import Thornado.Markets.Join
import Thornado.Markets.Sources
import Thornado.Markets.Order
import Thornado.Markets.Staleness
import Thornado.Symbols.Canonical
import Thornado.Lib.Tickets
import Thornado.Go.Prelude
import Thornado.Orderbook.Subscribers
import Thornado.Orderbook.Announce
import Thornado.Orderbook.Delivery
import Thornado.Lib.RunningTotal
import Thornado.Rust.Int128
import Thornado.Orderbook.Depth
import Thornado.Lib.Decimal
import Thornado.Portfolio.X18
import Thornado.Portfolio.Orders
import Thornado.Rust.JsonFloat
import Thornado.Portfolio.Positions
import Thornado.Portfolio.Trades
import Thornado.Lib.Padding
import Thornado.Execution.Subaccount
import Thornado.Lib.KeyedMap
import Thornado.Client.ChartCandles
import Thornado.Client.ChartRuns
import Thornado.Lib.Grid
import Thornado.Client.OrderEntry
import Thornado.Client.PortfolioPage
import Thornado.Client.PortfolioShown
import Thornado.Client.WithdrawDialog
import Thornado.Client.WithdrawGuard
import Thornado.Client.Deposit
import Thornado.Go.Header
import Thornado.Auth.Session
import Thornado.Lib.Hex
import Thornado.Execution.Proxy
import Thornado.Auth.Avatar
import Thornado.Portfolio.Session
import Thornado.Portfolio.Stream
import Thornado.Lib.BitFields
import Thornado.Lib.Broadcast
import Thornado.Lib.FixedPoint
import Thornado.Sdk.Math
import Thornado.Sdk.PlaceOrder
import Thornado.Sdk.OrderPrice
import Thornado.Lib.Codec
import Thornado.Rust.Serde
import Thornado.Sdk.SerializeUtils
import Thornado.Execution.Wire
