import Ghpulse.Cache.Threads
import Ghpulse.Cache.Freshness
import Ghpulse.Cache.Isolation
import Ghpulse.Cache.Burst
import Ghpulse.Library.JsonText
import Ghpulse.Library.Quoting
import Ghpulse.Session.Token
import Ghpulse.Session.Secret
import Ghpulse.Session.Agreement
import Ghpulse.Session.Unforgeable
import Ghpulse.Session.Middleware
import Ghpulse.Library.KeyedTable
import Ghpulse.Library.SqlTruth
import Ghpulse.Ingest.Schema
import Ghpulse.Library.Effect
import Ghpulse.Library.Interleaving
import Ghpulse.Ingest.Validate
import Ghpulse.Ingest.Accepted
import Ghpulse.Ingest.Commit
import Ghpulse.Ingest.Replacement
import Ghpulse.Ingest.Admission
import Ghpulse.Ingest.Run
import Ghpulse.Ingest.Failure
import Ghpulse.Ingest.Stepwise
import Ghpulse.Ingest.Migration
import Ghpulse.Ingest.Lifespan
import Ghpulse.Events.Stream
import Ghpulse.Library.Binary64
import Ghpulse.Dashboard.Window
import Ghpulse.Dashboard.Aggregate
import Ghpulse.Dashboard.Counting
import Ghpulse.Dashboard.Accounting
import Ghpulse.Dashboard.Buckets
import Ghpulse.Dashboard.Ranges
import Ghpulse.Dashboard.Tiles
import Ghpulse.Web.ChartCounts
import Ghpulse.Web.Coordinator
import Ghpulse.Health.Payload
import Ghpulse.Health.Truthful
import Ghpulse.Library.TwoRun
import Ghpulse.Health.Redaction
import Ghpulse.Health.Surface
import Ghpulse.Health.Private
import Ghpulse.Ci.Durations
import Ghpulse.Library.SlidingWindow
import Ghpulse.Login.RateLimit
import Ghpulse.Web.Binning
import Ghpulse.Web.PointEvents
import Ghpulse.Web.Stacked
import Ghpulse.Web.Conservation
import Ghpulse.Web.Dense
import Ghpulse.Web.Geometry
import Ghpulse.Web.Bars
import Ghpulse.Library.AsciiJson
import Ghpulse.Library.Replace
import Ghpulse.Web.Index
import Ghpulse.Library.Shelf
import Ghpulse.Library.Wrapping
import Ghpulse.Web.Legend
import Ghpulse.Ingest.Sound
import Ghpulse.Library.Calendar
import Ghpulse.Library.JsDate
import Ghpulse.Library.Coverage
import Ghpulse.Web.Ticks
import Ghpulse.Web.MonthTicks
import Ghpulse.Library.PyFloat
import Ghpulse.Health.Answer
import Ghpulse.System.Ledger
import Ghpulse.Dashboard.Readout
import Ghpulse.Library.Throughout
import Ghpulse.System.Isolation
import Ghpulse.System.SignIn
import Ghpulse.Dashboard.Options
import Ghpulse.Library.Utf8
import Ghpulse.Library.FormUrl
import Ghpulse.Web.Query
import Ghpulse.Library.Batched
import Ghpulse.Web.App
import Ghpulse.Web.AppDashboard
import Ghpulse.Web.AppLists
import Ghpulse.System.Live
import Ghpulse.Library.EventStream
import Ghpulse.Events.Framing
import Ghpulse.Ingest.Boundary
import Ghpulse.Web.Provenance
