import Airspace.Lib.Dict
import Airspace.Lib.KeyedFold
import Airspace.Lib.Motion
import Airspace.Lib.Deque
import Airspace.Lib.Register
import Airspace.Lib.Prefixes
import Airspace.Lib.Covariance
import Airspace.Lib.LineFilter
import Airspace.Lib.IndexedStore
import Airspace.Lib.KeyOrder
import Airspace.Lib.Chase
import Airspace.Lib.Sphere
import Airspace.Lib.Race
import Airspace.Lib.Streaks
import Airspace.Common.Geodesy
import Airspace.Common.GreatCircle
import Airspace.Common.Contracts
import Airspace.Common.Subscriber
import Airspace.Conformance.ZeroUncertainty
import Airspace.Conformance.GridCompleteness
import Airspace.Conformance.ScanOrder
import Airspace.Conformance.ProbabilisticGrid
import Airspace.Conformance.DiscRace
import Airspace.Conformance.Runner
import Airspace.Conformance.Rotation
import Airspace.Conformance.AlertProtocol
import Airspace.Conformance.Rules
import Airspace.Conformance.Monitor
import Airspace.Conformance.Picture
import Airspace.Conformance.Attachment
import Airspace.Conformance.LiveConditions
import Airspace.Conformance.Undelivered
import Airspace.Conformance.Redelivery
import Airspace.Conformance.BadClock
import Airspace.Conformance.NewestMessage
import Airspace.Conformance.FirstDue
import Airspace.Storage.TrackHistory
import Airspace.Storage.Batching
import Airspace.Storage.LiveStores
import Airspace.Track.Sweeps
import Airspace.Track.Contract
import Airspace.Track.Checked
import Airspace.Track.Refusals
import Airspace.Track.Rebalance
import Airspace.Track.Unrecorded
import Airspace.Track.Endings
import Airspace.Track.FailedRelease
import Airspace.Track.Lives
import Airspace.Track.LateReports
import Airspace.Track.NewerReports
import Airspace.Track.FilterIsotropy
import Airspace.Track.FilterGrowth
import Airspace.Api.Display
import Airspace.Api.Broadcast
import Airspace.Sim.Plan
import Airspace.Sim.Flight
import Airspace.Sim.Independence
import Airspace.Sim.Validity
import Airspace.Ml.Baselines
import Airspace.Eval.ConflictEval
import Airspace.Eval.ReplayAlerts
import Airspace.Eval.ReplayTruth
import Airspace.Sim.Reports
import Airspace.Feed.Loop
import Airspace.Feed.Delivery
import Airspace.Sim.ScenarioFile
import Airspace.Sim.Family
import Airspace.Ml.Leakage
import Airspace.Ml.Training
import Airspace.Api.Page
