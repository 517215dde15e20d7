import XFoilFoam.Foundations.JsValue
import XFoilFoam.Foundations.Double
import XFoilFoam.Foundations.Decimal
import XFoilFoam.Foundations.JsSort
import XFoilFoam.Foundations.DoubleOrder
import XFoilFoam.Foundations.Spaced
import XFoilFoam.Foundations.CanonicalJson
import XFoilFoam.Foundations.JsonText
import XFoilFoam.Foundations.Bytes
import XFoilFoam.Foundations.ExceptLists
import XFoilFoam.Foundations.KeyOrder
import XFoilFoam.Foundations.Knapsack
import XFoilFoam.Foundations.Runs
import XFoilFoam.Identity.AnalysisTarget
import XFoilFoam.Identity.EvidenceManifest
import XFoilFoam.Polar.Certificates
import XFoilFoam.Polar.Evidence
import XFoilFoam.Polar.FrameTrack
import XFoilFoam.Polar.CycleCertificate
import XFoilFoam.Polar.CycleGate
import XFoilFoam.Polar.HoldCertificate
import XFoilFoam.Polar.SeriesOptions
import XFoilFoam.Polar.Classify
import XFoilFoam.Sweeper.DiskExposure
import XFoilFoam.Sweeper.AdmissionSlots
import XFoilFoam.Sweeper.IngestLease
import XFoilFoam.Engine.CpuTokenPool
import XFoilFoam.Engine.DivergenceWatchdog
import XFoilFoam.Engine.HoldContinuation
import XFoilFoam.Engine.Request
import XFoilFoam.Engine.Resources
import XFoilFoam.Engine.RansHold
import XFoilFoam.Remote.Report
import XFoilFoam.Remote.Chain
import XFoilFoam.Remote.Revalidation
import XFoilFoam.Remote.Store
import XFoilFoam.Remote.Outbox
import XFoilFoam.Remote.Delivery
import XFoilFoam.Remote.Redelivery
import XFoilFoam.Remote.WorkerEvidence
import XFoilFoam.Foundations.Table
import XFoilFoam.Progressive.Rows
import XFoilFoam.Progressive.Budget
import XFoilFoam.Progressive.Claim
import XFoilFoam.Progressive.Progress
import XFoilFoam.Progressive.Settlement
import XFoilFoam.Progressive.Recovery
import XFoilFoam.Progressive.Operations
import XFoilFoam.Progressive.RowEffects
import XFoilFoam.Progressive.StepEffects
import XFoilFoam.Progressive.ActiveSeconds
import XFoilFoam.Progressive.Decision
import XFoilFoam.Progressive.Extensions
import XFoilFoam.Progressive.Batch
import XFoilFoam.Progressive.Requeue
import XFoilFoam.Sweeper.QueueLifecycle
import XFoilFoam.Engine.CaseSlug
import XFoilFoam.Progressive.FastAnchors
import XFoilFoam.Identity.EngineIdentity
import XFoilFoam.Geometry.Coordinates
import XFoilFoam.Geometry.SeligRoundTrip
import XFoilFoam.Geometry.LednicerRoundTrip
import XFoilFoam.Geometry.AirfoilFile
import XFoilFoam.Unsteady.Series
import XFoilFoam.Unsteady.CoefficientSeries
import XFoilFoam.Unsteady.CycleAudit
import XFoilFoam.Unsteady.CleanRecovery
import XFoilFoam.Foundations.Extended
import XFoilFoam.Foundations.Sampling
import XFoilFoam.Unsteady.AperiodicMean
import XFoilFoam.Unsteady.AperiodicContract
import XFoilFoam.Unsteady.CertifiedWindow
import XFoilFoam.Unsteady.EvenSelection
import XFoilFoam.Unsteady.TailCandidates
import XFoilFoam.Estimate.Observations
import XFoilFoam.Estimate.History
import XFoilFoam.Client.ExecutionScope
import XFoilFoam.Client.FramePlayer
import XFoilFoam.Foundations.Shortest
import XFoilFoam.Angles.Canonical
import XFoilFoam.Angles.Grid
import XFoilFoam.Angles.Expand
import XFoilFoam.Precalc.Rows
import XFoilFoam.Precalc.Recovery
import XFoilFoam.Precalc.Checkpoints
import XFoilFoam.Precalc.Submissions
import XFoilFoam.Precalc.Settlement
import XFoilFoam.Precalc.Blocking
import XFoilFoam.Precalc.Turn
import XFoilFoam.Precalc.Replay
import XFoilFoam.Precalc.Requeue
import XFoilFoam.Precalc.Continuations
import XFoilFoam.Precalc.Actions
import XFoilFoam.Precalc.AttemptLedger
import XFoilFoam.Precalc.Exclusion
import XFoilFoam.Ladder.VerifyQueue
import XFoilFoam.Ladder.VerifyLane
import XFoilFoam.Ladder.VerifyExclusion
import XFoilFoam.Ladder.RequestHealing
import XFoilFoam.Angles.FixedDecimals
import XFoilFoam.Caches.Entries
import XFoilFoam.Caches.Eviction
import XFoilFoam.Caches.EvictionOrder
import XFoilFoam.Caches.SingleFlight
import XFoilFoam.Caches.Workers
import XFoilFoam.Estimate.Acceptance
import XFoilFoam.Estimate.Conflicts
import XFoilFoam.Estimate.Fit
import XFoilFoam.Estimate.Influence
import XFoilFoam.Execution.Dropped
import XFoilFoam.Foundations.SqlTruth
import XFoilFoam.Geometry.ConcaveCurvature
import XFoilFoam.Geometry.CurvatureParity
import XFoilFoam.Geometry.PinchedContour
import XFoilFoam.Ladder.RequestBook
import XFoilFoam.Geometry.SignedAreas
import XFoilFoam.Geometry.Symmetry
import XFoilFoam.Ladder.RequestCoverage
import XFoilFoam.Ladder.VerifyInterleave
import XFoilFoam.Meshing.ConformingBlocks
import XFoilFoam.Meshing.Expansion
import XFoilFoam.Meshing.Preflight
import XFoilFoam.Polar.Fit
import XFoilFoam.Polar.LineSearch
import XFoilFoam.Polar.FitRange
import XFoilFoam.Precalc.Lifecycle
import XFoilFoam.Precalc.ProgressChains
import XFoilFoam.Precalc.Terminality
import XFoilFoam.Progressive.Admission
import XFoilFoam.Submission.AtMostOnce
import XFoilFoam.Submission.FenceRetry
import XFoilFoam.Sweeper.ClaimRaces
import XFoilFoam.Sweeper.MediaPath
import XFoilFoam.Broker.Capabilities
import XFoilFoam.Broker.Ledger
import XFoilFoam.Chart.Evidence
import XFoilFoam.Chart.Clipping
import XFoilFoam.Chart.Support
import XFoilFoam.Engine.BudgetedRunner
import XFoilFoam.Engine.ForceCoefficients
import XFoilFoam.Engine.LocalSteady
import XFoilFoam.Evidence.Extraction
import XFoilFoam.Progressive.CurveMetrics
