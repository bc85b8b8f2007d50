import Kavora.Lib.System
import Kavora.Lib.Bytes
import Kavora.Lib.EventStream
import Kavora.Lib.Json
import Kavora.Lib.JsonMeaning
import Kavora.Lib.Go
import Kavora.Lib.Statistics
import Kavora.Lib.LinkedMap
import Kavora.Lib.ExpiringLru
import Kavora.Policy.Proto
import Kavora.Policy.Engine
import Kavora.Policy.EngineLemmas
import Kavora.Policy.Stream
import Kavora.Policy.StreamLemmas
import Kavora.Policy.Service
import Kavora.Policy.Feed
import Kavora.Policy.Ascii
import Kavora.Policy.SplitText
import Kavora.Policy.SseDifferential
import Kavora.Policy.SerdeJson
import Kavora.Policy.CacheKey
import Kavora.Router.Affinity
import Kavora.Router.BackendState
import Kavora.Router.CacheProvider
import Kavora.Router.Lifecycle
import Kavora.Experiment.Controller
import Kavora.Experiment.Windows
import Kavora.Router.Decision
import Kavora.Router.Controller
import Kavora.Router.PlanLemmas
import Kavora.Backend.Registry
import Kavora.Backend.Rotation
import Kavora.Gateway.PolicyClient
import Kavora.Gateway.ForwardStream
import Kavora.Gateway.Pipeline
import Kavora.Gateway.Budget
import Kavora.Gateway.ParseRequest
import Kavora.Gateway.RequestCoverage
import Kavora.Gateway.BackendCandidates
import Kavora.Gateway.Forward
import Kavora.Gateway.AffinityRuns
import Kavora.Gateway.Limiter
import Kavora.EngineEvents.VLLM
import Kavora.Lib.Redelivery
import Kavora.Router.CacheWindow
import Kavora.EngineEvents.Prepared
import Kavora.EngineEvents.Delivery
import Kavora.Lib.GoFloat
import Kavora.Router.LifecycleRuns
import Kavora.Router.PlanReads
import Kavora.Exporter.Adapters
import Kavora.Exporter.BackendState
import Kavora.Gateway.FailOpen
import Kavora.Lib.Lines
import Kavora.Lib.JsonLines
import Kavora.Lib.Calendar
import Kavora.Lib.Marshal
import Kavora.Ledger.DecisionLedger
import Kavora.Ledger.Outcomes
import Kavora.Ledger.Journal
import Kavora.Ledger.Glob
import Kavora.Ledger.Replay
import Kavora.Ledger.Reopening
import Kavora.Ledger.Crash
import Kavora.Ledger.Written
import Kavora.Lib.PyDict
import Kavora.Planner.Evaluation
import Kavora.Planner.Records
import Kavora.Planner.Drift
import Kavora.Ledger.Planned
import Kavora.Planner.Integrity
import Kavora.Router.CacheIndex
import Kavora.Router.AffinityReference
import Kavora.EngineEvents.Incarnations
import Kavora.EngineEvents.VLLMHash
import Kavora.EngineEvents.Residency
import Kavora.EngineEvents.HashAlignment
import Kavora.Router.CacheMatch
import Kavora.Router.CacheReference
import Kavora.Router.CacheHistories
import Kavora.Lib.Ranking
import Kavora.Router.Selection
import Kavora.Router.Score
import Kavora.Router.Ageing
import Kavora.Router.PlanPairs
import Kavora.Router.Heavier
import Kavora.Router.SignalRises
import Kavora.Router.Evaluator
import Kavora.Router.UsableQueues
import Kavora.Router.StaleSignals
import Kavora.Router.Offers
import Kavora.Router.Deciding
import Kavora.Policy.Segments
import Kavora.Policy.Chunking
import Kavora.Lib.Admission
import Kavora.Lib.Grouping
import Kavora.WorkloadReplay.Simulator
import Kavora.WorkloadReplay.Concurrency
import Kavora.Router.EvidenceBounds
import Kavora.Lib.LinearSystem
import Kavora.Planner.Predictor
import Kavora.Benchmark.WindowMetrics
import Kavora.Lib.Pareto
import Kavora.Lib.PyValue
import Kavora.Planner.OperatingEnvelope
import Kavora.Benchmark.RunEntries
import Kavora.Planner.AutoCalibrator
import Kavora.Lib.Except
import Kavora.Planner.Policy
import Kavora.Ledger.PredictionQuality
import Kavora.Ledger.QualityTotals
import Kavora.Ledger.Retention
import Kavora.WorkloadReplay.Conservation
import Kavora.Lib.GoString
import Kavora.Tenants.Config
import Kavora.Lib.RawJson
import Kavora.Lib.StructFields
import Kavora.Router.PredictorArtifact
import Kavora.Planner.Validation
import Kavora.Lib.PyJson
import Kavora.Router.SnapshotHash
import Kavora.Replay.Recorder
import Kavora.Lib.Base64
import Kavora.Policy.ToolWorker
import Kavora.EngineEvents.EventIDs
import Kavora.Exporter.PrometheusParse
import Kavora.Exporter.RelaxedLines
import Kavora.Cli.Conversation
import Kavora.Gateway.TelemetryRuns
import Kavora.EngineEvents.HashService
import Kavora.EngineEvents.Subscriber
import Kavora.Gateway.StateFeed
import Kavora.EngineEvents.Wire
import Kavora.Gateway.Measured
import Kavora.Gateway.Startup
