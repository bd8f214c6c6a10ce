import RepoGraph.Lib.Exec
import RepoGraph.Lib.FaultM
import RepoGraph.Lib.Containers
import RepoGraph.Lib.IterMap
import RepoGraph.Lib.Folds
import RepoGraph.Lib.Digraph
import RepoGraph.Lib.Walks
import RepoGraph.Lib.PathWalk
import RepoGraph.Lib.Layers
import RepoGraph.Lib.C3
import RepoGraph.Lib.Cycles
import RepoGraph.Lib.Runs
import RepoGraph.Lib.Text
import RepoGraph.Lib.TextLaws
import RepoGraph.Lib.Search
import RepoGraph.Lib.Regex
import RepoGraph.Lib.Like
import RepoGraph.Lib.SqlText
import RepoGraph.Lib.Select
import RepoGraph.Lib.Pages
import RepoGraph.Lib.Memo
import RepoGraph.Lib.Readback
import RepoGraph.Lib.Tally
import RepoGraph.Lib.Keyed
import RepoGraph.Lib.Inverse
import RepoGraph.Lib.Wire
import RepoGraph.GraphAlgorithms.Scc
import RepoGraph.GraphAlgorithms.Tarjan
import RepoGraph.GraphAlgorithms.TarjanSteps
import RepoGraph.GraphAlgorithms.SccCorrect
import RepoGraph.GraphAlgorithms.SccCancel
import RepoGraph.Ir
import RepoGraph.TrustModel
import RepoGraph.ImportResolver
import RepoGraph.ImportResolver.RelativeImports
import RepoGraph.ImportResolver.TsconfigPaths
import RepoGraph.ModuleCycleCert
import RepoGraph.CertFingerprint
import RepoGraph.LiveGraph.Slots
import RepoGraph.LiveGraph.Overlay
import RepoGraph.LiveGraph.State
import RepoGraph.LiveGraph.History
import RepoGraph.LiveGraph.Envelope
import RepoGraph.LiveGraph.Callers
import RepoGraph.LiveGraph.Callees
import RepoGraph.LiveGraph.ValueFacts
import RepoGraph.LiveGraph.WholeGraph
import RepoGraph.LiveGraph.Path
import RepoGraph.LiveGraph.PathSearch
import RepoGraph.LiveGraph.PathTrust
import RepoGraph.LiveGraph.PathCancel
import RepoGraph.LiveGraph.ShortestPath
import RepoGraph.LiveGraph.Answers
import RepoGraph.LiveGraph.Degradation
import RepoGraph.LiveGraph.Converse
import RepoGraph.LiveGraph.SlotOrder
import RepoGraph.LiveGraph.OverlayEdges
import RepoGraph.LiveGraph.OverlayCoherent
import RepoGraph.LiveGraph.ImportView
import RepoGraph.WarmCache.Dto
import RepoGraph.WarmCache.Cache
import RepoGraph.WarmCache.Layout
import RepoGraph.WarmCache.RoundTrip
import RepoGraph.Coherence.Envelope
import RepoGraph.Coherence.Fold
import RepoGraph.QualityPolicy
import RepoGraph.Gate.Compute
import RepoGraph.Gate.Assemble
import RepoGraph.Gate.OwnEvidence
import RepoGraph.Gate.Reduction
import RepoGraph.Classification.ImportPartition
import RepoGraph.Classification.ModuleEdges
import RepoGraph.Classification.EdgeConservation
import RepoGraph.Classification.EdgeOrder
import RepoGraph.Classification.BoundaryMatcher
import RepoGraph.Classification.BoundaryPairs
import RepoGraph.Agent.CycleWalk
import RepoGraph.Agent.CycleWalkSound
import RepoGraph.Agent.CycleWalkOrder
import RepoGraph.Agent.CycleTypeOnly
import RepoGraph.Agent.CycleVerdicts
import RepoGraph.Agent.PackageGroups
import RepoGraph.Agent.PackageNames
import RepoGraph.Agent.PackageOwnership
import RepoGraph.Indexer.Types
import RepoGraph.Indexer.IncludeResolver
import RepoGraph.Indexer.ImportStages
import RepoGraph.Indexer.CallTarget
import RepoGraph.Indexer.Resolver
import RepoGraph.Indexer.IncludeRoots
import RepoGraph.Indexer.SuffixIndexes
import RepoGraph.Indexer.RustModules
import RepoGraph.Indexer.MethodResolutionOrder
import RepoGraph.Indexer.SelfCalls
import RepoGraph.Indexer.Conservation
import RepoGraph.Indexer.ModuleGraph
import RepoGraph.Indexer.ModulePairs
import RepoGraph.Indexer.Invalidation
import RepoGraph.Indexer.IndexTables
import RepoGraph.Indexer.StoragePort
import RepoGraph.Indexer.Orchestrator
import RepoGraph.Indexer.FailureAtomicity
import RepoGraph.Indexer.BatchTransparency
import RepoGraph.Indexer.InferredModules
import RepoGraph.Indexer.DirectoryTallies
import RepoGraph.Indexer.UmbrellaDescent
import RepoGraph.Indexer.InferredModuleCounts
import RepoGraph.Indexer.SettingsGradle
import RepoGraph.Indexer.SettingsStatements
import RepoGraph.Indexer.SettingsAssignments
import RepoGraph.Indexer.SettingsIncludes
import RepoGraph.Indexer.SettingsNotation
import RepoGraph.RepoIndex.ManifestCaches
import RepoGraph.ProtoParser.RpcMethod
import RepoGraph.ProtoParser.RpcText
import RepoGraph.ProtoParser.RpcStreaming
import RepoGraph.ProtoParser.Schema
import RepoGraph.ProtoParser.SchemaDecls
import RepoGraph.ProtoParser.SchemaNodes
import RepoGraph.ProtoParser.SchemaReading
import RepoGraph.ProtoParser.SchemaFaithful
import RepoGraph.Lib.Relational
import RepoGraph.Storage.Schema
import RepoGraph.Enrichment.Contracts
import RepoGraph.Enrichment.Promotion
import RepoGraph.Enrichment.Metadata
import RepoGraph.Storage.DirectoryModules
import RepoGraph.Storage.CallAggregates
import RepoGraph.Storage.DeadNodes
import RepoGraph.Storage.CallCounts
import RepoGraph.Storage.AggregateParity
import RepoGraph.Storage.PathScope
import RepoGraph.Storage.DirectoryScope
import RepoGraph.Storage.EnrichmentStore
import RepoGraph.Enrichment.Pipeline
import RepoGraph.Enrichment.PromotionFilter
import RepoGraph.Enrichment.LatestPromotion
import RepoGraph.Enrichment.PromotionPrecision
import RepoGraph.Storage.DirectoryCycles
import RepoGraph.Storage.ModuleParity
import RepoGraph.Storage.ModuleAgreement
import RepoGraph.Storage.Retention.Classify
import RepoGraph.Storage.Retention.Prune
import RepoGraph.Storage.Retention.StampTables
import RepoGraph.Storage.Retention.Narrow
import RepoGraph.Storage.Retention.History
import RepoGraph.Storage.RefreshCopyForward
import RepoGraph.Storage.CopyByFile
import RepoGraph.DaemonPolicy.State
import RepoGraph.DaemonPolicy.Coordinator
import RepoGraph.DaemonPolicy.Ledger
import RepoGraph.DaemonPolicy.Safety
import RepoGraph.DaemonPolicy.WakeUp
import RepoGraph.DaemonRuntime.LoadRepo
import RepoGraph.DaemonRuntime.Reclaim
import RepoGraph.DaemonRuntime.Rebuild
import RepoGraph.DaemonRuntime.RebuildGate
import RepoGraph.DaemonRuntime.EnrichYield
import RepoGraph.DaemonRuntime.AutoReindex
import RepoGraph.DaemonRuntime.Registry
import RepoGraph.DaemonRuntime.RegistryIndexes
import RepoGraph.DaemonRuntime.OrphanScan
import RepoGraph.DaemonRuntime.OrphanUnits
import RepoGraph.DaemonRuntime.GcLaws
import RepoGraph.DaemonRuntime.SeedPass
import RepoGraph.Storage.ShortestStoredPath
import RepoGraph.Lib.Scanner
import RepoGraph.ScipIngest.Facts
import RepoGraph.ScipIngest.Partition
import RepoGraph.ScipIngest.Closure
import RepoGraph.ScipIngest.Ingested
import RepoGraph.Detectors.CommentMasker
import RepoGraph.Lib.ByteLines
import RepoGraph.LspSubprocess.Framing
import RepoGraph.LspSubprocess.Session
import RepoGraph.DaemonTransport.Connections
import RepoGraph.Seed.Document
import RepoGraph.Seed.Pass
import RepoGraph.Seed.Rank
