import RepoGraph.Indexer.ModuleGraph
import RepoGraph.Lib.FaultM

/-! The store that the indexer writes to: its rows, the calls of its port, and what a run has made of its
snapshots. Every call may fail. -/

namespace RepoGraph.Indexer

open Lib

inductive SnapshotStatus
  | building
  | ready
  | stale
  | failed
  deriving DecidableEq, Repr

inductive SnapshotKind
  | full
  | refresh
  | working
  | sealed
  deriving DecidableEq, Repr

structure CreateSnapshotInput where
  repoUid : String
  kind : SnapshotKind
  basisCommit : Option String
  parentSnapshotUid : Option String
  toolchainJson : Option String
  deriving DecidableEq, Repr

structure Snapshot where
  snapshotUid : String
  repoUid : String
  parentSnapshotUid : Option String
  kind : SnapshotKind
  basisCommit : Option String
  status : SnapshotStatus
  createdAt : String
  toolchainJson : Option String
  deriving DecidableEq, Repr

structure TrackedFile where
  fileUid : String
  repoUid : String
  path : String
  language : Option String
  isTest : Bool
  isGenerated : Bool
  isExcluded : Bool
  deriving DecidableEq, Repr

inductive ParseStatus
  | parsed
  | skipped
  | failed
  | stale
  deriving DecidableEq, Repr

structure FileVersion where
  snapshotUid : String
  fileUid : String
  contentHash : String
  extractor : Option String
  parseStatus : ParseStatus
  sizeBytes : Option ℕ
  lineCount : Option ℕ
  indexedAt : String
  deriving DecidableEq, Repr

inductive NodeKind
  | module
  | file
  | symbol
  | endpoint
  | eventTopic
  | table
  | configKey
  | test
  | state
  | queue
  | job
  | dbResource
  | fsPath
  | blob
  deriving DecidableEq, Repr

structure ExtractedNode where
  nodeUid : String
  snapshotUid : String
  repoUid : String
  stableKey : String
  kind : NodeKind
  name : String
  qualifiedName : Option String
  fileUid : Option String
  metadataJson : Option String
  deriving DecidableEq, Repr

structure ExtractionEdgeRow where
  edgeUid : String
  snapshotUid : String
  repoUid : String
  sourceNodeUid : String
  targetKey : String
  edgeType : EdgeType
  resolution : Resolution
  extractor : String
  lineStart : Option ℤ
  colStart : Option ℤ
  lineEnd : Option ℤ
  colEnd : Option ℤ
  metadataJson : Option String
  sourceFileUid : Option String
  deriving DecidableEq, Repr

structure FileSignalRow where
  snapshotUid : String
  fileUid : String
  importBindingsJson : Option String
  packageDependenciesJson : Option String
  tsconfigAliasesJson : Option String
  deriving DecidableEq, Repr

structure CopyForwardInput where
  fromSnapshotUid : String
  toSnapshotUid : String
  repoUid : String
  fileUids : List String
  deriving DecidableEq, Repr

structure CopyForwardResult where
  nodesCopied : ℕ
  copiedResourceNodeKeys : List String
  deriving DecidableEq, Repr

structure SymbolCallDegree where
  nodeUid : String
  callFanIn : ℕ
  callFanOut : ℕ
  deriving DecidableEq, Repr

structure ResolvedCallFilePair where
  sourceFile : String
  targetFile : String
  callEdgeCount : ℕ
  deriving DecidableEq, Repr

structure PersistedUnresolvedEdge where
  edge : ExtractedEdge
  category : UnresolvedEdgeCategory
  classification : String
  classifierVersion : ℕ
  basisCode : String
  observedAt : String
  deriving DecidableEq, Repr

structure ProtoFileInput where
  relPath : String
  content : String
  contentHash : String
  deriving DecidableEq, Repr

structure ProtoIndexResult where
  schemasIndexed : ℕ
  elementsIndexed : ℕ
  parseFailures : List (String × String)
  deriving DecidableEq, Repr

/-- Who asks the store. The three calls of a refresh that stand outside of its pipeline have sites of their own. -/
inductive CallSite
  | getLatestSnapshot
  | queryFileVersionHashes
  | createSnapshot
  | copyForwardUnchangedFiles
  | getFilesByRepo
  | upsertCopiedFiles
  | upsertFiles
  | upsertFileVersions
  | insertNodes
  | insertExtractionEdges
  | insertFileSignals
  | insertModuleNodes
  | queryResolverNodes
  | queryFileSignalsBatch
  | queryAllNodes
  | queryExtractionEdgesBatch
  | insertResolvedEdges
  | insertUnresolvedEdges
  | insertModuleEdges
  | setEdgeTypeOnly
  | updateSnapshotCounts
  | persistResolvedCallAggregate
  | persistSymbolCallDegrees
  | persistResolvedCallFilePairs
  | updateSnapshotExtractionDiagnostics
  | indexProtoFiles
  | upsertContractFiles
  | upsertContractFileVersions
  deriving DecidableEq, Repr

abbrev Call (σ ε α : Type) := σ → Except ε α × σ

/-- The methods of the store over its tables, but for the rows of the snapshots. -/
structure StoragePort (σ ε : Type) where
  /-- A uid and a time of creation for a new row. -/
  newSnapshot : CreateSnapshotInput → Call σ ε (String × String)
  /-- The error of an insert under a uid that is taken. -/
  duplicateKey : ε
  /-- The read of a row that was just inserted. -/
  readBack : String → Call σ ε Unit
  readLatestSnapshot : String → Call σ ε Unit
  writeStatus : String → SnapshotStatus → Call σ ε Unit
  queryFileVersionHashes : String → Call σ ε (BTreeMap String String)
  copyForwardUnchangedFiles : CopyForwardInput → Call σ ε CopyForwardResult
  getFilesByRepo : String → Call σ ε (List TrackedFile)
  upsertFiles : List TrackedFile → Call σ ε Unit
  upsertFileVersions : List FileVersion → Call σ ε Unit
  insertNodes : List ExtractedNode → Call σ ε Unit
  insertExtractionEdges : List ExtractionEdgeRow → Call σ ε Unit
  insertFileSignals : List FileSignalRow → Call σ ε Unit
  queryResolverNodes : String → Call σ ε (List ResolverNode)
  queryFileSignalsBatch : String → List String → Call σ ε (List FileSignalRow)
  queryAllNodes : String → Call σ ε (List ExtractedNode)
  queryExtractionEdgesBatch : String → ℕ → Option String → Call σ ε (List ExtractionEdgeRow)
  insertResolvedEdges : List ResolvedEdge → Call σ ε Unit
  insertUnresolvedEdges : List PersistedUnresolvedEdge → Call σ ε Unit
  setEdgeTypeOnly : List (String × TypeOnlyDisposition) → Call σ ε Unit
  updateSnapshotCounts : String → Call σ ε Unit
  persistResolvedCallAggregate : String → ℕ → Call σ ε Unit
  persistSymbolCallDegrees : String → List SymbolCallDegree → Call σ ε Unit
  persistResolvedCallFilePairs : String → List ResolvedCallFilePair → Call σ ε Unit
  updateSnapshotExtractionDiagnostics : String → String → Call σ ε Unit
  indexProtoFiles : String → String → List ProtoFileInput → Call σ ε ProtoIndexResult
  /-- The mapping of generated Java code; its failures are part of the result. -/
  runJavaMapping : String → σ → σ
  /-- The relationships that are computed anew, from the mappings when there are any. -/
  dispatchRecomputeRelationships : String → String → Bool → σ → σ

inductive IndexError (ε : Type)
  | storage (e : ε)
  | extractorInit (extractorName message : String)
  | aborted
  deriving DecidableEq, Repr

/-- What a run notes: the snapshots it made, the writes of their status, and the calls that failed. -/
inductive StoreEvent
  | created (snapshotUid : String)
  | statusSet (snapshotUid : String) (status : SnapshotStatus)
  | statusRefused (snapshotUid : String) (status : SnapshotStatus)
  | failed (site : CallSite)
  deriving DecidableEq, Repr

/-- The rows of the snapshots, the rest of the world (the other tables, the state of the progress callback), and
the notes of the run. -/
structure World (σ : Type) where
  snapshots : List Snapshot
  rest : σ
  events : List StoreEvent

def World.statusOf {σ : Type} (w : World σ) (snapshotUid : String) : Option SnapshotStatus :=
  (w.snapshots.find? (·.snapshotUid = snapshotUid)).map (·.status)

abbrev IndexM (σ ε : Type) := FaultM (World σ) (IndexError ε)

variable {σ ε α : Type}

def note (event : StoreEvent) : IndexM σ ε Unit := modify fun w => { w with events := w.events ++ [event] }

def callStore (onFailure : List StoreEvent) (f : Call σ ε α) : IndexM σ ε α := fun w =>
  match f w.rest with
  | (.ok a, rest) => some (.ok a, { w with rest })
  | (.error e, rest) => some (.error (.storage e), { w with rest, events := w.events ++ onFailure })

def call (site : CallSite) (f : Call σ ε α) : IndexM σ ε α := callStore [.failed site] f

namespace StoragePort

variable (port : StoragePort σ ε)

def getLatestSnapshot (repoUid : String) : IndexM σ ε (Option Snapshot) := do
  call .getLatestSnapshot (port.readLatestSnapshot repoUid)
  let w ← get
  let ready := w.snapshots.filter fun s => s.repoUid = repoUid ∧ s.status = .ready
  return (sortBy (fun a b => compare b.createdAt a.createdAt) ready).head?

def createSnapshot (input : CreateSnapshotInput) : IndexM σ ε Snapshot := do
  let (snapshotUid, now) ← call .createSnapshot (port.newSnapshot input)
  let w ← get
  if snapshotUid ∈ w.snapshots.map (·.snapshotUid) then
    note (.failed .createSnapshot)
    throw (.storage port.duplicateKey)
  else
    let row : Snapshot :=
      { snapshotUid
        repoUid := input.repoUid
        parentSnapshotUid := input.parentSnapshotUid
        kind := input.kind
        basisCommit := input.basisCommit
        status := .building
        createdAt := now
        toolchainJson := input.toolchainJson }
    set { w with snapshots := w.snapshots ++ [row] }
    call .createSnapshot (port.readBack snapshotUid)
    note (.created snapshotUid)
    return row

def updateSnapshotStatus (snapshotUid : String) (status : SnapshotStatus) : IndexM σ ε Unit := do
  callStore [.statusRefused snapshotUid status] (port.writeStatus snapshotUid status)
  modify fun w => { w with
    snapshots := w.snapshots.map fun s => if s.snapshotUid = snapshotUid then { s with status } else s
    events := w.events ++ [.statusSet snapshotUid status] }

end StoragePort

end RepoGraph.Indexer
