import RepoGraph.Indexer.IndexTables
import RepoGraph.Indexer.Invalidation
import RepoGraph.Indexer.StoragePort

/-! `index_repo` and `refresh_repo`: the life of a snapshot from its creation to READY, over a store whose
calls may fail and under a progress callback that may abort. -/

namespace RepoGraph.Indexer

open Lib Lib.Text

inductive IndexPhase
  | scanning
  | extracting
  | resolving
  | persisting
  deriving DecidableEq, Repr

structure IndexProgressEvent where
  phase : IndexPhase
  current : ℕ
  total : ℕ
  file : Option String
  deriving DecidableEq, Repr

/-- A file of the working tree; its dependencies and aliases as the values they are stored as. -/
structure FileInput where
  relPath : String
  content : String
  contentHash : String
  sizeBytes : ℕ
  lineCount : ℕ
  packageDependencies : Option Json
  tsconfigAliases : Option Json

structure ConfigFileState where
  relPath : String
  contentHash : String
  deriving DecidableEq, Repr

structure ImportObservation where
  location : Option SourceLocation
  isTypeOnly : Bool
  deriving DecidableEq, Repr

structure ExtractionResult where
  nodes : List ExtractedNode
  edges : List ExtractedEdge
  importBindings : List ImportBinding
  importObservations : List ImportObservation
  deriving DecidableEq, Repr

structure ExtractorPort where
  name : String
  initialized : Except String Unit
  extract : String → String → String → String → String → Except String ExtractionResult

structure ExtractionExtras where
  nodes : List ExtractedNode
  edges : List ExtractedEdge
  deriving DecidableEq, Repr

/-- What the orchestrator is given beside the store: extractors, the hook that sees their results, the progress
callback, and the pure parts of the indexer that do not bear on the life of a snapshot. -/
structure IndexerEnv (σ : Type) where
  ext : Externals
  extractors : List ExtractorPort
  drainSnapshotExtras : Option (List (String × String × ExtractionResult) → ExtractionExtras)
  onProgress : Option (IndexProgressEvent → σ → Bool × σ)
  classifyFileLanguage : String → Option String → Option String
  isTestFile : String → Bool
  isGeneratedContent : String → Bool
  routeFile : String → Option String → Option ℕ
  importBindingsText : List ImportBinding → String
  readImportBindings : String → Option (List ImportBinding)
  readTsconfigMapping : String → Option Ir.TsconfigAliasConfig
  classifyUnresolvedEdge : ExtractedEdge → UnresolvedEdgeCategory → Option FileSignalRow → String × String
  moduleNodeUid : ℕ → String
  moduleEdgeUid : ℕ → String

structure IndexOptions where
  basisCommit : Option String
  basisDiagnostic : Option Json
  edgeBatchSize : Option ℕ
  cIncludeRoots : List String
  declaredModules : List DeclaredModule

def maxFileSizeBytes : ℕ := 1000000

def defaultEdgeBatchSize : ℕ := 10000

def classifierVersion : ℕ := 1

def copiedSignalsReadChunk : ℕ := 500

variable {σ ε : Type} (port : StoragePort σ ε) (env : IndexerEnv σ)

section Progress

def breaks (event : IndexProgressEvent) : IndexM σ ε Bool := fun w =>
  match env.onProgress with
  | none => some (.ok false, w)
  | some cb =>
    let (isBreak, rest) := cb event w.rest
    some (.ok isBreak, { w with rest })

def emit (phase : IndexPhase) (current total : ℕ) (file : Option String) : IndexM σ ε Unit := do
  if ← breaks env ⟨phase, current, total, file⟩ then throw .aborted

end Progress

section Extraction

structure Extracted where
  trackedFiles : List TrackedFile
  fileVersions : List FileVersion
  nodes : List ExtractedNode
  extractionEdges : List ExtractionEdgeRow
  signals : List FileSignalRow
  skippedOversized : ℕ
  filesReadFailed : ℕ
  observed : List (String × String × ExtractionResult)

def noneExtracted : Extracted := ⟨[], [], [], [], [], 0, 0, []⟩

def ExtractionEdgeRow.ofEdge (edge : ExtractedEdge) (metadataJson sourceFileUid : Option String) :
    ExtractionEdgeRow where
  edgeUid := edge.edgeUid
  snapshotUid := edge.snapshotUid
  repoUid := edge.repoUid
  sourceNodeUid := edge.sourceNodeUid
  targetKey := edge.targetKey
  edgeType := edge.edgeType
  resolution := edge.resolution
  extractor := edge.extractor
  lineStart := edge.location.map (·.lineStart)
  colStart := edge.location.map (·.colStart)
  lineEnd := edge.location.map (·.lineEnd)
  colEnd := edge.location.map (·.colEnd)
  metadataJson := metadataJson
  sourceFileUid := sourceFileUid

def ExtractionEdgeRow.toEdge (row : ExtractionEdgeRow) : ExtractedEdge where
  edgeUid := row.edgeUid
  snapshotUid := row.snapshotUid
  repoUid := row.repoUid
  sourceNodeUid := row.sourceNodeUid
  targetKey := row.targetKey
  edgeType := row.edgeType
  resolution := row.resolution
  extractor := row.extractor
  location := row.lineStart.map fun lineStart =>
    ⟨lineStart, row.colStart.getD 0, row.lineEnd.getD lineStart, row.colEnd.getD 0⟩
  metadataJson := row.metadataJson

def injectImportTypeOnly (ext : Externals) (metadataJson : Option String) (isTypeOnly : Bool) : Option String :=
  some (ext.mergeMetadata metadataJson [("isTypeOnly", .bool isTypeOnly)])

/-- The type-only fact of an import: that of the observation at its place, and runtime where the extractor
observes no imports. -/
def importTypeOnly (observations : List ImportObservation) (edge : ExtractedEdge) : Option Bool :=
  if observations.isEmpty then some false
  else
    edge.location.bind fun l =>
      (observations.reverse.find? fun o => o.location.any fun l' =>
        l'.lineStart = l.lineStart ∧ l'.colStart = l.colStart).map (·.isTypeOnly)

def extractionEdgeRow (fileUid : String) (result : ExtractionResult) (edge : ExtractedEdge) : ExtractionEdgeRow :=
  let metadataJson :=
    if edge.edgeType = .imports then
      match importTypeOnly result.importObservations edge with
      | some b => injectImportTypeOnly env.ext edge.metadataJson b
      | none => edge.metadataJson
    else edge.metadataJson
  .ofEdge edge metadataJson (some fileUid)

def fileSignalRows (snapUid fileUid : String) (file : FileInput)
    (result : ExtractionResult) : List FileSignalRow :=
  if result.importBindings.isEmpty ∧ file.packageDependencies.isNone ∧ file.tsconfigAliases.isNone then []
  else
    [{ snapshotUid := snapUid
       fileUid := fileUid
       importBindingsJson :=
        if result.importBindings.isEmpty then none else some (env.importBindingsText result.importBindings)
       packageDependenciesJson := file.packageDependencies.map env.ext.toString
       tsconfigAliasesJson := file.tsconfigAliases.map env.ext.toString }]

def extractFile (repoUid snapUid now : String) (acc : Extracted) (file : FileInput) : Extracted :=
  let fileUid := s!"{repoUid}:{file.relPath}"
  let language := env.classifyFileLanguage file.relPath (some file.content)
  let version (extractor : Option String) (parseStatus : ParseStatus) : FileVersion :=
    { snapshotUid := snapUid
      fileUid := fileUid
      contentHash := file.contentHash
      extractor := extractor
      parseStatus := parseStatus
      sizeBytes := some file.sizeBytes
      lineCount := some file.lineCount
      indexedAt := now }
  let tracked : TrackedFile :=
    ⟨fileUid, repoUid, file.relPath, language, env.isTestFile file.relPath,
      env.isGeneratedContent file.content, false⟩
  let acc := { acc with trackedFiles := acc.trackedFiles ++ [tracked] }
  if file.sizeBytes > maxFileSizeBytes then
    { acc with
      fileVersions := acc.fileVersions ++ [version (some "skipped:oversized") .skipped]
      skippedOversized := acc.skippedOversized + 1 }
  else
    match (env.routeFile file.relPath language).bind (env.extractors[·]?) with
    | none => { acc with fileVersions := acc.fileVersions ++ [version none .skipped] }
    | some extractor =>
      match extractor.extract file.content file.relPath fileUid repoUid snapUid with
      | .error _ =>
        { acc with
          fileVersions := acc.fileVersions ++ [version (some extractor.name) .failed]
          filesReadFailed := acc.filesReadFailed + 1 }
      | .ok result =>
        { acc with
          fileVersions := acc.fileVersions ++ [version (some extractor.name) .parsed]
          observed := acc.observed ++ [(fileUid, file.relPath, result)]
          nodes := acc.nodes ++ result.nodes
          extractionEdges := acc.extractionEdges ++ result.edges.map (extractionEdgeRow env fileUid result)
          signals := acc.signals ++ fileSignalRows env snapUid fileUid file result }

/-- What the hook gathered, put behind the rows of the files; a resource that was copied forward stays. -/
def drainHook (copiedResourceKeys : List String) (acc : Extracted) : Extracted :=
  match env.drainSnapshotExtras with
  | none => acc
  | some drain =>
    let extras := drain acc.observed
    let nodeToFile : IterMap String String :=
      .ofPairs (acc.nodes.filterMap fun n => n.fileUid.map (n.nodeUid, ·))
    { acc with
      extractionEdges := acc.extractionEdges ++ extras.edges.map fun edge =>
        .ofEdge edge edge.metadataJson (nodeToFile.lookup edge.sourceNodeUid)
      nodes := acc.nodes ++ extras.nodes.filter fun n => n.stableKey ∉ copiedResourceKeys }

def extractFiles (repoUid snapUid now : String) (files : List FileInput) : IndexM σ ε Extracted :=
  files.zipIdx.foldlM (fun acc (file, fileIdx) => do
    emit env .extracting (fileIdx + 1) files.length (some file.relPath)
    return extractFile env repoUid snapUid now acc file) noneExtracted

def persistExtracted (rows : Extracted) : IndexM σ ε Unit := do
  call .upsertFiles (port.upsertFiles rows.trackedFiles)
  call .upsertFileVersions (port.upsertFileVersions rows.fileVersions)
  FaultM.onlyIf (!rows.nodes.isEmpty) (call .insertNodes (port.insertNodes rows.nodes))
  FaultM.onlyIf (!rows.extractionEdges.isEmpty)
    (call .insertExtractionEdges (port.insertExtractionEdges rows.extractionEdges))
  FaultM.onlyIf (!rows.signals.isEmpty) (call .insertFileSignals (port.insertFileSignals rows.signals))

end Extraction

section ModuleNodes

def directoriesAbove (path : String) : List String :=
  let segs := split path '/'
  ((List.range segs.length).reverse.filter (0 < ·)).map fun n => join "/" (segs.take n)

def createModuleNodes (filePaths : List String) (repoUid snapUid : String) : List ExtractedNode :=
  let dirs : BTreeSet String := .ofList (filePaths.flatMap directoriesAbove)
  dirs.toList.zipIdx.map fun (dir, i) =>
    { nodeUid := env.moduleNodeUid i
      snapshotUid := snapUid
      repoUid := repoUid
      stableKey := moduleKey repoUid dir
      kind := .module
      name := basename dir
      qualifiedName := some dir
      fileUid := none
      metadataJson := none }

end ModuleNodes

section Resolution

structure ResolveTotals where
  resolvedTotal : ℕ
  resolvedCallsTotal : ℕ
  inferredCallsTotal : ℕ
  callFanIn : BTreeMap String ℕ
  callFanOut : BTreeMap String ℕ
  callFilePairs : BTreeMap (String × String) ℕ
  unresolvedCount : ℕ
  unresolvedBreakdown : BTreeMap String ℕ
  resolvedImportPairs : List ImportPair

def noTotals : ResolveTotals := ⟨0, 0, 0, ∅, ∅, ∅, 0, ∅, []⟩

def isCertainCall (edge : ResolvedEdge) : Bool :=
  edge.edgeType == .calls && (edge.resolution == .static || edge.resolution == .dynamic)

def isInferredCall (edge : ResolvedEdge) : Bool := edge.edgeType == .calls && edge.resolution == .inferred

def increment {κ : Type} [Ord κ] [Std.TransOrd κ] [Std.LawfulEqOrd κ] (m : BTreeMap κ ℕ) (k : κ) : BTreeMap κ ℕ :=
  m.insert k (m[k]?.getD 0 + 1)

def callFilePair (filePath : String → Option String) (edge : ResolvedEdge) : Option (String × String) := do
  let source ← filePath edge.sourceNodeUid
  let target ← filePath edge.targetNodeUid
  if source = target then none else some (source, target)

def categoryName : UnresolvedEdgeCategory → String
  | .importsFileNotFound => "imports_file_not_found"
  | .importsAmbiguousMatch => "imports_ambiguous_match"
  | .importsWildcard => "imports_wildcard"
  | .importsAmbiguousSuffix => "imports_ambiguous_suffix"
  | .instantiatesClassNotFound => "instantiates_class_not_found"
  | .implementsInterfaceNotFound => "implements_interface_not_found"
  | .callsThisWildcardMethodNeedsTypeInfo => "calls_this_wildcard_method_needs_type_info"
  | .callsThisMethodNeedsClassContext => "calls_this_method_needs_class_context"
  | .callsObjMethodNeedsTypeInfo => "calls_obj_method_needs_type_info"
  | .callsFunctionAmbiguousOrMissing => "calls_function_ambiguous_or_missing"
  | .other => "other"

def tally (filePath : String → Option String) (result : ResolutionResult) (t : ResolveTotals) : ResolveTotals :=
  let calls := result.resolved.filter isCertainCall
  { resolvedTotal := t.resolvedTotal + result.resolved.length
    resolvedCallsTotal := t.resolvedCallsTotal + calls.length
    inferredCallsTotal := t.inferredCallsTotal + (result.resolved.filter isInferredCall).length
    callFanIn := calls.foldl (fun m e => increment m e.targetNodeUid) t.callFanIn
    callFanOut := calls.foldl (fun m e => increment m e.sourceNodeUid) t.callFanOut
    callFilePairs := (calls.filterMap (callFilePair filePath)).foldl increment t.callFilePairs
    unresolvedCount := t.unresolvedCount + result.stillUnresolved.length
    unresolvedBreakdown :=
      result.stillUnresolved.foldl (fun m ue => increment m (categoryName ue.category)) t.unresolvedBreakdown
    resolvedImportPairs := t.resolvedImportPairs ++ result.resolvedImportPairs }

def persistedUnresolved (now : String) (signals : List FileSignalRow) (ue : CategorizedUnresolvedEdge) :
    PersistedUnresolvedEdge :=
  let row := ue.sourceFileUid.bind fun fileUid => signals.find? (·.fileUid = fileUid)
  let (classification, basisCode) := env.classifyUnresolvedEdge ue.edge ue.category row
  { edge := ue.edge
    category := ue.category
    classification := classification
    classifierVersion := classifierVersion
    basisCode := basisCode
    observedAt := now }

def buildImportBindingsMap (signals : List FileSignalRow) : ImportBindingsByFile :=
  .ofPairs (signals.filterMap fun s => (s.importBindingsJson.bind env.readImportBindings).map (s.fileUid, ·))

structure ResolveContext where
  index : ResolverIndex
  bindings : ImportBindingsByFile
  decls : RustModDeclsByFile
  signals : List FileSignalRow
  filePath : String → Option String

/-- The batches of the extraction edges, each behind the last uid of the one before it, up to an empty one. -/
def resolveBatches (snapUid now : String) (batchSize : ℕ) (ctx : ResolveContext) :
    ℕ → Option String → ResolveTotals → IndexM σ ε ResolveTotals
  | 0, _, _ => FaultM.unfinished
  | rounds + 1, cursor, totals => do
    let batch ← call .queryExtractionEdgesBatch (port.queryExtractionEdgesBatch snapUid batchSize cursor)
    match batch.getLast? with
    | none => return totals
    | some last =>
      let result := resolveEdgesWithRustModDecls env.ext ctx.index (some ctx.bindings) ctx.decls
        (batch.map ExtractionEdgeRow.toEdge)
      FaultM.onlyIf (!result.resolved.isEmpty)
        (call .insertResolvedEdges (port.insertResolvedEdges result.resolved))
      FaultM.onlyIf (!result.stillUnresolved.isEmpty)
        (call .insertUnresolvedEdges
          (port.insertUnresolvedEdges (result.stillUnresolved.map (persistedUnresolved env now ctx.signals))))
      resolveBatches snapUid now batchSize ctx rounds (some last.edgeUid) (tally ctx.filePath result totals)

def readCopiedSignals (snapUid : String) (copiedFileUids : List String) (signals : List FileSignalRow) :
    IndexM σ ε (List FileSignalRow) :=
  (copiedFileUids.toChunks copiedSignalsReadChunk).foldlM (fun signals chunk => do
    let rows ← call .queryFileSignalsBatch (port.queryFileSignalsBatch snapUid chunk)
    return signals ++ rows) signals

/-- The module declarations of the Rust files; not read where no crate is declared. -/
def readRustModDecls (snapUid : String) (declaredModules : List DeclaredModule) :
    IndexM σ ε RustModDeclsByFile := do
  if (buildRustCrateRoots declaredModules).entries.isEmpty then return ∅
  else
    let nodes ← call .queryAllNodes (port.queryAllNodes snapUid)
    return .ofPairs ((nodes.filter (·.kind = .file)).filterMap fun n =>
      let decls := rustModDeclsFromMetadata env.ext n.metadataJson
      if decls.isEmpty then none else n.fileUid.map (·, decls))

def resolvePhase (rounds : ℕ) (options : IndexOptions) (repoUid snapUid now : String) (allFilePaths : List String)
    (copiedFileUids : List String) (signals : List FileSignalRow) :
    IndexM σ ε (ResolveTotals × List ResolverNode) := do
  emit env .resolving 0 0 none
  let nodes ← call .queryResolverNodes (port.queryResolverNodes snapUid)
  let signals ← readCopiedSignals port snapUid copiedFileUids signals
  let tsconfigPaths := TsconfigPathsIndex.build env.readTsconfigMapping
    (signals.map fun s => (s.fileUid, s.tsconfigAliasesJson))
    ((nodes.filter (·.kind = "FILE")).map (·.stableKey))
  let index := ResolverIndex.build allFilePaths repoUid options.cIncludeRoots
    options.declaredModules tsconfigPaths nodes
  let decls ← readRustModDecls port env snapUid options.declaredModules
  let fileUidToPath : IterMap String String := .ofPairs (allFilePaths.map fun path => (s!"{repoUid}:{path}", path))
  let filePath := fun nodeUid => (index.nodeUidToFileUid.lookup nodeUid).bind fileUidToPath.lookup
  let totals ← resolveBatches port env snapUid now (options.edgeBatchSize.getD defaultEdgeBatchSize)
    ⟨index, buildImportBindingsMap env signals, decls, signals, filePath⟩ rounds none noTotals
  return (totals, nodes)

def persistModuleEdges (moduleEdges : ModuleEdges) : IndexM σ ε Unit := do
  FaultM.onlyIf (!moduleEdges.edges.isEmpty) (do
    call .insertModuleEdges (port.insertResolvedEdges moduleEdges.edges)
    call .setEdgeTypeOnly (port.setEdgeTypeOnly moduleEdges.typeOnlyUpdates))

end Resolution

section Finalization

def countJson (n : ℕ) : Json := .number s!"{n}"

def buildExtractionDiagnostics (edgesTotal : ℕ) (totals : ResolveTotals) (rows : Extracted) : Json.Fields :=
  [("diagnostics_version", countJson 1),
    ("edges_total", countJson edgesTotal),
    ("unresolved_total", countJson totals.unresolvedCount),
    ("unresolved_breakdown", .object (totals.unresolvedBreakdown.toList.map fun e => (e.1, countJson e.2))),
    ("files_skipped_oversized", countJson rows.skippedOversized),
    ("files_read_failed", countJson rows.filesReadFailed),
    ("inferred_calls", countJson totals.inferredCallsTotal)].foldl
    (fun fields entry => Json.insert fields entry.1 entry.2) []

def diagnosticsText (options : IndexOptions) (fields : Json.Fields) : String :=
  let extra := (options.basisDiagnostic.bind Json.asObject).getD []
  env.ext.toString (.object (extra.foldl (fun fields entry => Json.insert fields entry.1 entry.2) fields))

def degreeRows (totals : ResolveTotals) : List SymbolCallDegree :=
  let uids : BTreeSet String := .ofList (totals.callFanIn.keys ++ totals.callFanOut.keys)
  uids.toList.map fun uid => ⟨uid, totals.callFanIn[uid]?.getD 0, totals.callFanOut[uid]?.getD 0⟩

def pairRows (totals : ResolveTotals) : List ResolvedCallFilePair :=
  totals.callFilePairs.toList.map fun e => ⟨e.1.1, e.1.2, e.2⟩

def persistTotals (options : IndexOptions) (snapUid : String) (edgesTotal : ℕ) (totals : ResolveTotals)
    (rows : Extracted) : IndexM σ ε Unit := do
  emit env .persisting 0 0 none
  call .updateSnapshotCounts (port.updateSnapshotCounts snapUid)
  call .persistResolvedCallAggregate (port.persistResolvedCallAggregate snapUid totals.resolvedCallsTotal)
  call .persistSymbolCallDegrees (port.persistSymbolCallDegrees snapUid (degreeRows totals))
  call .persistResolvedCallFilePairs (port.persistResolvedCallFilePairs snapUid (pairRows totals))
  call .updateSnapshotExtractionDiagnostics (port.updateSnapshotExtractionDiagnostics snapUid
    (diagnosticsText env options (buildExtractionDiagnostics edgesTotal totals rows)))

end Finalization

structure ContractIndexResult where
  schemasIndexed : ℕ
  elementsIndexed : ℕ
  parseFailures : List (String × String)
  storageError : Bool
  deriving DecidableEq, Repr

structure IndexResult where
  snapshotUid : String
  filesTotal : ℕ
  nodesTotal : ℕ
  edgesTotal : ℕ
  edgesUnresolved : ℕ
  unresolvedBreakdown : BTreeMap String ℕ
  contracts : Option ContractIndexResult
  parentSnapshotUid : Option String
  unchangedFiles : Option (List String)

structure PipelineInput where
  files : List FileInput
  allFilePaths : List String
  copiedResourceKeys : List String
  copiedFileUids : List String

def buildSnapshot (rounds : ℕ) (options : IndexOptions) (repoUid snapUid now : String) (input : PipelineInput) :
    IndexM σ ε IndexResult := do
  emit env .extracting 0 input.files.length none
  let rows ← extractFiles env repoUid snapUid now input.files
  let rows := drainHook env input.copiedResourceKeys rows
  persistExtracted port rows
  let moduleNodes := createModuleNodes env input.allFilePaths repoUid snapUid
  FaultM.onlyIf (!moduleNodes.isEmpty) (call .insertModuleNodes (port.insertNodes moduleNodes))
  let (totals, nodes) ← resolvePhase port env rounds options repoUid snapUid now input.allFilePaths
    input.copiedFileUids rows.signals
  let moduleEdges := createModuleEdges env.moduleEdgeUid (.build repoUid nodes)
    totals.resolvedImportPairs snapUid repoUid
  persistModuleEdges port moduleEdges
  let edgesTotal := totals.resolvedTotal + moduleEdges.edges.length
  persistTotals port env options snapUid edgesTotal totals rows
  return { snapshotUid := snapUid
           filesTotal := input.allFilePaths.length
           nodesTotal := rows.nodes.length + moduleNodes.length
           edgesTotal := edgesTotal
           edgesUnresolved := totals.unresolvedCount
           unresolvedBreakdown := totals.unresolvedBreakdown
           contracts := none
           parentSnapshotUid := none
           unchangedFiles := none }

def runPipeline (rounds : ℕ) (options : IndexOptions) (repoUid snapUid now : String) (input : PipelineInput) :
    IndexM σ ε IndexResult := do
  let result ← buildSnapshot port env rounds options repoUid snapUid now input
  port.updateSnapshotStatus snapUid .ready
  return result

section Contracts

def contractFile (repoUid : String) (f : ProtoFileInput) : TrackedFile :=
  ⟨s!"{repoUid}:{f.relPath}", repoUid, f.relPath, none, env.isTestFile f.relPath, false, false⟩

/-- `str::lines().count()`: a last line that is empty does not count. -/
def lineCountOf (text : String) : ℕ :=
  let chars := text.toList
  chars.count '\n' + if chars.getLast?.any (· ≠ '\n') then 1 else 0

def contractVersion (repoUid snapUid now : String) (failed : List String) (f : ProtoFileInput) : FileVersion where
  snapshotUid := snapUid
  fileUid := s!"{repoUid}:{f.relPath}"
  contentHash := f.contentHash
  extractor := some "contract-schema"
  parseStatus := if f.relPath ∈ failed then .failed else .parsed
  sizeBytes := some f.content.utf8ByteSize
  lineCount := some (lineCountOf f.content)
  indexedAt := now

/-- The contract files, indexed after the snapshot is READY. A failure degrades the result and ends no run. -/
def indexContracts (repoUid snapUid now : String) (contractFiles : List ProtoFileInput) (result : IndexResult) :
    IndexM σ ε IndexResult := do
  if contractFiles.isEmpty then return result
  else
    let proto ← FaultM.attempt (call .indexProtoFiles (port.indexProtoFiles repoUid snapUid contractFiles))
    let failed :=
      match proto with
      | .ok r => r.parseFailures.map (·.1)
      | .error _ => []
    let tracked ← FaultM.attempt (call .upsertContractFiles
      (port.upsertFiles (contractFiles.map (contractFile env repoUid))))
    let versions ← FaultM.attempt (call .upsertContractFileVersions
      (port.upsertFileVersions (contractFiles.map (contractVersion repoUid snapUid now failed))))
    let contracts : ContractIndexResult :=
      match proto with
      | .ok r => ⟨r.schemasIndexed, r.elementsIndexed, r.parseFailures, !(tracked.isOk && versions.isOk)⟩
      | .error _ => ⟨0, 0, [], true⟩
    let mapped := decide (0 < contracts.schemasIndexed) && !contracts.storageError
    modify fun w => { w with
      rest := port.dispatchRecomputeRelationships snapUid repoUid mapped
        (if mapped then port.runJavaMapping snapUid w.rest else w.rest) }
    return { result with contracts := some contracts }

end Contracts

/-- The pipeline of a snapshot; where it fails the snapshot is marked FAILED, and whether that succeeds does not
matter to the run. -/
def guardedPipeline (rounds : ℕ) (options : IndexOptions) (repoUid : String) (snapshot : Snapshot)
    (input : PipelineInput) : IndexM σ ε IndexResult := do
  match ← FaultM.attempt (runPipeline port env rounds options repoUid snapshot.snapshotUid
      snapshot.createdAt input) with
  | .ok result => return result
  | .error e =>
    let _ ← FaultM.attempt (port.updateSnapshotStatus snapshot.snapshotUid .failed)
    throw e

def initializeExtractors : IndexM σ ε Unit :=
  env.extractors.foldlM (fun _ extractor =>
    match extractor.initialized with
    | .ok () => return ()
    | .error message => throw (.extractorInit extractor.name message)) ()

def buildToolchainJson : String :=
  env.ext.toString (.object [("extractors", Json.strings (env.extractors.map (·.name))),
    ("indexer", .string indexerVersion)])

def indexRepo (rounds : ℕ) (options : IndexOptions) (repoUid : String) (files : List FileInput)
    (contractFiles : List ProtoFileInput) : IndexM σ ε IndexResult := do
  initializeExtractors env
  emit env .extracting 0 0 none
  let snapshot ← port.createSnapshot ⟨repoUid, .full, options.basisCommit, none, some (buildToolchainJson env)⟩
  let result ← guardedPipeline port env rounds options repoUid snapshot
    { files
      allFilePaths := files.map (·.relPath) ++ contractFiles.map (·.relPath)
      copiedResourceKeys := []
      copiedFileUids := [] }
  indexContracts port env repoUid snapshot.snapshotUid snapshot.createdAt contractFiles result

section Refresh

/-- The plan of a refresh, without the config files: they widen it but are not extracted. -/
def refreshPlan (repoUid : String) (parent : Snapshot) (parentHashes : BTreeMap String String)
    (currentFiles : List FileInput) (configFiles : List ConfigFileState) : InvalidationPlan :=
  let state (relPath contentHash : String) : CurrentFileState := ⟨s!"{repoUid}:{relPath}", relPath, contentHash⟩
  let plan := buildInvalidationPlan parent.snapshotUid parentHashes
    (currentFiles.map (fun f => state f.relPath f.contentHash) ++
      configFiles.map fun cf => state cf.relPath cf.contentHash) repoUid
  let configPaths := configFiles.map (·.relPath)
  { plan with
    filesToExtract := plan.filesToExtract.filter (· ∉ configPaths)
    filesToCopy := plan.filesToCopy.filter (· ∉ configPaths) }

def copiedFile (repoUid : String) (existing : List TrackedFile) (path : String) : TrackedFile :=
  let stored := existing.reverse.find? (·.path = path)
  { fileUid := s!"{repoUid}:{path}"
    repoUid := repoUid
    path := path
    language := (stored.map (·.language)).getD (env.classifyFileLanguage path none)
    isTest := env.isTestFile path
    isGenerated := (stored.map (·.isGenerated)).getD false
    isExcluded := false }

def checkpointOrFail (snapUid : String) : IndexM σ ε Unit := do
  if ← breaks env ⟨.extracting, 0, 0, none⟩ then
    let _ ← FaultM.attempt (port.updateSnapshotStatus snapUid .failed)
    throw .aborted

def copyForward (repoUid : String) (parent snapshot : Snapshot) (filesToCopy : List String) :
    IndexM σ ε CopyForwardResult := do
  checkpointOrFail port env snapshot.snapshotUid
  let copyResult ← call .copyForwardUnchangedFiles (port.copyForwardUnchangedFiles
    ⟨parent.snapshotUid, snapshot.snapshotUid, repoUid, filesToCopy.map fun path => s!"{repoUid}:{path}"⟩)
  checkpointOrFail port env snapshot.snapshotUid
  let existing ← call .getFilesByRepo (port.getFilesByRepo repoUid)
  call .upsertCopiedFiles (port.upsertFiles (filesToCopy.map (copiedFile env repoUid existing)))
  return copyResult

def refreshSnapshot (rounds : ℕ) (options : IndexOptions) (repoUid : String) (currentFiles : List FileInput)
    (contractFiles : List ProtoFileInput) (parent : Snapshot) (plan : InvalidationPlan) : IndexM σ ε IndexResult := do
  initializeExtractors env
  emit env .extracting 0 0 none
  let snapshot ← port.createSnapshot
    ⟨repoUid, .refresh, options.basisCommit, some parent.snapshotUid, some (buildToolchainJson env)⟩
  let copyResult ← copyForward port env repoUid parent snapshot plan.filesToCopy
  let result ← guardedPipeline port env rounds options repoUid snapshot
    { files := currentFiles.filter (·.relPath ∈ plan.filesToExtract)
      allFilePaths := plan.filesToCopy ++ plan.filesToExtract ++ contractFiles.map (·.relPath)
      copiedResourceKeys := copyResult.copiedResourceNodeKeys
      copiedFileUids := plan.filesToCopy.map fun path => s!"{repoUid}:{path}" }
  indexContracts port env repoUid snapshot.snapshotUid snapshot.createdAt contractFiles
    { result with
      nodesTotal := result.nodesTotal + copyResult.nodesCopied
      parentSnapshotUid := some parent.snapshotUid
      unchangedFiles := some plan.filesToCopy }

def refreshRepo (rounds : ℕ) (options : IndexOptions) (repoUid : String) (currentFiles : List FileInput)
    (contractFiles : List ProtoFileInput) (configFiles : List ConfigFileState) : IndexM σ ε IndexResult := do
  match ← port.getLatestSnapshot repoUid with
  | none => indexRepo port env rounds options repoUid currentFiles contractFiles
  | some parent =>
    if parent.status = .ready then
      let parentHashes ← call .queryFileVersionHashes (port.queryFileVersionHashes parent.snapshotUid)
      let plan := refreshPlan repoUid parent parentHashes currentFiles configFiles
      if plan.filesToCopy.isEmpty then indexRepo port env rounds options repoUid currentFiles contractFiles
      else refreshSnapshot port env rounds options repoUid currentFiles contractFiles parent plan
    else indexRepo port env rounds options repoUid currentFiles contractFiles

end Refresh

end RepoGraph.Indexer
