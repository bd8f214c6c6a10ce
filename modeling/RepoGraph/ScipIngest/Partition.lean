import RepoGraph.Lib.Memo
import RepoGraph.ScipIngest.Facts

/-! The ingestion of one partition: its nodes first, document by document, then the edges between them, and last
the imports of files and what is observed of the others. -/

namespace RepoGraph.ScipIngest

open Lib Lib.Text Ir

structure Producer where
  indexer : String
  indexerVersion : String
  buildInputsHash : String
  deriving DecidableEq, Repr

def Producer.provenance (p : Producer) (scipSymbolId : Option String) : Provenance :=
  ⟨p.indexer, p.indexerVersion, scipSymbolId, p.buildInputsHash⟩

section Nodes

structure PartitionBuild where
  nodes : List IrNode
  complexity : BTreeMap String UInt32
  matched : ℕ
  reconciled : ℕ
  fallback : ℕ
  fileScope : ℕ

def irVisibilityFromProducer : Visibility → IrVisibility
  | .isPublic => .isPublic
  | .isPrivate => .isPrivate
  | .isProtected => .isProtected
  | .isInternal => .isInternal
  | .isExport => .isExport

def toU32 (x : ℤ) : UInt32 := .ofNat (max x 0).toNat

def rangeOf (keyPath : String) (n : AstNodeLite) : SourceRange :=
  ⟨keyPath, toU32 n.lineStart, toU32 n.colStart, toU32 n.lineEnd, toU32 n.colEnd⟩

def declarationKinds : List String := ["Namespace", "Type", "Method", "Term"]

variable (keyPath repoUid partitionId : String) (producer : Producer)

def adoptedNode (d : ScipDef) (ast : AstNodeLite) : IrNode where
  key := .fromExisting ast.stableKey
  subtype := d.kind
  name := d.name
  range := some (rangeOf keyPath ast)
  partitionId := .new partitionId
  identitySource := .astAdopted
  provenance := producer.provenance (some d.symbol)
  attributes := some ⟨ast.visibility.map irVisibilityFromProducer, ast.isTopLevel, ast.subtype⟩

def fallbackNode (d : ScipDef) : IrNode where
  key := .fromExisting s!"{repoUid}:{keyPath}#{d.name}:SYMBOL:{d.kind}"
  subtype := d.kind
  name := d.name
  range := none
  partitionId := .new partitionId
  identitySource := .scipSynthesizedFallback
  provenance := producer.provenance (some d.symbol)
  attributes := none

def fileScopeNode (n : AstNodeLite) : IrNode where
  key := .fromExisting n.stableKey
  subtype := "FileScope"
  name := n.name
  range := some (rangeOf keyPath n)
  partitionId := .new partitionId
  identitySource := .astFileScope
  provenance := producer.provenance none
  attributes := none

def addDefinition (astNodes : List AstNodeLite) (out : PartitionBuild) (d : ScipDef) : PartitionBuild :=
  if d.isLocal || !declarationKinds.contains d.kind then out
  else
    match findMatch d astNodes with
    | some ast =>
      { out with
        complexity := match ast.cyclomatic with
          | some c => out.complexity.insert ast.stableKey c
          | none => out.complexity
        nodes := out.nodes ++ [adoptedNode keyPath partitionId producer d ast]
        matched := out.matched + 1
        reconciled := if startsWith d.name "<" then out.reconciled + 1 else out.reconciled }
    | none =>
      { out with
        nodes := out.nodes ++ [fallbackNode keyPath repoUid partitionId producer d]
        fallback := out.fallback + 1 }

def addFileScope (out : PartitionBuild) (n : AstNodeLite) : PartitionBuild :=
  { out with nodes := out.nodes ++ [fileScopeNode keyPath partitionId producer n], fileScope := out.fileScope + 1 }

def buildPartitionNodes (symbols : ScipSymbols) (doc : Document) (astNodes : List AstNodeLite) : PartitionBuild :=
  let out := (scipDefinitions symbols doc).foldl (addDefinition keyPath repoUid partitionId producer astNodes)
    ⟨[], ∅, 0, 0, 0, 0⟩
  (astNodes.filter (·.isFileScope)).foldl (addFileScope keyPath partitionId producer) out

end Nodes

section Edges

structure SymbolKey where
  key : String
  isFallback : Bool
  name : String
  deriving DecidableEq, Repr

structure EdgeReport where
  totalRefs : ℕ
  callerResolved : ℕ
  calleeResolved : ℕ
  noCaller : ℕ
  calls : ℕ
  references : ℕ
  fileScopeRefs : ℕ
  fallbackTarget : ℕ
  deriving DecidableEq, Repr

def EdgeReport.empty : EdgeReport := ⟨0, 0, 0, 0, 0, 0, 0, 0⟩

def EdgeReport.add (r o : EdgeReport) : EdgeReport where
  totalRefs := r.totalRefs + o.totalRefs
  callerResolved := r.callerResolved + o.callerResolved
  calleeResolved := r.calleeResolved + o.calleeResolved
  noCaller := r.noCaller + o.noCaller
  calls := r.calls + o.calls
  references := r.references + o.references
  fileScopeRefs := r.fileScopeRefs + o.fileScopeRefs
  fallbackTarget := r.fallbackTarget + o.fallbackTarget

def EdgeReport.seen (r : EdgeReport) (hasCaller hasCallee : Bool) : EdgeReport :=
  { r with
    totalRefs := r.totalRefs + 1
    callerResolved := r.callerResolved + hasCaller.toNat
    noCaller := r.noCaller + (!hasCaller).toNat
    calleeResolved := r.calleeResolved + hasCallee.toNat }

def EdgeReport.emitted (r : EdgeReport) (basis : EdgeBasis) (isFallback : Bool) : EdgeReport :=
  { r with
    fileScopeRefs := r.fileScopeRefs + (basis = .fileScopeReference : Bool).toNat
    calls := r.calls + (basis = .syntaxConfirmedCall : Bool).toNat
    references := r.references + (basis = .derivedReference : Bool).toNat
    fallbackTarget := r.fallbackTarget + isFallback.toNat }

variable (facts : AstFacts) (symbolToKey : HashMap String SymbolKey)
    (nodeKeys : HashSet String) (producer : Producer)

/-- A reference becomes a call only when a call of that name is written there, and never from the scope of a
file. -/
def edgeKind (caller : AstNodeLite) (callee : SymbolKey) (line col : ℤ) : EdgeType × EdgeBasis :=
  if caller.isFileScope then (.references, .fileScopeReference)
  else if isCallAt facts.callSites callee.name line col then (.calls, .syntaxConfirmedCall)
  else (.references, .derivedReference)

def derivedEdge (occ : Occurrence) (caller : AstNodeLite) (callee : SymbolKey)
    (kind : EdgeType × EdgeBasis) : IrEdge :=
  ⟨.fromExisting caller.stableKey, .fromExisting callee.key, kind.1, kind.2,
    producer.provenance (some occ.symbol), none⟩

def deriveStep (s : EdgeReport × List IrEdge) (occ : Occurrence) : EdgeReport × List IrEdge :=
  match occ.start with
  | none => s
  | some (line0, col) =>
    if occ.isDefinition then s
    else
      let caller := enclosingMaterializedNode facts.nodes nodeKeys (line0 + 1) col
      let callee := symbolToKey[occ.symbol]?
      let r := s.1.seen caller.isSome callee.isSome
      match caller, callee with
      | some caller, some callee =>
        let kind := edgeKind facts caller callee (line0 + 1) col
        (r.emitted kind.2 callee.isFallback, s.2 ++ [derivedEdge producer occ caller callee kind])
      | _, _ => (r, s.2)

def deriveEdges (doc : Document) (edges : List IrEdge) : EdgeReport × List IrEdge :=
  doc.occurrences.foldl (deriveStep facts symbolToKey nodeKeys producer) (.empty, edges)

end Edges

section Imports

/-- The order in which a set of texts is iterated; it depends on nothing but the set. -/
structure IterOrder where
  iterate : HashSet String → List String
  perm : ∀ s, (iterate s).Perm s.toList

def tsExtensions : List String := [".d.ts", ".ts", ".tsx", ".mts", ".cts"]

def stripTsExt (path : String) : String := (tsExtensions.findSome? (stripSuffix path ·)).getD path

def filePathOf (repoUid key : String) : Option String :=
  (stripPrefix key s!"{repoUid}:").bind (stripSuffix · ":FILE")

def indexFile (repoUid : String) (index : HashMap String String) (key : String) : HashMap String String :=
  match filePathOf repoUid key with
  | some path => index.insert (stripTsExt path) key
  | none => index

def buildFileIndex (order : IterOrder) (repoUid : String) (nodeKeys : HashSet String) : HashMap String String :=
  (order.iterate nodeKeys).foldl (indexFile repoUid) ∅

variable (order : IterOrder) (repoUid : String) (nodeKeys : HashSet String) (producer : Producer)

def importStep (fileIndex : HashMap String String) (srcKey : String) (s : List IrEdge × ℕ × ℕ) (imp : RawImport) :
    List IrEdge × ℕ × ℕ :=
  match nodeKeys.contains srcKey, fileIndex[imp.resolvedPath]? with
  | true, some dstKey =>
    (s.1 ++ [⟨.fromExisting srcKey, .fromExisting dstKey, .imports, .astImport, producer.provenance none,
      some ⟨imp.rawSpecifier, imp.resolvedPath, .staticResolved⟩⟩], s.2.1 + 1, s.2.2)
  | _, _ => (s.1, s.2.1, s.2.2 + 1)

def resolveImportEdges (perDocImports : List (String × List RawImport)) : List IrEdge × ℕ × ℕ :=
  let fileIndex := buildFileIndex order repoUid nodeKeys
  perDocImports.foldl (fun s doc =>
    doc.2.foldl (importStep nodeKeys producer fileIndex (Indexer.fileKey repoUid doc.1)) s) ([], 0, 0)

def ingestPackageNameOf (specifier : String) : String :=
  match split specifier '/' with
  | [] => specifier
  | first :: rest =>
    if startsWith first "@" then
      match rest with
      | second :: _ => s!"{first}/{second}"
      | [] => first
    else first

def typesPackageDir (packageName : String) : String :=
  match stripPrefix packageName "@" with
  | some rest => "@types/" ++ replaceFirst rest '/' "__"
  | none => "@types/" ++ packageName

/-- The package is installed outside the sources of the repository; a directory that is linked into them is not. -/
def resolvesExternalNodeModules (canonicalize : String → Option (List String))
    (root repoRoot packageName : String) : Bool :=
  match canonicalize repoRoot with
  | none => false
  | some canonRepo =>
    [root, repoRoot].any fun base => [packageName, typesPackageDir packageName].any fun name =>
      match canonicalize s!"{base}/node_modules/{name}" with
      | some real => real.contains "node_modules" || !canonRepo.isPrefixOf real
      | none => false

def observedResolution (fileIndex : HashMap String String) (o : TsImportObservation) : ImportResolution :=
  if o.isDynamic then .dynamicUnsupported
  else if !o.isRelative then .packageExternal
  else if (o.resolvedPath.map fileIndex.contains).getD false then .staticResolved
  else .staticUnresolved

def classifyObservation (external : String → Bool) (fileIndex : HashMap String String)
    (nmMemo : HashMap String Bool) (q : String × TsImportObservation) : ImportObservation × HashMap String Bool :=
  let o := q.2
  let pkg := ingestPackageNameOf o.rawSpecifier
  let (externalNodeModules, nmMemo) :=
    if o.isRelative then (false, nmMemo)
    else
      match nmMemo[pkg]? with
      | some cached => (cached, nmMemo)
      | none => (external pkg, nmMemo.insert pkg (external pkg))
  (⟨q.1, o.rawSpecifier, observedResolution fileIndex o, o.isReExport, o.isTypeOnly,
    o.isSideEffect, externalNodeModules⟩, nmMemo)

def classifyImportObservations (external : String → Bool) (perDoc : List (String × List TsImportObservation)) :
    List ImportObservation :=
  answers (classifyObservation external (buildFileIndex order repoUid nodeKeys)) ∅
    (perDoc.flatMap fun doc => doc.2.map (doc.1, ·))

end Imports

section Ingest

def repoRelativeFilePath (partitionPrefix docRelative : String) : Except String String :=
  let combined := if partitionPrefix = "" then docRelative
    else trimEndBy (· = '/') partitionPrefix ++ "/" ++ docRelative
  let posix := replaceAll combined '\\' '/'
  let parts := (split posix '/').filter fun seg => seg ≠ "" && seg ≠ "."
  if parts.contains ".." then .error s!"'..' not allowed in repo-relative key path: {posix}"
  else .ok (join "/" parts)

/-- What the ingestion takes from outside: the SCIP and the JSON libraries, the file system and the extractor. -/
structure Outside where
  symbols : ScipSymbols
  ext : Indexer.Externals
  fromJson5 : String → Option Indexer.Json
  readToString : String → Option String
  canonicalize : String → Option (List String)
  extract : String → String → String → Option ExtractionResult
  order : IterOrder

variable (out : Outside)

def readPackageManifest (root : String) : Option String × BTreeSet String :=
  match (out.readToString s!"{root}/package.json").bind out.ext.fromStr with
  | none => (none, ∅)
  | some json =>
    ((json.get "name").bind (·.asStr),
      .ofList (["dependencies", "devDependencies", "peerDependencies"].flatMap fun key =>
        (((json.get key).bind (·.asObject)).getD []).map Prod.fst))

def readTsconfigAliases (root partitionPrefix : String) : Option TsconfigAliasConfig := do
  let json ← (out.readToString s!"{root}/tsconfig.json").bind out.fromJson5
  let compilerOptions ← json.get "compilerOptions"
  let pathsObj ← (← compilerOptions.get "paths").asObject
  let targetsOf (value : Indexer.Json) : List String := (value.asArray.getD []).filterMap (·.asStr)
  let paths : BTreeMap String (List String) :=
    pathsObj.foldl (fun m e => if targetsOf e.2 = [] then m else m.insert e.1 (targetsOf e.2)) ∅
  if paths.isEmpty then none
  else some ⟨((compilerOptions.get "baseUrl").bind (·.asStr)).getD ".", paths, partitionPrefix⟩

structure NodeCounts where
  matched : ℕ
  reconciled : ℕ
  fallback : ℕ
  fileScope : ℕ
  deriving DecidableEq, Repr

structure FirstPass where
  nodes : List IrNode
  nodeCounts : NodeCounts
  complexity : BTreeMap String UInt32
  symbolToKey : HashMap String SymbolKey
  nodeKeys : HashSet String
  tsCallSites : ℕ
  missingSource : ℕ
  factsByDoc : List (Option AstFacts)
  docKeyPaths : List String

def FirstPass.start : FirstPass := ⟨[], ⟨0, 0, 0, 0⟩, ∅, ∅, ∅, 0, 0, [], []⟩

def recordNode (st : FirstPass) (n : IrNode) : FirstPass :=
  { st with
    nodeKeys := st.nodeKeys.insert n.key.asStr
    symbolToKey := match n.provenance.scipSymbolId with
      | some sym => st.symbolToKey.insert sym ⟨n.key.asStr, n.identitySource = .scipSynthesizedFallback, n.name⟩
      | none => st.symbolToKey }

variable (root repoUid partitionId : String) (producer : Producer) (partitionPrefix : String)

def firstPassDoc (st : FirstPass) (doc : Document) : FirstPass :=
  match repoRelativeFilePath partitionPrefix doc.relativePath with
  | .error _ =>
    { st with
      missingSource := st.missingSource + 1
      docKeyPaths := st.docKeyPaths ++ [""]
      factsByDoc := st.factsByDoc ++ [none] }
  | .ok keyPath =>
    match out.readToString s!"{root}/{doc.relativePath}" with
    | none =>
      { st with
        missingSource := st.missingSource + 1
        docKeyPaths := st.docKeyPaths ++ [keyPath]
        factsByDoc := st.factsByDoc ++ [none] }
    | some source =>
      let facts := astFactsForSource out.ext out.extract source keyPath repoUid
      let b := buildPartitionNodes keyPath repoUid partitionId producer out.symbols doc facts.nodes
      let recorded := b.nodes.foldl recordNode st
      { recorded with
        nodes := st.nodes ++ b.nodes
        nodeCounts := ⟨st.nodeCounts.matched + b.matched, st.nodeCounts.reconciled + b.reconciled,
          st.nodeCounts.fallback + b.fallback, st.nodeCounts.fileScope + b.fileScope⟩
        complexity := b.complexity.foldl (fun m k v => m.insert k v) st.complexity
        tsCallSites := st.tsCallSites + facts.callSites.length
        factsByDoc := st.factsByDoc ++ [some facts]
        docKeyPaths := st.docKeyPaths ++ [keyPath] }

def firstPass (documents : List Document) : FirstPass :=
  documents.foldl (firstPassDoc out root repoUid partitionId producer partitionPrefix) .start

def secondPassDoc (pass : FirstPass) (s : EdgeReport × List IrEdge) (doc : Document × Option AstFacts) :
    EdgeReport × List IrEdge :=
  match doc.2 with
  | some facts =>
    let (report, edges) := deriveEdges facts pass.symbolToKey pass.nodeKeys producer doc.1 s.2
    (s.1.add report, edges)
  | none => s

structure IngestOutcome where
  ir : PartitionIr
  edgesReport : EdgeReport
  nodeCounts : NodeCounts
  complexity : BTreeMap String UInt32
  tsCallSites : ℕ
  missingSource : ℕ
  importsResolved : ℕ
  importsNotCaptured : ℕ

def perDocument {α : Type} (pass : FirstPass) (f : AstFacts → α) : List (String × α) :=
  (pass.factsByDoc.zip pass.docKeyPaths).filterMap fun (facts, keyPath) =>
    facts.map fun facts => (keyPath, f facts)

def repoRootOf : String :=
  if partitionPrefix = "" then root
  else ((stripSuffix root partitionPrefix).map (trimEndBy (· = '/'))).getD root

def ingestPartition (documents : List Document) : IngestOutcome :=
  let (packageName, declaredDependencies) := readPackageManifest out root
  let partition : Partition :=
    { id := .new partitionId, kind := .tsPackage, root := root, indexer := producer.indexer
      indexerVersion := producer.indexerVersion, buildInputsHash := producer.buildInputsHash
      packageName := packageName, declaredDependencies := declaredDependencies
      tsconfigAliases := readTsconfigAliases out root partitionPrefix }
  let pass := firstPass out root repoUid partitionId producer partitionPrefix documents
  let (edgesReport, edges) := (documents.zip pass.factsByDoc).foldl (secondPassDoc producer pass) (.empty, [])
  let (importEdges, importsResolved, importsNotCaptured) :=
    resolveImportEdges out.order repoUid pass.nodeKeys producer (perDocument pass (·.imports))
  let observations := classifyImportObservations out.order repoUid pass.nodeKeys
    (resolvesExternalNodeModules out.canonicalize root (repoRootOf root partitionPrefix))
    (perDocument pass (·.importObservations))
  { ir := ⟨partition, pass.nodes, edges ++ importEdges, observations⟩
    edgesReport := edgesReport
    nodeCounts := pass.nodeCounts
    complexity := pass.complexity
    tsCallSites := pass.tsCallSites
    missingSource := pass.missingSource
    importsResolved := importsResolved
    importsNotCaptured := importsNotCaptured }

end Ingest

end RepoGraph.ScipIngest
