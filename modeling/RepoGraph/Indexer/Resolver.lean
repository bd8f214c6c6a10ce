import RepoGraph.Indexer.CallTarget

/-! Resolution of a batch of extracted edges: every edge is bound to a node or kept with the category of its
failure, and the certain imports feed the module graph. -/

namespace RepoGraph.Indexer

open Lib Lib.Text

structure ResolvedEdge where
  edgeUid : String
  snapshotUid : String
  repoUid : String
  sourceNodeUid : String
  targetNodeUid : String
  edgeType : EdgeType
  resolution : Resolution
  extractor : String
  location : Option SourceLocation
  metadataJson : Option String
  deriving DecidableEq, Repr

structure CategorizedUnresolvedEdge where
  edge : ExtractedEdge
  category : UnresolvedEdgeCategory
  sourceFileUid : Option String
  deriving DecidableEq, Repr

abbrev ImportPair := String × String × Option TypeOnlyDisposition

structure ResolutionResult where
  resolved : List ResolvedEdge
  stillUnresolved : List CategorizedUnresolvedEdge
  resolvedImportPairs : List ImportPair
  deriving DecidableEq, Repr

section Imports

variable (ext : Externals) (index : ResolverIndex)

def repoPrefixFallback (targetKey repoUid : String) : Option String :=
  if contains targetKey ':' then none
  else
    let constructedKey := fileKey repoUid targetKey
    ((index.fileResolution.lookup constructedKey).bind index.uidOf).or (index.uidOf constructedKey)

def resolveImportTarget (targetKey repoUid : String) (tuIncludeResolution : Option (IterMap String String))
    (isRustImport : Bool) (rustUseSite : Option RustUseSite) : Option String :=
  (index.uidOf targetKey)
    |>.or ((index.fileResolution.lookup targetKey).bind index.uidOf)
    |>.or ((tuIncludeResolution.bind (·.lookup targetKey)).bind index.uidOf)
    |>.or (if isRustImport then
        (resolveRustCrateImport targetKey index.rustCrateRoots index.fileResolution repoUid).bind index.uidOf
      else none)
    |>.or ((rustUseSite.bind fun site => resolveRustEnclosingModuleImport targetKey site index.rustCrateRoots
        index.fileResolution repoUid).bind index.uidOf)
    |>.or (repoPrefixFallback index targetKey repoUid)

/-- The include resolver, asked before the other stages; system includes carry no metadata. -/
def includeResolverStage (edge : ExtractedEdge) (sourceFileUid : Option String) : Option TargetResolution :=
  index.includeResolver.bind fun includeResolver => sourceFileUid.bind fun fileUid =>
    (splitOnce fileUid ':').bind fun (_, sourcePath) =>
      match includeResolver.resolve sourcePath edge.targetKey edge.metadataJson.isNone with
      | .resolved stableKey => (index.uidOf stableKey).map .resolved
      | .ambiguous candidates => some (.ambiguous candidates)
      | .unresolved => none

def rustUseSiteOf (decls : RustModDeclsByFile) (edge : ExtractedEdge) (sourceFileUid : Option String) :
    Option RustUseSite :=
  sourceFileUid.bind fun fileUid => (splitOnce fileUid ':').bind fun (_, sourcePath) =>
    RustUseSite.fromEdge ext sourcePath edge (decls.lookup fileUid)

def resolveImportLadder (decls : RustModDeclsByFile) (edge : ExtractedEdge) : TargetResolution :=
  let sourceFileUid := index.nodeUidToFileUid.lookup edge.sourceNodeUid
  match includeResolverStage index edge sourceFileUid with
  | some outcome => outcome
  | none =>
    let tuIncludes := sourceFileUid.bind index.perFileIncludeResolution.lookup
    let isRustImport := startsWith edge.extractor rustExtractorPrefix
    let rustUseSite := if isRustImport then rustUseSiteOf ext decls edge sourceFileUid else none
    match resolveImportTarget index edge.targetKey edge.repoUid tuIncludes isRustImport rustUseSite with
    | some uid => .resolved uid
    | none =>
      if startsWith edge.extractor javaExtractorPrefix then resolveJavaImport edge.targetKey index edge.repoUid
      else if isCFamilyExtractor edge.extractor then
        (resolveIncludeSuffixOrBasename ext edge index).getD .unresolved
      else if startsWith edge.extractor tsExtractorPrefix then
        ((resolveTsconfigPathsImport ext edge index).or (resolveWorkspacePackageImport ext edge index)).getD
          .unresolved
      else .unresolved

end Imports

def optionToResolution : Option String → TargetResolution
  | some uid => .resolved uid
  | none => .unresolved

section Target

variable (ext : Externals) (index : ResolverIndex) (bindings : Option ImportBindingsByFile)
  (decls : RustModDeclsByFile)

def resolveTarget (edge : ExtractedEdge) : TargetResolution :=
  match edge.edgeType with
  | .imports =>
    let submodule :=
      if startsWith edge.extractor pythonExtractorPrefix then resolvePythonSubmoduleImport ext edge index bindings
      else none
    submodule.getD (resolveImportLadder ext index decls edge)
  | .calls => resolveCallTarget ext index bindings edge
  | .reads | .writes | .accesses =>
    match index.uidOf edge.targetKey with
    | some uid => .resolved uid
    | none => optionToResolution (resolveNamedTarget index edge)
  | _ => optionToResolution (resolveNamedTarget index edge)

end Target

section Rows

variable (ext : Externals)

def categorizeUnresolvedCall (edge : ExtractedEdge) : UnresolvedEdgeCategory :=
  let rawCalleeName := ((ext.parsed edge.metadataJson).bind (·.get "rawCalleeName")).bind Json.asStr
  let key := rawCalleeName.getD edge.targetKey
  if startsWith key "this." then
    if 1 < key.toList.count '.' then .callsThisWildcardMethodNeedsTypeInfo else .callsThisMethodNeedsClassContext
  else if contains key '.' then .callsObjMethodNeedsTypeInfo
  else .callsFunctionAmbiguousOrMissing

def categorizeUnresolvedEdge (edge : ExtractedEdge) : UnresolvedEdgeCategory :=
  match edge.edgeType with
  | .imports => .importsFileNotFound
  | .instantiates => .instantiatesClassNotFound
  | .implements => .implementsInterfaceNotFound
  | .calls => categorizeUnresolvedCall ext edge
  | _ => .other

def injectMroCandidates (metadataJson : Option String) (candidates : List String) : String :=
  ext.mergeMetadata metadataJson [("mroCandidates", Json.strings candidates)]

def injectInferredImportCandidates (metadataJson : Option String) (alternateStableKey basis : String) : String :=
  ext.mergeMetadata metadataJson [("alternateTarget", .string alternateStableKey), ("basis", .string basis)]

def receiverUntypedNameOnlyBasis : String := "receiver_untyped_name_only"

def injectNameOnlyBinding (metadataJson : Option String) (receiver candidate : String) : String :=
  ext.mergeMetadata metadataJson [("basis", .string receiverUntypedNameOnlyBasis), ("receiver", .string receiver),
    ("candidates", Json.strings [candidate])]

def nameOnlyReasonAmbiguous : String := "ambiguous_name"

def nameOnlyReasonSelfCallHierarchyMiss : String := "self_call_hierarchy_miss"

def nameOnlyReasonSelfCallWithoutClassContext : String := "self_call_without_class_context"

def nameOnlyReasonSelfCallReceiverUnproven : String := "self_call_receiver_unproven"

def ResolvedEdge.ofEdge (edge : ExtractedEdge) (targetNodeUid : String) (resolution : Resolution)
    (metadataJson : Option String) : ResolvedEdge where
  edgeUid := edge.edgeUid
  snapshotUid := edge.snapshotUid
  repoUid := edge.repoUid
  sourceNodeUid := edge.sourceNodeUid
  targetNodeUid := targetNodeUid
  edgeType := edge.edgeType
  resolution := resolution
  extractor := edge.extractor
  location := edge.location
  metadataJson := metadataJson

variable (index : ResolverIndex)

def unresolvedRow (edge : ExtractedEdge) (metadataJson : Option String) (category : UnresolvedEdgeCategory) :
    CategorizedUnresolvedEdge where
  edge := { edge with metadataJson }
  category := category
  sourceFileUid := index.nodeUidToFileUid.lookup edge.sourceNodeUid

def declinedPoolRow (edge : ExtractedEdge) (pool : List String) (reason : String) : CategorizedUnresolvedEdge :=
  let metadataJson := some (ext.mergeMetadata edge.metadataJson
    [("nameOnlyCandidates", Json.strings pool), ("nameOnlyReason", .string reason)])
  unresolvedRow index edge metadataJson (categorizeUnresolvedEdge ext { edge with metadataJson })

end Rows

namespace ResolutionResult

def pushResolved (result : ResolutionResult) (edge : ResolvedEdge) : ResolutionResult :=
  { result with resolved := result.resolved ++ [edge] }

def pushUnresolved (result : ResolutionResult) (row : CategorizedUnresolvedEdge) : ResolutionResult :=
  { result with stillUnresolved := result.stillUnresolved ++ [row] }

def pushImportPair (result : ResolutionResult) (pair : ImportPair) : ResolutionResult :=
  { result with resolvedImportPairs := result.resolvedImportPairs ++ [pair] }

end ResolutionResult

section Batch

variable (ext : Externals) (index : ResolverIndex) (bindings : Option ImportBindingsByFile)
  (decls : RustModDeclsByFile)

def importEdgeTypeOnly (edge : ExtractedEdge) : Option TypeOnlyDisposition :=
  ext.typeOnlyDispositionOf edge.metadataJson

def placeEdge (edge : ExtractedEdge) (outcome : TargetResolution) (result : ResolutionResult) : ResolutionResult :=
  match outcome with
  | .resolved uid =>
    let result :=
      if edge.edgeType = .imports then
        result.pushImportPair (edge.sourceNodeUid, uid, importEdgeTypeOnly ext edge)
      else result
    result.pushResolved (.ofEdge edge uid edge.resolution edge.metadataJson)
  | .ambiguous _ => result.pushUnresolved (unresolvedRow index edge edge.metadataJson .importsAmbiguousMatch)
  | .javaWildcard => result.pushUnresolved (unresolvedRow index edge edge.metadataJson .importsWildcard)
  | .javaAmbiguousSuffix =>
    result.pushUnresolved (unresolvedRow index edge edge.metadataJson .importsAmbiguousSuffix)
  | .selfCallAmbiguousMro candidates =>
    let metadataJson := some (injectMroCandidates ext edge.metadataJson candidates)
    result.pushUnresolved
      (unresolvedRow index edge metadataJson (categorizeUnresolvedEdge ext { edge with metadataJson }))
  | .inferredImport targetUid alternateStableKey basis =>
    result.pushResolved (.ofEdge edge targetUid .inferred
      (some (injectInferredImportCandidates ext edge.metadataJson alternateStableKey basis)))
  | .includeBound targetUid resolution metadataJson =>
    let result :=
      if resolution ≠ .inferred then
        result.pushImportPair (edge.sourceNodeUid, targetUid, importEdgeTypeOnly ext edge)
      else result
    result.pushResolved (.ofEdge edge targetUid resolution (some metadataJson))
  | .includeAmbiguous metadataJson =>
    result.pushUnresolved (unresolvedRow index edge (some metadataJson) .importsAmbiguousMatch)
  | .workspaceSourceEntryBound targetUid metadataJson =>
    result.pushResolved (.ofEdge edge targetUid .inferred (some metadataJson))
  | .workspaceSourceEntryAmbiguous metadataJson =>
    result.pushUnresolved (unresolvedRow index edge (some metadataJson) (categorizeUnresolvedEdge ext edge))
  | .tsconfigPathsBound targetUid metadataJson =>
    (result.pushImportPair (edge.sourceNodeUid, targetUid, importEdgeTypeOnly ext edge)).pushResolved
      (.ofEdge edge targetUid .static (some metadataJson))
  | .tsconfigPathsAmbiguous metadataJson =>
    result.pushUnresolved (unresolvedRow index edge (some metadataJson) (categorizeUnresolvedEdge ext edge))
  | .inferredNameOnly uid receiver candidate =>
    result.pushResolved (.ofEdge edge uid .inferred
      (some (injectNameOnlyBinding ext edge.metadataJson receiver candidate)))
  | .ambiguousNameOnly pool => result.pushUnresolved (declinedPoolRow ext index edge pool nameOnlyReasonAmbiguous)
  | .selfCallHierarchyMiss pool =>
    result.pushUnresolved (declinedPoolRow ext index edge pool nameOnlyReasonSelfCallHierarchyMiss)
  | .selfCallReceiverUnproven pool =>
    result.pushUnresolved (declinedPoolRow ext index edge pool nameOnlyReasonSelfCallReceiverUnproven)
  | .selfCallWithoutClassContext pool =>
    result.pushUnresolved (declinedPoolRow ext index edge pool nameOnlyReasonSelfCallWithoutClassContext)
  | .unresolved =>
    result.pushUnresolved (unresolvedRow index edge edge.metadataJson (categorizeUnresolvedEdge ext edge))

def resolveEdgesWithRustModDecls (edges : List ExtractedEdge) : ResolutionResult :=
  edges.foldl (fun result edge =>
    placeEdge ext index edge (resolveTarget ext index bindings decls edge) result) ⟨[], [], []⟩

end Batch

end RepoGraph.Indexer
