import RepoGraph.Indexer.ImportStages

/-! Binding of a call by name: the candidate pool, the receiver's recorded type, the class that encloses a
Python self call and its superclasses, and the imports of the calling file. -/

namespace RepoGraph.Indexer

open Lib Lib.Text

def only {α : Type} : List α → Option α
  | [a] => some a
  | _ => none

section Pool

def isTypeOnlySubtype (subtype : Option String) : Bool :=
  subtype == some "TYPE_ALIAS" || subtype == some "INTERFACE"

def filterByEdgeAffinity (candidates : List ResolverNode) (edgeType : EdgeType) (cFamilyImplements : Bool) :
    List ResolverNode :=
  match edgeType with
  | .instantiates => candidates.filter (·.subtype = some "CLASS")
  | .implements =>
    if cFamilyImplements then candidates.filter fun n => n.subtype = some "CLASS" ∨ n.subtype = some "STRUCT"
    else candidates.filter (·.subtype = some "INTERFACE")
  | .calls => candidates.filter fun n => !isTypeOnlySubtype n.subtype
  | _ => candidates

def resolutionPool (candidates : List ResolverNode) (edgeType : EdgeType) (cFamilyImplements : Bool) :
    List ResolverNode :=
  let filtered := filterByEdgeAffinity candidates edgeType cFamilyImplements
  let nonDecl := filtered.filter (!·.forwardDecl)
  if nonDecl.isEmpty then filtered else nonDecl

def pickUnambiguous (candidates : Option (List ResolverNode)) (edgeType : EdgeType) (cFamilyImplements : Bool) :
    Option String :=
  candidates.bind fun candidates =>
    (only (resolutionPool candidates edgeType cFamilyImplements)).map (·.nodeUid)

def resolveNamedTarget (index : ResolverIndex) (edge : ExtractedEdge) : Option String :=
  let cFamilyImplements := edge.edgeType = .implements ∧ isCFamilyExtractor edge.extractor
  pickUnambiguous (index.nodesByName.lookup edge.targetKey) edge.edgeType cFamilyImplements

def nameOnlyPool (candidates : Option (List ResolverNode)) : List ResolverNode :=
  resolutionPool (candidates.getD []) .calls false

def candidateLabel (node : ResolverNode) : String := node.qualifiedName.getD node.name

def sortedCandidateLabels (pool : List ResolverNode) : List String := sortBy compare (pool.map candidateLabel)

end Pool

section Receiver

def qualifiedContainer (qualifiedName : String) : Option String := beforeLast qualifiedName "::"

def enclosingClassPreference (pool : List ResolverNode) (caller : Option ResolverNode) : Option String :=
  (caller.bind (·.qualifiedName)).bind fun callerName =>
    (qualifiedContainer callerName).bind fun callerContainer =>
      (only (pool.filter fun c => c.qualifiedName.bind qualifiedContainer = some callerContainer)).map (·.nodeUid)

inductive ReceiverTypeRead
  | absent
  | present (receiverType : String)
  | unreadable
  deriving DecidableEq, Repr

inductive ReceiverDisposition
  | receiverless
  | explicitThis
  | indirect (receiverType : ReceiverTypeRead)
  | unreadable
  deriving DecidableEq, Repr

def receiverlessUnlessTypePresent (disposition : ReceiverDisposition) : ReceiverTypeRead → ReceiverDisposition
  | .absent => disposition
  | .present _ | .unreadable => .unreadable

def receiverTypeRead (value : Json) : ReceiverTypeRead :=
  match value.get "receiverType" with
  | none => .absent
  | some (.string s) => if s = "" then .unreadable else .present s
  | some _ => .unreadable

def callReceiverInfo (ext : Externals) : Option String → ReceiverDisposition
  | none => .receiverless
  | some raw =>
    match ext.fromStr raw with
    | some (.object fields) =>
      let value := Json.object fields
      match value.get "receiver" with
      | none => receiverlessUnlessTypePresent .receiverless (receiverTypeRead value)
      | some (.string s) =>
        if s = "" then receiverlessUnlessTypePresent .receiverless (receiverTypeRead value)
        else if s = "this" then receiverlessUnlessTypePresent .explicitThis (receiverTypeRead value)
        else .indirect (receiverTypeRead value)
      | some _ => .unreadable
    | _ => .unreadable

def containerMatches (qualifiedName : Option String) (receiverType : String) : Bool :=
  match qualifiedName.bind qualifiedContainer with
  | none => false
  | some container =>
    let rt := trimStart receiverType "::"
    if rt = "" then false
    else if container = rt then true
    -- a qualified receiver type never names a shorter container
    else if (splitFirstSeq "::".toList rt.toList).isSome then false
    else endsWith container s!"::{rt}"

def receiverTypeBinding (candidates : List ResolverNode) (receiverType : String) : Option String :=
  (only ((resolutionPool candidates .calls false).filter fun c =>
    containerMatches c.qualifiedName receiverType)).map (·.nodeUid)

end Receiver

section Imported

def resolveRelativePath (sourceDir specifier : String) : String :=
  let parts := if sourceDir = "" then [] else split sourceDir '/'
  join "/" ((split specifier '/').foldl (fun parts seg =>
    if seg = "." then parts else if seg = ".." then parts.dropLast else parts ++ [seg]) parts)

def resolveImportSpecifierToFile (specifier sourceFileUid : String) (fileResolution : IterMap String String) :
    Option String :=
  if !startsWith specifier "." then none
  else
    (splitOnce sourceFileUid ':').bind fun (repoUid, sourcePath) =>
      let resolvedPath := resolveRelativePath (getDirectory sourcePath) specifier
      (fileResolution.lookup (fileKey repoUid resolvedPath)).map fun resolved =>
        (stripSuffix resolved ":FILE").getD resolved

def bindingsOfSource (index : ResolverIndex) (bindings : Option ImportBindingsByFile) (sourceNodeUid : String) :
    Option (String × List ImportBinding) :=
  bindings.bind fun bindings => (index.nodeUidToFileUid.lookup sourceNodeUid).bind fun fileUid =>
    (bindings.lookup fileUid).map (fileUid, ·)

def declaredInImportedFile (index : ResolverIndex) (binding : ImportBinding) (sourceFileUid name : String) :
    Option String :=
  (resolveImportSpecifierToFile binding.specifier sourceFileUid index.fileResolution).bind fun fileUid =>
    (index.nodesByName.lookup name).bind fun candidates =>
      pickUnambiguous (some (candidates.filter (·.fileUid = some fileUid))) .calls false

def resolveNamespaceMember (index : ResolverIndex) (bindings : Option ImportBindingsByFile)
    (targetKey sourceNodeUid : String) : Option String :=
  (bindingsOfSource index bindings sourceNodeUid).bind fun (sourceFileUid, bindings) =>
    (splitOnce targetKey '.').bind fun (start, member) =>
      (bindings.find? fun b => b.identifier = start ∧ b.kind = .namespaceImport).bind fun binding =>
        declaredInImportedFile index binding sourceFileUid (((split member '.').head?).getD member)

def resolveNamedImport (index : ResolverIndex) (bindings : Option ImportBindingsByFile)
    (targetKey sourceNodeUid : String) : Option String :=
  (bindingsOfSource index bindings sourceNodeUid).bind fun (sourceFileUid, bindings) =>
    (bindings.find? (·.identifier = targetKey)).bind fun binding =>
      declaredInImportedFile index binding sourceFileUid (binding.importedName.getD targetKey)

def startIsDefaultImport (index : ResolverIndex) (bindings : Option ImportBindingsByFile)
    (start sourceNodeUid : String) : Bool :=
  (bindingsOfSource index bindings sourceNodeUid).any fun (_, bindings) =>
    bindings.any fun b => b.identifier = start ∧ b.kind = .defaultImport

end Imported

section SelfCall

def pythonSelfCallMethod (targetKey : String) : Option String :=
  (splitOnce targetKey '.').bind fun (receiver, method) =>
    if (receiver = "self" ∨ receiver = "cls") ∧ method ≠ "" ∧ !contains method '.' then some method else none

inductive ReceiverBindingRead
  | parameter
  | unproven
  | absent
  | unreadable
  deriving DecidableEq, Repr

def selfCallReceiverBinding (ext : Externals) (metadataJson : Option String) : ReceiverBindingRead :=
  match ext.parsed metadataJson with
  | none => .unreadable
  | some value =>
    match value.get "receiverBinding" with
    | none => .absent
    | some (.string s) =>
      if s = "parameter" then .parameter else if s = "unproven" then .unproven else .unreadable
    | some _ => .unreadable

def selfCallEnclosingClass (ext : Externals) (metadataJson : Option String) : Option String :=
  (ext.parsed metadataJson).bind fun value =>
    match value.get "selfCall" with
    | some (.bool true) =>
      ((value.get "enclosingClass").bind Json.asStr).bind fun c => if c = "" then none else some c
    | _ => none

inductive SelfCallResolution
  | resolved (uid : String)
  | ambiguousMro (candidates : List String)
  | noHit
  deriving DecidableEq, Repr

variable (index : ResolverIndex)

def uniqueClassInFile (name file : String) : Option ResolverNode :=
  only (((index.nodesByName.lookup name).getD []).filter fun n =>
    n.subtype = some "CLASS" ∧ n.fileUid = some file)

def uniqueClassByName (name : String) : Option ResolverNode :=
  only (((index.nodesByName.lookup name).getD []).filter (·.subtype = some "CLASS"))

def selfCallHits (method : String) (frontier : List ResolverNode) : List (String × String) :=
  frontier.flatMap fun classNode =>
    let qualified := s!"{candidateLabel classNode}.{method}"
    (((index.nodesByQualifiedName.lookup qualified).getD []).filter fun c =>
      c.subtype = some "METHOD" ∧ c.fileUid = classNode.fileUid).map fun c =>
        (c.qualifiedName.getD qualified, c.nodeUid)

def selfCallDescend (frontier : List ResolverNode) (visited : List String) : List ResolverNode × List String :=
  (frontier.flatMap (·.superclasses)).foldl (fun (next, visited) base =>
    match uniqueClassByName index base with
    | some baseNode =>
      if baseNode.nodeUid ∈ visited then (next, visited)
      else (next ++ [baseNode], visited ++ [baseNode.nodeUid])
    | none => (next, visited)) ([], visited)

def selfCallWalk (method : String) : ℕ → List ResolverNode → List String → SelfCallResolution
  | 0, _, _ => .noHit
  | depths + 1, frontier, visited =>
    if frontier.isEmpty then .noHit
    else
      match selfCallHits index method frontier with
      | [] =>
        let (next, visited) := selfCallDescend index frontier visited
        selfCallWalk method depths next visited
      | [(_, uid)] => .resolved uid
      | hits => .ambiguousMro (sortBy compare (hits.map (·.1)))

def depthCap : ℕ := 16

def resolveSelfCall (enclosingClass method callerFile : String) : SelfCallResolution :=
  match uniqueClassInFile index enclosingClass callerFile with
  | none => .noHit
  | some own => selfCallWalk index method (depthCap + 1) [own] [own.nodeUid]

def selfCallHierarchy (enclosingClass method sourceNodeUid : String) (pool : List String) : TargetResolution :=
  let outcome :=
    match index.nodeUidToFileUid.lookup sourceNodeUid with
    | some callerFile => resolveSelfCall index enclosingClass method callerFile
    | none => .noHit
  match outcome with
  | .resolved uid => .resolved uid
  | .ambiguousMro candidates => .selfCallAmbiguousMro candidates
  | .noHit => .selfCallHierarchyMiss pool

def resolvePythonSelfCall (ext : Externals) (bindings : Option ImportBindingsByFile) (edge : ExtractedEdge)
    (method : String) : TargetResolution :=
  let pool := sortedCandidateLabels (nameOnlyPool (index.nodesByName.lookup method))
  let namespaceHit := resolveNamespaceMember index bindings edge.targetKey edge.sourceNodeUid
  match selfCallEnclosingClass ext edge.metadataJson with
  | none =>
    match namespaceHit with
    | some uid => .resolved uid
    | none => .selfCallWithoutClassContext pool
  | some enclosingClass =>
    match selfCallReceiverBinding ext edge.metadataJson with
    | .parameter => selfCallHierarchy index enclosingClass method edge.sourceNodeUid pool
    | .absent =>
      if edge.extractor = pythonExtractorBeforeReceiverBinding then
        match namespaceHit with
        | some uid => .resolved uid
        | none => selfCallHierarchy index enclosingClass method edge.sourceNodeUid pool
      else .selfCallReceiverUnproven pool
    | .unproven | .unreadable => .selfCallReceiverUnproven pool

end SelfCall

section Call

variable (ext : Externals) (index : ResolverIndex) (bindings : Option ImportBindingsByFile) (edge : ExtractedEdge)

def dottedNameFallback : Option TargetResolution :=
  if !contains edge.targetKey '.' then none
  else
    let parts := split edge.targetKey '.'
    let start := parts.head?.getD ""
    let methodName := parts.getLast?.getD ""
    if startIsDefaultImport index bindings start edge.sourceNodeUid then none
    else if startsWith edge.extractor pythonExtractorPrefix then
      match nameOnlyPool (index.nodesByName.lookup methodName) with
      | [] => none
      | [node] =>
        let receiver := ((rsplitOnce edge.targetKey '.').map (·.1)).getD start
        some (.inferredNameOnly node.nodeUid receiver (candidateLabel node))
      | pool => some (.ambiguousNameOnly (sortedCandidateLabels pool))
    else (pickUnambiguous (index.nodesByName.lookup methodName) .calls false).map .resolved

def receiverTypeStage : Option TargetResolution :=
  match callReceiverInfo ext edge.metadataJson with
  | .indirect (.present receiverType) =>
    (index.nodesByName.lookup edge.targetKey).bind fun candidates =>
      (receiverTypeBinding candidates receiverType).map .resolved
  | _ => none

def simpleNameStage : Option TargetResolution :=
  (pickUnambiguous (index.nodesByName.lookup edge.targetKey) .calls false).map .resolved

def enclosingClassStage : Option TargetResolution :=
  let disposition := callReceiverInfo ext edge.metadataJson
  if isCFamilyExtractor edge.extractor ∧ (disposition = .receiverless ∨ disposition = .explicitThis) then
    (index.nodesByName.lookup edge.targetKey).bind fun candidates =>
      let pool := resolutionPool candidates .calls false
      if 1 < pool.length then
        (enclosingClassPreference pool (index.nodesByUid.lookup edge.sourceNodeUid)).map .resolved
      else none
  else none

def namedImportStage : Option TargetResolution :=
  (resolveNamedImport index bindings edge.targetKey edge.sourceNodeUid).map .resolved

def resolveCallTarget : TargetResolution :=
  let selfCall :=
    if startsWith edge.extractor pythonExtractorPrefix then pythonSelfCallMethod edge.targetKey else none
  match selfCall with
  | some method => resolvePythonSelfCall index ext bindings edge method
  | none =>
    ((resolveNamespaceMember index bindings edge.targetKey edge.sourceNodeUid).map .resolved
      |>.or (dottedNameFallback index bindings edge)
      |>.or (receiverTypeStage ext index edge)
      |>.or (simpleNameStage index edge)
      |>.or (enclosingClassStage ext index edge)
      |>.or (namedImportStage index bindings edge)).getD .unresolved

end Call

end RepoGraph.Indexer
