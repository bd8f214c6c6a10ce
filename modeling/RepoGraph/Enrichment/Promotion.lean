import RepoGraph.Enrichment.Contracts
import RepoGraph.Indexer.Types
import RepoGraph.Lib.Containers

/-! The promotion filter: an enriched call becomes an edge when it passes eight gates. -/

namespace RepoGraph.Enrichment

open Lib

inductive RejectionClass
  | wrongCategory
  | noCompilerEnrichment
  | externalType
  | noTypeName
  | unionOrIntersection
  | optionalOrElementAccess
  | notSimpleReceiverMethod
  | typeNotInGraph
  | typeNotAClass
  | ambiguousClassMultipleDefinitions
  | methodNotFoundOnClass
  | ambiguousMethodOverloaded
  deriving DecidableEq, Repr

def RejectionClass.reasonCode : RejectionClass → String
  | wrongCategory => "wrong_category"
  | noCompilerEnrichment => "no_compiler_enrichment"
  | externalType => "external_type"
  | noTypeName => "no_type_name"
  | unionOrIntersection => "union_or_intersection"
  | optionalOrElementAccess => "optional_or_element_access"
  | notSimpleReceiverMethod => "not_simple_receiver_method"
  | typeNotInGraph => "type_not_in_graph"
  | typeNotAClass => "type_not_a_class"
  | ambiguousClassMultipleDefinitions => "ambiguous_class_multiple_definitions"
  | methodNotFoundOnClass => "method_not_found_on_class"
  | ambiguousMethodOverloaded => "ambiguous_method_overloaded"

def promoterVersion : String := "compiler-promotion:0.2.0"

def edgeTypeCalls : String := "CALLS"

def resolutionStatic : String := "static"

structure PromotionContext where
  symbolsByName : HashMap String (List SymbolInfo)
  classMethods : HashMap String (HashMap String (List SymbolInfo))

namespace PromotionContext

def empty : PromotionContext := ⟨∅, ∅⟩

def simpleName (symbol : SymbolInfo) : String :=
  (symbol.qualifiedName.bind fun qn => (Text.split qn '.').getLast?).getD symbol.stableKey

def addSymbol (ctx : PromotionContext) (symbol : SymbolInfo) : PromotionContext :=
  { ctx with
    symbolsByName :=
      ctx.symbolsByName.insert (simpleName symbol) ((ctx.symbolsByName[simpleName symbol]?.getD []) ++ [symbol]) }

def addClassMethod (ctx : PromotionContext) (classStableKey methodName : String) (method : SymbolInfo) :
    PromotionContext :=
  let methods := ctx.classMethods[classStableKey]?.getD ∅
  { ctx with
    classMethods :=
      ctx.classMethods.insert classStableKey
        (methods.insert methodName ((methods[methodName]?.getD []) ++ [method])) }

def getSymbols (ctx : PromotionContext) (name : String) : Option (List SymbolInfo) := ctx.symbolsByName[name]?

def getMethods (ctx : PromotionContext) (classStableKey methodName : String) : Option (List SymbolInfo) :=
  ctx.classMethods[classStableKey]?.bind (·[methodName]?)

end PromotionContext

def EnrichmentMetadata.typeName (m : EnrichmentMetadata) : Option String := m.typeDisplayName.or m.receiverType

def isSimpleField (segment : String) : Bool :=
  segment ≠ "" && segment.toList.all fun c => c.isAlphanum || c = '_'

def parseMethodName (targetKey : String) : Option String :=
  match Text.split targetKey '.' with
  | [_, method] => some method
  | [first, field, method] => if (first = "this" ∨ first = "self") ∧ isSimpleField field then some method else none
  | _ => none

def buildLocation (c : PromotionCandidate) : Option EdgeLocation :=
  c.lineStart.map fun lineStart =>
    { lineStart := lineStart
      colStart := c.colStart.getD 0
      lineEnd := c.lineEnd.getD lineStart
      colEnd := c.colEnd.getD 0 }

section Gates

variable (ext : Indexer.Externals)

def promotedEdge (c : PromotionCandidate) (typeName methodName : String) (method : SymbolInfo) : PromotedEdge where
  edgeUid := "promoted:" ++ c.edgeUid
  snapshotUid := c.snapshotUid
  repoUid := c.repoUid
  sourceNodeUid := c.sourceNodeUid
  targetNodeUid := method.nodeUid
  edgeType := edgeTypeCalls
  resolution := resolutionStatic
  extractor := promoterVersion
  location := buildLocation c
  metadataJson :=
    ext.toString (.object
      [("promotedFrom", .string c.edgeUid), ("receiverType", .string typeName),
        ("methodName", .string methodName)])

abbrev Outcome := List ℕ × Except RejectionClass PromotedEdge

def enter (gate : ℕ) (rest : Outcome) : Outcome := (gate :: rest.1, rest.2)

def skip (reason : RejectionClass) : Outcome := ([], .error reason)

/-- The gates in the order of their evaluation; the second one is a placeholder that nothing fails. -/
def evaluate (ctx : PromotionContext) (c : PromotionCandidate) : Outcome :=
  enter 1 <|
  if c.category ∉ [.callsObjMethodNeedsTypeInfo, .callsThisWildcardMethodNeedsTypeInfo] then
    skip .wrongCategory else
  enter 2 <| enter 3 <|
  if c.enrichment.origin ≠ .compiler then skip .noCompilerEnrichment else
  enter 4 <|
  if c.enrichment.isExternalType then skip .externalType else
  match c.enrichment.typeName with
  | none => skip .noTypeName
  | some typeName =>
    enter 7 <|
    if Text.contains typeName '|' || Text.contains typeName '&' then skip .unionOrIntersection else
    enter 8 <|
    if Text.contains c.targetKey '?' || Text.contains c.targetKey '[' then skip .optionalOrElementAccess else
    match parseMethodName c.targetKey with
    | none => skip .notSimpleReceiverMethod
    | some methodName =>
      enter 5 <|
      match ctx.getSymbols typeName with
      | none => skip .typeNotInGraph
      | some symbols =>
        match symbols.filter (·.subtype.isUsableReceiverType) with
        | [] => skip .typeNotAClass
        | _ :: _ :: _ => skip .ambiguousClassMultipleDefinitions
        | [receiver] =>
          enter 6 <|
          match ctx.getMethods receiver.stableKey methodName with
          | none | some [] => skip .methodNotFoundOnClass
          | some (_ :: _ :: _) => skip .ambiguousMethodOverloaded
          | some [method] => ([], .ok (promotedEdge ext c typeName methodName method))

structure PromotionResult where
  promoted : List PromotedEdge
  skippedReasons : HashMap String ℕ
  gateEntered : BTreeMap ℕ ℕ

def PromotionResult.record (r : PromotionResult) (outcome : Outcome) : PromotionResult :=
  let gateEntered := outcome.1.foldl (fun m gate => m.insert gate (m[gate]?.getD 0 + 1)) r.gateEntered
  match outcome.2 with
  | .ok edge => { r with promoted := r.promoted ++ [edge], gateEntered := gateEntered }
  | .error reason =>
    { r with
      skippedReasons := r.skippedReasons.insert reason.reasonCode (r.skippedReasons[reason.reasonCode]?.getD 0 + 1)
      gateEntered := gateEntered }

def promoteEdges (candidates : List PromotionCandidate) (ctx : PromotionContext) : PromotionResult :=
  candidates.foldl (fun r c => r.record (evaluate ext ctx c)) ⟨[], ∅, ∅⟩

def promoted? (ctx : PromotionContext) (c : PromotionCandidate) : Option PromotedEdge :=
  (evaluate ext ctx c).2.toOption

lemma promoteEdges_promoted (candidates : List PromotionCandidate) (ctx : PromotionContext) :
    (promoteEdges ext candidates ctx).promoted = candidates.filterMap (promoted? ext ctx) := by
  have hfold : ∀ (candidates : List PromotionCandidate) (r : PromotionResult),
      (candidates.foldl (fun r c => r.record (evaluate ext ctx c)) r).promoted =
        r.promoted ++ candidates.filterMap (promoted? ext ctx) := by
    intro candidates
    induction candidates with
    | nil =>
      intro r
      simp
    | cons c candidates ih =>
      intro r
      rw [List.foldl_cons, ih, List.filterMap_cons, promoted?, PromotionResult.record]
      cases (evaluate ext ctx c).2 with
      | error reason => simp [Except.toOption]
      | ok edge => simp [Except.toOption]
  exact hfold candidates _

end Gates

end RepoGraph.Enrichment
