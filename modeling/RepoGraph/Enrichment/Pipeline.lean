import RepoGraph.Storage.EnrichmentStore

/-! A pass of the enrichment: the eligible edges, what the resolvers find out about them, and the promotion of
what is persisted. -/

namespace RepoGraph.Enrichment

open Lib Storage

structure EnrichmentConfig where
  limit : ℕ
  promote : Bool
  languages : List EnrichmentLanguage
  force : Bool
  dryRun : Bool
  deriving DecidableEq, Repr

structure PromotionReport where
  candidates : ℕ
  promoted : ℕ
  skippedReasons : HashMap String ℕ
  gateEntered : BTreeMap ℕ ℕ
  persistedCount : Option ℕ

def PromotionReport.default : PromotionReport := ⟨0, 0, ∅, ∅, none⟩

def PromotionResult.toReport (r : PromotionResult) (candidateCount : ℕ) (persistedCount : Option ℕ) :
    PromotionReport where
  candidates := candidateCount
  promoted := r.promoted.length
  skippedReasons := r.skippedReasons
  gateEntered := r.gateEntered
  persistedCount := persistedCount

variable (ext : Indexer.Externals)

def promotionContext (t : EnrichmentTables) (snapshotUid : String) (typeNames : List String) : PromotionContext :=
  (t.loadSymbolsByNames snapshotUid typeNames).foldl (fun ctx symbol =>
    let ctx := ctx.addSymbol symbol
    if symbol.subtype.isUsableReceiverType then
      (t.loadClassMethods snapshotUid symbol.stableKey).foldl (fun ctx method =>
        ctx.addClassMethod symbol.stableKey method.1 method.2) ctx
    else ctx) .empty

def typeNames (candidates : List PromotionCandidate) : List String := candidates.filterMap (·.enrichment.typeName)

def runPromotion (faults : CallTables.Statement → Bool) (t : EnrichmentTables) (snapshotUid : String) :
    Except CallTables.PromotionError (PromotionReport × EnrichmentTables) :=
  let candidates := t.loadPromotionCandidates snapshotUid none
  if candidates = [] then .ok (.default, t)
  else do
    let ctx := promotionContext t snapshotUid (typeNames candidates)
    let result := promoteEdges ext candidates ctx
    let (persistedCount, calls) ← t.calls.applyPromotion faults snapshotUid result.promoted
    .ok (result.toReport candidates.length (some persistedCount), { t with calls := calls })

/-- The resolvers of a pass, each as the results it gives for a batch. -/
abbrev ResolverRegistry := EnrichmentLanguage → Option (List EligibleEdge → List ReceiverTypeResult)

def noResolver (edges : List EligibleEdge) : List ReceiverTypeResult :=
  edges.map fun edge => .failed edge.edgeUid "no resolver available"

def eligibleEdges (t : EnrichmentTables) (snapshotUid : String) (config : EnrichmentConfig) : List EligibleEdge :=
  t.queryEligibleEdges
    { snapshotUid := snapshotUid
      categories := [.callsObjMethodNeedsTypeInfo, .callsThisWildcardMethodNeedsTypeInfo]
      languages := config.languages
      limit := some config.limit
      excludeAlreadyEnriched := !config.force }

def groupByLanguage (order : List EnrichmentLanguage) (edges : List EligibleEdge) :
    List (EnrichmentLanguage × List EligibleEdge) :=
  order.filterMap fun lang =>
    match edges.filter (·.language = lang) with
    | [] => none
    | group => some (lang, group)

def resolveBatch (registry : ResolverRegistry) (lang : EnrichmentLanguage) (edges : List EligibleEdge) :
    List ReceiverTypeResult :=
  match registry lang with
  | some resolve => resolve edges
  | none => noResolver edges

def batchUpdates (registry : ResolverRegistry) (group : EnrichmentLanguage × List EligibleEdge) :
    List (String × EnrichmentMetadata) :=
  (resolveBatch registry group.1 group.2).map fun r => (r.edgeUid, .ofResult r)

structure Pass where
  config : EnrichmentConfig
  registry : ResolverRegistry
  order : List EnrichmentLanguage
  faults : CallTables.Statement → Bool

/-- A promotion that fails leaves the tables as the results left them. -/
def endPass (t : EnrichmentTables) :
    Except CallTables.PromotionError (PromotionReport × EnrichmentTables) →
      Except CallTables.PromotionError (Option PromotionReport) × EnrichmentTables
  | .ok (report, promoted) => (.ok (some report), promoted)
  | .error e => (.error e, t)

def runPass (snapshotUid : String) (t : EnrichmentTables) (p : Pass) :
    Except CallTables.PromotionError (Option PromotionReport) × EnrichmentTables :=
  let edges := eligibleEdges t snapshotUid p.config
  if edges = [] then (.ok none, t)
  else if p.config.dryRun then (.ok none, t)
  else
    let t := (groupByLanguage p.order edges).foldl (fun t group =>
      t.persistEnrichments (batchUpdates p.registry group)) t
    if p.config.promote then endPass t (runPromotion ext p.faults t snapshotUid) else (.ok none, t)

end RepoGraph.Enrichment
