import RepoGraph.Enrichment.Metadata
import RepoGraph.Enrichment.Promotion
import RepoGraph.Storage.CallAggregates

/-! The store behind the enrichment of a snapshot: its unresolved edges, what is persisted on them, and what a
promotion loads. -/

namespace RepoGraph.Storage

open Lib Enrichment Indexer

structure UnresolvedEdgeRow where
  edgeUid : String
  snapshotUid : String
  repoUid : String
  sourceNodeUid : String
  targetKey : String
  lineStart : Option ℕ
  colStart : Option ℕ
  lineEnd : Option ℕ
  colEnd : Option ℕ
  category : String
  metadataJson : Option Json

structure UnresolvedTable where
  rows : List UnresolvedEdgeRow
  keys : (rows.map (·.edgeUid)).Nodup

def UnresolvedEdgeRow.enrich (row : UnresolvedEdgeRow) (m : EnrichmentMetadata) : UnresolvedEdgeRow :=
  { row with metadataJson := some (mergedMetadata row.metadataJson m) }

def UnresolvedTable.persistEnrichment (t : UnresolvedTable) (update : String × EnrichmentMetadata) :
    UnresolvedTable where
  rows := t.rows.map fun row => if row.edgeUid = update.1 then row.enrich update.2 else row
  keys := by
    have hkeys : (t.rows.map fun row => if row.edgeUid = update.1 then row.enrich update.2 else row).map
        (·.edgeUid) = t.rows.map (·.edgeUid) := by
      rw [List.map_map]
      refine List.map_congr_left fun row _ => ?_
      rw [Function.comp_apply]
      split <;> rfl
    rw [hkeys]
    exact t.keys

structure EnrichmentTables where
  calls : CallTables
  unresolved : UnresolvedTable

structure EligibilityQuery where
  snapshotUid : String
  categories : List UnresolvedCategory
  languages : List EnrichmentLanguage
  limit : Option ℕ
  excludeAlreadyEnriched : Bool

namespace EnrichmentTables

variable (t : EnrichmentTables)

def getFilePathForNode (nodeUid : String) : Option String :=
  (t.calls.nodes.find? (·.nodeUid = nodeUid)).bind t.calls.nodePath

def queryEligibleEdges (query : EligibilityQuery) : List EligibleEdge :=
  let selected := sortBy (compareOn (·.edgeUid)) (t.unresolved.rows.filter fun row =>
    row.snapshotUid = query.snapshotUid &&
      (query.categories = [] || row.category ∈ query.categories.map (·.asStr)) &&
      (!query.excludeAlreadyEnriched || (jsonExtract row.metadataJson "origin").isNone))
  let limited := match query.limit with
    | some n => selected.take n
    | none => selected
  limited.filterMap fun row => do
    let category ← UnresolvedCategory.parse row.category
    let filePath := t.getFilePathForNode row.sourceNodeUid
    let language ← filePath.bind EnrichmentLanguage.fromPath
    if query.languages ≠ [] ∧ language ∉ query.languages then none
    else
      some
        { edgeUid := row.edgeUid
          snapshotUid := row.snapshotUid
          repoUid := row.repoUid
          sourceNodeUid := row.sourceNodeUid
          targetKey := row.targetKey
          sourceFilePath := filePath.getD ""
          lineStart := row.lineStart.getD 0
          colStart := row.colStart.getD 0
          category := category
          language := language }

def persistEnrichments (updates : List (String × EnrichmentMetadata)) : EnrichmentTables :=
  { t with unresolved := updates.foldl UnresolvedTable.persistEnrichment t.unresolved }

def candidateOf (row : UnresolvedEdgeRow) (category : UnresolvedCategory) (m : EnrichmentMetadata) :
    PromotionCandidate where
  edgeUid := row.edgeUid
  snapshotUid := row.snapshotUid
  repoUid := row.repoUid
  sourceNodeUid := row.sourceNodeUid
  targetKey := row.targetKey
  lineStart := row.lineStart
  colStart := row.colStart
  lineEnd := row.lineEnd
  colEnd := row.colEnd
  category := category
  enrichment := m

def loadCandidate (row : UnresolvedEdgeRow) : Option PromotionCandidate :=
  if (jsonExtract row.metadataJson "receiverType").isSome ∧
      (jsonExtract row.metadataJson "origin").bind Json.asStr = some "compiler" then do
    let category ← UnresolvedCategory.parse row.category
    let enrichment ← row.metadataJson.bind metadataFromDbJson
    some (candidateOf row category enrichment)
  else none

def unresolvedOf (snapshotUid : String) : List UnresolvedEdgeRow :=
  sortBy (compareOn (·.edgeUid)) (t.unresolved.rows.filter (·.snapshotUid = snapshotUid))

def loadPromotionCandidates (snapshotUid : String) (limit : Option ℕ) : List PromotionCandidate :=
  -- The limit is taken over the selected rows, and rows that do not decode drop out after it.
  match limit with
  | none => (t.unresolvedOf snapshotUid).filterMap loadCandidate
  | some n => ((t.unresolvedOf snapshotUid).filter fun row =>
      (jsonExtract row.metadataJson "receiverType").isSome &&
        (jsonExtract row.metadataJson "origin").bind Json.asStr = some "compiler").take n
          |>.filterMap loadCandidate

def symbolInfo (n : LocatedNode) (unlabelled : SymbolSubtype) : SymbolInfo where
  nodeUid := n.nodeUid
  stableKey := n.stableKey
  qualifiedName := n.qualifiedName
  subtype := (n.subtype.map SymbolSubtype.parse).getD unlabelled

def loadSymbolsByNames (snapshotUid : String) (typeNames : List String) : List SymbolInfo :=
  (sortBy (compareOn (·.nodeUid)) (t.calls.nodes.filter fun n =>
    n.snapshotUid = snapshotUid && n.kind = "SYMBOL" &&
      (n.name ∈ typeNames || n.qualifiedName.any (· ∈ typeNames)))).map (symbolInfo · .other)

def loadClassMethods (snapshotUid classStableKey : String) : List (String × SymbolInfo) :=
  match t.calls.nodes.find? fun n => n.snapshotUid = snapshotUid ∧ n.stableKey = classStableKey with
  | none => []
  | some receiver =>
    (sortBy (compareOn (·.name)) (t.calls.nodes.filter fun n =>
      n.snapshotUid = snapshotUid && n.kind = "SYMBOL" &&
        n.subtype.any (· ∈ ["METHOD", "GETTER", "SETTER", "FUNCTION"]) &&
        (n.parentNodeUid = some receiver.nodeUid ||
          (receiver.name ≠ "" && n.qualifiedName = some (receiver.name ++ "." ++ n.name))))).map
      fun n => (n.name, symbolInfo n .method)

end EnrichmentTables

end RepoGraph.Storage
