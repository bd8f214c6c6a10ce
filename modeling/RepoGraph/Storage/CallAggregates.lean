import RepoGraph.Enrichment.Contracts
import RepoGraph.Lib.Folds
import RepoGraph.Lib.Tally
import RepoGraph.Storage.DirectoryModules

/-! The call aggregates of a snapshot, the promotion that moves them together with the edges, and the search
for dead nodes that reads them. -/

namespace RepoGraph.Storage

open Lib Enrichment

structure LocatedNode extends NodeRow where
  stableKey : String
  subtype : Option String
  parentNodeUid : Option String
  lineStart : Option ℤ
  lineEnd : Option ℤ
  deriving DecidableEq, Repr

structure LocatedEdge extends EdgeRow where
  repoUid : String
  extractor : String
  location : Option EdgeLocation
  deriving DecidableEq, Repr

namespace LocatedEdge

def endpoints (e : LocatedEdge) : String × String := (e.sourceNodeUid, e.targetNodeUid)

def isCall (e : LocatedEdge) : Bool := e.edgeType = "CALLS"

def isCertainCall (e : LocatedEdge) : Bool := e.isCall && (e.resolution = "static" || e.resolution = "dynamic")

end LocatedEdge

def callEndpoints (rows : List LocatedEdge) : List (String × String) :=
  (rows.filter (·.isCall)).map (·.endpoints)

structure EdgeTable where
  rows : List LocatedEdge
  keys : (rows.map (·.edgeUid)).Nodup

namespace EdgeTable

def deleteUids (t : EdgeTable) (uids : List String) : EdgeTable where
  rows := t.rows.filter fun e => e.edgeUid ∉ uids
  keys := t.keys.sublist (List.filter_sublist.map _)

def insert (t : EdgeTable) (e : LocatedEdge) : Option EdgeTable :=
  if h : e.edgeUid ∈ t.rows.map (·.edgeUid) then none
  else some
    { rows := t.rows ++ [e]
      keys := by
        rw [List.map_append, List.map_singleton]
        exact t.keys.append (List.nodup_singleton _) (by simpa using h) }

end EdgeTable

inductive CallAggregateFamily
  | symbolCallDegrees
  | resolvedCallFilePairs
  deriving DecidableEq, Repr

structure SnapshotAggregates where
  resolvedCallCount : Option ℤ
  symbolCallDegreeProvenance : Option String
  callFilePairProvenance : Option String
  deriving DecidableEq, Repr

def SnapshotAggregates.markerColumn (row : SnapshotAggregates) : CallAggregateFamily → Option String
  | .symbolCallDegrees => row.symbolCallDegreeProvenance
  | .resolvedCallFilePairs => row.callFilePairProvenance

structure DeclarationRow where
  repoUid : String
  snapshotUid : Option String
  targetStableKey : String
  kind : String
  isActive : ℤ
  deriving DecidableEq, Repr

structure InferenceRow where
  snapshotUid : String
  targetStableKey : String
  kind : String
  deriving DecidableEq, Repr

/-- The tables that a promotion and the search for dead nodes read or write; an aggregate is kept under the
columns of its primary key. -/
structure CallTables where
  repos : List String
  snapshots : BTreeMap String SnapshotAggregates
  files : List FileRow
  nodes : List LocatedNode
  edges : EdgeTable
  symbolCallDegrees : BTreeMap (String × String) (ℤ × ℤ)
  resolvedCallFilePairs : BTreeMap (String × String × String) ℤ
  declarations : List DeclarationRow
  inferences : List InferenceRow
  nodeKeys : (nodes.map (·.nodeUid)).Nodup

namespace CallTables

inductive Statement
  | begin
  | marker (family : CallAggregateFamily)
  | selectEndpoints (chunk : ℕ)
  | deleteChunk (chunk : ℕ)
  | prepareInsert
  | insert (index : ℕ)
  | adjustCount
  | adjust (family : CallAggregateFamily) (row : ℕ)
  | selectPaths (chunk : ℕ)
  | commit
  deriving DecidableEq, Repr

inductive PromotionError
  | sqlite (statement : Statement)
  | checkFailed (family : CallAggregateFamily)
  deriving DecidableEq, Repr

section Reads

variable (t : CallTables)

/-- A presence marker; an empty label counts as none. -/
def familyMarker (snapshotUid : String) (family : CallAggregateFamily) : Option String :=
  (t.snapshots[snapshotUid]?.bind (·.markerColumn family)).filter (· ≠ "")

def filePath (fileUid : String) : Option String := (t.files.find? (·.fileUid = fileUid)).map (·.path)

def nodePath (n : LocatedNode) : Option String := n.fileUid.bind t.filePath

end Reads

section Promotion

variable (faults : Statement → Bool)

def exec (statement : Statement) : Except PromotionError Unit :=
  if faults statement then .error (.sqlite statement) else .ok ()

def deletePromoted : ℕ → List (List String) → EdgeTable →
    Except PromotionError (EdgeTable × List (String × String))
  | _, [], edges => .ok (edges, [])
  | i, chunk :: rest, edges => do
    exec faults (.selectEndpoints i)
    let chunkEndpoints := callEndpoints (edges.rows.filter fun e => e.edgeUid ∈ chunk)
    exec faults (.deleteChunk i)
    let (edges, endpoints) ← deletePromoted (i + 1) rest (edges.deleteUids chunk)
    .ok (edges, chunkEndpoints ++ endpoints)

def rowOfPromoted (e : PromotedEdge) : LocatedEdge where
  edgeUid := e.edgeUid
  snapshotUid := e.snapshotUid
  repoUid := e.repoUid
  sourceNodeUid := e.sourceNodeUid
  targetNodeUid := e.targetNodeUid
  edgeType := e.edgeType
  resolution := e.resolution
  extractor := e.extractor
  location := e.location
  metadataJson := some e.metadataJson
  isTypeOnly := none

def foreignKeysHold (t : CallTables) (e : LocatedEdge) : Bool :=
  e.snapshotUid ∈ t.snapshots && t.repos.contains e.repoUid &&
    (t.nodes.any (·.nodeUid = e.sourceNodeUid) && t.nodes.any (·.nodeUid = e.targetNodeUid))

def insertEdge (t : CallTables) (edges : EdgeTable) (e : LocatedEdge) : Option EdgeTable :=
  if t.foreignKeysHold e then edges.insert e else none

structure Landed where
  edges : EdgeTable
  inserted : ℕ
  insertedCallEndpoints : List (String × String)

/-- The edges one by one; one that does not go in is left out. -/
def insertPromoted (t : CallTables) : ℕ → List PromotedEdge → Landed → Landed
  | _, [], landed => landed
  | i, e :: rest, landed =>
    let row := rowOfPromoted e
    match if faults (.insert i) then none else t.insertEdge landed.edges row with
    | none => insertPromoted t (i + 1) rest landed
    | some edges =>
      insertPromoted t (i + 1) rest
        { edges := edges
          inserted := landed.inserted + 1
          insertedCallEndpoints :=
            if row.isCall then landed.insertedCallEndpoints ++ [row.endpoints] else landed.insertedCallEndpoints }

def adjustResolvedCallAggregate (snapshots : BTreeMap String SnapshotAggregates)
    (snapshotUid : String) (delta : ℤ) :
    BTreeMap String SnapshotAggregates :=
  match snapshots[snapshotUid]? with
  | none => snapshots
  | some row => snapshots.insert snapshotUid
    { row with resolvedCallCount := row.resolvedCallCount.map (· + delta) }

def adjustFamily {κ ν : Type} [Ord κ] [Std.TransOrd κ] [DecidableEq ν] [AddCommGroup ν]
    (family : CallAggregateFamily)
    (accepts : ν → Bool) (deltas : List (κ × ν)) (t : BTreeMap κ ν) : Except PromotionError (BTreeMap κ ν) :=
  Tally.adjust (fun row => exec faults (.adjust family row)) (.checkFailed family) accepts 0 deltas t

def degreeChanges (inserted deleted : List (String × String)) : List (String × ℤ × ℤ) :=
  let changes (sign : ℤ) (endpoints : List (String × String)) : List (String × ℤ × ℤ) :=
    endpoints.flatMap fun (source, target) => [(target, sign, 0), (source, 0, sign)]
  changes 1 inserted ++ changes (-1) deleted

def adjustSymbolCallDegrees (snapshotUid : String) (deltas : List (String × ℤ × ℤ)) :=
  adjustFamily faults .symbolCallDegrees (fun degree : ℤ × ℤ => 0 ≤ degree.1 && 0 ≤ degree.2)
    (deltas.map fun (nodeUid, delta) => ((snapshotUid, nodeUid), delta))

def pathByUid (t : CallTables) : ℕ → List (List String) → HashMap String String →
    Except PromotionError (HashMap String String)
  | _, [], paths => .ok paths
  | i, chunk :: rest, paths => do
    exec faults (.selectPaths i)
    let rows := (t.nodes.filter fun n => n.nodeUid ∈ chunk).filterMap fun n => (t.nodePath n).map (n.nodeUid, ·)
    pathByUid t (i + 1) rest (paths.insertMany rows)

def filePair (path : String → Option String) : String × String → Option (String × String)
  | (source, target) => do
    let sp ← path source
    let tp ← path target
    if sp ≠ tp then some (sp, tp) else none

def pairChanges (paths : HashMap String String) (endpoints : List (String × String)) (sign : ℤ) :
    List ((String × String) × ℤ) :=
  (endpoints.filterMap (filePair fun uid => paths[uid]?)).map fun pair => (pair, sign)

def adjustResolvedCallFilePairs (snapshotUid : String) (deltas : List ((String × String) × ℤ)) :=
  adjustFamily faults .resolvedCallFilePairs (fun count : ℤ => 0 ≤ count)
    (deltas.map fun (pair, delta) => ((snapshotUid, pair), delta))

def adjustDegrees (t : CallTables) (snapshotUid : String) (inserted deleted : List (String × String)) :
    Except PromotionError (BTreeMap (String × String) (ℤ × ℤ)) :=
  adjustSymbolCallDegrees faults snapshotUid (Tally.tally (degreeChanges inserted deleted)).toList
    t.symbolCallDegrees

def adjustPairs (t : CallTables) (snapshotUid : String) (inserted deleted : List (String × String)) :
    Except PromotionError (BTreeMap (String × String × String) ℤ) := do
  let endpointUids : BTreeSet String := Std.ExtTreeSet.ofList ((inserted ++ deleted).flatMap fun p => [p.1, p.2])
  let paths ← pathByUid faults t 0 (chunks 100 endpointUids.toList) ∅
  let changes := pairChanges paths inserted 1 ++ pairChanges paths deleted (-1)
  adjustResolvedCallFilePairs faults snapshotUid (Tally.tally changes).toList t.resolvedCallFilePairs

/-- A family without its marker is left alone, never seeded. -/
def whenPresent {β : Type} (present : Bool) (adjusted : Except PromotionError β) (stored : β) :
    Except PromotionError β :=
  if present then adjusted else .ok stored

def applyPromotion (t : CallTables) (snapshotUid : String) (promoted : List PromotedEdge) :
    Except PromotionError (ℕ × CallTables) :=
  if promoted = [] then .ok (0, t)
  else do
    exec faults .begin
    exec faults (.marker .symbolCallDegrees)
    exec faults (.marker .resolvedCallFilePairs)
    let g2Present := (t.familyMarker snapshotUid .symbolCallDegrees).isSome
    let g3Present := (t.familyMarker snapshotUid .resolvedCallFilePairs).isSome
    let (edges, deleted) ← deletePromoted faults 0 (chunks 100 (promoted.map (·.edgeUid))) t.edges
    exec faults .prepareInsert
    let landed := insertPromoted faults t 0 promoted ⟨edges, 0, []⟩
    let inserted := landed.insertedCallEndpoints
    exec faults .adjustCount
    let snapshots := adjustResolvedCallAggregate t.snapshots snapshotUid (inserted.length - deleted.length)
    let degrees ← whenPresent g2Present (adjustDegrees faults t snapshotUid inserted deleted) t.symbolCallDegrees
    let pairs ← whenPresent g3Present (adjustPairs faults t snapshotUid inserted deleted) t.resolvedCallFilePairs
    exec faults .commit
    .ok (landed.inserted,
      { t with
        edges := landed.edges
        snapshots := snapshots
        symbolCallDegrees := degrees
        resolvedCallFilePairs := pairs })

end Promotion

end CallTables

end RepoGraph.Storage
