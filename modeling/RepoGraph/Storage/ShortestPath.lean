import Mathlib.Data.String.Basic
import RepoGraph.Lib.LeastRoutes
import RepoGraph.Storage.DeadNodes

/-! The shortest path between two stored nodes: a search level by level over calls and imports that keeps every way
into a node, and a choice among the routes of least length. -/

namespace RepoGraph.Storage

open Lib

structure PathStep where
  nodeId : String
  symbol : String
  file : String
  line : Option ℤ
  edgeType : String
  deriving DecidableEq, Repr

structure PathResult where
  found : Bool
  pathLength : ℤ
  path : List PathStep
  deriving DecidableEq, Repr

structure ShortestPathSearch where
  path : PathResult
  inferredEdgesOnRoute : ℕ
  deriving DecidableEq, Repr

def ShortestPathSearch.notFound : ShortestPathSearch := ⟨⟨false, 0, []⟩, 0⟩

inductive ShortestPathError
  | calls (error : DeadNodesError)
  | unreadableImportResolutions (reader : String) (count : ℕ) (snapshotUid sample : String)
  deriving DecidableEq, Repr

def readableImportResolutions : List String := ["static", "dynamic", "inferred"]

def CallTables.unreadableImports (t : CallTables) (snapshotUid : String) : List LocatedEdge :=
  t.edges.rows.filter fun e =>
    e.snapshotUid = snapshotUid && e.edgeType = "IMPORTS" && e.resolution ∉ readableImportResolutions

def CallTables.rejectUnreadableImportResolutions (t : CallTables) (snapshotUid reader : String) :
    Except ShortestPathError Unit :=
  match t.unreadableImports snapshotUid with
  | [] => .ok ()
  | edges =>
    .error (.unreadableImportResolutions reader edges.length snapshotUid ((edges.map (·.resolution)).min?.getD ""))

def admittedResolutions (admitInferred : Bool) : List String :=
  if admitInferred then ["static", "dynamic", "inferred"] else ["static", "dynamic"]

def isHop (snapshotUid : String) (admitted : List String) (e : LocatedEdge) : Bool :=
  e.snapshotUid = snapshotUid && e.edgeType ∈ ["CALLS", "IMPORTS"] && e.resolution ∈ admitted

/-- How the database answers the query for the edges out of a chunk of nodes. -/
abbrev Scan := String → List String → List String → List LocatedEdge

def Scan.Reads (scan : Scan) (t : CallTables) : Prop :=
  ∀ snapshotUid admitted chunk, (scan snapshotUid admitted chunk).Perm
    (t.edges.rows.filter fun e => isHop snapshotUid admitted e && e.sourceNodeUid ∈ chunk)

section Levels

structure Pred where
  source : String
  edgeType : String
  inferred : Bool
  deriving DecidableEq, Repr

def predOf (e : LocatedEdge) : Pred := ⟨e.sourceNodeUid, e.edgeType, e.resolution = "inferred"⟩

structure Visit where
  dist : HashMap String ℕ
  preds : HashMap String (List Pred)
  next : BTreeSet String

def predsOf (preds : HashMap String (List Pred)) (v : String) : List Pred := preds[v]?.getD []

def Visit.push (s : Visit) (e : LocatedEdge) : Visit :=
  { s with preds := s.preds.insert e.targetNodeUid (predsOf s.preds e.targetNodeUid ++ [predOf e]) }

def visitRow (depth : ℕ) (s : Visit) (e : LocatedEdge) : Visit :=
  match s.dist[e.targetNodeUid]? with
  | some d => if d < depth then s else s.push e
  | none =>
    Visit.push { s with dist := s.dist.insert e.targetNodeUid depth, next := s.next.insert e.targetNodeUid } e

structure Search where
  dist : HashMap String ℕ
  preds : HashMap String (List Pred)
  level : List String
  depth : ℕ

def Search.start (fromUid : String) : Search := ⟨(∅ : HashMap String ℕ).insert fromUid 0, ∅, [fromUid], 0⟩

variable (rows : List String → List LocatedEdge) (chunkSize : ℕ)

def expandLevel (s : Search) : Search :=
  let visited := (chunks chunkSize s.level).foldl
    (fun visit chunk => (rows chunk).foldl (visitRow (s.depth + 1)) visit) ⟨s.dist, s.preds, ∅⟩
  ⟨visited.dist, visited.preds, visited.next.toList, s.depth + 1⟩

def searchLevels (toUid : String) : ℕ → Search → Search
  | 0, s => s
  | remaining + 1, s =>
    if toUid ∉ s.dist ∧ s.level ≠ [] then searchLevels toUid remaining (expandLevel rows chunkSize s) else s

end Levels

section Choice

def stepBack (s : Search) (d : ℕ) (current : BTreeSet String) : BTreeSet String :=
  current.toList.foldl (fun back v =>
    (predsOf s.preds v).foldl (fun back p =>
      if s.dist[p.source]? = some d then back.insert p.source else back) back) ∅

def onRoute (s : Search) : ℕ → BTreeSet String → List (BTreeSet String)
  | 0, current => [current]
  | d + 1, current => onRoute s d (stepBack s d current) ++ [current]

structure Best where
  inferred : ℕ
  keys : List String
  uids : List String
  types : List String
  deriving DecidableEq, Repr

def Best.extend (b : Best) (key uid : String) (p : Pred) : Best :=
  ⟨b.inferred + p.inferred.toNat, b.keys ++ [key], b.uids ++ [uid], b.types ++ [p.edgeType]⟩

def Best.rank (b : Best) : ℕ ×ₗ List String ×ₗ String :=
  toLex (b.inferred, toLex (b.keys, b.types.getLast?.getD ""))

def better (chosen : Option Best) (candidate : Best) : Option Best :=
  match chosen with
  | none => some candidate
  | some c => if candidate.rank < c.rank then some candidate else some c

def chooseBest (best : HashMap String Best) (key v : String) (preds : List Pred) : Option Best :=
  preds.foldl (fun chosen p =>
    match best[p.source]? with
    | none => chosen
    | some start => better chosen (start.extend key v p)) none

variable (keyOf : String → String) (preds : HashMap String (List Pred))

def routeStep (best : HashMap String Best) (v : String) : HashMap String Best :=
  match chooseBest best (keyOf v) v (predsOf preds v) with
  | some chosen => best.insert v chosen
  | none => best

def bestRoutes (levels : List (BTreeSet String)) (best : HashMap String Best) : HashMap String Best :=
  levels.foldl (fun best level => level.toList.foldl (routeStep keyOf preds) best) best

end Choice

namespace CallTables

variable (t : CallTables)

def uidOf (snapshotUid stableKey : String) : Option String :=
  (t.nodes.find? fun n => n.snapshotUid = snapshotUid ∧ n.stableKey = stableKey).map (·.nodeUid)

/-- A node without a row has its uid for a key. -/
def keyOf (nodeUid : String) : String :=
  ((t.nodes.find? (·.nodeUid = nodeUid)).map (·.stableKey)).getD nodeUid

def pathStep (nodeUid edgeType : String) : Option PathStep :=
  (t.nodes.find? (·.nodeUid = nodeUid)).map fun n =>
    { nodeId := nodeUid
      symbol := n.qualifiedName.getD n.name
      file := (t.nodePath n).getD ""
      line := n.lineStart
      edgeType := edgeType }

def answerOf (length : ℕ) (b : Best) : ShortestPathSearch where
  path :=
    { found := true
      pathLength := length
      path := (b.uids.zip b.types).filterMap fun step => t.pathStep step.1 step.2 }
  inferredEdgesOnRoute := b.inferred

def findPathBetween (rows : List String → List LocatedEdge) (chunkSize : ℕ)
    (fromUid toUid : String) (maxDepth : ℤ) :
    ShortestPathSearch :=
  let s := searchLevels rows chunkSize toUid maxDepth.toNat (.start fromUid)
  match s.dist[toUid]? with
  | none => .notFound
  | some foundDepth =>
    let start := (∅ : HashMap String Best).insert fromUid ⟨0, [t.keyOf fromUid], [fromUid], [""]⟩
    let levels := (onRoute s foundDepth ((∅ : BTreeSet String).insert toUid)).drop 1
    match (bestRoutes t.keyOf s.preds levels start)[toUid]? with
    | none => .notFound
    | some b => t.answerOf foundDepth b

def findShortestPathBy (scan : Scan) (chunkSize : ℕ)
    (snapshotUid fromStableKey toStableKey : String) (maxDepth : ℤ)
    (admitInferred : Bool) : Except ShortestPathError ShortestPathSearch := do
  (t.rejectUnreadableCallResolutions snapshotUid "find_shortest_path").mapError .calls
  t.rejectUnreadableImportResolutions snapshotUid "find_shortest_path"
  match t.uidOf snapshotUid fromStableKey, t.uidOf snapshotUid toStableKey with
  | some fromUid, some toUid =>
    .ok (t.findPathBetween (scan snapshotUid (admittedResolutions admitInferred)) chunkSize fromUid toUid maxDepth)
  | _, _ => .ok .notFound

def findShortestPath (scan : Scan) (snapshotUid fromStableKey toStableKey : String) (maxDepth : ℤ)
    (admitInferred : Bool) : Except ShortestPathError ShortestPathSearch :=
  t.findShortestPathBy scan 500 snapshotUid fromStableKey toStableKey maxDepth admitInferred

end CallTables

end RepoGraph.Storage
