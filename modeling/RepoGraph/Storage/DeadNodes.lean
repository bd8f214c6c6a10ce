import RepoGraph.Storage.CallAggregates

/-! The search for dead nodes. Liveness comes from the persisted call degrees when the snapshot has them, and
from the stored call rows otherwise. -/

namespace RepoGraph.Storage

open Lib

inductive DeadNodesError
  | unreadableCallResolutions (op : String) (count : ℕ) (snapshotUid : String) (example_ : Option String)
  | invalidColumnType (column : String)
  deriving DecidableEq, Repr

structure DeadNodeResult where
  stableKey : String
  symbol : String
  kind : String
  subtype : Option String
  file : Option String
  line : Option ℤ
  lineCount : Option ℤ
  isTest : Bool
  deriving DecidableEq, Repr

def retainedTypes : List String :=
  ["IMPORTS", "IMPLEMENTS", "INSTANTIATES", "ROUTES_TO", "REGISTERED_BY", "TESTED_BY", "COVERS"]

def livenessInferences : List String :=
  ["framework_entrypoint", "spring_container_managed", "pytest_test", "pytest_fixture", "linux_system_managed"]

namespace CallTables

variable (t : CallTables)

def unreadableCalls (snapshotUid : String) : List LocatedEdge :=
  t.edges.rows.filter fun e =>
    e.snapshotUid = snapshotUid && e.isCall && e.resolution ∉ ["static", "dynamic", "inferred"]

def rejectUnreadableCallResolutions (snapshotUid op : String) : Except DeadNodesError Unit :=
  match t.unreadableCalls snapshotUid with
  | [] => .ok ()
  | e :: rest =>
    .error (.unreadableCallResolutions op (rest.length + 1) snapshotUid
      (some ((rest.map (·.resolution)).foldl (fun least r => if r < least then r else least) e.resolution)))

def isRetainedTarget (snapshotUid nodeUid : String) : Bool :=
  t.edges.rows.any fun e =>
    e.snapshotUid = snapshotUid && e.targetNodeUid = nodeUid && e.edgeType ∈ retainedTypes

def hasCallFanIn (snapshotUid nodeUid : String) : Bool :=
  match t.symbolCallDegrees[(snapshotUid, nodeUid)]? with
  | some degree => 0 < degree.1
  | none => false

def isRowTarget (snapshotUid nodeUid : String) : Bool :=
  t.edges.rows.any fun e =>
    e.snapshotUid = snapshotUid && e.targetNodeUid = nodeUid &&
      (e.edgeType ∈ retainedTypes || e.isCertainCall)

def isLive (g2Present : Bool) (snapshotUid nodeUid : String) : Bool :=
  if g2Present then t.isRetainedTarget snapshotUid nodeUid || t.hasCallFanIn snapshotUid nodeUid
  else t.isRowTarget snapshotUid nodeUid

def isDeclaredEntrypoint (repoUid snapshotUid stableKey : String) : Bool :=
  t.declarations.any fun d =>
    d.targetStableKey = stableKey && d.repoUid = repoUid && d.kind = "entrypoint" && d.isActive = 1 &&
      (d.snapshotUid = none || d.snapshotUid = some snapshotUid)

def isInferredLive (snapshotUid stableKey : String) : Bool :=
  t.inferences.any fun i =>
    i.targetStableKey = stableKey && i.snapshotUid = snapshotUid && i.kind ∈ livenessInferences

/-- A resource is never dead code; a STATE node without a subtype compares as unknown and is left out too. -/
def isResource (n : LocatedNode) : Bool :=
  n.kind ∈ ["FS_PATH", "DB_RESOURCE", "BLOB"] ||
    (n.kind = "STATE" && (n.subtype = none || n.subtype = some "CACHE"))

def deadRows (g2Present : Bool) (snapshotUid repoUid : String) (kindFilter : Option String) : List LocatedNode :=
  sortBy (compareOn (·.name)) (t.nodes.filter fun n =>
    n.snapshotUid = snapshotUid && !t.isLive g2Present snapshotUid n.nodeUid &&
      (match kindFilter with
        | some kind => n.kind = kind
        | none => true) &&
      !t.isDeclaredEntrypoint repoUid snapshotUid n.stableKey && !t.isInferredLive snapshotUid n.stableKey &&
      !isResource n)

def mapDeadNodeRow (n : LocatedNode) : Except DeadNodesError DeadNodeResult := do
  let file := n.fileUid.bind fun fileUid => t.files.find? (·.fileUid = fileUid)
  let isTest : ℤ ← match (file.map (·.isTest)).getD .null with
    | .null => .ok 0
    | .integer value => .ok value
    | _ => .error (.invalidColumnType "is_test")
  .ok
    { stableKey := n.stableKey
      symbol := n.qualifiedName.getD n.name
      kind := n.kind
      subtype := n.subtype
      file := file.map (·.path)
      line := n.lineStart
      lineCount := n.lineEnd.bind fun lineEnd => n.lineStart.map fun lineStart => lineEnd - lineStart + 1
      isTest := isTest ≠ 0 }

def findDeadNodesBy (g2Present : Bool) (snapshotUid repoUid : String) (kindFilter : Option String) :
    Except DeadNodesError (List DeadNodeResult) := do
  if g2Present then .ok () else t.rejectUnreadableCallResolutions snapshotUid "find_dead_nodes"
  (t.deadRows g2Present snapshotUid repoUid kindFilter).mapM t.mapDeadNodeRow

def findDeadNodes (snapshotUid repoUid : String) (kindFilter : Option String) :
    Except DeadNodesError (List DeadNodeResult) :=
  t.findDeadNodesBy (t.familyMarker snapshotUid .symbolCallDegrees).isSome snapshotUid repoUid kindFilter

end CallTables

end RepoGraph.Storage
