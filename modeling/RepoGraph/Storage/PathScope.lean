import Mathlib.Data.List.DropRight
import RepoGraph.Lib.Like
import RepoGraph.Lib.Select
import RepoGraph.Storage.DeadNodes

/-! The reads of a snapshot that are limited to a directory: imports from one directory into another, dead
symbols, and the files of the map. -/

namespace RepoGraph.Storage

open Lib Classification

structure SourceFileRow extends FileRow where
  language : Option String
  isGenerated : SqlValue
  deriving DecidableEq, Repr

structure FileVersionRow where
  snapshotUid : String
  fileUid : String
  parseStatus : String
  extractor : Option String
  deriving DecidableEq, Repr

/-- The tables with the columns that the map reads; a stable key stands for one node of a snapshot. -/
structure ScopeTables extends CallTables where
  sources : List SourceFileRow
  fileVersions : List FileVersionRow
  filesOf : files = sources.map (·.toFileRow)
  snapshotKey : ∀ m ∈ nodes, ∀ n ∈ nodes, m.snapshotUid = n.snapshotUid → m.stableKey = n.stableKey → m = n

structure ImportRow where
  sourceFile : String
  targetFile : String
  line : Option ℤ
  resolution : String
  deriving DecidableEq, Repr

structure ImportEdgeResult where
  sourceFile : String
  targetFile : String
  line : Option ℤ
  importClass : ImportClass
  deriving DecidableEq, Repr

structure AgentDeadNode where
  stableKey : String
  symbol : String
  kind : String
  file : Option String
  lineCount : Option ℕ
  isTest : Bool
  deriving DecidableEq, Repr

/-- A row of the wider search less its subtype and line; a negative number of lines counts as none. -/
def AgentDeadNode.ofResult (r : DeadNodeResult) : AgentDeadNode where
  stableKey := r.stableKey
  symbol := r.symbol
  kind := r.kind
  file := r.file
  lineCount := r.lineCount.bind Int.toNat?
  isTest := r.isTest

structure MapFileRow where
  path : String
  language : Option String
  parseStatus : String
  extractor : Option String
  isTest : Bool
  isGenerated : Bool
  symbolCount : ℕ
  deriving DecidableEq, Repr

def trimEndSlashes (s : String) : List Char := s.toList.rdropWhile (· = '/')

def trimSlashes (s : String) : List Char := (s.toList.dropWhile (· = '/')).rdropWhile (· = '/')

namespace ScopeTables

variable (t : ScopeTables)

section Imports

def importRow (e : LocatedEdge) : Option ImportRow := do
  let source ← t.nodes.find? (·.nodeUid = e.sourceNodeUid)
  let target ← t.nodes.find? (·.nodeUid = e.targetNodeUid)
  let sourceFile ← t.nodePath source
  let targetFile ← t.nodePath target
  some { sourceFile, targetFile, line := e.location.map fun l => l.lineStart, resolution := e.resolution }

def importRows (snapshotUid : String) : List ImportRow :=
  (t.edges.rows.filter fun e => e.snapshotUid = snapshotUid ∧ e.edgeType = "IMPORTS").filterMap t.importRow

/-- The pattern of a directory; its own wildcards are left as they are. -/
def beneathPattern (dir : String) : List Char := trimEndSlashes dir ++ ['/', '%', '%']

def byFileAndLine : ImportRow → ImportRow → Ordering := compareLex (compareOn (·.sourceFile)) (compareOn (·.line))

def readImportRow (snapshotUid : String) (row : ImportRow) : Except StorageError ImportEdgeResult :=
  match ImportClass.fromResolution row.resolution with
  | .ok importClass => .ok {
    sourceFile := row.sourceFile, targetFile := row.targetFile, line := row.line, importClass }
  | .error e => .error (.unreadableImportRow "find_imports_between_paths" snapshotUid e)

def findImportsBetweenPaths (snapshotUid source target : String) : Except StorageError (List ImportEdgeResult) :=
  select byFileAndLine
    (fun row => Like.like none (beneathPattern source) row.sourceFile.toList &&
      Like.like none (beneathPattern target) row.targetFile.toList)
    (readImportRow snapshotUid) (t.importRows snapshotUid)

end Imports

section Dead

def pathLikeOrEqual (pathPrefix : String) : Option String → Bool
  | some path => Like.like none (pathPrefix.toList ++ ['/', '%']) path.toList || path = pathPrefix
  | none => false

def isCandidate (snapshotUid repoUid : String) (n : LocatedNode) : Bool :=
  n.snapshotUid = snapshotUid && n.kind = "SYMBOL" && !t.isDeclaredEntrypoint repoUid snapshotUid n.stableKey &&
    !t.isInferredLive snapshotUid n.stableKey

def mapDeadNodeRowAgent (n : LocatedNode) : Except DeadNodesError AgentDeadNode :=
  (t.mapDeadNodeRow n).map AgentDeadNode.ofResult

/-- Liveness comes from the stored rows here, whatever aggregates the snapshot has. -/
def findDeadNodesInPath (snapshotUid repoUid pathPrefix : String) :
    Except DeadNodesError (List AgentDeadNode) := do
  t.rejectUnreadableCallResolutions snapshotUid "find_dead_nodes_in_path"
  select (compareOn (·.name))
    (fun n => t.isCandidate snapshotUid repoUid n && pathLikeOrEqual pathPrefix (t.nodePath n) &&
      !t.isRowTarget snapshotUid n.nodeUid)
    t.mapDeadNodeRowAgent t.nodes

end Dead

section Map

/-- The pattern of a subtree and its exact path. The whole repository has a path that no file has. -/
def mapPathScope (pathPrefix : String) : List Char × List Char :=
  let trimmed := trimSlashes pathPrefix
  if trimmed = [] ∨ trimmed = ['.'] then (['%'], ['\x00'])
  else (Like.replaceChar '_' ['\\', '_'] (Like.replaceChar '%' ['\\', '%']
    (Like.replaceChar '\\' ['\\', '\\'] trimmed)) ++ ['/', '%'], trimmed)

def inMapScope (scope : List Char × List Char) (path : String) : Bool :=
  Like.like (some '\\') scope.1 path.toList || path.toList = scope.2

def snapshotFiles (snapshotUid : String) : List (SourceFileRow × FileVersionRow) :=
  t.sources.flatMap fun f =>
    (t.fileVersions.filter fun v => v.fileUid = f.fileUid ∧ v.snapshotUid = snapshotUid).map fun v => (f, v)

def symbolCount (snapshotUid fileUid : String) : ℕ :=
  t.nodes.countP fun n => n.fileUid = some fileUid && n.kind = "SYMBOL" && n.snapshotUid = snapshotUid

def integerColumn (column : String) : SqlValue → Except StorageError ℤ
  | .integer value => .ok value
  | _ => .error (.invalidColumnType column)

def readMapFile (snapshotUid : String) (row : SourceFileRow × FileVersionRow) :
    Except StorageError MapFileRow := do
  let (f, v) := row
  let isTest ← integerColumn "is_test" f.isTest
  let isGenerated ← integerColumn "is_generated" f.isGenerated
  pure { path := f.path, language := f.language, parseStatus := v.parseStatus, extractor := v.extractor,
         isTest := isTest = 1, isGenerated := isGenerated = 1, symbolCount := t.symbolCount snapshotUid f.fileUid }

def mapFilesInPath (snapshotUid pathPrefix : String) : Except StorageError (List MapFileRow) :=
  select (compareOn (·.1.path)) (fun row => inMapScope (mapPathScope pathPrefix) row.1.path)
    (t.readMapFile snapshotUid) (t.snapshotFiles snapshotUid)

end Map

end ScopeTables

end RepoGraph.Storage
