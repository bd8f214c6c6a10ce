import RepoGraph.Lib.Containers

/-! The ingested partition IR: nodes with a canonical key, edges between keys, and import
observations. -/

namespace RepoGraph.Ir

open Lib

structure CanonicalKey where
  fromExisting ::
  asStr : String
  deriving DecidableEq, Repr

inductive IdentitySource
  | astAdopted
  | scipSynthesizedFallback
  | astFileScope
  deriving DecidableEq, Repr

inductive EdgeType
  | calls
  | references
  | imports
  deriving DecidableEq, Repr

inductive EdgeBasis
  | syntaxConfirmedCall
  | derivedReference
  | fileScopeReference
  | astImport
  | astImportFileInventoryResolved
  | astImportTsconfigPathResolved
  | astDynamicImportResolved
  deriving DecidableEq, Repr

inductive ImportResolution
  | staticResolved
  | staticUnresolved
  | packageExternal
  | dynamicUnsupported
  deriving DecidableEq, Repr

structure ImportEdgeMeta where
  rawSpecifier : String
  resolvedPath : String
  resolution : ImportResolution
  deriving DecidableEq, Repr

structure ImportObservation where
  sourceFile : String
  rawSpecifier : String
  resolution : ImportResolution
  isReExport : Bool
  isTypeOnly : Bool
  isSideEffect : Bool
  externalNodeModules : Bool
  deriving DecidableEq, Repr

inductive PartitionKind
  | tsPackage
  deriving DecidableEq, Repr

structure PartitionId where
  new ::
  asStr : String
  deriving DecidableEq, Repr

structure TsconfigAliasConfig where
  baseUrl : String
  paths : BTreeMap String (List String)
  partitionPrefix : String

structure Partition where
  id : PartitionId
  kind : PartitionKind
  root : String
  indexer : String
  indexerVersion : String
  buildInputsHash : String
  packageName : Option String
  declaredDependencies : BTreeSet String
  tsconfigAliases : Option TsconfigAliasConfig

structure Provenance where
  indexer : String
  indexerVersion : String
  scipSymbolId : Option String
  buildInputsHash : String
  deriving DecidableEq, Repr

structure SourceRange where
  file : String
  startLine : UInt32
  startCol : UInt32
  endLine : UInt32
  endCol : UInt32
  deriving DecidableEq, Repr

inductive IrVisibility
  | isPublic
  | isPrivate
  | isProtected
  | isInternal
  | isExport
  deriving DecidableEq, Repr

structure SymbolAttributes where
  visibility : Option IrVisibility
  isTopLevel : Bool
  symbolKind : Option String
  deriving DecidableEq, Repr

structure IrNode where
  key : CanonicalKey
  subtype : String
  name : String
  range : Option SourceRange
  partitionId : PartitionId
  identitySource : IdentitySource
  provenance : Provenance
  attributes : Option SymbolAttributes
  deriving DecidableEq, Repr

structure IrEdge where
  src : CanonicalKey
  dst : CanonicalKey
  edgeType : EdgeType
  basis : EdgeBasis
  provenance : Provenance
  imported : Option ImportEdgeMeta
  deriving DecidableEq, Repr

structure PartitionIr where
  partition : Partition
  nodes : List IrNode
  edges : List IrEdge
  importObservations : List ImportObservation

def PartitionIr.incoming (ir : PartitionIr) (key : CanonicalKey) : List IrEdge :=
  ir.edges.filter (fun e => e.dst = key)

def PartitionIr.outgoing (ir : PartitionIr) (key : CanonicalKey) : List IrEdge :=
  ir.edges.filter (fun e => e.src = key)

/-! The small values of the test suite. -/

namespace Fixture

def part (id : String) : Partition where
  id := .new id
  kind := .tsPackage
  root := "/x"
  indexer := "scip-typescript"
  indexerVersion := "0.4.0"
  buildInputsHash := "h"
  packageName := none
  declaredDependencies := ∅
  tsconfigAliases := none

def prov : Provenance := ⟨"scip-typescript", "0.4.0", none, "h"⟩

def node (key : String) (src : IdentitySource) : IrNode where
  key := .fromExisting key
  subtype := "FUNCTION"
  name := key
  range := none
  partitionId := .new "p"
  identitySource := src
  provenance := prov
  attributes := none

def edge (src dst : String) : IrEdge :=
  ⟨.fromExisting src, .fromExisting dst, .calls, .syntaxConfirmedCall, prov, none⟩

def ir (id : String) (nodes : List IrNode) (edges : List IrEdge) : PartitionIr := ⟨part id, nodes, edges, []⟩

def engine : PartitionIr :=
  ir "engine" [node "engine.foo" .astAdopted, node "engine.bar" .astAdopted] [edge "engine.bar" "engine.foo"]

def api : PartitionIr := ir "api" [node "api.caller" .astAdopted] [edge "api.caller" "engine.foo"]

end Fixture

end RepoGraph.Ir
