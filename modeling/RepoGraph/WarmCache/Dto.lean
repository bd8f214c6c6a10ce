import RepoGraph.Ir

/-! The serialized mirror of the partition IR and the conversions between the two. -/

namespace RepoGraph.WarmCache

open Lib Ir

structure CacheSourceRangeDto where
  file : String
  startLine : UInt32
  startCol : UInt32
  endLine : UInt32
  endCol : UInt32
  deriving DecidableEq, Repr

structure CacheProvenanceDto where
  indexer : String
  indexerVersion : String
  scipSymbolId : Option String
  buildInputsHash : String
  deriving DecidableEq, Repr

inductive CacheIdentitySourceDto
  | astAdopted
  | scipSynthesizedFallback
  | astFileScope
  deriving DecidableEq, Repr

inductive CacheEdgeTypeDto
  | calls
  | references
  | imports
  deriving DecidableEq, Repr

inductive CacheEdgeBasisDto
  | syntaxConfirmedCall
  | derivedReference
  | fileScopeReference
  | astImport
  | astImportFileInventoryResolved
  | astImportTsconfigPathResolved
  | astDynamicImportResolved
  deriving DecidableEq, Repr

inductive CacheImportResolutionDto
  | staticResolved
  | staticUnresolved
  | packageExternal
  | dynamicUnsupported
  deriving DecidableEq, Repr

structure CacheImportObservationDto where
  sourceFile : String
  rawSpecifier : String
  resolution : CacheImportResolutionDto
  isReExport : Bool
  isTypeOnly : Bool
  isSideEffect : Bool
  externalNodeModules : Bool
  deriving DecidableEq, Repr

structure CacheImportEdgeMetaDto where
  rawSpecifier : String
  resolvedPath : String
  resolution : CacheImportResolutionDto
  deriving DecidableEq, Repr

inductive CachePartitionKindDto
  | tsPackage
  deriving DecidableEq, Repr

inductive CacheIrVisibilityDto
  | isPublic
  | isPrivate
  | isProtected
  | isInternal
  | isExport
  deriving DecidableEq, Repr

structure CacheSymbolAttributesDto where
  visibility : Option CacheIrVisibilityDto
  isTopLevel : Bool
  symbolKind : Option String
  deriving DecidableEq, Repr

structure CacheIrNodeDto where
  key : String
  subtype : String
  name : String
  range : Option CacheSourceRangeDto
  partitionId : String
  identitySource : CacheIdentitySourceDto
  provenance : CacheProvenanceDto
  attributes : Option CacheSymbolAttributesDto
  deriving DecidableEq, Repr

structure CacheIrEdgeDto where
  src : String
  dst : String
  edgeType : CacheEdgeTypeDto
  basis : CacheEdgeBasisDto
  provenance : CacheProvenanceDto
  imported : Option CacheImportEdgeMetaDto
  deriving DecidableEq, Repr

structure CacheTsconfigAliasConfigDto where
  baseUrl : String
  paths : BTreeMap String (List String)
  partitionPrefix : String

structure CachePartitionDto where
  id : String
  kind : CachePartitionKindDto
  root : String
  indexer : String
  indexerVersion : String
  buildInputsHash : String
  packageName : Option String
  declaredDependencies : BTreeSet String
  tsconfigAliases : Option CacheTsconfigAliasConfigDto

structure CachePartitionIrDto where
  partition : CachePartitionDto
  nodes : List CacheIrNodeDto
  edges : List CacheIrEdgeDto
  importObservations : List CacheImportObservationDto

inductive CacheIdentityBasisDto
  | astAdopted
  | scipSynthesized
  | astFileScope
  | declarationMapExact
  | nameExactUnique
  | rangeNameConfirmed
  | rawAnchored
  deriving DecidableEq, Repr

inductive CacheValueFactKindDto
  | cyclomaticComplexity
  deriving DecidableEq, Repr

inductive CacheValueSubjectDto
  | symbol (key : String)
  | rawAnchor (range : CacheSourceRangeDto)
  deriving DecidableEq, Repr

structure CacheValueFactDto where
  subject : CacheValueSubjectDto
  kind : CacheValueFactKindDto
  value : UInt32
  basis : CacheIdentityBasisDto
  sourceRange : Option CacheSourceRangeDto
  provenance : CacheProvenanceDto
  deriving DecidableEq, Repr

structure CacheValueFactsDto where
  facts : List CacheValueFactDto
  deriving DecidableEq, Repr

namespace CacheSourceRangeDto

def fromIr (r : SourceRange) : CacheSourceRangeDto := ⟨r.file, r.startLine, r.startCol, r.endLine, r.endCol⟩

def intoIr (r : CacheSourceRangeDto) : SourceRange := ⟨r.file, r.startLine, r.startCol, r.endLine, r.endCol⟩

@[simp] lemma intoIr_fromIr (r : SourceRange) : (fromIr r).intoIr = r := rfl

end CacheSourceRangeDto

namespace CacheProvenanceDto

def fromIr (p : Provenance) : CacheProvenanceDto :=
  ⟨p.indexer, p.indexerVersion, p.scipSymbolId, p.buildInputsHash⟩

def intoIr (p : CacheProvenanceDto) : Provenance :=
  ⟨p.indexer, p.indexerVersion, p.scipSymbolId, p.buildInputsHash⟩

@[simp] lemma intoIr_fromIr (p : Provenance) : (fromIr p).intoIr = p := rfl

end CacheProvenanceDto

namespace CacheIdentitySourceDto

def fromIr : IdentitySource → CacheIdentitySourceDto
  | .astAdopted => .astAdopted
  | .scipSynthesizedFallback => .scipSynthesizedFallback
  | .astFileScope => .astFileScope

def intoIr : CacheIdentitySourceDto → IdentitySource
  | .astAdopted => .astAdopted
  | .scipSynthesizedFallback => .scipSynthesizedFallback
  | .astFileScope => .astFileScope

@[simp] lemma intoIr_fromIr (v : IdentitySource) : (fromIr v).intoIr = v := by
  cases v <;> rfl

end CacheIdentitySourceDto

namespace CacheEdgeTypeDto

def fromIr : EdgeType → CacheEdgeTypeDto
  | .calls => .calls
  | .references => .references
  | .imports => .imports

def intoIr : CacheEdgeTypeDto → EdgeType
  | .calls => .calls
  | .references => .references
  | .imports => .imports

@[simp] lemma intoIr_fromIr (v : EdgeType) : (fromIr v).intoIr = v := by
  cases v <;> rfl

end CacheEdgeTypeDto

namespace CacheImportResolutionDto

def fromIr : ImportResolution → CacheImportResolutionDto
  | .staticResolved => .staticResolved
  | .staticUnresolved => .staticUnresolved
  | .packageExternal => .packageExternal
  | .dynamicUnsupported => .dynamicUnsupported

def intoIr : CacheImportResolutionDto → ImportResolution
  | .staticResolved => .staticResolved
  | .staticUnresolved => .staticUnresolved
  | .packageExternal => .packageExternal
  | .dynamicUnsupported => .dynamicUnsupported

@[simp] lemma intoIr_fromIr (v : ImportResolution) : (fromIr v).intoIr = v := by
  cases v <;> rfl

end CacheImportResolutionDto

namespace CacheImportObservationDto

def fromIr (o : ImportObservation) : CacheImportObservationDto where
  sourceFile := o.sourceFile
  rawSpecifier := o.rawSpecifier
  resolution := .fromIr o.resolution
  isReExport := o.isReExport
  isTypeOnly := o.isTypeOnly
  isSideEffect := o.isSideEffect
  externalNodeModules := o.externalNodeModules

def intoIr (o : CacheImportObservationDto) : ImportObservation where
  sourceFile := o.sourceFile
  rawSpecifier := o.rawSpecifier
  resolution := o.resolution.intoIr
  isReExport := o.isReExport
  isTypeOnly := o.isTypeOnly
  isSideEffect := o.isSideEffect
  externalNodeModules := o.externalNodeModules

@[simp] lemma intoIr_fromIr (o : ImportObservation) : (fromIr o).intoIr = o := by
  simp [fromIr, intoIr]

end CacheImportObservationDto

namespace CacheImportEdgeMetaDto

def fromIr (m : ImportEdgeMeta) : CacheImportEdgeMetaDto :=
  ⟨m.rawSpecifier, m.resolvedPath, .fromIr m.resolution⟩

def intoIr (m : CacheImportEdgeMetaDto) : ImportEdgeMeta :=
  ⟨m.rawSpecifier, m.resolvedPath, m.resolution.intoIr⟩

@[simp] lemma intoIr_fromIr (m : ImportEdgeMeta) : (fromIr m).intoIr = m := by
  simp [fromIr, intoIr]

end CacheImportEdgeMetaDto

namespace CacheEdgeBasisDto

def fromIr : EdgeBasis → CacheEdgeBasisDto
  | .syntaxConfirmedCall => .syntaxConfirmedCall
  | .derivedReference => .derivedReference
  | .fileScopeReference => .fileScopeReference
  | .astImport => .astImport
  | .astImportFileInventoryResolved => .astImportFileInventoryResolved
  | .astImportTsconfigPathResolved => .astImportTsconfigPathResolved
  | .astDynamicImportResolved => .astDynamicImportResolved

def intoIr : CacheEdgeBasisDto → EdgeBasis
  | .syntaxConfirmedCall => .syntaxConfirmedCall
  | .derivedReference => .derivedReference
  | .fileScopeReference => .fileScopeReference
  | .astImport => .astImport
  | .astImportFileInventoryResolved => .astImportFileInventoryResolved
  | .astImportTsconfigPathResolved => .astImportTsconfigPathResolved
  | .astDynamicImportResolved => .astDynamicImportResolved

@[simp] lemma intoIr_fromIr (v : EdgeBasis) : (fromIr v).intoIr = v := by
  cases v <;> rfl

end CacheEdgeBasisDto

namespace CachePartitionKindDto

def fromIr : PartitionKind → CachePartitionKindDto
  | .tsPackage => .tsPackage

def intoIr : CachePartitionKindDto → PartitionKind
  | .tsPackage => .tsPackage

@[simp] lemma intoIr_fromIr (v : PartitionKind) : (fromIr v).intoIr = v := by
  cases v
  rfl

end CachePartitionKindDto

namespace CacheIrVisibilityDto

def fromIr : IrVisibility → CacheIrVisibilityDto
  | .isPublic => .isPublic
  | .isPrivate => .isPrivate
  | .isProtected => .isProtected
  | .isInternal => .isInternal
  | .isExport => .isExport

def intoIr : CacheIrVisibilityDto → IrVisibility
  | .isPublic => .isPublic
  | .isPrivate => .isPrivate
  | .isProtected => .isProtected
  | .isInternal => .isInternal
  | .isExport => .isExport

@[simp] lemma intoIr_fromIr (v : IrVisibility) : (fromIr v).intoIr = v := by
  cases v <;> rfl

end CacheIrVisibilityDto

namespace CacheSymbolAttributesDto

def fromIr (a : SymbolAttributes) : CacheSymbolAttributesDto :=
  ⟨a.visibility.map .fromIr, a.isTopLevel, a.symbolKind⟩

def intoIr (a : CacheSymbolAttributesDto) : SymbolAttributes :=
  ⟨a.visibility.map CacheIrVisibilityDto.intoIr, a.isTopLevel, a.symbolKind⟩

@[simp] lemma intoIr_fromIr (a : SymbolAttributes) : (fromIr a).intoIr = a := by
  simp [fromIr, intoIr, Function.comp_def]

end CacheSymbolAttributesDto

namespace CacheIrNodeDto

def fromIr (n : IrNode) : CacheIrNodeDto where
  key := n.key.asStr
  subtype := n.subtype
  name := n.name
  range := n.range.map .fromIr
  partitionId := n.partitionId.asStr
  identitySource := .fromIr n.identitySource
  provenance := .fromIr n.provenance
  attributes := n.attributes.map .fromIr

def intoIr (n : CacheIrNodeDto) : IrNode where
  key := .fromExisting n.key
  subtype := n.subtype
  name := n.name
  range := n.range.map CacheSourceRangeDto.intoIr
  partitionId := .new n.partitionId
  identitySource := n.identitySource.intoIr
  provenance := n.provenance.intoIr
  attributes := n.attributes.map CacheSymbolAttributesDto.intoIr

@[simp] lemma intoIr_fromIr (n : IrNode) : (fromIr n).intoIr = n := by
  simp [fromIr, intoIr, Function.comp_def]

end CacheIrNodeDto

namespace CacheIrEdgeDto

def fromIr (e : IrEdge) : CacheIrEdgeDto where
  src := e.src.asStr
  dst := e.dst.asStr
  edgeType := .fromIr e.edgeType
  basis := .fromIr e.basis
  provenance := .fromIr e.provenance
  imported := e.imported.map .fromIr

def intoIr (e : CacheIrEdgeDto) : IrEdge where
  src := .fromExisting e.src
  dst := .fromExisting e.dst
  edgeType := e.edgeType.intoIr
  basis := e.basis.intoIr
  provenance := e.provenance.intoIr
  imported := e.imported.map CacheImportEdgeMetaDto.intoIr

@[simp] lemma intoIr_fromIr (e : IrEdge) : (fromIr e).intoIr = e := by
  simp [fromIr, intoIr, Function.comp_def]

end CacheIrEdgeDto

namespace CachePartitionDto

def fromIr (p : Partition) : CachePartitionDto where
  id := p.id.asStr
  kind := .fromIr p.kind
  root := p.root
  indexer := p.indexer
  indexerVersion := p.indexerVersion
  buildInputsHash := p.buildInputsHash
  packageName := p.packageName
  declaredDependencies := p.declaredDependencies
  tsconfigAliases := p.tsconfigAliases.map fun a => ⟨a.baseUrl, a.paths, a.partitionPrefix⟩

def intoIr (p : CachePartitionDto) : Partition where
  id := .new p.id
  kind := p.kind.intoIr
  root := p.root
  indexer := p.indexer
  indexerVersion := p.indexerVersion
  buildInputsHash := p.buildInputsHash
  packageName := p.packageName
  declaredDependencies := p.declaredDependencies
  tsconfigAliases := p.tsconfigAliases.map fun a => ⟨a.baseUrl, a.paths, a.partitionPrefix⟩

@[simp] lemma intoIr_fromIr (p : Partition) : (fromIr p).intoIr = p := by
  simp [fromIr, intoIr, Function.comp_def]

end CachePartitionDto

namespace CachePartitionIrDto

def fromIr (ir : PartitionIr) : CachePartitionIrDto where
  partition := .fromIr ir.partition
  nodes := ir.nodes.map .fromIr
  edges := ir.edges.map .fromIr
  importObservations := ir.importObservations.map .fromIr

def intoIr (dto : CachePartitionIrDto) : PartitionIr where
  partition := dto.partition.intoIr
  nodes := dto.nodes.map CacheIrNodeDto.intoIr
  edges := dto.edges.map CacheIrEdgeDto.intoIr
  importObservations := dto.importObservations.map CacheImportObservationDto.intoIr

@[simp] lemma intoIr_fromIr (ir : PartitionIr) : (fromIr ir).intoIr = ir := by
  simp [fromIr, intoIr, Function.comp_def]

end CachePartitionIrDto

end RepoGraph.WarmCache
