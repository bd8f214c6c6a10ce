import RepoGraph.Lib.Wire
import RepoGraph.WarmCache.Cache

/-! The bytes `bincode` writes for the cache types: the fields of a structure in order, the variants of an
enumeration by their index. -/

namespace RepoGraph.WarmCache

open Lib

def Bincode.ofWire {T : Type} (w : Wire T) : Bincode T where
  serialize := w.put
  deserialize bytes :=
    match w.get bytes with
    | some (t, _) => .ok t
    | none => .error "io error: unexpected end of file"

lemma Bincode.ofWire_undoes {T : Type} {w : Wire T} {t : T} (h : (w.put t).length < 2 ^ 64) :
    (Bincode.ofWire w).Undoes t := by
  have hget := w.get_put t [] h
  rw [List.append_nil] at hget
  simp [Undoes, ofWire, hget]

namespace Layout

open Wire

def variant {T : Type} (all : List T) [DecidableEq T]
    (h : ∀ t, all[(UInt32.ofNat (all.idxOf t)).toNat]? = some t) :
    Wire T :=
  uint32.through (fun t => .ofNat (all.idxOf t)) (fun n => all[n.toNat]?) h

def sourceRange : Wire CacheSourceRangeDto :=
  (string.pair (uint32.pair (uint32.pair (uint32.pair uint32)))).through
    (fun r => (r.file, r.startLine, r.startCol, r.endLine, r.endCol))
    (fun p => some ⟨p.1, p.2.1, p.2.2.1, p.2.2.2.1, p.2.2.2.2⟩) (fun _ => rfl)

def provenance : Wire CacheProvenanceDto :=
  (string.pair (string.pair (string.option.pair string))).through
    (fun p => (p.indexer, p.indexerVersion, p.scipSymbolId, p.buildInputsHash))
    (fun p => some ⟨p.1, p.2.1, p.2.2.1, p.2.2.2⟩) (fun _ => rfl)

def identitySource : Wire CacheIdentitySourceDto :=
  variant [.astAdopted, .scipSynthesizedFallback, .astFileScope] (by rintro (_ | _) <;> rfl)

def edgeType : Wire CacheEdgeTypeDto := variant [.calls, .references, .imports] (by rintro (_ | _) <;> rfl)

def edgeBasis : Wire CacheEdgeBasisDto :=
  variant [.syntaxConfirmedCall, .derivedReference, .fileScopeReference, .astImport,
    .astImportFileInventoryResolved, .astImportTsconfigPathResolved, .astDynamicImportResolved]
    (by rintro (_ | _) <;> rfl)

def importResolution : Wire CacheImportResolutionDto :=
  variant [.staticResolved, .staticUnresolved, .packageExternal, .dynamicUnsupported] (by rintro (_ | _) <;> rfl)

def importObservation : Wire CacheImportObservationDto :=
  (string.pair (string.pair (importResolution.pair (bool.pair (bool.pair (bool.pair bool)))))).through
    (fun o => (o.sourceFile, o.rawSpecifier, o.resolution, o.isReExport, o.isTypeOnly, o.isSideEffect,
      o.externalNodeModules))
    (fun p => some ⟨p.1, p.2.1, p.2.2.1, p.2.2.2.1, p.2.2.2.2.1, p.2.2.2.2.2.1, p.2.2.2.2.2.2⟩) (fun _ => rfl)

def importEdgeMeta : Wire CacheImportEdgeMetaDto :=
  (string.pair (string.pair importResolution)).through (fun m => (m.rawSpecifier, m.resolvedPath, m.resolution))
    (fun p => some ⟨p.1, p.2.1, p.2.2⟩) (fun _ => rfl)

def partitionKind : Wire CachePartitionKindDto := variant [.tsPackage] (fun _ => rfl)

def visibility : Wire CacheIrVisibilityDto :=
  variant [.isPublic, .isPrivate, .isProtected, .isInternal, .isExport] (by rintro (_ | _) <;> rfl)

def symbolAttributes : Wire CacheSymbolAttributesDto :=
  (visibility.option.pair (bool.pair string.option)).through
    (fun a => (a.visibility, a.isTopLevel, a.symbolKind))
    (fun p => some ⟨p.1, p.2.1, p.2.2⟩) (fun _ => rfl)

def irNode : Wire CacheIrNodeDto :=
  (string.pair (string.pair (string.pair (sourceRange.option.pair (string.pair (identitySource.pair
    (provenance.pair symbolAttributes.option))))))).through
    (fun n => (n.key, n.subtype, n.name, n.range, n.partitionId, n.identitySource, n.provenance, n.attributes))
    (fun p => some ⟨p.1, p.2.1, p.2.2.1, p.2.2.2.1, p.2.2.2.2.1, p.2.2.2.2.2.1, p.2.2.2.2.2.2.1,
      p.2.2.2.2.2.2.2⟩) (fun _ => rfl)

def irEdge : Wire CacheIrEdgeDto :=
  (string.pair (string.pair (edgeType.pair (edgeBasis.pair (provenance.pair importEdgeMeta.option))))).through
    (fun e => (e.src, e.dst, e.edgeType, e.basis, e.provenance, e.imported))
    (fun p => some ⟨p.1, p.2.1, p.2.2.1, p.2.2.2.1, p.2.2.2.2.1, p.2.2.2.2.2⟩) (fun _ => rfl)

def tsconfigAliasConfig : Wire CacheTsconfigAliasConfigDto :=
  (string.pair ((string.map string.list).pair string)).through
    (fun a => (a.baseUrl, a.paths, a.partitionPrefix))
    (fun p => some ⟨p.1, p.2.1, p.2.2⟩) (fun _ => rfl)

def partition : Wire CachePartitionDto :=
  (string.pair (partitionKind.pair (string.pair (string.pair (string.pair (string.pair (string.option.pair
    (string.set.pair tsconfigAliasConfig.option)))))))).through
    (fun p => (p.id, p.kind, p.root, p.indexer, p.indexerVersion, p.buildInputsHash, p.packageName,
      p.declaredDependencies, p.tsconfigAliases))
    (fun p => some ⟨p.1, p.2.1, p.2.2.1, p.2.2.2.1, p.2.2.2.2.1, p.2.2.2.2.2.1, p.2.2.2.2.2.2.1,
      p.2.2.2.2.2.2.2.1, p.2.2.2.2.2.2.2.2⟩) (fun _ => rfl)

def partitionIr : Wire CachePartitionIrDto :=
  (partition.pair (irNode.list.pair (irEdge.list.pair importObservation.list))).through
    (fun dto => (dto.partition, dto.nodes, dto.edges, dto.importObservations))
    (fun p => some ⟨p.1, p.2.1, p.2.2.1, p.2.2.2⟩) (fun _ => rfl)

def producerFingerprint : Wire ProducerFingerprint :=
  (string.pair string).through (fun f => (f.name, f.version)) (fun p => some ⟨p.1, p.2⟩) (fun _ => rfl)

def cacheKey : Wire CacheKey :=
  (string.pair (string.pair (string.pair (producerFingerprint.pair string)))).through
    (fun k => (k.repoUid, k.partitionId, k.sourceInputsHash, k.producerFingerprint, k.repoGraphVersion))
    (fun p => some ⟨p.1, p.2.1, p.2.2.1, p.2.2.2.1, p.2.2.2.2⟩) (fun _ => rfl)

def manifest : Wire CacheManifest :=
  (uint32.pair (uint32.pair (cacheKey.pair (uint64.pair (uint64.pair string))))).through
    (fun m => (m.magic, m.schemaVersion, m.key, m.createdAt, m.contentLength, m.checksum))
    (fun p => some ⟨p.1, p.2.1, p.2.2.1, p.2.2.2.1, p.2.2.2.2.1, p.2.2.2.2.2⟩) (fun _ => rfl)

def fileEnvelope : Wire CacheFileEnvelope :=
  (manifest.pair byte.list).through (fun e => (e.manifest, e.payload)) (fun p => some ⟨p.1, p.2⟩) (fun _ => rfl)

end Layout

end RepoGraph.WarmCache
