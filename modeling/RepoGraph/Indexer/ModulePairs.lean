import RepoGraph.Indexer.Conservation
import RepoGraph.Indexer.ModuleGraph

/-! The pairs of a batch against the edges it stores: a pair has the disposition that the stored carrier of
its edge gives, and only an inferred resolution that is copied makes a pair that is no certain import. -/

namespace RepoGraph.Indexer

open Lib Lib.Text

variable {ext : Externals} {index : ResolverIndex} {bindings : Option ImportBindingsByFile}
  {decls : RustModDeclsByFile} {edge : ExtractedEdge} {edges : List ExtractedEdge}

section Carriers

def TargetResolution.boundText : TargetResolution → Option String
  | .includeBound _ _ metadataJson | .tsconfigPathsBound _ metadataJson => some metadataJson
  | _ => none

def PrintsCarrier (ext : Externals) (edge : ExtractedEdge) (outcome : TargetResolution) : Prop :=
  ∀ text, outcome.boundText = some text → ∃ carrier basis candidates,
    objectCarrier ext edge.metadataJson = some carrier ∧ text = withBasis ext carrier basis candidates

lemma printsCarrier_of_none {outcome : TargetResolution} (h : outcome.boundText = none) :
    PrintsCarrier ext edge outcome := by
  intro text ht
  rw [h] at ht
  cases ht

lemma printsCarrier_of_not_pairsUntyped {outcome : TargetResolution} (h : outcome.pairsUntyped = false) :
    PrintsCarrier ext edge outcome := by
  apply printsCarrier_of_none
  cases outcome <;> first | rfl | cases h

lemma objectCarrier_of_specifierCarrier {carrier : Json.Fields} (h : specifierCarrier ext edge = some carrier) :
    objectCarrier ext edge.metadataJson = some carrier := by
  obtain ⟨fields, hfields, hcarrier⟩ := Option.bind_eq_some_iff.mp h
  split at hcarrier
  · obtain rfl := Option.some.inj hcarrier
    obtain ⟨value, hvalue, hobject⟩ := Option.bind_eq_some_iff.mp hfields
    obtain ⟨raw, hraw, hread⟩ := Option.bind_eq_some_iff.mp hvalue
    rw [hraw, objectCarrier, hread]
    exact hobject
  · cases hcarrier

lemma resolvePythonSubmoduleImport_boundText {outcome : TargetResolution}
    (h : resolvePythonSubmoduleImport ext edge index bindings = some outcome) : outcome.boundText = none := by
  obtain ⟨importedName, -, h⟩ := Option.bind_eq_some_iff.mp h
  obtain ⟨packageDir, -, h⟩ := Option.bind_eq_some_iff.mp h
  obtain ⟨initNode, -, h⟩ := Option.bind_eq_some_iff.mp h
  obtain ⟨targetUid, -, h⟩ := Option.bind_eq_some_iff.mp h
  dsimp only at h
  split at h
  · split at h
    · cases h
      rfl
    split at h
    · cases h
      rfl
    · cases h
      rfl
  · cases h
    rfl

lemma includeResolverStage_boundText {sourceFileUid : Option String} {outcome : TargetResolution}
    (h : includeResolverStage index edge sourceFileUid = some outcome) : outcome.boundText = none := by
  obtain ⟨resolver, -, h⟩ := Option.bind_eq_some_iff.mp h
  obtain ⟨fileUid, -, h⟩ := Option.bind_eq_some_iff.mp h
  obtain ⟨⟨repo, path⟩, -, h⟩ := Option.bind_eq_some_iff.mp h
  dsimp only at h
  split at h
  · obtain ⟨uid, -, rfl⟩ := Option.map_eq_some_iff.mp h
    rfl
  · cases h
    rfl
  · cases h

lemma resolveJavaImport_boundText (targetKey repoUid : String) :
    (resolveJavaImport targetKey index repoUid).boundText = none := by
  rw [resolveJavaImport]
  split
  · rfl
  split
  · split <;> rfl
  · rfl
  · rfl

lemma resolveIncludeSuffixOrBasename_prints {outcome : TargetResolution}
    (h : resolveIncludeSuffixOrBasename ext edge index = some outcome) : PrintsCarrier ext edge outcome := by
  obtain ⟨includeMap, -, h⟩ := Option.bind_eq_some_iff.mp h
  obtain ⟨carrier, hcarrier, h⟩ := Option.bind_eq_some_iff.mp h
  dsimp only at h
  have hbound : ∀ path basis resolution, (index.uidOf (fileKey edge.repoUid path)).map (fun uid =>
      TargetResolution.includeBound uid resolution (withBasis ext carrier basis [fileKey edge.repoUid path])) =
        some outcome → PrintsCarrier ext edge outcome := by
    intro path basis resolution ho text ht
    obtain ⟨uid, -, rfl⟩ := Option.map_eq_some_iff.mp ho
    exact ⟨carrier, basis, _, hcarrier, (Option.some.inj ht).symm⟩
  split at h
  · cases h
  · cases h
  · exact hbound _ _ _ h
  · exact hbound _ _ _ h
  · cases h
    exact printsCarrier_of_none rfl
  · cases h
    exact printsCarrier_of_none rfl

lemma resolveWorkspacePackageImport_boundText {outcome : TargetResolution}
    (h : resolveWorkspacePackageImport ext edge index = some outcome) : outcome.boundText = none := by
  rw [resolveWorkspacePackageImport] at h
  split at h
  · cases h
  · obtain ⟨carrier, -, h⟩ := Option.bind_eq_some_iff.mp h
    dsimp only at h
    split at h
    · cases h
    · obtain ⟨uid, -, rfl⟩ := Option.map_eq_some_iff.mp h
      rfl
    · cases h
      rfl

lemma resolveTsconfigPathsImport_prints {outcome : TargetResolution}
    (h : resolveTsconfigPathsImport ext edge index = some outcome) : PrintsCarrier ext edge outcome := by
  rw [resolveTsconfigPathsImport] at h
  split at h
  · cases h
  · obtain ⟨carrier, hcarrier, h⟩ := Option.bind_eq_some_iff.mp h
    split at h
    · cases h
    obtain ⟨fileUid, -, h⟩ := Option.bind_eq_some_iff.mp h
    obtain ⟨config, -, h⟩ := Option.bind_eq_some_iff.mp h
    split at h
    · cases h
    · split at h
      · cases h
      · obtain ⟨uid, -, rfl⟩ := Option.map_eq_some_iff.mp h
        intro text ht
        exact ⟨carrier, _, _, objectCarrier_of_specifierCarrier hcarrier, (Option.some.inj ht).symm⟩
      · cases h
        exact printsCarrier_of_none rfl
    · split at h
      · cases h
      · cases h
        exact printsCarrier_of_none rfl

lemma resolveImportLadder_prints : PrintsCarrier ext edge (resolveImportLadder ext index decls edge) := by
  rw [resolveImportLadder]
  dsimp only
  split
  · next h => exact printsCarrier_of_none (includeResolverStage_boundText h)
  · split
    · exact printsCarrier_of_none rfl
    split
    · exact printsCarrier_of_none (resolveJavaImport_boundText _ _)
    split
    · cases h : resolveIncludeSuffixOrBasename ext edge index with
      | none => exact printsCarrier_of_none rfl
      | some outcome => exact resolveIncludeSuffixOrBasename_prints h
    split
    · cases hpaths : resolveTsconfigPathsImport ext edge index with
      | some outcome => exact resolveTsconfigPathsImport_prints hpaths
      | none =>
        rw [Option.none_or]
        cases hworkspace : resolveWorkspacePackageImport ext edge index with
        | none => exact printsCarrier_of_none rfl
        | some outcome => exact printsCarrier_of_none (resolveWorkspacePackageImport_boundText hworkspace)
    · exact printsCarrier_of_none rfl

lemma resolveTarget_prints : PrintsCarrier ext edge (resolveTarget ext index bindings decls edge) := by
  by_cases himports : edge.edgeType = .imports
  · rw [resolveTarget, himports]
    dsimp only
    split
    · cases h : resolvePythonSubmoduleImport ext edge index bindings with
      | none => exact resolveImportLadder_prints
      | some outcome => exact printsCarrier_of_none (resolvePythonSubmoduleImport_boundText h)
    · exact resolveImportLadder_prints
  · apply printsCarrier_of_not_pairsUntyped
    rw [Bool.eq_false_iff]
    exact fun h => himports (imports_of_pairsUntyped h)

/-- What the binding stages print for the edges of a batch, the reader reads back. -/
def ReadsBack (ext : Externals) (index : ResolverIndex) (bindings : Option ImportBindingsByFile)
    (decls : RustModDeclsByFile) (edges : List ExtractedEdge) : Prop :=
  ∀ e ∈ edges, ∀ carrier basis candidates, objectCarrier ext e.metadataJson = some carrier →
    (resolveTarget ext index bindings decls e).boundText = some (withBasis ext carrier basis candidates) →
    ext.fromStr (withBasis ext carrier basis candidates) =
      some (.object (Json.insert (Json.insert carrier "basis" (.string basis)) "candidates"
        (Json.strings candidates)))

lemma lookup_insert_of_ne (fields : Json.Fields) {key key' : String} (h : key' ≠ key) (value : Json) :
    (Json.insert fields key value).lookup key' = fields.lookup key' := by
  have hkey : (key' == key) = false := by simpa using h
  induction fields with
  | nil => rw [Json.insert, List.lookup_cons, hkey]
  | cons entry fields ih =>
    obtain ⟨k, v⟩ := entry
    rw [Json.insert]
    split
    · next hk =>
      subst hk
      rw [List.lookup_cons, List.lookup_cons, hkey]
    split
    · rw [List.lookup_cons, List.lookup_cons, ih]
    · rw [List.lookup_cons, hkey]

lemma typeOnly_boundText (hread : ReadsBack ext index bindings decls edges) (he : edge ∈ edges) {text : String}
    (ht : (resolveTarget ext index bindings decls edge).boundText = some text) :
    ext.typeOnlyDispositionOf (some text) = importEdgeTypeOnly ext edge := by
  obtain ⟨carrier, basis, candidates, hcarrier, rfl⟩ := resolveTarget_prints text ht
  have hobject := hread edge he carrier basis candidates hcarrier ht
  have hlookup : (Json.insert (Json.insert carrier "basis" (.string basis)) "candidates"
      (Json.strings candidates)).lookup "isTypeOnly" = carrier.lookup "isTypeOnly" := by
    rw [lookup_insert_of_ne _ (by decide), lookup_insert_of_ne _ (by decide)]
  rw [Externals.typeOnlyDispositionOf, Option.bind_some, hobject]
  simp only [Json.get, hlookup]
  rw [importEdgeTypeOnly]
  cases hmeta : edge.metadataJson with
  | none =>
    rw [hmeta] at hcarrier
    obtain rfl := Option.some.inj hcarrier
    rfl
  | some raw =>
    rw [hmeta] at hcarrier
    obtain ⟨value, hvalue, hfields⟩ := Option.bind_eq_some_iff.mp hcarrier
    rw [Externals.typeOnlyDispositionOf, Option.bind_some, hvalue]
    cases value with
    | object fields =>
      obtain rfl := Option.some.inj hfields
      rfl
    | _ => cases hfields

end Carriers

section Pairs

def storedPair (ext : Externals) (r : ResolvedEdge) : ImportPair :=
  (r.sourceNodeUid, r.targetNodeUid, ext.typeOnlyDispositionOf r.metadataJson)

def copiedPair (ext : Externals) (index : ResolverIndex) (bindings : Option ImportBindingsByFile)
    (decls : RustModDeclsByFile) (edge : ExtractedEdge) (pair : ImportPair) : Prop :=
  edge.edgeType = .imports ∧ edge.resolution = .inferred ∧
    ∃ uid, resolveTarget ext index bindings decls edge = .resolved uid ∧
      pair = (edge.sourceNodeUid, uid, importEdgeTypeOnly ext edge)

lemma typeOnly_placement (hread : ReadsBack ext index bindings decls edges) (he : edge ∈ edges) {r : ResolvedEdge}
    (hr : r ∈ (placement ext index bindings decls edge).resolved) (hcertain : r.isCertainImport = true) :
    ext.typeOnlyDispositionOf r.metadataJson = importEdgeTypeOnly ext edge := by
  have htext : ∀ text, _ → ext.typeOnlyDispositionOf (some text) = _ := fun _ => typeOnly_boundText hread he
  have hinferred : ∀ uid metadataJson,
      (ResolvedEdge.ofEdge edge uid .inferred metadataJson).isCertainImport = false := by
    intro uid metadataJson
    simp [ResolvedEdge.isCertainImport, ResolvedEdge.ofEdge]
  cases h : resolveTarget ext index bindings decls edge with
  | resolved uid =>
    have hr' : r = .ofEdge edge uid edge.resolution edge.metadataJson := by
      by_cases himports : edge.edgeType = .imports <;>
        simpa [placement, h, placeEdge, himports, ResolutionResult.pushResolved, ResolutionResult.pushImportPair,
          ResolutionResult.empty] using hr
    rw [hr']
    rfl
  | includeBound targetUid resolution metadataJson =>
    have hr' : r = .ofEdge edge targetUid resolution (some metadataJson) := by
      by_cases hres : resolution = .inferred <;>
        simpa [placement, h, placeEdge, hres, ResolutionResult.pushResolved, ResolutionResult.pushImportPair,
          ResolutionResult.empty] using hr
    rw [hr']
    exact htext metadataJson (by rw [h]; rfl)
  | tsconfigPathsBound targetUid metadataJson =>
    have hr' : r = .ofEdge edge targetUid .static (some metadataJson) := by
      simpa [placement, h, placeEdge, ResolutionResult.pushResolved, ResolutionResult.pushImportPair,
        ResolutionResult.empty] using hr
    rw [hr']
    exact htext metadataJson (by rw [h]; rfl)
  | inferredImport | workspaceSourceEntryBound | inferredNameOnly =>
    simp only [placement, h, placeEdge, ResolutionResult.pushResolved, ResolutionResult.empty, List.nil_append,
      List.mem_singleton] at hr
    rw [hr, hinferred] at hcertain
    cases hcertain
  | _ => simp [placement, h, placeEdge, ResolutionResult.pushUnresolved, ResolutionResult.empty] at hr

lemma mem_certainImportPairs {r : ResolvedEdge} {pair : ImportPair} : pair ∈ certainImportPairs ext [(edge, r)] ↔
    r.isCertainImport = true ∧ pair = (r.sourceNodeUid, r.targetNodeUid, importEdgeTypeOnly ext edge) := by
  cases hr : r.isCertainImport <;> simp [certainImportPairs, hr, importEdgeTypeOnly]

lemma mem_placement_pairs (hread : ReadsBack ext index bindings decls edges) (he : edge ∈ edges)
    {pair : ImportPair} : pair ∈ (placement ext index bindings decls edge).resolvedImportPairs ↔
      (∃ r ∈ (placement ext index bindings decls edge).resolved, r.isCertainImport = true ∧
        pair = storedPair ext r) ∨ copiedPair ext index bindings decls edge pair := by
  have hkept : ∀ r ∈ (placement ext index bindings decls edge).resolved, r.isCertainImport = true →
      storedPair ext r = (r.sourceNodeUid, r.targetNodeUid, importEdgeTypeOnly ext edge) := by
    intro r hr hcertain
    rw [storedPair, typeOnly_placement hread he hr hcertain]
  by_cases hcopies : CopiesInferred ext index bindings decls edge
  · obtain ⟨himports, hinferred, uid, huid⟩ := hcopies
    have hplacement : placement ext index bindings decls edge =
        ⟨[.ofEdge edge uid .inferred edge.metadataJson], [],
          [(edge.sourceNodeUid, uid, importEdgeTypeOnly ext edge)]⟩ := by
      simp [placement, huid, placeEdge, himports, hinferred, ResolutionResult.pushResolved,
        ResolutionResult.pushImportPair, ResolutionResult.empty]
    rw [hplacement]
    constructor
    · intro hmem
      exact Or.inr ⟨himports, hinferred, uid, huid, List.mem_singleton.mp hmem⟩
    · rintro (⟨r, hr, hcertain, -⟩ | ⟨-, -, uid', huid', rfl⟩)
      · obtain rfl := List.mem_singleton.mp hr
        simp [ResolvedEdge.isCertainImport, ResolvedEdge.ofEdge] at hcertain
      · obtain rfl : uid = uid' := TargetResolution.resolved.inj (huid.symm.trans huid')
        exact List.mem_singleton_self _
  · have hnot : ¬ copiedPair ext index bindings decls edge pair := by
      rintro ⟨himports, hinferred, uid, huid, -⟩
      exact hcopies ⟨himports, hinferred, uid, huid⟩
    rw [or_iff_left hnot]
    have hplaced : Placed ext index bindings decls edge (placement ext index bindings decls edge) := placed edge
    revert hkept hplaced
    generalize placement ext index bindings decls edge = p
    intro hkept hplaced
    cases hplaced with
    | bound r _ _ =>
      rw [mem_certainImportPairs]
      constructor
      · rintro ⟨hcertain, rfl⟩
        exact ⟨r, List.mem_singleton_self r, hcertain, (hkept r (List.mem_singleton_self r) hcertain).symm⟩
      · rintro ⟨r', hr', hcertain, rfl⟩
        obtain rfl := List.mem_singleton.mp hr'
        exact ⟨hcertain, hkept r' hr' hcertain⟩
    | copied _ _ _ hc _ => exact absurd hc hcopies
    | kept _ _ _ => simp

lemma mem_placements_resolved {r : ResolvedEdge} : r ∈ (placements ext index bindings decls edges).resolved ↔
    ∃ e ∈ edges, r ∈ (placement ext index bindings decls e).resolved := by
  induction edges with
  | nil => simp [placements, ResolutionResult.empty]
  | cons e edges ih => simp [placements, ResolutionResult.append, ih]

lemma mem_placements_pairs {pair : ImportPair} :
    pair ∈ (placements ext index bindings decls edges).resolvedImportPairs ↔
      ∃ e ∈ edges, pair ∈ (placement ext index bindings decls e).resolvedImportPairs := by
  induction edges with
  | nil => simp [placements, ResolutionResult.empty]
  | cons e edges ih => simp [placements, ResolutionResult.append, ih]

lemma mem_resolvedImportPairs (hread : ReadsBack ext index bindings decls edges) {pair : ImportPair} :
    pair ∈ (resolveEdgesWithRustModDecls ext index bindings decls edges).resolvedImportPairs ↔
      (∃ r ∈ (resolveEdgesWithRustModDecls ext index bindings decls edges).resolved,
        r.isCertainImport = true ∧ pair = storedPair ext r) ∨
      ∃ e ∈ edges, copiedPair ext index bindings decls e pair := by
  rw [resolveEdges_eq_placements, mem_placements_pairs]
  simp only [mem_placements_resolved]
  constructor
  · rintro ⟨e, he, hmem⟩
    rcases (mem_placement_pairs hread he).mp hmem with ⟨r, hr, hcertain, hpair⟩ | hcopied
    · exact Or.inl ⟨r, ⟨e, he, hr⟩, hcertain, hpair⟩
    · exact Or.inr ⟨e, he, hcopied⟩
  · rintro (⟨r, ⟨e, he, hr⟩, hcertain, hpair⟩ | ⟨e, he, hcopied⟩)
    · exact ⟨e, he, (mem_placement_pairs hread he).mpr (Or.inl ⟨r, hr, hcertain, hpair⟩)⟩
    · exact ⟨e, he, (mem_placement_pairs hread he).mpr (Or.inr hcopied)⟩

lemma origin_placements {r : ResolvedEdge}
    (hr : r ∈ (resolveEdgesWithRustModDecls ext index bindings decls edges).resolved) :
    ∃ e ∈ edges, r.origin = e.origin := by
  rw [resolveEdges_eq_placements, mem_placements_resolved] at hr
  obtain ⟨e, he, hr⟩ := hr
  have hplaced : Placed ext index bindings decls e (placement ext index bindings decls e) := placed e
  revert hr hplaced
  generalize placement ext index bindings decls e = p
  intro hr hplaced
  cases hplaced with
  | bound r' horigin _ => exact ⟨e, he, List.mem_singleton.mp hr ▸ horigin⟩
  | copied r' _ horigin _ _ => exact ⟨e, he, List.mem_singleton.mp hr ▸ horigin⟩
  | kept _ _ _ => cases hr

end Pairs

end RepoGraph.Indexer
