import RepoGraph.Indexer.Resolver

/-! Conservation of edges by a batch: every edge is placed once, in input order, and which imports feed the
module graph. -/

namespace RepoGraph.Indexer

open Lib

abbrev EdgeOrigin := String × String × String × String × EdgeType × String × Option SourceLocation

def ExtractedEdge.origin (e : ExtractedEdge) : EdgeOrigin :=
  (e.edgeUid, e.snapshotUid, e.repoUid, e.sourceNodeUid, e.edgeType, e.extractor, e.location)

def ResolvedEdge.origin (r : ResolvedEdge) : EdgeOrigin :=
  (r.edgeUid, r.snapshotUid, r.repoUid, r.sourceNodeUid, r.edgeType, r.extractor, r.location)

def ResolvedEdge.isCertainImport (r : ResolvedEdge) : Bool := r.edgeType = .imports ∧ r.resolution ≠ .inferred

def certainImportPairs (ext : Externals) (bound : List (ExtractedEdge × ResolvedEdge)) : List ImportPair :=
  (bound.filter (·.2.isCertainImport)).map fun p =>
    (p.2.sourceNodeUid, p.2.targetNodeUid, ext.typeOnlyDispositionOf p.1.metadataJson)

section Calls

def TargetResolution.pairsUntyped : TargetResolution → Bool
  | .includeBound .. | .tsconfigPathsBound .. => true
  | _ => false

variable {ext : Externals} {index : ResolverIndex} {bindings : Option ImportBindingsByFile} {edge : ExtractedEdge}

lemma pairsUntyped_optionToResolution (o : Option String) : (optionToResolution o).pairsUntyped = false := by
  cases o <;> rfl

lemma pairsUntyped_selfCallHierarchy (c m s : String) (pool : List String) :
    (selfCallHierarchy index c m s pool).pairsUntyped = false := by
  unfold selfCallHierarchy
  dsimp only
  split <;> rfl

lemma pairsUntyped_resolvePythonSelfCall (method : String) :
    (resolvePythonSelfCall index ext bindings edge method).pairsUntyped = false := by
  unfold resolvePythonSelfCall
  dsimp only
  split
  · split <;> rfl
  · split
    · exact pairsUntyped_selfCallHierarchy ..
    · split
      · split
        · rfl
        · exact pairsUntyped_selfCallHierarchy ..
      · rfl
    · rfl
    · rfl

lemma pairsUntyped_dottedNameFallback {r : TargetResolution}
    (h : dottedNameFallback index bindings edge = some r) :
    r.pairsUntyped = false := by
  unfold dottedNameFallback at h
  dsimp only at h
  split at h
  · cases h
  split at h
  · cases h
  split at h
  · split at h
    · cases h
    · cases h
      rfl
    · cases h
      rfl
  · obtain ⟨uid, -, rfl⟩ := Option.map_eq_some_iff.mp h
    rfl

def ResolvesOnly (stage : Option TargetResolution) : Prop := ∀ r, stage = some r → ∃ uid, r = .resolved uid

lemma resolvesOnly_map (o : Option String) : ResolvesOnly (o.map .resolved) := by
  intro r h
  obtain ⟨uid, -, rfl⟩ := Option.map_eq_some_iff.mp h
  exact ⟨uid, rfl⟩

lemma resolvesOnly_none : ResolvesOnly none := by
  intro r h
  cases h

lemma resolvesOnly_bind {α : Type} (o : Option α) {f : α → Option TargetResolution}
    (h : ∀ a, ResolvesOnly (f a)) : ResolvesOnly (o.bind f) := by
  intro r hr
  obtain ⟨a, -, ha⟩ := Option.bind_eq_some_iff.mp hr
  exact h a r ha

lemma resolvesOnly_receiverTypeStage : ResolvesOnly (receiverTypeStage ext index edge) := by
  unfold receiverTypeStage
  split
  · exact resolvesOnly_bind _ fun _ => resolvesOnly_map _
  · exact resolvesOnly_none

lemma resolvesOnly_enclosingClassStage : ResolvesOnly (enclosingClassStage ext index edge) := by
  unfold enclosingClassStage
  dsimp only
  split
  · refine resolvesOnly_bind _ fun candidates => ?_
    split
    · exact resolvesOnly_map _
    · exact resolvesOnly_none
  · exact resolvesOnly_none

lemma ResolvesOnly.pairsUntyped {stage : Option TargetResolution} (h : ResolvesOnly stage) {r : TargetResolution}
    (hr : stage = some r) : r.pairsUntyped = false := by
  obtain ⟨uid, rfl⟩ := h r hr
  rfl

lemma pairsUntyped_resolveCallTarget : (resolveCallTarget ext index bindings edge).pairsUntyped = false := by
  unfold resolveCallTarget
  dsimp only
  split
  · exact pairsUntyped_resolvePythonSelfCall _
  · set stages := Option.or _ _ with hstages
    cases hr : stages with
    | none => rfl
    | some r =>
      rw [hstages] at hr
      simp only [Option.or_eq_some_iff] at hr
      obtain ((((h | ⟨-, h⟩) | ⟨-, h⟩) | ⟨-, h⟩) | ⟨-, h⟩) | ⟨-, h⟩ := hr
      · exact (resolvesOnly_map _).pairsUntyped h
      · exact pairsUntyped_dottedNameFallback h
      · exact resolvesOnly_receiverTypeStage.pairsUntyped h
      · exact (resolvesOnly_map _).pairsUntyped h
      · exact resolvesOnly_enclosingClassStage.pairsUntyped h
      · exact (resolvesOnly_map _).pairsUntyped h

lemma imports_of_pairsUntyped {decls : RustModDeclsByFile}
    (h : (resolveTarget ext index bindings decls edge).pairsUntyped = true) : edge.edgeType = .imports := by
  by_contra hne
  have hnot : (resolveTarget ext index bindings decls edge).pairsUntyped = false := by
    unfold resolveTarget
    split
    · contradiction
    · exact pairsUntyped_resolveCallTarget
    all_goals first
      | exact pairsUntyped_optionToResolution _
      | (split
         · rfl
         · exact pairsUntyped_optionToResolution _)
  simp [hnot] at h

end Calls

section Batch

variable (ext : Externals) (index : ResolverIndex) (bindings : Option ImportBindingsByFile)
  (decls : RustModDeclsByFile)

namespace ResolutionResult

def empty : ResolutionResult := ⟨[], [], []⟩

def append (a b : ResolutionResult) : ResolutionResult where
  resolved := a.resolved ++ b.resolved
  stillUnresolved := a.stillUnresolved ++ b.stillUnresolved
  resolvedImportPairs := a.resolvedImportPairs ++ b.resolvedImportPairs

end ResolutionResult

lemma placeEdge_append (edge : ExtractedEdge) (outcome : TargetResolution) (result : ResolutionResult) :
    placeEdge ext index edge outcome result = result.append (placeEdge ext index edge outcome .empty) := by
  cases outcome
  case resolved =>
    by_cases h : edge.edgeType = .imports <;>
      simp [placeEdge, h, ResolutionResult.append, ResolutionResult.empty, ResolutionResult.pushResolved,
        ResolutionResult.pushImportPair]
  case includeBound _ resolution _ =>
    by_cases h : resolution = .inferred <;>
      simp [placeEdge, h, ResolutionResult.append, ResolutionResult.empty, ResolutionResult.pushResolved,
        ResolutionResult.pushImportPair]
  all_goals simp [placeEdge, ResolutionResult.append, ResolutionResult.empty, ResolutionResult.pushResolved,
    ResolutionResult.pushUnresolved, ResolutionResult.pushImportPair]

def placement (edge : ExtractedEdge) : ResolutionResult :=
  placeEdge ext index edge (resolveTarget ext index bindings decls edge) .empty

/-- An edge whose own inferred resolution is copied to the bound import. -/
def CopiesInferred (edge : ExtractedEdge) : Prop :=
  edge.edgeType = .imports ∧ edge.resolution = .inferred ∧
    ∃ uid, resolveTarget ext index bindings decls edge = .resolved uid

inductive Placed (edge : ExtractedEdge) : ResolutionResult → Prop
  | bound (r : ResolvedEdge) (horigin : r.origin = edge.origin)
      (hcopies : ¬ CopiesInferred ext index bindings decls edge) :
      Placed edge ⟨[r], [], certainImportPairs ext [(edge, r)]⟩
  | copied (r : ResolvedEdge) (pair : ImportPair) (horigin : r.origin = edge.origin)
      (hcopies : CopiesInferred ext index bindings decls edge) (hcertain : r.isCertainImport = false) :
      Placed edge ⟨[r], [], [pair]⟩
  | kept (u : CategorizedUnresolvedEdge) (hedge : u.edge = { edge with metadataJson := u.edge.metadataJson })
      (hcopies : ¬ CopiesInferred ext index bindings decls edge) : Placed edge ⟨[], [u], []⟩

variable {ext index bindings decls}

lemma not_copiesInferred {edge : ExtractedEdge}
    (h : ∀ uid, resolveTarget ext index bindings decls edge ≠ .resolved uid) :
    ¬ CopiesInferred ext index bindings decls edge := by
  rintro ⟨-, -, uid, huid⟩
  exact h uid huid

lemma certainImportPairs_ofEdge_certain {edge : ExtractedEdge} {uid : String} {resolution : Resolution}
    {metadataJson : Option String} (htype : edge.edgeType = .imports) (hres : resolution ≠ .inferred) :
    certainImportPairs ext [(edge, .ofEdge edge uid resolution metadataJson)] =
      [(edge.sourceNodeUid, uid, importEdgeTypeOnly ext edge)] := by
  simp [certainImportPairs, ResolvedEdge.isCertainImport, ResolvedEdge.ofEdge, htype, hres, importEdgeTypeOnly]

lemma certainImportPairs_ofEdge_other {edge : ExtractedEdge} {uid : String} {resolution : Resolution}
    {metadataJson : Option String} (h : edge.edgeType = .imports → resolution = .inferred) :
    certainImportPairs ext [(edge, .ofEdge edge uid resolution metadataJson)] = [] := by
  simpa [certainImportPairs, ResolvedEdge.isCertainImport, ResolvedEdge.ofEdge] using h

lemma placed_bound {edge : ExtractedEdge} {uid : String} {resolution : Resolution} {metadataJson : Option String}
    {pairs : List ImportPair} (hcopies : ¬ CopiesInferred ext index bindings decls edge)
    (hpairs : pairs = certainImportPairs ext [(edge, .ofEdge edge uid resolution metadataJson)]) :
    Placed ext index bindings decls edge ⟨[.ofEdge edge uid resolution metadataJson], [], pairs⟩ := by
  rw [hpairs]
  exact .bound _ rfl hcopies

lemma placed_of_resolved {edge : ExtractedEdge} {uid : String}
    (h : resolveTarget ext index bindings decls edge = .resolved uid) :
    Placed ext index bindings decls edge (placement ext index bindings decls edge) := by
  by_cases himports : edge.edgeType = .imports
  · have hplacement : placement ext index bindings decls edge =
        ⟨[.ofEdge edge uid edge.resolution edge.metadataJson], [],
          [(edge.sourceNodeUid, uid, importEdgeTypeOnly ext edge)]⟩ := by
      simp [placement, h, placeEdge, himports, ResolutionResult.pushResolved, ResolutionResult.pushImportPair,
        ResolutionResult.empty]
    rw [hplacement]
    by_cases hinferred : edge.resolution = .inferred
    · refine .copied _ _ rfl ⟨himports, hinferred, uid, h⟩ ?_
      simp [ResolvedEdge.isCertainImport, ResolvedEdge.ofEdge, hinferred]
    · refine placed_bound (fun hc => hinferred hc.2.1) ?_
      rw [certainImportPairs_ofEdge_certain himports hinferred]
  · have hplacement : placement ext index bindings decls edge =
        ⟨[.ofEdge edge uid edge.resolution edge.metadataJson], [], []⟩ := by
      simp [placement, h, placeEdge, himports, ResolutionResult.pushResolved, ResolutionResult.empty]
    rw [hplacement]
    refine placed_bound (fun hc => himports hc.1) ?_
    rw [certainImportPairs_ofEdge_other fun hc => absurd hc himports]

lemma placed (edge : ExtractedEdge) :
    Placed ext index bindings decls edge (placement ext index bindings decls edge) := by
  have htyped : (resolveTarget ext index bindings decls edge).pairsUntyped = true → edge.edgeType = .imports :=
    imports_of_pairsUntyped
  cases h : resolveTarget ext index bindings decls edge with
  | resolved uid => exact placed_of_resolved h
  | inferredImport targetUid alternate basis =>
    simp only [placement, h, placeEdge]
    refine placed_bound (not_copiesInferred (by simp [h])) ?_
    exact (certainImportPairs_ofEdge_other fun _ => rfl).symm
  | includeBound targetUid resolution metadataJson =>
    have himports := htyped (by rw [h]; rfl)
    have hcopies : ¬ CopiesInferred ext index bindings decls edge := not_copiesInferred (by simp [h])
    by_cases hinferred : resolution = .inferred
    · simp only [placement, h, placeEdge, hinferred, ne_eq, not_true_eq_false, if_false]
      exact placed_bound hcopies (certainImportPairs_ofEdge_other fun _ => rfl).symm
    · simp only [placement, h, placeEdge, ne_eq, hinferred, not_false_eq_true, if_true]
      exact placed_bound hcopies (certainImportPairs_ofEdge_certain himports hinferred).symm
  | workspaceSourceEntryBound targetUid metadataJson =>
    simp only [placement, h, placeEdge]
    refine placed_bound (not_copiesInferred (by simp [h])) ?_
    exact (certainImportPairs_ofEdge_other fun _ => rfl).symm
  | tsconfigPathsBound targetUid metadataJson =>
    have himports := htyped (by rw [h]; rfl)
    simp only [placement, h, placeEdge]
    refine placed_bound (not_copiesInferred (by simp [h])) ?_
    exact (certainImportPairs_ofEdge_certain himports (by decide)).symm
  | inferredNameOnly uid receiver candidate =>
    simp only [placement, h, placeEdge]
    refine placed_bound (not_copiesInferred (by simp [h])) ?_
    exact (certainImportPairs_ofEdge_other fun _ => rfl).symm
  | _ =>
    simp only [placement, h, placeEdge]
    exact .kept _ rfl (not_copiesInferred (by simp [h]))

/-- Every edge is placed once: the bound edges and the kept ones are the two sides of one split of the batch,
in input order, and nothing but the target, the resolution and the carrier of an edge changes. -/
structure Conserved (edges : List ExtractedEdge) (bound : ExtractedEdge → Bool) (result : ResolutionResult) :
    Prop where
  resolved : List.Forall₂ (fun e r => ResolvedEdge.origin r = ExtractedEdge.origin e) (edges.filter bound)
    result.resolved
  stillUnresolved : List.Forall₂
    (fun (e : ExtractedEdge) (u : CategorizedUnresolvedEdge) =>
      u.edge = { e with metadataJson := u.edge.metadataJson })
    (edges.filter fun e => !bound e) result.stillUnresolved

/-- The module graph is fed with the certain imports of the batch and nothing else. -/
def FedByCertainImports (ext : Externals) (edges : List ExtractedEdge) (bound : ExtractedEdge → Bool)
    (result : ResolutionResult) : Prop :=
  result.resolvedImportPairs = certainImportPairs ext ((edges.filter bound).zip result.resolved)

variable (ext index bindings decls)

def isBound (edge : ExtractedEdge) : Bool := !(placement ext index bindings decls edge).resolved.isEmpty

def placements : List ExtractedEdge → ResolutionResult
  | [] => .empty
  | edge :: edges => (placement ext index bindings decls edge).append (placements edges)

lemma foldl_placeEdge (edges : List ExtractedEdge) (result : ResolutionResult) :
    edges.foldl (fun result edge =>
      placeEdge ext index edge (resolveTarget ext index bindings decls edge) result) result =
      result.append (placements ext index bindings decls edges) := by
  induction edges generalizing result with
  | nil => simp [placements, ResolutionResult.append, ResolutionResult.empty]
  | cons edge edges ih =>
    rw [List.foldl_cons, ih, placeEdge_append]
    simp [placements, placement, ResolutionResult.append]

lemma resolveEdges_eq_placements (edges : List ExtractedEdge) :
    resolveEdgesWithRustModDecls ext index bindings decls edges = placements ext index bindings decls edges := by
  have h := foldl_placeEdge ext index bindings decls edges .empty
  simpa [resolveEdgesWithRustModDecls, ResolutionResult.append, ResolutionResult.empty] using h

variable {ext index bindings decls}

lemma conserved_cons {edge : ExtractedEdge} {edges : List ExtractedEdge} {bound : ExtractedEdge → Bool}
    {p rest : ResolutionResult} (hplaced : Placed ext index bindings decls edge p)
    (hbound : bound edge = !p.resolved.isEmpty) (ih : Conserved edges bound rest) :
    Conserved (edge :: edges) bound (p.append rest) := by
  cases hplaced with
  | bound r horigin _ =>
    have hb : bound edge = true := hbound
    constructor
    · simpa [hb, ResolutionResult.append] using ⟨horigin, ih.resolved⟩
    · simpa [hb, ResolutionResult.append] using ih.stillUnresolved
  | copied r pair horigin _ _ =>
    have hb : bound edge = true := hbound
    constructor
    · simpa [hb, ResolutionResult.append] using ⟨horigin, ih.resolved⟩
    · simpa [hb, ResolutionResult.append] using ih.stillUnresolved
  | kept u hedge _ =>
    have hb : bound edge = false := hbound
    constructor
    · simpa [hb, ResolutionResult.append] using ih.resolved
    · simpa [hb, ResolutionResult.append] using ⟨hedge, ih.stillUnresolved⟩

lemma conserved_placements (edges : List ExtractedEdge) :
    Conserved edges (isBound ext index bindings decls) (placements ext index bindings decls edges) := by
  induction edges with
  | nil => exact ⟨.nil, .nil⟩
  | cons edge edges ih => exact conserved_cons (placed edge) rfl ih

lemma fed_placements {edges : List ExtractedEdge} (h : ∀ e ∈ edges, ¬ CopiesInferred ext index bindings decls e) :
    FedByCertainImports ext edges (isBound ext index bindings decls)
      (placements ext index bindings decls edges) := by
  induction edges with
  | nil => rfl
  | cons edge edges ih =>
    have ih := ih fun e he => h e (List.mem_cons_of_mem _ he)
    have hplaced : Placed ext index bindings decls edge (placement ext index bindings decls edge) := placed edge
    have hbound : isBound ext index bindings decls edge =
        !(placement ext index bindings decls edge).resolved.isEmpty := rfl
    unfold FedByCertainImports at ih ⊢
    rw [placements]
    revert hplaced hbound
    generalize placement ext index bindings decls edge = p
    intro hplaced hbound
    cases hplaced with
    | bound r _ _ =>
      have hb : isBound ext index bindings decls edge = true := hbound
      simp only [ResolutionResult.append, ih, List.filter_cons, hb, if_true,
        List.singleton_append, List.zip_cons_cons]
      rw [← List.singleton_append (l := List.zip _ _)]
      simp only [certainImportPairs, List.filter_append, List.map_append]
    | copied r pair _ hcopies _ => exact absurd hcopies (h edge List.mem_cons_self)
    | kept u _ _ =>
      have hb : isBound ext index bindings decls edge = false := hbound
      simpa [ResolutionResult.append, hb] using ih

lemma length_certain_placements (edges : List ExtractedEdge) :
    let result := placements ext index bindings decls edges
    (result.resolved.filter (·.isCertainImport)).length ≤ result.resolvedImportPairs.length ∧
      ((∃ e ∈ edges, CopiesInferred ext index bindings decls e) →
        (result.resolved.filter (·.isCertainImport)).length < result.resolvedImportPairs.length) := by
  induction edges with
  | nil => simp [placements, ResolutionResult.empty]
  | cons edge edges ih =>
    have hplaced : Placed ext index bindings decls edge (placement ext index bindings decls edge) := placed edge
    simp only [placements, ResolutionResult.append, List.filter_append, List.length_append,
      List.exists_mem_cons_iff] at ih ⊢
    generalize placement ext index bindings decls edge = p at hplaced
    obtain ⟨hle, hlt⟩ := ih
    cases hplaced with
    | bound r _ hcopies =>
      have hlen : (certainImportPairs ext [(edge, r)]).length = ([r].filter (·.isCertainImport)).length := by
        cases hr : r.isCertainImport <;> simp [certainImportPairs, hr]
      dsimp only
      refine ⟨by omega, ?_⟩
      rintro (hc | hc)
      · exact absurd hc hcopies
      · have := hlt hc
        omega
    | copied r pair _ _ hcertain =>
      have hnone : [r].filter (·.isCertainImport) = [] := by simp [hcertain]
      dsimp only
      rw [hnone, List.length_nil, List.length_singleton]
      omega
    | kept u _ hcopies =>
      refine ⟨by simpa using hle, ?_⟩
      rintro (hc | hc)
      · exact absurd hc hcopies
      · simpa using hlt hc

lemma length_certainImportPairs {inputs : List ExtractedEdge} {rs : List ResolvedEdge}
    (h : inputs.length = rs.length) :
    (certainImportPairs ext (inputs.zip rs)).length = (rs.filter (·.isCertainImport)).length := by
  induction inputs generalizing rs with
  | nil => simp_all [certainImportPairs, List.length_eq_zero_iff.mp h.symm]
  | cons e inputs ih =>
    cases rs with
    | nil => simp at h
    | cons r rs =>
      have ih := ih (Nat.succ.inj h)
      cases hr : r.isCertainImport <;> simpa [certainImportPairs, hr] using ih

end Batch

section Results

variable (ext : Externals) (index : ResolverIndex) (bindings : Option ImportBindingsByFile)
  (decls : RustModDeclsByFile) (edges : List ExtractedEdge)

/-- A batch conserves its edges, and the module graph is fed with the certain imports exactly when no IMPORTS
edge arrives inferred and is bound to a node with its own resolution. -/
theorem resolveEdges_conserves :
    (∃ bound, Conserved edges bound (resolveEdgesWithRustModDecls ext index bindings decls edges)) ∧
      ((∃ bound, Conserved edges bound (resolveEdgesWithRustModDecls ext index bindings decls edges) ∧
          FedByCertainImports ext edges bound (resolveEdgesWithRustModDecls ext index bindings decls edges)) ↔
        ∀ e ∈ edges, e.edgeType = .imports → e.resolution = .inferred →
          ∀ uid, resolveTarget ext index bindings decls e ≠ .resolved uid) := by
  rw [resolveEdges_eq_placements]
  have hcond : (∀ e ∈ edges, e.edgeType = .imports → e.resolution = .inferred →
      ∀ uid, resolveTarget ext index bindings decls e ≠ .resolved uid) ↔
      ∀ e ∈ edges, ¬ CopiesInferred ext index bindings decls e := by
    simp [CopiesInferred]
  refine ⟨⟨_, conserved_placements edges⟩, ?_⟩
  rw [hcond]
  constructor
  · rintro ⟨bound, hconserved, hfed⟩ e he hcopies
    have hlt := (length_certain_placements edges).2 ⟨e, he, hcopies⟩
    rw [FedByCertainImports] at hfed
    have hlen := congrArg List.length hfed
    rw [length_certainImportPairs hconserved.resolved.length_eq] at hlen
    omega
  · intro h
    exact ⟨_, conserved_placements edges, fed_placements h⟩

def inferredFileImport : ExtractedEdge where
  edgeUid := "e"
  snapshotUid := "s"
  repoUid := "r"
  sourceNodeUid := "m"
  targetKey := "r:a.ts:FILE"
  edgeType := .imports
  resolution := .inferred
  extractor := "ts-core:0.2.0"
  location := none
  metadataJson := none

def fileNodeOf (path : String) : ResolverNode where
  nodeUid := path
  stableKey := fileKey "r" path
  name := path
  qualifiedName := none
  kind := "FILE"
  subtype := none
  fileUid := none
  forwardDecl := false
  superclasses := []

def oneFileIndex : ResolverIndex where
  nodesByStableKey := (∅ : IterMap _ _).insert "r:a.ts:FILE" (fileNodeOf "a.ts")
  nodesByName := ∅
  nodesByQualifiedName := ∅
  nodesByUid := ∅
  nodeUidToFileUid := ∅
  fileResolution := ∅
  perFileIncludeResolution := ∅
  includeResolver := none
  rustCrateRoots := ∅
  javaSuffixIndex := ∅
  npmWorkspacePackages := ∅
  tsconfigPaths := ⟨∅, default⟩

def noExternals : Externals := ⟨fun _ => none, fun _ => "", fun _ => false, fun _ => false⟩

/-- The inferred import is bound and feeds the module graph. -/
theorem resolveEdges_feeds_inferred :
    let result := resolveEdgesWithRustModDecls noExternals oneFileIndex none ∅ [inferredFileImport]
    result.resolved.map (fun r => (r.edgeType, r.resolution)) = [(.imports, .inferred)] ∧
      result.resolvedImportPairs = [("m", "a.ts", none)] ∧
      ¬ ∃ bound, Conserved [inferredFileImport] bound result ∧
        FedByCertainImports noExternals [inferredFileImport] bound result := by
  refine ⟨by decide, by decide, ?_⟩
  rintro ⟨bound, hconserved, hfed⟩
  have hresolved : (resolveEdgesWithRustModDecls noExternals oneFileIndex none ∅ [inferredFileImport]).resolved =
      [.ofEdge inferredFileImport "a.ts" .inferred none] := by decide
  have hlen := congrArg List.length hfed
  rw [length_certainImportPairs hconserved.resolved.length_eq, hresolved] at hlen
  revert hlen
  decide

end Results

end RepoGraph.Indexer
