import RepoGraph.LiveGraph.State

/-! The overlay as a function of single observations. Each observation gives at most one edge, whatever
its route; the three passes of the overlay only group these edges. -/

namespace RepoGraph.LiveGraph

open Lib Lib.Text Ir ImportResolver

def observationsOf (irs : List PartitionIr) : List (Option TsconfigAliasConfig × ImportObservation) :=
  irs.flatMap fun ir => ir.importObservations.map (ir.partition.tsconfigAliases, ·)

def relativeEdge (inv : FileInventory) (basis : EdgeBasis) (srcKey raw : String) :
    Option ResolvedImportEdgeCandidate :=
  match resolveTarget inv ⟨srcKey, raw⟩ with
  | .ok (path, key) => some ⟨srcKey, key, basis, raw, path⟩
  | .error _ => none

def edgeFrom (inv : FileInventory) (aliases : Option TsconfigAliasConfig) (o : ImportObservation)
    (srcKey : String) : Option ResolvedImportEdgeCandidate :=
  match o.resolution with
  | .staticUnresolved => relativeEdge inv .astImportFileInventoryResolved srcKey o.rawSpecifier
  | .packageExternal => aliases.bind fun cfg =>
      aliasEdge inv cfg .astImportTsconfigPathResolved srcKey o.rawSpecifier
  | .dynamicUnsupported =>
    if o.rawSpecifier = "" then none
    else if startsWith o.rawSpecifier "." then
      relativeEdge inv .astDynamicImportResolved srcKey o.rawSpecifier
    else aliases.bind fun cfg => aliasEdge inv cfg .astDynamicImportResolved srcKey o.rawSpecifier
  | .staticResolved => none

def observationEdge (inv : FileInventory) (p : Option TsconfigAliasConfig × ImportObservation) :
    Option ResolvedImportEdgeCandidate :=
  (inv.fileKeyFor p.2.sourceFile).bind (edgeFrom inv p.1 p.2)

lemma resolveImports_resolved (inv : FileInventory) (cands : List ImportCandidate) :
    (resolveImports inv cands).resolved = cands.filterMap fun c =>
      relativeEdge inv .astImportFileInventoryResolved c.sourceFileKey c.rawSpecifier := by
  have hfold : ∀ (cands : List ImportCandidate) (report : ImportResolutionReport),
      (cands.foldl (resolveImport inv) report).resolved = report.resolved ++ cands.filterMap fun c =>
        relativeEdge inv .astImportFileInventoryResolved c.sourceFileKey c.rawSpecifier := by
    intro cands
    induction cands with
    | nil => simp
    | cons c cands ih =>
      intro report
      rw [List.foldl_cons, ih, resolveImport, List.filterMap_cons, relativeEdge]
      cases resolveTarget inv c with
      | error reason => simp
      | ok hit => simp
  exact hfold cands ⟨[], []⟩

section Routes

variable (inv : FileInventory)

def staticCandidate (p : Option TsconfigAliasConfig × ImportObservation) : Option ImportCandidate :=
  if p.2.resolution = .staticUnresolved then
    (inv.fileKeyFor p.2.sourceFile).map fun srcKey => ⟨srcKey, p.2.rawSpecifier⟩
  else none

def dynamicCandidate (p : Option TsconfigAliasConfig × ImportObservation) : Option ImportCandidate :=
  if p.2.resolution = .dynamicUnsupported ∧ p.2.rawSpecifier ≠ "" ∧ startsWith p.2.rawSpecifier "." then
    (inv.fileKeyFor p.2.sourceFile).map fun srcKey => ⟨srcKey, p.2.rawSpecifier⟩
  else none

def aliasRoute (p : Option TsconfigAliasConfig × ImportObservation) : Option ResolvedImportEdgeCandidate :=
  if p.2.resolution = .packageExternal ∨
      p.2.resolution = .dynamicUnsupported ∧ p.2.rawSpecifier ≠ "" ∧ ¬ startsWith p.2.rawSpecifier "." then
    observationEdge inv p
  else none

lemma collectObservation_eq (aliases : Option TsconfigAliasConfig) (acc : OverlayInputs)
    (o : ImportObservation) :
    collectObservation inv aliases acc o =
      ⟨acc.candidates ++ (staticCandidate inv (aliases, o)).toList,
        acc.aliasEdges ++ (aliasRoute inv (aliases, o)).toList,
        acc.dynamicRelative ++ (dynamicCandidate inv (aliases, o)).toList⟩ := by
  cases hr : o.resolution with
  | staticUnresolved =>
    cases hk : inv.fileKeyFor o.sourceFile <;>
      simp [collectObservation, staticCandidate, aliasRoute, dynamicCandidate, hr, hk]
  | packageExternal =>
    cases aliases <;> cases hk : inv.fileKeyFor o.sourceFile <;>
      simp [collectObservation, staticCandidate, aliasRoute, dynamicCandidate, observationEdge, edgeFrom, hr,
        hk]
  | dynamicUnsupported =>
    by_cases hempty : o.rawSpecifier = ""
    · simp [collectObservation, staticCandidate, aliasRoute, dynamicCandidate, hr, hempty]
    · by_cases hdot : startsWith o.rawSpecifier "." = true
      · cases hk : inv.fileKeyFor o.sourceFile <;>
          simp [collectObservation, staticCandidate, aliasRoute, dynamicCandidate, hr, hk, hempty, hdot]
      · cases aliases <;> cases hk : inv.fileKeyFor o.sourceFile <;>
          simp [collectObservation, staticCandidate, aliasRoute, dynamicCandidate, observationEdge, edgeFrom,
            hr, hk, hempty, hdot]
  | staticResolved => simp [collectObservation, staticCandidate, aliasRoute, dynamicCandidate, hr]

lemma foldl_collect (irs : List PartitionIr) (acc : OverlayInputs) :
    irs.foldl (collectPartition inv) acc =
      ⟨acc.candidates ++ (observationsOf irs).filterMap (staticCandidate inv),
        acc.aliasEdges ++ (observationsOf irs).filterMap (aliasRoute inv),
        acc.dynamicRelative ++ (observationsOf irs).filterMap (dynamicCandidate inv)⟩ := by
  have hinner : ∀ (aliases : Option TsconfigAliasConfig) (os : List ImportObservation) (acc : OverlayInputs),
      os.foldl (collectObservation inv aliases) acc =
        ⟨acc.candidates ++ (os.map (aliases, ·)).filterMap (staticCandidate inv),
          acc.aliasEdges ++ (os.map (aliases, ·)).filterMap (aliasRoute inv),
          acc.dynamicRelative ++ (os.map (aliases, ·)).filterMap (dynamicCandidate inv)⟩ := by
    intro aliases os
    induction os with
    | nil => simp
    | cons o os ih =>
      intro acc
      rw [List.foldl_cons, ih, collectObservation_eq]
      simp only [List.map_cons, List.filterMap_cons, List.append_assoc]
      congr 2 <;> [cases staticCandidate inv (aliases, o); cases aliasRoute inv (aliases, o);
        cases dynamicCandidate inv (aliases, o)] <;> simp
  induction irs generalizing acc with
  | nil => simp [observationsOf]
  | cons ir irs ih =>
    rw [List.foldl_cons, ih, collectPartition, hinner]
    simp [observationsOf]

end Routes

lemma filterMap_three_perm {α β : Type} {f₁ f₂ f₃ f : α → Option β}
    (h : ∀ a, f a = ((f₁ a).or (f₂ a)).or (f₃ a) ∧ ((f₁ a).isNone ∨ (f₂ a).isNone) ∧
      ((f₁ a).isNone ∨ (f₃ a).isNone) ∧ ((f₂ a).isNone ∨ (f₃ a).isNone)) (l : List α) :
    (l.filterMap f₁ ++ l.filterMap f₂ ++ l.filterMap f₃).Perm (l.filterMap f) := by
  induction l with
  | nil => simp
  | cons a l ih =>
    obtain ⟨hf, h12, h13, h23⟩ := h a
    simp only [List.filterMap_cons]
    cases h₁ : f₁ a <;> cases h₂ : f₂ a <;> cases h₃ : f₃ a <;> simp_all
    · rw [← List.append_assoc] at ih ⊢
      exact List.perm_middle.trans (ih.cons _)
    · exact List.perm_middle.trans (ih.cons _)

def overlayEdges (irs : List PartitionIr) : List ResolvedImportEdgeCandidate :=
  (observationsOf irs).filterMap (observationEdge (residentInventory irs))

lemma overlayOf_perm (irs : List PartitionIr) : (overlayOf irs).Perm (overlayEdges irs) := by
  simp only [overlayOf, foldl_collect, List.nil_append, resolveImports_resolved, List.map_filterMap,
    List.filterMap_filterMap, overlayEdges]
  refine filterMap_three_perm ?_ (observationsOf irs)
  rintro ⟨aliases, o⟩
  generalize residentInventory irs = inv
  cases hk : inv.fileKeyFor o.sourceFile with
  | none => simp [staticCandidate, aliasRoute, dynamicCandidate, observationEdge, hk]
  | some srcKey =>
    cases hr : o.resolution with
    | staticUnresolved =>
      simp [staticCandidate, aliasRoute, dynamicCandidate, observationEdge, edgeFrom, hk, hr]
    | packageExternal =>
      simp [staticCandidate, aliasRoute, dynamicCandidate, observationEdge, edgeFrom, hk, hr]
    | staticResolved =>
      simp [staticCandidate, aliasRoute, dynamicCandidate, observationEdge, edgeFrom, hk, hr]
    | dynamicUnsupported =>
      by_cases hempty : o.rawSpecifier = ""
      · simp [staticCandidate, aliasRoute, dynamicCandidate, observationEdge, edgeFrom, hk, hr, hempty]
      · by_cases hdot : startsWith o.rawSpecifier "." = true
        · simp [staticCandidate, aliasRoute, dynamicCandidate, observationEdge, edgeFrom, hk, hr, hempty,
            hdot, relativeEdge]
          cases resolveTarget inv ⟨srcKey, o.rawSpecifier⟩ <;> simp
        · simp [staticCandidate, aliasRoute, dynamicCandidate, observationEdge, edgeFrom, hk, hr, hempty, hdot]

end RepoGraph.LiveGraph
