import RepoGraph.LiveGraph.OverlayCoherent
import RepoGraph.ModuleCycleCert

/-! The import read-model, captured edges beside classified observations, and the certificate's snapshot
of the same classification. -/

namespace RepoGraph.LiveGraph

open Lib Lib.Text Ir TrustModel ImportResolver ModuleCycleCert

structure ImportEdgeView where
  srcFile : String
  dstFile : String
  basis : String
  rawSpecifier : Option String
  deriving DecidableEq, Repr

structure ImportObservationView where
  sourceFile : String
  rawSpecifier : String
  className : String
  blocking : Bool
  deriving DecidableEq, Repr

structure LiveImportView where
  edges : List ImportEdgeView
  observations : List ImportObservationView
  deriving DecidableEq, Repr

def importEdgeBasisLabel : EdgeBasis → String
  | .astImport => "AstImport"
  | .astImportFileInventoryResolved => "AstImportFileInventoryResolved"
  | .astImportTsconfigPathResolved => "AstImportTsconfigPathResolved"
  | .astDynamicImportResolved => "AstDynamicImportResolved"
  | _ => "Other"

def classifyRelative (o : ImportObservation) (overlayResolved : Bool) : ObservationClass :=
  if isAssetSpecifier o.rawSpecifier then .assetNonRelevant
  else if overlayResolved then .resolvedEdge
  else .unresolvedAfterOverlay

def classifyBareSpecifier (o : ImportObservation) (overlayResolved : Bool)
    (tsconfigAliases : Option TsconfigAliasConfig) (workspacePackages declared : BTreeSet String) :
    ObservationClass :=
  let isAlias := tsconfigAliases.any (specifierMatchesAnyAlias · o.rawSpecifier)
  if overlayResolved then .resolvedEdge
  else if isAlias then .aliasUnresolved
  else
    match classifyPackageImport o.rawSpecifier workspacePackages declared o.externalNodeModules with
    | .externalPackageNonLocal => .externalNonLocal
    | .workspaceLocalUnedgeable => .workspaceLocalUnedgeable
    | .packageUnresolved => .unresolvedPackage

def classifyObservation (o : ImportObservation) (overlayResolved : Bool)
    (tsconfigAliases : Option TsconfigAliasConfig) (workspacePackages declared : BTreeSet String) :
    ObservationClass :=
  match o.resolution with
  | .staticResolved => .resolvedEdge
  | .packageExternal =>
    classifyBareSpecifier o overlayResolved tsconfigAliases workspacePackages declared
  | .dynamicUnsupported =>
    if o.rawSpecifier = "" then .dynamicUnresolved
    else if startsWith o.rawSpecifier "." then classifyRelative o overlayResolved
    else classifyBareSpecifier o overlayResolved tsconfigAliases workspacePackages declared
  | .staticUnresolved => classifyRelative o overlayResolved

def overlayPairs (g : LiveGraph) : BTreeSet (String × String) :=
  .ofList (g.xpartOverlay.map fun e => (e.srcFileKey, e.rawSpecifier)) compare

def workspacePackages (g : LiveGraph) : BTreeSet String :=
  .ofList (g.residentIrs.filterMap fun ir => ir.partition.packageName) compare

def overlayResolved (overlay : BTreeSet (String × String)) (o : ImportObservation) : Bool :=
  overlay.toList.any fun p => p.2 = o.rawSpecifier ∧ fileKeyPath p.1 = some o.sourceFile

def classIn (g : LiveGraph) (part : Partition) (o : ImportObservation) : ObservationClass :=
  classifyObservation o (overlayResolved g.overlayPairs o) part.tsconfigAliases g.workspacePackages
    part.declaredDependencies

def classifiedObservations (g : LiveGraph) : List (String × String × ObservationClass) :=
  g.residentIrs.flatMap fun ir => ir.importObservations.map fun o =>
    (o.sourceFile, o.rawSpecifier, g.classIn ir.partition o)

def intraEdgeView (e : IrEdge) : Option ImportEdgeView :=
  if e.basis ≠ .astImport then none
  else
    match fileKeyPath e.src.asStr, fileKeyPath e.dst.asStr with
    | some src, some dst =>
      some ⟨src, dst, importEdgeBasisLabel e.basis, e.imported.map ImportEdgeMeta.rawSpecifier⟩
    | _, _ => none

def overlayEdgeView (e : ResolvedImportEdgeCandidate) : Option ImportEdgeView :=
  match fileKeyPath e.srcFileKey, fileKeyPath e.dstFileKey with
  | some src, some dst => some ⟨src, dst, importEdgeBasisLabel e.basis, some e.rawSpecifier⟩
  | _, _ => none

def observationView (p : String × String × ObservationClass) : ImportObservationView :=
  ⟨p.1, p.2.1, p.2.2.asStr, p.2.2.isBlocking⟩

def liveImportView (g : LiveGraph) (fileFilter : Option String) : LiveImportView :=
  let edges := (g.residentIrs.flatMap PartitionIr.edges).filterMap intraEdgeView ++
    g.xpartOverlay.filterMap overlayEdgeView
  let observations := (g.classifiedObservations.filter fun p => !p.2.2.isEdge).map observationView
  let edges := edges.filter fun e => fileFilter.all (e.srcFile = ·)
  let observations := observations.filter fun o => fileFilter.all (o.sourceFile = ·)
  { edges := sortBy (fun a b => compare (a.srcFile, a.dstFile, a.rawSpecifier)
      (b.srcFile, b.dstFile, b.rawSpecifier)) edges
    observations := sortBy (fun a b => compare (a.sourceFile, a.rawSpecifier, a.className)
      (b.sourceFile, b.rawSpecifier, b.className)) observations }

def livePartition (id : String) (s : Slot) : LivePartition where
  id := id
  epoch := .ofNat s.epoch
  fresh := s.ir.isSome && statusFreshness s.status = .fresh
  ts := s.language = .typeScriptPrimary
  sourceInputsHash := (s.ir.map fun ir => ir.partition.buildInputsHash).getD ""
  producerFingerprint :=
    (s.ir.map fun ir => ir.partition.indexer ++ "@" ++ ir.partition.indexerVersion).getD ""

def livePartitions (g : LiveGraph) : List LivePartition := g.slots.entries.map fun e => livePartition e.1 e.2

def moduleCycleLiveState (g : LiveGraph) : LiveCycleState where
  partitions := g.livePartitions
  observationClasses := g.classifiedObservations.foldl (fun o p => p.2.2.foldInto o) .default

def placedObservations (g : LiveGraph) : List (Partition × ImportObservation) :=
  g.residentIrs.flatMap fun ir => ir.importObservations.map (ir.partition, ·)

def Captured (g : LiveGraph) (file specifier : String) : Prop :=
  ∃ e ∈ g.xpartOverlay, fileKeyPath e.srcFileKey = some file ∧ e.rawSpecifier = specifier

/-- Classified before the overlay is asked: a relative asset, or an import of a computed name. -/
def Shadowed (o : ImportObservation) : Prop :=
  (o.resolution = .staticUnresolved ∨ o.resolution = .dynamicUnsupported ∧ startsWith o.rawSpecifier ".") ∧
    isAssetSpecifier o.rawSpecifier ∨ o.resolution = .dynamicUnsupported ∧ o.rawSpecifier = ""

section Classification

variable {g : LiveGraph} {part : Partition} {o : ImportObservation}

lemma overlayResolved_iff :
    overlayResolved g.overlayPairs o = true ↔ g.Captured o.sourceFile o.rawSpecifier := by
  simp only [overlayResolved, overlayPairs, List.any_eq_true, Std.ExtTreeSet.mem_toList,
    Std.ExtTreeSet.mem_ofList, List.contains_iff_mem, List.mem_map, decide_eq_true_eq, Captured]
  constructor
  · rintro ⟨-, ⟨e, he, rfl⟩, hraw, hpath⟩
    exact ⟨e, he, hpath, hraw⟩
  · rintro ⟨e, he, hpath, hraw⟩
    exact ⟨_, ⟨e, he, rfl⟩, hraw, hpath⟩

lemma classifyRelative_isEdge (b : Bool) :
    (classifyRelative o b).isEdge = true ↔ isAssetSpecifier o.rawSpecifier = false ∧ b = true := by
  rw [classifyRelative]
  cases isAssetSpecifier o.rawSpecifier <;> cases b <;> simp [ObservationClass.isEdge]

lemma classifyBareSpecifier_isEdge (b : Bool) (aliases : Option TsconfigAliasConfig)
    (packages declared : BTreeSet String) :
    (classifyBareSpecifier o b aliases packages declared).isEdge = b := by
  simp only [classifyBareSpecifier]
  cases b
  · simp only [Bool.false_eq_true, if_false]
    split
    · rfl
    · cases classifyPackageImport o.rawSpecifier packages declared o.externalNodeModules <;> rfl
  · rfl

lemma classIn_isEdge : (g.classIn part o).isEdge = true ↔
    o.resolution = .staticResolved ∨ g.Captured o.sourceFile o.rawSpecifier ∧ ¬ Shadowed o := by
  rw [← overlayResolved_iff, classIn, classifyObservation, Shadowed]
  cases hr : o.resolution with
  | staticResolved => simp [ObservationClass.isEdge]
  | packageExternal => simp [classifyBareSpecifier_isEdge]
  | staticUnresolved => simp [classifyRelative_isEdge, and_comm]
  | dynamicUnsupported =>
    by_cases hempty : o.rawSpecifier = ""
    · simp [hempty, ObservationClass.isEdge]
    · by_cases hdot : startsWith o.rawSpecifier "." = true
      · simp [hempty, hdot, classifyRelative_isEdge, and_comm]
      · simp [hempty, hdot, classifyBareSpecifier_isEdge]

lemma Shadowed.not_staticResolved (h : Shadowed o) : o.resolution ≠ .staticResolved := by
  rcases h with ⟨hr | ⟨hr, -⟩, -⟩ | ⟨hr, -⟩ <;> simp [hr]

end Classification

section View

variable {g : LiveGraph}

lemma classifiedObservations_eq : g.classifiedObservations = g.placedObservations.map fun p =>
    (p.2.sourceFile, p.2.rawSpecifier, g.classIn p.1 p.2) := by
  simp [classifiedObservations, placedObservations, List.map_flatMap, Function.comp_def]

def row (g : LiveGraph) (p : Partition × ImportObservation) : ImportObservationView :=
  observationView (p.2.sourceFile, p.2.rawSpecifier, g.classIn p.1 p.2)

lemma observations_perm : (g.liveImportView none).observations.Perm
    ((g.placedObservations.filter fun p => !(g.classIn p.1 p.2).isEdge).map g.row) := by
  simp only [liveImportView, Option.all_none, List.filter_true]
  refine (sortBy_perm _ _).trans (List.Perm.of_eq ?_)
  rw [classifiedObservations_eq, List.filter_map, List.map_map]
  rfl

lemma mem_observations {v : ImportObservationView} : v ∈ (g.liveImportView none).observations ↔
    ∃ p ∈ g.placedObservations, (g.classIn p.1 p.2).isEdge = false ∧ g.row p = v := by
  rw [observations_perm.mem_iff, List.mem_map]
  simp only [List.mem_filter, Bool.not_eq_true', and_assoc]

lemma mem_edges {v : ImportEdgeView} {e : ResolvedImportEdgeCandidate} (he : e ∈ g.xpartOverlay)
    (hv : overlayEdgeView e = some v) : v ∈ (g.liveImportView none).edges := by
  simp only [liveImportView, Option.all_none, List.filter_true]
  rw [(sortBy_perm _ _).mem_iff, List.mem_append, List.mem_filterMap, List.mem_filterMap]
  exact Or.inr ⟨e, he, hv⟩

lemma flag_foldl (c : ObservationClass) (ps : List (String × String × ObservationClass))
    (o : ObservationClassSummary) :
    c.flag (ps.foldl (fun o p => p.2.2.foldInto o) o) = true ↔
      c.flag o = true ∨ c.isEdge = false ∧ ∃ p ∈ ps, p.2.2 = c := by
  induction ps generalizing o with
  | nil => simp
  | cons p ps ih =>
    rw [List.foldl_cons, ih, ObservationClass.flag_foldInto]
    simp only [List.mem_cons, exists_eq_or_imp]
    grind

end View

/-- What is asked of the view: a captured pair is an edge and no observation, any other pair is listed as
often as it is resident, and the summary has the classes of the listed observations. -/
structure Separates (g : LiveGraph) : Prop where
  captured : ∀ file specifier, g.Captured file specifier →
    (∃ v ∈ (g.liveImportView none).edges, v.srcFile = file ∧ v.rawSpecifier = some specifier) ∧
      ∀ v ∈ (g.liveImportView none).observations, ¬ (v.sourceFile = file ∧ v.rawSpecifier = specifier)
  uncaptured : ∀ file specifier, ¬ g.Captured file specifier →
    (g.liveImportView none).observations.countP (fun v => v.sourceFile = file ∧ v.rawSpecifier = specifier) =
      (g.residentIrs.flatMap PartitionIr.importObservations).countP (fun o =>
        o.resolution ≠ .staticResolved ∧ o.sourceFile = file ∧ o.rawSpecifier = specifier)
  summary : ∀ c : ObservationClass, c.isEdge = false →
    (c.flag g.moduleCycleLiveState.observationClasses = true ↔
      ∃ v ∈ (g.liveImportView none).observations, v.className = c.asStr)

section Separation

lemma edge_of_captured {ms : List Mutation} {file specifier : String}
    (h : (after ms).Captured file specifier) :
    ∃ v ∈ ((after ms).liveImportView none).edges, v.srcFile = file ∧ v.rawSpecifier = some specifier := by
  obtain ⟨e, he, hsrc, rfl⟩ := h
  obtain ⟨p, -, hedge⟩ := mem_overlay.mp he
  obtain ⟨-, ⟨path, hpath⟩, -⟩ := observationEdge_spec hedge
  have hdst : fileKeyPath e.dstFileKey = some path := (mem_of_fileKeyFor hpath).2
  exact ⟨_, mem_edges he (by rw [overlayEdgeView, hsrc, hdst]), rfl, rfl⟩

variable {g : LiveGraph}

lemma count_uncaptured {file specifier : String} (h : ¬ g.Captured file specifier) :
    (g.liveImportView none).observations.countP (fun v => v.sourceFile = file ∧ v.rawSpecifier = specifier) =
      (g.residentIrs.flatMap PartitionIr.importObservations).countP (fun o =>
        o.resolution ≠ .staticResolved ∧ o.sourceFile = file ∧ o.rawSpecifier = specifier) := by
  have hplaced : g.residentIrs.flatMap PartitionIr.importObservations = g.placedObservations.map Prod.snd := by
    simp [placedObservations, List.map_flatMap, Function.comp_def]
  rw [observations_perm.countP_eq, hplaced, List.countP_map, List.countP_map, List.countP_filter]
  refine List.countP_congr ?_
  rintro ⟨part, o⟩ -
  simp only [Function.comp_apply, Bool.and_eq_true, decide_eq_true_eq, Bool.not_eq_true', Bool.eq_false_iff,
    Ne, classIn_isEdge]
  constructor
  · rintro ⟨⟨rfl, rfl⟩, hclass⟩
    exact ⟨fun hr => hclass (Or.inl hr), rfl, rfl⟩
  · rintro ⟨hr, rfl, rfl⟩
    exact ⟨⟨rfl, rfl⟩, by rintro (hr' | ⟨hcaptured, -⟩) <;> contradiction⟩

lemma summary_iff (c : ObservationClass) (hc : c.isEdge = false) :
    c.flag g.moduleCycleLiveState.observationClasses = true ↔
      ∃ v ∈ (g.liveImportView none).observations, v.className = c.asStr := by
  have hdefault : c.flag .default = false := by cases c <;> rfl
  simp only [moduleCycleLiveState, flag_foldl, hdefault, Bool.false_eq_true, false_or, hc, true_and,
    mem_observations, classifiedObservations_eq, List.mem_map]
  constructor
  · rintro ⟨-, ⟨p, hp, rfl⟩, rfl⟩
    exact ⟨g.row p, ⟨p, hp, hc, rfl⟩, rfl⟩
  · rintro ⟨-, ⟨p, hp, -, rfl⟩, hname⟩
    exact ⟨_, ⟨p, hp, rfl⟩, ObservationClass.asStr_injective hname⟩

/-- The view of a reachable graph separates edges from observations unless the overlay has an edge for an
asset or for an import of a computed name, which is then listed a second time. -/
theorem import_view_separates_iff (ms : List Mutation) :
    (after ms).Separates ↔ ∀ p ∈ (after ms).placedObservations,
      Shadowed p.2 → ¬ (after ms).Captured p.2.sourceFile p.2.rawSpecifier := by
  constructor
  · intro hsep p hp hshadow hcaptured
    have hclass : ((after ms).classIn p.1 p.2).isEdge = false := by
      rw [Bool.eq_false_iff, Ne, classIn_isEdge]
      rintro (hr | ⟨-, hnot⟩)
      · exact hshadow.not_staticResolved hr
      · exact hnot hshadow
    exact (hsep.captured _ _ hcaptured).2 _ (mem_observations.mpr ⟨p, hp, hclass, rfl⟩) ⟨rfl, rfl⟩
  · intro hcond
    refine ⟨?_, fun file specifier => count_uncaptured, summary_iff⟩
    intro file specifier hcaptured
    refine ⟨edge_of_captured hcaptured, ?_⟩
    rintro v hv ⟨rfl, rfl⟩
    obtain ⟨p, hp, hclass, rfl⟩ := mem_observations.mp hv
    rw [Bool.eq_false_iff, Ne, classIn_isEdge] at hclass
    exact hclass (Or.inr ⟨hcaptured, fun hshadow => hcond p hp hshadow hcaptured⟩)

namespace Fixture

open Ir.Fixture

def styles : ImportObservation := ⟨"src/a.ts", "./foo.css", .staticUnresolved, false, false, true, false⟩

def web : PartitionIr where
  partition := part "web"
  nodes := [node "r:src/a.ts:FILE" .astFileScope, node "r:src/foo.css.d.ts:FILE" .astFileScope]
  edges := []
  importObservations := [styles]

end Fixture

open Fixture in
/-- The import of the stylesheet is an edge to its declaration file and an observation as well. -/
theorem stylesheet_edge_and_observation : ¬ (after [load "web" web]).Separates := by
  intro hsep
  have hcaptured : (after [load "web" web]).Captured "src/a.ts" "./foo.css" :=
    ⟨⟨"r:src/a.ts:FILE", "r:src/foo.css.d.ts:FILE", .astImportFileInventoryResolved, "./foo.css",
      "src/foo.css.d.ts"⟩, by decide, by decide, rfl⟩
  have hlisted : (⟨"src/a.ts", "./foo.css", "AssetNonRelevant", false⟩ : ImportObservationView) ∈
      ((after [load "web" web]).liveImportView none).observations :=
    mem_observations.mpr ⟨(web.partition, styles), List.mem_singleton.mpr rfl, by decide, by decide⟩
  exact (hsep.captured _ _ hcaptured).2 _ hlisted ⟨rfl, rfl⟩

end Separation

end RepoGraph.LiveGraph
