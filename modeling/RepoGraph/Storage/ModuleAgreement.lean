import RepoGraph.Storage.ModuleParity

/-! When the stored module edges and the edges of the view of certain imports agree. -/

namespace RepoGraph.Storage

open Lib Indexer Classification

def GraphTables.moduleImports (t : GraphTables) (snapshotUid : String) :
    List (String × String × Option TypeOnlyDisposition) :=
  (t.joinedEdges snapshotUid "IMPORTS").filterMap fun (e, source, target) =>
    if source.kind = "MODULE" ∧ target.kind = "MODULE" then some (e.sourceNodeUid, e.targetNodeUid, e.isTypeOnly)
    else none

namespace IndexRun

variable {run : IndexRun} {ext : Externals} {index : ResolverIndex} {bindings : Option ImportBindingsByFile}
  {decls : RustModDeclsByFile}

section Persisted

def moduleImport (t : GraphTables) (snapshotUid : String) (e : EdgeRow) :
    Option (String × String × Option TypeOnlyDisposition) :=
  if e.snapshotUid = snapshotUid ∧ e.edgeType = "IMPORTS" then
    (t.node? e.sourceNodeUid).bind fun source => (t.node? e.targetNodeUid).bind fun target =>
      if source.kind = "MODULE" ∧ target.kind = "MODULE" then some (e.sourceNodeUid, e.targetNodeUid, e.isTypeOnly)
      else none
  else none

lemma moduleImports_eq (t : GraphTables) (snapshotUid : String) :
    t.moduleImports snapshotUid = t.edges.filterMap (moduleImport t snapshotUid) := by
  rw [GraphTables.moduleImports, GraphTables.joinedEdges, List.filterMap_filterMap, List.filterMap_filter]
  refine List.filterMap_congr fun e _ => ?_
  by_cases he : e.snapshotUid = snapshotUid ∧ e.edgeType = "IMPORTS"
  · rw [if_pos (by simpa using he), moduleImport, if_pos he]
    cases t.node? e.sourceNodeUid with
    | none => rfl
    | some source =>
      cases t.node? e.targetNodeUid with
      | none => rfl
      | some target => rfl
  · rw [if_neg (by simpa using he), moduleImport, if_neg he]

variable (run ext index bindings decls) in
def importRow (r : ResolvedEdge) : Option (String × String × Option TypeOnlyDisposition) :=
  moduleImport (run.tables ext index bindings decls) run.snapshotUid
    (stampRow (run.moduleEdges ext index bindings decls).typeOnlyUpdates (.ofResolved r))

lemma importRow_eq (r : ResolvedEdge) : run.importRow ext index bindings decls r =
    if r.snapshotUid = run.snapshotUid ∧ serializeEdgeType r.edgeType = "IMPORTS" then
      ((run.tables ext index bindings decls).node? r.sourceNodeUid).bind fun source =>
        ((run.tables ext index bindings decls).node? r.targetNodeUid).bind fun target =>
          if source.kind = "MODULE" ∧ target.kind = "MODULE" then
            some (draftOf (run.moduleEdges ext index bindings decls).typeOnlyUpdates r).2
          else none
    else none := by
  rw [importRow, moduleImport, draftOf, stampRow_eq]
  rfl

lemma importRow_resolved (hfiles : run.BetweenFiles ext index bindings decls) :
    ∀ r ∈ (run.resolution ext index bindings decls).resolved, run.importRow ext index bindings decls r = none := by
  intro r hr
  rw [importRow_eq]
  by_cases himports : serializeEdgeType r.edgeType = "IMPORTS"
  · obtain ⟨⟨n, hn, hnuid, hkind⟩, -⟩ := hfiles r hr (serialize_eq_imports.mp himports)
    have hnot : (NodeRow.ofResolver run.snapshotUid n).kind ≠ "MODULE" := by
      change n.kind ≠ "MODULE"
      rw [hkind]
      decide
    rw [node?_tables.mpr ⟨n, hn, hnuid, rfl⟩, Option.bind_some]
    cases (run.tables ext index bindings decls).node? r.targetNodeUid <;> simp [hnot]
  · rw [if_neg fun h => himports h.2]

def importDraft (draft : Draft) : Option (String × String × Option TypeOnlyDisposition) :=
  if draft.1 = .imports then some draft.2 else none

lemma importRow_made : ∀ r ∈ (run.moduleEdges ext index bindings decls).edges,
    run.importRow ext index bindings decls r =
      importDraft (draftOf (run.moduleEdges ext index bindings decls).typeOnlyUpdates r) := by
  intro r hr
  have hsnapshot : r.snapshotUid = run.snapshotUid :=
    run.storedEdges_snapshotUid ext index bindings decls (List.mem_append_right _ hr)
  rw [importRow_eq]
  by_cases himports : r.edgeType = .imports
  · have hdraft := mem_moduleEdges.mp (List.mem_map_of_mem (f := draftOf _) hr)
    rcases hdraft with howns | hdraft
    · obtain ⟨_, _, -, he⟩ := mem_ownsEdges.mp howns
      exact absurd (himports.symm.trans (Prod.mk.inj he).1) (by decide)
    · obtain ⟨⟨m, hm, hmuid, hkind, -⟩, ⟨m', hm', hmuid', hkind', -⟩, -⟩ := module_nodes_of_importsEdges hdraft
      have hsource : m.nodeUid = r.sourceNodeUid := hmuid
      have htarget : m'.nodeUid = r.targetNodeUid := hmuid'
      rw [if_pos ⟨hsnapshot, serialize_eq_imports.mpr himports⟩, node?_tables.mpr ⟨m, hm, hsource, rfl⟩,
        node?_tables.mpr ⟨m', hm', htarget, rfl⟩, Option.bind_some, Option.bind_some, if_pos ⟨hkind, hkind'⟩]
      exact (if_pos himports).symm
  · rw [if_neg fun h => himports (serialize_eq_imports.mp h.2)]
    exact (if_neg himports).symm

lemma moduleImports_tables (hfiles : run.BetweenFiles ext index bindings decls) :
    (run.tables ext index bindings decls).moduleImports run.snapshotUid =
      (run.moduleIndex.importsEdges (run.resolution ext index bindings decls).resolvedImportPairs).map (·.2) := by
  set pairs := (run.resolution ext index bindings decls).resolvedImportPairs with hpairs
  set updates := (run.moduleEdges ext index bindings decls).typeOnlyUpdates with hupdates
  have hrows : (run.tables ext index bindings decls).moduleImports run.snapshotUid =
      (run.storedEdges ext index bindings decls).filterMap (run.importRow ext index bindings decls) := by
    rw [moduleImports_eq, tables, List.filterMap_map]
    rfl
  have howns : (run.moduleIndex.fileToModule.entries.filterMap run.moduleIndex.ownsEdge).filterMap importDraft =
      [] := by
    rw [List.filterMap_eq_nil_iff]
    intro draft hdraft
    obtain ⟨_, _, -, rfl⟩ := mem_ownsEdges.mp hdraft
    rfl
  have himports : (run.moduleIndex.importsEdges pairs).filterMap importDraft =
      (run.moduleIndex.importsEdges pairs).map (·.2) := by
    rw [← List.filterMap_eq_map]
    refine List.filterMap_congr fun draft hdraft => ?_
    exact if_pos (mem_importsEdges.mp hdraft).1
  calc (run.tables ext index bindings decls).moduleImports run.snapshotUid
      = (run.moduleEdges ext index bindings decls).edges.filterMap (run.importRow ext index bindings decls) := by
        rw [hrows, storedEdges, List.filterMap_append, List.filterMap_eq_nil_iff.mpr (importRow_resolved hfiles),
          List.nil_append]
    _ = ((run.moduleEdges ext index bindings decls).edges.map (draftOf updates)).filterMap importDraft := by
        rw [List.filterMap_map]
        exact List.filterMap_congr importRow_made
    _ = (run.moduleIndex.fileToModule.entries.filterMap run.moduleIndex.ownsEdge ++
          run.moduleIndex.importsEdges pairs).filterMap importDraft := by
        rw [map_draftOf_moduleEdges]
    _ = (run.moduleIndex.importsEdges pairs).map (·.2) := by
        rw [List.filterMap_append, howns, List.nil_append, himports]

end Persisted

section Agreement

lemma aggregates_agree_iff {κ : Type} {fed kept : κ → List (Option TypeOnlyDisposition)}
    (hsub : ∀ key, ∀ d ∈ kept key, d ∈ fed key) :
    (∀ key typeOnly, (fed key ≠ [] ∧ typeOnly = aggregateModuleEdgeTypeOnly (fed key)) ↔
      (kept key ≠ [] ∧ typeOnly = aggregateModuleEdgeTypeOnly (kept key))) ↔
      ∀ key, ∀ d ∈ fed key, ∃ d' ∈ kept key, strength d ≤ strength d' := by
  constructor
  · intro h key d hd
    obtain ⟨hne, he⟩ := (h key _).mp ⟨List.ne_nil_of_mem hd, rfl⟩
    exact (aggregate_eq_iff (hsub key) hne).mp he d hd
  · intro h key typeOnly
    have hsame : fed key ≠ [] → kept key ≠ [] ∧
        aggregateModuleEdgeTypeOnly (fed key) = aggregateModuleEdgeTypeOnly (kept key) := by
      intro hne
      obtain ⟨d, hd⟩ := List.exists_mem_of_ne_nil _ hne
      obtain ⟨d', hd', -⟩ := h key d hd
      exact ⟨List.ne_nil_of_mem hd', (aggregate_eq_iff (hsub key) (List.ne_nil_of_mem hd')).mpr (h key)⟩
    constructor
    · rintro ⟨hne, rfl⟩
      exact hsame hne
    · rintro ⟨hne, rfl⟩
      obtain ⟨d, hd⟩ := List.exists_mem_of_ne_nil _ hne
      have hfed := List.ne_nil_of_mem (hsub key d hd)
      exact ⟨hfed, (hsame hfed).2.symm⟩

/-- Every inferred import that is bound with its own resolution, and so feeds the module graph, is matched by a
certain import between the same two modules that is as strong. -/
def Matched (run : IndexRun) (ext : Externals) (index : ResolverIndex) (bindings : Option ImportBindingsByFile)
    (decls : RustModDeclsByFile) : Prop :=
  ∀ e ∈ run.edges, ∀ pair, copiedPair ext index bindings decls e pair →
    ∀ key, run.moduleIndex.crossing pair = some key →
      ∃ r ∈ (run.resolution ext index bindings decls).resolved, r.isCertainImport = true ∧
        run.moduleIndex.crossing (storedPair ext r) = some key ∧
        strength pair.2.2 ≤ strength (ext.typeOnlyDispositionOf r.metadataJson)

/-- The stored module edges are one for each ordered pair of distinct modules, and they are the edges of the view
of certain imports exactly when the inferred imports that feed them are matched. -/
theorem moduleImports_perm_viewEdges_iff (run : IndexRun) (ext : Externals) (index : ResolverIndex)
    (bindings : Option ImportBindingsByFile) (decls : RustModDeclsByFile)
    (hread : ReadsBack ext index bindings decls run.edges) (hfiles : run.BetweenFiles ext index bindings decls) :
    ∃ graph, directoryModuleGraph ext (run.tables ext index bindings decls) run.snapshotUid = .ok graph ∧
      (((run.tables ext index bindings decls).moduleImports run.snapshotUid).map fun edge =>
        (edge.1, edge.2.1)).Nodup ∧
      (∀ edge ∈ (run.tables ext index bindings decls).moduleImports run.snapshotUid, edge.1 ≠ edge.2.1) ∧
      (((run.tables ext index bindings decls).moduleImports run.snapshotUid).Perm
        (graph.viewEdges .certainWithTests) ↔ run.Matched ext index bindings decls) := by
  obtain ⟨graph, hgraph, hkept⟩ := directoryModuleGraph_tables hfiles
  set pairs := (run.resolution ext index bindings decls).resolvedImportPairs with hpairs
  have hnodup : (((run.moduleIndex.importsEdges pairs).map (·.2)).map fun edge => (edge.1, edge.2.1)).Nodup := by
    rw [List.map_map]
    exact ModuleIndex.nodup_importsEdges run.nodeUids run.stableKeys pairs
  rw [moduleImports_tables hfiles]
  refine ⟨graph, hgraph, hnodup, ?_, ?_⟩
  · intro edge hedge
    obtain ⟨draft, hdraft, rfl⟩ := List.mem_map.mp hedge
    exact (module_nodes_of_importsEdges hdraft).2.2
  · have hfed : ∀ key d, d ∈ run.moduleIndex.fed pairs key ↔
        (∃ r ∈ (run.resolution ext index bindings decls).resolved, r.isCertainImport = true ∧
          run.moduleIndex.crossing (storedPair ext r) = some key ∧ d = ext.typeOnlyDispositionOf r.metadataJson) ∨
        ∃ e ∈ run.edges, ∃ pair, copiedPair ext index bindings decls e pair ∧
          run.moduleIndex.crossing pair = some key ∧ d = pair.2.2 := by
      intro key d
      simp only [ModuleIndex.fed, List.mem_map, List.mem_filter, decide_eq_true_eq]
      constructor
      · rintro ⟨pair, ⟨hpair, hcross⟩, rfl⟩
        rcases (mem_resolvedImportPairs hread).mp hpair with ⟨r, hr, hcertain, rfl⟩ | ⟨e, he, hcopied⟩
        · exact Or.inl ⟨r, hr, hcertain, hcross, rfl⟩
        · exact Or.inr ⟨e, he, pair, hcopied, hcross, rfl⟩
      · rintro (⟨r, hr, hcertain, hcross, rfl⟩ | ⟨e, he, pair, hcopied, hcross, rfl⟩)
        · exact ⟨_, ⟨(mem_resolvedImportPairs hread).mpr (Or.inl ⟨r, hr, hcertain, rfl⟩), hcross⟩, rfl⟩
        · exact ⟨pair, ⟨(mem_resolvedImportPairs hread).mpr (Or.inr ⟨e, he, hcopied⟩), hcross⟩, rfl⟩
    set kept : String × String → List (Option TypeOnlyDisposition) := fun key =>
      ((graph.relations[key]?.getD .empty).admitted .certainWithTests).map (·.2) with hkeptDef
    have hsub : ∀ key, ∀ d ∈ kept key, d ∈ run.moduleIndex.fed pairs key := fun key d hd =>
      (hfed key d).mpr (Or.inl ((hkept key d).mp hd))
    have hview : ∀ u v typeOnly, (u, v, typeOnly) ∈ graph.viewEdges .certainWithTests ↔
        kept (u, v) ≠ [] ∧ typeOnly = aggregateModuleEdgeTypeOnly (kept (u, v)) := by
      intro u v typeOnly
      rw [DirectoryModuleGraph.mem_viewEdges]
      cases hrel : graph.relations[(u, v)]? with
      | none => simp [hkeptDef, hrel, DirectoryRelation.empty, DirectoryRelation.admitted]
      | some rel => simp [hkeptDef, hrel]
    rw [List.perm_ext_iff_of_nodup (.of_map _ hnodup) (.of_map _ (graph.nodup_viewEdges .certainWithTests))]
    have hmem : (∀ edge, edge ∈ (run.moduleIndex.importsEdges pairs).map (·.2) ↔
        edge ∈ graph.viewEdges .certainWithTests) ↔
        ∀ key typeOnly, (run.moduleIndex.fed pairs key ≠ [] ∧
          typeOnly = aggregateModuleEdgeTypeOnly (run.moduleIndex.fed pairs key)) ↔
          (kept key ≠ [] ∧ typeOnly = aggregateModuleEdgeTypeOnly (kept key)) := by
      have hstored : ∀ u v typeOnly, (u, v, typeOnly) ∈ (run.moduleIndex.importsEdges pairs).map (·.2) ↔
          run.moduleIndex.fed pairs (u, v) ≠ [] ∧
            typeOnly = aggregateModuleEdgeTypeOnly (run.moduleIndex.fed pairs (u, v)) := by
        intro u v typeOnly
        rw [List.mem_map]
        constructor
        · rintro ⟨⟨_, _, _, _⟩, hdraft, he⟩
          obtain ⟨rfl, rfl, rfl⟩ := he
          exact (mem_importsEdges.mp hdraft).2
        · intro h
          exact ⟨(.imports, u, v, typeOnly), mem_importsEdges.mpr ⟨rfl, h⟩, rfl⟩
      constructor
      · rintro h ⟨u, v⟩ typeOnly
        rw [← hstored, ← hview]
        exact h (u, v, typeOnly)
      · rintro h ⟨u, v, typeOnly⟩
        rw [hstored, hview]
        exact h (u, v) typeOnly
    rw [hmem, aggregates_agree_iff hsub]
    constructor
    · intro h e he pair hcopied key hcross
      obtain ⟨d', hd', hle⟩ := h key _ ((hfed key _).mpr (Or.inr ⟨e, he, pair, hcopied, hcross, rfl⟩))
      obtain ⟨r, hr, hcertain, hcrossing, rfl⟩ := (hkept key d').mp hd'
      exact ⟨r, hr, hcertain, hcrossing, hle⟩
    · intro h key d hd
      rcases (hfed key d).mp hd with hcertain | ⟨e, he, pair, hcopied, hcross, rfl⟩
      · exact ⟨d, (hkept key d).mpr hcertain, le_rfl⟩
      · obtain ⟨r, hr, hcertain, hcrossing, hle⟩ := h e he pair hcopied key hcross
        exact ⟨_, (hkept key _).mpr ⟨r, hr, hcertain, hcrossing, rfl⟩, hle⟩

end Agreement

section Samples

def nodeSample (nodeUid stableKey kind path : String) (fileUid : Option String) : ResolverNode where
  nodeUid := nodeUid
  stableKey := stableKey
  name := path
  qualifiedName := some path
  kind := kind
  subtype := none
  fileUid := fileUid
  forwardDecl := false
  superclasses := []

def fileSample (nodeUid path : String) : ResolverNode :=
  nodeSample nodeUid (fileKey "r" path) "FILE" path (some s!"r:{path}")

def moduleSample (nodeUid dir : String) : ResolverNode := nodeSample nodeUid (moduleKey "r" dir) "MODULE" dir none

def includeSample (resolution : Resolution) (targetKey : String) : ExtractedEdge where
  edgeUid := targetKey
  snapshotUid := "s"
  repoUid := "r"
  sourceNodeUid := "fx"
  targetKey := targetKey
  edgeType := .imports
  resolution := resolution
  extractor := "c-core:0.1.0"
  location := none
  metadataJson := none

def uuidSample (i : ℕ) : String := .ofList (List.replicate i 'u')

def runSample (edges : List ExtractedEdge) (h : ∀ e ∈ edges, e.snapshotUid = "s" ∧ e.edgeType = .imports) :
    IndexRun where
  repoUid := "r"
  snapshotUid := "s"
  nodes := [fileSample "fx" "a/x.c", fileSample "fy" "lib/b/y.h", moduleSample "ma" "a", moduleSample "mb" "lib/b"]
  files := []
  edges := edges
  uuid := uuidSample
  nodeUids := by decide
  stableKeys := by decide
  fileUids := by decide
  fileNodes := by
    simp only [List.mem_cons, List.not_mem_nil, or_false, forall_eq_or_imp, forall_eq]
    refine ⟨fun _ => ⟨"a/x.c", rfl, rfl, rfl⟩, fun _ => ⟨"lib/b/y.h", rfl, rfl, rfl⟩, ?_, ?_⟩
    all_goals
      intro h
      exact absurd h (by decide)
  moduleNodes := by
    have hfile : ∀ path dir, fileKey "r" path ≠ moduleKey "r" dir := by
      intro path dir he
      have hchars := congrArg (fun key : String => key.toList.reverse[2]?) he
      simp only [fileKey, moduleKey, String.toList_append, List.reverse_append] at hchars
      cases hchars
    simp only [List.mem_cons, List.not_mem_nil, or_false, forall_eq_or_imp, forall_eq]
    refine ⟨fun dir h => absurd h (hfile _ dir), fun dir h => absurd h (hfile _ dir), fun _ _ => ⟨rfl, rfl⟩,
      fun _ _ => ⟨rfl, rfl⟩⟩
  ownSnapshot e he := (h e he).1
  noOwns e he := by
    rw [(h e he).2]
    decide
  uuidInjective i j h := by
    have hlen := congrArg (fun s : String => s.toList.length) h
    simpa [uuidSample] using hlen

def indexSample : ResolverIndex where
  nodesByStableKey := .ofPairs [("r:a/x.c:FILE", fileSample "fx" "a/x.c"),
    ("r:lib/b/y.h:FILE", fileSample "fy" "lib/b/y.h")]
  nodesByName := ∅
  nodesByQualifiedName := ∅
  nodesByUid := ∅
  nodeUidToFileUid := .ofPairs [("fx", "r:a/x.c"), ("fy", "r:lib/b/y.h")]
  fileResolution := ∅
  perFileIncludeResolution := ∅
  includeResolver := some (buildIncludeResolutionMap ["a/x.c", "lib/b/y.h"] "r" ⟨[], []⟩)
  rustCrateRoots := ∅
  javaSuffixIndex := ∅
  npmWorkspacePackages := ∅
  tsconfigPaths := ⟨∅, default⟩

def inferredRun : IndexRun := runSample [includeSample .inferred "r:lib/b/y.h:FILE"] (by decide)

lemma betweenFiles_sample {edges : List ExtractedEdge}
    {h : ∀ e ∈ edges, e.snapshotUid = "s" ∧ e.edgeType = .imports} {ext : Externals}
    (hends : ∀ r ∈ ((runSample edges h).resolution ext indexSample none ∅).resolved,
      r.sourceNodeUid = "fx" ∧ r.targetNodeUid = "fy") :
    (runSample edges h).BetweenFiles ext indexSample none ∅ := by
  intro r hr _
  obtain ⟨hsource, htarget⟩ := hends r hr
  exact ⟨⟨fileSample "fx" "a/x.c", by simp [runSample], hsource.symm, rfl⟩,
    fileSample "fy" "lib/b/y.h", by simp [runSample], htarget.symm, rfl⟩

/-- The inferred include makes a stored module edge that the view of certain imports does not have. -/
theorem moduleImports_not_viewEdges :
    inferredRun.BetweenFiles noExternals indexSample none ∅ ∧
      ∃ graph, directoryModuleGraph noExternals (inferredRun.tables noExternals indexSample none ∅) "s" =
        .ok graph ∧
        (inferredRun.tables noExternals indexSample none ∅).moduleImports "s" = [("ma", "mb", none)] ∧
        graph.viewEdges .certainWithTests = [] := by
  have hview : (directoryModuleGraph noExternals (inferredRun.tables noExternals indexSample none ∅) "s").map
      (·.viewEdges .certainWithTests) = .ok [] := by
    decide +kernel
  refine ⟨betweenFiles_sample (by decide), ?_⟩
  obtain ⟨graph, hgraph, hempty⟩ := map_eq_ok.mp hview
  exact ⟨graph, hgraph, by decide +kernel, hempty⟩

def printedCarrier : String := "\x7b\"basis\":\"unique_suffix\",\"candidates\":[\"r:lib/b/y.h:FILE\"]\x7d"

def carrierFields (basis candidate : String) : Json.Fields :=
  [("basis", .string basis), ("candidates", .array [.string candidate])]

def carrierExternals : Externals where
  fromStr text :=
    if text = printedCarrier then some (.object (carrierFields "unique_suffix" "r:lib/b/y.h:FILE")) else none
  toString
    | .object [("basis", .string basis), ("candidates", .array [.string candidate])] =>
      if basis = "unique_suffix" ∧ candidate = "r:lib/b/y.h:FILE" then printedCarrier else "null"
    | _ => "null"
  isAlphabetic := Char.isAlpha
  isNumeric := Char.isDigit

def matchedRun : IndexRun :=
  runSample [includeSample .inferred "r:lib/b/y.h:FILE", includeSample .static "b/y.h"] (by decide)

lemma readsBack_matchedRun : ReadsBack carrierExternals indexSample none ∅ matchedRun.edges := by
  intro e he carrier basis candidates hcarrier hbound
  have hedges : e = includeSample .inferred "r:lib/b/y.h:FILE" ∨ e = includeSample .static "b/y.h" := by
    simpa [matchedRun, runSample] using he
  rcases hedges with rfl | rfl
  · have hnone : (resolveTarget carrierExternals indexSample none ∅
        (includeSample .inferred "r:lib/b/y.h:FILE")).boundText = none := by
      decide +kernel
    exact absurd (hnone.symm.trans hbound) (by simp)
  · have hprinted : (resolveTarget carrierExternals indexSample none ∅
        (includeSample .static "b/y.h")).boundText = some printedCarrier := by
      decide +kernel
    have htext : withBasis carrierExternals carrier basis candidates = printedCarrier :=
      Option.some.inj (hbound.symm.trans hprinted)
    obtain rfl : carrier = [] := (Option.some.inj hcarrier).symm
    have hnull : printedCarrier ≠ "null" := by decide
    cases candidates with
    | nil => exact absurd htext hnull.symm
    | cons candidate rest =>
      cases rest with
      | cons _ _ => exact absurd htext hnull.symm
      | nil =>
        by_cases hfields : basis = "unique_suffix" ∧ candidate = "r:lib/b/y.h:FILE"
        · obtain ⟨rfl, rfl⟩ := hfields
          rw [htext]
          rfl
        · have hwritten : withBasis carrierExternals [] basis [candidate] = "null" := by
            rw [withBasis, Json.insert, Json.insert, if_neg (by decide), if_pos (by decide)]
            exact if_neg hfields
          exact absurd (htext.symm.trans hwritten) hnull

/-- Where an include that is certain joins the same two modules, the stored module edges are those of the view. -/
theorem moduleImports_perm_viewEdges_matched :
    ∃ graph, directoryModuleGraph carrierExternals (matchedRun.tables carrierExternals indexSample none ∅) "s" =
        .ok graph ∧
      ((matchedRun.tables carrierExternals indexSample none ∅).moduleImports "s").Perm
        (graph.viewEdges .certainWithTests) := by
  obtain ⟨graph, hgraph, -, -, hiff⟩ :=
    moduleImports_perm_viewEdges_iff matchedRun carrierExternals indexSample none ∅
    readsBack_matchedRun (betweenFiles_sample (by decide +kernel))
  refine ⟨graph, hgraph, hiff.mpr ?_⟩
  intro e he pair hcopied key hcross
  have hedges : e = includeSample .inferred "r:lib/b/y.h:FILE" ∨ e = includeSample .static "b/y.h" := by
    simpa [matchedRun, runSample] using he
  rcases hedges with rfl | rfl
  · obtain ⟨-, -, uid, htarget, rfl⟩ := hcopied
    have hresolved : resolveTarget carrierExternals indexSample none ∅
        (includeSample .inferred "r:lib/b/y.h:FILE") = .resolved "fy" := by
      decide +kernel
    obtain rfl : "fy" = uid := TargetResolution.resolved.inj (hresolved.symm.trans htarget)
    have hkey : matchedRun.moduleIndex.crossing ("fx", "fy", none) = some ("ma", "mb") := by
      decide +kernel
    obtain rfl : ("ma", "mb") = key := Option.some.inj (hkey.symm.trans hcross)
    decide +kernel
  · exact absurd hcopied.2.1 (by decide)

end Samples

end IndexRun

end RepoGraph.Storage
