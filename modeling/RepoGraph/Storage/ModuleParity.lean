import RepoGraph.Indexer.ModulePairs
import RepoGraph.Storage.DirectoryCycles

/-! The two derivations of the module import graph: the edges and stamps that an index run stores from the
pairs it makes, and the edges of the view of certain imports, read back from the stored rows. -/

namespace RepoGraph.Storage

open Lib Indexer Classification

section Rows

def serializeEdgeType : EdgeType → String
  | .imports => "IMPORTS"
  | .calls => "CALLS"
  | .implements => "IMPLEMENTS"
  | .instantiates => "INSTANTIATES"
  | .reads => "READS"
  | .writes => "WRITES"
  | .accesses => "ACCESSES"
  | .emits => "EMITS"
  | .consumes => "CONSUMES"
  | .routesTo => "ROUTES_TO"
  | .registeredBy => "REGISTERED_BY"
  | .gatedBy => "GATED_BY"
  | .dependsOn => "DEPENDS_ON"
  | .owns => "OWNS"
  | .testedBy => "TESTED_BY"
  | .covers => "COVERS"
  | .throws => "THROWS"
  | .catches => "CATCHES"
  | .transitionsTo => "TRANSITIONS_TO"

def serializeResolution : Resolution → String
  | .static => "static"
  | .dynamic => "dynamic"
  | .inferred => "inferred"

def EdgeRow.ofResolved (e : ResolvedEdge) : EdgeRow where
  edgeUid := e.edgeUid
  snapshotUid := e.snapshotUid
  sourceNodeUid := e.sourceNodeUid
  targetNodeUid := e.targetNodeUid
  edgeType := serializeEdgeType e.edgeType
  resolution := serializeResolution e.resolution
  metadataJson := e.metadataJson
  isTypeOnly := none

def stampRow (updates : List (String × TypeOnlyDisposition)) (row : EdgeRow) : EdgeRow :=
  updates.foldl (fun row u => if row.edgeUid = u.1 then { row with isTypeOnly := some u.2 } else row) row

def NodeRow.ofResolver (snapshotUid : String) (n : ResolverNode) : NodeRow where
  nodeUid := n.nodeUid
  snapshotUid := snapshotUid
  kind := n.kind
  name := n.name
  qualifiedName := n.qualifiedName
  fileUid := n.fileUid

variable {updates updates' : List (String × TypeOnlyDisposition)} {row : EdgeRow}

lemma stampRow_append : stampRow (updates ++ updates') row = stampRow updates' (stampRow updates row) :=
  List.foldl_append

lemma stampRow_eq : stampRow updates row = { row with isTypeOnly := (stampRow updates row).isTypeOnly } := by
  induction updates generalizing row with
  | nil => rfl
  | cons u updates ih =>
    rw [stampRow, List.foldl_cons]
    split
    · exact ih
    · exact ih

lemma stampRow_of_not_mem (h : ∀ u ∈ updates, u.1 ≠ row.edgeUid) : stampRow updates row = row := by
  induction updates with
  | nil => rfl
  | cons u updates ih =>
    rw [stampRow, List.foldl_cons, if_neg (h u List.mem_cons_self).symm]
    exact ih fun u' hu' => h u' (List.mem_cons_of_mem _ hu')

end Rows

section Stamps

variable {uuid : ℕ → String} {snapshotUid repoUid : String}

abbrev Draft := EdgeType × String × String × Option TypeOnlyDisposition

def draftOf (updates : List (String × TypeOnlyDisposition)) (e : ResolvedEdge) : Draft :=
  (e.edgeType, e.sourceNodeUid, e.targetNodeUid, (stampRow updates (.ofResolved e)).isTypeOnly)

structure Numbered (uuid : ℕ → String) (out : ModuleEdges) : Prop where
  edges : ∀ e ∈ out.edges, ∃ i < out.edges.length, e.edgeUid = uuid i
  updates : ∀ u ∈ out.typeOnlyUpdates, ∃ i < out.edges.length, u.1 = uuid i

lemma Numbered.push {out : ModuleEdges} (h : Numbered uuid out) (draft : Draft) :
    Numbered uuid (out.push uuid snapshotUid repoUid draft) := by
  have hlen : (out.push uuid snapshotUid repoUid draft).edges.length = out.edges.length + 1 := by
    simp [ModuleEdges.push]
  constructor
  · intro e he
    rcases List.mem_append.mp he with he | he
    · obtain ⟨i, hi, hu⟩ := h.edges e he
      exact ⟨i, by omega, hu⟩
    · exact ⟨out.edges.length, by omega, by rw [List.mem_singleton.mp he]⟩
  · intro u hu
    rcases List.mem_append.mp hu with hu | hu
    · obtain ⟨i, hi, hui⟩ := h.updates u hu
      exact ⟨i, by omega, hui⟩
    · obtain ⟨_, -, rfl⟩ := List.mem_map.mp hu
      exact ⟨out.edges.length, by omega, rfl⟩

variable (snapshotUid repoUid) in
lemma map_draftOf_push (huuid : Function.Injective uuid) {out : ModuleEdges} (h : Numbered uuid out)
    (draft : Draft) :
    let out' := out.push uuid snapshotUid repoUid draft
    out'.edges.map (draftOf out'.typeOnlyUpdates) = out.edges.map (draftOf out.typeOnlyUpdates) ++ [draft] := by
  obtain ⟨edgeType, source, target, aggregate⟩ := draft
  have hother : ∀ i < out.edges.length, uuid i ≠ uuid out.edges.length := by
    intro i hi he
    have := huuid he
    omega
  simp only [ModuleEdges.push, List.map_append, List.map_singleton]
  congr 1
  · refine List.map_congr_left fun e he => ?_
    obtain ⟨i, hi, hu⟩ := h.edges e he
    rw [draftOf, draftOf, stampRow_append, stampRow_of_not_mem]
    intro u hmem
    obtain ⟨d, -, rfl⟩ := List.mem_map.mp hmem
    rw [stampRow_eq]
    exact fun heq => hother i hi (hu ▸ heq.symm)
  · rw [draftOf, stampRow_append, @stampRow_of_not_mem out.typeOnlyUpdates]
    · cases aggregate with
      | none => rfl
      | some d => simp [stampRow, EdgeRow.ofResolved]
    · intro u hu
      obtain ⟨i, hi, hui⟩ := h.updates u hu
      rw [hui]
      exact hother i hi

variable (snapshotUid repoUid) in
lemma map_draftOf_foldl (huuid : Function.Injective uuid) (drafts : List Draft) {out : ModuleEdges}
    (h : Numbered uuid out) :
    let out' := drafts.foldl (ModuleEdges.push uuid snapshotUid repoUid) out
    out'.edges.map (draftOf out'.typeOnlyUpdates) = out.edges.map (draftOf out.typeOnlyUpdates) ++ drafts := by
  induction drafts generalizing out with
  | nil => simp
  | cons draft drafts ih =>
    have hpush := map_draftOf_push snapshotUid repoUid huuid h draft
    rw [List.foldl_cons]
    dsimp only at hpush ih ⊢
    rw [ih (h.push draft), hpush, List.append_assoc]
    rfl

def IsModuleEdge (snapshotUid : String) (e : ResolvedEdge) : Prop :=
  e.snapshotUid = snapshotUid ∧ e.resolution = .static ∧ e.metadataJson = none

lemma isModuleEdge_foldl (drafts : List Draft) {out : ModuleEdges}
    (h : ∀ e ∈ out.edges, IsModuleEdge snapshotUid e) :
    ∀ e ∈ (drafts.foldl (ModuleEdges.push uuid snapshotUid repoUid) out).edges, IsModuleEdge snapshotUid e := by
  induction drafts generalizing out with
  | nil => exact h
  | cons draft drafts ih =>
    apply ih
    intro e he
    rcases List.mem_append.mp he with he | he
    · exact h e he
    · rw [List.mem_singleton.mp he]
      exact ⟨rfl, rfl, rfl⟩

end Stamps

structure TrackedFile where
  fileUid : String
  path : String
  isTest : Bool
  deriving DecidableEq, Repr

def FileRow.ofTracked (f : TrackedFile) : FileRow := ⟨f.fileUid, f.path, .integer (if f.isTest then 1 else 0)⟩

/-- The data of an index run when its edges are resolved: the nodes and files it has stored, and the edges it
has extracted. FILE nodes are made from the path of their file and MODULE nodes from a directory. -/
structure IndexRun where
  repoUid : String
  snapshotUid : String
  nodes : List ResolverNode
  files : List TrackedFile
  edges : List ExtractedEdge
  uuid : ℕ → String
  nodeUids : (nodes.map (·.nodeUid)).Nodup
  stableKeys : (nodes.map (·.stableKey)).Nodup
  fileUids : (files.map (·.fileUid)).Nodup
  fileNodes : ∀ n ∈ nodes, n.kind = "FILE" → ∃ path, n.stableKey = fileKey repoUid path ∧
    n.qualifiedName = some path ∧ n.fileUid = some s!"{repoUid}:{path}"
  moduleNodes : ∀ n ∈ nodes, ∀ dir, n.stableKey = moduleKey repoUid dir → n.kind = "MODULE" ∧ n.fileUid = none
  ownSnapshot : ∀ e ∈ edges, e.snapshotUid = snapshotUid
  noOwns : ∀ e ∈ edges, e.edgeType ≠ .owns
  uuidInjective : Function.Injective uuid

namespace IndexRun

section Stored

variable (run : IndexRun) (ext : Externals) (index : ResolverIndex) (bindings : Option ImportBindingsByFile)
  (decls : RustModDeclsByFile)

def moduleIndex : ModuleIndex := .build run.repoUid run.nodes

def resolution : ResolutionResult := resolveEdgesWithRustModDecls ext index bindings decls run.edges

def moduleEdges : ModuleEdges :=
  createModuleEdges run.uuid run.moduleIndex (run.resolution ext index bindings decls).resolvedImportPairs
    run.snapshotUid run.repoUid

def storedEdges : List ResolvedEdge :=
  (run.resolution ext index bindings decls).resolved ++ (run.moduleEdges ext index bindings decls).edges

lemma storedEdges_snapshotUid {e : ResolvedEdge} (he : e ∈ run.storedEdges ext index bindings decls) :
    e.snapshotUid = run.snapshotUid := by
  rcases List.mem_append.mp he with he | he
  · obtain ⟨x, hx, horigin⟩ := origin_placements he
    simp only [ResolvedEdge.origin, ExtractedEdge.origin, Prod.mk.injEq] at horigin
    rw [horigin.2.1, run.ownSnapshot x hx]
  · exact (isModuleEdge_foldl _ (by simp) e he).1

def tables : GraphTables where
  nodes := run.nodes.map (.ofResolver run.snapshotUid)
  edges := (run.storedEdges ext index bindings decls).map fun e =>
    stampRow (run.moduleEdges ext index bindings decls).typeOnlyUpdates (.ofResolved e)
  files := run.files.map .ofTracked
  nodeKeys := by
    rw [List.map_map]
    exact run.nodeUids
  fileKeys := by
    rw [List.map_map]
    exact run.fileUids
  endpoints := by
    intro e he n hn _
    obtain ⟨r, hr, rfl⟩ := List.mem_map.mp he
    obtain ⟨n, -, rfl⟩ := List.mem_map.mp hn
    rw [stampRow_eq]
    exact (run.storedEdges_snapshotUid ext index bindings decls hr).symm

def BetweenFiles : Prop :=
  ∀ r ∈ (run.resolution ext index bindings decls).resolved, r.edgeType = .imports →
    (∃ n ∈ run.nodes, n.nodeUid = r.sourceNodeUid ∧ n.kind = "FILE") ∧
      ∃ n ∈ run.nodes, n.nodeUid = r.targetNodeUid ∧ n.kind = "FILE"

end Stored

section Reads

variable {run : IndexRun} {ext : Externals} {index : ResolverIndex} {bindings : Option ImportBindingsByFile}
  {decls : RustModDeclsByFile}

lemma serialize_eq_imports {ty : EdgeType} : serializeEdgeType ty = "IMPORTS" ↔ ty = .imports := by
  cases ty <;> decide

lemma serialize_eq_owns {ty : EdgeType} : serializeEdgeType ty = "OWNS" ↔ ty = .owns := by
  cases ty <;> decide

lemma node?_tables {uid : String} {row : NodeRow} :
    (run.tables ext index bindings decls).node? uid = some row ↔
      ∃ n ∈ run.nodes, n.nodeUid = uid ∧ .ofResolver run.snapshotUid n = row := by
  constructor
  · intro h
    obtain ⟨hmem, rfl⟩ := GraphTables.node?_eq_some h
    obtain ⟨n, hn, rfl⟩ := List.mem_map.mp hmem
    exact ⟨n, hn, rfl, rfl⟩
  · rintro ⟨n, hn, rfl, rfl⟩
    have hmem : NodeRow.ofResolver run.snapshotUid n ∈ (run.tables ext index bindings decls).nodes :=
      List.mem_map_of_mem hn
    cases hfind : (run.tables ext index bindings decls).node? n.nodeUid with
    | none =>
      have hnone := List.find?_eq_none.mp hfind _ hmem
      simp [NodeRow.ofResolver] at hnone
    | some row =>
      obtain ⟨hrow, huid⟩ := GraphTables.node?_eq_some hfind
      rw [List.inj_on_of_nodup_map (run.tables ext index bindings decls).nodeKeys hrow hmem huid]

lemma mem_joinedEdges_tables {edgeType : String} {e : EdgeRow} {source target : NodeRow} :
    (e, source, target) ∈ (run.tables ext index bindings decls).joinedEdges run.snapshotUid edgeType ↔
      ∃ r ∈ run.storedEdges ext index bindings decls, serializeEdgeType r.edgeType = edgeType ∧
        stampRow (run.moduleEdges ext index bindings decls).typeOnlyUpdates (.ofResolved r) = e ∧
        (∃ n ∈ run.nodes, n.nodeUid = r.sourceNodeUid ∧ .ofResolver run.snapshotUid n = source) ∧
        ∃ n ∈ run.nodes, n.nodeUid = r.targetNodeUid ∧ .ofResolver run.snapshotUid n = target := by
  rw [GraphTables.mem_joinedEdges, node?_tables, node?_tables]
  constructor
  · rintro ⟨he, -, htype, hsource, htarget⟩
    obtain ⟨r, hr, rfl⟩ := List.mem_map.mp he
    rw [stampRow_eq] at htype hsource htarget
    exact ⟨r, hr, htype, rfl, hsource, htarget⟩
  · rintro ⟨r, hr, htype, rfl, hsource, htarget⟩
    refine ⟨List.mem_map_of_mem hr, ?_⟩
    rw [stampRow_eq]
    exact ⟨run.storedEdges_snapshotUid ext index bindings decls hr, htype, hsource, htarget⟩

lemma map_draftOf_moduleEdges : (run.moduleEdges ext index bindings decls).edges.map
    (draftOf (run.moduleEdges ext index bindings decls).typeOnlyUpdates) =
      run.moduleIndex.fileToModule.entries.filterMap run.moduleIndex.ownsEdge ++
        run.moduleIndex.importsEdges (run.resolution ext index bindings decls).resolvedImportPairs := by
  have hmap := map_draftOf_foldl run.snapshotUid run.repoUid run.uuidInjective
    (run.moduleIndex.fileToModule.entries.filterMap run.moduleIndex.ownsEdge ++
      run.moduleIndex.importsEdges (run.resolution ext index bindings decls).resolvedImportPairs)
    (⟨by simp, by simp⟩ : Numbered run.uuid ⟨[], []⟩)
  dsimp only at hmap
  rw [moduleEdges, createModuleEdges, hmap, List.map_nil, List.nil_append]

lemma mem_moduleEdges {draft : Draft} :
    draft ∈ (run.moduleEdges ext index bindings decls).edges.map
        (draftOf (run.moduleEdges ext index bindings decls).typeOnlyUpdates) ↔
      draft ∈ run.moduleIndex.fileToModule.entries.filterMap run.moduleIndex.ownsEdge ∨
        draft ∈ run.moduleIndex.importsEdges (run.resolution ext index bindings decls).resolvedImportPairs := by
  rw [map_draftOf_moduleEdges, List.mem_append]

lemma moduleUid_eq_some {uid moduleUid : String} : run.moduleIndex.moduleUid uid = some moduleUid ↔
    ∃ n ∈ run.nodes, n.nodeUid = uid ∧ ∃ m ∈ run.nodes, m.nodeUid = moduleUid ∧
      fileModule run.repoUid n = some m.stableKey := by
  rw [ModuleIndex.moduleUid, Option.bind_eq_some_iff]
  simp only [moduleIndex, ModuleIndex.lookup_fileToModule run.nodeUids,
    ModuleIndex.lookup_stableKeyToUid run.stableKeys]
  constructor
  · rintro ⟨key, ⟨n, hn, huid, hkey⟩, m, hm, rfl, hmod⟩
    exact ⟨n, hn, huid, m, hm, hmod, hkey⟩
  · rintro ⟨n, hn, huid, m, hm, hmod, hkey⟩
    exact ⟨_, ⟨n, hn, huid, hkey⟩, m, hm, rfl, hmod⟩

lemma fileModule_eq_some {n : ResolverNode} {key : String} (h : fileModule run.repoUid n = some key) :
    n.kind = "FILE" ∧ ∃ dir, key = moduleKey run.repoUid dir := by
  rw [fileModule] at h
  split at h
  · next hkind =>
    obtain ⟨dir, -, rfl⟩ := Option.map_eq_some_iff.mp h
    exact ⟨hkind, dir, rfl⟩
  · cases h

lemma mem_ownsEdges {draft : Draft} :
    draft ∈ run.moduleIndex.fileToModule.entries.filterMap run.moduleIndex.ownsEdge ↔
      ∃ uid moduleUid, run.moduleIndex.moduleUid uid = some moduleUid ∧ draft = (.owns, moduleUid, uid, none) := by
  rw [List.mem_filterMap]
  constructor
  · rintro ⟨⟨uid, key⟩, hentry, h⟩
    obtain ⟨moduleUid, hlookup, rfl⟩ := Option.map_eq_some_iff.mp h
    exact ⟨uid, moduleUid, Option.bind_eq_some_iff.mpr ⟨key, IterMap.mem_entries.mp hentry, hlookup⟩, rfl⟩
  · rintro ⟨uid, moduleUid, h, rfl⟩
    obtain ⟨key, hentry, hlookup⟩ := Option.bind_eq_some_iff.mp h
    exact ⟨⟨uid, key⟩, IterMap.mem_entries.mpr hentry, by rw [ModuleIndex.ownsEdge, hlookup]; rfl⟩

lemma mem_importsEdges {draft : Draft} {pairs : List ImportPair} :
    draft ∈ run.moduleIndex.importsEdges pairs ↔
      draft.1 = .imports ∧ run.moduleIndex.fed pairs (draft.2.1, draft.2.2.1) ≠ [] ∧
        draft.2.2.2 = aggregateModuleEdgeTypeOnly (run.moduleIndex.fed pairs (draft.2.1, draft.2.2.1)) :=
  ModuleIndex.mem_importsEdges run.nodeUids run.stableKeys

lemma mem_storedEdges_owns {r : ResolvedEdge} (hr : r ∈ run.storedEdges ext index bindings decls)
    (howns : r.edgeType = .owns) : run.moduleIndex.moduleUid r.targetNodeUid = some r.sourceNodeUid := by
  rcases List.mem_append.mp hr with hr | hr
  · obtain ⟨x, hx, horigin⟩ := origin_placements hr
    simp only [ResolvedEdge.origin, ExtractedEdge.origin, Prod.mk.injEq] at horigin
    exact absurd (horigin.2.2.2.2.1.symm.trans howns) (run.noOwns x hx)
  · have hdraft := mem_moduleEdges.mp (List.mem_map_of_mem (f := draftOf _) hr)
    rcases hdraft with hdraft | hdraft
    · obtain ⟨uid, moduleUid, hmodule, he⟩ := mem_ownsEdges.mp hdraft
      simp only [draftOf, Prod.mk.injEq] at he
      rw [he.2.2.1, he.2.1, hmodule]
    · exact absurd ((mem_importsEdges.mp hdraft).1.symm.trans howns) (by decide)

lemma mem_ownershipRows_tables {file owner : NodeRow} :
    (file, owner) ∈ (run.tables ext index bindings decls).ownershipRows run.snapshotUid ↔
      ∃ n ∈ run.nodes, ∃ m ∈ run.nodes, fileModule run.repoUid n = some m.stableKey ∧
        .ofResolver run.snapshotUid n = file ∧ .ofResolver run.snapshotUid m = owner := by
  rw [GraphTables.mem_ownershipRows]
  constructor
  · rintro ⟨-, -, e, hjoined⟩
    obtain ⟨r, hr, howns, -, ⟨m, hm, hmuid, rfl⟩, n, hn, hnuid, rfl⟩ := mem_joinedEdges_tables.mp hjoined
    obtain ⟨n', hn', hn'uid, m', hm', hm'uid, hmodule⟩ :=
      moduleUid_eq_some.mp (mem_storedEdges_owns hr (serialize_eq_owns.mp howns))
    obtain rfl := List.inj_on_of_nodup_map run.nodeUids hn hn' (hnuid.trans hn'uid.symm)
    obtain rfl := List.inj_on_of_nodup_map run.nodeUids hm hm' (hmuid.trans hm'uid.symm)
    exact ⟨n, hn, m, hm, hmodule, rfl, rfl⟩
  · rintro ⟨n, hn, m, hm, hmodule, rfl, rfl⟩
    obtain ⟨hkind, dir, hdir⟩ := fileModule_eq_some hmodule
    have hdraft : (.owns, m.nodeUid, n.nodeUid, none) ∈ (run.moduleEdges ext index bindings decls).edges.map
        (draftOf (run.moduleEdges ext index bindings decls).typeOnlyUpdates) :=
      mem_moduleEdges.mpr (Or.inl (mem_ownsEdges.mpr
        ⟨_, _, moduleUid_eq_some.mpr ⟨n, hn, rfl, m, hm, rfl, hmodule⟩, rfl⟩))
    obtain ⟨r, hr, hdraft⟩ := List.mem_map.mp hdraft
    simp only [draftOf, Prod.mk.injEq] at hdraft
    refine ⟨(run.moduleNodes m hm dir hdir).1, hkind, _, mem_joinedEdges_tables.mpr
      ⟨r, List.mem_append_right _ hr, ?_, rfl, ⟨m, hm, hdraft.2.1.symm, rfl⟩, n, hn, hdraft.2.2.1.symm, rfl⟩⟩
    rw [hdraft.1]
    rfl

lemma file_node_unique {n n' : ResolverNode} (hn : n ∈ run.nodes) (hn' : n' ∈ run.nodes) (hkind : n.kind = "FILE")
    (hkind' : n'.kind = "FILE") (h : n.fileUid = n'.fileUid) : n = n' := by
  obtain ⟨path, hkey, -, huid⟩ := run.fileNodes n hn hkind
  obtain ⟨path', hkey', -, huid'⟩ := run.fileNodes n' hn' hkind'
  have hpath : path = path' := by
    rw [huid, huid', Option.some_inj] at h
    have hchars := congrArg String.toList h
    simp only [String.toList_append, List.append_cancel_left_eq] at hchars
    exact String.toList_injective hchars
  refine List.inj_on_of_nodup_map run.stableKeys hn hn' ?_
  rw [hkey, hkey', hpath]

lemma ownership_tables (run : IndexRun) (ext : Externals) (index : ResolverIndex)
    (bindings : Option ImportBindingsByFile) (decls : RustModDeclsByFile) :
    ∃ ownership, (run.tables ext index bindings decls).fileOwnershipFromOwnsEdges run.snapshotUid = .ok ownership ∧
      ∀ n ∈ run.nodes, n.kind = "FILE" → ∀ fileUid, n.fileUid = some fileUid →
        (textMap ownership)[fileUid]? = run.moduleIndex.moduleUid n.nodeUid := by
  have hread : ∀ row ∈ (run.tables ext index bindings decls).ownershipRows run.snapshotUid,
      ∃ entry, GraphTables.readOwnership row = .ok entry := by
    rintro ⟨file, owner⟩ hrow
    obtain ⟨n, hn, m, -, hmodule, rfl, rfl⟩ := mem_ownershipRows_tables.mp hrow
    obtain ⟨path, -, -, huid⟩ := run.fileNodes n hn (fileModule_eq_some hmodule).1
    exact ⟨_, by rw [GraphTables.readOwnership, NodeRow.ofResolver, huid]⟩
  obtain ⟨ownership, hok⟩ := exists_mapM hread
  have hmem : ∀ fileUid moduleUid, (fileUid, moduleUid) ∈ ownership ↔
      ∃ n ∈ run.nodes, n.kind = "FILE" ∧ n.fileUid = some fileUid ∧
        run.moduleIndex.moduleUid n.nodeUid = some moduleUid := by
    intro fileUid moduleUid
    rw [mem_mapM hok]
    constructor
    · rintro ⟨⟨file, owner⟩, hrow, hentry⟩
      obtain ⟨n, hn, m, hm, hmodule, rfl, rfl⟩ := mem_ownershipRows_tables.mp hrow
      obtain ⟨path, -, -, huid⟩ := run.fileNodes n hn (fileModule_eq_some hmodule).1
      rw [GraphTables.readOwnership, NodeRow.ofResolver, huid] at hentry
      obtain ⟨rfl, rfl⟩ := Prod.mk.inj (Except.ok.inj hentry)
      exact ⟨n, hn, (fileModule_eq_some hmodule).1, huid, moduleUid_eq_some.mpr ⟨n, hn, rfl, m, hm, rfl, hmodule⟩⟩
    · rintro ⟨n, hn, -, huid, hmodule⟩
      obtain ⟨n', hn', hn'uid, m, hm, rfl, hmodule⟩ := moduleUid_eq_some.mp hmodule
      obtain rfl := List.inj_on_of_nodup_map run.nodeUids hn hn' hn'uid.symm
      refine ⟨_, mem_ownershipRows_tables.mpr ⟨n, hn, m, hm, hmodule, rfl, rfl⟩, ?_⟩
      rw [GraphTables.readOwnership, NodeRow.ofResolver, huid]
      rfl
  have hfun : ∀ key value value', (key, value) ∈ ownership → (key, value') ∈ ownership → value = value' := by
    intro key value value' h h'
    obtain ⟨n, hn, hkind, huid, hmodule⟩ := (hmem key value).mp h
    obtain ⟨n', hn', hkind', huid', hmodule'⟩ := (hmem key value').mp h'
    obtain rfl := file_node_unique hn hn' hkind hkind' (huid.trans huid'.symm)
    exact Option.some.inj (hmodule.symm.trans hmodule')
  refine ⟨ownership, hok, ?_⟩
  intro n hn hkind fileUid huid
  apply Option.ext
  intro moduleUid
  rw [textMap_eq_some hfun, hmem]
  constructor
  · rintro ⟨n', hn', hkind', huid', hmodule⟩
    obtain rfl := file_node_unique hn hn' hkind hkind' (huid.trans huid'.symm)
    exact hmodule
  · intro hmodule
    exact ⟨n, hn, hkind, huid, hmodule⟩

variable (run ext index bindings decls) in
lemma readFileImport_tables (snapshotUid source target : String) (updates : List (String × TypeOnlyDisposition))
    (r : ResolvedEdge) :
    ∃ row, (run.tables ext index bindings decls).readFileImport ext snapshotUid
        (source, target, stampRow updates (.ofResolved r)) = .ok row ∧
      row.sourceFileUid = source ∧ row.targetFileUid = target ∧
      (ImportView.certainWithTests.admits row.partition = true ↔ r.resolution ≠ .inferred) ∧
      row.typeOnly = ext.typeOnlyDispositionOf r.metadataJson := by
  have hflag : ∃ flag, GraphTables.storedFlag snapshotUid source
      ((((run.tables ext index bindings decls).file? source).map (·.isTest)).getD .null) = .ok flag ∧
        ∃ status, ImporterStatus.fromIsTest flag = .ok status := by
    cases hfile : (run.tables ext index bindings decls).file? source with
    | none => exact ⟨none, rfl, .unknown, rfl⟩
    | some file =>
      obtain ⟨f, -, rfl⟩ := List.mem_map.mp (List.mem_of_find?_eq_some hfile)
      cases htest : f.isTest
      · exact ⟨some 0, by simp [FileRow.ofTracked, htest, GraphTables.storedFlag], .production, rfl⟩
      · exact ⟨some 1, by simp [FileRow.ofTracked, htest, GraphTables.storedFlag], .test, rfl⟩
  obtain ⟨flag, hstored, status, hstatus⟩ := hflag
  have hclass : ∃ importClass, ImportClass.fromResolution (serializeResolution r.resolution) = .ok importClass ∧
      (importClass = .certain ↔ r.resolution ≠ .inferred) := by
    cases r.resolution
    · exact ⟨.certain, rfl, by decide⟩
    · exact ⟨.certain, rfl, by decide⟩
    · exact ⟨.inferred, rfl, by decide⟩
  obtain ⟨importClass, hresolution, hiff⟩ := hclass
  have hrow : stampRow updates (.ofResolved r) = _ := stampRow_eq
  have hclassify : ImportPartition.classify (stampRow updates (.ofResolved r)).resolution flag =
      .ok ⟨importClass, status⟩ := by
    rw [hrow]
    change ImportPartition.classify (serializeResolution r.resolution) flag = _
    rw [ImportPartition.classify, hresolution, ok_bind, hstatus, ok_bind]
  refine ⟨⟨source, target, ((run.tables ext index bindings decls).file? source).map (·.path), flag.map (· = 1),
    ⟨importClass, status⟩, ext.typeOnlyDispositionOf r.metadataJson⟩, ?_, ?_⟩
  · simp only [GraphTables.readFileImport, hstored, ok_bind, hclassify]
    rw [hrow]
    rfl
  · refine ⟨rfl, rfl, ?_, rfl⟩
    rw [← hiff]
    simp [ImportView.admits, ImportView.certainWithTests]

lemma module_node_of_moduleUid {uid moduleUid : String} (h : run.moduleIndex.moduleUid uid = some moduleUid) :
    ∃ m ∈ run.nodes, m.nodeUid = moduleUid ∧ m.kind = "MODULE" ∧ m.fileUid = none := by
  obtain ⟨n, -, -, m, hm, huid, hmodule⟩ := moduleUid_eq_some.mp h
  obtain ⟨-, dir, hdir⟩ := fileModule_eq_some hmodule
  exact ⟨m, hm, huid, run.moduleNodes m hm dir hdir⟩

lemma module_nodes_of_importsEdges {draft : Draft} {pairs : List ImportPair}
    (h : draft ∈ run.moduleIndex.importsEdges pairs) :
    (∃ m ∈ run.nodes, m.nodeUid = draft.2.1 ∧ m.kind = "MODULE" ∧ m.fileUid = none) ∧
      (∃ m ∈ run.nodes, m.nodeUid = draft.2.2.1 ∧ m.kind = "MODULE" ∧ m.fileUid = none) ∧
      draft.2.1 ≠ draft.2.2.1 := by
  obtain ⟨-, hne, -⟩ := mem_importsEdges.mp h
  obtain ⟨_, hd⟩ := List.exists_mem_of_ne_nil _ hne
  obtain ⟨pair, hpair, -⟩ := List.mem_map.mp hd
  obtain ⟨hs, ht, hdistinct⟩ := ModuleIndex.crossing_eq_some.mp (by simpa using (List.mem_filter.mp hpair).2)
  exact ⟨module_node_of_moduleUid hs, module_node_of_moduleUid ht, hdistinct⟩

lemma mem_fileImportRows_tables (hfiles : run.BetweenFiles ext index bindings decls) {source target : String}
    {e : EdgeRow} :
    (source, target, e) ∈ (run.tables ext index bindings decls).fileImportRows run.snapshotUid ↔
      ∃ r ∈ (run.resolution ext index bindings decls).resolved, r.edgeType = .imports ∧
        stampRow (run.moduleEdges ext index bindings decls).typeOnlyUpdates (.ofResolved r) = e ∧
        (∃ n ∈ run.nodes, n.nodeUid = r.sourceNodeUid ∧ n.kind = "FILE" ∧ n.fileUid = some source) ∧
        ∃ n ∈ run.nodes, n.nodeUid = r.targetNodeUid ∧ n.kind = "FILE" ∧ n.fileUid = some target := by
  rw [GraphTables.fileImportRows, (sortBy_perm _ _).mem_iff, List.mem_filterMap]
  simp only [Option.bind_eq_bind, Option.bind_eq_some_iff, Option.some_inj, Prod.mk.injEq]
  constructor
  · rintro ⟨⟨e', sn, tn⟩, hjoined, a, ha, b, hb, rfl, rfl, rfl⟩
    obtain ⟨r, hr, htype, he, ⟨n, hn, hnuid, rfl⟩, m, hm, hmuid, rfl⟩ := mem_joinedEdges_tables.mp hjoined
    have himports := serialize_eq_imports.mp htype
    rcases List.mem_append.mp hr with hr | hr
    · obtain ⟨⟨n', hn', hn'uid, hkind⟩, m', hm', hm'uid, hkind'⟩ := hfiles r hr himports
      obtain rfl := List.inj_on_of_nodup_map run.nodeUids hn hn' (hnuid.trans hn'uid.symm)
      obtain rfl := List.inj_on_of_nodup_map run.nodeUids hm hm' (hmuid.trans hm'uid.symm)
      exact ⟨r, hr, himports, he, ⟨n, hn, hnuid, hkind, ha⟩, m, hm, hmuid, hkind', hb⟩
    · -- The edges of the module graph join nodes without a file.
      exfalso
      rcases mem_moduleEdges.mp (List.mem_map_of_mem (f := draftOf _) hr) with hdraft | hdraft
      · obtain ⟨_, _, -, heq⟩ := mem_ownsEdges.mp hdraft
        exact absurd (himports.symm.trans (Prod.mk.inj heq).1) (by decide)
      · obtain ⟨⟨n', hn', hn'uid, -, hnone⟩, -, -⟩ := module_nodes_of_importsEdges hdraft
        obtain rfl := List.inj_on_of_nodup_map run.nodeUids hn hn' (hnuid.trans hn'uid.symm)
        exact absurd (ha.symm.trans hnone) (by simp)
  · rintro ⟨r, hr, himports, rfl, ⟨n, hn, hnuid, -, ha⟩, m, hm, hmuid, -, hb⟩
    refine ⟨(_, .ofResolver run.snapshotUid n, .ofResolver run.snapshotUid m), mem_joinedEdges_tables.mpr
      ⟨r, List.mem_append_left _ hr, serialize_eq_imports.mpr himports, rfl,
        ⟨n, hn, hnuid, rfl⟩, m, hm, hmuid, rfl⟩,
      source, ha, target, hb, rfl, rfl, rfl⟩

lemma directoryModuleGraph_tables (hfiles : run.BetweenFiles ext index bindings decls) :
    ∃ graph, directoryModuleGraph ext (run.tables ext index bindings decls) run.snapshotUid = .ok graph ∧
      ∀ key typeOnly, typeOnly ∈ ((graph.relations[key]?.getD .empty).admitted .certainWithTests).map (·.2) ↔
        ∃ r ∈ (run.resolution ext index bindings decls).resolved, r.isCertainImport = true ∧
          run.moduleIndex.crossing (storedPair ext r) = some key ∧
          typeOnly = ext.typeOnlyDispositionOf r.metadataJson := by
  have hread : ∀ row ∈ (run.tables ext index bindings decls).fileImportRows run.snapshotUid,
      ∃ r, (run.tables ext index bindings decls).readFileImport ext run.snapshotUid row = .ok r := by
    rintro ⟨source, target, e⟩ hrow
    obtain ⟨r, -, -, rfl, -⟩ := (mem_fileImportRows_tables hfiles).mp hrow
    obtain ⟨row, hok, -⟩ := readFileImport_tables run ext index bindings decls
      run.snapshotUid source target (run.moduleEdges ext index bindings decls).typeOnlyUpdates r
    exact ⟨row, hok⟩
  obtain ⟨rows, hrows⟩ := exists_mapM hread
  obtain ⟨ownership, hownership, howner⟩ := ownership_tables run ext index bindings decls
  obtain ⟨graph, hgraph, hrelations⟩ := directoryModuleGraph_relations hrows hownership
  refine ⟨graph, hgraph, ?_⟩
  · intro key typeOnly
    have hcontributors := contributors_addImports (textMap ownership) rows (∅, []) key
    rw [← hrelations] at hcontributors
    simp only [Std.ExtTreeMap.getElem?_empty, Option.getD_none, DirectoryRelation.empty,
      List.nil_append] at hcontributors
    rw [DirectoryRelation.admitted, DirectoryRelation.empty, hcontributors]
    simp only [List.mem_map, List.mem_filter, decide_eq_true_eq]
    constructor
    · rintro ⟨_, ⟨⟨row, ⟨hrow, hkey⟩, rfl⟩, hadmits⟩, rfl⟩
      obtain ⟨⟨source, target, e⟩, hmem, hok⟩ := (mem_mapM hrows).mp hrow
      obtain ⟨r, hr, himports, rfl, ⟨n, hn, hnuid, hkind, hsource⟩, m, hm, hmuid, hkind', htarget⟩ :=
        (mem_fileImportRows_tables hfiles).mp hmem
      obtain ⟨row', hok', hs, ht, hcertain, htype⟩ := readFileImport_tables run ext index bindings decls
        run.snapshotUid source target
        (run.moduleEdges ext index bindings decls).typeOnlyUpdates r
      obtain rfl := Except.ok.inj (hok.symm.trans hok')
      obtain ⟨howns, howns', hne⟩ := relationOf_eq_some.mp hkey
      rw [hs, howner n hn hkind source hsource, hnuid] at howns
      rw [ht, howner m hm hkind' target htarget, hmuid] at howns'
      refine ⟨r, hr, ?_, ModuleIndex.crossing_eq_some.mpr ⟨howns, howns', hne⟩, htype⟩
      simpa [ResolvedEdge.isCertainImport, himports] using hcertain.mp hadmits
    · rintro ⟨r, hr, hcertain, hcross, rfl⟩
      have hcertain' : r.edgeType = .imports ∧ r.resolution ≠ .inferred := by
        simpa [ResolvedEdge.isCertainImport] using hcertain
      obtain ⟨⟨n, hn, hnuid, hkind⟩, m, hm, hmuid, hkind'⟩ := hfiles r hr hcertain'.1
      obtain ⟨source, -, -, hsource⟩ := run.fileNodes n hn hkind
      obtain ⟨target, -, -, htarget⟩ := run.fileNodes m hm hkind'
      obtain ⟨row, hok, hs, ht, hadmits, htype⟩ := readFileImport_tables run ext index bindings decls
        run.snapshotUid s!"{run.repoUid}:{source}" s!"{run.repoUid}:{target}"
        (run.moduleEdges ext index bindings decls).typeOnlyUpdates r
      have hrow : row ∈ rows := by
        refine (mem_mapM hrows).mpr ⟨_,
          (mem_fileImportRows_tables hfiles).mpr ⟨r, hr, hcertain'.1, rfl, ?_, ?_⟩, hok⟩
        · exact ⟨n, hn, hnuid, hkind, hsource⟩
        · exact ⟨m, hm, hmuid, hkind', htarget⟩
      obtain ⟨howns, howns', hne⟩ := ModuleIndex.crossing_eq_some.mp hcross
      refine ⟨(row.partition, row.typeOnly), ⟨⟨row, ⟨hrow, relationOf_eq_some.mpr ⟨?_, ?_, hne⟩⟩, rfl⟩, ?_⟩, htype⟩
      · rw [hs, howner n hn hkind _ hsource, hnuid]
        exact howns
      · rw [ht, howner m hm hkind' _ htarget, hmuid]
        exact howns'
      · exact hadmits.mpr hcertain'.2

end Reads

end IndexRun

end RepoGraph.Storage
