import RepoGraph.Classification.ImportPartition
import RepoGraph.Indexer.ModuleGraph
import RepoGraph.Lib.Exec

/-! The import graph over the directory modules of a snapshot, read from its stored edges: every import
between two files of different directories, in the relation of their modules. -/

namespace RepoGraph.Storage

open Lib Indexer Classification

structure NodeRow where
  nodeUid : String
  snapshotUid : String
  kind : String
  name : String
  qualifiedName : Option String
  fileUid : Option String
  deriving DecidableEq, Repr

structure EdgeRow where
  edgeUid : String
  snapshotUid : String
  sourceNodeUid : String
  targetNodeUid : String
  edgeType : String
  resolution : String
  metadataJson : Option String
  isTypeOnly : Option TypeOnlyDisposition
  deriving DecidableEq, Repr

/-- A stored value of any type; a real is held as its printed text. -/
inductive SqlValue
  | null
  | integer (value : ℤ)
  | real (text : String)
  | text (value : String)
  | blob
  deriving DecidableEq, Repr

structure FileRow where
  fileUid : String
  path : String
  isTest : SqlValue
  deriving DecidableEq, Repr

/-- The nodes, edges and files tables. Primary keys are unique, and a writer of edges joins nodes of the
snapshot it writes. -/
structure GraphTables where
  nodes : List NodeRow
  edges : List EdgeRow
  files : List FileRow
  nodeKeys : (nodes.map (·.nodeUid)).Nodup
  fileKeys : (files.map (·.fileUid)).Nodup
  endpoints : ∀ e ∈ edges, ∀ n ∈ nodes, n.nodeUid = e.sourceNodeUid ∨ n.nodeUid = e.targetNodeUid →
    n.snapshotUid = e.snapshotUid

inductive StorageError
  | cancelled
  | invalidColumnType (column : String)
  | unreadableImporterFlag (snapshotUid fileUid : String) (stored : SqlValue)
  | unreadableImportRow (reader snapshotUid : String) (error : ImportPartitionError)
  | unknownCycleMember (members : List String)
  deriving DecidableEq, Repr

structure PartitionedFileImport where
  sourceFileUid : String
  targetFileUid : String
  sourcePath : Option String
  sourceIsTest : Option Bool
  partition : ImportPartition
  typeOnly : Option TypeOnlyDisposition
  deriving DecidableEq, Repr

namespace GraphTables

variable (t : GraphTables)

def node? (nodeUid : String) : Option NodeRow := t.nodes.find? (·.nodeUid = nodeUid)

def file? (fileUid : String) : Option FileRow := t.files.find? (·.fileUid = fileUid)

def joinedEdges (snapshotUid edgeType : String) : List (EdgeRow × NodeRow × NodeRow) :=
  (t.edges.filter fun e => e.snapshotUid = snapshotUid ∧ e.edgeType = edgeType).filterMap fun e => do
    let source ← t.node? e.sourceNodeUid
    let target ← t.node? e.targetNodeUid
    some (e, source, target)

/-- The file-to-file IMPORTS rows; rows that the query leaves in any order stand in the order of the table. -/
def fileImportRows (snapshotUid : String) : List (String × String × EdgeRow) :=
  sortBy (compareLex (compareOn (·.1)) (compareOn (·.2.1)))
    ((t.joinedEdges snapshotUid "IMPORTS").filterMap fun (e, source, target) => do
      let sourceFile ← source.fileUid
      let targetFile ← target.fileUid
      some (sourceFile, targetFile, e))

def storedFlag (snapshotUid fileUid : String) : SqlValue → Except StorageError (Option ℤ)
  | .null => .ok none
  | .integer value => .ok (some value)
  | stored => .error (.unreadableImporterFlag snapshotUid fileUid stored)

def readFileImport (ext : Externals) (snapshotUid : String) (row : String × String × EdgeRow) :
    Except StorageError PartitionedFileImport := do
  let (sourceFileUid, targetFileUid, e) := row
  let file := t.file? sourceFileUid
  let flag ← storedFlag snapshotUid sourceFileUid ((file.map (·.isTest)).getD .null)
  match ImportPartition.classify e.resolution flag with
  | .error error => .error (.unreadableImportRow "file_imports_with_partition" snapshotUid error)
  | .ok partition =>
    .ok
      { sourceFileUid := sourceFileUid
        targetFileUid := targetFileUid
        sourcePath := file.map (·.path)
        sourceIsTest := flag.map (· = 1)
        partition := partition
        typeOnly := ext.typeOnlyDispositionOf e.metadataJson }

def fileImportsWithPartition (ext : Externals) (snapshotUid : String) :
    Except StorageError (List PartitionedFileImport) :=
  (t.fileImportRows snapshotUid).mapM (t.readFileImport ext snapshotUid)

def ownershipRows (snapshotUid : String) : List (NodeRow × NodeRow) :=
  sortBy (compareLex (compareOn (·.1.fileUid)) (compareOn (·.2.nodeUid)))
    ((t.joinedEdges snapshotUid "OWNS").filterMap fun (_, owner, file) =>
      if owner.kind = "MODULE" ∧ file.kind = "FILE" then some (file, owner) else none)

def readOwnership : NodeRow × NodeRow → Except StorageError (String × String)
  | (file, owner) =>
    match file.fileUid with
    | some fileUid => .ok (fileUid, owner.nodeUid)
    | none => .error (.invalidColumnType "file_uid")

def fileOwnershipFromOwnsEdges (snapshotUid : String) : Except StorageError (List (String × String)) :=
  (t.ownershipRows snapshotUid).mapM readOwnership

def moduleRows (snapshotUid : String) : List NodeRow :=
  t.nodes.filter fun n => n.snapshotUid = snapshotUid ∧ n.kind = "MODULE"

end GraphTables

structure DirectoryRelation where
  partitions : PartitionCounts
  contributors : List (ImportPartition × Option TypeOnlyDisposition)
  counted : partitions = contributors.foldl (fun counts c => counts.add c.1) default

namespace DirectoryRelation

def empty : DirectoryRelation := ⟨default, [], rfl⟩

def push (rel : DirectoryRelation) (partition : ImportPartition) (typeOnly : Option TypeOnlyDisposition) :
    DirectoryRelation where
  partitions := rel.partitions.add partition
  contributors := rel.contributors ++ [(partition, typeOnly)]
  counted := by rw [List.foldl_append, ← rel.counted]; rfl

def admitted (rel : DirectoryRelation) (view : ImportView) : List (ImportPartition × Option TypeOnlyDisposition) :=
  rel.contributors.filter fun c => view.admits c.1

lemma total_partitions (rel : DirectoryRelation) : rel.partitions.total = rel.contributors.length := by
  have hfold : ∀ (l : List (ImportPartition × Option TypeOnlyDisposition)) counts,
      (l.foldl (fun counts c => counts.add c.1) counts).total = PartitionCounts.total counts + l.length := by
    intro l
    induction l with
    | nil => intro counts; rfl
    | cons c l ih =>
      intro counts
      rw [List.foldl_cons, ih, PartitionCounts.total_add, List.length_cons]
      omega
  rw [rel.counted, hfold]
  exact Nat.zero_add _

lemma admitted_partitions (rel : DirectoryRelation) (view : ImportView) :
    rel.partitions.admitted view = (rel.admitted view).length := by
  have hfold : ∀ (l : List (ImportPartition × Option TypeOnlyDisposition)) counts,
      (l.foldl (fun counts c => counts.add c.1) counts).admitted view =
        PartitionCounts.admitted counts view + (l.filter fun c => view.admits c.1).length := by
    intro l
    induction l with
    | nil => intro counts; rfl
    | cons c l ih =>
      intro counts
      rw [List.foldl_cons, ih, PartitionCounts.admitted_add, List.filter_cons]
      by_cases hc : view.admits c.1 = true
      · rw [if_pos hc, if_pos hc, List.length_cons]
        omega
      · rw [if_neg hc, if_neg hc]
        omega
  have hzero : PartitionCounts.admitted default view = 0 := by
    obtain ⟨tests, inferred⟩ := view
    cases tests <;> cases inferred <;> rfl
  rw [rel.counted, hfold, hzero, Nat.zero_add, admitted]

@[simp] lemma admitted_all (rel : DirectoryRelation) : rel.admitted .all = rel.contributors :=
  List.filter_eq_self.mpr fun c _ => admits_all c.1

lemma admitted_eq_contributors {rel : DirectoryRelation} {view : ImportView} :
    rel.admitted view = rel.contributors ↔ ∀ c ∈ rel.contributors, view.admits c.1 = true :=
  List.filter_eq_self

end DirectoryRelation

structure CrossDirectoryImport where
  partition : ImportPartition
  sourceFileUid : String
  sourcePath : Option String
  sourceIsTest : Option Bool
  deriving DecidableEq, Repr

abbrev Relations := BTreeMap (String × String) DirectoryRelation

def relationOf (owners : HashMap String String) (r : PartitionedFileImport) : Option (String × String) := do
  let source ← owners[r.sourceFileUid]?
  let target ← owners[r.targetFileUid]?
  if source = target then none else some (source, target)

def addImport (owners : HashMap String String) (s : Relations × List CrossDirectoryImport)
    (r : PartitionedFileImport) : Relations × List CrossDirectoryImport :=
  match relationOf owners r with
  | none => s
  | some key =>
    (s.1.insert key ((s.1[key]?.getD .empty).push r.partition r.typeOnly),
      s.2 ++ [⟨r.partition, r.sourceFileUid, r.sourcePath, r.sourceIsTest⟩])

/-- The import graph over the directory modules, all partitions kept. Both modules of a relation are
directory modules of the graph. -/
structure DirectoryModuleGraph where
  relations : Relations
  imports : List CrossDirectoryImport
  names : HashMap String String
  qualified : HashMap String String
  modules : ∀ key ∈ relations, key.1 ∈ qualified ∧ key.2 ∈ qualified

section Build

variable {owners : HashMap String String}

lemma relationOf_eq_some {r : PartitionedFileImport} {key : String × String} :
    relationOf owners r = some key ↔
      owners[r.sourceFileUid]? = some key.1 ∧ owners[r.targetFileUid]? = some key.2 ∧ key.1 ≠ key.2 := by
  obtain ⟨u, v⟩ := key
  simp only [relationOf, Option.bind_eq_bind, Option.bind_eq_some_iff]
  constructor
  · rintro ⟨source, hs, target, ht, h⟩
    split at h
    · cases h
    · next hne =>
      cases h
      exact ⟨hs, ht, hne⟩
  · rintro ⟨hs, ht, hne⟩
    exact ⟨u, hs, v, ht, if_neg hne⟩

variable (owners) in
lemma contributors_addImports (rows : List PartitionedFileImport) (s : Relations × List CrossDirectoryImport)
    (key : String × String) :
    ((rows.foldl (addImport owners) s).1[key]?.getD .empty).contributors =
      (s.1[key]?.getD .empty).contributors ++
        (rows.filter fun r => relationOf owners r = some key).map fun r => (r.partition, r.typeOnly) := by
  induction rows generalizing s with
  | nil => simp
  | cons r rows ih =>
    rw [List.foldl_cons, ih, addImport]
    cases hr : relationOf owners r with
    | none => simp [hr]
    | some key' =>
      by_cases hkey : key' = key
      · subst hkey
        simp [hr, DirectoryRelation.push]
      · simp [hr, getElem?_insert, hkey]

lemma mem_addImports {rows : List PartitionedFileImport} {s : Relations × List CrossDirectoryImport}
    {key : String × String} :
    key ∈ (rows.foldl (addImport owners) s).1 ↔ key ∈ s.1 ∨ ∃ r ∈ rows, relationOf owners r = some key := by
  induction rows generalizing s with
  | nil => simp
  | cons r rows ih =>
    rw [List.foldl_cons, ih, addImport]
    cases hr : relationOf owners r with
    | none => simp [hr]
    | some key' =>
      simp only [Std.ExtTreeMap.mem_insert, Std.compare_eq_iff_eq, List.mem_cons, exists_eq_or_imp, hr,
        Option.some_inj]
      tauto

def textMap (entries : List (String × String)) : HashMap String String :=
  entries.foldl (fun m entry => m.insert entry.1 entry.2) ∅

lemma mem_textMap {entries : List (String × String)} {key : String} :
    key ∈ textMap entries ↔ key ∈ entries.map Prod.fst := by
  have hfold : ∀ m : HashMap String String, key ∈ entries.foldl (fun m entry => m.insert entry.1 entry.2) m ↔
      key ∈ m ∨ key ∈ entries.map Prod.fst := by
    induction entries with
    | nil => simp
    | cons entry entries ih =>
      intro m
      rw [List.foldl_cons, ih]
      simp only [Std.ExtTreeMap.mem_insert, Std.compare_eq_iff_eq, List.map_cons, List.mem_cons]
      tauto
  rw [textMap, hfold]
  simp

lemma mem_of_textMap {entries : List (String × String)} {key value : String}
    (h : (textMap entries)[key]? = some value) : (key, value) ∈ entries := by
  have hfold : ∀ (entries : List (String × String)) (m : HashMap String String),
      (entries.foldl (fun m entry => m.insert entry.1 entry.2) m)[key]? = some value →
        (key, value) ∈ entries ∨ m[key]? = some value := by
    intro entries
    induction entries with
    | nil => exact fun m h => Or.inr h
    | cons entry entries ih =>
      intro m h
      rcases ih _ h with hmem | hm
      · exact Or.inl (List.mem_cons_of_mem _ hmem)
      · rw [getElem?_insert] at hm
        split at hm
        · next hk =>
          refine Or.inl ?_
          rw [← hk, ← Option.some.inj hm]
          exact List.mem_cons_self
        · exact Or.inr hm
  rcases hfold entries ∅ h with hmem | hm
  · exact hmem
  · simp at hm

lemma textMap_eq_some {entries : List (String × String)}
    (h : ∀ key value value', (key, value) ∈ entries → (key, value') ∈ entries → value = value')
    {key value : String} : (textMap entries)[key]? = some value ↔ (key, value) ∈ entries := by
  refine ⟨mem_of_textMap, fun hmem => ?_⟩
  have hkey : key ∈ textMap entries := mem_textMap.mpr (List.mem_map_of_mem (f := Prod.fst) hmem)
  obtain ⟨value', hvalue⟩ := Option.isSome_iff_exists.mp (Std.ExtTreeMap.mem_iff_isSome_getElem?.mp hkey)
  rw [hvalue, h key value value' hmem (mem_of_textMap hvalue)]

end Build

namespace GraphTables

variable {t : GraphTables} {snapshotUid : String}

lemma node?_eq_some {nodeUid : String} {n : NodeRow} (h : t.node? nodeUid = some n) :
    n ∈ t.nodes ∧ n.nodeUid = nodeUid :=
  ⟨List.mem_of_find?_eq_some h, by simpa using List.find?_some h⟩

lemma mem_joinedEdges {edgeType : String} {e : EdgeRow} {source target : NodeRow} :
    (e, source, target) ∈ t.joinedEdges snapshotUid edgeType ↔
      e ∈ t.edges ∧ e.snapshotUid = snapshotUid ∧ e.edgeType = edgeType ∧
        t.node? e.sourceNodeUid = some source ∧ t.node? e.targetNodeUid = some target := by
  simp only [joinedEdges, List.mem_filterMap, List.mem_filter, decide_eq_true_eq, Option.bind_eq_bind,
    Option.bind_eq_some_iff, Option.some_inj, Prod.mk.injEq]
  constructor
  · rintro ⟨e', ⟨he, hs, ht⟩, n, hn, m, hm, rfl, rfl, rfl⟩
    exact ⟨he, hs, ht, hn, hm⟩
  · rintro ⟨he, hs, ht, hn, hm⟩
    exact ⟨e, ⟨he, hs, ht⟩, source, hn, target, hm, rfl, rfl, rfl⟩

lemma mem_ownershipRows {file owner : NodeRow} : (file, owner) ∈ t.ownershipRows snapshotUid ↔
    owner.kind = "MODULE" ∧ file.kind = "FILE" ∧ ∃ e, (e, owner, file) ∈ t.joinedEdges snapshotUid "OWNS" := by
  rw [ownershipRows, (sortBy_perm _ _).mem_iff, List.mem_filterMap]
  constructor
  · rintro ⟨⟨e, owner', file'⟩, hmem, h⟩
    dsimp only at h
    split at h
    · next hkind =>
      cases h
      exact ⟨hkind.1, hkind.2, e, hmem⟩
    · cases h
  · rintro ⟨howner, hfile, e, hmem⟩
    exact ⟨(e, owner, file), hmem, if_pos ⟨howner, hfile⟩⟩

lemma owner_mem_moduleRows {file owner : NodeRow} (h : (file, owner) ∈ t.ownershipRows snapshotUid) :
    owner ∈ t.moduleRows snapshotUid := by
  obtain ⟨hkind, -, e, hjoined⟩ := mem_ownershipRows.mp h
  obtain ⟨he, hs, -, hnode, -⟩ := mem_joinedEdges.mp hjoined
  obtain ⟨hmem, huid⟩ := node?_eq_some hnode
  refine List.mem_filter.mpr ⟨hmem, ?_⟩
  rw [decide_eq_true_eq]
  exact ⟨(t.endpoints e he owner hmem (Or.inl huid)).trans hs, hkind⟩

def qualifiedNames (t : GraphTables) (snapshotUid : String) : HashMap String String :=
  textMap ((t.moduleRows snapshotUid).map fun n => (n.nodeUid, n.qualifiedName.getD n.name))

lemma owner_mem_qualifiedNames {ownership : List (String × String)}
    (h : t.fileOwnershipFromOwnsEdges snapshotUid = .ok ownership) {fileUid moduleUid : String}
    (howner : (textMap ownership)[fileUid]? = some moduleUid) : moduleUid ∈ t.qualifiedNames snapshotUid := by
  obtain ⟨⟨file, owner⟩, hrow, hread⟩ := (mem_mapM h).mp (mem_of_textMap howner)
  have howned := owner_mem_moduleRows hrow
  have huid : owner.nodeUid = moduleUid := by
    rw [readOwnership] at hread
    split at hread
    · cases hread
      rfl
    · cases hread
  rw [qualifiedNames, mem_textMap, List.map_map, List.mem_map]
  exact ⟨owner, howned, huid⟩

end GraphTables

def DirectoryModuleGraph.ofRows (rows : List PartitionedFileImport)
    (owners names qualified : HashMap String String)
    (howners : ∀ fileUid moduleUid : String, owners[fileUid]? = some moduleUid → moduleUid ∈ qualified) :
    DirectoryModuleGraph :=
  let built := rows.foldl (addImport owners) (∅, [])
  { relations := built.1
    imports := built.2
    names := names
    qualified := qualified
    modules := by
      intro key hkey
      rcases mem_addImports.mp hkey with hempty | ⟨r, -, hr⟩
      · simp at hempty
      · obtain ⟨hs, ht, -⟩ := relationOf_eq_some.mp hr
        exact ⟨howners _ _ hs, howners _ _ ht⟩ }

def directoryModuleGraph (ext : Externals) (t : GraphTables) (snapshotUid : String) :
    Except StorageError DirectoryModuleGraph := do
  let rows ← t.fileImportsWithPartition ext snapshotUid
  match h : t.fileOwnershipFromOwnsEdges snapshotUid with
  | .error error => .error error
  | .ok ownership =>
    let names := textMap ((t.moduleRows snapshotUid).map fun n => (n.nodeUid, n.name))
    .ok (.ofRows rows (textMap ownership) names (t.qualifiedNames snapshotUid)
      fun _ _ howner => GraphTables.owner_mem_qualifiedNames h howner)

lemma directoryModuleGraph_relations {ext : Externals} {t : GraphTables} {snapshotUid : String}
    {rows : List PartitionedFileImport} {ownership : List (String × String)}
    (hrows : t.fileImportsWithPartition ext snapshotUid = .ok rows)
    (hownership : t.fileOwnershipFromOwnsEdges snapshotUid = .ok ownership) :
    ∃ graph, directoryModuleGraph ext t snapshotUid = .ok graph ∧
      graph.relations = (rows.foldl (addImport (textMap ownership)) (∅, [])).1 := by
  rw [directoryModuleGraph, hrows, ok_bind]
  split
  · next h =>
    rw [hownership] at h
    cases h
  · next h =>
    rw [hownership] at h
    cases h
    exact ⟨_, rfl, rfl⟩

end RepoGraph.Storage
