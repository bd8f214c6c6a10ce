import RepoGraph.Lib.Relational

/-! The tables of the store that hang off a snapshot, with their foreign keys, and the snapshots table. -/

namespace RepoGraph.Storage

open Lib.Relational

inductive Table
  | edges
  | extractionEdges
  | stagedEdges
  | unresolvedEdges
  | symbolCallDegrees
  | resolvedCallFilePairs
  | nodes
  | fileVersions
  | fileSignals
  | moduleCandidateEvidence
  | moduleFileOwnership
  | moduleDiscoveryDiagnostics
  | moduleCandidates
  | statusMappings
  | behavioralMarkers
  | returnFates
  | evidenceLinks
  | artifacts
  | inferences
  | annotations
  | boundaryLinks
  | boundaryProviderFacts
  | boundaryConsumerFacts
  | boundaryInteractionLinks
  | boundaryInteractionSurfaces
  | generatedCodeMappings
  | contractSchemas
  | surfaceConfigRoots
  | surfaceEntrypoints
  | surfaceEnvDependencies
  | surfaceEnvEvidence
  | surfaceFsMutations
  | surfaceFsMutationEvidence
  | projectSurfaceEvidence
  | projectSurfaces
  | seedVectors
  | boundaryChannelDetails
  | boundaryContracts
  | contractElements
  | measurements
  | qualityAssessments
  | declarations
  deriving DecidableEq, Repr

inductive Column
  | snapshotUid
  | sourceNodeUid
  | targetNodeUid
  | parentNodeUid
  | moduleCandidateUid
  | artifactUid
  | providerFactUid
  | consumerFactUid
  | providerSurfaceUid
  | consumerSurfaceUid
  | contractElementUid
  | schemaElementUid
  | schemaUid
  | parentElementUid
  | surfaceUid
  | projectSurfaceUid
  | surfaceEnvDependencyUid
  | surfaceFsMutationUid
  | baselineSnapshotUid
  | supersedesUid
  deriving DecidableEq, Repr

abbrev TableRow := Row Table Column

def foreignKeys : List (ForeignKey Table Column) :=
  [⟨.edges, .sourceNodeUid, .nodes, .cascade⟩,
   ⟨.edges, .targetNodeUid, .nodes, .cascade⟩,
   ⟨.nodes, .parentNodeUid, .nodes, .noAction⟩,
   ⟨.unresolvedEdges, .sourceNodeUid, .nodes, .noAction⟩,
   ⟨.evidenceLinks, .artifactUid, .artifacts, .cascade⟩,
   ⟨.boundaryLinks, .providerFactUid, .boundaryProviderFacts, .noAction⟩,
   ⟨.boundaryLinks, .consumerFactUid, .boundaryConsumerFacts, .noAction⟩,
   ⟨.moduleCandidateEvidence, .moduleCandidateUid, .moduleCandidates, .cascade⟩,
   ⟨.moduleFileOwnership, .moduleCandidateUid, .moduleCandidates, .cascade⟩,
   ⟨.projectSurfaces, .moduleCandidateUid, .moduleCandidates, .cascade⟩,
   ⟨.projectSurfaceEvidence, .projectSurfaceUid, .projectSurfaces, .cascade⟩,
   ⟨.surfaceConfigRoots, .projectSurfaceUid, .projectSurfaces, .cascade⟩,
   ⟨.surfaceEntrypoints, .projectSurfaceUid, .projectSurfaces, .cascade⟩,
   ⟨.surfaceEnvDependencies, .projectSurfaceUid, .projectSurfaces, .cascade⟩,
   ⟨.surfaceEnvEvidence, .surfaceEnvDependencyUid, .surfaceEnvDependencies, .cascade⟩,
   ⟨.surfaceFsMutations, .projectSurfaceUid, .projectSurfaces, .cascade⟩,
   ⟨.surfaceFsMutationEvidence, .surfaceFsMutationUid, .surfaceFsMutations, .cascade⟩,
   ⟨.surfaceFsMutationEvidence, .projectSurfaceUid, .projectSurfaces, .cascade⟩,
   ⟨.boundaryChannelDetails, .surfaceUid, .boundaryInteractionSurfaces, .cascade⟩,
   ⟨.contractElements, .schemaUid, .contractSchemas, .cascade⟩,
   ⟨.contractElements, .parentElementUid, .contractElements, .cascade⟩,
   ⟨.generatedCodeMappings, .schemaElementUid, .contractElements, .cascade⟩,
   ⟨.boundaryContracts, .surfaceUid, .boundaryInteractionSurfaces, .cascade⟩,
   ⟨.boundaryContracts, .contractElementUid, .contractElements, .setNull⟩,
   ⟨.boundaryInteractionLinks, .providerSurfaceUid, .boundaryInteractionSurfaces, .cascade⟩,
   ⟨.boundaryInteractionLinks, .consumerSurfaceUid, .boundaryInteractionSurfaces, .cascade⟩,
   ⟨.boundaryInteractionLinks, .contractElementUid, .contractElements, .setNull⟩,
   ⟨.declarations, .supersedesUid, .declarations, .noAction⟩]

def snapshotAction : Table → Option OnDelete
  | .unresolvedEdges | .boundaryProviderFacts | .boundaryConsumerFacts | .boundaryLinks => some .noAction
  | .boundaryChannelDetails | .boundaryContracts | .contractElements => none
  | _ => some .cascade

def namesSnapshot (action : OnDelete) (snapshotUid : String) (r : TableRow) : Bool :=
  (snapshotAction r.table == some action && r.col .snapshotUid == some snapshotUid) ||
    (action == .cascade && r.table == .qualityAssessments && r.col .baselineSnapshotUid == some snapshotUid)

inductive RetentionClass
  | current
  | parent
  | baselineAuto
  | baselineUser
  | baselineStamp
  | prunable
  deriving DecidableEq, Repr

def RetentionClass.asStr : RetentionClass → String
  | .current => "current"
  | .parent => "parent"
  | .baselineAuto => "baseline_auto"
  | .baselineUser => "baseline_user"
  | .baselineStamp => "baseline_stamp"
  | .prunable => "prunable"

def currentCacheEpoch : String := "1.0"

structure SnapshotRow where
  snapshotUid : String
  repoUid : String
  parentSnapshotUid : Option String
  status : String
  createdAt : String
  retentionClass : Option String
  derivedCacheEpoch : Option String
  deriving DecidableEq, Repr

def SnapshotRow.isReady (s : SnapshotRow) (repoUid : String) : Bool := s.repoUid == repoUid && s.status == "ready"

/-- The store: the snapshots in the order the queries scan them, and the rows of the other tables. Primary keys
are unique and every foreign key between the other tables names a row. -/
structure Database where
  snapshots : List SnapshotRow
  rows : List TableRow
  snapshotKeys : (snapshots.map (·.snapshotUid)).Nodup
  rowKeys : KeysUnique rows
  references : Referential foreignKeys rows

namespace Database

def empty : Database := ⟨[], [], List.nodup_nil, List.nodup_nil, fun _ h => absurd h List.not_mem_nil⟩

def readySnapshots (db : Database) (repoUid : String) : List SnapshotRow := db.snapshots.filter (·.isReady repoUid)

def updateSnapshots (db : Database) (f : SnapshotRow → SnapshotRow)
    (hf : ∀ s, (f s).snapshotUid = s.snapshotUid) : Database :=
  { db with
    snapshots := db.snapshots.map f
    snapshotKeys := by simpa [Function.comp_def, hf] using db.snapshotKeys }

def deleteRows (db : Database) (cond : TableRow → Bool) : Option (Database × ℕ) :=
  match h : deleteWhere foreignKeys cond db.rows with
  | none => none
  | some d =>
    some ({ db with
            rows := d.rows
            rowKeys := db.rowKeys.deleteWhere h
            references := db.references.deleteWhere db.rowKeys h }, d.changes)

def dropSnapshot (db : Database) (snapshotUid : String) : Database :=
  { db with
    snapshots := db.snapshots.filter (·.snapshotUid ≠ snapshotUid)
    snapshotKeys := db.snapshotKeys.sublist (List.filter_sublist.map _) }

/-- DELETE on the snapshots table: its foreign keys act on the rows that name the snapshot. -/
def deleteSnapshotRow (db : Database) (snapshotUid : String) : Option Database :=
  (db.deleteRows (namesSnapshot .cascade snapshotUid)).bind fun (db, _) =>
    let dropped := db.dropSnapshot snapshotUid
    if dropped.rows.any (namesSnapshot .noAction snapshotUid) ||
        dropped.snapshots.any (·.parentSnapshotUid = some snapshotUid) then none
    else some dropped

@[simp] lemma dropSnapshot_snapshots (db : Database) (snapshotUid : String) :
    (db.dropSnapshot snapshotUid).snapshots = db.snapshots.filter (·.snapshotUid ≠ snapshotUid) := rfl

@[simp] lemma dropSnapshot_rows (db : Database) (snapshotUid : String) :
    (db.dropSnapshot snapshotUid).rows = db.rows := rfl

@[simp] lemma updateSnapshots_rows (db : Database) (f : SnapshotRow → SnapshotRow)
    (hf : ∀ s, (f s).snapshotUid = s.snapshotUid) : (db.updateSnapshots f hf).rows = db.rows := rfl

@[simp] lemma updateSnapshots_snapshots (db : Database) (f : SnapshotRow → SnapshotRow)
    (hf : ∀ s, (f s).snapshotUid = s.snapshotUid) : (db.updateSnapshots f hf).snapshots = db.snapshots.map f := rfl

lemma ext_rows {a b : Database} (hs : a.snapshots = b.snapshots) (hr : a.rows = b.rows) : a = b := by
  cases a
  cases b
  simp_all

lemma deleteRows_eq_some {db db' : Database} {cond : TableRow → Bool} {changes : ℕ}
    (h : db.deleteRows cond = some (db', changes)) :
    deleteWhere foreignKeys cond db.rows = some ⟨db'.rows, changes⟩ ∧ db'.snapshots = db.snapshots := by
  rw [deleteRows] at h
  split at h
  · cases h
  · next d hd =>
    cases h
    exact ⟨hd, rfl⟩

lemma deleteRows_of_deleteWhere {db : Database} {cond : TableRow → Bool} {d : Deletion Table Column}
    (h : deleteWhere foreignKeys cond db.rows = some d) :
    ∃ db', db.deleteRows cond = some (db', d.changes) ∧ db'.snapshots = db.snapshots ∧ db'.rows = d.rows := by
  rw [deleteRows]
  split
  · next hd => simp [h] at hd
  · next d' hd =>
    rw [h] at hd
    cases hd
    exact ⟨_, rfl, rfl, rfl⟩

lemma deleteSnapshotRow_snapshots {db db' : Database} {snapshotUid : String}
    (h : db.deleteSnapshotRow snapshotUid = some db') :
    db'.snapshots = db.snapshots.filter (·.snapshotUid ≠ snapshotUid) := by
  obtain ⟨⟨mid, changes⟩, hmid, h⟩ := Option.bind_eq_some_iff.mp h
  have hs := (deleteRows_eq_some hmid).2
  dsimp only at h
  split at h
  · cases h
  · cases h
    rw [dropSnapshot_snapshots, hs]

end Database

end RepoGraph.Storage
