import RepoGraph.Storage.Schema

/-! The tables that a narrow empties and those it keeps, the snapshot a row belongs to, and the stores whose
rows name rows of their own snapshot only. -/

namespace RepoGraph.Storage

open Lib.Relational

def stampKeepMeasurementTables : List Table := [.measurements, .qualityAssessments]

def stampKeepAuthorityTables : List Table := [.declarations]

def stampNarrowTables : List Table :=
  [.edges, .extractionEdges, .stagedEdges, .unresolvedEdges, .symbolCallDegrees, .resolvedCallFilePairs, .nodes,
    .fileVersions, .fileSignals, .moduleCandidateEvidence, .moduleFileOwnership, .moduleDiscoveryDiagnostics,
    .moduleCandidates, .statusMappings, .behavioralMarkers, .returnFates, .evidenceLinks, .artifacts, .inferences,
    .annotations, .boundaryLinks, .boundaryProviderFacts, .boundaryConsumerFacts, .boundaryInteractionLinks,
    .boundaryInteractionSurfaces, .generatedCodeMappings, .contractSchemas, .surfaceConfigRoots,
    .surfaceEntrypoints, .surfaceEnvDependencies, .surfaceEnvEvidence, .surfaceFsMutations,
    .surfaceFsMutationEvidence, .projectSurfaceEvidence, .projectSurfaces, .seedVectors]

structure CascadeChild where
  table : Table
  parentTable : Table
  childFkColumn : Column
  deriving DecidableEq, Repr

def stampNarrowCascadeChildren : List CascadeChild :=
  [⟨.boundaryChannelDetails, .boundaryInteractionSurfaces, .surfaceUid⟩,
    ⟨.boundaryContracts, .boundaryInteractionSurfaces, .surfaceUid⟩,
    ⟨.contractElements, .contractSchemas, .schemaUid⟩]

def CascadeChild.joins (child : CascadeChild) (snapshotUid : String) (c p : TableRow) : Bool :=
  c.table == child.table && p.table == child.parentTable && c.col child.childFkColumn == some p.key &&
    p.col .snapshotUid == some snapshotUid

/-- The row belongs to a snapshot: by its own column, or by its parent where it has none. -/
def ownedBy (rows : List TableRow) (snapshotUid : String) (r : TableRow) : Bool :=
  r.col .snapshotUid == some snapshotUid ||
    stampNarrowCascadeChildren.any fun child => rows.any (child.joins snapshotUid r)

def requiredColumns : Table → List Column
  | .edges => [.snapshotUid, .sourceNodeUid, .targetNodeUid]
  | .unresolvedEdges => [.snapshotUid, .sourceNodeUid]
  | .evidenceLinks => [.snapshotUid, .artifactUid]
  | .boundaryLinks => [.snapshotUid, .providerFactUid, .consumerFactUid]
  | .moduleCandidateEvidence | .moduleFileOwnership | .projectSurfaces => [.snapshotUid, .moduleCandidateUid]
  | .projectSurfaceEvidence | .surfaceConfigRoots | .surfaceEntrypoints | .surfaceEnvDependencies
  | .surfaceFsMutations | .surfaceFsMutationEvidence => [.snapshotUid, .projectSurfaceUid]
  | .surfaceEnvEvidence => [.snapshotUid, .surfaceEnvDependencyUid]
  | .boundaryChannelDetails | .boundaryContracts => [.surfaceUid]
  | .contractElements => [.schemaUid]
  | .generatedCodeMappings => [.snapshotUid, .schemaElementUid]
  | .boundaryInteractionLinks => [.snapshotUid, .providerSurfaceUid, .consumerSurfaceUid]
  | .declarations => []
  | _ => [.snapshotUid]

def FitsTable (r : TableRow) : Prop :=
  (snapshotAction r.table = none → r.col .snapshotUid = none) ∧ ∀ c ∈ requiredColumns r.table, (r.col c).isSome

instance instDecidableFitsTable (r : TableRow) : Decidable (FitsTable r) := inferInstanceAs (Decidable (_ ∧ _))

/-- The row names rows of its own snapshot only; a declaration may supersede any other. -/
def NamesOwnSnapshot (rows : List TableRow) (r : TableRow) : Prop :=
  ∀ fk ∈ foreignKeys, fk.parent ≠ .declarations → ∀ p ∈ rows, fk.Links r p →
    ∀ snapshotUid, ownedBy rows snapshotUid p = true → ownedBy rows snapshotUid r = true

structure SelfContained (rows : List TableRow) : Prop where
  fits : ∀ r ∈ rows, FitsTable r
  within : ∀ r ∈ rows, NamesOwnSnapshot rows r

section Ownership

variable {rows rows' : List TableRow} {snapshotUid : String} {r : TableRow}

lemma ownedBy_iff : ownedBy rows snapshotUid r = true ↔
    r.col .snapshotUid = some snapshotUid ∨
      ∃ child ∈ stampNarrowCascadeChildren, ∃ p ∈ rows, child.joins snapshotUid r p = true := by
  simp [ownedBy]

lemma CascadeChild.joins_iff {child : CascadeChild} {c p : TableRow} : child.joins snapshotUid c p = true ↔
    c.table = child.table ∧ p.table = child.parentTable ∧ c.col child.childFkColumn = some p.key ∧
      p.col .snapshotUid = some snapshotUid := by
  simp [CascadeChild.joins, and_assoc]

lemma childForeignKey {child : CascadeChild} (h : child ∈ stampNarrowCascadeChildren) :
    (⟨child.table, child.childFkColumn, child.parentTable, .cascade⟩ : ForeignKey Table Column) ∈ foreignKeys := by
  revert h child
  decide

lemma child_unscoped {child : CascadeChild} (h : child ∈ stampNarrowCascadeChildren) :
    snapshotAction child.table = none := by
  revert h child
  decide

lemma child_of_table : ∀ child ∈ stampNarrowCascadeChildren, ∀ child' ∈ stampNarrowCascadeChildren,
    child.table = child'.table → child = child' := by
  decide

lemma ownedBy_mono (hsub : rows ⊆ rows') (h : ownedBy rows snapshotUid r = true) :
    ownedBy rows' snapshotUid r = true := by
  rw [ownedBy_iff] at h ⊢
  refine h.imp_right ?_
  rintro ⟨child, hchild, p, hp, hjoins⟩
  exact ⟨child, hchild, p, hsub hp, hjoins⟩

end Ownership

section Delete

variable {cond : TableRow → Bool} {rows : List TableRow} {d : Deletion Table Column}

lemma setNull_column {fk : ForeignKey Table Column} (h : fk ∈ foreignKeys) (haction : fk.onDelete = .setNull) :
    fk.column = .contractElementUid := by
  revert h fk
  decide

lemma nullify_col {c : Column} (hc : c ≠ .contractElementUid) (doomed : List TableRow) (r : TableRow) :
    (nullify foreignKeys doomed r).col c = r.col c :=
  nullify_col_of_ne (fun _ hfk haction heq => hc (heq.symm.trans (setNull_column hfk haction))) doomed r

lemma required_ne {c : Column} {t : Table} (h : c ∈ requiredColumns t) : c ≠ .contractElementUid := by
  rintro rfl
  revert h
  cases t <;> decide

lemma childFkColumn_ne {child : CascadeChild} (h : child ∈ stampNarrowCascadeChildren) :
    child.childFkColumn ≠ .contractElementUid := by
  revert h child
  decide

lemma ownedBy_deleteWhere (hkeys : KeysUnique rows) (h : deleteWhere foreignKeys cond rows = some d) {r : TableRow}
    (hr : r ∈ rows) (hkept : ¬ Doomed foreignKeys cond rows r) (snapshotUid : String) :
    ownedBy d.rows snapshotUid (nullify foreignKeys (doomedRows foreignKeys cond rows) r) = true ↔
      ownedBy rows snapshotUid r = true := by
  have hmem := fun {r'} => mem_deleteWhere (r := r') hkeys h
  set doomed := doomedRows foreignKeys cond rows
  rw [ownedBy_iff, ownedBy_iff, nullify_col (by decide)]
  refine or_congr Iff.rfl ⟨?_, ?_⟩
  · rintro ⟨child, hchild, p', hp', hjoins⟩
    obtain ⟨p, hp, -, rfl⟩ := hmem.mp hp'
    rw [CascadeChild.joins_iff, nullify_col (childFkColumn_ne hchild), nullify_col (by decide)] at hjoins
    exact ⟨child, hchild, p, hp, CascadeChild.joins_iff.mpr hjoins⟩
  · rintro ⟨child, hchild, p, hp, hjoins⟩
    obtain ⟨htable, hparent, hcol, huid⟩ := CascadeChild.joins_iff.mp hjoins
    have hpkept : ¬ Doomed foreignKeys cond rows p := fun hdoomed =>
      hkept (.cascaded hr hdoomed ⟨_, childForeignKey hchild, rfl, htable.symm, hparent.symm, hcol⟩)
    refine ⟨child, hchild, nullify foreignKeys doomed p, hmem.mpr ⟨p, hp, hpkept, rfl⟩, ?_⟩
    rw [CascadeChild.joins_iff, nullify_col (childFkColumn_ne hchild), nullify_col (by decide)]
    exact ⟨htable, hparent, hcol, huid⟩

lemma SelfContained.deleteWhere (hself : SelfContained rows) (hkeys : KeysUnique rows)
    (h : deleteWhere foreignKeys cond rows = some d) : SelfContained d.rows := by
  have hmem := fun {r'} => mem_deleteWhere (r := r') hkeys h
  constructor
  case fits =>
    intro r' hr'
    obtain ⟨r, hr, -, rfl⟩ := hmem.mp hr'
    obtain ⟨hunscoped, hrequired⟩ := hself.fits r hr
    refine ⟨fun hnone => ?_, fun c hc => ?_⟩
    · rw [nullify_col (by decide)]
      exact hunscoped hnone
    · rw [nullify_col (required_ne hc)]
      exact hrequired c hc
  case within =>
    intro r' hr' fk hfk hparent p' hp' hlinks snapshotUid howned
    obtain ⟨r, hr, hrkept, rfl⟩ := hmem.mp hr'
    obtain ⟨p, hp, hpkept, rfl⟩ := hmem.mp hp'
    have hlinks : fk.Links r p := ⟨hlinks.1, hlinks.2.1, (nullify_col_eq_some hlinks.2.2).1⟩
    rw [ownedBy_deleteWhere hkeys h hr hrkept]
    exact hself.within r hr fk hfk hparent p hp hlinks snapshotUid
      ((ownedBy_deleteWhere hkeys h hp hpkept snapshotUid).mp howned)

end Delete

section Append

variable {rows : List TableRow} {row : TableRow}

lemma not_links_new (href : Referential foreignKeys rows) (hfresh : ∀ r ∈ rows, r.id ≠ row.id)
    {fk : ForeignKey Table Column} (hfk : fk ∈ foreignKeys) {r : TableRow} (hr : r ∈ rows) : ¬ fk.Links r row := by
  rintro ⟨hchild, hparent, hcol⟩
  obtain ⟨p, hp, -, hparent', hcol'⟩ := href r hr fk hfk hchild _ hcol
  refine hfresh p hp (Prod.ext (hparent'.symm.trans hparent) ?_)
  exact (Option.some.inj (hcol.symm.trans hcol')).symm

lemma ownedBy_append (href : Referential foreignKeys rows) (hfresh : ∀ r ∈ rows, r.id ≠ row.id) {r : TableRow}
    (hr : r ∈ rows) (snapshotUid : String) :
    ownedBy (rows ++ [row]) snapshotUid r = true ↔ ownedBy rows snapshotUid r = true := by
  refine ⟨fun h => ?_, ownedBy_mono (List.subset_append_left _ _)⟩
  rw [ownedBy_iff] at h ⊢
  refine h.imp_right ?_
  rintro ⟨child, hchild, p, hp, hjoins⟩
  rcases List.mem_append.mp hp with hp | hp
  · exact ⟨child, hchild, p, hp, hjoins⟩
  · rw [List.mem_singleton] at hp
    subst hp
    obtain ⟨htable, hparent, hcol, -⟩ := CascadeChild.joins_iff.mp hjoins
    exact absurd ⟨htable.symm, hparent.symm, hcol⟩ (not_links_new href hfresh (childForeignKey hchild) hr)

lemma SelfContained.append (hself : SelfContained rows) (href : Referential foreignKeys rows)
    (hfresh : ∀ r ∈ rows, r.id ≠ row.id) (hfits : FitsTable row) (hown : NamesOwnSnapshot (rows ++ [row]) row) :
    SelfContained (rows ++ [row]) := by
  constructor
  case fits =>
    intro r hr
    rcases List.mem_append.mp hr with hr | hr
    · exact hself.fits r hr
    · rw [List.mem_singleton] at hr
      rwa [hr]
  case within =>
    intro r hr
    rcases List.mem_append.mp hr with hr | hr
    · intro fk hfk hparent p hp hlinks snapshotUid howned
      rcases List.mem_append.mp hp with hp | hp
      · rw [ownedBy_append href hfresh hp] at howned
        rw [ownedBy_append href hfresh hr]
        exact hself.within r hr fk hfk hparent p hp hlinks snapshotUid howned
      · rw [List.mem_singleton.mp hp] at hlinks
        exact absurd hlinks (not_links_new href hfresh hfk hr)
    · rw [List.mem_singleton] at hr
      rwa [hr]

end Append

end RepoGraph.Storage
