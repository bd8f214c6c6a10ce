import RepoGraph.Storage.Retention.Prune
import RepoGraph.Storage.Retention.StampTables

/-! Narrowing: the snapshots marked as baseline stamps that are not served lose their graph rows. -/

namespace RepoGraph.Storage

open Lib Lib.Relational

structure NarrowedBaseline where
  snapshotUid : String
  rowsDeleted : ℕ
  deriving DecidableEq, Repr

namespace Database

def childCount (db : Database) (snapshotUid : String) (child : CascadeChild) : ℕ :=
  (db.rows.map fun c => db.rows.countP (child.joins snapshotUid c)).sum

def narrowTables (snapshotUid : String) : List Table → Database → Option (Database × ℕ)
  | [], db => some (db, 0)
  | table :: tables, db =>
    (db.deleteRows (ofSnapshot table snapshotUid)).bind fun (db, direct) =>
      (narrowTables snapshotUid tables db).map fun (db, rest) => (db, direct + rest)

/-- The transaction that narrows one snapshot: the cascade children are counted while their parents exist. -/
def narrowSnapshot (db : Database) (snapshotUid : String) : Option (Database × ℕ) :=
  let children := (stampNarrowCascadeChildren.map (db.childCount snapshotUid)).sum
  (narrowTables snapshotUid stampNarrowTables db).map fun (db, direct) => (db, children + direct)

def latestReady (db : Database) (repoUid : String) : Option SnapshotRow :=
  (newestFirst (db.readySnapshots repoUid)).head?

def narrowCandidates (db : Database) (repoUid : String) (latest : SnapshotRow) : List String :=
  (db.snapshots.filter fun s =>
    s.isReady repoUid && s.retentionClass == some RetentionClass.baselineStamp.asStr &&
      s.snapshotUid != latest.snapshotUid && s.snapshotUid != latest.parentSnapshotUid.getD "").map (·.snapshotUid)

/-- A transaction that fails is rolled back and ends the loop; those before it stay committed. -/
def narrowAll (db : Database) : List String → Database × Option (List NarrowedBaseline)
  | [] => (db, some [])
  | uid :: uids =>
    match db.narrowSnapshot uid with
    | none => (db, none)
    | some (db, rowsDeleted) =>
      let (db, narrowed) := db.narrowAll uids
      (db, narrowed.map fun l => if rowsDeleted > 0 then ⟨uid, rowsDeleted⟩ :: l else l)

def narrowStampBaselines (db : Database) (repoUid : String) : Database × Option (List NarrowedBaseline) :=
  match db.latestReady repoUid with
  | none => (db, some [])
  | some latest => db.narrowAll (db.narrowCandidates repoUid latest)

end Database

def downstream (table : Table) : List Table :=
  let next := fun ts : List Table =>
    ts ++ (foreignKeys.filter fun fk => fk.onDelete = .cascade ∧ fk.parent ∈ ts ∧ fk.child ∉ ts).map (·.child)
  next (next (next [table]))

/-- The tables that narrowing empties by a cascade before it comes to them. -/
def surfaceTables : List Table :=
  [.surfaceConfigRoots, .surfaceEntrypoints, .surfaceEnvDependencies, .surfaceEnvEvidence, .surfaceFsMutations,
    .surfaceFsMutationEvidence, .projectSurfaceEvidence, .projectSurfaces]

def ownerTable (table : Table) : Table :=
  ((stampNarrowCascadeChildren.find? (·.table = table)).map (·.parentTable)).getD table

def isGraphTable (table : Table) : Bool :=
  stampNarrowTables.contains (ownerTable table)

def graphRow (rows : List TableRow) (snapshotUid : String) (r : TableRow) : Bool :=
  isGraphTable r.table && ownedBy rows snapshotUid r

section Order

lemma self_mem_downstream (t : Table) : t ∈ downstream t := by
  simp [downstream]

/-- What the order of the narrowed tables relies on in the schema. -/
structure StampNarrowOrder : Prop where
  closed : ∀ t ∈ stampNarrowTables, ∀ fk ∈ foreignKeys, fk.onDelete = .cascade → fk.parent ∈ downstream t →
    fk.child ∈ downstream t
  graph : ∀ t ∈ stampNarrowTables, ∀ u ∈ downstream t, isGraphTable u = true
  nodup : stampNarrowTables.Nodup
  /-- A table emptied by the cascade of an earlier one is one of the surface tables. -/
  surfaces : stampNarrowTables.Pairwise fun t u => u ∈ downstream t → u ∈ surfaceTables
  /-- A row that names a removed row without a cascade has its owner in the same table or an earlier one. -/
  referrers : ∀ fk ∈ foreignKeys, fk.onDelete ≠ .cascade → fk.parent ≠ .declarations →
    ownerTable fk.child ∈ stampNarrowTables ∧
      stampNarrowTables.Pairwise fun t u => fk.parent ∈ downstream t → ownerTable fk.child ≠ u
  candidates : .moduleCandidates ∈ stampNarrowTables ∧
    stampNarrowTables.Pairwise fun t u => t ∈ surfaceTables → .moduleCandidates ≠ u
  surfacePath : ∀ t ∈ surfaceTables, t = .projectSurfaces ∨ ∃ fk ∈ foreignKeys, fk.child = t ∧
    fk.column ∈ requiredColumns t ∧ (fk.parent = .projectSurfaces ∨ fk.parent = .surfaceEnvDependencies)

lemma stampNarrowOrder : StampNarrowOrder := by
  constructor <;> decide +kernel

lemma ownerTable_of_scoped {t : Table} (h : snapshotAction t ≠ none) : ownerTable t = t := by
  revert h
  cases t <;> decide

lemma isGraphTable_ne {t : Table} (h : isGraphTable t = true) : t ≠ .declarations := by
  rintro rfl
  revert h
  decide

lemma owner_of_child {child : CascadeChild} (h : child ∈ stampNarrowCascadeChildren) :
    ownerTable child.table = child.parentTable := by
  revert h child
  decide

lemma surface_scoped {t : Table} (h : t ∈ surfaceTables) : snapshotAction t ≠ none := by
  revert h
  cases t <;> decide

lemma kept_not_graph {t : Table} (h : t ∈ stampKeepMeasurementTables ++ stampKeepAuthorityTables) :
    isGraphTable t = false := by
  revert h
  cases t <;> decide

lemma mem_done_or_eq {q : Table → Prop} {v : Table}
    (h : v ∈ stampNarrowTables ∧ stampNarrowTables.Pairwise fun t u => q t → v ≠ u) {done rest : List Table}
    {t : Table} (hsplit : stampNarrowTables = done ++ t :: rest) (ht : q t) : v ∈ done ∨ v = t := by
  obtain ⟨hmem, hpair⟩ := h
  rw [hsplit] at hmem hpair
  rcases List.mem_append.mp hmem with hmem | hmem
  · exact .inl hmem
  · rcases List.mem_cons.mp hmem with rfl | hmem
    · exact .inr rfl
    · have hrest := (List.pairwise_cons.mp (List.pairwise_append.mp hpair).2.1).1
      exact absurd rfl (hrest v hmem ht)

end Order

section Owners

variable {rows rows' : List TableRow} {snapshotUid : String} {r : TableRow}

lemma ofSnapshot_iff {t : Table} : ofSnapshot t snapshotUid r = true ↔
    r.table = t ∧ r.col .snapshotUid = some snapshotUid := by
  simp [ofSnapshot]

lemma SelfContained.scoped (hself : SelfContained rows) (hr : r ∈ rows)
    (h : r.col .snapshotUid = some snapshotUid) :
    snapshotAction r.table ≠ none := by
  intro hnone
  rw [(hself.fits r hr).1 hnone] at h
  cases h

lemma SelfContained.owner_unique (hself : SelfContained rows) (hkeys : KeysUnique rows) (hr : r ∈ rows)
    (h : ownedBy rows snapshotUid r = true) {other : String} (hother : ownedBy rows other r = true) :
    snapshotUid = other := by
  have hunscoped : ∀ {uid : String} {child : CascadeChild} {p : TableRow}, child ∈ stampNarrowCascadeChildren →
      child.joins uid r p = true → ∀ v, r.col .snapshotUid ≠ some v := by
    intro uid child p hchild hjoins v hv
    have htable := (CascadeChild.joins_iff.mp hjoins).1
    exact hself.scoped hr hv (htable ▸ child_unscoped hchild)
  rcases ownedBy_iff.mp h with h | ⟨child, hchild, p, hp, hjoins⟩ <;>
    rcases ownedBy_iff.mp hother with h' | ⟨child', hchild', p', hp', hjoins'⟩
  · exact Option.some.inj (h.symm.trans h')
  · exact absurd h (hunscoped hchild' hjoins' _)
  · exact absurd h' (hunscoped hchild hjoins _)
  · obtain ⟨ht, hparent, hcol, hsnap⟩ := CascadeChild.joins_iff.mp hjoins
    obtain ⟨ht', hparent', hcol', hsnap'⟩ := CascadeChild.joins_iff.mp hjoins'
    have hsame : child = child' := child_of_table child hchild child' hchild' (ht.symm.trans ht')
    subst hsame
    have hp' : p = p' := hkeys.eq_of_id hp' hp
      (Prod.ext (hparent.trans hparent'.symm) (Option.some.inj (hcol.symm.trans hcol')))
    rw [← hp', hsnap] at hsnap'
    exact Option.some.inj hsnap'

lemma SelfContained.owner (hself : SelfContained rows) (hr : r ∈ rows) (h : ownedBy rows snapshotUid r = true) :
    ∃ p ∈ rows, ofSnapshot (ownerTable r.table) snapshotUid p = true ∧
    (p = r ∨ Refers foreignKeys .cascade r p) := by
  rcases ownedBy_iff.mp h with h | ⟨child, hchild, p, hp, hjoins⟩
  · rw [ownerTable_of_scoped (hself.scoped hr h)]
    exact ⟨r, hr, ofSnapshot_iff.mpr ⟨rfl, h⟩, .inl rfl⟩
  · obtain ⟨htable, hparent, hcol, hsnap⟩ := CascadeChild.joins_iff.mp hjoins
    rw [htable, owner_of_child hchild]
    exact ⟨p, hp, ofSnapshot_iff.mpr ⟨hparent, hsnap⟩,
      .inr ⟨_, childForeignKey hchild, rfl, htable.symm, hparent.symm, hcol⟩⟩

lemma ownedBy_subset (hsub : rows' ⊆ rows) (hkeys : KeysUnique rows) (href : Referential foreignKeys rows')
    (hr : r ∈ rows') : ownedBy rows' snapshotUid r = true ↔ ownedBy rows snapshotUid r = true := by
  refine ⟨ownedBy_mono hsub, fun h => ?_⟩
  rw [ownedBy_iff] at h ⊢
  refine h.imp_right ?_
  rintro ⟨child, hchild, p, hp, hjoins⟩
  obtain ⟨htable, hparent, hcol, -⟩ := CascadeChild.joins_iff.mp hjoins
  obtain ⟨p', hp', -, hparent', hcol'⟩ := href r hr _ (childForeignKey hchild) htable.symm _ hcol
  have heq : p' = p := hkeys.eq_of_id hp (hsub hp')
    (Prod.ext (hparent'.symm.trans hparent.symm) (Option.some.inj (hcol'.symm.trans hcol)))
  exact ⟨child, hchild, p', hp', heq ▸ hjoins⟩

lemma SelfContained.parent (hself : SelfContained rows) (hkeys : KeysUnique rows)
    (href : Referential foreignKeys rows) {t : Table} (hr : r ∈ rows) (h : ofSnapshot t snapshotUid r = true)
    (fk : ForeignKey Table Column) (hfk : fk ∈ foreignKeys) (hchild : fk.child = t)
    (hrequired : fk.column ∈ requiredColumns t) (hscoped : .snapshotUid ∈ requiredColumns fk.parent)
    (hparent : fk.parent ≠ .declarations) : ∃ p ∈ rows, ofSnapshot fk.parent snapshotUid p = true := by
  obtain ⟨rfl, hsnap⟩ := ofSnapshot_iff.mp h
  obtain ⟨k, hk⟩ := Option.isSome_iff_exists.mp ((hself.fits r hr).2 _ hrequired)
  obtain ⟨p, hp, hlinks⟩ := href r hr fk hfk hchild k hk
  rw [hlinks.2.1] at hscoped
  obtain ⟨uid, huid⟩ := Option.isSome_iff_exists.mp ((hself.fits p hp).2 _ hscoped)
  have howned : ownedBy rows uid r = true :=
    hself.within r hr fk hfk hparent p hp hlinks uid (ownedBy_iff.mpr (.inl huid))
  have heq := hself.owner_unique hkeys hr howned (ownedBy_iff.mpr (.inl hsnap))
  exact ⟨p, hp, ofSnapshot_iff.mpr ⟨hlinks.2.1.symm, heq ▸ huid⟩⟩

lemma SelfContained.projectSurface (hself : SelfContained rows) (hkeys : KeysUnique rows)
    (href : Referential foreignKeys rows) {t : Table} (ht : t ∈ surfaceTables) (hr : r ∈ rows)
    (h : ofSnapshot t snapshotUid r = true) : ∃ p ∈ rows, ofSnapshot .projectSurfaces snapshotUid p = true := by
  rcases stampNarrowOrder.surfacePath t ht with rfl | ⟨fk, hfk, hchild, hrequired, hparent⟩
  · exact ⟨r, hr, h⟩
  · rcases hparent with hparent | hparent
    · rw [← hparent]
      exact hself.parent hkeys href hr h fk hfk hchild hrequired (by rw [hparent]; decide)
        (by rw [hparent]; decide)
    · obtain ⟨p, hp, hsnap⟩ := hself.parent hkeys href hr h fk hfk hchild hrequired (by rw [hparent]; decide)
        (by rw [hparent]; decide)
      rw [hparent] at hsnap
      exact hself.parent hkeys href hp hsnap
        ⟨.surfaceEnvDependencies, .projectSurfaceUid, .projectSurfaces, .cascade⟩ (by decide) rfl (by decide)
        (by decide) (by decide)

lemma SelfContained.moduleCandidate (hself : SelfContained rows) (hkeys : KeysUnique rows)
    (href : Referential foreignKeys rows) (hr : r ∈ rows) (h : ofSnapshot .projectSurfaces snapshotUid r = true) :
    ∃ p ∈ rows, ofSnapshot .moduleCandidates snapshotUid p = true :=
  hself.parent hkeys href hr h ⟨.projectSurfaces, .moduleCandidateUid, .moduleCandidates, .cascade⟩
    (by decide) rfl (by decide) (by decide) (by decide)

end Owners

section Tables

variable {snapshotUid : String} {rows initial : List TableRow} {done rest : List Table} {t : Table}

lemma doomed_owned (hself : SelfContained rows) (ht : t ∈ stampNarrowTables) {r : TableRow}
    (h : Doomed foreignKeys (ofSnapshot t snapshotUid) rows r) :
    r.table ∈ downstream t ∧ ownedBy rows snapshotUid r = true := by
  refine h.invariant (q := fun r => r.table ∈ downstream t ∧ ownedBy rows snapshotUid r = true) ?_ ?_
  · intro r hr hcond
    obtain ⟨rfl, hsnap⟩ := ofSnapshot_iff.mp hcond
    exact ⟨self_mem_downstream _, ownedBy_iff.mpr (.inl hsnap)⟩
  · rintro r hr p hp ⟨fk, hfk, haction, hlinks⟩ ⟨hdown, howned⟩
    rw [← hlinks.2.1] at hdown
    refine ⟨hlinks.1 ▸ stampNarrowOrder.closed _ ht fk hfk haction hdown, ?_⟩
    exact hself.within r hr fk hfk (isGraphTable_ne (stampNarrowOrder.graph _ ht _ hdown)) p hp hlinks _ howned

lemma deleteWhere_narrow (hself : SelfContained rows) (hkeys : KeysUnique rows)
    (hsplit : stampNarrowTables = done ++ t :: rest)
    (hcleared : ∀ r ∈ rows, ∀ u ∈ done, ofSnapshot u snapshotUid r = false) :
    ∃ gone : TableRow → Bool,
      (∀ r ∈ rows, Doomed foreignKeys (ofSnapshot t snapshotUid) rows r ↔ gone r = true) ∧
      deleteWhere foreignKeys (ofSnapshot t snapshotUid) rows =
        some ⟨rows.filter fun r => !gone r, (rows.filter (ofSnapshot t snapshotUid)).length⟩ := by
  classical
  have ht : t ∈ stampNarrowTables := by
    rw [hsplit]
    simp
  have hgone : ∀ r ∈ rows, Doomed foreignKeys (ofSnapshot t snapshotUid) rows r ↔
      decide (Doomed foreignKeys (ofSnapshot t snapshotUid) rows r) = true := fun r _ => decide_eq_true_iff.symm
  refine ⟨_, hgone, deleteWhere_eq_filter hkeys hgone fun r hr hkept p hp hdoomed => ?_⟩
  have hdoomed := of_decide_eq_true hdoomed
  have hkept := of_decide_eq_false hkept
  have hcascade : ∀ fk ∈ foreignKeys, fk.onDelete ≠ .cascade → ¬ fk.Links r p := by
    intro fk hfk haction hlinks
    obtain ⟨hdown, howned⟩ := doomed_owned hself ht hdoomed
    rw [← hlinks.2.1] at hdown
    have hne := isGraphTable_ne (stampNarrowOrder.graph _ ht _ hdown)
    have hr' := hself.within r hr fk hfk hne p hp hlinks _ howned
    obtain ⟨q, hq, hsnap, href⟩ := hself.owner hr hr'
    rw [← hlinks.1] at hsnap
    rcases mem_done_or_eq (stampNarrowOrder.referrers fk hfk haction hne) hsplit hdown with hmem | heq
    · rw [hcleared q hq _ hmem] at hsnap
      cases hsnap
    · rw [heq] at hsnap
      rcases href with rfl | href
      · exact hkept (.matched hq hsnap)
      · exact hkept (.cascaded hr (.matched hq hsnap) href)
  constructor
  · rintro ⟨fk, hfk, haction, hlinks⟩
    exact hcascade fk hfk (by rw [haction]; decide) hlinks
  · rintro ⟨fk, hfk, haction, hlinks⟩
    exact hcascade fk hfk (by rw [haction]; decide) hlinks

/-- How far a narrow has come: the tables done hold nothing of the snapshot, and what is gone was its own. -/
structure Narrowing (snapshotUid : String) (initial : List TableRow) (done : List Table) (rows : List TableRow) :
    Prop where
  filtered : ∃ gone : TableRow → Bool, rows = initial.filter (fun r => !gone r) ∧ ∀ r ∈ initial, gone r = true →
    ownedBy initial snapshotUid r = true ∧ ∃ t ∈ done, r.table ∈ downstream t
  cleared : ∀ r ∈ rows, ∀ t ∈ done, ofSnapshot t snapshotUid r = false

lemma Narrowing.start : Narrowing snapshotUid initial [] initial :=
  ⟨⟨fun _ => false, by simp, by simp⟩, by simp⟩

lemma Narrowing.subset (h : Narrowing snapshotUid initial done rows) : rows ⊆ initial := by
  obtain ⟨⟨gone, rfl, -⟩, -⟩ := h
  exact List.filter_subset_self _

lemma Narrowing.countP (h : Narrowing snapshotUid initial done rows)
    (hsplit : stampNarrowTables = done ++ t :: rest) (ht : t ∉ surfaceTables) :
    rows.countP (ofSnapshot t snapshotUid) = initial.countP (ofSnapshot t snapshotUid) := by
  obtain ⟨⟨gone, rfl, hgone⟩, -⟩ := h
  rw [List.countP_filter]
  refine List.countP_congr fun r hr => ?_
  rw [Bool.and_eq_true, Bool.not_eq_true', and_iff_left_iff_imp]
  intro hsnap
  rw [← Bool.not_eq_true]
  intro hg
  obtain ⟨-, u, hu, hdown⟩ := hgone r hr hg
  rw [(ofSnapshot_iff.mp hsnap).1] at hdown
  have hlater := stampNarrowOrder.surfaces
  rw [hsplit] at hlater
  exact ht ((List.pairwise_append.mp hlater).2.2 u hu t (List.mem_cons_self ..) hdown)

lemma Narrowing.countP_surface (h : Narrowing snapshotUid initial done rows) (hself : SelfContained rows)
    (hkeys : KeysUnique rows) (href : Referential foreignKeys rows)
    (hsplit : stampNarrowTables = done ++ t :: rest) (ht : t ∈ surfaceTables) :
    rows.countP (ofSnapshot t snapshotUid) = 0 := by
  rw [List.countP_eq_zero]
  intro r hr hsnap
  obtain ⟨p, hp, hproject⟩ := hself.projectSurface hkeys href ht hr hsnap
  obtain ⟨c, hc, hcandidate⟩ := hself.moduleCandidate hkeys href hp hproject
  rcases mem_done_or_eq stampNarrowOrder.candidates hsplit ht with hmem | rfl
  · rw [h.cleared c hc _ hmem] at hcandidate
    cases hcandidate
  · revert ht
    decide

lemma Narrowing.step (h : Narrowing snapshotUid initial done rows) (hself : SelfContained rows)
    (hkeys : KeysUnique rows) (href : Referential foreignKeys rows)
    (hsplit : stampNarrowTables = done ++ t :: rest) :
    ∃ d, deleteWhere foreignKeys (ofSnapshot t snapshotUid) rows = some d ∧
      Narrowing snapshotUid initial (done ++ [t]) d.rows ∧
      d.changes = if t ∈ surfaceTables then 0 else initial.countP (ofSnapshot t snapshotUid) := by
  have ht : t ∈ stampNarrowTables := by
    rw [hsplit]
    simp
  obtain ⟨gone', hgone', hdelete⟩ := deleteWhere_narrow hself hkeys hsplit h.cleared
  refine ⟨_, hdelete, ⟨?_, ?_⟩, ?_⟩
  · obtain ⟨⟨gone, hrows, hgone⟩, -⟩ := h
    refine ⟨fun r => gone r || gone' r, ?_, fun r hr hg => ?_⟩
    · conv_lhs => rw [hrows, List.filter_filter]
      refine List.filter_congr fun r _ => ?_
      rw [Bool.not_or, Bool.and_comm]
    · cases hold : gone r with
      | true =>
        obtain ⟨howned, u, hu, hdown⟩ := hgone r hr hold
        exact ⟨howned, u, List.mem_append_left _ hu, hdown⟩
      | false =>
        have hmem : r ∈ rows := by
          rw [hrows, List.mem_filter, hold]
          exact ⟨hr, rfl⟩
        have hg : (gone r || gone' r) = true := hg
        rw [hold, Bool.false_or] at hg
        obtain ⟨hdown, howned⟩ := doomed_owned hself ht ((hgone' r hmem).mpr hg)
        refine ⟨ownedBy_mono (by rw [hrows]; exact List.filter_subset_self _) howned, t, by simp, hdown⟩
  · intro r hr u hu
    obtain ⟨hr, hkept⟩ := List.mem_filter.mp hr
    rcases List.mem_append.mp hu with hu | hu
    · exact h.cleared r hr u hu
    · rw [List.mem_singleton.mp hu, ← Bool.not_eq_true]
      intro hsnap
      rw [(hgone' r hr).mp (.matched hr hsnap)] at hkept
      cases hkept
  · rw [← List.countP_eq_length_filter]
    split
    · next hsurface => exact h.countP_surface hself hkeys href hsplit hsurface
    · next hsurface => exact h.countP hsplit hsurface

lemma narrowTables_run {db : Database} {tables : List Table}
    (hsplit : stampNarrowTables = done ++ tables) (hself : SelfContained db.rows)
    (h : Narrowing snapshotUid initial done db.rows) :
    ∃ db', Database.narrowTables snapshotUid tables db =
        some (db', ((tables.filter (· ∉ surfaceTables)).map fun t =>
        initial.countP (ofSnapshot t snapshotUid)).sum) ∧
      db'.snapshots = db.snapshots ∧ SelfContained db'.rows ∧
      Narrowing snapshotUid initial stampNarrowTables db'.rows := by
  induction tables generalizing done db with
  | nil =>
    rw [List.append_nil] at hsplit
    exact ⟨db, rfl, rfl, hself, hsplit ▸ h⟩
  | cons t tables ih =>
    obtain ⟨d, hdelete, hstep, hchanges⟩ := h.step hself db.rowKeys db.references hsplit
    obtain ⟨mid, hmid, hsnap, hrows⟩ := Database.deleteRows_of_deleteWhere hdelete
    have hself' : SelfContained mid.rows := hrows ▸ hself.deleteWhere db.rowKeys hdelete
    obtain ⟨db', hrun, hsnap', hself'', hend⟩ := @ih (done ++ [t]) mid (by simpa using hsplit) hself'
      (hrows ▸ hstep)
    refine ⟨db', ?_, hsnap'.trans hsnap, hself'', hend⟩
    rw [Database.narrowTables, hmid, Option.bind_some]
    dsimp only
    rw [hrun, Option.map_some, hchanges]
    by_cases hsurface : t ∈ surfaceTables
    · simp [hsurface]
    · simp [hsurface]

end Tables

def countedRow (rows : List TableRow) (snapshotUid : String) (r : TableRow) : Bool :=
  graphRow rows snapshotUid r && !surfaceTables.contains r.table

section Count

variable {db : Database} {snapshotUid : String} {rows : List TableRow}

lemma isGraphTable_iff {t : Table} : isGraphTable t = true ↔
    t ∈ stampNarrowTables ∨ t ∈ stampNarrowCascadeChildren.map (·.table) := by
  cases t <;> decide

lemma scoped_of_narrowed {t : Table} (h : t ∈ stampNarrowTables) : snapshotAction t ≠ none := by
  revert h
  cases t <;> decide

lemma ownedBy_scoped {r : TableRow} (h : snapshotAction r.table ≠ none) :
    ownedBy rows snapshotUid r = (r.col .snapshotUid == some snapshotUid) := by
  rw [Bool.eq_iff_iff, ownedBy_iff, beq_iff_eq, or_iff_left_iff_imp]
  rintro ⟨child, hchild, p, -, hjoins⟩
  exact absurd ((CascadeChild.joins_iff.mp hjoins).1 ▸ child_unscoped hchild) h

lemma childCount_eq (hself : SelfContained db.rows) {child : CascadeChild}
    (hchild : child ∈ stampNarrowCascadeChildren) :
    db.childCount snapshotUid child =
      db.rows.countP fun r => r.table == child.table && ownedBy db.rows snapshotUid r := by
  rw [Database.childCount, countP_eq_sum]
  congr 1
  refine List.map_congr_left fun c hc => ?_
  have hpair : db.rows.Pairwise fun a b =>
      child.joins snapshotUid c a = true → child.joins snapshotUid c b = false := by
    refine (List.pairwise_map.mp db.rowKeys).imp fun {a b} hne ha => ?_
    rw [← Bool.not_eq_true]
    intro hb
    obtain ⟨-, hparent, hcol, -⟩ := CascadeChild.joins_iff.mp ha
    obtain ⟨-, hparent', hcol', -⟩ := CascadeChild.joins_iff.mp hb
    exact hne (Prod.ext (hparent.trans hparent'.symm) (Option.some.inj (hcol.symm.trans hcol')))
  rw [countP_of_unique hpair]
  congr 1
  rw [Bool.eq_iff_iff, List.any_eq_true, Bool.and_eq_true, beq_iff_eq, ownedBy_iff]
  constructor
  · rintro ⟨p, hp, hjoins⟩
    exact ⟨(CascadeChild.joins_iff.mp hjoins).1, .inr ⟨child, hchild, p, hp, hjoins⟩⟩
  · rintro ⟨htable, hsnap | ⟨child', hchild', p, hp, hjoins⟩⟩
    · exact absurd (htable ▸ child_unscoped hchild) (hself.scoped hc hsnap)
    · have heq := child_of_table child' hchild' child hchild
        ((CascadeChild.joins_iff.mp hjoins).1.symm.trans htable)
      exact ⟨p, hp, heq ▸ hjoins⟩

lemma nodup_children : (stampNarrowCascadeChildren.map (·.table)).Nodup := by
  decide

lemma narrowed_not_child {t : Table} (h : t ∈ stampNarrowTables) :
    t ∉ stampNarrowCascadeChildren.map (·.table) := by
  revert h
  cases t <;> decide

lemma child_not_surface {t : Table} (h : t ∈ stampNarrowCascadeChildren.map (·.table)) : t ∉ surfaceTables := by
  revert h
  cases t <;> decide

lemma counts_eq (hself : SelfContained db.rows) :
    (stampNarrowCascadeChildren.map (db.childCount snapshotUid)).sum +
        ((stampNarrowTables.filter (· ∉ surfaceTables)).map fun t =>
          db.rows.countP (ofSnapshot t snapshotUid)).sum =
      db.rows.countP (countedRow db.rows snapshotUid) := by
  have hchildren : (stampNarrowCascadeChildren.map (db.childCount snapshotUid)).sum = db.rows.countP fun r =>
      (stampNarrowCascadeChildren.map (·.table)).contains r.table && ownedBy db.rows snapshotUid r := by
    rw [List.map_congr_left fun child hchild => childCount_eq hself hchild,
      ← sum_countP Row.table _ _ nodup_children, List.map_map]
    rfl
  have hdirect := sum_countP Row.table (fun r : TableRow => r.col .snapshotUid == some snapshotUid) db.rows
    (stampNarrowOrder.nodup.filter (· ∉ surfaceTables))
  rw [hchildren]
  refine (congrArg₂ (· + ·) rfl hdirect).trans (countP_add fun r hr => ?_).symm
  by_cases hnarrow : r.table ∈ stampNarrowTables
  · have hgraph := isGraphTable_iff.mpr (.inl hnarrow)
    have hchild := narrowed_not_child hnarrow
    rw [countedRow, graphRow, hgraph, ownedBy_scoped (scoped_of_narrowed hnarrow)]
    by_cases hsurface : r.table ∈ surfaceTables <;> simp [hnarrow, hchild, hsurface]
  · by_cases hchild : r.table ∈ stampNarrowCascadeChildren.map (·.table)
    · have hgraph := isGraphTable_iff.mpr (.inr hchild)
      simp [countedRow, graphRow, hgraph, hchild, hnarrow, child_not_surface hchild]
    · have hgraph : isGraphTable r.table = false := by
        rw [← Bool.not_eq_true, isGraphTable_iff]
        exact not_or.mpr ⟨hnarrow, hchild⟩
      simp [countedRow, graphRow, hgraph, hchild, hnarrow]

end Count

section Snapshots

variable {db : Database} {snapshotUid : String} {rows initial : List TableRow}

lemma Narrowing.rows_eq (h : Narrowing snapshotUid initial stampNarrowTables rows) (hself : SelfContained rows)
    (hkeys : KeysUnique initial) (href : Referential foreignKeys rows) :
    rows = initial.filter fun r => !graphRow initial snapshotUid r := by
  have hsub := h.subset
  obtain ⟨⟨gone, hrows, hgone⟩, hcleared⟩ := h
  conv_lhs => rw [hrows]
  refine List.filter_congr fun r hr => congrArg _ ?_
  rw [Bool.eq_iff_iff, graphRow, Bool.and_eq_true]
  constructor
  · intro hg
    obtain ⟨howned, t, ht, hdown⟩ := hgone r hr hg
    exact ⟨stampNarrowOrder.graph _ ht _ hdown, howned⟩
  · rintro ⟨hgraph, howned⟩
    by_contra hkept
    have hmem : r ∈ rows := by
      rw [hrows, List.mem_filter]
      exact ⟨hr, by simpa using hkept⟩
    obtain ⟨p, hp, hsnap, -⟩ := hself.owner hmem ((ownedBy_subset hsub hkeys href hmem).mpr howned)
    rw [hcleared p hp _ (List.contains_iff_mem.mp hgraph)] at hsnap
    cases hsnap

lemma narrowSnapshot_run (hself : SelfContained db.rows) (snapshotUid : String) :
    ∃ db', db.narrowSnapshot snapshotUid = some (db', db.rows.countP (countedRow db.rows snapshotUid)) ∧
      db'.snapshots = db.snapshots ∧ SelfContained db'.rows ∧
      db'.rows = db.rows.filter fun r => !graphRow db.rows snapshotUid r := by
  have hstart : Narrowing snapshotUid db.rows [] db.rows := .start
  obtain ⟨db', hrun, hsnap, hself', hend⟩ := narrowTables_run (List.nil_append _).symm hself hstart
  refine ⟨db', ?_, hsnap, hself', hend.rows_eq hself' db.rowKeys db'.references⟩
  rw [Database.narrowSnapshot, hrun, Option.map_some]
  dsimp only
  rw [counts_eq hself]

lemma graphRow_narrowed (hself : SelfContained db.rows) {db' : Database}
    (hrows : db'.rows = db.rows.filter fun r => !graphRow db.rows snapshotUid r) (other : String) :
    (∀ r ∈ db'.rows, graphRow db'.rows other r = graphRow db.rows other r) ∧
      (other ≠ snapshotUid →
        db'.rows.countP (countedRow db'.rows other) = db.rows.countP (countedRow db.rows other)) := by
  have hsub : db'.rows ⊆ db.rows := by
    rw [hrows]
    exact List.filter_subset_self _
  have hsame : ∀ r ∈ db'.rows, graphRow db'.rows other r = graphRow db.rows other r := by
    intro r hr
    rw [graphRow, graphRow, Bool.eq_iff_iff.mpr (ownedBy_subset hsub db.rowKeys db'.references hr)]
  refine ⟨hsame, fun hne => ?_⟩
  have hcounted : db'.rows.countP (countedRow db'.rows other) = db'.rows.countP (countedRow db.rows other) :=
    List.countP_congr fun r hr => by rw [countedRow, countedRow, hsame r hr]
  rw [hcounted, hrows, List.countP_filter]
  refine List.countP_congr fun r hr => ?_
  rw [Bool.and_eq_true, Bool.not_eq_true', and_iff_left_iff_imp]
  intro hcount
  rw [← Bool.not_eq_true]
  intro hgraph
  have howned := (Bool.and_eq_true_iff.mp hgraph).2
  have hother := (Bool.and_eq_true_iff.mp (Bool.and_eq_true_iff.mp hcount).1).2
  exact hne (hself.owner_unique db.rowKeys hr hother howned)

def narrowReport (rows : List TableRow) (snapshotUid : String) : Option NarrowedBaseline :=
  let n := rows.countP (countedRow rows snapshotUid)
  if n > 0 then some ⟨snapshotUid, n⟩ else none

lemma narrowAll_run (hself : SelfContained db.rows) {uids : List String} (huids : uids.Nodup) :
    ∃ db', db.narrowAll uids = (db', some (uids.filterMap (narrowReport db.rows))) ∧
      db'.snapshots = db.snapshots ∧ SelfContained db'.rows ∧
      db'.rows = db.rows.filter fun r => !uids.any fun uid => graphRow db.rows uid r := by
  induction uids generalizing db with
  | nil => exact ⟨db, rfl, rfl, hself, by simp⟩
  | cons uid uids ih =>
    obtain ⟨hnot, huids⟩ := List.nodup_cons.mp huids
    obtain ⟨mid, hmid, hsnap, hself', hrows⟩ := narrowSnapshot_run hself uid
    obtain ⟨db', hrun, hsnap', hself'', hrows'⟩ := ih hself' huids
    have hreports : uids.filterMap (narrowReport mid.rows) = uids.filterMap (narrowReport db.rows) := by
      refine List.filterMap_congr fun other hother => ?_
      have hne : other ≠ uid := fun heq => hnot (heq ▸ hother)
      rw [narrowReport, narrowReport, (graphRow_narrowed hself hrows other).2 hne]
    refine ⟨db', ?_, hsnap'.trans hsnap, hself'', ?_⟩
    · rw [Database.narrowAll, hmid]
      dsimp only
      rw [hrun, hreports, List.filterMap_cons, narrowReport]
      split <;> simp_all
    · rw [hrows']
      have hany : ∀ r ∈ mid.rows, (uids.any fun other => graphRow mid.rows other r) =
          uids.any fun other => graphRow db.rows other r := by
        intro r hr
        congr 1
        funext other
        exact (graphRow_narrowed hself hrows other).1 r hr
      rw [List.filter_congr fun r hr => congrArg _ (hany r hr), hrows, List.filter_filter]
      refine List.filter_congr fun r _ => ?_
      rw [List.any_cons, Bool.not_or, Bool.and_comm]

def Database.chosen (db : Database) (repoUid : String) : List String :=
  ((db.latestReady repoUid).map (db.narrowCandidates repoUid)).getD []

lemma nodup_chosen (db : Database) (repoUid : String) : (db.chosen repoUid).Nodup := by
  cases h : db.latestReady repoUid with
  | none => simp [Database.chosen, h]
  | some latest =>
    rw [Database.chosen, h]
    exact db.snapshotKeys.sublist (List.filter_sublist.map _)

lemma narrow_run (hself : SelfContained db.rows) (repoUid : String) :
    ∃ db', db.narrowStampBaselines repoUid = (db', some ((db.chosen repoUid).filterMap (narrowReport db.rows))) ∧
      db'.snapshots = db.snapshots ∧ SelfContained db'.rows ∧
      db'.rows = db.rows.filter fun r => !(db.chosen repoUid).any fun uid => graphRow db.rows uid r := by
  obtain ⟨db', hrun, hend⟩ := narrowAll_run hself (nodup_chosen db repoUid)
  refine ⟨db', ?_, hend⟩
  rw [← hrun, Database.narrowStampBaselines, Database.chosen]
  cases db.latestReady repoUid with
  | none => rfl
  | some latest => rfl

end Snapshots

end RepoGraph.Storage
