import RepoGraph.Storage.Retention.Narrow

/-! Histories of a store: snapshots are published, marked, classified, pruned and narrowed in any order. -/

namespace RepoGraph.Storage

open Lib Lib.Relational

namespace Database

def insertSnapshot (db : Database) (s : SnapshotRow) : Option Database :=
  if h : s.snapshotUid ∉ db.snapshots.map (·.snapshotUid) ∧
      ∀ p ∈ s.parentSnapshotUid, p ∈ db.snapshots.map (·.snapshotUid) then
    some { db with
      snapshots := db.snapshots ++ [s]
      snapshotKeys := by simpa [List.nodup_append, db.snapshotKeys]
        using fun a ha heq => h.1 (by simpa using ⟨a, ha, heq⟩) }
  else none

/-- INSERT into one of the other tables: refused for a key that is taken, a column that is missing, and a column
that names no row. -/
def insertRow (db : Database) (row : TableRow) : Option Database :=
  if h : (∀ r ∈ db.rows, r.id ≠ row.id) ∧ FitsTable row ∧
      (∀ uid ∈ row.col .snapshotUid, uid ∈ db.snapshots.map (·.snapshotUid)) ∧
      ∀ fk ∈ foreignKeys, fk.child = row.table → ∀ k ∈ row.col fk.column,
        ∃ p ∈ db.rows ++ [row], fk.Links row p then
    some { db with
      rows := db.rows ++ [row]
      rowKeys := db.rowKeys.append h.1
      references := db.references.append fun fk hfk hchild k hk => h.2.2.2 fk hfk hchild k hk }
  else none

def updateSnapshotStatus (db : Database) (snapshotUid status : String) : Database :=
  db.updateSnapshots (fun s => if s.snapshotUid = snapshotUid then { s with status := status } else s) fun s => by
    split <;> rfl

lemma insertSnapshot_rows {db db' : Database} {s : SnapshotRow} (h : db.insertSnapshot s = some db') :
    db'.rows = db.rows := by
  rw [insertSnapshot] at h
  split at h
  · cases h
    rfl
  · cases h

lemma insertRow_eq_some {db db' : Database} {row : TableRow} (h : db.insertRow row = some db') :
    (∀ r ∈ db.rows, r.id ≠ row.id) ∧ FitsTable row ∧ db'.rows = db.rows ++ [row] := by
  rw [insertRow] at h
  split at h
  · next hrow =>
    cases h
    exact ⟨hrow.1, hrow.2.1, rfl⟩
  · cases h

end Database

/-- One operation on the store. Publishing a snapshot is an insert into the snapshots table, the statements that
write its rows, each naming rows of the same snapshot only, and the update of its status. -/
inductive Step (db : Database) : Database → Prop
  | create {db' : Database} (s : SnapshotRow) (h : db.insertSnapshot s = some db') : Step db db'
  | insert {db' : Database} (row : TableRow) (h : db.insertRow row = some db')
    (hown : NamesOwnSnapshot db'.rows row) : Step db db'
  | delete {db' : Database} {changes : ℕ} (cond : TableRow → Bool) (h : db.deleteRows cond = some (db', changes)) :
    Step db db'
  | finish (snapshotUid status : String) : Step db (db.updateSnapshotStatus snapshotUid status)
  | mark (snapshotUid : String) (retentionClass : RetentionClass) :
    Step db (db.markSnapshotRetention snapshotUid retentionClass)
  | classify (repoUid : String) : Step db (db.classifyRepoRetention repoUid)
  | prune (env : PruneEnv) (repoUid : String) : Step db (db.prunePrunableSnapshotsBudgeted env repoUid).1
  | narrow (repoUid : String) : Step db (db.narrowStampBaselines repoUid).1

def Reachable (db : Database) : Prop := Relation.ReflTransGen Step Database.empty db

section Invariant

variable {db db' : Database}

lemma SelfContained.deleteRows {cond : TableRow → Bool} {changes : ℕ} (hself : SelfContained db.rows)
    (h : db.deleteRows cond = some (db', changes)) : SelfContained db'.rows :=
  hself.deleteWhere db.rowKeys (Database.deleteRows_eq_some h).1

lemma SelfContained.deleteOrphans {snapshotUid : String} {tables : List Table} (hself : SelfContained db.rows)
    (h : db.deleteOrphans snapshotUid tables = some db') : SelfContained db'.rows := by
  induction tables generalizing db with
  | nil =>
    cases h
    exact hself
  | cons table tables ih =>
    obtain ⟨⟨mid, changes⟩, hmid, h⟩ := Option.bind_eq_some_iff.mp h
    exact ih (hself.deleteRows hmid) h

lemma SelfContained.deleteSnapshotRow {snapshotUid : String} (hself : SelfContained db.rows)
    (h : db.deleteSnapshotRow snapshotUid = some db') : SelfContained db'.rows := by
  obtain ⟨⟨mid, changes⟩, hmid, h⟩ := Option.bind_eq_some_iff.mp h
  have hself' : SelfContained mid.rows := hself.deleteRows hmid
  dsimp only at h
  split at h
  · cases h
  · cases h
    exact hself'

lemma SelfContained.cascade {env : PruneEnv} {uids : List String} {i : ℕ} (hself : SelfContained db.rows) :
    SelfContained (db.deleteSnapshotsCascade env i uids).1.rows := by
  induction uids generalizing i db with
  | nil => exact hself
  | cons uid uids ih =>
    rw [Database.deleteSnapshotsCascade]
    split
    · exact hself
    split
    · exact hself
    · cases hchunk : db.deleteSnapshotChunk uid with
      | none => exact hself
      | some mid =>
        obtain ⟨orphaned, horphaned, hrow⟩ := Option.bind_eq_some_iff.mp hchunk
        have hself' : SelfContained orphaned.rows := hself.deleteOrphans horphaned
        rw [← Database.updateSnapshots_rows orphaned (clearParent uid) (clearParent_uid uid)] at hself'
        exact ih (hself'.deleteSnapshotRow hrow)

lemma SelfContained.step (hself : SelfContained db.rows) (h : Step db db') : SelfContained db'.rows := by
  cases h with
  | create s h => rwa [Database.insertSnapshot_rows h]
  | insert row h hown =>
    obtain ⟨hfresh, hfits, hrows⟩ := Database.insertRow_eq_some h
    rw [hrows] at hown ⊢
    exact hself.append db.references hfresh hfits hown
  | delete cond h => exact hself.deleteRows h
  | finish snapshotUid status => exact hself
  | mark snapshotUid retentionClass => exact hself
  | classify repoUid => rwa [classify_rows]
  | prune env repoUid => exact hself.cascade
  | narrow repoUid =>
    obtain ⟨db', hrun, -, hself', -⟩ := narrow_run hself repoUid
    rwa [hrun]

lemma Reachable.selfContained (h : Reachable db) : SelfContained db.rows := by
  induction h with
  | refl => exact ⟨fun _ hr => absurd hr List.not_mem_nil, fun _ hr => absurd hr List.not_mem_nil⟩
  | tail _ hstep ih => exact ih.step hstep

end Invariant

/-- What one narrow leaves of the store. -/
structure Narrowed (repoUid : String) (before after : Database) : Prop where
  snapshots : after.snapshots = before.snapshots
  sublist : after.rows.Sublist before.rows
  retained : ∀ r ∈ before.rows, r.table ∈ stampKeepMeasurementTables ++ stampKeepAuthorityTables → r ∈ after.rows
  served : ∀ latest, before.latestReady repoUid = some latest →
    ∀ uid, uid = latest.snapshotUid ∨ latest.parentSnapshotUid = some uid →
    ∀ r ∈ before.rows, ownedBy before.rows uid r = true → r ∈ after.rows
  others : ∀ uid, uid ∉ before.chosen repoUid →
    ∀ r ∈ before.rows, ownedBy before.rows uid r = true → r ∈ after.rows
  emptied : ∀ uid ∈ before.chosen repoUid, ∀ r ∈ after.rows,
    r.table ∈ stampNarrowTables ∨ r.table ∈ stampNarrowCascadeChildren.map (·.table) →
    ownedBy before.rows uid r = false
  again : after.narrowStampBaselines repoUid = (after, some [])

def reportedRows (report : List NarrowedBaseline) (snapshotUid : String) : ℕ :=
  ((report.find? (·.snapshotUid = snapshotUid)).map (·.rowsDeleted)).getD 0

def removedRows (before after : Database) (snapshotUid : String) : ℕ :=
  before.rows.countP fun r => ownedBy before.rows snapshotUid r && after.rows.all (·.id != r.id)

section Narrow

variable {db db' : Database} {repoUid snapshotUid : String}

lemma mem_chosen : snapshotUid ∈ db.chosen repoUid ↔
    ∃ latest, db.latestReady repoUid = some latest ∧ snapshotUid ∈ db.narrowCandidates repoUid latest := by
  cases h : db.latestReady repoUid <;> simp [Database.chosen, h]

lemma chosen_congr (h : db'.snapshots = db.snapshots) : db'.chosen repoUid = db.chosen repoUid := by
  have hcandidates : db'.narrowCandidates repoUid = db.narrowCandidates repoUid := by
    funext latest
    rw [Database.narrowCandidates, h, Database.narrowCandidates]
  rw [Database.chosen, hcandidates, Database.latestReady, Database.readySnapshots, h]
  rfl

lemma served_not_chosen {latest : SnapshotRow} (hlatest : db.latestReady repoUid = some latest)
    (h : snapshotUid = latest.snapshotUid ∨ latest.parentSnapshotUid = some snapshotUid) :
    snapshotUid ∉ db.chosen repoUid := by
  intro hmem
  obtain ⟨latest', hlatest', hmem⟩ := mem_chosen.mp hmem
  cases hlatest.symm.trans hlatest'
  obtain ⟨s, hs, rfl⟩ := List.mem_map.mp hmem
  obtain ⟨-, hcond⟩ := List.mem_filter.mp hs
  simp only [Bool.and_eq_true, bne_iff_ne, ne_eq] at hcond
  rcases h with h | h
  · exact hcond.1.2 h
  · exact hcond.2 (by rw [h, Option.getD_some])

lemma narrowReport_eq_some {rows : List TableRow} {n : NarrowedBaseline}
    (h : narrowReport rows snapshotUid = some n) :
    n = ⟨snapshotUid, rows.countP (countedRow rows snapshotUid)⟩ := by
  dsimp only [narrowReport] at h
  split at h
  · exact (Option.some.inj h).symm
  · cases h

lemma narrowReport_eq_none {rows : List TableRow} (h : narrowReport rows snapshotUid = none) :
    rows.countP (countedRow rows snapshotUid) = 0 := by
  dsimp only [narrowReport] at h
  split at h
  · cases h
  · next hzero => exact Nat.eq_zero_of_not_pos hzero

lemma reportedRows_eq {rows : List TableRow} {uids : List String} (h : snapshotUid ∈ uids) :
    reportedRows (uids.filterMap (narrowReport rows)) snapshotUid = rows.countP (countedRow rows snapshotUid) := by
  rw [reportedRows, List.find?_filterMap]
  cases hfind : uids.find? fun uid => (narrowReport rows uid).any (·.snapshotUid = snapshotUid) with
  | none =>
    have hnone : narrowReport rows snapshotUid = none := by
      have hno := List.find?_eq_none.mp hfind snapshotUid h
      cases hreport : narrowReport rows snapshotUid with
      | none => rfl
      | some n => simp [hreport, narrowReport_eq_some hreport] at hno
    rw [narrowReport_eq_none hnone]
    rfl
  | some uid =>
    have hany := List.find?_some hfind
    cases hreport : narrowReport rows uid with
    | none => simp [hreport] at hany
    | some n =>
      obtain rfl := narrowReport_eq_some hreport
      rw [hreport, Option.any_some, decide_eq_true_eq] at hany
      rw [Option.bind_some, hreport, ← hany]
      rfl

lemma not_chosen_graphRow (hself : SelfContained db.rows) (h : snapshotUid ∉ db.chosen repoUid) {r : TableRow}
    (hr : r ∈ db.rows) (howned : ownedBy db.rows snapshotUid r = true) :
    ((db.chosen repoUid).any fun uid => graphRow db.rows uid r) = false := by
  rw [List.any_eq_false]
  intro uid huid hgraph
  have heq := hself.owner_unique db.rowKeys hr howned (Bool.and_eq_true_iff.mp hgraph).2
  exact h (heq ▸ huid)

lemma removedRows_eq (h : snapshotUid ∈ db.chosen repoUid)
    (hrows : db'.rows = db.rows.filter fun r => !(db.chosen repoUid).any fun uid => graphRow db.rows uid r) :
    removedRows db db' snapshotUid = db.rows.countP (graphRow db.rows snapshotUid) := by
  refine List.countP_congr fun r hr => ?_
  have hgone : db'.rows.all (·.id != r.id) = true ↔ ∃ uid ∈ db.chosen repoUid, graphRow db.rows uid r = true := by
    simp only [List.all_eq_true, bne_iff_ne, hrows, List.mem_filter, Bool.not_eq_true', List.any_eq_false,
      Bool.not_eq_true]
    constructor
    · intro hall
      by_contra hno
      push Not at hno
      exact hall r ⟨hr, fun uid huid => by simpa using hno uid huid⟩ rfl
    · rintro ⟨uid, huid, hgraph⟩ p ⟨hp, hkept⟩ hid
      rw [← db.rowKeys.eq_of_id hr hp hid, hkept uid huid] at hgraph
      cases hgraph
  rw [Bool.and_eq_true, hgone]
  constructor
  · rintro ⟨howned, uid, -, hgraph⟩
    obtain ⟨htable, hother⟩ := Bool.and_eq_true_iff.mp hgraph
    exact Bool.and_eq_true_iff.mpr ⟨htable, howned⟩
  · intro hgraph
    exact ⟨(Bool.and_eq_true_iff.mp hgraph).2, snapshotUid, h, hgraph⟩

lemma counted_eq_iff (hself : SelfContained db.rows) :
    db.rows.countP (countedRow db.rows snapshotUid) = db.rows.countP (graphRow db.rows snapshotUid) ↔
      ∀ r ∈ db.rows, ofSnapshot .projectSurfaces snapshotUid r = false := by
  have hsplit : db.rows.countP (graphRow db.rows snapshotUid) = db.rows.countP (countedRow db.rows snapshotUid) +
      db.rows.countP fun r => graphRow db.rows snapshotUid r && surfaceTables.contains r.table := by
    refine countP_add fun r _ => ?_
    rw [countedRow]
    cases graphRow db.rows snapshotUid r <;> cases surfaceTables.contains r.table <;> rfl
  rw [hsplit, left_eq_add, List.countP_eq_zero]
  constructor
  · intro hnone r hr
    rw [← Bool.not_eq_true]
    intro hsurface
    obtain ⟨htable, hcol⟩ := ofSnapshot_iff.mp hsurface
    refine hnone r hr ?_
    rw [graphRow, htable, ownedBy_iff.mpr (.inl hcol)]
    decide
  · intro hnone r hr hgraph
    obtain ⟨hgraph, hsurface⟩ := Bool.and_eq_true_iff.mp hgraph
    have hsurface := List.contains_iff_mem.mp hsurface
    rw [graphRow, ownedBy_scoped (surface_scoped hsurface), Bool.and_eq_true, beq_iff_eq] at hgraph
    obtain ⟨p, hp, hproject⟩ := hself.projectSurface db.rowKeys db.references hsurface hr
      (ofSnapshot_iff.mpr ⟨rfl, hgraph.2⟩)
    rw [hnone p hp] at hproject
    cases hproject

lemma narrowed_run (hself : SelfContained db.rows) (hsnap : db'.snapshots = db.snapshots)
    (hself' : SelfContained db'.rows)
    (hrows : db'.rows = db.rows.filter fun r => !(db.chosen repoUid).any fun uid => graphRow db.rows uid r) :
    Narrowed repoUid db db' := by
  have hmem : ∀ {r}, r ∈ db'.rows ↔
      r ∈ db.rows ∧ ((db.chosen repoUid).any fun uid => graphRow db.rows uid r) = false := by
    intro r
    rw [hrows, List.mem_filter, Bool.not_eq_true']
  have hothers : ∀ uid, uid ∉ db.chosen repoUid → ∀ r ∈ db.rows, ownedBy db.rows uid r = true → r ∈ db'.rows :=
    fun uid huid r hr howned => hmem.mpr ⟨hr, not_chosen_graphRow hself huid hr howned⟩
  constructor
  case snapshots => exact hsnap
  case sublist =>
    rw [hrows]
    exact List.filter_sublist
  case retained =>
    intro r hr htable
    refine hmem.mpr ⟨hr, ?_⟩
    simp [graphRow, kept_not_graph htable]
  case served =>
    intro latest hlatest uid huid
    exact hothers uid (served_not_chosen hlatest huid)
  case others => exact hothers
  case emptied =>
    intro uid huid r hr htable
    have hno := List.any_eq_false.mp (hmem.mp hr).2 uid huid
    simpa [graphRow, isGraphTable_iff.mpr htable] using hno
  case again =>
    obtain ⟨db'', hrun, hsnap', -, hrows'⟩ := narrow_run hself' repoUid
    rw [chosen_congr hsnap] at hrun hrows'
    have hclear : ∀ r ∈ db'.rows, ∀ uid ∈ db.chosen repoUid, graphRow db'.rows uid r = false := by
      intro r hr uid huid
      have hno := List.any_eq_false.mp (hmem.mp hr).2 uid huid
      rw [Bool.not_eq_true] at hno
      have hsub : db'.rows ⊆ db.rows := fun _ hr => (hmem.mp hr).1
      rw [← hno, graphRow, graphRow, Bool.eq_iff_iff.mpr (ownedBy_subset hsub db.rowKeys db'.references hr)]
    have hreport : (db.chosen repoUid).filterMap (narrowReport db'.rows) = [] := by
      refine List.filterMap_eq_nil_iff.mpr fun uid huid => ?_
      have hzero : db'.rows.countP (countedRow db'.rows uid) = 0 :=
        List.countP_eq_zero.mpr fun r hr => by simp [countedRow, hclear r hr uid huid]
      rw [narrowReport, hzero]
      rfl
    have hsame : db''.rows = db'.rows := by
      rw [hrows']
      refine List.filter_eq_self.mpr fun r hr => ?_
      rw [Bool.not_eq_true', List.any_eq_false]
      exact fun uid huid => by simp [hclear r hr uid huid]
    rw [hrun, hreport, Database.ext_rows hsnap' hsame]

/-- A narrow in any history does what it promises; the rows it reports of a snapshot are the rows it has removed
if and only if the snapshot has no project surface. -/
theorem narrow_of_reachable (h : Reachable db) (repoUid : String) :
    ∃ report, (db.narrowStampBaselines repoUid).2 = some report ∧
      Narrowed repoUid db (db.narrowStampBaselines repoUid).1 ∧
      ∀ uid ∈ db.chosen repoUid,
        (reportedRows report uid = removedRows db (db.narrowStampBaselines repoUid).1 uid ↔
          ∀ r ∈ db.rows, ofSnapshot .projectSurfaces uid r = false) := by
  have hself := h.selfContained
  obtain ⟨db', hrun, hsnap, hself', hrows⟩ := narrow_run hself repoUid
  rw [hrun]
  refine ⟨_, rfl, narrowed_run hself hsnap hself' hrows, fun uid huid => ?_⟩
  rw [reportedRows_eq huid, removedRows_eq huid hrows]
  exact counted_eq_iff hself

end Narrow

section SurfaceStore

lemma namesOwnSnapshot_of_columns {rows : List TableRow} {r : TableRow}
    (h : ∀ fk ∈ foreignKeys, ∀ p ∈ rows, fk.Links r p →
      snapshotAction p.table ≠ none ∧ p.col .snapshotUid = r.col .snapshotUid) : NamesOwnSnapshot rows r := by
  intro fk hfk _ p hp hlinks snapshotUid howned
  obtain ⟨hscoped, hcol⟩ := h fk hfk p hp hlinks
  rw [ownedBy_scoped hscoped, beq_iff_eq, hcol] at howned
  exact ownedBy_iff.mpr (.inl howned)

def scopedRow (table : Table) (key snapshotUid : String) (cols : List (Column × String)) : TableRow :=
  ⟨table, key, fun c => (((.snapshotUid, snapshotUid) :: cols).find? (·.1 = c)).map (·.2)⟩

def candidateRow : TableRow := scopedRow .moduleCandidates "m" "s1" []

def surfaceRow : TableRow := scopedRow .projectSurfaces "p" "s1" [(.moduleCandidateUid, "m")]

def readySnapshot (snapshotUid createdAt : String) (parent : Option String) : SnapshotRow :=
  ⟨snapshotUid, "r", parent, "ready", createdAt, none, none⟩

/-- A snapshot with a module and its project surface, marked as a stamp before two newer ones were published. -/
def surfaceStore : Option Database := do
  let db ← Database.empty.insertSnapshot (readySnapshot "s1" "2026-01-01" none)
  let db ← db.insertRow candidateRow
  let db ← db.insertRow surfaceRow
  let db := db.markSnapshotRetention "s1" .baselineStamp
  let db ← db.insertSnapshot (readySnapshot "s2" "2026-01-02" (some "s1"))
  db.insertSnapshot (readySnapshot "s3" "2026-01-03" (some "s2"))

lemma surfaceStore_isSome : surfaceStore.isSome := by
  decide +kernel

lemma surfaceStore_reachable : Reachable (surfaceStore.get surfaceStore_isSome) := by
  have hstore : surfaceStore = some (surfaceStore.get surfaceStore_isSome) := (Option.some_get _).symm
  generalize surfaceStore.get surfaceStore_isSome = db at hstore
  simp only [surfaceStore, Option.bind_eq_bind, Option.bind_eq_some_iff] at hstore
  obtain ⟨db₁, h₁, db₂, h₂, db₃, h₃, db₄, h₄, h₅⟩ := hstore
  have hrows₁ : db₁.rows = [] := Database.insertSnapshot_rows h₁
  have hrows₂ : db₂.rows = [candidateRow] := by
    rw [(Database.insertRow_eq_some h₂).2.2, hrows₁]
    rfl
  have hrows₃ : db₃.rows = [candidateRow, surfaceRow] := by
    rw [(Database.insertRow_eq_some h₃).2.2, hrows₂]
    rfl
  have hown₂ : NamesOwnSnapshot db₂.rows candidateRow := by
    rw [hrows₂]
    exact namesOwnSnapshot_of_columns (by decide)
  have hown₃ : NamesOwnSnapshot db₃.rows surfaceRow := by
    rw [hrows₃]
    exact namesOwnSnapshot_of_columns (by decide)
  have hstart : Reachable Database.empty := .refl
  exact ((((((hstart.tail (.create _ h₁)).tail (.insert _ h₂ hown₂)).tail (.insert _ h₃ hown₃)).tail
    (.mark "s1" .baselineStamp)).tail (.create _ h₄)).tail (.create _ h₅))

theorem narrow_of_surfaceStore :
    ∃ report, ((surfaceStore.get surfaceStore_isSome).narrowStampBaselines "r").2 = some report ∧
      Narrowed "r" (surfaceStore.get surfaceStore_isSome)
        ((surfaceStore.get surfaceStore_isSome).narrowStampBaselines "r").1 := by
  obtain ⟨report, hreport, hnarrowed, -⟩ := narrow_of_reachable surfaceStore_reachable "r"
  exact ⟨report, hreport, hnarrowed⟩

/-- Two rows are removed and one is reported: the project surface goes with its module, uncounted. -/
theorem narrow_undercounts :
    Reachable (surfaceStore.get surfaceStore_isSome) ∧
      ((surfaceStore.get surfaceStore_isSome).narrowStampBaselines "r").2 = some [⟨"s1", 1⟩] ∧
      removedRows (surfaceStore.get surfaceStore_isSome)
        ((surfaceStore.get surfaceStore_isSome).narrowStampBaselines "r").1 "s1" = 2 :=
  ⟨surfaceStore_reachable, by decide +kernel, by decide +kernel⟩

end SurfaceStore

end RepoGraph.Storage
