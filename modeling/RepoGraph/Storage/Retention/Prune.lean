import RepoGraph.Storage.Retention.Classify

/-! Pruning: the ready snapshots of class prunable are deleted one transaction at a time. -/

namespace RepoGraph.Storage

open Lib Lib.Relational

def orphanCleanupTables : List Table :=
  [.unresolvedEdges, .boundaryProviderFacts, .boundaryConsumerFacts, .boundaryLinks, .boundaryInteractionSurfaces,
    .boundaryInteractionLinks]

def ofSnapshot (table : Table) (snapshotUid : String) (r : TableRow) : Bool :=
  r.table == table && r.col .snapshotUid == some snapshotUid

def clearParent (snapshotUid : String) (s : SnapshotRow) : SnapshotRow :=
  if s.parentSnapshotUid = some snapshotUid then { s with parentSnapshotUid := none } else s

lemma clearParent_uid (snapshotUid : String) (s : SnapshotRow) :
    (clearParent snapshotUid s).snapshotUid = s.snapshotUid := by
  rw [clearParent]
  split <;> rfl

/-- What the run of a prune meets: the clock and the failures of the storage engine, chunk by chunk. -/
structure PruneEnv where
  deadlinePassed : ℕ → Bool
  chunkFails : ℕ → Bool

structure PruneOutcome where
  prunedCount : ℕ
  budgetRemaining : Option ℕ
  deriving DecidableEq, Repr

namespace Database

def deleteOrphans (db : Database) (snapshotUid : String) : List Table → Option Database
  | [] => some db
  | table :: tables =>
    (db.deleteRows (ofSnapshot table snapshotUid)).bind fun (db, _) => db.deleteOrphans snapshotUid tables

def deleteSnapshotChunk (db : Database) (snapshotUid : String) : Option Database :=
  (db.deleteOrphans snapshotUid orphanCleanupTables).bind fun db =>
    (db.updateSnapshots (clearParent snapshotUid) (clearParent_uid snapshotUid)).deleteSnapshotRow snapshotUid

/-- The loop over the chunks from the given index; a failed chunk is rolled back and ends the loop with no
count. -/
def deleteSnapshotsCascade (env : PruneEnv) (db : Database) : ℕ → List String → Database × Option ℕ
  | _, [] => (db, some 0)
  | i, uid :: uids =>
    if env.deadlinePassed i then (db, some 0)
    else if env.chunkFails i then (db, none)
    else
      match db.deleteSnapshotChunk uid with
      | none => (db, none)
      | some db =>
        let (db, deleted) := deleteSnapshotsCascade env db (i + 1) uids
        (db, deleted.map (· + 1))

def prunableUids (db : Database) (repoUid : String) : List String :=
  (db.snapshots.filter fun s =>
    s.isReady repoUid && s.retentionClass == some RetentionClass.prunable.asStr).map (·.snapshotUid)

def prunePrunableSnapshotsBudgeted (db : Database) (env : PruneEnv) (repoUid : String) :
    Database × Option PruneOutcome :=
  let uids := db.prunableUids repoUid
  let (db, deleted) := db.deleteSnapshotsCascade env 0 uids
  (db, deleted.map fun pruned =>
    { prunedCount := pruned
      budgetRemaining := if pruned < uids.length then some (uids.length - pruned) else none })

end Database

section Chunks

variable {db db' : Database} {snapshotUid : String}

lemma deleteOrphans_snapshots {tables : List Table} (h : db.deleteOrphans snapshotUid tables = some db') :
    db'.snapshots = db.snapshots := by
  induction tables generalizing db with
  | nil =>
    cases h
    rfl
  | cons table tables ih =>
    obtain ⟨⟨mid, changes⟩, hmid, h⟩ := Option.bind_eq_some_iff.mp h
    rw [ih h, (Database.deleteRows_eq_some hmid).2]

lemma deleteSnapshotChunk_snapshots (h : db.deleteSnapshotChunk snapshotUid = some db') :
    db'.snapshots = (db.snapshots.map (clearParent snapshotUid)).filter (·.snapshotUid ≠ snapshotUid) := by
  obtain ⟨mid, hmid, h⟩ := Option.bind_eq_some_iff.mp h
  rw [Database.deleteSnapshotRow_snapshots h, Database.updateSnapshots_snapshots, deleteOrphans_snapshots hmid]

structure Pruned (uids : List String) (before after : Database) : Prop where
  survives : ∀ s ∈ before.snapshots, s.snapshotUid ∉ uids →
    ∃ s' ∈ after.snapshots, s' = { s with parentSnapshotUid := s'.parentSnapshotUid }
  comesFrom : ∀ s' ∈ after.snapshots, ∃ s ∈ before.snapshots,
    s' = { s with parentSnapshotUid := s'.parentSnapshotUid } ∧
      (s'.parentSnapshotUid = s.parentSnapshotUid ∨ s'.parentSnapshotUid = none)
  noDangling : ∀ s' ∈ after.snapshots, ∀ p, s'.parentSnapshotUid = some p →
    (∃ b ∈ before.snapshots, b.snapshotUid = p) → ∃ a ∈ after.snapshots, a.snapshotUid = p

lemma Pruned.refl (uids : List String) (db : Database) : Pruned uids db db :=
  ⟨fun s hs _ => ⟨s, hs, rfl⟩, fun s hs => ⟨s, hs, rfl, .inl rfl⟩, fun _ _ _ _ h => h⟩

lemma pruned_chunk (h : db.deleteSnapshotChunk snapshotUid = some db') : Pruned [snapshotUid] db db' := by
  have hsnap := deleteSnapshotChunk_snapshots h
  have hparent : ∀ s, clearParent snapshotUid s =
      { s with parentSnapshotUid := (clearParent snapshotUid s).parentSnapshotUid } := by
    intro s
    rw [clearParent]
    split <;> rfl
  have hmem : ∀ {s'}, s' ∈ db'.snapshots ↔
      ∃ s ∈ db.snapshots, clearParent snapshotUid s = s' ∧ s.snapshotUid ≠ snapshotUid := by
    intro s'
    rw [hsnap, List.mem_filter, List.mem_map]
    constructor
    · rintro ⟨⟨s, hs, rfl⟩, hne⟩
      exact ⟨s, hs, rfl, by simpa [clearParent_uid] using hne⟩
    · rintro ⟨s, hs, rfl, hne⟩
      exact ⟨⟨s, hs, rfl⟩, by simpa [clearParent_uid] using hne⟩
  constructor
  case survives =>
    intro s hs hne
    exact ⟨clearParent snapshotUid s, hmem.mpr ⟨s, hs, rfl, by simpa using hne⟩, hparent s⟩
  case comesFrom =>
    intro s' hs'
    obtain ⟨s, hs, rfl, -⟩ := hmem.mp hs'
    refine ⟨s, hs, hparent s, ?_⟩
    rw [clearParent]
    split
    · exact .inr rfl
    · exact .inl rfl
  case noDangling =>
    rintro s' hs' p hp ⟨b, hb, rfl⟩
    obtain ⟨s, hs, rfl, -⟩ := hmem.mp hs'
    have hne : b.snapshotUid ≠ snapshotUid := by
      rintro heq
      rw [clearParent] at hp
      split at hp
      · cases hp
      · next hnot => exact hnot (heq ▸ hp)
    exact ⟨clearParent snapshotUid b, hmem.mpr ⟨b, hb, rfl, hne⟩, clearParent_uid ..⟩

lemma Pruned.trans {uid : String} {uids : List String} {a b c : Database} (hab : Pruned [uid] a b)
    (hbc : Pruned uids b c) : Pruned (uid :: uids) a c := by
  constructor
  case survives =>
    intro s hs hne
    simp only [List.mem_cons, not_or] at hne
    obtain ⟨s', hs', heq⟩ := hab.survives s hs (by simpa using hne.1)
    obtain ⟨s'', hs'', heq'⟩ := hbc.survives s' hs' (by rw [heq]; exact hne.2)
    refine ⟨s'', hs'', ?_⟩
    rw [heq', heq]
  case comesFrom =>
    intro s'' hs''
    obtain ⟨s', hs', heq', hp'⟩ := hbc.comesFrom s'' hs''
    obtain ⟨s, hs, heq, hp⟩ := hab.comesFrom s' hs'
    refine ⟨s, hs, ?_, ?_⟩
    · rw [heq', heq]
    · rcases hp' with hp' | hp'
      · rw [hp']
        exact hp
      · exact .inr hp'
  case noDangling =>
    intro s'' hs'' p hp hex
    obtain ⟨s', hs', -, hp'⟩ := hbc.comesFrom s'' hs''
    rcases hp' with hp' | hp'
    · exact hbc.noDangling s'' hs'' p hp (hab.noDangling s' hs' p (hp' ▸ hp) hex)
    · rw [hp'] at hp
      cases hp

lemma pruned_cascade (env : PruneEnv) (uids : List String) (i : ℕ) (db : Database) :
    Pruned uids db (db.deleteSnapshotsCascade env i uids).1 := by
  induction uids generalizing i db with
  | nil => exact .refl _ _
  | cons uid uids ih =>
    rw [Database.deleteSnapshotsCascade]
    split
    · exact .refl _ _
    split
    · exact .refl _ _
    · cases hchunk : db.deleteSnapshotChunk uid with
      | none => exact .refl _ _
      | some mid => exact (pruned_chunk hchunk).trans (ih (i + 1) mid)

end Chunks

section Safety

def RetentionClass.isKept : RetentionClass → Bool
  | .current | .parent | .baselineUser | .baselineStamp => true
  | .baselineAuto | .prunable => false

lemma not_mem_prunableUids {db : Database} {repoUid : String} {s : SnapshotRow} {c : RetentionClass}
    (hs : s ∈ db.snapshots) (hclass : s.retentionClass = some c.asStr) (hkept : c.isKept = true) :
    s.snapshotUid ∉ db.prunableUids repoUid := by
  intro hmem
  obtain ⟨t, ht, huid⟩ := List.mem_map.mp hmem
  obtain ⟨ht, hcond⟩ := List.mem_filter.mp ht
  rw [db.eq_of_uid ht hs huid, hclass, Bool.and_eq_true_iff, beq_iff_eq, Option.some.injEq] at hcond
  rw [asStr_injective hcond.2] at hkept
  cases hkept

/-- Classification and prune: the keep-set, its stability, and what no prune touches, whenever and however the
prune ends. -/
theorem retention_safety (db : Database) (repoUid : String) :
    let after := db.classifyRepoRetention repoUid
    KeepSet repoUid db.snapshots after.snapshots ∧ after.rows = db.rows ∧
      after.classifyRepoRetention repoUid = after ∧
      ∀ env, let pruned := (after.prunePrunableSnapshotsBudgeted env repoUid).1
        (∀ s ∈ after.snapshots, ∀ c : RetentionClass, c.isKept = true → s.retentionClass = some c.asStr →
          ∃ s' ∈ pruned.snapshots, s' = { s with parentSnapshotUid := s'.parentSnapshotUid }) ∧
        ∀ s ∈ pruned.snapshots, ∀ p, s.parentSnapshotUid = some p →
          (∃ b ∈ after.snapshots, b.snapshotUid = p) → ∃ a ∈ pruned.snapshots, a.snapshotUid = p := by
  refine ⟨keepSet_classify db repoUid, classify_rows db repoUid, classify_classify db repoUid, fun env => ?_⟩
  have hpruned := pruned_cascade env ((db.classifyRepoRetention repoUid).prunableUids repoUid) 0
    (db.classifyRepoRetention repoUid)
  exact ⟨fun s hs c hkept hclass => hpruned.survives s hs (not_mem_prunableUids hs hclass hkept),
    hpruned.noDangling⟩

def failedCurrent : Database :=
  { Database.empty with
    snapshots :=
      [⟨"s1", "r", none, "failed", "2026-01-01", some "current", some "1.0"⟩,
       ⟨"s2", "r", some "s1", "ready", "2026-01-02", none, none⟩]
    snapshotKeys := by decide }

/-- Two snapshots are current after a classification, one of them not ready. -/
theorem classify_leaves_two_current :
    ((failedCurrent.classifyRepoRetention "r").snapshots.filter
      (·.retentionClass = some RetentionClass.current.asStr)).map (·.snapshotUid) = ["s1", "s2"] := by
  decide

end Safety

end RepoGraph.Storage
