import RepoGraph.DaemonRuntime.OrphanUnits

/-! A run of the collector: which files it unlinks, what it counts, and when the two agree. -/

namespace RepoGraph.DaemonRuntime

open Lib Lib.Text

variable {root : StateRoot} {entries : List RegistryEntry}

section Unlink

lemma files_remove_databases (root : StateRoot) (name : String) :
    StateRoot.files { root with databases := root.databases.remove name } =
      root.files.filter fun f => f.path ≠ ⟨.databases, name⟩ := by
  have hseed : (root.seedFiles.map seedVectorFile).filter (fun f => decide (f.path ≠ ⟨.databases, name⟩)) =
      root.seedFiles.map seedVectorFile := by
    rw [List.filter_eq_self]
    intro f hf
    obtain ⟨file, -, rfl⟩ := List.mem_map.mp hf
    simp [seedVectorFile]
  rw [StateRoot.files, StateRoot.files, List.filter_append, hseed, List.filter_map]
  congr 2
  refine List.filter_congr fun file _ => ?_
  simp [databaseFile]

lemma files_remove_seedVectors {l : Listing} (h : root.seedVectors = some l) (name : String) :
    StateRoot.files { root with seedVectors := some (l.remove name) } =
      root.files.filter fun f => f.path ≠ ⟨.seedVectors, name⟩ := by
  have hdatabases : (root.databases.files.map databaseFile).filter
      (fun f => decide (f.path ≠ ⟨.seedVectors, name⟩)) = root.databases.files.map databaseFile := by
    rw [List.filter_eq_self]
    intro f hf
    obtain ⟨file, -, rfl⟩ := List.mem_map.mp hf
    simp [databaseFile]
  rw [StateRoot.files, StateRoot.files, List.filter_append, hdatabases, List.filter_map, StateRoot.seedFiles,
    StateRoot.seedFiles, h]
  congr 2
  refine List.filter_congr fun file _ => ?_
  simp [seedVectorFile]

lemma unlink_of_mem {file : FileEntry} (h : file ∈ root.files) :
    ∃ root', root.unlink file.path = .ok root' ∧ root'.files = root.files.filter fun f => f.path ≠ file.path := by
  rw [StateRoot.files, List.mem_append] at h
  rcases h with h | h
  · obtain ⟨file, hmem, rfl⟩ := List.mem_map.mp h
    refine ⟨_, ?_, files_remove_databases root file.1⟩
    rw [StateRoot.unlink]
    exact if_pos (List.mem_map_of_mem hmem)
  · obtain ⟨file, hmem, rfl⟩ := List.mem_map.mp h
    cases hl : root.seedVectors with
    | none => simp [StateRoot.seedFiles, hl] at hmem
    | some l =>
      rw [StateRoot.seedFiles, hl] at hmem
      refine ⟨_, ?_, files_remove_seedVectors hl file.1⟩
      rw [StateRoot.unlink, hl]
      exact if_pos (List.mem_map_of_mem hmem)

structure Unlinked (s : GcState) (files : List GcFile) (t : GcState) : Prop where
  rest : t.root.files = s.root.files.filter fun f => f.path ∉ files.map (·.file.path)
  bytes : t.reclaimedBytes = s.reclaimedBytes + (files.map (·.file.bytes)).sum

lemma Unlinked.nil (s : GcState) : Unlinked s [] s := ⟨by simp, rfl⟩

lemma Unlinked.append {s t u : GcState} {files more : List GcFile} (h : Unlinked s files t)
    (h' : Unlinked t more u) :
    Unlinked s (files ++ more) u := by
  refine ⟨?_, ?_⟩
  · rw [h'.rest, h.rest, List.filter_filter]
    refine List.filter_congr fun f _ => ?_
    rw [List.map_append, ← Bool.decide_and, decide_eq_decide, List.mem_append, not_or, and_comm]
  · rw [h'.bytes, h.bytes, List.map_append, List.sum_append, add_assoc]

lemma unlinked_unlinkFile {s : GcState} {f : GcFile} (h : f.file ∈ s.root.files) : Unlinked s [f]
    (s.unlinkFile f) := by
  obtain ⟨root', hunlink, hfiles⟩ := unlink_of_mem h
  rw [GcState.unlinkFile, hunlink]
  refine ⟨?_, by simp [GcState.push]⟩
  change root'.files = _
  simpa using hfiles

lemma unlinked_foldl {files : List GcFile} (hpaths : (files.map (·.file.path)).Nodup) {s : GcState}
    (hlisted : ∀ f ∈ files, f.file ∈ s.root.files) : Unlinked s files (files.foldl GcState.unlinkFile s) := by
  induction files generalizing s with
  | nil => exact .nil s
  | cons f files ih =>
    rw [List.forall_mem_cons] at hlisted
    rw [List.map_cons, List.nodup_cons] at hpaths
    have hstep := unlinked_unlinkFile hlisted.1
    refine hstep.append (ih hpaths.2 fun g hg => ?_)
    rw [hstep.rest, List.mem_filter]
    refine ⟨hlisted.2 g hg, ?_⟩
    have hne : g.file.path ≠ f.file.path := fun h => hpaths.1 (h ▸ List.mem_map_of_mem hg)
    simpa using hne

end Unlink

section Run

/-- The units that pass both guards of the collector. -/
def ReclaimUnit.free (entries : List RegistryEntry) (u : ReclaimUnit) : Bool :=
  hasWriteSlot u.baseName && !baseNameIsRegistered entries u.baseName

def freed (entries : List RegistryEntry) (units : List ReclaimUnit) : List GcFile :=
  (units.filter (·.free entries)).flatMap (·.files)

lemma freed_cons (u : ReclaimUnit) (units : List ReclaimUnit) :
    freed entries (u :: units) = (if u.free entries then u.files else []) ++ freed entries units := by
  rw [freed, List.filter_cons]
  split
  · rfl
  · rfl

lemma unlinked_push (s : GcState) (items : List GcItem) : Unlinked s [] (s.push items) :=
  ⟨by simp [GcState.push], rfl⟩

lemma unlinked_reclaim (entries : List RegistryEntry) {u : ReclaimUnit}
    (hpaths : (u.files.map (·.file.path)).Nodup) {s : GcState} (hlisted : ∀ f ∈ u.files, f.file ∈ s.root.files) :
    Unlinked s (if u.free entries then u.files else []) (s.reclaim entries false u) := by
  rw [GcState.reclaim, ReclaimUnit.free]
  by_cases hslot : hasWriteSlot u.baseName
  · by_cases hregistered : baseNameIsRegistered entries u.baseName
    · simpa [hslot, hregistered] using unlinked_push s _
    · simpa [hslot, hregistered] using unlinked_foldl hpaths hlisted
  · simpa [hslot] using unlinked_push s _

lemma unlinked_units {units : List ReclaimUnit} (hpaths : ((units.flatMap (·.files)).map (·.file.path)).Nodup)
    {s : GcState} (hlisted : ∀ f ∈ units.flatMap (·.files), f.file ∈ s.root.files) :
    Unlinked s (freed entries units) (units.foldl (GcState.reclaim entries false) s) := by
  induction units generalizing s with
  | nil => exact .nil s
  | cons u units ih =>
    rw [List.flatMap_cons, List.forall_mem_append] at hlisted
    rw [List.flatMap_cons, List.map_append, List.nodup_append] at hpaths
    obtain ⟨hu, hunits, hdisjoint⟩ := hpaths
    have hstep := unlinked_reclaim entries hu hlisted.1
    rw [freed_cons]
    refine hstep.append (ih hunits fun f hf => ?_)
    rw [hstep.rest, List.mem_filter]
    refine ⟨hlisted.2 f hf, ?_⟩
    rw [decide_eq_true_eq]
    intro hmem
    obtain ⟨g, hg, hpath⟩ := List.mem_map.mp hmem
    split at hg
    · exact hdisjoint _ (List.mem_map_of_mem hg) _ (List.mem_map_of_mem hf) hpath
    · simp at hg

lemma foldl_reclaim_dryRun (units : List ReclaimUnit) (s : GcState) :
    (units.foldl (GcState.reclaim entries true) s).root = s.root := by
  induction units generalizing s with
  | nil => rfl
  | cons u units ih => exact ih _

end Run

section Bytes

def bytesOf (files : Multiset FileEntry) : ℕ := (files.map (·.bytes)).sum

lemma bytesOf_add (files more : Multiset FileEntry) : bytesOf (files + more) = bytesOf files + bytesOf more := by
  rw [bytesOf, Multiset.map_add, Multiset.sum_add]
  rfl

lemma bytesOf_coe (files : List FileEntry) : bytesOf (files : Multiset FileEntry) = (files.map (·.bytes)).sum := by
  rw [bytesOf, Multiset.map_coe, Multiset.sum_coe]

lemma coe_flatMap_files (units : List ReclaimUnit) :
    (((units.flatMap (·.files)).map (·.file) : List FileEntry) : Multiset FileEntry) = unitFiles units := by
  induction units with
  | nil => rfl
  | cons u units ih =>
    rw [List.flatMap_cons, List.map_append, ← Multiset.coe_add, ih, unitFiles_cons]
    rfl

lemma bytesOf_files (r : OrphanReport) : bytesOf r.files = r.reclaimableBytes := by
  have horphans : ∀ dbs : List OrphanDb, bytesOf (dbs.map fun o => (o.files : Multiset FileEntry)).sum =
      (dbs.map OrphanDb.bytes).sum := by
    intro dbs
    induction dbs with
    | nil => rfl
    | cons o dbs ih =>
      rw [List.map_cons, List.map_cons, List.sum_cons, List.sum_cons, bytesOf_add, ih, bytesOf_coe, OrphanDb.files,
        OrphanDb.bytes, List.map_cons, List.sum_cons]
  rw [OrphanReport.files, bytesOf_add, bytesOf_add, horphans, bytesOf_coe, bytesOf_coe,
    OrphanReport.reclaimableBytes]

end Bytes

section Laws

variable (root entries)

def gcUnits : List ReclaimUnit := reclaimUnits (scanOrphans root entries)

lemma gcUnits_perm : ((gcUnits root entries).flatMap (·.files)).map (·.file) |>.Perm
    (root.files.filter fun f => decide (Candidate root entries f.path)) := by
  rw [← Multiset.coe_eq_coe, coe_flatMap_files, gcUnits, unitFiles_reclaimUnits, files_scanOrphans]

lemma nodup_gcUnits : (((gcUnits root entries).flatMap (·.files)).map (·.file.path)).Nodup := by
  have hperm := (gcUnits_perm root entries).map (·.path)
  rw [List.map_map] at hperm
  exact hperm.nodup_iff.mpr ((List.filter_sublist.map _).nodup (nodup_files root))

variable {root entries}

lemma mem_gcUnits {file : FileEntry} :
    (∃ u ∈ gcUnits root entries, ∃ f ∈ u.files, f.file = file) ↔ file ∈ root.files ∧
    Candidate root entries file.path := by
  have hmem := (gcUnits_perm root entries).mem_iff (a := file)
  rw [List.mem_filter, decide_eq_true_eq, List.mem_map] at hmem
  rw [← hmem]
  constructor
  · rintro ⟨u, hu, f, hf, rfl⟩
    exact ⟨f, List.mem_flatMap.mpr ⟨u, hu, hf⟩, rfl⟩
  · rintro ⟨f, hf, rfl⟩
    obtain ⟨u, hu, hf⟩ := List.mem_flatMap.mp hf
    exact ⟨u, hu, f, hf, rfl⟩

lemma baseName_gcUnits {u : ReclaimUnit} (hu : u ∈ gcUnits root entries) {f : GcFile} (hf : f ∈ u.files) :
    u.baseName = baseDbName f.file.path := (own_reclaimUnits (sound_scanOrphans root entries) u hu f hf).symm

def Doomed (entries : List RegistryEntry) (path : FilePath) : Prop :=
  recognised path ∧ baseDbName path ∉ referenced entries ∧ baseDbName path ≠ ".."

instance (entries : List RegistryEntry) : DecidablePred (Doomed entries) := fun _ =>
  inferInstanceAs (Decidable (_ ∧ _))

lemma free_iff {u : ReclaimUnit} : u.free entries ↔ u.baseName ∉ referenced entries ∧ u.baseName ≠ ".." := by
  simp [ReclaimUnit.free, hasWriteSlot, baseNameIsRegistered, and_comm]

lemma mem_freed {file : FileEntry} :
    (∃ f ∈ freed entries (gcUnits root entries), f.file = file) ↔ file ∈ root.files ∧
    Doomed entries file.path := by
  constructor
  · rintro ⟨f, hf, rfl⟩
    obtain ⟨u, hu, hf⟩ := List.mem_flatMap.mp hf
    obtain ⟨hu, hfree⟩ := List.mem_filter.mp hu
    obtain ⟨hmem, hcandidate⟩ := mem_gcUnits.mp ⟨u, hu, f, hf, rfl⟩
    rw [free_iff, baseName_gcUnits hu hf] at hfree
    exact ⟨hmem, hcandidate.1, hfree⟩
  · rintro ⟨hmem, hrecognised, hfree⟩
    obtain ⟨u, hu, f, hf, rfl⟩ := mem_gcUnits.mpr ⟨hmem, hrecognised, .inl hfree.1⟩
    rw [← baseName_gcUnits hu hf, ← free_iff] at hfree
    exact ⟨f, List.mem_flatMap.mpr ⟨u, List.mem_filter.mpr ⟨hu, hfree⟩, hf⟩, rfl⟩

lemma unlinked_runGc (root : StateRoot) (entries : List RegistryEntry) :
    Unlinked { root } (freed entries (gcUnits root entries))
      ((gcUnits root entries).foldl (GcState.reclaim entries false) { root }) := by
  refine unlinked_units (nodup_gcUnits root entries) fun f hf => ?_
  obtain ⟨u, hu, hf⟩ := List.mem_flatMap.mp hf
  exact (mem_gcUnits.mp ⟨u, hu, f, hf, rfl⟩).1

lemma mem_runGc {file : FileEntry} :
    file ∈ (runGc root entries false).2.files ↔ file ∈ root.files ∧ ¬ Doomed entries file.path := by
  have hrun := (unlinked_runGc root entries).rest
  change (runGc root entries false).2.files = _ at hrun
  rw [hrun, List.mem_filter, decide_eq_true_eq]
  refine and_congr_right fun hmem => not_congr ?_
  constructor
  · intro h
    obtain ⟨f, hf, hpath⟩ := List.mem_map.mp h
    rw [← hpath]
    exact (mem_freed.mp ⟨f, hf, rfl⟩).2
  · intro h
    obtain ⟨f, hf, rfl⟩ := mem_freed.mpr ⟨hmem, h⟩
    exact List.mem_map_of_mem hf

lemma reclaimedBytes_runGc (root : StateRoot) (entries : List RegistryEntry) :
    (runGc root entries false).1.reclaimedBytes =
      ((freed entries (gcUnits root entries)).map (·.file.bytes)).sum :=
  (unlinked_runGc root entries).bytes.trans (Nat.zero_add _)

lemma wouldReclaimBytes_runGc (root : StateRoot) (entries : List RegistryEntry) (dryRun : Bool) :
    (runGc root entries dryRun).1.wouldReclaimBytes = (scanOrphans root entries).reclaimableBytes := by
  change (((gcUnits root entries).flatMap (·.files)).map (·.file.bytes)).sum = _
  have hbytes := bytesOf_coe (((gcUnits root entries).flatMap (·.files)).map (·.file))
  rw [List.map_map, coe_flatMap_files, gcUnits, unitFiles_reclaimUnits, bytesOf_files] at hbytes
  exact hbytes.symm

/-- Every listed file is left alone or in one unit; no file of a registered database is unlinked; what is counted
is unlinked, and a second run finds nothing. -/
structure GcAccounts (root : StateRoot) (entries : List RegistryEntry) : Prop where
  grouped : ∀ file ∈ root.files,
    (∀ u ∈ gcUnits root entries, file.path ∉ u.files.map (·.file.path)) ∧
        (∀ dryRun, file ∈ (runGc root entries dryRun).2.files) ∨
      ∃! i : Fin (gcUnits root entries).length, file.path ∈ ((gcUnits root entries).get i).files.map (·.file.path)
  safe : ∀ file ∈ root.files, baseDbName file.path ∈ referenced entries →
    ∀ dryRun, file ∈ (runGc root entries dryRun).2.files
  unlinked : ∀ u ∈ gcUnits root entries, ∀ f ∈ u.files, f.file ∉ (runGc root entries false).2.files
  reclaimed : (runGc root entries false).1.reclaimedBytes = (runGc root entries false).1.wouldReclaimBytes
  scanned : (runGc root entries false).1.wouldReclaimBytes = (scanOrphans root entries).reclaimableBytes
  again : (runGc (runGc root entries false).2 entries false).1.reclaimedBytes = 0 ∧
    (runGc (runGc root entries false).2 entries false).2.files = (runGc root entries false).2.files

lemma mem_runGc_of_not_doomed {file : FileEntry} (hmem : file ∈ root.files) (h : ¬ Doomed entries file.path)
    (dryRun : Bool) : file ∈ (runGc root entries dryRun).2.files := by
  cases dryRun with
  | false => exact mem_runGc.mpr ⟨hmem, h⟩
  | true =>
    have hroot : (runGc root entries true).2 = root := foldl_reclaim_dryRun _ _
    rwa [hroot]

lemma freed_runGc (root : StateRoot) (entries : List RegistryEntry) :
    freed entries (gcUnits (runGc root entries false).2 entries) = [] := by
  rw [List.eq_nil_iff_forall_not_mem]
  intro f hf
  obtain ⟨hmem, hdoomed⟩ := mem_freed.mp ⟨f, hf, rfl⟩
  exact (mem_runGc.mp hmem).2 hdoomed

lemma freed_eq {units : List ReclaimUnit} (h : ∀ u ∈ units, u.files ≠ [] → u.free entries) :
    freed entries units = units.flatMap (·.files) := by
  induction units with
  | nil => rfl
  | cons u units ih =>
    rw [List.forall_mem_cons] at h
    rw [freed_cons, ih h.2, List.flatMap_cons]
    split
    · rfl
    · rename_i hfree
      have hnil : u.files = [] := not_imp_comm.mp h.1 hfree
      rw [hnil]

lemma grouped_or_left (file : FileEntry) (hmem : file ∈ root.files) :
    (∀ u ∈ gcUnits root entries, file.path ∉ u.files.map (·.file.path)) ∧
        (∀ dryRun, file ∈ (runGc root entries dryRun).2.files) ∨
      ∃! i : Fin (gcUnits root entries).length,
        file.path ∈ ((gcUnits root entries).get i).files.map (·.file.path) := by
  have hpaths := nodup_gcUnits root entries
  rw [List.map_flatMap] at hpaths
  by_cases hcandidate : Candidate root entries file.path
  · right
    obtain ⟨u, hu, f, hf, rfl⟩ := mem_gcUnits.mpr ⟨hmem, hcandidate⟩
    exact existsUnique_of_nodup_flatMap hpaths (List.mem_flatMap.mpr ⟨u, hu, List.mem_map_of_mem hf⟩)
  · left
    refine ⟨fun u hu hpath => ?_, mem_runGc_of_not_doomed hmem fun h => hcandidate ⟨h.1, .inl h.2.1⟩⟩
    obtain ⟨f, hf, hf'⟩ := List.mem_map.mp hpath
    exact hcandidate (hf' ▸ (mem_gcUnits.mp ⟨u, hu, f, hf, rfl⟩).2)

lemma doomed_of_candidate {file : FileEntry} (hcandidate : Candidate root entries file.path)
    (h : file.path.place = .databases → isSidecar file.path.name →
      baseDbName file.path ≠ ".." ∧
        (baseDbName file.path ∈ referenced entries → root.HasDb (baseDbName file.path))) :
    Doomed entries file.path := by
  obtain ⟨hrecognised, hwhy⟩ := hcandidate
  refine ⟨hrecognised, ?_, ?_⟩
  · rcases hwhy with hwhy | ⟨hplace, hside, habsent⟩
    · exact hwhy
    · exact fun href => habsent ((h hplace hside).2 href)
  · obtain ⟨⟨place, name⟩, bytes⟩ := file
    cases place with
    | databases =>
      by_cases hside : isSidecar name
      · exact (h rfl hside).1
      · have hdb : isDatabase name := by simpa [recognised, hside] using hrecognised
        dsimp only
        rw [baseDbName_of_isDatabase hdb]
        rintro rfl
        exact absurd hdb (by decide)
    | seedVectors =>
      intro hbase
      obtain ⟨front, hfront⟩ : ∃ front, (".." : String) = front ++ ".db" := ⟨_, hbase.symm⟩
      have hends : endsWith ".." ".db" := endsWith_iff.mpr ⟨front, hfront⟩
      exact absurd hends (by decide)

/-- The collector accounts for what it counts exactly if no listed sidecar is one of `..`, or of a registered
database that is not listed. -/
theorem gc_accounts_iff (root : StateRoot) (entries : List RegistryEntry) :
    GcAccounts root entries ↔ ∀ file ∈ root.files, file.path.place = .databases → isSidecar file.path.name →
      baseDbName file.path ≠ ".." ∧
      (baseDbName file.path ∈ referenced entries → root.HasDb (baseDbName file.path)) := by
  constructor
  · intro h file hmem hplace hside
    have hrecognised : recognised file.path := by
      rw [recognised, hplace]
      simp [hside]
    have hgone : Candidate root entries file.path → Doomed entries file.path := by
      intro hcandidate
      obtain ⟨u, hu, f, hf, rfl⟩ := mem_gcUnits.mpr ⟨hmem, hcandidate⟩
      by_contra hdoomed
      exact h.unlinked u hu f hf (mem_runGc.mpr ⟨hmem, hdoomed⟩)
    constructor
    · intro hbase
      have habsent : ¬ root.HasDb (baseDbName file.path) := by
        rw [hbase]
        rintro ⟨hdb, -⟩
        exact absurd hdb (by decide)
      exact (hgone ⟨hrecognised, .inr ⟨hplace, hside, habsent⟩⟩).2.2 hbase
    · intro href
      by_contra habsent
      exact (hgone ⟨hrecognised, .inr ⟨hplace, hside, habsent⟩⟩).2.1 href
  · intro h
    have hdoomed : ∀ u ∈ gcUnits root entries, ∀ f ∈ u.files, Doomed entries f.file.path := by
      intro u hu f hf
      obtain ⟨hmem, hcandidate⟩ := mem_gcUnits.mp ⟨u, hu, f, hf, rfl⟩
      exact doomed_of_candidate hcandidate (h f.file hmem)
    have hfreed : freed entries (gcUnits root entries) = (gcUnits root entries).flatMap (·.files) := by
      refine freed_eq fun u hu hne => ?_
      obtain ⟨f, hf⟩ := List.exists_mem_of_ne_nil _ hne
      rw [free_iff, baseName_gcUnits hu hf]
      exact (hdoomed u hu f hf).2
    have hagain := unlinked_runGc (runGc root entries false).2 entries
    rw [freed_runGc] at hagain
    refine ⟨grouped_or_left, ?_, ?_, ?_, wouldReclaimBytes_runGc root entries false, ?_, ?_⟩
    · exact fun file hmem href => mem_runGc_of_not_doomed hmem fun hdoomed => hdoomed.2.1 href
    · exact fun u hu f hf hleft => (mem_runGc.mp hleft).2 (hdoomed u hu f hf)
    · rw [reclaimedBytes_runGc, hfreed]
      rfl
    · exact hagain.bytes
    · exact hagain.rest.trans (by simp)

/-- The log of a registered database whose file is not there is counted, and then left to its owner. -/
theorem stray_log_of_registered_database :
    ¬ GcAccounts { databases := ⟨[("a.db-wal", 10)],
      by decide, by decide⟩, seedVectors := none, present := fun _ => true }
      [{ canonicalPath := ⟨[]⟩, alias_ := none, dbPath := "/s/databases/a.db",
         repoUid := "r", lastIndexedAt := none, lastSnapshotUid := none }] := by
  intro h
  exact absurd h.reclaimed (by decide +kernel)

end Laws

end RepoGraph.DaemonRuntime
