import RepoGraph.DaemonRuntime.OrphanScan

/-! What a scan takes up and how it is grouped: a file at most once, under the name of its database. -/

namespace RepoGraph.DaemonRuntime

open Lib Lib.Text

variable {root : StateRoot} {entries : List RegistryEntry}

def baseDbName (path : FilePath) : String :=
  match path.place with
  | .databases => (sidecarBaseName path.name).getD path.name
  | .seedVectors => vecBaseDbName path.name

def isDatabase (name : String) : Bool := !isSidecar name && endsWith name ".db"

def recognised (path : FilePath) : Bool :=
  match path.place with
  | .databases => isSidecar path.name || isDatabase path.name
  | .seedVectors => endsWith path.name ".vec"

def databaseFile (file : String × ℕ) : FileEntry := { path := ⟨.databases, file.1⟩, bytes := file.2 }

def seedVectorFile (file : String × ℕ) : FileEntry := { path := ⟨.seedVectors, file.1⟩, bytes := file.2 }

def StateRoot.seedFiles (root : StateRoot) : List (String × ℕ) := (root.seedVectors.map (·.files)).getD []

def StateRoot.files (root : StateRoot) : List FileEntry :=
  root.databases.files.map databaseFile ++ root.seedFiles.map seedVectorFile

def StateRoot.HasDb (root : StateRoot) (name : String) : Prop :=
  isDatabase name ∧ name ∈ root.databases.files.map Prod.fst

instance (root : StateRoot) : DecidablePred root.HasDb := fun _ => inferInstanceAs (Decidable (_ ∧ _))

/-- A scan takes up what no entry refers to, and sidecars whose database is not listed. -/
def Candidate (root : StateRoot) (entries : List RegistryEntry) (path : FilePath) : Prop :=
  recognised path ∧ (baseDbName path ∉ referenced entries ∨
    path.place = .databases ∧ isSidecar path.name ∧ ¬ root.HasDb (baseDbName path))

instance (root : StateRoot) (entries : List RegistryEntry) : DecidablePred (Candidate root entries) := fun _ =>
  inferInstanceAs (Decidable (_ ∧ _))

lemma isSidecar_iff {name : String} : isSidecar name ↔ ∃ base, sidecarBaseName name = some base := by
  rw [isSidecar, sidecarBaseName, Bool.or_eq_true, stripSuffix, stripSuffix]
  by_cases hwal : endsWith name "-wal"
  · simp [hwal]
  · by_cases hshm : endsWith name "-shm"
    · simp [hwal, hshm]
    · simp [hwal, hshm]

lemma baseDbName_of_isDatabase {name : String} (h : isDatabase name) : baseDbName ⟨.databases, name⟩ = name := by
  rw [isDatabase, Bool.and_eq_true, Bool.not_eq_true'] at h
  cases hbase : sidecarBaseName name with
  | none => simp [baseDbName, hbase]
  | some base =>
    have hside := isSidecar_iff.mpr ⟨base, hbase⟩
    rw [h.1] at hside
    exact absurd hside (by simp)

lemma baseDbName_sidecar {name base : String} (h : sidecarBaseName name = some base) :
    baseDbName ⟨.databases, name⟩ = base := by
  simp [baseDbName, h]

lemma nodup_files (root : StateRoot) : (root.files.map (·.path)).Nodup := by
  have hseed : (root.seedFiles.map Prod.fst).Nodup := by
    rw [StateRoot.seedFiles]
    cases root.seedVectors with
    | none => simp
    | some l => exact l.names
  rw [StateRoot.files, List.map_append, List.nodup_append, List.map_map, List.map_map]
  refine ⟨?_, ?_, ?_⟩
  · have hnames := root.databases.names.map (f := fun name => (⟨.databases, name⟩ : FilePath)) fun a b h =>
      by simpa using h
    rwa [List.map_map] at hnames
  · have hnames := hseed.map (f := fun name => (⟨.seedVectors, name⟩ : FilePath)) fun a b h => by simpa using h
    rwa [List.map_map] at hnames
  · intro a ha b hb hab
    obtain ⟨x, -, rfl⟩ := List.mem_map.mp ha
    obtain ⟨y, -, rfl⟩ := List.mem_map.mp hb
    exact absurd (congrArg FilePath.place hab) (by simp [databaseFile, seedVectorFile])

section FirstPass

def OrphanDb.files (o : OrphanDb) : List FileEntry := o.dbFile :: o.sidecars

def held (m : IterMap String OrphanDb) : Multiset FileEntry :=
  (m.entries.map fun e => (e.2.files : Multiset FileEntry)).sum

def Grouped (m : IterMap String OrphanDb) : Prop :=
  ∀ k o, m.lookup k = some o → o.dbFile.path = ⟨.databases, k⟩ ∧ isDatabase k ∧
    ∀ s ∈ o.sidecars, baseDbName s.path = k

def isOrphanName (entries : List RegistryEntry) (name : String) : Bool :=
  isDatabase name && decide (name ∉ referenced entries)

lemma FirstPass.add_sidecarPaths (pass : FirstPass) (file : String × ℕ) :
    (pass.add entries file).sidecarPaths =
      pass.sidecarPaths ++ if isSidecar file.1 then [databaseFile file] else [] := by
  rw [add]
  by_cases hside : isSidecar file.1
  · simp [hside, databaseFile]
  · by_cases hdb : endsWith file.1 ".db"
    · simp [hside, hdb]
    · simp [hside, hdb]

lemma FirstPass.mem_add_presentDbNames (pass : FirstPass) (file : String × ℕ) (name : String) :
    name ∈ (pass.add entries file).presentDbNames ↔ name ∈ pass.presentDbNames ∨
    isDatabase name ∧ name = file.1 := by
  rw [add]
  by_cases hside : isSidecar file.1
  · have hno : ¬ (isDatabase name ∧ name = file.1) := by
      rintro ⟨hname, rfl⟩
      simp [isDatabase, hside] at hname
    simp [hside, hno]
  · by_cases hdb : endsWith file.1 ".db"
    · simp only [hside, hdb, Bool.false_eq_true, if_false, if_true, List.mem_cons]
      constructor
      · rintro (rfl | h)
        · exact .inr ⟨by simp [isDatabase, hside, hdb], rfl⟩
        · exact .inl h
      · rintro (h | ⟨-, h⟩)
        · exact .inr h
        · exact .inl h
    · have hno : ¬ (isDatabase name ∧ name = file.1) := by
        rintro ⟨hname, rfl⟩
        simp [isDatabase, hdb] at hname
      simp [hside, hdb, hno]

lemma FirstPass.add_orphanByName (pass : FirstPass) (file : String × ℕ) :
    (pass.add entries file).orphanByName =
      if isOrphanName entries file.1 then
        pass.orphanByName.insert file.1 { dbFile := databaseFile file, sidecars := [] }
      else pass.orphanByName := by
  rw [add]
  by_cases hside : isSidecar file.1
  · simp [hside, isOrphanName, isDatabase]
  · by_cases hdb : endsWith file.1 ".db"
    · by_cases href : file.1 ∈ referenced entries
      · simp [hside, hdb, href, isOrphanName]
      · simp [hside, hdb, href, isOrphanName, isDatabase, databaseFile]
    · simp [hside, hdb, isOrphanName, isDatabase]

def firstPass (entries : List RegistryEntry) (files : List (String × ℕ)) : FirstPass :=
  files.foldl (FirstPass.add entries) {}

lemma firstPass_snoc (files : List (String × ℕ)) (file : String × ℕ) :
    firstPass entries (files ++ [file]) = (firstPass entries files).add entries file := by
  rw [firstPass, List.foldl_append]
  rfl

lemma firstPass_sidecarPaths (files : List (String × ℕ)) :
    (firstPass entries files).sidecarPaths = (files.filter fun file => isSidecar file.1).map databaseFile := by
  induction files using List.reverseRecOn with
  | nil => rfl
  | append_singleton files file ih =>
    rw [firstPass_snoc, FirstPass.add_sidecarPaths, ih, List.filter_append, List.map_append]
    by_cases hside : isSidecar file.1
    · simp [hside]
    · simp [hside]

lemma mem_firstPass_presentDbNames {files : List (String × ℕ)} {name : String} :
    name ∈ (firstPass entries files).presentDbNames ↔ isDatabase name ∧ name ∈ files.map Prod.fst := by
  induction files using List.reverseRecOn with
  | nil => simp [firstPass]
  | append_singleton files file ih =>
    rw [firstPass_snoc, FirstPass.mem_add_presentDbNames, ih, List.map_append, List.mem_append, List.map_singleton,
      List.mem_singleton, and_or_left]

lemma lookup_firstPass_isSome {files : List (String × ℕ)} {name : String} :
    ((firstPass entries files).orphanByName.lookup name).isSome ↔
      isOrphanName entries name ∧ name ∈ files.map Prod.fst := by
  induction files using List.reverseRecOn with
  | nil => simp [firstPass]
  | append_singleton files file ih =>
    rw [firstPass_snoc, FirstPass.add_orphanByName, List.map_append, List.mem_append, List.map_singleton,
      List.mem_singleton, and_or_left, ← ih]
    by_cases hname : name = file.1
    · subst hname
      split
      · rename_i horphan
        simp [horphan]
      · rename_i horphan
        simp [horphan]
    · split
      · rw [AList.lookup_insert_ne hname]
        simp [hname]
      · simp [hname]

lemma grouped_firstPass (files : List (String × ℕ)) : Grouped (firstPass entries files).orphanByName := by
  induction files using List.reverseRecOn with
  | nil =>
    intro k o h
    simp [firstPass] at h
  | append_singleton files file ih =>
    rw [firstPass_snoc, FirstPass.add_orphanByName]
    split
    · rename_i horphan
      intro k o h
      by_cases hk : k = file.1
      · subst hk
        rw [AList.lookup_insert, Option.some_inj] at h
        subst h
        exact ⟨rfl, (Bool.and_eq_true_iff.mp horphan).1, by simp⟩
      · rw [AList.lookup_insert_ne hk] at h
        exact ih k o h
    · exact ih

lemma held_firstPass {files : List (String × ℕ)} (hnames : (files.map Prod.fst).Nodup) :
    held (firstPass entries files).orphanByName =
      ((files.filter fun file => isOrphanName entries file.1).map databaseFile : List FileEntry) := by
  induction files using List.reverseRecOn with
  | nil => rfl
  | append_singleton files file ih =>
    rw [List.map_append, List.nodup_append] at hnames
    obtain ⟨hfiles, -, hfresh⟩ := hnames
    rw [firstPass_snoc, FirstPass.add_orphanByName, List.filter_append, List.map_append,
      ← Multiset.coe_add, ← ih hfiles]
    split
    · rename_i horphan
      have hnot : file.1 ∉ (firstPass entries files).orphanByName := by
        rw [← AList.lookup_isSome, lookup_firstPass_isSome]
        rintro ⟨-, hmem⟩
        exact hfresh _ hmem _ (by simp) rfl
      rw [held, AList.entries_insert_of_notMem hnot, List.map_cons, List.sum_cons, add_comm]
      simp [horphan, held, OrphanDb.files]
    · rename_i horphan
      simp [horphan]

end FirstPass

section SecondPass

variable {present : List String} {found : IterMap String OrphanDb × List FileEntry} {file : FileEntry}

def Claimed (present : List String) (m : IterMap String OrphanDb) (file : FileEntry) : Prop :=
  (m.lookup (baseDbName file.path)).isSome ∨ baseDbName file.path ∉ present

instance (present : List String) (m : IterMap String OrphanDb) : DecidablePred (Claimed present m) := fun _ =>
  inferInstanceAs (Decidable (_ ∨ _))

structure IsSidecarFile (file : FileEntry) : Prop where
  place : file.path.place = .databases
  base : sidecarBaseName file.path.name = some (baseDbName file.path)

lemma isSidecarFile_of {name : String} {bytes : ℕ}
    (h : isSidecar name) : IsSidecarFile (databaseFile (name, bytes)) := by
  obtain ⟨base, hbase⟩ := isSidecar_iff.mp h
  exact ⟨rfl, by rw [databaseFile, baseDbName_sidecar hbase, hbase]⟩

lemma lookup_attributeSidecar_isSome (present : List String) (found : IterMap String OrphanDb × List FileEntry)
    (file : FileEntry) (k : String) :
    ((attributeSidecar present found file).1.lookup k).isSome = (found.1.lookup k).isSome := by
  rw [attributeSidecar]
  split
  · split
    · rw [IterMap.lookup_modify, Option.isSome_map]
    · split
      · rfl
      · rfl
  · rfl

lemma grouped_attributeSidecar (hfile : IsSidecarFile file) (h : Grouped found.1) :
    Grouped (attributeSidecar present found file).1 := by
  rw [attributeSidecar, hfile.base]
  dsimp only
  split
  · intro k o ho
    rw [IterMap.lookup_modify, Option.map_eq_some_iff] at ho
    obtain ⟨o', ho', rfl⟩ := ho
    obtain ⟨hdb, hname, hside⟩ := h k o' ho'
    split
    · rename_i hk
      refine ⟨hdb, hname, fun s hs => ?_⟩
      rcases List.mem_append.mp hs with hs | hs
      · exact hside s hs
      · rw [List.mem_singleton.mp hs, hk]
    · exact ⟨hdb, hname, hside⟩
  · split
    · exact h
    · exact h

lemma held_attributeSidecar (hfile : IsSidecarFile file) :
    held (attributeSidecar present found file).1 + ((attributeSidecar present found file).2 : Multiset FileEntry) =
      held found.1 + (found.2 : Multiset FileEntry) + if Claimed present found.1 file then {file} else 0 := by
  rw [attributeSidecar, hfile.base]
  dsimp only
  by_cases horphan : (found.1.lookup (baseDbName file.path)).isSome
  · have hpush : ∀ o : OrphanDb, ((o.push file).files : Multiset FileEntry) =
        (o.files : Multiset FileEntry) + {file} := by
      intro o
      rw [OrphanDb.files, OrphanDb.files, OrphanDb.push, ← List.cons_append,
        ← Multiset.coe_add, Multiset.coe_singleton]
    have hsum := IterMap.sum_modify (w := fun o => (o.files : Multiset FileEntry)) hpush horphan
    rw [if_pos horphan, if_pos (.inl horphan), held, hsum, held]
    abel
  · rw [if_neg horphan]
    by_cases hpresent : baseDbName file.path ∈ present
    · rw [if_pos hpresent, if_neg (by simp [Claimed, horphan, hpresent]), add_zero]
    · rw [if_neg hpresent, if_pos (.inr hpresent)]
      simp [← Multiset.coe_add, add_assoc]

structure Attributed (present : List String) (m : IterMap String OrphanDb) (sidecars : List FileEntry)
    (found : IterMap String OrphanDb × List FileEntry) : Prop where
  keys : ∀ k, (found.1.lookup k).isSome = (m.lookup k).isSome
  grouped : Grouped found.1
  strays : ∀ s ∈ found.2, s ∈ sidecars
  files : held found.1 + (found.2 : Multiset FileEntry) = held m +
    (sidecars.filter (Claimed present m) : List FileEntry)

lemma attributed (present : List String) {m : IterMap String OrphanDb} (hm : Grouped m) {sidecars : List FileEntry}
    (hside : ∀ s ∈ sidecars, IsSidecarFile s) :
    Attributed present m sidecars (sidecars.foldl (attributeSidecar present) (m, [])) := by
  induction sidecars using List.reverseRecOn with
  | nil => exact ⟨fun _ => rfl, hm, by simp, by simp⟩
  | append_singleton sidecars file ih =>
    rw [List.forall_mem_append] at hside
    obtain ⟨hkeys, hgrouped, hstrays, hfiles⟩ := ih hside.1
    have hfile := hside.2 file (by simp)
    rw [List.foldl_append, List.foldl_cons, List.foldl_nil]
    generalize sidecars.foldl (attributeSidecar present) (m, []) = found at hkeys hgrouped hstrays hfiles ⊢
    refine ⟨?_, grouped_attributeSidecar hfile hgrouped, ?_, ?_⟩
    · intro k
      rw [lookup_attributeSidecar_isSome, hkeys]
    · intro s hs
      rw [attributeSidecar, hfile.base] at hs
      dsimp only at hs
      rw [List.mem_append, List.mem_singleton]
      split at hs
      · exact .inl (hstrays s hs)
      · split at hs
        · exact .inl (hstrays s hs)
        · rcases List.mem_append.mp hs with hs | hs
          · exact .inl (hstrays s hs)
          · exact .inr (List.mem_singleton.mp hs)
    · have hclaim : Claimed present found.1 file ↔ Claimed present m file := by
        rw [Claimed, Claimed, hkeys]
      rw [held_attributeSidecar hfile, hfiles, List.filter_append, ← Multiset.coe_add, add_assoc]
      by_cases h : Claimed present m file
      · simp [if_pos (hclaim.mpr h), h]
      · simp [if_neg (mt hclaim.mp h), h]

end SecondPass

section Report

def OrphanReport.files (r : OrphanReport) : Multiset FileEntry :=
  (r.orphanDbs.map fun o => (o.files : Multiset FileEntry)).sum + (r.straySidecars : Multiset FileEntry) +
    (r.orphanSeedVectors : Multiset FileEntry)

structure OrphanReport.Sound (r : OrphanReport) : Prop where
  orphans : ∀ o ∈ r.orphanDbs, o.dbFile.path.place = .databases ∧ isDatabase o.dbFile.path.name ∧
    ∀ s ∈ o.sidecars, baseDbName s.path = o.dbFile.path.name
  strays : ∀ s ∈ r.straySidecars, IsSidecarFile s
  seeds : ∀ v ∈ r.orphanSeedVectors, v.path.place = .seedVectors

lemma sum_inKeyOrder {M ν : Type} [AddCommMonoid M] (m : IterMap String ν) (w : (Σ _ : String, ν) → M) :
    ((inKeyOrder m).map w).sum = (m.entries.map w).sum :=
  ((sortBy_perm _ _).map w).sum_eq

lemma claimed_firstPass (root : StateRoot) (entries : List RegistryEntry) (file : FileEntry) :
    Claimed (firstPass entries root.databases.files).presentDbNames
        (firstPass entries root.databases.files).orphanByName file ↔
      baseDbName file.path ∉ referenced entries ∨ ¬ root.HasDb (baseDbName file.path) := by
  rw [Claimed, lookup_firstPass_isSome, mem_firstPass_presentDbNames, isOrphanName,
    Bool.and_eq_true, decide_eq_true_eq, StateRoot.HasDb]
  tauto

lemma candidate_database (root : StateRoot) (entries : List RegistryEntry) (file : String × ℕ) :
    (decide (Candidate root entries (databaseFile file).path)).toNat = (isOrphanName entries file.1).toNat +
      (decide (Claimed (firstPass entries root.databases.files).presentDbNames
        (firstPass entries root.databases.files).orphanByName (databaseFile file)) && isSidecar file.1).toNat := by
  by_cases hside : isSidecar file.1
  · have hdb : isDatabase file.1 = false := by simp [isDatabase, hside]
    have hcandidate : Candidate root entries (databaseFile file).path ↔
        Claimed (firstPass entries root.databases.files).presentDbNames
          (firstPass entries root.databases.files).orphanByName (databaseFile file) := by
      rw [claimed_firstPass]
      simp [Candidate, recognised, databaseFile, hside]
    simp [hcandidate, isOrphanName, hside, hdb]
  · by_cases hdb : isDatabase file.1
    · simp [Candidate, recognised, databaseFile, isOrphanName, hside, hdb, baseDbName_of_isDatabase hdb]
    · simp [Candidate, recognised, databaseFile, isOrphanName, hside, hdb]

lemma scanOrphanSeedVectors_eq (root : StateRoot) (entries : List RegistryEntry) :
    scanOrphanSeedVectors root entries =
      (root.seedFiles.map seedVectorFile).filter fun f => decide (Candidate root entries f.path) := by
  have hcandidate : ∀ file : String × ℕ, decide (Candidate root entries (seedVectorFile file).path) =
      (endsWith file.1 ".vec" && decide (vecBaseDbName file.1 ∉ referenced entries)) := by
    intro file
    simp [Candidate, recognised, seedVectorFile, baseDbName]
  rw [scanOrphanSeedVectors, StateRoot.seedFiles]
  cases root.seedVectors with
  | none => rfl
  | some l =>
    have hkept : (fun f => decide (Candidate root entries f.path)) ∘ seedVectorFile =
        fun file => endsWith file.1 ".vec" && decide (vecBaseDbName file.1 ∉ referenced entries) :=
          funext hcandidate
    rw [Option.map_some, Option.getD_some, List.filter_map, hkept, ← List.filterMap_eq_map, List.filterMap_filter]
    rfl

def secondPass (entries : List RegistryEntry)
    (files : List (String × ℕ)) : IterMap String OrphanDb × List FileEntry :=
  (firstPass entries files).sidecarPaths.foldl (attributeSidecar (firstPass entries files).presentDbNames)
    ((firstPass entries files).orphanByName, [])

lemma scanOrphans_eq (root : StateRoot) (entries : List RegistryEntry) :
    scanOrphans root entries =
      { orphanDbs := (inKeyOrder (secondPass entries root.databases.files).1).map Sigma.snd
        straySidecars := (secondPass entries root.databases.files).2
        orphanSeedVectors := scanOrphanSeedVectors root entries
        deadPathEntries := deadPathEntries root entries } := rfl

lemma attributed_secondPass (entries : List RegistryEntry) (files : List (String × ℕ)) :
    Attributed (firstPass entries files).presentDbNames (firstPass entries files).orphanByName
      ((files.filter fun file => isSidecar file.1).map databaseFile) (secondPass entries files) := by
  rw [secondPass, firstPass_sidecarPaths]
  refine attributed _ (grouped_firstPass _) fun s hs => ?_
  obtain ⟨⟨name, bytes⟩, hfile, rfl⟩ := List.mem_map.mp hs
  exact isSidecarFile_of (List.mem_filter.mp hfile).2

lemma files_scanOrphans (root : StateRoot) (entries : List RegistryEntry) :
    (scanOrphans root entries).files =
      (root.files.filter fun f => decide (Candidate root entries f.path) : List FileEntry) := by
  have hattributed := (attributed_secondPass entries root.databases.files).files
  have hdatabases := (filter_perm_append (l := root.databases.files) fun file _ =>
    candidate_database root entries file).map databaseFile
  have horphans : (((inKeyOrder (secondPass entries root.databases.files).1).map Sigma.snd).map fun o =>
      (o.files : Multiset FileEntry)).sum = held (secondPass entries root.databases.files).1 := by
    rw [List.map_map, sum_inKeyOrder]
    rfl
  rw [held_firstPass root.databases.names, List.filter_map, List.filter_filter] at hattributed
  rw [scanOrphans_eq, OrphanReport.files, horphans, hattributed, Multiset.coe_add,
    ← List.map_append, StateRoot.files,
    List.filter_append, ← scanOrphanSeedVectors_eq, ← Multiset.coe_add, List.filter_map]
  exact congrArg (· + _) (Multiset.coe_eq_coe.mpr hdatabases.symm)

lemma sound_scanOrphans (root : StateRoot) (entries : List RegistryEntry) : (scanOrphans root entries).Sound := by
  obtain ⟨-, hgrouped, hstrays, -⟩ := attributed_secondPass entries root.databases.files
  refine ⟨?_, ?_, ?_⟩
  · intro o ho
    obtain ⟨⟨k, o⟩, hmem, rfl⟩ := List.mem_map.mp ho
    have hlookup := IterMap.mem_entries.mp ((sortBy_perm _ _).mem_iff.mp hmem)
    obtain ⟨hpath, hdb, hside⟩ := hgrouped k o hlookup
    rw [hpath]
    exact ⟨rfl, hdb, hside⟩
  · intro s hs
    obtain ⟨⟨name, bytes⟩, hfile, rfl⟩ := List.mem_map.mp (hstrays s hs)
    exact isSidecarFile_of (List.mem_filter.mp hfile).2
  · intro v hv
    change v ∈ scanOrphanSeedVectors root entries at hv
    rw [scanOrphanSeedVectors_eq] at hv
    obtain ⟨file, -, rfl⟩ := List.mem_map.mp (List.mem_filter.mp hv).1
    rfl

end Report

section Units

lemma strayBase_eq {file : FileEntry} (h : IsSidecarFile file) : strayBase file = baseDbName file.path := by
  rw [strayBase, h.base, Option.getD_some]

def contents (files : List GcFile) : Multiset FileEntry := (files.map (·.file) : List FileEntry)

lemma contents_append_singleton (files : List GcFile) (f : GcFile) : contents (files ++ [f]) =
    contents files + {f.file} := by
  rw [contents, List.map_append, ← Multiset.coe_add]
  rfl

def unitFiles (units : List ReclaimUnit) : Multiset FileEntry := (units.map fun u => contents u.files).sum

lemma unitFiles_cons (u : ReclaimUnit) (units : List ReclaimUnit) :
    unitFiles (u :: units) = contents u.files + unitFiles units := by
  rw [unitFiles, List.map_cons, List.sum_cons]
  rfl

lemma unitFiles_append (units more : List ReclaimUnit) : unitFiles (units ++ more) =
    unitFiles units + unitFiles more := by
  rw [unitFiles, List.map_append, List.sum_append]
  rfl

lemma contents_unit (o : OrphanDb) : contents o.unit.files = (o.files : Multiset FileEntry) := by
  simp [OrphanDb.unit, contents, OrphanDb.files, Function.comp_def]

lemma unitFiles_strayUnits (strays : List FileEntry) : unitFiles (strayUnits strays) =
    (strays : Multiset FileEntry) := by
  have hfold : ∀ m : IterMap String (List GcFile), ((strays.foldl (fun m file =>
      m.entryOrDefault (.asInserted _ _) (strayBase file) (· ++ [⟨"stray-sidecar", file⟩])) m).entries.map fun e =>
        contents e.2).sum = (m.entries.map fun e => contents e.2).sum + (strays : Multiset FileEntry) := by
    induction strays with
    | nil => simp
    | cons file strays ih =>
      intro m
      rw [List.foldl_cons, ih, IterMap.sum_entryOrDefault rfl (fun fs => contents_append_singleton fs _),
        add_assoc, ← Multiset.cons_coe, Multiset.singleton_add]
  rw [unitFiles, strayUnits, List.map_map, sum_inKeyOrder]
  exact (hfold ∅).trans (zero_add _)

lemma unitFiles_attachSeedVector (units : List ReclaimUnit) (file : FileEntry) :
    unitFiles (attachSeedVector units file) = unitFiles units + {file} := by
  induction units with
  | nil => rfl
  | cons u units ih =>
    rw [attachSeedVector]
    split
    · rw [unitFiles_cons, unitFiles_cons, contents_append_singleton]
      abel
    · rw [unitFiles_cons, unitFiles_cons, ih, add_assoc]

lemma unitFiles_reclaimUnits (scan : OrphanReport) : unitFiles (reclaimUnits scan) = scan.files := by
  have hattach : ∀ (seeds : List FileEntry) (units : List ReclaimUnit),
      unitFiles (seeds.foldl attachSeedVector units) = unitFiles units + (seeds : Multiset FileEntry) := by
    intro seeds
    induction seeds with
    | nil => simp
    | cons v seeds ih =>
      intro units
      rw [List.foldl_cons, ih, unitFiles_attachSeedVector, add_assoc, ← Multiset.cons_coe, Multiset.singleton_add]
  have horphans : unitFiles (scan.orphanDbs.map OrphanDb.unit) =
      (scan.orphanDbs.map fun o => (o.files : Multiset FileEntry)).sum := by
    rw [unitFiles, List.map_map]
    exact congrArg List.sum (List.map_congr_left fun o _ => contents_unit o)
  rw [reclaimUnits, hattach, unitFiles_append, horphans, unitFiles_strayUnits, OrphanReport.files]

def ReclaimUnit.Own (u : ReclaimUnit) : Prop := ∀ f ∈ u.files, baseDbName f.file.path = u.baseName

lemma own_attachSeedVector {units : List ReclaimUnit} (h : ∀ u ∈ units, u.Own) {file : FileEntry}
    (hfile : file.path.place = .seedVectors) : ∀ u ∈ attachSeedVector units file, u.Own := by
  have hbase : baseDbName file.path = vecBaseDbName file.path.name := by
    rw [baseDbName, hfile]
  induction units with
  | nil =>
    intro u hu f hf
    obtain rfl := List.mem_singleton.mp hu
    obtain rfl := List.mem_singleton.mp hf
    exact hbase
  | cons u units ih =>
    rw [List.forall_mem_cons] at h
    rw [attachSeedVector]
    split
    · rename_i hu
      rw [List.forall_mem_cons]
      refine ⟨fun f hf => ?_, h.2⟩
      rcases List.mem_append.mp hf with hf | hf
      · exact h.1 f hf
      · obtain rfl := List.mem_singleton.mp hf
        exact hbase.trans hu.symm
    · rw [List.forall_mem_cons]
      exact ⟨h.1, ih h.2⟩

lemma own_reclaimUnits {scan : OrphanReport} (hscan : scan.Sound) : ∀ u ∈ reclaimUnits scan, u.Own := by
  obtain ⟨horphans, hstrays, hseeds⟩ := hscan
  have hattach : ∀ (seeds : List FileEntry), (∀ v ∈ seeds, v.path.place = .seedVectors) →
      ∀ units : List ReclaimUnit,
      (∀ u ∈ units, u.Own) → ∀ u ∈ seeds.foldl attachSeedVector units, u.Own := by
    intro seeds
    induction seeds with
    | nil => exact fun _ _ h => h
    | cons v seeds ih =>
      intro hplace units h
      rw [List.forall_mem_cons] at hplace
      exact ih hplace.2 _ (own_attachSeedVector h hplace.1)
  refine hattach _ hseeds _ ?_
  rw [List.forall_mem_append]
  constructor
  · intro u hu
    obtain ⟨o, ho, rfl⟩ := List.mem_map.mp hu
    obtain ⟨hplace, hdb, hside⟩ := horphans o ho
    intro f hf
    rcases List.mem_cons.mp hf with rfl | hf
    · have hpath : o.dbFile.path = ⟨.databases, o.dbFile.path.name⟩ := by rw [← hplace]
      exact (congrArg baseDbName hpath).trans (baseDbName_of_isDatabase hdb)
    · obtain ⟨s, hs, rfl⟩ := List.mem_map.mp hf
      exact hside s hs
  · intro u hu f hf
    obtain ⟨⟨k, fs⟩, hmem, rfl⟩ := List.mem_map.mp hu
    have hlookup := IterMap.mem_entries.mp ((sortBy_perm _ _).mem_iff.mp hmem)
    rw [IterMap.lookup_foldl_group] at hlookup
    split at hlookup
    · simp at hlookup
    · obtain rfl := Option.some_inj.mp hlookup
      rw [AList.lookup_empty, Option.getD_none, List.nil_append] at hf
      obtain ⟨s, hs, rfl⟩ := List.mem_map.mp hf
      obtain ⟨hs, hkey⟩ := List.mem_filter.mp hs
      rw [← strayBase_eq (hstrays s hs)]
      exact of_decide_eq_true hkey

end Units

end RepoGraph.DaemonRuntime
