import Mathlib.Data.String.Basic
import RepoGraph.Lib.Folds
import RepoGraph.Storage.Schema

/-! Classification of the snapshots of a repository: the current snapshot, its parent, and what may be
pruned. -/

namespace RepoGraph.Storage

open Lib

def isValidEpoch (epoch : Option String) : Bool :=
  match epoch with
  | none => true
  | some e => e == currentCacheEpoch

def isUserMark (retention : Option String) : Bool :=
  retention == some RetentionClass.baselineUser.asStr || retention == some RetentionClass.baselineStamp.asStr

namespace SnapshotRow

def mayServe (s : SnapshotRow) : Bool := isValidEpoch s.derivedCacheEpoch && !isUserMark s.retentionClass

/-- The UPDATE of a retention class: an epoch is stamped where there is none. -/
def retain (s : SnapshotRow) (retentionClass : RetentionClass) : SnapshotRow :=
  { s with
    retentionClass := some retentionClass.asStr
    derivedCacheEpoch := some (s.derivedCacheEpoch.getD currentCacheEpoch) }

end SnapshotRow

def byCreatedAtDesc (a b : SnapshotRow) : Ordering := compare b.createdAt a.createdAt

/-- `ORDER BY created_at DESC`; snapshots of one instant stay in the order of the scan. -/
def newestFirst (snapshots : List SnapshotRow) : List SnapshotRow := sortBy byCreatedAtDesc snapshots

def currentOf (snapshots : List SnapshotRow) : Option SnapshotRow := snapshots.find? (·.mayServe)

def parentOf (snapshots : List SnapshotRow) : Option String :=
  ((currentOf snapshots).bind (·.parentSnapshotUid)).filter fun p =>
    ((snapshots.find? (·.snapshotUid = p)).map fun s => isValidEpoch s.derivedCacheEpoch).getD false

def classFor (snapshots : List SnapshotRow) (s : SnapshotRow) : RetentionClass :=
  if !isValidEpoch s.derivedCacheEpoch then .prunable
  else if (currentOf snapshots).map (·.snapshotUid) = some s.snapshotUid then .current
  else if parentOf snapshots = some s.snapshotUid then .parent
  else .prunable

def assignments (snapshots : List SnapshotRow) : List (String × RetentionClass) :=
  (snapshots.filter fun s => !isUserMark s.retentionClass).map fun s => (s.snapshotUid, classFor snapshots s)

def retainUid (snapshotUid : String) (retentionClass : RetentionClass) (s : SnapshotRow) : SnapshotRow :=
  if s.snapshotUid = snapshotUid then s.retain retentionClass else s

lemma retainUid_uid (snapshotUid : String) (retentionClass : RetentionClass) (s : SnapshotRow) :
    (retainUid snapshotUid retentionClass s).snapshotUid = s.snapshotUid := by
  rw [retainUid]
  split <;> rfl

namespace Database

def markSnapshotRetention (db : Database) (snapshotUid : String) (retentionClass : RetentionClass) : Database :=
  db.updateSnapshots (retainUid snapshotUid retentionClass) (retainUid_uid snapshotUid retentionClass)

def classifyRepoRetention (db : Database) (repoUid : String) : Database :=
  (assignments (newestFirst (db.readySnapshots repoUid))).foldl (fun db a => db.markSnapshotRetention a.1 a.2) db

end Database

section Updates

def applied (l : List (String × RetentionClass)) (s : SnapshotRow) : SnapshotRow :=
  l.foldl (fun s a => retainUid a.1 a.2 s) s

lemma foldl_mark (l : List (String × RetentionClass)) (db : Database) :
    (l.foldl (fun db a => db.markSnapshotRetention a.1 a.2) db).snapshots = db.snapshots.map (applied l) ∧
      (l.foldl (fun db a => db.markSnapshotRetention a.1 a.2) db).rows = db.rows := by
  induction l generalizing db with
  | nil => exact ⟨(List.map_id' _).symm, rfl⟩
  | cons a l ih =>
    obtain ⟨hs, hr⟩ := ih (db.markSnapshotRetention a.1 a.2)
    refine ⟨?_, hr⟩
    rw [List.foldl_cons, hs, Database.markSnapshotRetention, Database.updateSnapshots_snapshots, List.map_map]
    rfl

lemma applied_of_not_mem {l : List (String × RetentionClass)} {s : SnapshotRow} (h : s.snapshotUid ∉ l.map (·.1)) :
    applied l s = s := by
  induction l with
  | nil => rfl
  | cons a l ih =>
    simp only [List.map_cons, List.mem_cons, not_or] at h
    rw [applied, List.foldl_cons, retainUid, if_neg h.1]
    exact ih h.2

lemma applied_of_mem {l : List (String × RetentionClass)} {s : SnapshotRow} {c : RetentionClass}
    (hkeys : (l.map (·.1)).Nodup) (h : (s.snapshotUid, c) ∈ l) : applied l s = s.retain c := by
  induction l with
  | nil => simp at h
  | cons a l ih =>
    obtain ⟨ha, hkeys⟩ := List.nodup_cons.mp hkeys
    rw [applied, List.foldl_cons, retainUid]
    rcases List.mem_cons.mp h with rfl | h
    · rw [if_pos rfl]
      exact applied_of_not_mem ha
    · have hne : s.snapshotUid ≠ a.1 := by
        intro heq
        exact ha (List.mem_map.mpr ⟨_, h, heq⟩)
      rw [if_neg hne]
      exact ih hkeys h

end Updates

section Classified

variable {db : Database} {repoUid : String}

lemma mem_newestFirst {l : List SnapshotRow} {s : SnapshotRow} : s ∈ newestFirst l ↔ s ∈ l :=
  (sortBy_perm _ l).mem_iff

lemma Database.mem_readySnapshots {s : SnapshotRow} :
    s ∈ db.readySnapshots repoUid ↔ s ∈ db.snapshots ∧ s.isReady repoUid = true := by
  simp [Database.readySnapshots]

lemma Database.eq_of_uid (db : Database) {a b : SnapshotRow} (ha : a ∈ db.snapshots) (hb : b ∈ db.snapshots)
    (h : a.snapshotUid = b.snapshotUid) : a = b :=
  List.inj_on_of_nodup_map db.snapshotKeys ha hb h

def SnapshotRow.isClassified (s : SnapshotRow) (repoUid : String) : Bool :=
  s.isReady repoUid && !isUserMark s.retentionClass

def reclassify (repoUid : String) (ready : List SnapshotRow) (s : SnapshotRow) : SnapshotRow :=
  if s.isClassified repoUid then s.retain (classFor ready s) else s

lemma assignments_keys (db : Database) (repoUid : String) :
    ((assignments (newestFirst (db.readySnapshots repoUid))).map (·.1)).Nodup := by
  have hready : ((newestFirst (db.readySnapshots repoUid)).map (·.snapshotUid)).Nodup := by
    have hperm := (sortBy_perm byCreatedAtDesc (db.readySnapshots repoUid)).map (·.snapshotUid)
    exact hperm.nodup_iff.mpr (db.snapshotKeys.sublist (List.filter_sublist.map _))
  rw [assignments, List.map_map]
  exact hready.sublist (List.filter_sublist.map _)

lemma classify_snapshots (db : Database) (repoUid : String) :
    (db.classifyRepoRetention repoUid).snapshots =
      db.snapshots.map (reclassify repoUid (newestFirst (db.readySnapshots repoUid))) := by
  rw [Database.classifyRepoRetention, (foldl_mark _ _).1]
  refine List.map_congr_left fun s hs => ?_
  set ready := newestFirst (db.readySnapshots repoUid) with hready
  rw [reclassify]
  by_cases hclass : s.isClassified repoUid = true
  · rw [if_pos hclass]
    obtain ⟨hisReady, hmark⟩ := Bool.and_eq_true_iff.mp hclass
    refine applied_of_mem (assignments_keys db repoUid)
      (List.mem_map.mpr ⟨s, List.mem_filter.mpr ⟨?_, hmark⟩, rfl⟩)
    exact mem_newestFirst.mpr (Database.mem_readySnapshots.mpr ⟨hs, hisReady⟩)
  · rw [if_neg hclass]
    refine applied_of_not_mem fun hmem => hclass ?_
    obtain ⟨a, ha, huid⟩ := List.mem_map.mp hmem
    obtain ⟨t, ht, rfl⟩ := List.mem_map.mp ha
    obtain ⟨ht, hmark⟩ := List.mem_filter.mp ht
    obtain ⟨htdb, htready⟩ := Database.mem_readySnapshots.mp (mem_newestFirst.mp ht)
    have heq := db.eq_of_uid htdb hs huid
    subst heq
    exact Bool.and_eq_true_iff.mpr ⟨htready, hmark⟩

lemma classify_rows (db : Database) (repoUid : String) : (db.classifyRepoRetention repoUid).rows = db.rows :=
  (foldl_mark _ _).2

end Classified

section Roles

variable {db : Database} {repoUid : String}

lemma retain_isReady (s : SnapshotRow)
    (c : RetentionClass) : (s.retain c).isReady repoUid = s.isReady repoUid := rfl

lemma reclassify_isReady (ready : List SnapshotRow) (s : SnapshotRow) :
    (reclassify repoUid ready s).isReady repoUid = s.isReady repoUid := by
  rw [reclassify]
  split <;> rfl

lemma isValidEpoch_retain (s : SnapshotRow) (c : RetentionClass) :
    isValidEpoch (s.retain c).derivedCacheEpoch = isValidEpoch s.derivedCacheEpoch := by
  cases h : s.derivedCacheEpoch <;> simp [SnapshotRow.retain, isValidEpoch, h]

lemma asStr_injective {a b : RetentionClass} (h : a.asStr = b.asStr) : a = b := by
  cases a <;> cases b <;> first | rfl | exact absurd h (by decide)

lemma classFor_eq_assigned (ready : List SnapshotRow) (s : SnapshotRow) :
    classFor ready s = .current ∨ classFor ready s = .parent ∨ classFor ready s = .prunable := by
  unfold classFor
  split_ifs <;> simp

lemma isUserMark_classFor (ready : List SnapshotRow) (s : SnapshotRow) :
    isUserMark (some (classFor ready s).asStr) = false := by
  rcases classFor_eq_assigned ready s with h | h | h <;> rw [h] <;> decide

lemma reclassify_class_iff {ready : List SnapshotRow} {s : SnapshotRow} (hready : s.isReady repoUid = true)
    {c : RetentionClass} (hc : isUserMark (some c.asStr) = false) :
    (reclassify repoUid ready s).retentionClass = some c.asStr ↔
      isUserMark s.retentionClass = false ∧ classFor ready s = c := by
  rw [reclassify, SnapshotRow.isClassified, hready, Bool.true_and]
  cases hmark : isUserMark s.retentionClass with
  | true =>
    simp only [Bool.not_true, Bool.false_eq_true, if_false, Bool.true_eq_false, false_and, iff_false]
    intro heq
    rw [heq, hc] at hmark
    cases hmark
  | false =>
    simp only [Bool.not_false, if_true, SnapshotRow.retain, Option.some.injEq, true_and]
    exact ⟨fun h => asStr_injective h, fun h => by rw [h]⟩

lemma currentOf_mem {s : SnapshotRow} (h : currentOf (newestFirst (db.readySnapshots repoUid)) = some s) :
    s ∈ db.snapshots ∧ s.isReady repoUid = true ∧ s.mayServe = true := by
  have hmem := mem_newestFirst.mp (List.mem_of_find?_eq_some h)
  obtain ⟨hs, hready⟩ := Database.mem_readySnapshots.mp hmem
  exact ⟨hs, hready, List.find?_some h⟩

lemma le_of_isLE_compare {a b : String} (h : (compare a b).isLE = true) : a ≤ b := by
  have h : (compareOfLessAndEq a b).isLE = true := h
  unfold compareOfLessAndEq at h
  split_ifs at h with hlt heq
  · exact le_of_lt hlt
  · exact le_of_eq heq
  · cases h

lemma currentOf_newest {s t : SnapshotRow} (h : currentOf (newestFirst (db.readySnapshots repoUid)) = some s)
    (ht : t ∈ db.snapshots) (hready : t.isReady repoUid = true) (hserve : t.mayServe = true) :
    t.createdAt ≤ s.createdAt := by
  obtain ⟨-, older, newer, hsplit, hbefore⟩ := List.find?_eq_some_iff_append.mp h
  have htrans : Std.TransCmp byCreatedAtDesc := by
    have : Std.TransCmp (fun a b : SnapshotRow => compare a.createdAt b.createdAt) :=
      inferInstanceAs (Std.TransCmp (compareOn SnapshotRow.createdAt))
    exact inferInstanceAs (Std.TransCmp fun a b : SnapshotRow => compare b.createdAt a.createdAt)
  have hsorted : (newestFirst (db.readySnapshots repoUid)).Pairwise fun a b => (byCreatedAtDesc a b).isLE :=
    pairwise_sortBy _
  have hmem : t ∈ newestFirst (db.readySnapshots repoUid) :=
    mem_newestFirst.mpr (Database.mem_readySnapshots.mpr ⟨ht, hready⟩)
  rw [hsplit] at hsorted
  rw [hsplit] at hmem
  rcases List.mem_append.mp hmem with hmem | hmem
  · have := hbefore t hmem
    simp [hserve] at this
  · rcases List.mem_cons.mp hmem with rfl | hmem
    · exact le_refl (α := String) _
    · exact le_of_isLE_compare (List.rel_of_pairwise_cons (List.pairwise_append.mp hsorted).2.1 hmem)

lemma classFor_eq_current {s : SnapshotRow} (hs : s ∈ db.snapshots) :
    classFor (newestFirst (db.readySnapshots repoUid)) s = .current ↔
      currentOf (newestFirst (db.readySnapshots repoUid)) = some s := by
  set ready := newestFirst (db.readySnapshots repoUid) with hready
  constructor
  · intro h
    unfold classFor at h
    split_ifs at h with _ hcur
    obtain ⟨c, hc, huid⟩ := Option.map_eq_some_iff.mp hcur
    rw [hc, db.eq_of_uid (currentOf_mem hc).1 hs huid]
  · intro h
    have hvalid := (Bool.and_eq_true_iff.mp (currentOf_mem h).2.2).1
    simp [classFor, hvalid, h]

lemma classFor_eq_parent {ready : List SnapshotRow} {s : SnapshotRow} (h : classFor ready s = .parent) :
    isValidEpoch s.derivedCacheEpoch = true ∧
      ∃ c, currentOf ready = some c ∧ c.parentSnapshotUid = some s.snapshotUid := by
  unfold classFor at h
  split_ifs at h with hvalid _ hparent
  obtain ⟨hbind, -⟩ := Option.filter_eq_some_iff.mp hparent
  obtain ⟨c, hc, hp⟩ := Option.bind_eq_some_iff.mp hbind
  exact ⟨by simpa using hvalid, c, hc, hp⟩

/-- What a classification of a repository leaves, beside what it found. -/
structure KeepSet (repoUid : String) (before after : List SnapshotRow) : Prop where
  untouched : List.Forall₂
    (fun s s' : SnapshotRow =>
      s' = { s with retentionClass := s'.retentionClass, derivedCacheEpoch := s'.derivedCacheEpoch } ∧
        (s.isReady repoUid = false ∨ isUserMark s.retentionClass = true → s' = s)) before after
  currentUnique : ∀ a ∈ after, ∀ b ∈ after, a.isReady repoUid = true → b.isReady repoUid = true →
    a.retentionClass = some RetentionClass.current.asStr →
      b.retentionClass = some RetentionClass.current.asStr → a = b
  currentNewest : ∀ a ∈ after, a.isReady repoUid = true → a.retentionClass = some RetentionClass.current.asStr →
    a.mayServe = true ∧ ∀ b ∈ before, b.isReady repoUid = true → b.mayServe = true → b.createdAt ≤ a.createdAt
  currentExists : (∃ b ∈ before, b.isReady repoUid = true ∧ b.mayServe = true) →
    ∃ a ∈ after, a.isReady repoUid = true ∧ a.retentionClass = some RetentionClass.current.asStr
  parentUnique : ∀ a ∈ after, ∀ b ∈ after, a.isReady repoUid = true → b.isReady repoUid = true →
    a.retentionClass = some RetentionClass.parent.asStr →
      b.retentionClass = some RetentionClass.parent.asStr → a = b
  parentOfCurrent : ∀ p ∈ after, p.isReady repoUid = true → p.retentionClass = some RetentionClass.parent.asStr →
    p.mayServe = true ∧ ∃ a ∈ after, a.isReady repoUid = true ∧
      a.retentionClass = some RetentionClass.current.asStr ∧ a.parentSnapshotUid = some p.snapshotUid
  othersPrunable : ∀ s ∈ after, s.isReady repoUid = true → isUserMark s.retentionClass = false →
    s.retentionClass = some RetentionClass.current.asStr ∨ s.retentionClass = some RetentionClass.parent.asStr ∨
      s.retentionClass = some RetentionClass.prunable.asStr

lemma retentionClass_of_classified {ready : List SnapshotRow} {s : SnapshotRow} (hready : s.isReady repoUid = true)
    (hmark : isUserMark s.retentionClass = false) : reclassify repoUid ready s = s.retain (classFor ready s) :=
  if_pos (Bool.and_eq_true_iff.mpr ⟨hready, by simp [hmark]⟩)

lemma current_of_class {s : SnapshotRow} (hs : s ∈ db.snapshots)
    (hready : s.isReady repoUid = true)
    (hclass : (reclassify repoUid (newestFirst (db.readySnapshots repoUid)) s).retentionClass =
      some RetentionClass.current.asStr) :
    currentOf (newestFirst (db.readySnapshots repoUid)) = some s :=
  (classFor_eq_current hs).mp ((reclassify_class_iff hready (by decide)).mp hclass).2

lemma class_of_current {s : SnapshotRow} (h : currentOf (newestFirst (db.readySnapshots repoUid)) = some s) :
    (reclassify repoUid (newestFirst (db.readySnapshots repoUid)) s).retentionClass =
      some RetentionClass.current.asStr := by
  obtain ⟨hs, hready, hserve⟩ := currentOf_mem h
  refine (reclassify_class_iff hready (by decide)).mpr ⟨?_, (classFor_eq_current hs).mpr h⟩
  simpa using (Bool.and_eq_true_iff.mp hserve).2

lemma mayServe_reclassify {ready : List SnapshotRow} {s : SnapshotRow} (hready : s.isReady repoUid = true) :
    (reclassify repoUid ready s).mayServe = s.mayServe := by
  cases hmark : isUserMark s.retentionClass with
  | true =>
    have hself : reclassify repoUid ready s = s := if_neg (by simp [SnapshotRow.isClassified, hmark])
    rw [hself]
  | false =>
    rw [retentionClass_of_classified hready hmark, SnapshotRow.mayServe, SnapshotRow.mayServe,
      isValidEpoch_retain, hmark]
    have hnew : isUserMark (s.retain (classFor ready s)).retentionClass = false := isUserMark_classFor ready s
    rw [hnew]

lemma keepSet_classify (db : Database) (repoUid : String) :
    KeepSet repoUid db.snapshots (db.classifyRepoRetention repoUid).snapshots := by
  rw [classify_snapshots]
  set ready := newestFirst (db.readySnapshots repoUid) with hready
  have hmem : ∀ {a}, a ∈ db.snapshots.map (reclassify repoUid ready) → a.isReady repoUid = true →
      ∃ s ∈ db.snapshots, s.isReady repoUid = true ∧ reclassify repoUid ready s = a := by
    intro a ha har
    obtain ⟨s, hs, rfl⟩ := List.mem_map.mp ha
    exact ⟨s, hs, by rwa [reclassify_isReady] at har, rfl⟩
  constructor
  case untouched =>
    rw [List.forall₂_map_right_iff]
    refine List.forall₂_same.mpr fun s hs => ⟨?_, fun h => if_neg ?_⟩
    · rw [reclassify]
      split <;> rfl
    · rcases h with h | h <;> simp [SnapshotRow.isClassified, h]
  case currentUnique =>
    intro a ha b hb har hbr hac hbc
    obtain ⟨s, hs, hsr, rfl⟩ := hmem ha har
    obtain ⟨t, ht, htr, rfl⟩ := hmem hb hbr
    have heq := (current_of_class hs hsr hac).symm.trans (current_of_class ht htr hbc)
    rw [Option.some.inj heq]
  case currentNewest =>
    intro a ha har hac
    obtain ⟨s, hs, hsr, rfl⟩ := hmem ha har
    have hcur := current_of_class hs hsr hac
    rw [mayServe_reclassify hsr]
    refine ⟨(currentOf_mem hcur).2.2, fun b hb hbr hserve => ?_⟩
    have hle := currentOf_newest hcur hb hbr hserve
    rwa [reclassify, apply_ite SnapshotRow.createdAt,
      show (s.retain (classFor ready s)).createdAt = s.createdAt from rfl, ite_self]
  case currentExists =>
    rintro ⟨b, hb, hbr, hserve⟩
    have hsome : (currentOf ready).isSome = true :=
      List.find?_isSome.mpr ⟨b, mem_newestFirst.mpr (Database.mem_readySnapshots.mpr ⟨hb, hbr⟩), hserve⟩
    obtain ⟨s, hcur⟩ := Option.isSome_iff_exists.mp hsome
    obtain ⟨hs, hsr, -⟩ := currentOf_mem hcur
    exact ⟨_, List.mem_map_of_mem hs, by rwa [reclassify_isReady], class_of_current hcur⟩
  case parentUnique =>
    intro a ha b hb har hbr hac hbc
    obtain ⟨s, hs, hsr, rfl⟩ := hmem ha har
    obtain ⟨t, ht, htr, rfl⟩ := hmem hb hbr
    obtain ⟨-, c, hc, hp⟩ := classFor_eq_parent ((reclassify_class_iff hsr (by decide)).mp hac).2
    obtain ⟨-, c', hc', hp'⟩ := classFor_eq_parent ((reclassify_class_iff htr (by decide)).mp hbc).2
    rw [hc] at hc'
    cases hc'
    rw [hp] at hp'
    rw [db.eq_of_uid hs ht (Option.some.inj hp')]
  case parentOfCurrent =>
    intro p hpmem hpr hclass
    obtain ⟨s, hs, hsr, rfl⟩ := hmem hpmem hpr
    obtain ⟨hmark, hparent⟩ := (reclassify_class_iff hsr (by decide)).mp hclass
    obtain ⟨hvalid, c, hc, hp⟩ := classFor_eq_parent hparent
    obtain ⟨hcs, hcr, -⟩ := currentOf_mem hc
    rw [mayServe_reclassify hsr]
    refine ⟨by simp [SnapshotRow.mayServe, hvalid, hmark], reclassify repoUid ready c, List.mem_map_of_mem hcs,
      by rwa [reclassify_isReady], class_of_current hc, ?_⟩
    have huid : (reclassify repoUid ready s).snapshotUid = s.snapshotUid := by
      rw [reclassify]
      split <;> rfl
    have hpar : (reclassify repoUid ready c).parentSnapshotUid = c.parentSnapshotUid := by
      rw [reclassify]
      split <;> rfl
    rw [huid, hpar, hp]
  case othersPrunable =>
    intro a ha har hmark
    obtain ⟨s, hs, hsr, rfl⟩ := hmem ha har
    cases hm : isUserMark s.retentionClass with
    | true =>
      have hself : reclassify repoUid ready s = s := if_neg (by simp [SnapshotRow.isClassified, hm])
      rw [hself, hm] at hmark
      cases hmark
    | false =>
      rw [retentionClass_of_classified hsr hm]
      rcases classFor_eq_assigned ready s with h | h | h <;> simp [SnapshotRow.retain, h]

end Roles

section Again

variable (db : Database) (repoUid : String)

lemma createdAt_reclassify (ready : List SnapshotRow) (s : SnapshotRow) :
    (reclassify repoUid ready s).createdAt = s.createdAt := by
  rw [reclassify]
  split <;> rfl

lemma readySnapshots_classify : (db.classifyRepoRetention repoUid).readySnapshots repoUid =
    (db.readySnapshots repoUid).map (reclassify repoUid (newestFirst (db.readySnapshots repoUid))) := by
  rw [Database.readySnapshots, classify_snapshots, List.filter_map, Database.readySnapshots]
  congr 1
  exact List.filter_congr fun s _ => reclassify_isReady _ s

lemma newestFirst_classify : newestFirst ((db.classifyRepoRetention repoUid).readySnapshots repoUid) =
    (newestFirst (db.readySnapshots repoUid)).map
      (reclassify repoUid (newestFirst (db.readySnapshots repoUid))) := by
  rw [readySnapshots_classify]
  refine (List.map_insertionSort _ _ _ _ fun a _ b _ => ?_).symm
  simp only [byCreatedAtDesc, createdAt_reclassify]

lemma currentOf_map {ready : List SnapshotRow} {f : SnapshotRow → SnapshotRow}
    (h : ∀ s ∈ ready, (f s).mayServe = s.mayServe) : currentOf (ready.map f) = (currentOf ready).map f := by
  rw [currentOf, currentOf, List.find?_map]
  congr 1
  exact List.find?_congr h

variable {repoUid} in
lemma parentOf_map {l ready : List SnapshotRow} (hready : ∀ s ∈ ready, s.isReady repoUid = true) :
    parentOf (ready.map (reclassify repoUid l)) = parentOf ready := by
  have huid : ∀ s, (reclassify repoUid l s).snapshotUid = s.snapshotUid := by
    intro s
    rw [reclassify]
    split <;> rfl
  have hparent : ∀ s, (reclassify repoUid l s).parentSnapshotUid = s.parentSnapshotUid := by
    intro s
    rw [reclassify]
    split <;> rfl
  have hvalid : ∀ s, isValidEpoch (reclassify repoUid l s).derivedCacheEpoch =
      isValidEpoch s.derivedCacheEpoch := by
    intro s
    rw [reclassify]
    split
    · exact isValidEpoch_retain ..
    · rfl
  rw [parentOf, currentOf_map fun s hs => mayServe_reclassify (hready s hs), parentOf, Option.bind_map]
  congr 1
  · funext p
    rw [List.find?_map, Option.map_map]
    simp only [Function.comp_def, huid, hvalid]
  · simp only [Function.comp_def, hparent]

theorem classify_classify :
    (db.classifyRepoRetention repoUid).classifyRepoRetention repoUid = db.classifyRepoRetention repoUid := by
  refine Database.ext_rows ?_ (classify_rows _ _)
  rw [classify_snapshots, newestFirst_classify, classify_snapshots, List.map_map]
  refine List.map_congr_left fun s hs => ?_
  set ready := newestFirst (db.readySnapshots repoUid) with hready
  have hall : ∀ t ∈ ready, t.isReady repoUid = true :=
    fun t ht => (Database.mem_readySnapshots.mp (mem_newestFirst.mp ht)).2
  rw [Function.comp_apply]
  by_cases hclass : s.isClassified repoUid = true
  · have hs' : reclassify repoUid ready s = s.retain (classFor ready s) := if_pos hclass
    have hagain : (s.retain (classFor ready s)).isClassified repoUid = true := by
      rw [SnapshotRow.isClassified, retain_isReady, (Bool.and_eq_true_iff.mp hclass).1, Bool.true_and]
      have hmark : isUserMark (s.retain (classFor ready s)).retentionClass = false := isUserMark_classFor ready s
      rw [hmark, Bool.not_false]
    have huid : ∀ t, (reclassify repoUid ready t).snapshotUid = t.snapshotUid := by
      intro t
      rw [reclassify]
      split <;> rfl
    have hsame : classFor (ready.map (reclassify repoUid ready))
        (s.retain (classFor ready s)) = classFor ready s := by
      have hcur : (currentOf (ready.map (reclassify repoUid ready))).map (·.snapshotUid) =
          (currentOf ready).map (·.snapshotUid) := by
        rw [currentOf_map fun t ht => mayServe_reclassify (hall t ht), Option.map_map]
        simp only [Function.comp_def, huid]
      conv_lhs => unfold classFor
      rw [isValidEpoch_retain, hcur, parentOf_map hall]
      rfl
    rw [hs', reclassify, if_pos hagain, hsame]
    simp [SnapshotRow.retain]
  · have hs' : reclassify repoUid ready s = s := if_neg hclass
    rw [hs']
    exact if_neg hclass

end Again

end RepoGraph.Storage
