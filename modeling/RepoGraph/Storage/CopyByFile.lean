import RepoGraph.Storage.RefreshCopyForward

/-! When the copy into a refreshed snapshot goes by the files of the rows: the rows of the unchanged files, each
once, and no others. -/

namespace RepoGraph.Storage

open Lib Lib.SqlText

section Inserts

variable {ρ : Type} {kind : ArtifactKind ρ} {t t' : ArtifactTable kind} {rs : List ρ}

lemma insertPaths_ok {table : String} {unchanged paths : List String} (h : (paths ++ unchanged).Nodup) :
    unchanged.foldlM (insertPath table) paths = .ok (paths ++ unchanged) := by
  induction unchanged generalizing paths with
  | nil =>
    rw [List.append_nil]
    rfl
  | cons path unchanged ih =>
    have hnew : path ∉ paths := by
      intro hin
      exact List.disjoint_of_nodup_append h hin List.mem_cons_self
    have hnodup : ((paths ++ [path]) ++ unchanged).Nodup := by simpa using h
    rw [List.foldlM_cons, insertPath, if_neg hnew, ok_bind, ih hnodup, List.append_assoc]
    rfl

lemma insert_eq_ok {r : ρ} (h : t.insert r = .ok t') : t'.rows = t.rows ++ [r] := by
  unfold ArtifactTable.insert at h
  split at h
  · cases h
  · obtain rfl := Except.ok.inj h
    rfl

lemma rows_of_inserts (h : rs.foldlM ArtifactTable.insert t = .ok t') : t'.rows = t.rows ++ rs := by
  induction rs generalizing t with
  | nil =>
    obtain rfl := Except.ok.inj h
    simp
  | cons r rs ih =>
    rw [List.foldlM_cons] at h
    obtain ⟨t₁, hfirst, hrest⟩ := bind_ok.mp h
    rw [ih hrest, insert_eq_ok hfirst, List.append_assoc]
    rfl

lemma inserts_ok (h : ((t.rows ++ rs).map kind.uid).Nodup) : ∃ t', rs.foldlM ArtifactTable.insert t = .ok t' := by
  induction rs generalizing t with
  | nil => exact ⟨t, rfl⟩
  | cons r rs ih =>
    have hnew : kind.uid r ∉ t.rows.map kind.uid := by
      intro hin
      rw [List.map_append] at h
      exact List.disjoint_of_nodup_append h hin List.mem_cons_self
    have hfirst : ∃ t₁, t.insert r = .ok t₁ := ⟨_, dif_neg hnew⟩
    obtain ⟨t₁, hfirst⟩ := hfirst
    have hnodup : ((t₁.rows ++ rs).map kind.uid).Nodup := by
      rw [insert_eq_ok hfirst]
      simpa using h
    obtain ⟨t', ht'⟩ := ih hnodup
    exact ⟨t', by rw [List.foldlM_cons, hfirst, ok_bind, ht']⟩

end Inserts

section Copies

variable {ρ : Type} (kind : ArtifactKind ρ) (parentSnapshotUid currentSnapshotUid repoUid : String)
  (unchanged : List String) (anchor : ρ → Anchor) (t : ArtifactTable kind)

def rowsByFile : List ρ :=
  t.rows.filter fun r => inScope kind parentSnapshotUid repoUid r && decide ((anchor r).path ∈ unchanged)

def copyOf (r : ρ) : ρ := kind.copied (copyUid (kind.uid r) currentSnapshotUid) currentSnapshotUid r

/-- The run adds a copy of each row of an unchanged file, and nothing else. -/
def CopiesByFile (result : Except ConstraintError (ℕ × ArtifactTable kind)) : Prop :=
  ∃ t', result = .ok ((rowsByFile kind parentSnapshotUid repoUid unchanged anchor t).length, t') ∧
    t'.rows = t.rows ++ (rowsByFile kind parentSnapshotUid repoUid unchanged anchor t).map
      (copyOf kind currentSnapshotUid)

/-- The keys that read as some unchanged path are those of the unchanged files, and the names of the copies are not
taken. -/
structure ReadsByFile : Prop where
  reads : ∀ r ∈ t.rows, inScope kind parentSnapshotUid repoUid r →
    ((anchor r).path ∈ unchanged ↔ ∃ path ∈ unchanged, ReadsAs repoUid (anchor r) path)
  fresh : ∀ r ∈ t.rows, inScope kind parentSnapshotUid repoUid r → (anchor r).path ∈ unchanged →
    copyUid (kind.uid r) currentSnapshotUid ∉ t.rows.map kind.uid

variable {kind parentSnapshotUid currentSnapshotUid repoUid unchanged anchor t}

lemma copyUid_injective (snapshot : String) : Function.Injective (copyUid · snapshot) := by
  intro uid uid' h
  exact Text.append_right_unique (Text.append_right_unique h)

def selectedRows (kind : ArtifactKind ρ) (parentSnapshotUid repoUid : String) (unchanged : List String)
    (t : ArtifactTable kind) : List ρ :=
  t.rows.filter fun r =>
    inScope kind parentSnapshotUid repoUid r && readsUnchanged repoUid unchanged (kind.targetStableKey r)

lemma copyForward_eq (hset : unchanged.Nodup) :
    copyForward kind parentSnapshotUid currentSnapshotUid repoUid unchanged t =
      (do
        let t' ← ((selectedRows kind parentSnapshotUid repoUid unchanged t).map
          (copyOf kind currentSnapshotUid)).foldlM ArtifactTable.insert t
        return ((selectedRows kind parentSnapshotUid repoUid unchanged t).length, t')) := by
  unfold copyForward
  by_cases hempty : unchanged = []
  · subst hempty
    have hnone : selectedRows kind parentSnapshotUid repoUid [] t = [] := by
      rw [selectedRows, List.filter_eq_nil_iff]
      intro r _
      simp [readsUnchanged]
    rw [hnone]
    rfl
  · have hpaths : unchanged.foldlM (insertPath kind.tempTable) [] = .ok ([] ++ unchanged) :=
      insertPaths_ok (by simpa using hset)
    rw [if_neg (by simpa using hempty), hpaths, ok_bind, List.nil_append]
    dsimp only
    rw [List.length_map]
    rfl

lemma mem_selectedRows {r : ρ} (hkey : kind.targetStableKey r = (anchor r).stableKey repoUid) :
    r ∈ selectedRows kind parentSnapshotUid repoUid unchanged t ↔
      r ∈ t.rows ∧ inScope kind parentSnapshotUid repoUid r ∧
      ∃ path ∈ unchanged, ReadsAs repoUid (anchor r) path := by
  rw [selectedRows, List.mem_filter, Bool.and_eq_true, hkey, readsUnchanged_iff]

lemma mem_rowsByFile {r : ρ} : r ∈ rowsByFile kind parentSnapshotUid repoUid unchanged anchor t ↔
    r ∈ t.rows ∧ inScope kind parentSnapshotUid repoUid r ∧ (anchor r).path ∈ unchanged := by
  rw [rowsByFile, List.mem_filter, Bool.and_eq_true, decide_eq_true_eq]

lemma uid_copyOf (r : ρ) : kind.uid (copyOf kind currentSnapshotUid r) = copyUid (kind.uid r) currentSnapshotUid :=
  kind.uid_copied _ _ _

lemma uids_copies (rs : List ρ) : (rs.map (copyOf kind currentSnapshotUid)).map kind.uid =
    (rs.map kind.uid).map (copyUid · currentSnapshotUid) := by
  rw [List.map_map, List.map_map]
  exact List.map_congr_left fun r _ => uid_copyOf r

lemma mem_of_copies_eq {rs rs' : List ρ} (hrs : ∀ r ∈ rs, r ∈ t.rows) (hrs' : ∀ r ∈ rs', r ∈ t.rows)
    (h : rs.map (copyOf kind currentSnapshotUid) = rs'.map (copyOf kind currentSnapshotUid)) {r : ρ}
    (hr : r ∈ rs) :
    r ∈ rs' := by
  have huids := congrArg (List.map kind.uid) h
  rw [uids_copies, uids_copies] at huids
  have hsame := List.map_injective_iff.mpr (copyUid_injective currentSnapshotUid) huids
  have hin : kind.uid r ∈ rs'.map kind.uid := hsame ▸ List.mem_map_of_mem hr
  obtain ⟨r', hr', huid⟩ := List.mem_map.mp hin
  exact List.inj_on_of_nodup_map t.keys (hrs' r' hr') (hrs r hr) huid ▸ hr'

lemma nodup_copies {rs : List ρ} (hsub : rs.Sublist t.rows)
    (hfresh : ∀ r ∈ rs, copyUid (kind.uid r) currentSnapshotUid ∉ t.rows.map kind.uid) :
    ((t.rows ++ rs.map (copyOf kind currentSnapshotUid)).map kind.uid).Nodup := by
  rw [List.map_append, uids_copies, List.nodup_append']
  refine ⟨t.keys, ((hsub.map kind.uid).nodup t.keys).map (copyUid_injective currentSnapshotUid), ?_⟩
  intro uid hin hcopy
  obtain ⟨_, hmem, rfl⟩ := List.mem_map.mp hcopy
  obtain ⟨r, hr, rfl⟩ := List.mem_map.mp hmem
  exact hfresh r hr hin

lemma copiesByFile_iff (hset : unchanged.Nodup)
    (hkeys : ∀ r ∈ t.rows, inScope kind parentSnapshotUid repoUid r →
      kind.targetStableKey r = (anchor r).stableKey repoUid) :
    CopiesByFile kind parentSnapshotUid currentSnapshotUid repoUid unchanged anchor t
        (copyForward kind parentSnapshotUid currentSnapshotUid repoUid unchanged t) ↔
      ReadsByFile kind parentSnapshotUid currentSnapshotUid repoUid unchanged anchor t := by
  have hselected : ∀ r ∈ selectedRows kind parentSnapshotUid repoUid unchanged t, r ∈ t.rows := fun r hr =>
    (List.mem_filter.mp hr).1
  have hbyFile : ∀ r ∈ rowsByFile kind parentSnapshotUid repoUid unchanged anchor t, r ∈ t.rows := fun r hr =>
    (mem_rowsByFile.mp hr).1
  rw [copyForward_eq hset]
  constructor
  · rintro ⟨t', hrun, hrows⟩
    obtain ⟨t₁, hinserts, hpair⟩ := bind_ok.mp hrun
    obtain rfl : t₁ = t' := congrArg Prod.snd (Except.ok.inj hpair)
    have hcopies := List.append_cancel_left ((rows_of_inserts hinserts).symm.trans hrows)
    have hsame : ∀ r, r ∈ selectedRows kind parentSnapshotUid repoUid unchanged t ↔
        r ∈ rowsByFile kind parentSnapshotUid repoUid unchanged anchor t := fun r =>
      ⟨mem_of_copies_eq hselected hbyFile hcopies, mem_of_copies_eq hbyFile hselected hcopies.symm⟩
    constructor
    · intro r hr hscope
      have hiff := hsame r
      rw [mem_selectedRows (hkeys r hr hscope), mem_rowsByFile] at hiff
      simp only [hr, hscope, true_and] at hiff
      exact hiff.symm
    · intro r hr hscope hpath hin
      have hmem := mem_rowsByFile.mpr ⟨hr, hscope, hpath⟩
      have hkeyed := t₁.keys
      rw [hrows, List.map_append, List.nodup_append', uids_copies] at hkeyed
      exact hkeyed.2.2 hin (List.mem_map_of_mem (List.mem_map_of_mem hmem))
  · rintro ⟨hreads, hfresh⟩
    have hsame : selectedRows kind parentSnapshotUid repoUid unchanged t =
        rowsByFile kind parentSnapshotUid repoUid unchanged anchor t := by
      apply List.filter_congr
      intro r hr
      by_cases hscope : inScope kind parentSnapshotUid repoUid r = true
      · rw [hkeys r hr hscope, Bool.eq_iff_iff, Bool.and_eq_true, Bool.and_eq_true, readsUnchanged_iff,
          decide_eq_true_eq, hreads r hr hscope]
      · rw [Bool.not_eq_true] at hscope
        rw [hscope, Bool.false_and, Bool.false_and]
    have hsub : (rowsByFile kind parentSnapshotUid repoUid unchanged anchor t).Sublist t.rows :=
      List.filter_sublist
    have hnodup := nodup_copies hsub fun r hr => by
      obtain ⟨hr, hscope, hpath⟩ := mem_rowsByFile.mp hr
      exact hfresh r hr hscope hpath
    obtain ⟨t', ht'⟩ := inserts_ok hnodup
    rw [hsame]
    exact ⟨t', by rw [ht', ok_bind]; rfl, rows_of_inserts ht'⟩

end Copies

section Plain

variable {repoUid text : String} {a : Anchor}

/-- A key as its reader expects it: one byte to a character in the name of the repository, no `#` before that of
the symbol, and no symbol that ends like a file. -/
structure PlainKey (repoUid : String) (a : Anchor) : Prop where
  ascii : extraBytes repoUid = 0
  name : '#' ∉ repoUid.toList
  path : '#' ∉ a.path.toList
  ending : (∃ path name kind, a = .symbol path name kind) → ¬ EndsLikeFile a.rest.toList

lemma between_zero (front back : List Char) : between 0 front.length (front ++ back) = front := by
  rw [between_of_le (Nat.zero_le _), List.drop_zero, List.take_left]

lemma PlainKey.reads_iff (h : PlainKey repoUid a) : ReadsAs repoUid a text ↔ text = a.path := by
  unfold ReadsAs symbolReading fileReading
  rw [if_neg h.name, h.ascii]
  cases a with
  | symbol path name kind =>
    have hsplit : (Anchor.symbol path name kind).rest.toList = path.toList ++ '#' ::
        (name ++ ":SYMBOL:" ++ kind).toList := by
      simp [Anchor.rest]
    have hfront : (path.toList ++ '#' :: (name ++ ":SYMBOL:" ++ kind).toList).takeWhile (· ≠ '#') =
        path.toList := by
      rw [List.takeWhile_append_of_pos, List.takeWhile_cons_of_neg (by simp), List.append_nil]
      intro c hc
      simpa using fun he : c = '#' => h.path (he ▸ hc)
    have hend : ¬ EndsLikeFile (path.toList ++ '#' :: (name ++ ":SYMBOL:" ++ kind).toList) :=
      hsplit ▸ h.ending ⟨path, name, kind, rfl⟩
    rw [hsplit, if_pos (by simp), hfront, between_zero, String.ofList_toList]
    simp only [Option.some.injEq, hend, false_and, or_false, Anchor.path, eq_comm]
  | file path =>
    have hsplit : (Anchor.file path).rest.toList = path.toList ++ [':', 'F', 'I', 'L', 'E'] := by
      simp [Anchor.rest]
    have hpath : '#' ∉ path.toList := h.path
    have hnohash : '#' ∉ path.toList ++ [':', 'F', 'I', 'L', 'E'] := by
      simp [hpath]
    have hend : EndsLikeFile (path.toList ++ [':', 'F', 'I', 'L', 'E']) := ⟨_, _, rfl, by decide⟩
    rw [hsplit, if_neg hnohash, List.length_append]
    simp only [List.length_cons, List.length_nil, Nat.add_sub_cancel, between_zero, String.ofList_toList, hend,
      true_and, reduceCtorEq, false_or, Anchor.path, eq_comm]

theorem readsByFile_of_plain {ρ : Type} {kind : ArtifactKind ρ} {parentSnapshotUid currentSnapshotUid : String}
    {unchanged : List String} {anchor : ρ → Anchor} {t : ArtifactTable kind}
    (hplain : ∀ r ∈ t.rows, inScope kind parentSnapshotUid repoUid r → PlainKey repoUid (anchor r))
    (hfresh : ∀ r ∈ t.rows, copyUid (kind.uid r) currentSnapshotUid ∉ t.rows.map kind.uid) :
    ReadsByFile kind parentSnapshotUid currentSnapshotUid repoUid unchanged anchor t := by
  constructor
  · intro r hr hscope
    simp only [(hplain r hr hscope).reads_iff, exists_eq_right]
  · intro r hr _ _
    exact hfresh r hr

end Plain

section Statements

/-- Measurements and inferences are copied by the files of their rows exactly where their keys read so. -/
theorem copy_forward_by_file_iff (parentSnapshotUid currentSnapshotUid repoUid : String) {unchanged : List String}
    (hset : unchanged.Nodup) :
    (∀ (t : ArtifactTable measurements) (anchor : MeasurementArtifact → Anchor),
      (∀ r ∈ t.rows, inScope measurements parentSnapshotUid repoUid r →
        r.targetStableKey = (anchor r).stableKey repoUid) →
      (CopiesByFile measurements parentSnapshotUid currentSnapshotUid repoUid unchanged anchor t
          (copyForwardMeasurements parentSnapshotUid currentSnapshotUid repoUid unchanged t) ↔
        ReadsByFile measurements parentSnapshotUid currentSnapshotUid repoUid unchanged anchor t)) ∧
    ∀ (t : ArtifactTable inferences) (anchor : InferenceArtifact → Anchor),
      (∀ r ∈ t.rows, inScope inferences parentSnapshotUid repoUid r →
        r.targetStableKey = (anchor r).stableKey repoUid) →
      (CopiesByFile inferences parentSnapshotUid currentSnapshotUid repoUid unchanged anchor t
          (copyForwardInferences parentSnapshotUid currentSnapshotUid repoUid unchanged t) ↔
        ReadsByFile inferences parentSnapshotUid currentSnapshotUid repoUid unchanged anchor t) :=
  ⟨fun _ _ hkeys => copiesByFile_iff hset hkeys, fun _ _ hkeys => copiesByFile_iff hset hkeys⟩

def oneMeasurement (repoUid : String) (a : Anchor) : ArtifactTable measurements where
  rows := [⟨"m1", "s1", repoUid, a.stableKey repoUid, "line_count", "12", "scanner", "2026-01-01"⟩]
  keys := List.nodup_singleton _

theorem copy_forward_by_file_iff_one :
    ["src/a.rs"].Nodup ∧
      (CopiesByFile measurements "s1" "s2" "r1" ["src/a.rs"] (fun _ => .symbol "src/a.rs" "f" "FUNCTION")
          (oneMeasurement "r1" (.symbol "src/a.rs" "f" "FUNCTION"))
          (copyForwardMeasurements "s1" "s2" "r1" ["src/a.rs"]
            (oneMeasurement "r1" (.symbol "src/a.rs" "f" "FUNCTION"))) ↔
        ReadsByFile measurements "s1" "s2" "r1" ["src/a.rs"] (fun _ => .symbol "src/a.rs" "f" "FUNCTION")
          (oneMeasurement "r1" (.symbol "src/a.rs" "f" "FUNCTION"))) := by
  have hset : ["src/a.rs"].Nodup := List.nodup_singleton _
  refine ⟨hset, (copy_forward_by_file_iff "s1" "s2" "r1" hset).1 _ _ ?_⟩
  intro r hr _
  rw [List.mem_singleton.mp hr]

/-- A name of more bytes than characters moves the reading past the start of the path. -/
theorem accented_repository_loses_row :
    let a : Anchor := .symbol "a.rs" "f" "FUNCTION"
    ¬ CopiesByFile measurements "s1" "s2" "é" ["a.rs"] (fun _ => a) (oneMeasurement "é" a)
      (copyForwardMeasurements "s1" "s2" "é" ["a.rs"] (oneMeasurement "é" a)) := by
  intro a
  have hrun : (copyForwardMeasurements "s1" "s2" "é" ["a.rs"] (oneMeasurement "é" a)).map Prod.fst = .ok 0 := by
    decide +kernel
  have hone : (rowsByFile measurements "s1" "é" ["a.rs"] (fun _ => a) (oneMeasurement "é" a)).length = 1 := by
    decide +kernel
  rintro ⟨t', hresult, -⟩
  rw [hresult, hone] at hrun
  exact Nat.one_ne_zero (Except.ok.inj hrun)

end Statements

end RepoGraph.Storage
