import RepoGraph.Agent.PackageNames
import RepoGraph.Lib.Keyed

/-! The ownership of directories by package groups: which directories fold into one group, and when that says no
more than the manifests and the two halves of a package do. -/

namespace RepoGraph.Agent

open Lib Lib.Text

section Roots

variable {roots roots' : List ManifestRoot} {path root root' : String} {r : ManifestRoot}

def NoNestedRoots (roots : List ManifestRoot) : Prop := ∀ r ∈ roots, r.path = "."

/-- The root of the repository covers every path, but only where no root is nested in it. -/
def Covers (roots : List ManifestRoot) (root path : String) : Prop :=
  if root = "." then NoNestedRoots roots else path = root ∨ ∃ rest, path = root ++ "/" ++ rest

structure NearestRoot (roots : List ManifestRoot) (path root : String) : Prop where
  declared : ∃ r ∈ roots, r.path = root
  covers : Covers roots root path
  nearest : ∀ r ∈ roots, Covers roots r.path path → r.path.utf8ByteSize ≤ root.utf8ByteSize

def Uncovered (roots : List ManifestRoot) (path : String) : Prop := ∀ r ∈ roots, ¬ Covers roots r.path path

lemma noNestedManifestRoots_iff : noNestedManifestRoots roots ↔ NoNestedRoots roots := by
  simp [noNestedManifestRoots, NoNestedRoots]

lemma mem_coveringRoots : r ∈ roots.filter (fun r =>
    if r.path = "." then noNestedManifestRoots roots else path = r.path ∨ startsWith path s!"{r.path}/") ↔
      r ∈ roots ∧ Covers roots r.path path := by
  rw [List.mem_filter, Covers]
  by_cases hdot : r.path = "."
  · simp only [hdot, if_true, noNestedManifestRoots_iff]
  · simp only [hdot, if_false, decide_eq_true_eq, startsWith_iff]
    rfl

lemma exists_of_covers (hdot : root ≠ ".") (h : Covers roots root path) : ∃ rest, path = root ++ rest := by
  rw [Covers, if_neg hdot] at h
  rcases h with rfl | ⟨rest, rfl⟩
  · exact ⟨"", by simp⟩
  · exact ⟨"/" ++ rest, by rw [String.append_assoc]⟩

lemma NearestRoot.unique (h : NearestRoot roots path root) (h' : NearestRoot roots path root') : root = root' := by
  obtain ⟨r, hr, rfl⟩ := h.declared
  obtain ⟨r', hr', rfl⟩ := h'.declared
  by_cases hdot : r.path = "."
  · have honly := h.covers
    rw [Covers, if_pos hdot] at honly
    rw [hdot, honly r' hr']
  by_cases hdot' : r'.path = "."
  · have honly := h'.covers
    rw [Covers, if_pos hdot'] at honly
    exact absurd (honly r hr) hdot
  obtain ⟨rest, hrest⟩ := exists_of_covers hdot h.covers
  obtain ⟨rest', hrest'⟩ := exists_of_covers hdot' h'.covers
  exact beginning_unique (hrest.symm.trans hrest')
    (le_antisymm (h'.nearest r hr h.covers) (h.nearest r' hr' h'.covers))

lemma nearestManifestRoot_some
    (h : nearestManifestRoot path roots (noNestedManifestRoots roots) = some r) :
      NearestRoot roots path r.path := by
  obtain ⟨hmem, hmax⟩ := lastMaxByKey_spec h
  obtain ⟨hdeclared, hcovers⟩ := mem_coveringRoots.mp hmem
  exact ⟨⟨r, hdeclared, rfl⟩, hcovers, fun r' hr' hcovers' => hmax r' (mem_coveringRoots.mpr ⟨hr', hcovers'⟩)⟩

lemma nearestManifestRoot_none
    (h : nearestManifestRoot path roots (noNestedManifestRoots roots) = none) : Uncovered roots path := by
  intro r hr hcovers
  have hnone := lastMaxByKey_eq_none.mp h
  have hmem := mem_coveringRoots.mpr ⟨hr, hcovers⟩
  rw [hnone] at hmem
  exact absurd hmem List.not_mem_nil

lemma NearestRoot.not_uncovered (h : NearestRoot roots path root) : ¬ Uncovered roots path := by
  obtain ⟨r, hr, rfl⟩ := h.declared
  exact fun hun => hun r hr h.covers

lemma classify_cases (roots : List ManifestRoot) (path : String) :
    (∃ root, NearestRoot roots path root ∧ classify path roots (noNestedManifestRoots roots) = (root, true)) ∨
      Uncovered roots path ∧ classify path roots (noNestedManifestRoots roots) =
        (classifyDirectory path, false) := by
  unfold classify
  cases h : nearestManifestRoot path roots (noNestedManifestRoots roots) with
  | some r => exact .inl ⟨r.path, nearestManifestRoot_some h, rfl⟩
  | none => exact .inr ⟨nearestManifestRoot_none h, rfl⟩

lemma covers_of_perm (h : roots.Perm roots') (root path : String) : Covers roots root path ↔
    Covers roots' root path := by
  simp only [Covers, NoNestedRoots, h.mem_iff]

lemma classify_of_perm (h : roots.Perm roots') (path : String) :
    classify path roots (noNestedManifestRoots roots) = classify path roots' (noNestedManifestRoots roots') := by
  have hnearest : ∀ root, NearestRoot roots path root → NearestRoot roots' path root := by
    rintro root ⟨⟨r, hr, hpath⟩, hcovers, hmax⟩
    refine ⟨⟨r, h.mem_iff.mp hr, hpath⟩, (covers_of_perm h _ _).mp hcovers, ?_⟩
    intro r' hr' hcovers'
    exact hmax r' (h.mem_iff.mpr hr') ((covers_of_perm h _ _).mpr hcovers')
  have huncovered : Uncovered roots path → Uncovered roots' path := fun hun r hr hcovers =>
    hun r (h.mem_iff.mpr hr) ((covers_of_perm h _ _).mpr hcovers)
  rcases classify_cases roots path with ⟨root, hroot, heq⟩ | ⟨hun, heq⟩ <;>
    rcases classify_cases roots' path with ⟨root', hroot', heq'⟩ | ⟨hun', heq'⟩
  · rw [heq, heq', (hnearest root hroot).unique hroot']
  · exact absurd hun' (hnearest root hroot).not_uncovered
  · exact absurd (huncovered hun) hroot'.not_uncovered
  · rw [heq, heq']

end Roots

section Halves

variable {path rest : String}

def HalfOf (path rest : String) : Prop := path = "src/main/" ++ rest ∨ path = "src/test/" ++ rest

def Whole (path : String) : Prop := ∀ rest, ¬ HalfOf path rest

lemma classifyDirectory_cases (path : String) :
    HalfOf path (classifyDirectory path) ∨ Whole path ∧ classifyDirectory path = path := by
  unfold classifyDirectory
  cases htest : stripPrefix path "src/test/" with
  | some rest => exact .inl (.inr (stripPrefix_eq_some.mp htest))
  | none =>
    cases hmain : stripPrefix path "src/main/" with
    | some rest => exact .inl (.inl (stripPrefix_eq_some.mp hmain))
    | none =>
      refine .inr ⟨?_, rfl⟩
      rintro rest (h | h)
      · rw [stripPrefix_eq_some.mpr h] at hmain
        cases hmain
      · rw [stripPrefix_eq_some.mpr h] at htest
        cases htest

lemma main_ne_test (rest rest' : String) : "src/main/" ++ rest ≠ "src/test/" ++ rest' := by
  intro h
  have heq := beginning_unique h (by decide)
  exact absurd heq (by decide)

lemma HalfOf.unique {rest' : String} (h : HalfOf path rest) (h' : HalfOf path rest') : rest = rest' := by
  rcases h with rfl | rfl <;> rcases h' with h' | h'
  · exact append_left_unique h'
  · exact absurd h' (main_ne_test _ _)
  · exact absurd h'.symm (main_ne_test _ _)
  · exact append_left_unique h'

lemma HalfOf.ne (h : HalfOf path rest) : path ≠ rest := by
  intro he
  have hsize := congrArg String.utf8ByteSize he
  rcases h with rfl | rfl <;>
  · rw [String.utf8ByteSize_append] at hsize
    have hnine : "src/main/".utf8ByteSize = 9 ∧ "src/test/".utf8ByteSize = 9 := by decide
    omega

lemma classifyDirectory_half (h : HalfOf path rest) : classifyDirectory path = rest := by
  rcases classifyDirectory_cases path with hhalf | ⟨hwhole, -⟩
  · exact hhalf.unique h
  · exact absurd h (hwhole rest)

lemma classifyDirectory_whole (h : Whole path) : classifyDirectory path = path := by
  rcases classifyDirectory_cases path with hhalf | ⟨-, heq⟩
  · exact absurd hhalf (h _)
  · exact heq

end Halves

section Totals

variable {dirs dirs' : List DirGroup} {roots roots' : List ManifestRoot}

def mergeKey (roots : List ManifestRoot) (d : DirGroup) : String :=
  (classify d.path roots (noNestedManifestRoots roots)).1

def isManifestDir (roots : List ManifestRoot) (d : DirGroup) : Bool :=
  (classify d.path roots (noNestedManifestRoots roots)).2

def totalsOf (roots : List ManifestRoot) (ds : List DirGroup) : GroupTotals :=
  ((ds.map DirGroup.fileCount).sum, (ds.map DirGroup.testFileCount).sum, ds.any (isManifestDir roots))

lemma foldl_addDir (roots : List ManifestRoot) (ds : List DirGroup) (totals : GroupTotals) :
    ds.foldl (fun totals d => addDir totals (d, isManifestDir roots d)) totals =
      (totals.1 + (totalsOf roots ds).1, totals.2.1 + (totalsOf roots ds).2.1,
        totals.2.2 || (totalsOf roots ds).2.2) := by
  induction ds generalizing totals with
  | nil => simp [totalsOf]
  | cons d ds ih =>
    rw [List.foldl_cons, ih]
    simp only [totalsOf, addDir, List.map_cons, List.sum_cons, List.any_cons, add_assoc, Bool.or_assoc]

lemma foldDirs_eq (dirs : List DirGroup) (roots : List ManifestRoot) (k : String) :
    (foldDirs dirs roots)[k]? =
      if dirs.filter (mergeKey roots · = k) = [] then none
      else some (totalsOf roots (dirs.filter (mergeKey roots · = k))) := by
  have hgroup := getElem?_foldl_group (mergeKey roots)
    (fun totals d => addDir totals (d, isManifestDir roots d))
      (0, 0, false) dirs (∅ : BTreeMap String GroupTotals) k
  have hfold : (foldDirs dirs roots)[k]? = _ := hgroup
  rw [hfold, foldl_addDir]
  simp

lemma mem_foldDirs {e : String × GroupTotals} : e ∈ (foldDirs dirs roots).toList ↔
    (∃ d ∈ dirs, mergeKey roots d = e.1) ∧ e.2 = totalsOf roots (dirs.filter (mergeKey roots · = e.1)) := by
  rw [Std.ExtTreeMap.mem_toList_iff_getElem?_eq_some, foldDirs_eq]
  have hnil : dirs.filter (mergeKey roots · = e.1) = [] ↔ ¬ ∃ d ∈ dirs, mergeKey roots d = e.1 := by
    rw [List.filter_eq_nil_iff]
    simp
  by_cases hk : ∃ d ∈ dirs, mergeKey roots d = e.1
  · rw [if_neg (hnil.not.mpr (not_not.mpr hk)), Option.some.injEq, and_iff_right hk, eq_comm]
  · rw [if_pos (hnil.mpr hk)]
    simp only [reduceCtorEq, hk, false_and]

def groupKeys (dirs : List DirGroup) (roots : List ManifestRoot) : List String :=
  (foldDirs dirs roots).toList.map Prod.fst

lemma nodup_groupKeys (dirs : List DirGroup) (roots : List ManifestRoot) : (groupKeys dirs roots).Nodup :=
  Tally.nodup_keys_toList _

lemma mem_groupKeys {k : String} : k ∈ groupKeys dirs roots ↔ ∃ d ∈ dirs, mergeKey roots d = k := by
  rw [groupKeys, List.mem_map]
  constructor
  · rintro ⟨e, he, rfl⟩
    exact (mem_foldDirs.mp he).1
  · intro hk
    exact ⟨(k, totalsOf roots (dirs.filter (mergeKey roots · = k))), mem_foldDirs.mpr ⟨hk, rfl⟩, rfl⟩

lemma mergeKey_of_perm (h : roots.Perm roots') : mergeKey roots = mergeKey roots' := by
  funext d
  rw [mergeKey, classify_of_perm h, mergeKey]

lemma isManifestDir_of_perm (h : roots.Perm roots') : isManifestDir roots = isManifestDir roots' := by
  funext d
  rw [isManifestDir, classify_of_perm h, isManifestDir]

lemma totalsOf_of_perm (h : dirs.Perm dirs') (hroots : roots.Perm roots') : totalsOf roots dirs =
    totalsOf roots' dirs' := by
  have hany : dirs.any (isManifestDir roots') = dirs'.any (isManifestDir roots') := by
    rw [Bool.eq_iff_iff]
    simp only [List.any_eq_true, h.mem_iff]
  rw [totalsOf, totalsOf, (h.map DirGroup.fileCount).sum_eq, (h.map DirGroup.testFileCount).sum_eq,
    isManifestDir_of_perm hroots, hany]

lemma foldDirs_of_perm (h : dirs.Perm dirs') (hroots : roots.Perm roots') : foldDirs dirs roots =
    foldDirs dirs' roots' := by
  apply Std.ExtTreeMap.ext_getElem?
  intro k
  have hfilter : (dirs.filter (mergeKey roots · = k)).Perm (dirs'.filter (mergeKey roots' · = k)) := by
    rw [mergeKey_of_perm hroots]
    exact h.filter _
  rw [foldDirs_eq, foldDirs_eq, totalsOf_of_perm hfilter hroots]
  have hnil : dirs.filter (mergeKey roots · = k) = [] ↔ dirs'.filter (mergeKey roots' · = k) = [] := by
    rw [← List.length_eq_zero_iff, hfilter.length_eq, List.length_eq_zero_iff]
  simp only [hnil]

end Totals

section Ownership

variable {dirs : List DirGroup} {roots : List ManifestRoot} {d d' : DirGroup}

lemma mergeKey_cases (roots : List ManifestRoot) (d : DirGroup) :
    (∃ root, NearestRoot roots d.path root ∧ mergeKey roots d = root) ∨
      Uncovered roots d.path ∧ mergeKey roots d = classifyDirectory d.path := by
  rcases classify_cases roots d.path with ⟨root, hroot, heq⟩ | ⟨hun, heq⟩
  · exact .inl ⟨root, hroot, by rw [mergeKey, heq]⟩
  · exact .inr ⟨hun, by rw [mergeKey, heq]⟩

lemma mergeKey_of_nearest {root : String} (h : NearestRoot roots d.path root) : mergeKey roots d = root := by
  rcases mergeKey_cases roots d with ⟨root', hroot', heq⟩ | ⟨hun, -⟩
  · rw [heq, hroot'.unique h]
  · exact absurd hun h.not_uncovered

lemma mergeKey_of_uncovered (h : Uncovered roots d.path) : mergeKey roots d = classifyDirectory d.path := by
  rcases mergeKey_cases roots d with ⟨root, hroot, -⟩ | ⟨-, heq⟩
  · exact absurd h hroot.not_uncovered
  · exact heq

def groupOf (name : String → String) (dirs : List DirGroup) (roots : List ManifestRoot)
    (k : String) : PackageGroup where
  name := name k
  fileCount := ((dirs.filter (mergeKey roots · = k)).map DirGroup.fileCount).sum
  testFileCount := ((dirs.filter (mergeKey roots · = k)).map DirGroup.testFileCount).sum

/-- What a roll-up owes: it counts every file once, it does not depend on the order of its inputs, its groups
are the directories of one key, and two directories share a key exactly when a manifest root or a package
holds both. -/
structure RollupLaws (dirs : List DirGroup) (roots : List ManifestRoot) : Prop where
  files : ((rollupPackageGroups dirs roots).map PackageGroup.fileCount).sum = (dirs.map DirGroup.fileCount).sum
  testFiles : ((rollupPackageGroups dirs roots).map PackageGroup.testFileCount).sum =
    (dirs.map DirGroup.testFileCount).sum
  order : ∀ dirs' roots', dirs.Perm dirs' → roots.Perm roots' →
    rollupPackageGroups dirs' roots' = rollupPackageGroups dirs roots
  groups : ∃ name : String → String, (rollupPackageGroups dirs roots).Perm
    ((dirs.map (mergeKey roots)).dedup.map (groupOf name dirs roots))
  folded : ∀ d ∈ dirs, ∀ d' ∈ dirs, d.path ≠ d'.path → (mergeKey roots d = mergeKey roots d' ↔
    (∃ root, NearestRoot roots d.path root ∧ NearestRoot roots d'.path root) ∨
      Uncovered roots d.path ∧ Uncovered roots d'.path ∧ ∃ package, HalfOf d.path package ∧ HalfOf d'.path package)

/-- No half of a package that no manifest covers leaves a rest that is the nearest root of a directory, or that
is a directory which keeps its own path. -/
def NoCoincidence (dirs : List DirGroup) (roots : List ManifestRoot) : Prop :=
  ∀ d ∈ dirs, ∀ rest, Uncovered roots d.path → HalfOf d.path rest → ∀ d' ∈ dirs,
    ¬ NearestRoot roots d'.path rest ∧ ¬ (d'.path = rest ∧ Uncovered roots rest ∧ Whole rest)

lemma Uncovered.path_ne_root {path root : String} (h : Uncovered roots path)
    (hroot : NearestRoot roots d.path root) : path ≠ root := by
  rintro rfl
  obtain ⟨r, hr, rfl⟩ := hroot.declared
  apply h r hr
  have hcovers := hroot.covers
  unfold Covers at hcovers ⊢
  by_cases hdot : r.path = "."
  · rw [if_pos hdot] at hcovers ⊢
    exact hcovers
  · rw [if_neg hdot]
    exact .inl rfl

lemma folded_iff_of_noCoincidence (h : NoCoincidence dirs roots) (hd : d ∈ dirs) (hd' : d' ∈ dirs)
    (hne : d.path ≠ d'.path) : mergeKey roots d = mergeKey roots d' ↔
      (∃ root, NearestRoot roots d.path root ∧ NearestRoot roots d'.path root) ∨
        Uncovered roots d.path ∧ Uncovered roots d'.path ∧ ∃ package, HalfOf d.path package ∧
        HalfOf d'.path package := by
  -- A covered directory and an uncovered one do not meet.
  have hapart : ∀ {d d' root}, d ∈ dirs → d' ∈ dirs → NearestRoot roots d.path root → Uncovered roots d'.path →
      mergeKey roots d ≠ mergeKey roots d' := by
    intro d d' root hd hd' hroot hun
    rw [mergeKey_of_nearest hroot, mergeKey_of_uncovered hun]
    rcases classifyDirectory_cases d'.path with hhalf | ⟨-, heq⟩
    · rintro rfl
      exact (h d' hd' _ hun hhalf d hd).1 hroot
    · rw [heq]
      exact (hun.path_ne_root hroot).symm
  constructor
  · intro hsame
    rcases mergeKey_cases roots d with ⟨root, hroot, heq⟩ | ⟨hun, heq⟩ <;>
      rcases mergeKey_cases roots d' with ⟨root', hroot', heq'⟩ | ⟨hun', heq'⟩
    · obtain rfl : root = root' := heq.symm.trans (hsame.trans heq')
      exact .inl ⟨root, hroot, hroot'⟩
    · exact absurd hsame (hapart hd hd' hroot hun')
    · exact absurd hsame.symm (hapart hd' hd hroot' hun)
    · refine .inr ⟨hun, hun', ?_⟩
      rw [heq, heq'] at hsame
      rcases classifyDirectory_cases d.path with hhalf | ⟨hwhole, hkept⟩ <;>
        rcases classifyDirectory_cases d'.path with hhalf' | ⟨hwhole', hkept'⟩
      · exact ⟨_, hhalf, hsame ▸ hhalf'⟩
      · rw [hkept'] at hsame
        exact absurd ⟨hsame.symm, hsame ▸ hun', hsame ▸ hwhole'⟩ (h d hd _ hun hhalf d' hd').2
      · rw [hkept] at hsame
        exact absurd ⟨hsame, hsame ▸ hun, hsame ▸ hwhole⟩ (h d' hd' _ hun' hhalf' d hd).2
      · exact absurd (hkept.symm.trans (hsame.trans hkept')) hne
  · rintro (⟨root, hroot, hroot'⟩ | ⟨hun, hun', package, hhalf, hhalf'⟩)
    · rw [mergeKey_of_nearest hroot, mergeKey_of_nearest hroot']
    · rw [mergeKey_of_uncovered hun, mergeKey_of_uncovered hun', classifyDirectory_half hhalf,
        classifyDirectory_half hhalf']

lemma noCoincidence_of_folded (h : RollupLaws dirs roots) : NoCoincidence dirs roots := by
  intro d hd rest hun hhalf d' hd'
  have hkey : mergeKey roots d = rest := by rw [mergeKey_of_uncovered hun, classifyDirectory_half hhalf]
  constructor
  · intro hroot
    have hne : d.path ≠ d'.path := fun he => hroot.not_uncovered (he ▸ hun)
    rcases (h.folded d hd d' hd' hne).mp (hkey.trans (mergeKey_of_nearest hroot).symm) with ⟨root, hr,
      -⟩ | ⟨-, hun', -⟩
    · exact hr.not_uncovered hun
    · exact hroot.not_uncovered hun'
  · rintro ⟨rfl, hun', hwhole⟩
    have hkey' : mergeKey roots d' = d'.path := by rw [mergeKey_of_uncovered hun', classifyDirectory_whole hwhole]
    rcases (h.folded d hd d' hd' hhalf.ne).mp (hkey.trans hkey'.symm) with ⟨root, hr, -⟩
      | ⟨-, -, package, -, hpackage⟩
    · exact hr.not_uncovered hun
    · exact hwhole package hpackage

lemma groupKeys_perm (dirs : List DirGroup) (roots : List ManifestRoot) :
    (groupKeys dirs roots).Perm (dirs.map (mergeKey roots)).dedup := by
  rw [List.perm_ext_iff_of_nodup (nodup_groupKeys dirs roots) (List.nodup_dedup _)]
  intro k
  rw [mem_groupKeys, List.mem_dedup, List.mem_map]

lemma rollup_groups (dirs : List DirGroup) (roots : List ManifestRoot) : ∃ name : String → String,
    (rollupPackageGroups dirs roots).Perm ((dirs.map (mergeKey roots)).dedup.map (groupOf name dirs roots)) := by
  let named := namedGroups (foldDirs dirs roots)
  let name := fun k => (((disambiguate named).find? (·.key = k)).map NamedGroup.display).getD ""
  refine ⟨name, ((sortBy_perm groupOrder _).trans ?_).trans ((groupKeys_perm dirs roots).map _)⟩
  have hkeys : (disambiguate named).map NamedGroup.key = groupKeys dirs roots := by
    rw [keys_disambiguate, keys_namedGroups]
    rfl
  have hnodup : ((disambiguate named).map NamedGroup.key).Nodup := hkeys ▸ nodup_groupKeys dirs roots
  rw [← hkeys, List.map_map]
  refine .of_eq (List.map_congr_left ?_)
  intro e he
  have hname : name e.key = e.display := by
    have hfind : (disambiguate named).find? (·.key = e.key) = some e := by
      have hkeyed := (@Keyed.find_eq_some_iff _ _ _ NamedGroup.key _ _ _ hnodup).mpr ⟨he, rfl⟩
      exact hkeyed
    simp only [name, hfind, Option.map_some, Option.getD_some]
  have htotals : (e.key, e.total, e.test) ∈ named.map fun e => (e.key, e.total, e.test) := by
    rw [← map_disambiguate (fun e => (e.key, e.total, e.test)) (fun _ _ _ => rfl) named]
    exact List.mem_map.mpr ⟨e, he, rfl⟩
  obtain ⟨f, hf, hfe⟩ := List.mem_map.mp htotals
  obtain ⟨entry, hmem, rfl⟩ := List.mem_map.mp hf
  obtain ⟨-, hentry⟩ := mem_foldDirs.mp hmem
  simp only [Prod.mk.injEq] at hfe
  obtain ⟨hkey, hfiles, htests⟩ := hfe
  rw [hentry, hkey] at hfiles htests
  simp only [Function.comp_apply, groupOf, hname, ← hfiles, ← htests, totalsOf]

lemma sum_of_groups {name : String → String} (f : PackageGroup → ℕ) (g : DirGroup → ℕ)
    (hf : ∀ k, f (groupOf name dirs roots k) = ((dirs.filter (mergeKey roots · = k)).map g).sum)
    (h : (rollupPackageGroups dirs roots).Perm ((dirs.map (mergeKey roots)).dedup.map (groupOf name dirs roots))) :
    ((rollupPackageGroups dirs roots).map f).sum = (dirs.map g).sum := by
  have hmem : ∀ d ∈ dirs, mergeKey roots d ∈ (dirs.map (mergeKey roots)).dedup := fun d hd =>
    List.mem_dedup.mpr (List.mem_map_of_mem hd)
  rw [(h.map f).sum_eq, List.map_map, ← sum_by_key (List.nodup_dedup _) hmem g]
  congr 1
  exact List.map_congr_left fun k _ => hf k

lemma rollup_of_perm {dirs' : List DirGroup} {roots' : List ManifestRoot} (h : dirs.Perm dirs')
    (hroots : roots.Perm roots') : rollupPackageGroups dirs' roots' = rollupPackageGroups dirs roots := by
  rw [rollupPackageGroups, rollupPackageGroups, foldDirs_of_perm h hroots]

/-- The roll-up owes its laws exactly where no rest of an uncovered half coincides with another key. -/
theorem rollup_laws_iff (dirs : List DirGroup) (roots : List ManifestRoot) :
    RollupLaws dirs roots ↔ NoCoincidence dirs roots := by
  constructor
  · exact noCoincidence_of_folded
  · intro h
    obtain ⟨name, hgroups⟩ := rollup_groups dirs roots
    refine ⟨?_, ?_, fun _ _ => rollup_of_perm, ⟨name, hgroups⟩, ?_⟩
    · exact sum_of_groups _ _ (fun _ => rfl) hgroups
    · exact sum_of_groups _ _ (fun _ => rfl) hgroups
    · exact fun d hd d' hd' hne => folded_iff_of_noCoincidence h hd hd' hne

/-- The main half of a package folds into the crate whose path is the rest of its own. -/
theorem half_folds_into_crate :
    let dirs := [⟨"src/main/core", 2, 0⟩, ⟨"core/util", 3, 1⟩]
    let roots := [⟨"core", .rustCrate⟩]
    rollupPackageGroups dirs roots = [⟨"core", 5, 1⟩] ∧ ¬ RollupLaws dirs roots := by
  refine ⟨by decide +kernel, fun h => ?_⟩
  have hcovers : ∀ path, Covers [⟨"core", .rustCrate⟩] "core" path ↔ path = "core" ∨
      ∃ rest, path = "core" ++ "/" ++ rest := by
    intro path
    rw [Covers, if_neg (by decide)]
  have hroot : NearestRoot [⟨"core", .rustCrate⟩] "core/util" "core" := by
    refine ⟨⟨_, List.mem_cons_self, rfl⟩, (hcovers _).mpr (.inr ⟨"util", by decide⟩), ?_⟩
    intro r hr _
    rw [List.mem_singleton.mp hr]
  have hun : Uncovered [⟨"core", .rustCrate⟩] "src/main/core" := by
    intro r hr hcov
    rw [List.mem_singleton.mp hr, hcovers] at hcov
    rcases hcov with hcov | ⟨rest, hcov⟩
    · exact absurd hcov (by decide)
    · have hstart : startsWith "src/main/core" "core/" = true := startsWith_iff.mpr ⟨rest, hcov⟩
      exact absurd hstart (by decide)
  exact ((noCoincidence_of_folded h) ⟨"src/main/core", 2, 0⟩ (by decide) "core" hun (.inl (by decide))
    ⟨"core/util", 3, 1⟩ (by decide)).1 hroot

end Ownership

end RepoGraph.Agent
