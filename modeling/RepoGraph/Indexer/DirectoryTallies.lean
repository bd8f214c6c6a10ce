import RepoGraph.Indexer.InferredModules
import RepoGraph.Lib.Folds

/-! What the tables of a scan hold: the files below each directory, counted. -/

namespace RepoGraph.Indexer

open Lib Lib.Text

section Under

def liesUnder (segs : List String) (path : String) : Bool :=
  segs.isPrefixOf (split path '/') && segs.length < (split path '/').length

variable {segs : List String} {path dir : String}

lemma liesUnder_iff : liesUnder segs path ↔ ∃ rest, rest ≠ [] ∧ split path '/' = segs ++ rest := by
  rw [liesUnder, Bool.and_eq_true, List.isPrefixOf_iff_prefix, decide_eq_true_eq]
  constructor
  · rintro ⟨⟨rest, hrest⟩, hlen⟩
    refine ⟨rest, ?_, hrest.symm⟩
    rintro rfl
    simp [← hrest] at hlen
  · rintro ⟨rest, hne, hrest⟩
    refine ⟨⟨rest, hrest.symm⟩, ?_⟩
    have hpos := List.length_pos_iff.mpr hne
    rw [hrest, List.length_append]
    omega

lemma startsWith_slash_iff : startsWith path (dir ++ "/") ↔ liesUnder (split dir '/') path := by
  have hsplit := splitAll_proper_prefix_iff '/' dir.toList path.toList
  rw [liesUnder_iff, startsWith_iff]
  constructor
  · rintro ⟨rest, rfl⟩
    refine ⟨split rest '/', by simp [split, splitAll_ne_nil], ?_⟩
    simp [split, splitAll_append]
  · rintro ⟨rest, hne, hrest⟩
    have hpath := join_split path '/'
    have hdir : split dir '/' ≠ [] := by simp [split, splitAll_ne_nil]
    refine ⟨join (String.singleton '/') rest, ?_⟩
    have hslash : "/" = String.singleton '/' := rfl
    rw [← hpath, hrest, hslash]
    nth_rewrite 2 [← join_split dir '/']
    apply String.toList_inj.mp
    rw [String.toList_append, String.toList_append, toList_join, toList_join, toList_join, List.map_append,
      intercalate_append (by simpa using hdir) (by simpa using hne)]
    simp

lemma split_of_not_mem (h : '/' ∉ dir.toList) : split dir '/' = [dir] := by
  rw [split, splitAll_of_not_mem h]
  simp

lemma not_mem_of_liesUnder (h : liesUnder segs path) : ∀ seg ∈ segs, '/' ∉ seg.toList := by
  obtain ⟨rest, -, hrest⟩ := liesUnder_iff.mp h
  intro seg hseg
  apply not_mem_of_mem_split (s := path)
  rw [hrest]
  exact List.mem_append_left _ hseg

lemma getTopLevelDirectory_eq_some : getTopLevelDirectory path = some dir ↔ liesUnder [dir] path := by
  rw [liesUnder_iff, getTopLevelDirectory]
  split
  · rename_i top second rest hsplit
    rw [hsplit]
    constructor
    · rintro ⟨⟩
      exact ⟨second :: rest, by simp, rfl⟩
    · rintro ⟨tail, -, htail⟩
      rw [(List.cons.inj htail).1]
  · rename_i hshort
    constructor
    · simp
    · rintro ⟨tail, hne, htail⟩
      obtain ⟨second, rest, rfl⟩ := List.exists_cons_of_ne_nil hne
      exact absurd htail (hshort dir second rest)

lemma getTopLevelDirectory_of_liesUnder (h : liesUnder segs path) {top : String} (htop : segs.head? = some top) :
    getTopLevelDirectory path = some top := by
  obtain ⟨more, rfl⟩ := List.head?_eq_some_iff.mp htop
  obtain ⟨rest, hne, hrest⟩ := liesUnder_iff.mp h
  rw [getTopLevelDirectory_eq_some, liesUnder_iff]
  exact ⟨more ++ rest, by simp [hne], hrest⟩

end Under

section Tallies

variable {α : Type} (o : TableOrders)

namespace DirectoryStats

def record (s : DirectoryStats) (built : Option String) (filed : Option (Bool × Option String)) : DirectoryStats :=
  let s := built.elim s s.addBuildFile
  filed.elim s fun f => s.addFile o f.1 f.2

end DirectoryStats

structure Tallies (built : α → Option String) (filed : α → Option (Bool × Option String)) (l : List α)
    (s : DirectoryStats) : Prop where
  sources : s.sourceFileCount = l.countP fun a => (filed a).any (!·.1)
  tests : s.testFileCount = l.countP fun a => (filed a).any (·.1)
  nodup_builds : s.buildFiles.Nodup
  mem_builds : ∀ f, f ∈ s.buildFiles ↔ ∃ a ∈ l, built a = some f
  languages : ∀ lang, (s.languageCounts.lookup lang).getD 0 = l.countP fun a => filed a == some (false, some lang)

variable {built : α → Option String} {filed : α → Option (Bool × Option String)} {l : List α} {s : DirectoryStats}

lemma Tallies.nil : Tallies built filed [] default where
  sources := rfl
  tests := rfl
  nodup_builds := List.nodup_nil
  mem_builds := by
    intro f
    simp [default]
  languages := fun _ => rfl

lemma DirectoryStats.mem_addBuildFile (s : DirectoryStats) (filename f : String) :
    f ∈ (s.addBuildFile filename).buildFiles ↔ f ∈ s.buildFiles ∨ f = filename := by
  rw [addBuildFile]
  split
  · rename_i hmem
    rw [List.contains_iff_mem] at hmem
    constructor
    · exact Or.inl
    · rintro (h | rfl)
      · exact h
      · exact hmem
  · simp

lemma DirectoryStats.nodup_addBuildFile {s : DirectoryStats} (h : s.buildFiles.Nodup) (filename : String) :
    (s.addBuildFile filename).buildFiles.Nodup := by
  rw [addBuildFile]
  split
  · exact h
  · rename_i hmem
    rw [List.contains_iff_mem] at hmem
    apply List.nodup_append.mpr
    refine ⟨h, List.nodup_singleton _, ?_⟩
    intro a ha b hb hab
    rw [List.mem_singleton.mp hb] at hab
    exact hmem (hab ▸ ha)

@[simp] lemma DirectoryStats.addBuildFile_sourceFileCount (s : DirectoryStats) (filename : String) :
    (s.addBuildFile filename).sourceFileCount = s.sourceFileCount := by
  rw [addBuildFile]
  split <;> rfl

@[simp] lemma DirectoryStats.addBuildFile_testFileCount (s : DirectoryStats) (filename : String) :
    (s.addBuildFile filename).testFileCount = s.testFileCount := by
  rw [addBuildFile]
  split <;> rfl

@[simp] lemma DirectoryStats.addBuildFile_languageCounts (s : DirectoryStats) (filename : String) :
    (s.addBuildFile filename).languageCounts = s.languageCounts := by
  rw [addBuildFile]
  split <;> rfl

@[simp] lemma DirectoryStats.addFile_buildFiles (s : DirectoryStats) (isTest : Bool) (language : Option String) :
    (s.addFile o isTest language).buildFiles = s.buildFiles := by
  unfold addFile
  split <;> rfl

lemma DirectoryStats.lookup_addFile (s : DirectoryStats) (isTest : Bool)
    (language : Option String) (lang : String) :
    ((s.addFile o isTest language).languageCounts.lookup lang).getD 0 =
      (s.languageCounts.lookup lang).getD 0 + if (isTest, language) = (false, some lang) then 1 else 0 := by
  unfold addFile
  cases isTest with
  | true => simp
  | false =>
    cases language with
    | none => simp
    | some other =>
      by_cases hlang : lang = other
      · subst hlang
        simp [IterMap.lookup_entryOrDefault]
      · simp [IterMap.lookup_entryOrDefault, hlang, Ne.symm hlang]

lemma Tallies.snoc (h : Tallies built filed l s) (a : α) :
    Tallies built filed (l ++ [a]) (s.record o (built a) (filed a)) := by
  refine ⟨?_, ?_, ?_, ?_, ?_⟩
  · rw [List.countP_append, ← h.sources]
    cases hb : built a <;> cases hf : filed a
      <;> simp [DirectoryStats.record, hf, DirectoryStats.addFile] <;> grind
  · rw [List.countP_append, ← h.tests]
    cases hb : built a <;> cases hf : filed a
      <;> simp [DirectoryStats.record, hf, DirectoryStats.addFile] <;> grind
  · cases hb : built a <;> cases hf : filed a <;>
      simp [DirectoryStats.record, h.nodup_builds, DirectoryStats.nodup_addBuildFile]
  · intro f
    have hmem := h.mem_builds f
    cases hb : built a <;> cases hf : filed a <;>
      simp [DirectoryStats.record, DirectoryStats.mem_addBuildFile, hmem, or_and_right, exists_or, hb, eq_comm]
  · intro lang
    rw [List.countP_append, ← h.languages]
    cases hb : built a <;> cases hf : filed a <;> simp [DirectoryStats.record, hf, DirectoryStats.lookup_addFile]

end Tallies

section Dominant

def languageCount (counts : IterMap String ℕ) (lang : String) : ℕ := (counts.lookup lang).getD 0

variable {counts counts' : IterMap String ℕ}

lemma languageCount_of_mem {e : Σ _ : String, ℕ} (h : e ∈ counts.entries) : languageCount counts e.1 = e.2 := by
  rw [languageCount, IterMap.mem_entries.mp h]
  rfl

lemma mem_of_languageCount_pos {lang : String} (h : 0 < languageCount counts lang) :
    (⟨lang, languageCount counts lang⟩ : Σ _ : String, ℕ) ∈ counts.entries := by
  rw [IterMap.mem_entries]
  cases hlookup : counts.lookup lang with
  | none => simp [languageCount, hlookup] at h
  | some n => simp [languageCount, hlookup]

lemma max_getD_spec (l : List ℕ) : (∀ n ∈ l, n ≤ (l.max?).getD 0) ∧
    ((l.max?).getD 0 ≠ 0 → (l.max?).getD 0 ∈ l) := by
  cases hmax : l.max? with
  | none =>
    rw [List.max?_eq_none_iff] at hmax
    simp [hmax]
  | some n =>
    obtain ⟨hmem, hle⟩ := List.max?_eq_some_iff.mp hmax
    exact ⟨hle, fun _ => hmem⟩

theorem computeDominantLanguage_eq_some {lang : String} : computeDominantLanguage counts = some lang ↔
    0 < languageCount counts lang ∧ ∀ other, other ≠ lang →
    languageCount counts other < languageCount counts lang := by
  obtain ⟨hle, hattained⟩ := max_getD_spec (counts.entries.map Sigma.snd)
  rw [computeDominantLanguage]
  generalize ((counts.entries.map Sigma.snd).max?).getD 0 = maxCount at hle hattained ⊢
  have hentry : ∀ e ∈ counts.entries, e.2 ≤ maxCount := fun e he => hle _ (List.mem_map_of_mem he)
  have hcount : ∀ other, languageCount counts other ≤ maxCount := by
    intro other
    rcases Nat.eq_zero_or_pos (languageCount counts other) with hzero | hpos
    · omega
    · exact hentry _ (mem_of_languageCount_pos hpos)
  have hmem : ∀ other, 0 < maxCount → languageCount counts other = maxCount →
      (⟨other, maxCount⟩ : Σ _ : String, ℕ) ∈ counts.entries.filter (·.2 = maxCount) := by
    intro other hpos hother
    have hmem := @mem_of_languageCount_pos counts other (by omega)
    rw [hother] at hmem
    simpa using hmem
  constructor
  · intro h
    split at h
    · simp at h
    · rename_i hne
      split at h
      · rename_i top hfilter
        obtain rfl := Option.some.inj h
        have htop : top ∈ counts.entries ∧ top.2 = maxCount := by
          have : top ∈ counts.entries.filter (·.2 = maxCount) := by simp [hfilter]
          simpa using this
        have htopCount := languageCount_of_mem htop.1
        refine ⟨by omega, ?_⟩
        intro other hother
        refine lt_of_le_of_ne (by have := hcount other; omega) ?_
        intro heq
        have hother' := hmem other (by omega) (by omega)
        rw [hfilter, List.mem_singleton] at hother'
        exact hother (congrArg Sigma.fst hother')
      · simp at h
  · rintro ⟨hpos, hmore⟩
    have hmax : languageCount counts lang = maxCount := by
      refine le_antisymm (hcount lang) ?_
      have hne : maxCount ≠ 0 := by
        have := hcount lang
        omega
      obtain ⟨e, he, hmaxCount⟩ := List.mem_map.mp (hattained hne)
      by_cases hlang : e.1 = lang
      · rw [← hlang, languageCount_of_mem he, hmaxCount]
      · have := hmore e.1 hlang
        rw [languageCount_of_mem he] at this
        omega
    have hone : counts.entries.filter (·.2 = maxCount) = [⟨lang, maxCount⟩] := by
      apply (eq_singleton_iff_of_nodup (counts.nodupKeys.nodup.filter _)).mpr
      intro e
      constructor
      · intro he
        rw [List.mem_filter, decide_eq_true_eq] at he
        by_cases hlang : e.1 = lang
        · rw [← hlang, ← he.2]
        · have := hmore e.1 hlang
          rw [languageCount_of_mem he.1] at this
          omega
      · rintro rfl
        exact hmem lang (by omega) hmax
    rw [if_neg (by omega), hone]

lemma computeDominantLanguage_congr (h : ∀ lang, languageCount counts lang = languageCount counts' lang) :
    computeDominantLanguage counts = computeDominantLanguage counts' := by
  apply Option.ext
  intro lang
  simp only [computeDominantLanguage_eq_some, h]

end Dominant

section Modules

variable {α : Type} {built : α → Option String} {filed : α → Option (Bool × Option String)} {l l' : List α}
  {s s' : DirectoryStats}

lemma Tallies.toModule_eq (h : Tallies built filed l s) (h' : Tallies built filed l' s') (hperm : l.Perm l')
    (directoryPath displayName : String) (isFallbackRoot : Bool) :
    s.toModule directoryPath displayName isFallbackRoot =
      s'.toModule directoryPath displayName isFallbackRoot := by
  have hbuilds : sortBy compare s.buildFiles = sortBy compare s'.buildFiles := by
    apply sortBy_compare_eq
    rw [List.perm_ext_iff_of_nodup h.nodup_builds h'.nodup_builds]
    intro f
    rw [h.mem_builds, h'.mem_builds]
    simp only [hperm.mem_iff]
  have hdominant : computeDominantLanguage s.languageCounts = computeDominantLanguage s'.languageCounts := by
    apply computeDominantLanguage_congr
    intro lang
    exact (h.languages lang).trans ((hperm.countP_eq _).trans (h'.languages lang).symm)
  have hsources : s.sourceFileCount = s'.sourceFileCount := by rw [h.sources, h'.sources, hperm.countP_eq]
  have htests : s.testFileCount = s'.testFileCount := by rw [h.tests, h'.tests, hperm.countP_eq]
  simp only [DirectoryStats.toModule, hbuilds, hdominant, hsources, htests]

end Modules

section Scanning

variable (o : TableOrders) (lower : String → String)

def fileKind (path : String) : Option (Bool × Option String) :=
  if isSourceFile path then some (isTestPath lower path, extensionToLanguage (pathExtension path)) else none

def filedUnder (segs : List String) (path : String) : Option (Bool × Option String) :=
  if liesUnder segs path then fileKind lower path else none

def dirBuilt (dir path : String) : Option String :=
  if isBuildFile (basename path) ∧ (split path '/').length = 2 ∧ getTopLevelDirectory path = some dir then
    some (basename path)
  else none

def rootBuilt (path : String) : Option String :=
  if isBuildFile (basename path) ∧ getTopLevelDirectory path = none then some (basename path) else none

def rootFiled (path : String) : Option (Bool × Option String) :=
  if getTopLevelDirectory path = none then fileKind lower path else none

def isChildPath (key path : String) : Bool :=
  (getTopLevelDirectory path).any (isUmbrellaCandidate lower) && join "/" ((split path '/').take 2) = key

def childBuilt (key path : String) : Option String :=
  if isBuildFile (basename path) ∧ (split path '/').length = 3 ∧ isChildPath lower key path then
    some (basename path)
  else none

def childFiled (key path : String) : Option (Bool × Option String) :=
  if (split path '/').length ≠ 2 ∧ isChildPath lower key path then fileKind lower path else none

def descentFile (path : String) : DescentFile where
  rel := join "/" (split path '/').tail
  isTest := isTestPath lower path
  language := extensionToLanguage (pathExtension path)

variable {s : Scan} {path : String}

@[simp] lemma noteUmbrellaFile_dirStats (dir : String) (parts : List String) (isTest : Bool)
    (language : Option String) : (s.noteUmbrellaFile o dir parts isTest language).dirStats = s.dirStats := by
  unfold Scan.noteUmbrellaFile
  grind

@[simp] lemma noteUmbrellaFile_rootStats (dir : String) (parts : List String) (isTest : Bool)
    (language : Option String) : (s.noteUmbrellaFile o dir parts isTest language).rootStats = s.rootStats := by
  unfold Scan.noteUmbrellaFile
  grind

def Scan.dirAt (s : Scan) (dir : String) : DirectoryStats := (s.dirStats.lookup dir).getD default

def Scan.childAt (s : Scan) (key : String) : DirectoryStats := (s.umbrellaChildren.lookup key).getD default

lemma dirAt_noteBuildFile (dir : String) : (s.noteBuildFile o lower path).dirAt dir =
    (dirBuilt dir path).elim (s.dirAt dir) (s.dirAt dir).addBuildFile := by
  unfold Scan.noteBuildFile Scan.dirAt dirBuilt
  by_cases hb : isBuildFile (basename path)
  · cases htop : getTopLevelDirectory path with
    | none => simp [hb]
    | some top =>
      by_cases hlen : (split path '/').length = 2
      · by_cases hdir : dir = top
        · subst hdir
          simp [hb, hlen, IterMap.lookup_entryOrDefault]
        · simp [hb, hlen, IterMap.lookup_entryOrDefault, hdir, Ne.symm hdir]
      · simp only [hb, hlen, if_true, if_false, false_and, and_false, Option.elim_none]
        split <;> rfl
  · simp [hb]

lemma dirAt_noteSourceFile (dir : String) : (s.noteSourceFile o lower path).dirAt dir =
    (filedUnder lower [dir] path).elim (s.dirAt dir) fun f => (s.dirAt dir).addFile o f.1 f.2 := by
  unfold Scan.noteSourceFile Scan.dirAt filedUnder fileKind
  simp only [← getTopLevelDirectory_eq_some]
  by_cases hsource : isSourceFile path
  · cases htop : getTopLevelDirectory path with
    | none => simp [hsource]
    | some top =>
      by_cases hdir : dir = top
      · subst hdir
        simp only [hsource, if_true]
        split <;> simp [IterMap.lookup_entryOrDefault]
      · simp only [hsource, if_true, Option.some.injEq, Ne.symm hdir, if_false, Option.elim_none]
        split <;> simp [IterMap.lookup_entryOrDefault, hdir]
  · simp [hsource]

lemma dirAt_add (dir : String) :
    (s.add o lower path).dirAt dir = (s.dirAt dir).record o (dirBuilt dir path) (filedUnder lower [dir] path) := by
  rw [Scan.add, dirAt_noteSourceFile, dirAt_noteBuildFile]
  rfl

lemma rootStats_noteBuildFile : (s.noteBuildFile o lower path).rootStats =
    (rootBuilt path).elim s.rootStats s.rootStats.addBuildFile := by
  unfold Scan.noteBuildFile rootBuilt
  by_cases hb : isBuildFile (basename path)
  · cases htop : getTopLevelDirectory path with
    | none => simp [hb]
    | some top =>
      simp only [hb, if_true, reduceCtorEq, and_false, if_false, Option.elim_none]
      split <;> split <;> rfl
  · simp [hb]

lemma rootStats_noteSourceFile : (s.noteSourceFile o lower path).rootStats =
    (rootFiled lower path).elim s.rootStats fun f => s.rootStats.addFile o f.1 f.2 := by
  unfold Scan.noteSourceFile rootFiled fileKind
  by_cases hsource : isSourceFile path
  · cases htop : getTopLevelDirectory path with
    | none => simp [hsource]
    | some top =>
      simp only [hsource, if_true, reduceCtorEq, if_false, Option.elim_none]
      split <;> simp
  · simp [hsource]

lemma rootStats_add :
    (s.add o lower path).rootStats = s.rootStats.record o (rootBuilt path) (rootFiled lower path) := by
  rw [Scan.add, rootStats_noteSourceFile, rootStats_noteBuildFile]
  rfl

lemma childAt_noteBuildFile (key : String) : (s.noteBuildFile o lower path).childAt key =
    (childBuilt lower key path).elim (s.childAt key) (s.childAt key).addBuildFile := by
  unfold Scan.noteBuildFile Scan.childAt childBuilt isChildPath
  by_cases hb : isBuildFile (basename path)
  · cases htop : getTopLevelDirectory path with
    | none => simp [hb]
    | some top =>
      by_cases hthree : (split path '/').length = 3 ∧ isUmbrellaCandidate lower top
      · obtain ⟨hlen, humbrella⟩ := hthree
        by_cases hkey : key = join "/" ((split path '/').take 2)
        · subst hkey
          simp [hb, hlen, humbrella, IterMap.lookup_entryOrDefault]
        · simp [hb, hlen, humbrella, IterMap.lookup_entryOrDefault, hkey, Ne.symm hkey]
      · have hnone : ¬ ((split path '/').length = 3 ∧ isUmbrellaCandidate lower top = true ∧
            join "/" ((split path '/').take 2) = key) := fun h => hthree ⟨h.1, h.2.1⟩
        simp only [hb, hthree, hnone, if_true, if_false, true_and, Option.any_some,
          Bool.and_eq_true, decide_eq_true_eq, Option.elim_none]
        split <;> rfl
  · simp [hb]

lemma childAt_noteUmbrellaFile (key dir : String) (isTest : Bool) (language : Option String) :
    (s.noteUmbrellaFile o dir (split path '/') isTest language).childAt key =
      if (split path '/').length ≠ 2 ∧ join "/" ((split path '/').take 2) = key then
        (s.childAt key).addFile o isTest language
      else s.childAt key := by
  unfold Scan.noteUmbrellaFile Scan.childAt
  by_cases hlen : (split path '/').length = 2
  · simp only [hlen, if_true, ne_eq, not_true_eq_false, false_and, if_false]
    split <;> rfl
  · by_cases hkey : key = join "/" ((split path '/').take 2)
    · subst hkey
      simp [hlen, IterMap.lookup_entryOrDefault]
    · simp [hlen, IterMap.lookup_entryOrDefault, hkey, Ne.symm hkey]

lemma childAt_noteSourceFile (key : String) : (s.noteSourceFile o lower path).childAt key =
    (childFiled lower key path).elim (s.childAt key) fun f => (s.childAt key).addFile o f.1 f.2 := by
  unfold Scan.noteSourceFile childFiled isChildPath fileKind
  by_cases hsource : isSourceFile path
  · cases htop : getTopLevelDirectory path with
    | none =>
      simp [hsource]
      rfl
    | some top =>
      by_cases humbrella : isUmbrellaCandidate lower top
      · simp only [hsource, humbrella, if_true, childAt_noteUmbrellaFile, Option.any_some, Bool.true_and,
          decide_eq_true_eq]
        split <;> rfl
      · simp [hsource, humbrella]
        rfl
  · simp [hsource]

lemma childAt_add (key : String) :
    (s.add o lower path).childAt key = (s.childAt key).record o (childBuilt lower key path)
      (childFiled lower key path) := by
  rw [Scan.add, childAt_noteSourceFile, childAt_noteBuildFile]
  rfl

def isDirectSource (dir path : String) : Bool :=
  isSourceFile path && !isTestPath lower path && (split path '/').length = 2 &&
    getTopLevelDirectory path = some dir

def isSourceBelow (dir path : String) : Bool := isSourceFile path && getTopLevelDirectory path = some dir

lemma noteBuildFile_umbrella : (s.noteBuildFile o lower path).umbrellaDirectCounts = s.umbrellaDirectCounts ∧
    (s.noteBuildFile o lower path).umbrellaFiles = s.umbrellaFiles := by
  unfold Scan.noteBuildFile
  grind

lemma directCounts_noteUmbrellaFile (dir top : String) (parts : List String) (isTest : Bool)
    (language : Option String) :
    (s.noteUmbrellaFile o top parts isTest language).umbrellaDirectCounts.getD dir 0 =
      s.umbrellaDirectCounts.getD dir 0 + if parts.length = 2 ∧ isTest = false ∧ top = dir then 1 else 0 := by
  unfold Scan.noteUmbrellaFile
  by_cases hlen : parts.length = 2
  · cases isTest with
    | true => simp [hlen]
    | false =>
      by_cases hdir : top = dir
      · subst hdir
        simp [hlen]
      · simp [hlen, hdir, Std.ExtTreeMap.getD_insert]
  · simp [hlen]

lemma files_noteUmbrellaFile (dir top : String) (parts : List String) (isTest : Bool) (language : Option String) :
    (s.noteUmbrellaFile o top parts isTest language).umbrellaFiles.getD dir [] =
      s.umbrellaFiles.getD dir [] ++ if top =
        dir then [{ rel := join "/" parts.tail, isTest, language }] else [] := by
  have hinsert : ∀ file : DescentFile,
      (s.umbrellaFiles.insert top (s.umbrellaFiles.getD top [] ++ [file])).getD dir [] =
      s.umbrellaFiles.getD dir [] ++ if top = dir then [file] else [] := by
    intro file
    by_cases hdir : top = dir
    · subst hdir
      simp
    · simp [hdir, Std.ExtTreeMap.getD_insert]
  rw [← hinsert]
  unfold Scan.noteUmbrellaFile
  grind

variable {lower} {dir : String}

lemma directCounts_noteSourceFile (humbrella : isUmbrellaCandidate lower dir) :
    (s.noteSourceFile o lower path).umbrellaDirectCounts.getD dir 0 =
      s.umbrellaDirectCounts.getD dir 0 + if isDirectSource lower dir path then 1 else 0 := by
  unfold Scan.noteSourceFile isDirectSource
  by_cases hsource : isSourceFile path
  · cases htop : getTopLevelDirectory path with
    | none => simp [hsource]
    | some top =>
      by_cases hdir : top = dir
      · subst hdir
        simp [hsource, humbrella, directCounts_noteUmbrellaFile, and_comm]
      · simp only [hsource, if_true, hdir, Option.some.injEq, decide_false, Bool.and_false,
          Bool.false_eq_true, if_false]
        split <;> simp [directCounts_noteUmbrellaFile, hdir]
  · simp [hsource]

lemma files_noteSourceFile (humbrella : isUmbrellaCandidate lower dir) :
    (s.noteSourceFile o lower path).umbrellaFiles.getD dir [] =
      s.umbrellaFiles.getD dir [] ++ if isSourceBelow dir path then [descentFile lower path] else [] := by
  unfold Scan.noteSourceFile isSourceBelow
  by_cases hsource : isSourceFile path
  · cases htop : getTopLevelDirectory path with
    | none => simp [hsource]
    | some top =>
      by_cases hdir : top = dir
      · subst hdir
        simp [hsource, humbrella, files_noteUmbrellaFile, descentFile]
      · simp only [hsource, if_true, hdir, Option.some.injEq, decide_false, Bool.and_false,
          Bool.false_eq_true, if_false]
        split <;> simp [files_noteUmbrellaFile, hdir]
  · simp [hsource]

structure ScanTallies (lower : String → String) (l : List String) (s : Scan) : Prop where
  dirs : ∀ dir, Tallies (dirBuilt dir) (filedUnder lower [dir]) l (s.dirAt dir)
  root : Tallies rootBuilt (rootFiled lower) l s.rootStats
  children : ∀ key, Tallies (childBuilt lower key) (childFiled lower key) l (s.childAt key)
  direct : ∀ dir, isUmbrellaCandidate lower dir →
    s.umbrellaDirectCounts.getD dir 0 = l.countP (isDirectSource lower dir)
  files : ∀ dir, isUmbrellaCandidate lower dir →
    s.umbrellaFiles.getD dir [] = (l.filter (isSourceBelow dir)).map (descentFile lower)

lemma ScanTallies.add {l : List String} (h : ScanTallies lower l s) (path : String) :
    ScanTallies lower (l ++ [path]) (s.add o lower path) where
  dirs dir := by
    rw [dirAt_add]
    exact (h.dirs dir).snoc o path
  root := by
    rw [rootStats_add]
    exact h.root.snoc o path
  children key := by
    rw [childAt_add]
    exact (h.children key).snoc o path
  direct dir humbrella := by
    rw [Scan.add, directCounts_noteSourceFile o humbrella,
      (noteBuildFile_umbrella o lower).1, h.direct dir humbrella, List.countP_append, List.countP_singleton]
  files dir humbrella := by
    rw [Scan.add, files_noteSourceFile o humbrella, (noteBuildFile_umbrella o lower).2, h.files dir humbrella,
      List.filter_append, List.map_append, List.filter_singleton]
    cases isSourceBelow dir path <;> simp

theorem scanFiles_tallies (lower : String → String) (filePaths : List String) :
    ScanTallies lower filePaths (scanFiles o lower filePaths) := by
  induction filePaths using List.reverseRecOn with
  | nil =>
    refine ⟨fun _ => Tallies.nil, Tallies.nil, fun _ => Tallies.nil, fun _ _ => ?_, fun _ _ => ?_⟩
    · simp [scanFiles]
    · simp [scanFiles]
  | append_singleton l path ih =>
    rw [scanFiles, List.foldl_append]
    exact ih.add o path

end Scanning

end RepoGraph.Indexer
