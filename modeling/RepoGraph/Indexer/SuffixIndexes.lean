import RepoGraph.Indexer.ImportStages
import RepoGraph.Lib.Folds
import RepoGraph.Lib.TextLaws

/-! The indexes by basename against a scan of every file: the paths that end with an include, and the files that a
dotted Java name stands for. -/

namespace RepoGraph.Indexer

open Lib Lib.Text

section Specification

def BoundarySuffix (path suffix : String) : Prop :=
  path = suffix ∨ ∃ front, path = front ++ "/" ++ suffix

lemma endsAtDirectoryBoundary_iff {path suffix : String} :
    endsAtDirectoryBoundary path suffix ↔ BoundarySuffix path suffix := by
  unfold endsAtDirectoryBoundary BoundarySuffix
  rw [Bool.or_eq_true, beq_iff_eq, Option.any_eq_true]
  refine or_congr_right ?_
  constructor
  · rintro ⟨rest, hrest, hends⟩
    obtain ⟨front, rfl⟩ := endsWith_iff.mp hends
    exact ⟨front, stripSuffix_eq_some.mp hrest⟩
  · rintro ⟨front, rfl⟩
    exact ⟨front ++ "/", stripSuffix_eq_some.mpr rfl, endsWith_iff.mpr ⟨front, rfl⟩⟩

lemma pathHasBoundarySuffix_iff {path suffix : String} :
    pathHasBoundarySuffix path suffix ↔ BoundarySuffix path suffix := by
  unfold pathHasBoundarySuffix BoundarySuffix
  rw [Bool.or_eq_true, beq_iff_eq, endsWith_iff]
  refine or_congr_right (exists_congr fun front => ?_)
  rw [String.append_assoc]
  rfl

instance (path suffix : String) : Decidable (BoundarySuffix path suffix) :=
  decidable_of_iff _ pathHasBoundarySuffix_iff

def cleanedSegments (specifier : String) : List String :=
  (split specifier '/').filter fun s => s ≠ "" ∧ s ≠ "."

def scanIncludes (files : List String) (specifier : String) : IncludePathMatch :=
  if contains specifier ':' ∨ ".." ∈ cleanedSegments specifier then .declined
  else
    match cleanedSegments specifier with
    | [] => .declined
    | [name] =>
      match sortedSet (files.filter (basename · = name)) with
      | [] => .noMatch
      | [one] => .uniqueBasename one
      | many => .ambiguousBasename many
    | segments =>
      match sortedSet (files.filter (BoundarySuffix · (join "/" segments))) with
      | [] => .noMatch
      | [one] => .uniqueSuffix one
      | many => .ambiguousSuffix many

def javaPath (segs : List String) (n : ℕ) : String := join "/" (segs.take n) ++ ".java"

def javaHits (files segs : List String) (n : ℕ) : List String :=
  files.filter (BoundarySuffix · (javaPath segs n))

structure LongestLevel (reads : ℕ → Prop) (files segs : List String) (n : ℕ) : Prop where
  pos : 0 < n
  le : n ≤ segs.length
  read : reads n
  hit : javaHits files segs n ≠ []
  longest : ∀ k, n < k → k ≤ segs.length → reads k → javaHits files segs k = []

structure JavaScan (reads : ℕ → Prop) (files segs : List String) (outcome : JavaSuffixLookup) : Prop where
  resolved : ∀ path, outcome = .resolved path ↔
    ∃ n, LongestLevel reads files segs n ∧ javaHits files segs n = [path]
  ambiguous : outcome = .ambiguous ↔ ∃ n, LongestLevel reads files segs n ∧ 2 ≤ (javaHits files segs n).length
  notFound : outcome = .notFound ↔ ∀ n, ¬ LongestLevel reads files segs n

def ClassLevel (segs : List String) (n : ℕ) : Prop :=
  ∀ name, (segs.take n).getLast? = some name → '/' ∉ name.toList

end Specification

section Basenames

variable {path suffix name : String} {files : List String}

lemma BoundarySuffix.trans {rest : String} (h : BoundarySuffix path suffix) (h' : BoundarySuffix suffix rest) :
    BoundarySuffix path rest := by
  rcases h with rfl | ⟨front, rfl⟩
  · exact h'
  · rcases h' with rfl | ⟨middle, rfl⟩
    · exact Or.inr ⟨front, rfl⟩
    · refine Or.inr ⟨front ++ "/" ++ middle, ?_⟩
      simp only [String.append_assoc]

lemma not_mem_basename (path : String) : '/' ∉ (basename path).toList := by
  unfold basename
  cases hsplit : rsplitOnce path '/' with
  | none => exact rsplitOnce_eq_none.mp hsplit
  | some parts => exact (rsplitOnce_eq_some.mp hsplit).2

lemma basename_eq_iff (hname : '/' ∉ name.toList) : basename path = name ↔ BoundarySuffix path name := by
  have hslash : "/" = String.singleton '/' := rfl
  unfold BoundarySuffix
  rw [hslash]
  constructor
  · rintro rfl
    unfold basename
    cases hsplit : rsplitOnce path '/' with
    | none => exact Or.inl rfl
    | some parts => exact Or.inr ⟨parts.1, (rsplitOnce_eq_some.mp hsplit).1⟩
  · unfold basename
    rintro (rfl | ⟨front, hpath⟩)
    · rw [rsplitOnce_eq_none.mpr hname]
      rfl
    · rw [rsplitOnce_eq_some.mpr ⟨hpath, hname⟩]
      rfl

lemma BoundarySuffix.basename_eq (h : BoundarySuffix path suffix) : basename path = basename suffix := by
  have hname := not_mem_basename suffix
  exact (basename_eq_iff hname).mpr (h.trans ((basename_eq_iff hname).mp rfl))

lemma boundarySuffix_join (segs : List String) (hlast : segs.getLast? = some name) (ending : String) :
    BoundarySuffix (join "/" segs ++ ending) (name ++ ending) := by
  obtain ⟨init, rfl⟩ := List.getLast?_eq_some_iff.mp hlast
  by_cases hinit : init = []
  · subst hinit
    apply Or.inl
    simp [join]
  · have hslash : "/" = String.singleton '/' := rfl
    refine Or.inr ⟨join "/" init, ?_⟩
    rw [hslash, join_append_singleton hinit, String.append_assoc]

end Basenames

section Includes

variable {files : List String} {specifier name : String}

lemma lookup_buildBasenameIndex (files : List String) (name : String) :
    (buildBasenameIndex files).lookup name =
      if files.filter (basename · = name) = [] then none
      else some (sortBy compare (files.filter (basename · = name))).dedup := by
  unfold buildBasenameIndex
  have hgroup := IterMap.lookup_foldl_group (keyOrder _) basename id files ∅ name
  generalize hindex : files.foldl (fun (m : IterMap String (List String)) path =>
    m.entryOrDefault (keyOrder _) (basename path) (· ++ [path])) ∅ = index
  replace hgroup : index.lookup name = if files.filter (basename · = name) = [] then none
      else some (files.filter (basename · = name)) := by
    rw [← hindex]
    simpa using hgroup
  rw [IterMap.lookup_foldl_modify _ index.nodupKeys, hgroup]
  by_cases hnil : files.filter (basename · = name) = []
  · rw [if_pos hnil, if_pos hnil]
    rfl
  · rw [if_neg hnil] at hgroup
    rw [if_neg hnil, if_neg hnil]
    have hkey : name ∈ index.entries.map Sigma.fst :=
      List.mem_map_of_mem (f := Sigma.fst) (IterMap.mem_entries.mpr hgroup)
    rw [Option.map_some, if_pos hkey]

lemma bucket_filter {p q : String → Bool} (h : ∀ path, p path ↔ basename path = name ∧ q path) :
    (((buildBasenameIndex files).lookup name).getD []).filter q = sortedSet (files.filter p) := by
  rw [lookup_buildBasenameIndex]
  have hmem : ∀ path, path ∈ files.filter p ↔ path ∈ files.filter (basename · = name) ∧ q path := by
    intro path
    rw [List.mem_filter, List.mem_filter, h, decide_eq_true_eq, and_assoc]
  split
  · rename_i hnil
    have hnone : files.filter p = [] := by
      apply List.eq_nil_iff_forall_not_mem.mpr
      intro path hpath
      have hbucket := ((hmem path).mp hpath).1
      rw [hnil] at hbucket
      simp at hbucket
    rw [hnone]
    rfl
  · exact filter_dedup_sortBy hmem

theorem matchPathSuffixOrBasename_eq_scanIncludes (files : List String) (repoUid : String)
    (config : IncludeResolverConfig) (specifier : String) :
    (buildIncludeResolutionMap files repoUid config).matchPathSuffixOrBasename specifier =
      scanIncludes files specifier := by
  unfold IncludeResolutionMap.matchPathSuffixOrBasename scanIncludes
  by_cases hcolon : contains specifier ':'
  · simp [hcolon]
  by_cases hparent : ".." ∈ cleanedSegments specifier
  · have hparent' := hparent
    unfold cleanedSegments at hparent'
    simp only [hcolon, hparent, hparent', Bool.false_eq_true, if_false, if_true, or_true]
  have hfolded : (split specifier '/').filter (fun s => s ≠ "" ∧ s ≠ ".") = cleanedSegments specifier := rfl
  have hbuckets : (buildIncludeResolutionMap files repoUid config).filesByBasename =
    buildBasenameIndex files := rfl
  simp only [hcolon, hfolded, hparent, hbuckets, Bool.false_eq_true, or_self, if_false]
  have hsegment : ∀ s ∈ cleanedSegments specifier, '/' ∉ s.toList := by
    intro s hs
    exact not_mem_of_mem_split (List.mem_filter.mp hs).1
  generalize cleanedSegments specifier = segments at hsegment ⊢
  cases hlast : segments.getLast? with
  | none =>
    rw [List.getLast?_eq_none_iff.mp hlast]
  | some name =>
    have hname := hsegment name (List.mem_of_getLast? hlast)
    have hone := @bucket_filter files name (basename · = name) (fun _ => true) (by simp)
    have hmany := @bucket_filter files name
      (BoundarySuffix · (join "/" segments)) (endsAtDirectoryBoundary · (join "/" segments)) (by
        intro path
        rw [decide_eq_true_eq, endsAtDirectoryBoundary_iff]
        refine ⟨fun h => ⟨?_, h⟩, And.right⟩
        rw [h.basename_eq, basename_eq_iff hname]
        simpa using boundarySuffix_join segments hlast "")
    rw [List.filter_true] at hone
    cases segments with
    | nil => simp at hlast
    | cons first rest =>
      cases rest with
      | nil =>
        obtain rfl : first = name := by simpa using hlast
        dsimp only
        rw [← hone]
        cases (buildBasenameIndex files).lookup first with
        | none => rfl
        | some sameBasename => rfl
      | cons second rest =>
        dsimp only
        rw [← hmany]
        have hlength : ¬ (first :: second :: rest).length = 1 := by simp
        cases (buildBasenameIndex files).lookup name with
        | none => rfl
        | some sameBasename =>
          rw [Option.getD_some]
          dsimp only
          exact if_neg hlength

end Includes

section Java

variable {files segs : List String} {name : String} {n : ℕ}

def JavaSuffixLookup.ofHits : List String → Option JavaSuffixLookup
  | [] => none
  | [path] => some (.resolved path)
  | _ => some .ambiguous

lemma ofHits_eq_none {hits : List String} : JavaSuffixLookup.ofHits hits = none ↔ hits = [] := by
  unfold JavaSuffixLookup.ofHits
  split <;> simp_all

lemma ofHits_eq_resolved {hits : List String} {path : String} :
    JavaSuffixLookup.ofHits hits = some (.resolved path) ↔ hits = [path] := by
  unfold JavaSuffixLookup.ofHits
  split <;> simp_all

lemma ofHits_eq_ambiguous {hits : List String} :
    JavaSuffixLookup.ofHits hits = some .ambiguous ↔ 2 ≤ hits.length := by
  match hits with
  | [] => simp [JavaSuffixLookup.ofHits]
  | [path] => simp [JavaSuffixLookup.ofHits]
  | first :: second :: rest => simp [JavaSuffixLookup.ofHits]

lemma ofHits_ne_notFound (hits : List String) : JavaSuffixLookup.ofHits hits ≠ some .notFound := by
  unfold JavaSuffixLookup.ofHits
  split <;> simp

lemma lookup_buildJavaSuffixIndex (files : List String) (name : String) :
    (buildJavaSuffixIndex files).lookup name =
      let bucket := (files.filter (endsWith · ".java")).filter (basename · = name)
      if bucket = [] then none else some bucket := by
  have hgroup := IterMap.lookup_foldl_group (keyOrder _) basename id (files.filter (endsWith · ".java")) ∅ name
  unfold buildJavaSuffixIndex
  simpa using hgroup

lemma bucket_javaHits (hlast : (segs.take n).getLast? = some name) (hname : '/' ∉ name.toList) :
    ((files.filter (endsWith · ".java")).filter (basename · = name ++ ".java")).filter
      (pathHasBoundarySuffix · (javaPath segs n)) = javaHits files segs n := by
  rw [List.filter_filter, List.filter_filter]
  unfold javaHits
  apply List.filter_congr
  intro path hpath
  have hclass : '/' ∉ (name ++ ".java").toList := by
    simpa using hname
  have hends : BoundarySuffix path (javaPath segs n) → endsWith path ".java" ∧
      basename path = name ++ ".java" := by
    intro h
    constructor
    · apply endsWith_iff.mpr
      rcases h with rfl | ⟨front, rfl⟩
      · exact ⟨join "/" (segs.take n), rfl⟩
      · refine ⟨front ++ "/" ++ join "/" (segs.take n), ?_⟩
        simp only [String.append_assoc]
        rfl
    · rw [h.basename_eq]
      exact (basename_eq_iff hclass).mpr (boundarySuffix_join _ hlast ".java")
  rw [Bool.eq_iff_iff]
  simp only [Bool.and_eq_true, decide_eq_true_eq, pathHasBoundarySuffix_iff]
  exact ⟨fun h => h.1.1, fun h => ⟨⟨h, (hends h).2⟩, (hends h).1⟩⟩

lemma javaSuffixAt_eq (hlast : (segs.take n).getLast? = some name) (index : JavaSuffixIndex) :
    javaSuffixAt segs index n = (index.lookup (name ++ ".java")).bind fun paths =>
      JavaSuffixLookup.ofHits (paths.filter (pathHasBoundarySuffix · (javaPath segs n))) := by
  unfold javaSuffixAt
  dsimp only
  rw [hlast]
  rfl

lemma javaSuffixAt_of_classLevel (hpos : 0 < n) (hle : n ≤ segs.length) (hclass : ClassLevel segs n) :
    javaSuffixAt segs (buildJavaSuffixIndex files) n = JavaSuffixLookup.ofHits (javaHits files segs n) := by
  have hne : segs.take n ≠ [] := by
    apply List.ne_nil_of_length_pos
    rw [List.length_take]
    omega
  obtain ⟨name, hlast⟩ : ∃ name, (segs.take n).getLast? = some name :=
    ⟨_, List.getLast?_eq_some_getLast hne⟩
  rw [javaSuffixAt_eq hlast, lookup_buildJavaSuffixIndex, ← bucket_javaHits hlast (hclass name hlast)]
  dsimp only
  split
  · rename_i hnil
    rw [hnil]
    rfl
  · rfl

lemma javaSuffixAt_of_not_classLevel (hclass : ¬ ClassLevel segs n) :
    javaSuffixAt segs (buildJavaSuffixIndex files) n = none := by
  unfold ClassLevel at hclass
  push Not at hclass
  obtain ⟨name, hlast, hslash⟩ := hclass
  rw [javaSuffixAt_eq hlast, lookup_buildJavaSuffixIndex]
  dsimp only
  rw [if_pos, Option.bind_none]
  apply List.eq_nil_iff_forall_not_mem.mpr
  intro path hpath
  have hkey : basename path = name ++ ".java" := of_decide_eq_true (List.mem_filter.mp hpath).2
  apply not_mem_basename path
  rw [hkey, String.toList_append]
  exact List.mem_append_left _ hslash

lemma findSome?_javaSuffixAt {outcome : JavaSuffixLookup} :
    ((List.range (segs.length + 1)).reverse.filter (0 < ·)).findSome?
        (javaSuffixAt segs (buildJavaSuffixIndex files)) = some outcome ↔
      ∃ n, LongestLevel (ClassLevel segs) files segs n ∧
      JavaSuffixLookup.ofHits (javaHits files segs n) = some outcome := by
  have hlevels : ((List.range (segs.length + 1)).reverse.filter (0 < ·)).Pairwise (· > ·) :=
    (List.pairwise_reverse.mpr List.pairwise_lt_range).filter _
  rw [findSome?_eq_some_of_pairwise (fun _ _ => Nat.lt_asymm) hlevels]
  simp only [List.mem_filter, List.mem_reverse, List.mem_range, decide_eq_true_eq]
  constructor
  · rintro ⟨n, ⟨hlt, hpos⟩, hfound, hfirst⟩
    have hclass : ClassLevel segs n := by
      by_contra hclass
      rw [javaSuffixAt_of_not_classLevel hclass] at hfound
      simp at hfound
    rw [javaSuffixAt_of_classLevel hpos (by omega) hclass] at hfound
    refine ⟨n, ⟨hpos, by omega, hclass, ?_, ?_⟩, hfound⟩
    · intro hnil
      rw [ofHits_eq_none.mpr hnil] at hfound
      simp at hfound
    · intro k hk hle hread
      have hnone := hfirst k ⟨by omega, by omega⟩ hk
      rw [javaSuffixAt_of_classLevel (by omega) hle hread] at hnone
      exact ofHits_eq_none.mp hnone
  · rintro ⟨n, h, hfound⟩
    refine ⟨n, ⟨Nat.lt_succ_of_le h.le, h.pos⟩, ?_, ?_⟩
    · rw [javaSuffixAt_of_classLevel h.pos h.le h.read, hfound]
    · rintro k ⟨hlt, hpos⟩ hk
      by_cases hread : ClassLevel segs k
      · rw [javaSuffixAt_of_classLevel hpos (by omega) hread]
        exact ofHits_eq_none.mpr (h.longest k hk (by omega) hread)
      · exact javaSuffixAt_of_not_classLevel hread

theorem resolveJavaSuffix_scan {key : String} (hkey : "" ∉ split key '.') :
    JavaScan (ClassLevel (split key '.')) files (split key '.')
      (resolveJavaSuffix key (buildJavaSuffixIndex files)) := by
  unfold resolveJavaSuffix
  dsimp only
  rw [if_neg hkey]
  generalize split key '.' = segs
  have hstop := fun outcome => @findSome?_javaSuffixAt files segs outcome
  have hne : ∀ n, LongestLevel (ClassLevel segs) files segs n → ∃ outcome,
      JavaSuffixLookup.ofHits (javaHits files segs n) = some outcome := by
    intro n hn
    exact Option.ne_none_iff_exists'.mp fun hnone => hn.hit (ofHits_eq_none.mp hnone)
  cases hfound : ((List.range (segs.length + 1)).reverse.filter (0 < ·)).findSome?
      (javaSuffixAt segs (buildJavaSuffixIndex files)) with
  | none =>
    rw [hfound] at hstop
    have hno : ∀ n, ¬ LongestLevel (ClassLevel segs) files segs n := by
      intro n hn
      obtain ⟨outcome, hout⟩ := hne n hn
      exact absurd ((hstop outcome).mpr ⟨n, hn, hout⟩) (by simp)
    constructor
    · intro path
      simp [hno]
    · simp [hno]
    · simp [hno]
  | some outcome =>
    rw [Option.getD_some]
    rw [hfound] at hstop
    simp only [Option.some.injEq] at hstop
    obtain ⟨n, hn, hout⟩ := (hstop outcome).mp rfl
    constructor
    · intro path
      rw [hstop]
      simp only [ofHits_eq_resolved]
    · rw [hstop]
      simp only [ofHits_eq_ambiguous]
    · rw [hstop]
      constructor
      · rintro ⟨m, -, hm⟩
        exact absurd hm (ofHits_ne_notFound _)
      · intro hno
        exact absurd hn (hno n)

end Java

/-- The indexes by basename give what a scan of every file gives; a dotted key with an empty segment names
nothing, and a level whose last segment holds a slash is passed over. -/
theorem suffix_indexes_scan (files : List String) (repoUid : String) (config : IncludeResolverConfig)
    (specifier key : String) :
    (buildIncludeResolutionMap files repoUid config).matchPathSuffixOrBasename specifier =
    scanIncludes files specifier ∧
      if "" ∈ split key '.' then resolveJavaSuffix key (buildJavaSuffixIndex files) = .notFound
      else JavaScan (ClassLevel (split key '.')) files (split key '.')
        (resolveJavaSuffix key (buildJavaSuffixIndex files)) := by
  refine ⟨matchPathSuffixOrBasename_eq_scanIncludes files repoUid config specifier, ?_⟩
  split
  · rename_i hkey
    unfold resolveJavaSuffix
    dsimp only
    rw [if_pos hkey]
  · rename_i hkey
    exact resolveJavaSuffix_scan hkey

/-- The guard on malformed keys: the file of the first segment of `a.` is not looked for. -/
theorem trailing_dot_not_scanned :
    ¬ ∀ files repoUid config specifier key,
      (buildIncludeResolutionMap files repoUid config).matchPathSuffixOrBasename specifier =
          scanIncludes files specifier ∧
        JavaScan (fun _ => True) files (split key '.') (resolveJavaSuffix key (buildJavaSuffixIndex files)) := by
  intro h
  have hscan := (h ["a.java"] "repo" ⟨[], []⟩ "" "a.").2.notFound
  have hfound : resolveJavaSuffix "a." (buildJavaSuffixIndex ["a.java"]) = .notFound := by decide +kernel
  apply hscan.mp hfound 1
  constructor
  · decide
  · decide +kernel
  · trivial
  · decide +kernel
  · intro k hlt hle _
    have hlen : (split "a." '.').length = 2 := by decide +kernel
    obtain rfl : k = 2 := by omega
    decide +kernel

end RepoGraph.Indexer
