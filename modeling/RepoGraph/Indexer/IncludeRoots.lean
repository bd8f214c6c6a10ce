import RepoGraph.Indexer.IncludeResolver
import RepoGraph.Lib.Folds
import RepoGraph.Lib.PathWalk
import RepoGraph.Lib.TextLaws

/-! The file that an include names: the one beside the source, otherwise the one that the configured and the
derived roots reach together. -/

namespace RepoGraph.Indexer

open Lib Lib.Text Lib.PathWalk

section Specification

/-- The indexed file that a path from the repository root names; a path that climbs above the root names
none. -/
def NamesFile (files : List String) (path file : String) : Prop :=
  file ∈ files ∧ ∃ place, Walk fileMove [] (split path '/') place ∧ file = join "/" place

def ClimbsPath (path : String) : Prop := Climbs fileMove [] (split path '/')

/-- A path without the segments that climb above the root. -/
def clampedPath (path : String) : String := join "/" ((split path '/').foldl (clamped fileMove) [])

def DerivedRoot (files : List String) (root : String) : Prop :=
  ∃ file ∈ files, ∃ above name below, split file '/' = above ++ name :: below ∧ below ≠ [] ∧
    name ∈ ["include", "inc"] ∧ root = join "/" (above ++ [name])

def IsRoot (config : IncludeResolverConfig) (files : List String) (root : String) : Prop :=
  root ∈ config.configuredRoots ∨ root ∈ config.derivedRoots ∨ DerivedRoot files root

def Beside (files : List String) (source specifier : String) (isSystemInclude : Bool) (file : String) : Prop :=
  isSystemInclude = false ∧ NamesFile files (joinPath (getDirectory source) specifier) file

def Reachable (config : IncludeResolverConfig) (files : List String) (specifier file : String) : Prop :=
  ∃ root, IsRoot config files root ∧ NamesFile files (joinPath root specifier) file

/-- The answer for a set of files: the only one, or all of several, each listed once. -/
structure PoolExact (repoUid : String) (pool : String → Prop) (answer : IncludeResolution) : Prop where
  resolved : ∀ key, answer = .resolved key ↔ ∃ file, key = fileKey repoUid file ∧
    ∀ other, pool other ↔ other = file
  ambiguous : (∃ keys, answer = .ambiguous keys) ↔ ∃ file other, pool file ∧ pool other ∧ file ≠ other
  listed : ∀ keys, answer = .ambiguous keys →
    ∃ files : List String, files.Nodup ∧ (∀ file, file ∈ files ↔ pool file) ∧ keys = files.map (fileKey repoUid)

structure IncludeExact (files : List String) (config : IncludeResolverConfig) (source specifier : String)
    (isSystemInclude : Bool) (repoUid : String) (answer : IncludeResolution) : Prop where
  beside : ∀ file, Beside files source specifier isSystemInclude file → answer = .resolved (fileKey repoUid file)
  pooled : (∀ file, ¬ Beside files source specifier isSystemInclude file) →
    PoolExact repoUid (Reachable config files specifier) answer

end Specification

section Paths

variable {files : List String} {path file root specifier : String} {config : IncludeResolverConfig}

lemma normalizePath_eq (path : String) : normalizePath path = clampedPath path := by
  have hstep : normalizeSegments = clamped fileMove := by
    funext parts segment
    rw [clamped_fileMove]
    rfl
  unfold normalizePath clampedPath
  rw [hstep]

lemma NamesFile.eq_clampedPath (h : NamesFile files path file) : file = clampedPath path := by
  obtain ⟨-, place, hwalk, rfl⟩ := h
  unfold clampedPath
  rw [hwalk.foldl_clamped]

lemma NamesFile.not_climbs (h : NamesFile files path file) : ¬ ClimbsPath path := by
  obtain ⟨-, place, hwalk, -⟩ := h
  exact fun hclimbs => hclimbs.not_walk hwalk

lemma namesFile_clampedPath (h : ¬ ClimbsPath path) (hmem : clampedPath path ∈ files) :
    NamesFile files path (clampedPath path) := by
  obtain ⟨place, hwalk⟩ := (climbs_or_walk fileMove [] (split path '/')).resolve_left h
  refine ⟨hmem, place, hwalk, ?_⟩
  unfold clampedPath
  rw [hwalk.foldl_clamped]

lemma fileKey_injective (repoUid : String) : Function.Injective (fileKey repoUid) := by
  intro a b h
  exact append_left_unique (append_right_unique h)

lemma mem_includeRootsOf : root ∈ includeRootsOf path ↔
    ∃ above name below, split path '/' = above ++ name :: below ∧ below ≠ [] ∧ name ∈ ["include", "inc"] ∧
      root = join "/" (above ++ [name]) := by
  unfold includeRootsOf
  simp only [List.mem_map, List.mem_filter, List.mem_range, decide_eq_true_eq]
  constructor
  · rintro ⟨i, ⟨hi, hname⟩, rfl⟩
    have hlt : i < (split path '/').length := by omega
    rw [List.getElem?_eq_getElem hlt] at hname
    refine ⟨(split path '/').take i, (split path '/')[i], (split path '/').drop (i + 1), ?_, ?_, ?_, ?_⟩
    · rw [← List.drop_eq_getElem_cons hlt, List.take_append_drop]
    · rw [Ne, List.drop_eq_nil_iff]
      omega
    · simpa using hname
    · rw [List.take_append_getElem]
  · rintro ⟨above, name, below, hsplit, hbelow, hname, rfl⟩
    have hpos := List.length_pos_iff.mpr hbelow
    refine ⟨above.length, ⟨?_, ?_⟩, ?_⟩
    · rw [hsplit, List.length_append, List.length_cons]
      omega
    · rw [hsplit]
      simpa using hname
    · rw [hsplit, List.append_cons, List.take_left' (by simp)]

lemma mem_deriveIncludeRoots : root ∈ deriveIncludeRoots files ↔ DerivedRoot files root := by
  unfold deriveIncludeRoots DerivedRoot
  simp only [Std.ExtTreeSet.mem_toList, Std.ExtTreeSet.mem_ofList, List.contains_iff_mem, List.mem_flatMap,
    mem_includeRootsOf]

end Paths

section Pool

variable {repoUid : String} {pool : String → Prop} {candidates : List String}

def poolAnswer (repoUid : String) : List String → IncludeResolution
  | [] => .unresolved
  | [path] => .resolved (fileKey repoUid path)
  | candidates => .ambiguous (candidates.map (fileKey repoUid))

theorem poolExact_iff (repoUid : String) (hpool : ∀ file, pool file → file ∈ candidates) :
    PoolExact repoUid pool (poolAnswer repoUid candidates) ↔ candidates.Nodup ∧
    ∀ file ∈ candidates, pool file := by
  match candidates with
  | [] =>
    have hnone : ∀ file, ¬ pool file := fun file h => List.not_mem_nil (hpool file h)
    simp only [poolAnswer, List.nodup_nil, List.not_mem_nil, false_implies, implies_true, and_self, iff_true]
    refine ⟨fun key => ?_, ?_, fun keys h => by simp at h⟩
    · simp only [reduceCtorEq, false_iff, not_exists, not_and]
      exact fun file _ hall => hnone file ((hall file).mpr rfl)
    · simp [hnone]
  | [path] =>
    have honly : ∀ file, pool file → file = path := fun file h => List.mem_singleton.mp (hpool file h)
    simp only [poolAnswer, List.nodup_singleton, List.mem_singleton, forall_eq, true_and]
    constructor
    · intro h
      obtain ⟨file, hkey, hall⟩ := (h.resolved _).mp rfl
      exact fileKey_injective repoUid hkey ▸ (hall file).mpr rfl
    · intro hpath
      refine ⟨fun key => ⟨fun h => ?_, ?_⟩, ⟨?_, ?_⟩, fun keys h => by simp at h⟩
      · exact ⟨path, (IncludeResolution.resolved.inj h).symm, fun other => ⟨honly other, fun h => h ▸ hpath⟩⟩
      · rintro ⟨file, rfl, hall⟩
        rw [(hall path).mp hpath]
      · simp
      · rintro ⟨file, other, hfile, hother, hne⟩
        exact absurd ((honly file hfile).trans (honly other hother).symm) hne
  | path :: next :: rest =>
    simp only [poolAnswer]
    constructor
    · intro h
      obtain ⟨files, hnodup, hmem, hkeys⟩ := h.listed _ rfl
      obtain rfl := (fileKey_injective repoUid).list_map hkeys
      exact ⟨hnodup, fun file => (hmem file).mp⟩
    · rintro ⟨hnodup, hall⟩
      have hmem : ∀ file, file ∈ path :: next :: rest ↔ pool file := fun file => ⟨hall file, hpool file⟩
      have hne : path ≠ next := by
        rintro rfl
        simp at hnodup
      refine ⟨fun key => ⟨fun h => by simp at h, ?_⟩, ⟨fun _ => ?_, fun _ => ⟨_, rfl⟩⟩, fun keys h => ?_⟩
      · rintro ⟨file, -, honly⟩
        have hpath := (honly path).mp (hall path (by simp))
        have hnext := (honly next).mp (hall next (by simp))
        exact absurd (hpath.trans hnext.symm) hne
      · exact ⟨path, next, hall path (by simp), hall next (by simp), hne⟩
      · exact ⟨_, hnodup, hmem, (IncludeResolution.ambiguous.inj h).symm⟩

end Pool

section Answer

variable {files : List String} {config : IncludeResolverConfig} {source specifier repoUid file : String}
  {isSystemInclude : Bool}

def configuredHits (config : IncludeResolverConfig) (files : List String) (specifier : String) : List String :=
  (config.configuredRoots.map fun root => clampedPath (joinPath root specifier)).filter (· ∈ files)

lemma foldl_addDerived (files : List String) (specifier : String) (roots candidates : List String) :
    roots.foldl (addDerived files specifier) candidates =
      nubOnto candidates ((roots.map fun root => clampedPath (joinPath root specifier)).filter (· ∈ files)) := by
  induction roots generalizing candidates with
  | nil => rfl
  | cons root roots ih =>
    rw [List.foldl_cons, ih, addDerived, rootCandidate, normalizePath_eq, List.map_cons, List.filter_cons]
    by_cases hmem : clampedPath (joinPath root specifier) ∈ files
    · simp only [hmem, true_and, decide_true, if_true, nubOnto_cons]
      by_cases hin : clampedPath (joinPath root specifier) ∈ candidates
      · simp [hin]
      · simp [hin]
    · simp [hmem]

def candidatesOf (config : IncludeResolverConfig) (files : List String) (specifier : String) : List String :=
  rootCandidates { config with derivedRoots := nubOnto config.derivedRoots (deriveIncludeRoots files) }
    specifier files

lemma candidatesOf_eq (config : IncludeResolverConfig) (files : List String) (specifier : String) :
    candidatesOf config files specifier = nubOnto (configuredHits config files specifier)
      (((nubOnto config.derivedRoots (deriveIncludeRoots files)).map fun root =>
        clampedPath (joinPath root specifier)).filter (· ∈ files)) := by
  have hcandidate : rootCandidate specifier = fun root => clampedPath (joinPath root specifier) := by
    funext root
    rw [rootCandidate, normalizePath_eq]
  unfold candidatesOf rootCandidates
  rw [foldl_addDerived, hcandidate]
  rfl

lemma mem_candidatesOf :
    file ∈ candidatesOf config files specifier ↔
      file ∈ files ∧ ∃ root, IsRoot config files root ∧ file = clampedPath (joinPath root specifier) := by
  rw [candidatesOf_eq, mem_nubOnto]
  simp only [configuredHits, List.mem_filter, List.mem_map, decide_eq_true_eq, mem_nubOnto, mem_deriveIncludeRoots,
    IsRoot]
  constructor
  · rintro (⟨⟨root, hroot, rfl⟩, hmem⟩ | ⟨⟨root, hroot, rfl⟩, hmem⟩)
    · exact ⟨hmem, root, Or.inl hroot, rfl⟩
    · exact ⟨hmem, root, Or.inr hroot, rfl⟩
  · rintro ⟨hmem, root, hroot | hroot, rfl⟩
    · exact Or.inl ⟨⟨root, hroot, rfl⟩, hmem⟩
    · exact Or.inr ⟨⟨root, hroot, rfl⟩, hmem⟩

lemma nodup_candidatesOf : (candidatesOf config files specifier).Nodup ↔
    (configuredHits config files specifier).Nodup := by
  rw [candidatesOf_eq]
  exact ⟨fun h => (prefix_nubOnto _ _).sublist.nodup h, fun h => nodup_nubOnto h _⟩

lemma Reachable.mem_candidatesOf (h : Reachable config files specifier file) :
    file ∈ candidatesOf config files specifier := by
  obtain ⟨root, hroot, hnames⟩ := h
  exact Indexer.mem_candidatesOf.mpr ⟨hnames.1, root, hroot, hnames.eq_clampedPath⟩

def besidePath (source specifier : String) : String := clampedPath (joinPath (getDirectory source) specifier)

lemma resolve_eq (files : List String) (config : IncludeResolverConfig) (source specifier repoUid : String)
    (isSystemInclude : Bool) :
    (buildIncludeResolutionMap files repoUid config).resolve source specifier isSystemInclude =
      if isSystemInclude = false ∧ besidePath source specifier ∈ files then
        .resolved (fileKey repoUid (besidePath source specifier))
      else poolAnswer repoUid (candidatesOf config files specifier) := by
  change (if (!isSystemInclude) = true ∧ normalizePath (joinPath (getDirectory source) specifier) ∈ files then
      .resolved (fileKey repoUid (normalizePath (joinPath (getDirectory source) specifier)))
    else match candidatesOf config files specifier with
      | [] => .unresolved
      | [path] => .resolved (fileKey repoUid path)
      | candidates => .ambiguous (candidates.map (fileKey repoUid)) : IncludeResolution) = _
  simp only [Bool.not_eq_true', normalizePath_eq]
  rfl

lemma Beside.eq_besidePath (h : Beside files source specifier isSystemInclude file) :
    file = besidePath source specifier := h.2.eq_clampedPath

/-- Where the path beside the source climbs above the root and an indexed file has its clamped name, the roots
must reach that file alone; otherwise no file may be configured twice, and what a climbing root seems to reach
must be reached by another. -/
structure RootsApart (config : IncludeResolverConfig) (files : List String) (source specifier : String)
    (isSystemInclude : Bool) : Prop where
  beside : isSystemInclude = false → besidePath source specifier ∈ files →
    ClimbsPath (joinPath (getDirectory source) specifier) →
    ∀ file, Reachable config files specifier file ↔ file = besidePath source specifier
  pooled : ¬ (isSystemInclude = false ∧ besidePath source specifier ∈ files) →
    (configuredHits config files specifier).Nodup ∧
      ∀ root, IsRoot config files root → ClimbsPath (joinPath root specifier) →
        clampedPath (joinPath root specifier) ∈ files →
        Reachable config files specifier (clampedPath (joinPath root specifier))

lemma climbing_roots_iff :
    (∀ file ∈ candidatesOf config files specifier, Reachable config files specifier file) ↔
      ∀ root, IsRoot config files root → ClimbsPath (joinPath root specifier) →
        clampedPath (joinPath root specifier) ∈ files →
        Reachable config files specifier (clampedPath (joinPath root specifier)) := by
  constructor
  · intro h root hroot _ hmem
    exact h _ (mem_candidatesOf.mpr ⟨hmem, root, hroot, rfl⟩)
  · intro h file hfile
    obtain ⟨hmem, root, hroot, rfl⟩ := mem_candidatesOf.mp hfile
    by_cases hclimbs : ClimbsPath (joinPath root specifier)
    · exact h root hroot hclimbs hmem
    · exact ⟨root, hroot, namesFile_clampedPath hclimbs hmem⟩

lemma includeExact_beside (hquoted : isSystemInclude = false) (hmem : besidePath source specifier ∈ files) :
    IncludeExact files config source specifier isSystemInclude repoUid
        (.resolved (fileKey repoUid (besidePath source specifier))) ↔
      (ClimbsPath (joinPath (getDirectory source) specifier) →
        ∀ file, Reachable config files specifier file ↔ file = besidePath source specifier) := by
  constructor
  · intro h hclimbs
    have hnone : ∀ file, ¬ Beside files source specifier isSystemInclude file :=
      fun file hbeside => hbeside.2.not_climbs hclimbs
    obtain ⟨file, hkey, hall⟩ := ((h.pooled hnone).resolved _).mp rfl
    obtain rfl := fileKey_injective repoUid hkey
    exact hall
  · intro h
    constructor
    · intro file hbeside
      rw [hbeside.eq_besidePath]
    · intro hnone
      have hclimbs : ClimbsPath (joinPath (getDirectory source) specifier) := by
        by_contra hstays
        exact hnone _ ⟨hquoted, namesFile_clampedPath hstays hmem⟩
      have honly := h hclimbs
      refine ⟨fun key => ⟨fun hkey => ?_, ?_⟩, ⟨?_, ?_⟩, fun keys hkeys => by simp at hkeys⟩
      · exact ⟨_, (IncludeResolution.resolved.inj hkey).symm, honly⟩
      · rintro ⟨file, rfl, hall⟩
        rw [(hall _).mp ((honly _).mpr rfl)]
      · simp
      · rintro ⟨file, other, hfile, hother, hne⟩
        exact absurd (((honly file).mp hfile).trans ((honly other).mp hother).symm) hne

theorem includeExact_iff :
    IncludeExact files config source specifier isSystemInclude repoUid
        ((buildIncludeResolutionMap files repoUid config).resolve source specifier isSystemInclude) ↔
      RootsApart config files source specifier isSystemInclude := by
  rw [resolve_eq]
  by_cases hbeside : isSystemInclude = false ∧ besidePath source specifier ∈ files
  · rw [if_pos hbeside, includeExact_beside hbeside.1 hbeside.2]
    constructor
    · exact fun h => ⟨fun _ _ => h, fun hnot => absurd hbeside hnot⟩
    · exact fun h => h.beside hbeside.1 hbeside.2
  · rw [if_neg hbeside]
    have hnone : ∀ file, ¬ Beside files source specifier isSystemInclude file := by
      intro file h
      exact hbeside ⟨h.1, h.eq_besidePath ▸ h.2.1⟩
    have hpool := poolExact_iff repoUid fun file (h : Reachable config files specifier file) =>
      h.mem_candidatesOf
    rw [nodup_candidatesOf, climbing_roots_iff] at hpool
    constructor
    · intro h
      exact ⟨fun hquoted hmem => absurd ⟨hquoted, hmem⟩ hbeside, fun _ => hpool.mp (h.pooled hnone)⟩
    · intro h
      exact ⟨fun file hfile => absurd hfile (hnone file), fun _ => hpool.mpr (h.pooled hbeside)⟩

theorem resolve_perm {files' : List String} (h : files.Perm files') :
    (buildIncludeResolutionMap files' repoUid config).resolve source specifier isSystemInclude =
      (buildIncludeResolutionMap files repoUid config).resolve source specifier isSystemInclude := by
  have hmem : ∀ path, path ∈ files' ↔ path ∈ files := fun path => h.mem_iff.symm
  have hroots : deriveIncludeRoots files' = deriveIncludeRoots files := by
    have hset : (.ofList (files'.flatMap includeRootsOf) : BTreeSet String) =
        .ofList (files.flatMap includeRootsOf) := by
      apply Std.ExtTreeSet.ext_mem
      intro root
      simp only [Std.ExtTreeSet.mem_ofList, List.contains_iff_mem, List.mem_flatMap, hmem]
    exact congrArg Std.ExtTreeSet.toList hset
  have hcandidates : candidatesOf config files' specifier = candidatesOf config files specifier := by
    rw [candidatesOf_eq, candidatesOf_eq, hroots]
    simp only [configuredHits, hmem]
  rw [resolve_eq, resolve_eq, hcandidates]
  simp only [hmem]

/-- The answer is the specified one, whatever the order of the files, just when the roots are apart. -/
theorem include_resolution_exact_iff (files : List String) (config : IncludeResolverConfig)
    (source specifier repoUid : String) (isSystemInclude : Bool) :
    (IncludeExact files config source specifier isSystemInclude repoUid
        ((buildIncludeResolutionMap files repoUid config).resolve source specifier isSystemInclude) ∧
      ∀ files', files.Perm files' →
        (buildIncludeResolutionMap files' repoUid config).resolve source specifier isSystemInclude =
          (buildIncludeResolutionMap files repoUid config).resolve source specifier isSystemInclude) ↔
      RootsApart config files source specifier isSystemInclude := by
  rw [includeExact_iff]
  exact and_iff_left fun files' h => resolve_perm h

/-- One root configured in two spellings: the only header is listed twice. -/
theorem root_configured_twice :
    ¬ IncludeExact ["src/main.c", "lib/a.h"] ⟨["lib", "./lib"], []⟩ "src/main.c" "a.h" false "r"
      ((buildIncludeResolutionMap ["src/main.c", "lib/a.h"] "r" ⟨["lib", "./lib"], []⟩).resolve "src/main.c" "a.h"
        false) := by
  rw [includeExact_iff]
  intro h
  have hbeside : ¬ (false = false ∧ besidePath "src/main.c" "a.h" ∈ ["src/main.c", "lib/a.h"]) := by decide +kernel
  have hnodup := (h.pooled hbeside).1
  revert hnodup
  decide +kernel

end Answer

end RepoGraph.Indexer
