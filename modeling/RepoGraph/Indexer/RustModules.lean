import RepoGraph.Indexer.IndexTables
import RepoGraph.Indexer.IncludeRoots
import RepoGraph.Lib.Folds
import RepoGraph.Lib.PathWalk
import RepoGraph.Lib.TextLaws
import Mathlib.Data.List.TakeWhile

/-! The module that a Rust `use` names from the module around it, and when the stage that binds it gives its
file. -/

namespace RepoGraph.Indexer

open Lib Lib.Text Lib.PathWalk

section FileResolution

variable {repoUid path file : String} {files : List String}

def shortcutsOf (file : String) : List String := stripExtension file :: directoryShortcuts file

/-- A path without a file that another file is found under. -/
def StandIn (files : List String) (path : String) : Prop := path ∉ files ∧ ∃ file ∈ files, path ∈ shortcutsOf file

lemma lookup_orInsert (m : IterMap String String) (key value other : String) :
    (orInsert m key value).lookup other = (m.lookup other).or (if other = key then some value else none) := by
  unfold orInsert
  cases hkey : m.lookup key with
  | some found =>
    by_cases he : other = key
    · subst he
      simp [hkey]
    · simp [he]
  | none =>
    by_cases he : other = key
    · subst he
      simp [hkey]
    · simp [he, AList.lookup_insert_ne he]

lemma lookup_foldl_orInsert (keys : List String) (m : IterMap String String) (value other : String) :
    (keys.foldl (fun m key => orInsert m key value) m).lookup other =
      (m.lookup other).or (if other ∈ keys then some value else none) := by
  induction keys generalizing m with
  | nil => simp
  | cons key keys ih =>
    rw [List.foldl_cons, ih, lookup_orInsert, Option.or_assoc]
    congr 1
    by_cases he : other = key
    · simp [he]
    · simp [he]

lemma lookup_addFileResolution (m : IterMap String String) (repoUid file path : String) :
    (addFileResolution repoUid m file).lookup (fileKey repoUid path) =
      if path = file then some (fileKey repoUid file)
      else (m.lookup (fileKey repoUid path)).or
        (if path ∈ shortcutsOf file then some (fileKey repoUid file) else none) := by
  have hkey : ∀ other, fileKey repoUid path = fileKey repoUid other ↔ path = other :=
    fun other => (fileKey_injective repoUid).eq_iff
  have hfold : ∀ m,
      (directoryShortcuts file).foldl (fun m dir => orInsert m (fileKey repoUid dir) (fileKey repoUid file)) m =
        ((directoryShortcuts file).map (fileKey repoUid)).foldl
          (fun m key => orInsert m key (fileKey repoUid file)) m := by
    intro m
    rw [List.foldl_map]
  unfold addFileResolution shortcutsOf
  dsimp only
  rw [hfold, lookup_foldl_orInsert, lookup_orInsert, Option.or_assoc]
  simp only [List.mem_map_of_injective (fileKey_injective repoUid), hkey, List.mem_cons]
  by_cases hself : path = file
  · subst hself
    simp
  · rw [if_neg hself, AList.lookup_insert_ne (fun h => hself ((hkey file).mp h))]
    congr 1
    by_cases he : path = stripExtension file
    · simp [he]
    · simp [he]

theorem lookup_buildFileResolutionMap (files : List String) (repoUid path : String) :
    (buildFileResolutionMap files repoUid).lookup (fileKey repoUid path) =
      if path ∈ files then some (fileKey repoUid path)
      else (files.find? fun file => path ∈ shortcutsOf file).map (fileKey repoUid) := by
  unfold buildFileResolutionMap
  induction files using List.reverseRecOn with
  | nil => simp
  | append_singleton files file ih =>
    rw [List.foldl_append, List.foldl_cons, List.foldl_nil, lookup_addFileResolution, ih, List.find?_append]
    by_cases hself : path = file
    · simp [hself]
    · rw [if_neg hself]
      by_cases hmem : path ∈ files
      · simp [hmem]
      · by_cases hshort : path ∈ shortcutsOf file
        · cases files.find? fun file => path ∈ shortcutsOf file <;> simp [hmem, hself, hshort]
        · cases files.find? fun file => path ∈ shortcutsOf file <;> simp [hmem, hself, hshort]

lemma not_endsWith_rs {stem ext : String} (hext : '.' ∉ ext.toList) (hne : ext ≠ "rs")
    (hfile : file = stem ++ "." ++ ext) :
    ¬ endsWith file ".rs" := by
  intro hends
  obtain ⟨front, hfront⟩ := endsWith_iff.mp hends
  have hdot : ".rs" = "." ++ "rs" := rfl
  have hone : "." = String.singleton '.' := rfl
  have h₁ : rsplitOnce file '.' = some (stem, ext) := rsplitOnce_eq_some.mpr ⟨by rw [hfile, hone], hext⟩
  have h₂ : rsplitOnce file '.' = some (front, "rs") :=
    rsplitOnce_eq_some.mpr ⟨by rw [hfront, hdot, ← String.append_assoc, hone], by decide⟩
  rw [h₁] at h₂
  exact hne (Prod.mk.inj (Option.some.inj h₂)).2

lemma not_endsWith_rs_of_mem_shortcutsOf (h : path ∈ shortcutsOf file)
    (hne : path ≠ file) : ¬ endsWith file ".rs" := by
  unfold shortcutsOf at h
  rcases List.mem_cons.mp h with rfl | h
  · unfold stripExtension at hne
    cases hsplit : rsplitOnce file '.' with
    | none => simp [hsplit] at hne
    | some parts =>
      obtain ⟨stem, ext⟩ := parts
      have hone : "." = String.singleton '.' := rfl
      obtain ⟨hfile, hdot⟩ := rsplitOnce_eq_some.mp hsplit
      rw [← hone] at hfile
      by_cases hext : ext ∈ extensionlessImportExtensions
      · apply not_endsWith_rs hdot _ hfile
        rintro rfl
        exact absurd hext (by decide)
      · simp [hsplit, hext] at hne
  · unfold directoryShortcuts at h
    simp only [List.mem_append, Option.mem_toList, Option.or_eq_some_iff, stripSuffix_eq_some] at h
    rcases h with (hfile | ⟨-, hfile⟩) | hfile
    · exact @not_endsWith_rs _ (path ++ "/index") "tsx" (by decide) (by decide)
        (by rw [hfile, String.append_assoc, String.append_assoc]; rfl)
    · exact @not_endsWith_rs _ (path ++ "/index") "ts" (by decide) (by decide)
        (by rw [hfile, String.append_assoc, String.append_assoc]; rfl)
    · exact @not_endsWith_rs _ (path ++ "/__init__") "py" (by decide) (by decide)
        (by rw [hfile, String.append_assoc, String.append_assoc]; rfl)

end FileResolution

section Ladder

variable {repoUid src file : String} {files path : List String} {n m : ℕ}

/-- The files that a module can be written in; the crate root is written in an entry file. -/
def moduleFiles (src : String) (module : List String) : List String :=
  if module = [] then [s!"{src}/lib.rs", s!"{src}/main.rs"]
  else [src ++ "/" ++ join "/" module ++ ".rs", src ++ "/" ++ join "/" module ++ "/mod.rs"]

structure LongestModule (files : List String) (src : String) (path : List String) (n : ℕ)
    (file : String) : Prop where
  le : n ≤ path.length
  first : (moduleFiles src (path.take n)).find? (· ∈ files) = some file
  longest : ∀ k, n < k → k ≤ path.length → ∀ file ∈ moduleFiles src (path.take k), file ∉ files

/-- No probe, up to the first one with a file, is the other name of a file. -/
def NoStandIn (files probes : List String) : Prop :=
  ∀ before probe after, probes = before ++ probe :: after → (∀ q ∈ before, q ∉ files) → ¬ StandIn files probe

lemma LongestModule.mem (h : LongestModule files src path n file) : file ∈ files ∧
    file ∈ moduleFiles src (path.take n) :=
  ⟨by simpa using List.find?_some h.first, List.mem_of_find?_eq_some h.first⟩

lemma startsWith_of_mem_moduleFiles {module : List String} (h : file ∈ moduleFiles src module) :
    startsWith file s!"{src}/" := by
  apply startsWith_iff.mpr
  unfold moduleFiles at h
  split at h
  · rcases List.mem_pair.mp h with rfl | rfl
    · exact ⟨"lib.rs", by simp only [String.append_assoc]; rfl⟩
    · exact ⟨"main.rs", by simp only [String.append_assoc]; rfl⟩
  · rcases List.mem_pair.mp h with rfl | rfl
    · exact ⟨join "/" module ++ ".rs", by simp only [String.append_assoc]; rfl⟩
    · exact ⟨join "/" module ++ "/mod.rs", by simp only [String.append_assoc]; rfl⟩

lemma endsWith_of_mem_moduleFiles {module : List String} (h : file ∈ moduleFiles src module) :
    endsWith file ".rs" := by
  apply endsWith_iff.mpr
  unfold moduleFiles at h
  split at h
  · rcases List.mem_pair.mp h with rfl | rfl
    · exact ⟨src ++ "/lib", by simp only [String.append_assoc]; rfl⟩
    · exact ⟨src ++ "/main", by simp only [String.append_assoc]; rfl⟩
  · rcases List.mem_pair.mp h with rfl | rfl
    · exact ⟨src ++ "/" ++ join "/" module, rfl⟩
    · exact ⟨src ++ "/" ++ join "/" module ++ "/mod", by simp only [String.append_assoc]; rfl⟩

lemma rustModuleProbes_eq (src : String) (segs : List String) :
    rustModuleProbes src segs = (List.range (segs.length + 1)).reverse.flatMap fun n =>
      moduleFiles src (segs.take n) := by
  unfold rustModuleProbes
  apply List.flatMap_congr
  intro n hn
  have hle : n < segs.length + 1 := List.mem_range.mp (List.mem_reverse.mp hn)
  unfold moduleFiles
  by_cases hzero : n = 0
  · rw [if_pos hzero, if_pos (by rw [hzero, List.take_zero])]
  · have hne : segs.take n ≠ [] := by
      apply List.ne_nil_of_length_pos
      rw [List.length_take]
      omega
    rw [if_neg hzero, if_neg hne]
    rfl

lemma find?_rustModuleProbes :
    (rustModuleProbes src path).find? (· ∈ files) = some file ↔ ∃ n, LongestModule files src path n file := by
  have hlevels : (List.range (path.length + 1)).reverse.Pairwise (· > ·) :=
    List.pairwise_reverse.mpr List.pairwise_lt_range
  rw [rustModuleProbes_eq, List.find?_flatMap, findSome?_eq_some_of_pairwise (fun _ _ => Nat.lt_asymm) hlevels]
  simp only [List.mem_reverse, List.mem_range, List.find?_eq_none, decide_eq_true_eq]
  constructor
  · rintro ⟨n, hn, hfirst, hlongest⟩
    exact ⟨n, by omega, hfirst, fun k hk hle => hlongest k (by omega) hk⟩
  · rintro ⟨n, hle, hfirst, hlongest⟩
    exact ⟨n, by omega, hfirst, fun k hk hlt => hlongest k hlt (by omega)⟩

def lookupProbe (files : List String) (repoUid probe : String) : Option String :=
  (buildFileResolutionMap files repoUid).lookup (fileKey repoUid probe)

lemma lookupProbe_of_mem {probe : String} (h : probe ∈ files) : lookupProbe files repoUid probe =
    some (fileKey repoUid probe) := by
  rw [lookupProbe, lookup_buildFileResolutionMap, if_pos h]

lemma lookupProbe_of_standIn {probe : String} (h : StandIn files probe) :
    ∃ file ∈ files, lookupProbe files repoUid probe = some (fileKey repoUid file) ∧ ¬ endsWith file ".rs" := by
  obtain ⟨hmem, other, hother, hshort⟩ := h
  obtain ⟨first, hfirst⟩ : ∃ first, files.find? (fun file => probe ∈ shortcutsOf file) = some first := by
    rw [← Option.isSome_iff_exists, List.find?_isSome]
    exact ⟨other, hother, by simpa using hshort⟩
  have hin := List.mem_of_find?_eq_some hfirst
  have hfound : probe ∈ shortcutsOf first := by simpa using List.find?_some hfirst
  refine ⟨first, hin, ?_, not_endsWith_rs_of_mem_shortcutsOf hfound (fun heq => hmem (heq ▸ hin))⟩
  rw [lookupProbe, lookup_buildFileResolutionMap, if_neg hmem, hfirst, Option.map_some]

lemma lookupProbe_eq_none {probe : String} :
    lookupProbe files repoUid probe = none ↔ probe ∉ files ∧ ¬ StandIn files probe := by
  constructor
  · intro h
    have hmem : probe ∉ files := by
      intro hmem
      rw [lookupProbe_of_mem hmem] at h
      simp at h
    refine ⟨hmem, fun hstand => ?_⟩
    obtain ⟨file, -, hfound, -⟩ := @lookupProbe_of_standIn repoUid _ _ hstand
    rw [h] at hfound
    simp at hfound
  · rintro ⟨hmem, hstand⟩
    rw [lookupProbe, lookup_buildFileResolutionMap, if_neg hmem, Option.map_eq_none_iff, List.find?_eq_none]
    intro file hfile hshort
    exact hstand ⟨hmem, file, hfile, by simpa using hshort⟩

lemma ladder_of_noStandIn {probes : List String} (h : NoStandIn files probes) :
    probes.findSome? (lookupProbe files repoUid) = (probes.find? (· ∈ files)).map (fileKey repoUid) := by
  induction probes with
  | nil => rfl
  | cons probe probes ih =>
    rw [List.findSome?_cons, List.find?_cons]
    by_cases hmem : probe ∈ files
    · rw [lookupProbe_of_mem hmem]
      simp [hmem]
    · have hstand : ¬ StandIn files probe := h [] probe probes rfl (by simp)
      rw [lookupProbe_eq_none.mpr ⟨hmem, hstand⟩]
      simp only [hmem, decide_false]
      apply ih
      intro before q after heq hbefore
      apply h (probe :: before) q after (by rw [heq, List.cons_append])
      intro x hx
      rcases List.mem_cons.mp hx with rfl | hx
      · exact hmem
      · exact hbefore x hx

lemma ladder_of_standIn {probes : List String} (h : ¬ NoStandIn files probes) :
    ∃ file, probes.findSome? (lookupProbe files repoUid) = some (fileKey repoUid file) ∧
    ¬ endsWith file ".rs" := by
  unfold NoStandIn at h
  push Not at h
  obtain ⟨before, probe, after, rfl, hbefore, hstand⟩ := h
  induction before with
  | nil =>
    obtain ⟨file, -, hfound, hends⟩ := @lookupProbe_of_standIn repoUid _ _ hstand
    exact ⟨file, by rw [List.nil_append, List.findSome?_cons, hfound], hends⟩
  | cons q before ih =>
    obtain ⟨hq, hbefore⟩ := List.forall_mem_cons.mp hbefore
    by_cases hstandq : StandIn files q
    · obtain ⟨file, -, hfound, hends⟩ := @lookupProbe_of_standIn repoUid _ _ hstandq
      exact ⟨file, by rw [List.cons_append, List.findSome?_cons, hfound], hends⟩
    · rw [List.cons_append, List.findSome?_cons, lookupProbe_eq_none.mpr ⟨hq, hstandq⟩]
      exact ih hbefore

end Ladder

section Reading

variable {site : RustUseSite} {rustCrateRoots : IterMap String String} {files : List String} {repoUid src : String}
variable {module parts start names written : List String} {floor : ℕ}

def RustUseSite.Declares (site : RustUseSite) (name : String) : Prop :=
  ∃ decls, site.declaredModules = some decls ∧ ∃ d ∈ decls, d.name = name ∧ d.inlinePath = site.inlineModulePath

def useHeads : List String := ["crate", "self", "super"]

/-- Where a path starts, what it goes by from there, and the least length of the path of a file it may name. -/
inductive Head (site : RustUseSite) (module : List String) : List String → List String → List String → ℕ → Prop
  | crate (rest : List String) : Head site module ("crate" :: rest) [] rest 0
  | self (rest : List String) : Head site module ("self" :: rest) module rest 0
  | super (rest : List String) : Head site module ("super" :: rest) module ("super" :: rest) 0
  | sibling {first : String} (rest : List String) : first ∉ useHeads → site.Declares first →
      Head site module (first :: rest) module (first :: rest) (module.length + 1)

def useMove (seg : String) : Move := if seg = "super" then .up else .down

def Probed (files : List String) (src : String) (module : List String) : Prop :=
  ∃ probe ∈ moduleFiles src module, probe ∈ files ∨ StandIn files probe

/-- The module path of a `use` whose `super`s count as such only at its head. -/
inductive Written (site : RustUseSite) (rustCrateRoots : IterMap String String)
    (files : List String) (src : String) (module : List String) : List String → List String → Prop
  | crate (rest : List String) : Written site rustCrateRoots files src module ("crate" :: rest) rest
  | self (rest : List String) : Written site rustCrateRoots files src module ("self" :: rest) (module ++ rest)
  | super {pops : ℕ} {rest : List String} : 0 < pops → pops ≤ module.length → rest.head? ≠ some "super" →
      Written site rustCrateRoots files src module (List.replicate pops "super" ++ rest)
        (module.take (module.length - pops) ++ rest)
  | sibling {first : String} (rest : List String) : first ∉ useHeads → first ≠ "" →
      rustCrateRoots.lookup (canonicalizeCargoPackageName first) = none → site.Declares first →
      Probed files src (module ++ [first]) →
      Written site rustCrateRoots files src module (first :: rest) (module ++ first :: rest)

def LateSuper (parts : List String) : Prop := "super" ∈ parts.dropWhile (· = "super")

lemma probed_iff {first : String} :
    Probed files src (module ++ [first]) ↔
      (lookupProbe files repoUid (src ++ "/" ++ join "/" (module ++ [first]) ++ ".rs")).isSome ∨
        (lookupProbe files repoUid (src ++ "/" ++ join "/" (module ++ [first]) ++ "/mod.rs")).isSome := by
  have hsome : ∀ probe, (lookupProbe files repoUid probe).isSome ↔ probe ∈ files ∨ StandIn files probe := by
    intro probe
    rw [Option.isSome_iff_ne_none, Ne, lookupProbe_eq_none]
    tauto
  unfold Probed moduleFiles
  rw [if_neg (by simp), hsome, hsome]
  simp

lemma parts_eq_supers (parts : List String) :
    parts = List.replicate (parts.takeWhile (· = "super")).length "super" ++ parts.dropWhile (· = "super") := by
  have hall : parts.takeWhile (· = "super") = List.replicate (parts.takeWhile (· = "super")).length "super" := by
    apply List.eq_replicate_of_mem
    intro seg hseg
    simpa using List.mem_takeWhile_imp hseg
  rw [← hall, List.takeWhile_append_dropWhile]

lemma dropWhile_supers {pops : ℕ} {rest : List String} (hrest : rest.head? ≠ some "super") :
    (List.replicate pops "super" ++ rest).takeWhile (· = "super") = List.replicate pops "super" ∧
      (List.replicate pops "super" ++ rest).dropWhile (· = "super") = rest := by
  induction pops with
  | zero =>
    cases rest with
    | nil => simp
    | cons first rest =>
      have hne : first ≠ "super" := by simpa using hrest
      simp [hne]
  | succ pops ih =>
    rw [List.replicate_succ, List.cons_append]
    simp only [decide_true, List.takeWhile_cons_of_pos, List.dropWhile_cons_of_pos, ih.1, ih.2, and_self]

lemma written_cons_iff {first : String} {rest : List String} :
    Written site rustCrateRoots files src module (first :: rest) written ↔
      (first = "crate" ∧ written = rest) ∨ (first = "self" ∧ written = module ++ rest) ∨
      (first = "super" ∧
        let pops := ((first :: rest).takeWhile (· = "super")).length
        pops ≤ module.length ∧ written = module.take (module.length - pops) ++ (first :: rest).drop pops) ∨
      (first ∉ useHeads ∧ first ≠ "" ∧ rustCrateRoots.lookup (canonicalizeCargoPackageName first) = none ∧
        site.Declares first ∧ Probed files src (module ++ [first]) ∧ written = module ++ first :: rest) := by
  constructor
  · intro h
    generalize hparts : first :: rest = parts at h
    cases h with
    | crate rest =>
      obtain ⟨rfl, rfl⟩ := List.cons.inj hparts
      exact Or.inl ⟨rfl, rfl⟩
    | self rest =>
      obtain ⟨rfl, rfl⟩ := List.cons.inj hparts
      exact Or.inr (Or.inl ⟨rfl, rfl⟩)
    | @super pops tail hpos hle hrest =>
      obtain ⟨htake, hdrop⟩ := @dropWhile_supers pops _ hrest
      have hfirst : first = "super" := by
        obtain ⟨k, rfl⟩ := Nat.exists_eq_succ_of_ne_zero hpos.ne'
        exact (List.cons.inj hparts).1
      refine Or.inr (Or.inr (Or.inl ⟨hfirst, ?_⟩))
      dsimp only
      rw [htake, List.length_replicate, List.drop_left' (List.length_replicate ..)]
      exact ⟨hle, rfl⟩
    | sibling _ hheads hne hcrate hdecl hprobed =>
      obtain ⟨rfl, rfl⟩ := List.cons.inj hparts
      exact Or.inr (Or.inr (Or.inr ⟨hheads, hne, hcrate, hdecl, hprobed, rfl⟩))
  · rintro (⟨rfl, rfl⟩ | ⟨rfl, rfl⟩ | ⟨rfl, hle, rfl⟩ | ⟨hheads, hne, hcrate, hdecl, hprobed, rfl⟩)
    · exact .crate _
    · exact .self rest
    · have hparts := parts_eq_supers ("super" :: rest)
      have hhead : (("super" :: rest).dropWhile (· = "super")).head? ≠ some "super" := by
        intro h
        have := List.head?_dropWhile_not (· = "super") ("super" :: rest)
        rw [h] at this
        simp at this
      have hpos : 0 < (("super" :: rest).takeWhile (· = "super")).length := by simp
      have hwritten := @Written.super site rustCrateRoots files src _ _ _ hpos hle hhead
      rw [← hparts] at hwritten
      have hdrop : ("super" :: rest).drop (("super" :: rest).takeWhile (· = "super")).length =
          ("super" :: rest).dropWhile (· = "super") := by
        calc _ = (("super" :: rest).takeWhile (· = "super") ++ ("super" :: rest).dropWhile (· = "super")).drop
              (("super" :: rest).takeWhile (· = "super")).length := by rw [List.takeWhile_append_dropWhile]
          _ = _ := List.drop_left
      rw [hdrop]
      exact hwritten
    · exact .sibling rest hheads hne hcrate hdecl hprobed

theorem useSegments_eq_some {targetKey : String} :
    useSegments targetKey site module src rustCrateRoots (buildFileResolutionMap files repoUid) repoUid =
      some written ↔ Written site rustCrateRoots files src module (splitStr targetKey "::") written := by
  unfold useSegments
  generalize splitStr targetKey "::" = parts
  cases parts with
  | nil =>
    simp only [reduceCtorEq, false_iff]
    intro h
    generalize hparts : ([] : List String) = parts at h
    cases h with
    | crate => simp at hparts
    | self => simp at hparts
    | super hpos hle hrest =>
      have hnil := (List.append_eq_nil_iff.mp hparts.symm).1
      simp at hnil
      omega
    | sibling => simp at hparts
  | cons first rest =>
    rw [written_cons_iff]
    dsimp only
    by_cases hcrate : first = "crate"
    · subst hcrate
      rw [if_pos rfl]
      constructor
      · exact fun h => Or.inl ⟨rfl, (Option.some.inj h).symm⟩
      · rintro (⟨-, rfl⟩ | ⟨h, -⟩ | ⟨h, -⟩ | ⟨h, -⟩)
        · rfl
        · exact absurd h (by decide)
        · exact absurd h (by decide)
        · exact absurd h (by decide)
    by_cases hself : first = "self"
    · subst hself
      rw [if_neg hcrate, if_pos rfl]
      constructor
      · exact fun h => Or.inr (Or.inl ⟨rfl, (Option.some.inj h).symm⟩)
      · rintro (⟨h, -⟩ | ⟨-, rfl⟩ | ⟨h, -⟩ | ⟨h, -⟩)
        · exact absurd h hcrate
        · rfl
        · exact absurd h (by decide)
        · exact absurd h (by decide)
    by_cases hsuper : first = "super"
    · subst hsuper
      rw [if_neg hcrate, if_neg hself, if_pos rfl]
      constructor
      · intro h
        split at h
        · simp at h
        · rename_i hle
          exact Or.inr (Or.inr (Or.inl ⟨rfl, Nat.le_of_not_lt hle, (Option.some.inj h).symm⟩))
      · rintro (⟨h, -⟩ | ⟨h, -⟩ | ⟨-, hle, rfl⟩ | ⟨h, -⟩)
        · exact absurd h hcrate
        · exact absurd h hself
        · rw [if_neg (Nat.not_lt_of_le hle)]
        · exact absurd h (by decide)
    have hheads : first ∉ useHeads := by simp [useHeads, hcrate, hself, hsuper]
    have hdecl : (site.declaredModules.any fun decls => decls.any fun d =>
        d.name = first ∧ d.inlinePath = site.inlineModulePath) = true ↔ site.Declares first := by
      unfold RustUseSite.Declares
      cases site.declaredModules <;> simp
    rw [if_neg hcrate, if_neg hself, if_neg hsuper]
    simp only [hcrate, hself, hsuper, hheads, false_and, false_or, not_false_eq_true, true_and]
    by_cases hempty : first = ""
    · simp [hempty]
    rw [if_neg hempty]
    cases hroot : rustCrateRoots.lookup (canonicalizeCargoPackageName first) with
    | some root => simp
    | none =>
      rw [@probed_iff _ repoUid _ _ _, ← hdecl]
      have hkey : ∀ dir ending : String,
          (buildFileResolutionMap files repoUid).lookup (repoUid ++ ":" ++ src ++ "/" ++
            (dir ++ ending) ++ ":FILE") = lookupProbe files repoUid s!"{src}/{dir}{ending}" := by
        intro dir ending
        unfold lookupProbe fileKey
        congr 1
        simp only [String.append_assoc, toString]
      have hleaf := hkey (join "/" (module ++ [first])) ".rs"
      have hdir := hkey (join "/" (module ++ [first])) "/mod.rs"
      dsimp only [toString] at hleaf hdir ⊢
      simp only [hleaf, hdir]
      generalize (lookupProbe files repoUid (src ++ "/" ++ join "/" (module ++ [first]) ++ ".rs")).isSome = leaf
      generalize (lookupProbe files repoUid (src ++ "/" ++ join "/" (module ++ [first]) ++ "/mod.rs")).isSome = dir
      generalize (site.declaredModules.any fun decls => decls.any fun d =>
        d.name = first ∧ d.inlinePath = site.inlineModulePath) = declared
      cases declared with
      | false => simp
      | true => cases leaf <;> cases dir <;> simp [hempty, eq_comm]

/-- The path from the module around the `use` names the file: the longest prefix with one is not above the first
segment of a sibling. -/
def NamesModule (files : List String) (site : RustUseSite) (src : String)
    (module parts : List String) (file : String) :
    Prop :=
  ∃ start names floor path n, Head site module parts start names floor ∧ Walk useMove start names path ∧
    LongestModule files src path n file ∧ floor ≤ n

lemma not_standIn_of_level {path : List String} {k : ℕ} (h : NoStandIn files (rustModuleProbes src path))
    (hk : k ≤ path.length)
    (hnone : ∀ j, k ≤ j → j ≤ path.length → ∀ file ∈ moduleFiles src (path.take j), file ∉ files) :
    ∀ probe ∈ moduleFiles src (path.take k), ¬ StandIn files probe := by
  intro probe hprobe
  have hlevels : (List.range (path.length + 1)).reverse.Pairwise (· > ·) :=
    List.pairwise_reverse.mpr List.pairwise_lt_range
  obtain ⟨above, below, hsplit⟩ :=
    List.append_of_mem (List.mem_reverse.mpr (List.mem_range.mpr (Nat.lt_succ_of_le hk)))
  obtain ⟨before, after, hfiles⟩ := List.append_of_mem hprobe
  have hrange : ∀ j ∈ above, j ≤ path.length := by
    intro j hj
    have hmem : j ∈ (List.range (path.length + 1)).reverse := by
      rw [hsplit]
      exact List.mem_append_left _ hj
    exact Nat.le_of_lt_succ (List.mem_range.mp (List.mem_reverse.mp hmem))
  rw [hsplit, List.pairwise_append] at hlevels
  apply h (above.flatMap (fun n => moduleFiles src (path.take n)) ++ before) probe
    (after ++ below.flatMap fun n => moduleFiles src (path.take n))
  · rw [rustModuleProbes_eq, hsplit, List.flatMap_append, List.flatMap_cons, hfiles]
    simp only [List.append_assoc, List.cons_append]
  · intro q hq
    rcases List.mem_append.mp hq with hq | hq
    · obtain ⟨j, hj, hq⟩ := List.mem_flatMap.mp hq
      exact hnone j (hlevels.2.2 j hj k List.mem_cons_self).le (hrange j hj) q hq
    · apply hnone k le_rfl hk
      rw [hfiles]
      exact List.mem_append_left _ hq

lemma walk_names {names : List String} (h : "super" ∉ names) (start : List String) :
    Walk useMove start names (start ++ names) := by
  apply walk_of_forall_down
  intro seg hseg
  have hne : seg ≠ "super" := by
    rintro rfl
    exact h hseg
  unfold useMove
  rw [if_neg hne]

lemma Written.namesModule {n : ℕ} {file : String} (h : Written site rustCrateRoots files src module parts written)
    (hlate : ¬ LateSuper parts) (hstand : NoStandIn files (rustModuleProbes src written))
    (hlongest : LongestModule files src written n file) : NamesModule files site src module parts file := by
  unfold LateSuper at hlate
  cases h with
  | crate rest =>
    refine ⟨[], written, 0, written, n, .crate written, ?_, hlongest, Nat.zero_le n⟩
    exact walk_names (fun hmem => hlate (by simp [hmem])) []
  | self rest =>
    refine ⟨module, rest, 0, _, n, .self rest, ?_, hlongest, Nat.zero_le n⟩
    exact walk_names (fun hmem => hlate (by simp [hmem])) module
  | @super pops rest hpos hle hrest =>
    rw [(dropWhile_supers hrest).2] at hlate
    have hhead : Head site module (List.replicate pops "super" ++ rest) module
        (List.replicate pops "super" ++ rest) 0 := by
      obtain ⟨k, rfl⟩ := Nat.exists_eq_succ_of_ne_zero hpos.ne'
      exact .super _
    refine ⟨module, _, 0, _, n, hhead, ?_, hlongest, Nat.zero_le n⟩
    have hup := @walk_of_forall_up _ useMove module (List.replicate pops "super")
      (fun seg hseg => by rw [List.eq_of_mem_replicate hseg]; rfl) (by rwa [List.length_replicate])
    rw [List.length_replicate] at hup
    exact hup.append (walk_names hlate _)
  | @sibling first rest hheads hne hcrate hdecl hprobed =>
    have hsuper : first ≠ "super" := by
      rintro rfl
      exact hheads (by decide)
    have hnames : "super" ∉ first :: rest := by
      intro hmem
      exact hlate (by simpa [List.dropWhile_cons, hsuper] using hmem)
    refine ⟨module, first :: rest, module.length + 1, _, n, .sibling rest hheads hdecl, walk_names hnames module,
      hlongest, ?_⟩
    by_contra hlt
    have htake : (module ++ first :: rest).take (module.length + 1) = module ++ [first] := by
      rw [List.append_cons, List.take_left' (by simp)]
    have hlen : module.length + 1 ≤ (module ++ first :: rest).length := by
      simp only [List.length_append, List.length_cons]
      omega
    have hnone : ∀ j, module.length + 1 ≤ j → j ≤ (module ++ first :: rest).length →
        ∀ file ∈ moduleFiles src ((module ++ first :: rest).take j), file ∉ files := by
      intro j hj hle
      exact hlongest.longest j (by omega) hle
    obtain ⟨probe, hprobe, hfound⟩ := hprobed
    rw [← htake] at hprobe
    rcases hfound with hfound | hfound
    · exact hnone _ le_rfl hlen probe hprobe hfound
    · exact not_standIn_of_level hstand hlen hnone probe hprobe hfound

end Reading

section CrateRoots

variable {rustCrateRoots : IterMap String String} {source root other : String}

def HoldsFile (root source : String) : Prop := root = "." ∨ root = "" ∨ ∃ rest, source = root ++ "/" ++ rest

structure InnermostRoot (rustCrateRoots : IterMap String String) (source root : String) : Prop where
  declared : ∃ name, rustCrateRoots.lookup name = some root
  holds : HoldsFile root source
  innermost : ∀ name other, rustCrateRoots.lookup name = some other → HoldsFile other source →
    other = root ∨ HoldsFile other root

lemma maxByKey_spec {key : String → ℕ} {l : List String} {a : String} (h : maxByKey key l = some a) :
    a ∈ l ∧ ∀ b ∈ l, key b ≤ key a := by
  apply lastMaxByKey_spec
  rw [← h]
  cases l <;> rfl

lemma holdsFile_of_le (hroot : ∃ rest, source = root ++ "/" ++ rest)
    (hother : ∃ rest, source = other ++ "/" ++ rest)
    (hle : other.utf8ByteSize ≤ root.utf8ByteSize) : other = root ∨ HoldsFile other root := by
  obtain ⟨rest, hrest⟩ := hroot
  obtain ⟨below, hbelow⟩ := hother
  have heq : root ++ "/" ++ rest = other ++ "/" ++ below := hrest.symm.trans hbelow
  rcases middle_or_overlap heq with ⟨mid, rfl⟩ | ⟨overlap, hne, hover, -⟩
  · rw [← String.append_assoc] at heq
    have hbegins := append_right_unique heq
    have hsize := congrArg String.utf8ByteSize hbegins
    simp only [String.utf8ByteSize_append] at hsize
    have hmid : mid = "" := by
      rw [← String.utf8ByteSize_eq_zero_iff]
      omega
    rw [hmid, String.append_empty] at hbegins
    exact Or.inl (append_right_unique hbegins).symm
  · obtain ⟨front, rfl⟩ : ∃ front, overlap = front ++ "/" := by
      have hover' : other ++ "/" ++ overlap = root ++ "/" := hover.symm
      have hpos : 0 < overlap.utf8ByteSize := by
        rw [Nat.pos_iff_ne_zero, Ne, String.utf8ByteSize_eq_zero_iff]
        exact hne
      apply exists_middle_of_utf8ByteSize hover'
      have hslash : "/".utf8ByteSize = 1 := by decide
      simp only [String.utf8ByteSize_append]
      omega
    rw [← String.append_assoc] at hover
    exact Or.inr (Or.inr (Or.inr ⟨front, append_right_unique hover⟩))

lemma mem_enclosingRoots {root : String} :
    root ∈ (rustCrateRoots.entries.map (·.2)).filter (fun root =>
      root = "." ∨ root = "" ∨ startsWith source s!"{root}/") ↔
      (∃ name, rustCrateRoots.lookup name = some root) ∧ HoldsFile root source := by
  have hvalues : root ∈ rustCrateRoots.entries.map (·.2) ↔ ∃ name, rustCrateRoots.lookup name = some root := by
    simp only [List.mem_map, ← IterMap.mem_entries]
    constructor
    · rintro ⟨⟨name, found⟩, hmem, rfl⟩
      exact ⟨name, hmem⟩
    · rintro ⟨name, hmem⟩
      exact ⟨_, hmem, rfl⟩
  unfold HoldsFile
  rw [List.mem_filter, hvalues, decide_eq_true_eq, startsWith_iff]
  rfl

lemma enclosingCrateRoot_innermost (h : enclosingCrateRoot rustCrateRoots source = some root) :
    InnermostRoot rustCrateRoots source root := by
  obtain ⟨hmem, hmax⟩ := maxByKey_spec h
  obtain ⟨hdeclared, hholds⟩ := mem_enclosingRoots.mp hmem
  refine ⟨hdeclared, hholds, ?_⟩
  intro name other hother hheld
  have hle := hmax other (mem_enclosingRoots.mpr ⟨⟨name, hother⟩, hheld⟩)
  by_cases hdot : other = "."
  · exact Or.inr (Or.inl hdot)
  by_cases hempty : other = ""
  · exact Or.inr (Or.inr (Or.inl hempty))
  have hpos : 0 < other.utf8ByteSize := by
    rw [Nat.pos_iff_ne_zero, Ne, String.utf8ByteSize_eq_zero_iff]
    exact hempty
  rw [if_neg hdot] at hle
  have hrootdot : root ≠ "." := by
    rintro rfl
    simp only [if_true] at hle
    omega
  have hrootempty : root ≠ "" := by
    rintro rfl
    rw [if_neg hrootdot, String.utf8ByteSize_empty] at hle
    omega
  rw [if_neg hrootdot] at hle
  have hinside := (hholds.resolve_left hrootdot).resolve_left hrootempty
  exact holdsFile_of_le hinside ((hheld.resolve_left hdot).resolve_left hempty) hle

lemma InnermostRoot.exists_enclosing (h : InnermostRoot rustCrateRoots source root) :
    ∃ found, enclosingCrateRoot rustCrateRoots source = some found := by
  have hmem := mem_enclosingRoots.mpr ⟨h.declared, h.holds⟩
  unfold enclosingCrateRoot
  dsimp only
  obtain ⟨first, rest, hcons⟩ := List.exists_cons_of_ne_nil (List.ne_nil_of_mem hmem)
  rw [hcons]
  exact ⟨_, rfl⟩

lemma ne_of_repository_root {dir front rest : String} (h : dir = "." ∨ dir = "") : dir ≠ front ++ "/" ++ rest := by
  intro heq
  have hslash : '/' ∈ dir.toList := by simp [heq]
  rcases h with rfl | rfl
  · exact absurd hslash (by decide)
  · exact absurd hslash (by decide)

lemma InnermostRoot.rustSrcPrefix_unique (h : InnermostRoot rustCrateRoots source root)
    (h' : InnermostRoot rustCrateRoots source other) : rustSrcPrefix root = rustSrcPrefix other := by
  obtain ⟨name, hname⟩ := h.declared
  obtain ⟨name', hname'⟩ := h'.declared
  have htop : ∀ dir : String, dir = "." ∨ dir = "" → rustSrcPrefix dir = "src" := by
    intro dir hdir
    unfold rustSrcPrefix
    rw [if_pos hdir]
  have hself : other = root → rustSrcPrefix root = rustSrcPrefix other := fun heq => by rw [heq]
  rcases h.innermost name' other hname' h'.holds with heq | hholds
  · exact hself heq
  rcases h'.innermost name root hname h.holds with heq | hholds'
  · exact hself heq.symm
  unfold HoldsFile at hholds hholds'
  rw [← or_assoc] at hholds hholds'
  rcases hholds' with hroot | ⟨rest, hrest⟩
  · rcases hholds with hother | ⟨rest, hrest⟩
    · rw [htop root hroot, htop other hother]
    · exact absurd hrest (ne_of_repository_root hroot)
  · rcases hholds with hother | ⟨rest', hrest'⟩
    · exact absurd hrest (ne_of_repository_root hother)
    · have hsize := congrArg String.utf8ByteSize hrest
      have hsize' := congrArg String.utf8ByteSize hrest'
      have hslash : "/".utf8ByteSize = 1 := by decide
      simp only [String.utf8ByteSize_append] at hsize hsize'
      omega

end CrateRoots

section Binding

variable {rustCrateRoots : IterMap String String} {files : List String} {site : RustUseSite}
variable {repoUid targetKey hit : String}

def PlacedAt (site : RustUseSite) (root rel : String) : Prop :=
  site.sourcePath = s!"{rustSrcPrefix root}/{rel}.rs"

def RustUseSite.module (site : RustUseSite) (rel : String) : List String :=
  moduleOfFile rel ++ site.inlineModulePath

/-- What a binding may say: the file is that of the longest existing prefix of the module path, under the `src` of
the innermost crate around the importing file, and another file. -/
def BindsModule (rustCrateRoots : IterMap String String) (files : List String) (site : RustUseSite)
    (targetKey file : String) : Prop :=
  ∃ root rel, InnermostRoot rustCrateRoots site.sourcePath root ∧ PlacedAt site root rel ∧
    startsWith file s!"{rustSrcPrefix root}/" ∧
    NamesModule files site (rustSrcPrefix root) (site.module rel) (splitStr targetKey "::") file ∧
    file ≠ site.sourcePath

def BindingSound (rustCrateRoots : IterMap String String) (files : List String)
    (repoUid : String) (site : RustUseSite) (targetKey : String) : Prop :=
  ∀ hit, resolveRustEnclosingModuleImport targetKey site rustCrateRoots
    (buildFileResolutionMap files repoUid) repoUid =
    some hit → ∃ file, hit = fileKey repoUid file ∧ BindsModule rustCrateRoots files site targetKey file

/-- No probe before the first file is the other name of a file, and a `super` behind the head does not matter: the
path that keeps it as a name reaches no file, the importing file, or the file of the path that follows it. -/
def ReadsModule (rustCrateRoots : IterMap String String) (files : List String) (site : RustUseSite)
    (targetKey : String) : Prop :=
  ∀ root rel written, InnermostRoot rustCrateRoots site.sourcePath root → PlacedAt site root rel →
    startsWith (rel ++ ".rs") "bin/" = false →
    Written site rustCrateRoots files (rustSrcPrefix root) (site.module rel) (splitStr targetKey "::") written →
      NoStandIn files (rustModuleProbes (rustSrcPrefix root) written) ∧
        (LateSuper (splitStr targetKey "::") →
          ∀ n file, LongestModule files (rustSrcPrefix root) written n file → file = site.sourcePath ∨
            NamesModule files site (rustSrcPrefix root) (site.module rel) (splitStr targetKey "::") file)

lemma resolveRustEnclosingModuleImport_eq_some :
    resolveRustEnclosingModuleImport targetKey site rustCrateRoots (buildFileResolutionMap files repoUid) repoUid =
        some hit ↔
      ∃ root rel written, enclosingCrateRoot rustCrateRoots site.sourcePath = some root ∧ PlacedAt site root rel ∧
        startsWith (rel ++ ".rs") "bin/" = false ∧
        Written site rustCrateRoots files (rustSrcPrefix root) (site.module rel)
          (splitStr targetKey "::") written ∧
        (rustModuleProbes (rustSrcPrefix root) written).findSome? (lookupProbe files repoUid) = some hit ∧
        hit ≠ fileKey repoUid site.sourcePath := by
  unfold resolveRustEnclosingModuleImport PlacedAt
  constructor
  · intro h
    obtain ⟨root, hroot, h⟩ := Option.bind_eq_some_iff.mp h
    dsimp only at h
    obtain ⟨tail, htail, h⟩ := Option.bind_eq_some_iff.mp h
    split at h
    · simp at h
    rename_i hbin
    obtain ⟨rel, hrel, h⟩ := Option.bind_eq_some_iff.mp h
    obtain ⟨written, hwritten, h⟩ := Option.bind_eq_some_iff.mp h
    obtain ⟨found, hladder, h⟩ := Option.bind_eq_some_iff.mp h
    split at h
    · simp at h
    rename_i hself
    obtain rfl := Option.some.inj h
    obtain rfl := stripSuffix_eq_some.mp hrel
    refine ⟨root, rel, written, hroot, ?_, by simpa using hbin, useSegments_eq_some.mp hwritten, hladder, hself⟩
    rw [stripPrefix_eq_some.mp htail, ← String.append_assoc]
    rfl
  · rintro ⟨root, rel, written, hroot, hplaced, hbin, hwritten, hladder, hself⟩
    have htail : stripPrefix site.sourcePath s!"{rustSrcPrefix root}/" = some (rel ++ ".rs") := by
      apply stripPrefix_eq_some.mpr
      rw [hplaced, ← String.append_assoc]
      rfl
    apply Option.bind_eq_some_iff.mpr
    refine ⟨root, hroot, ?_⟩
    dsimp only
    rw [htail, Option.bind_some, hbin, if_neg Bool.false_ne_true, stripSuffix_eq_some.mpr rfl, Option.bind_some]
    apply Option.bind_eq_some_iff.mpr
    refine ⟨written, useSegments_eq_some.mpr hwritten, ?_⟩
    apply Option.bind_eq_some_iff.mpr
    refine ⟨hit, hladder, ?_⟩
    rw [if_neg hself]

lemma PlacedAt.rel_unique {root other rel rel' : String} (h : PlacedAt site root rel)
    (h' : PlacedAt site other rel') (hsrc : rustSrcPrefix root = rustSrcPrefix other) : rel = rel' := by
  have heq : rustSrcPrefix root ++ "/" ++ rel ++ ".rs" = rustSrcPrefix root ++ "/" ++ rel' ++ ".rs" := by
    calc _ = site.sourcePath := h.symm
      _ = rustSrcPrefix other ++ "/" ++ rel' ++ ".rs" := h'
      _ = _ := by rw [hsrc]
  exact append_left_unique (append_right_unique heq)

lemma PlacedAt.endsWith_rs {root rel : String} (h : PlacedAt site root rel) : endsWith site.sourcePath ".rs" :=
  endsWith_iff.mpr ⟨_, h⟩

lemma bindingSound_of_readsModule (h : ReadsModule rustCrateRoots files site targetKey) :
    BindingSound rustCrateRoots files repoUid site targetKey := by
  intro hit hresolve
  obtain ⟨root, rel, written, hroot, hplaced, hbin, hwritten, hladder, hself⟩ :=
    resolveRustEnclosingModuleImport_eq_some.mp hresolve
  have hinner := enclosingCrateRoot_innermost hroot
  obtain ⟨hstand, hlate⟩ := h root rel written hinner hplaced hbin hwritten
  rw [ladder_of_noStandIn hstand, Option.map_eq_some_iff] at hladder
  obtain ⟨file, hfind, rfl⟩ := hladder
  obtain ⟨n, hlongest⟩ := find?_rustModuleProbes.mp hfind
  have hother : file ≠ site.sourcePath := fun heq => hself (by rw [heq])
  refine ⟨file, rfl, root, rel, hinner, hplaced, startsWith_of_mem_moduleFiles hlongest.mem.2, ?_, hother⟩
  by_cases hsuper : LateSuper (splitStr targetKey "::")
  · exact (hlate hsuper n file hlongest).resolve_left hother
  · exact hwritten.namesModule hsuper hstand hlongest

lemma bindsModule_of_ladder {root rel file : String} {written : List String}
    (hsound : BindingSound rustCrateRoots files repoUid site targetKey)
    (hinner : InnermostRoot rustCrateRoots site.sourcePath root) (hplaced : PlacedAt site root rel)
    (hbin : startsWith (rel ++ ".rs") "bin/" = false)
    (hwritten : Written site rustCrateRoots files (rustSrcPrefix root) (site.module rel)
      (splitStr targetKey "::") written)
    (hladder : (rustModuleProbes (rustSrcPrefix root) written).findSome? (lookupProbe files repoUid) =
      some (fileKey repoUid file))
    (hother : file ≠ site.sourcePath) : BindsModule rustCrateRoots files site targetKey file := by
  obtain ⟨found, hfound⟩ := hinner.exists_enclosing
  have hsrc := hinner.rustSrcPrefix_unique (enclosingCrateRoot_innermost hfound)
  have hplaced' : PlacedAt site found rel := by
    unfold PlacedAt
    rw [← hsrc]
    exact hplaced
  rw [hsrc] at hwritten hladder
  have hkey : fileKey repoUid file ≠ fileKey repoUid site.sourcePath := (fileKey_injective repoUid).ne hother
  obtain ⟨file', heq, hbinds⟩ := hsound _ (resolveRustEnclosingModuleImport_eq_some.mpr
    ⟨found, rel, written, hfound, hplaced', hbin, hwritten, hladder, hkey⟩)
  rwa [fileKey_injective repoUid heq]

lemma bindingSound_of_leading_supers (hlate : ¬ LateSuper (splitStr targetKey "::"))
    (hnames : ∀ path, endsWith path ".rs" → ¬ StandIn files path) :
    BindingSound rustCrateRoots files repoUid site targetKey := by
  apply bindingSound_of_readsModule
  intro root rel written _ _ _ _
  refine ⟨?_, fun h => absurd h hlate⟩
  intro before probe after hsplit _
  have hmem : probe ∈ rustModuleProbes (rustSrcPrefix root) written := by
    rw [hsplit]
    exact List.mem_append_right _ List.mem_cons_self
  rw [rustModuleProbes_eq] at hmem
  obtain ⟨n, -, hprobe⟩ := List.mem_flatMap.mp hmem
  exact hnames probe (endsWith_of_mem_moduleFiles hprobe)

/-- The stage binds a `use` to the file of the module that it names just when it reads the path rightly. -/
theorem rust_use_binding_sound_iff (rustCrateRoots : IterMap String String)
    (files : List String) (repoUid : String) (site : RustUseSite) (targetKey : String) :
    BindingSound rustCrateRoots files repoUid site targetKey ↔
      ReadsModule rustCrateRoots files site targetKey := by
  refine ⟨?_, bindingSound_of_readsModule⟩
  intro hsound root rel written hinner hplaced hbin hwritten
  have hstand : NoStandIn files (rustModuleProbes (rustSrcPrefix root) written) := by
    by_contra hstand
    obtain ⟨file, hladder, hends⟩ := @ladder_of_standIn repoUid _ _ hstand
    have hother : file ≠ site.sourcePath := by
      rintro rfl
      exact hends hplaced.endsWith_rs
    obtain ⟨root', rel', -, -, -, ⟨start, names, floor, path, n, -, -, hlongest, -⟩, -⟩ :=
      bindsModule_of_ladder hsound hinner hplaced hbin hwritten hladder hother
    exact hends (endsWith_of_mem_moduleFiles hlongest.mem.2)
  refine ⟨hstand, ?_⟩
  intro hlate n file hlongest
  by_cases hself : file = site.sourcePath
  · exact Or.inl hself
  have hladder : (rustModuleProbes (rustSrcPrefix root) written).findSome? (lookupProbe files repoUid) =
      some (fileKey repoUid file) := by
    rw [ladder_of_noStandIn hstand, find?_rustModuleProbes.mpr ⟨n, hlongest⟩, Option.map_some]
  obtain ⟨root', rel', hinner', hplaced', -, hnames, -⟩ :=
    bindsModule_of_ladder hsound hinner hplaced hbin hwritten hladder hself
  have hsrc := hinner.rustSrcPrefix_unique hinner'
  rw [← hsrc, ← hplaced.rel_unique hplaced' hsrc] at hnames
  exact Or.inr hnames

def selfSuperSite : RustUseSite := ⟨"src/main.rs", [], none⟩

/-- There is no module above the root, and the stage binds the path to `lib.rs`. -/
theorem self_super_binds_above_root :
    ¬ ∀ rustCrateRoots files repoUid site targetKey, BindingSound rustCrateRoots files repoUid site targetKey := by
  intro h
  have hresolve : resolveRustEnclosingModuleImport "self::super::x" selfSuperSite (.ofPairs [("demo", ".")])
      (buildFileResolutionMap ["src/lib.rs", "src/main.rs", "src/x.rs"] "repo") "repo" =
      some "repo:src/lib.rs:FILE" := by decide +kernel
  obtain ⟨file, -, root, rel, hinner, hplaced, -, ⟨start, names, floor, path, n, hhead, hwalk, -⟩, -⟩ :=
    h _ _ _ _ _ _ hresolve
  obtain ⟨name, hname⟩ := hinner.declared
  have hroot : root = "." := by
    rw [IterMap.lookup_ofPairs_eq_some (by simp)] at hname
    simpa using (Prod.mk.inj (List.mem_singleton.mp hname)).2
  subst hroot
  have hmain : PlacedAt selfSuperSite "." "main" := by
    unfold PlacedAt
    decide +kernel
  rw [hplaced.rel_unique hmain rfl] at hhead
  have hmodule : selfSuperSite.module "main" = [] := by decide +kernel
  have hsplit : splitStr "self::super::x" "::" = ["self", "super", "x"] := by decide +kernel
  rw [hmodule, hsplit] at hhead
  generalize hparts : ["self", "super", "x"] = parts at hhead
  cases hhead with
  | crate rest => simp at hparts
  | self rest =>
    obtain ⟨-, rfl⟩ := List.cons.inj hparts
    rw [walk_iff_foldl_checked] at hwalk
    simp [checked, useMove] at hwalk
  | super rest => simp at hparts
  | sibling rest hheads _ =>
    obtain ⟨rfl, -⟩ := List.cons.inj hparts
    exact hheads (by decide)

end Binding

end RepoGraph.Indexer
