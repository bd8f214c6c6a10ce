import RepoGraph.ImportResolver
import RepoGraph.Lib.PathWalk
import RepoGraph.Lib.TextLaws
import RepoGraph.Lib.Folds

/-! The files that relative specifiers name by the extension and index rules, and what the resolver
reports of them: it reads a specifier that climbs above the repository root as if it stayed there. -/

namespace RepoGraph.ImportResolver

open Lib Lib.Text Lib.PathWalk

def probeExtensions : List String := [".ts", ".tsx", ".d.ts", ".mts", ".cts"]

def indexNames : List String := ["index.ts", "index.tsx"]

def outputExtensions : List (String × String) :=
  [(".js", ".ts"), (".js", ".tsx"), (".jsx", ".tsx"), (".mjs", ".mts"), (".cjs", ".cts")]

inductive Probe (base : String) : String → Prop
  | extension {ext : String} : ext ∈ probeExtensions → Probe base (base ++ ext)
  | index {name : String} : name ∈ indexNames → Probe base (base ++ "/" ++ name)
  | source {stem out src : String} : base = stem ++ out → (out, src) ∈ outputExtensions → Probe base (stem ++ src)

section Candidates

variable {base stem out src path : String}

lemma out_unique {stem' out' src' : String} (h : stem ++ out = stem' ++ out')
    (hout : (out, src) ∈ outputExtensions) (hout' : (out', src') ∈ outputExtensions) : out = out' := by
  have hends : out.toList <:+ (stem ++ out).toList := by simp
  have hends' : out'.toList <:+ (stem ++ out).toList := by
    rw [h]
    simp
  have hsuffix := List.suffix_or_suffix_of_suffix hends hends'
  have htable : ∀ p ∈ outputExtensions, ∀ q ∈ outputExtensions, p.1.toList.isSuffixOf q.1.toList → p.1 = q.1 := by
    decide
  rcases hsuffix with hs | hs
  · exact htable _ hout _ hout' (List.isSuffixOf_iff_suffix.mpr hs)
  · exact (htable _ hout' _ hout (List.isSuffixOf_iff_suffix.mpr hs)).symm

lemma sourceSubstitutions_of_out (hbase : base = stem ++ out) (hout : (out, src) ∈ outputExtensions) :
    sourceSubstitutions base = (outputExtensions.filter (·.1 = out)).map (stem ++ ·.2) := by
  have hnone : ∀ out' src', (out', src') ∈ outputExtensions → out' ≠ out → stripSuffix base out' = none := by
    intro out' src' hout' hne
    rw [Option.eq_none_iff_forall_ne_some]
    intro stem' hstem
    rw [Ne, stripSuffix_eq_some] at *
    exact hne (out_unique (hstem.symm.trans hbase) hout' hout)
  have hsome : stripSuffix base out = some stem := stripSuffix_eq_some.mpr hbase
  unfold sourceSubstitutions
  fin_cases hout
  · rw [hsome]
    rfl
  · rw [hsome]
    rfl
  · rw [hnone ".js" ".ts" (by decide) (by decide), hsome]
    rfl
  · rw [hnone ".js" ".ts" (by decide) (by decide), hnone ".jsx" ".tsx" (by decide) (by decide), hsome]
    rfl
  · rw [hnone ".js" ".ts" (by decide) (by decide), hnone ".jsx" ".tsx" (by decide) (by decide),
      hnone ".mjs" ".mts" (by decide) (by decide), hsome]
    rfl

lemma sourceSubstitutions_eq_nil (h : ∀ stem, ∀ p ∈ outputExtensions, base ≠ stem ++ p.1) :
    sourceSubstitutions base = [] := by
  have hnone : ∀ p ∈ outputExtensions, stripSuffix base p.1 = none := by
    intro p hp
    rw [Option.eq_none_iff_forall_ne_some]
    intro stem hstem
    exact h stem p hp (stripSuffix_eq_some.mp hstem)
  unfold sourceSubstitutions
  rw [hnone (".js", ".ts") (by decide), hnone (".jsx", ".tsx") (by decide), hnone (".mjs", ".mts") (by decide),
    hnone (".cjs", ".cts") (by decide)]

lemma mem_sourceSubstitutions :
    path ∈ sourceSubstitutions base ↔
      ∃ stem out src, base = stem ++ out ∧ (out, src) ∈ outputExtensions ∧ path = stem ++ src := by
  by_cases h : ∃ stem, ∃ p ∈ outputExtensions, base = stem ++ p.1
  · obtain ⟨stem, ⟨out, src⟩, hp, hbase⟩ := h
    rw [sourceSubstitutions_of_out hbase hp]
    simp only [List.mem_map, List.mem_filter, decide_eq_true_eq]
    constructor
    · rintro ⟨⟨out', src'⟩, ⟨hmem, rfl⟩, rfl⟩
      exact ⟨stem, out', src', hbase, hmem, rfl⟩
    · rintro ⟨stem', out', src', hbase', hmem, rfl⟩
      obtain rfl := out_unique (hbase.symm.trans hbase') hp hmem
      obtain rfl := append_right_unique (hbase.symm.trans hbase')
      exact ⟨(out, src'), ⟨hmem, rfl⟩, rfl⟩
  · push Not at h
    rw [sourceSubstitutions_eq_nil h]
    constructor
    · simp
    · rintro ⟨stem, out, src, hbase, hp, -⟩
      exact absurd hbase (h stem (out, src) hp)

lemma candidatePaths_eq (base : String) :
    candidatePaths base =
      (probeExtensions ++ indexNames.map ("/" ++ ·)).map (base ++ ·) ++ sourceSubstitutions base := rfl

theorem mem_candidatePaths : path ∈ candidatePaths base ↔ Probe base path := by
  rw [candidatePaths_eq, List.mem_append, mem_sourceSubstitutions, List.map_append, List.mem_append, List.map_map]
  constructor
  · rintro ((h | h) | ⟨stem, out, src, hbase, hp, rfl⟩)
    · obtain ⟨ext, hext, rfl⟩ := List.mem_map.mp h
      exact .extension hext
    · obtain ⟨name, hname, rfl⟩ := List.mem_map.mp h
      rw [Function.comp_apply, ← String.append_assoc]
      exact .index hname
    · exact .source hbase hp
  · intro h
    cases h with
    | extension hext => exact Or.inl (Or.inl (List.mem_map_of_mem hext))
    | @index name hname =>
      refine Or.inl (Or.inr (List.mem_map.mpr ⟨name, hname, ?_⟩))
      rw [Function.comp_apply, String.append_assoc]
    | source hbase hp => exact Or.inr ⟨_, _, _, hbase, hp, rfl⟩

lemma nodup_sourceSubstitutions (base : String) : (sourceSubstitutions base).Nodup := by
  by_cases h : ∃ stem, ∃ p ∈ outputExtensions, base = stem ++ p.1
  · obtain ⟨stem, ⟨out, src⟩, hp, hbase⟩ := h
    rw [sourceSubstitutions_of_out hbase hp]
    have hsrcs : ((outputExtensions.filter (·.1 = out)).map Prod.snd).Nodup := by
      fin_cases hp <;> decide
    have hinj : Function.Injective (stem ++ ·) := fun a b => append_left_unique
    have hmap := hsrcs.map hinj
    rw [List.map_map] at hmap
    exact hmap
  · push Not at h
    rw [sourceSubstitutions_eq_nil h]
    exact List.nodup_nil

theorem nodup_candidatePaths (base : String) : (candidatePaths base).Nodup := by
  rw [candidatePaths_eq, List.nodup_append]
  refine ⟨?_, nodup_sourceSubstitutions base, ?_⟩
  · apply List.Nodup.map
    · exact fun a b => append_left_unique
    · decide
  · intro path hpath path' hpath' heq
    obtain ⟨ext, hext, rfl⟩ := List.mem_map.mp hpath
    obtain ⟨stem, out, src, rfl, hp, hstem⟩ := mem_sourceSubstitutions.mp hpath'
    rw [← heq, String.append_assoc] at hstem
    have hlength : ∀ p ∈ outputExtensions, ∀ ext ∈ probeExtensions ++ indexNames.map ("/" ++ ·),
        p.1 ++ ext ≠ p.2 := by
      decide
    exact hlength _ hp ext hext (append_left_unique hstem)

end Candidates

section Selection

def Indexed (inv : FileInventory) (path : String) : Prop := (inv.fileKeyFor path).isSome

def Literal (inv : FileInventory) (base : String) : Prop := baseEndsWithSourceExtension base ∧ Indexed inv base

/-- A base that is itself an indexed source file is selected; otherwise the only indexed file that is
admitted. -/
def Selects (inv : FileInventory) (base : String) (admits : String → Prop) (path : String) : Prop :=
  Literal inv base ∧ path = base ∨
    ¬ Literal inv base ∧ Indexed inv path ∧ admits path ∧ ∀ other, admits other → Indexed inv other → other = path

variable {inv : FileInventory} {base path key : String} {admits : String → Prop}

lemma Selects.indexed (h : Selects inv base admits path) : Indexed inv path := by
  rcases h with ⟨hliteral, rfl⟩ | ⟨-, hindexed, -⟩
  · exact hliteral.2
  · exact hindexed

lemma Selects.congr {admits' : String → Prop} (h : ∀ path, admits path ↔ admits' path) :
    Selects inv base admits path ↔ Selects inv base admits' path := by
  simp only [Selects, h]

def hitsOf (inv : FileInventory) (paths : List String) : List (String × String) :=
  paths.filterMap fun path => (inv.fileKeyFor path).map fun key => (path, key)

lemma mem_hitsOf {paths : List String} : (path, key) ∈ hitsOf inv paths ↔ path ∈ paths ∧
    inv.fileKeyFor path = some key := by
  unfold hitsOf
  rw [List.mem_filterMap]
  constructor
  · rintro ⟨path', hpath', hmap⟩
    obtain ⟨key', hkey', heq⟩ := Option.map_eq_some_iff.mp hmap
    obtain ⟨rfl, rfl⟩ := Prod.mk.inj heq
    exact ⟨hpath', hkey'⟩
  · rintro ⟨hpath, hkey⟩
    exact ⟨path, hpath, by rw [hkey]; rfl⟩

lemma nodup_hitsOf {paths : List String} (h : paths.Nodup) : (hitsOf inv paths).Nodup := by
  apply h.filterMap
  intro a b hit ha hb
  obtain ⟨_, -, rfl⟩ := Option.map_eq_some_iff.mp (Option.mem_def.mp ha)
  obtain ⟨_, -, heq⟩ := Option.map_eq_some_iff.mp (Option.mem_def.mp hb)
  exact (Prod.mk.inj heq).1.symm

lemma uniqueMatch_eq_ok {paths : List String} (hnodup : paths.Nodup) :
    uniqueMatch inv paths = .ok (path, key) ↔
      inv.fileKeyFor path = some key ∧ path ∈ paths ∧ ∀ other ∈ paths, Indexed inv other → other = path := by
  trans hitsOf inv paths = [(path, key)]
  · unfold uniqueMatch hitsOf
    generalize paths.filterMap _ = hits
    match hits with
    | [] => simp
    | [hit] => simp
    | _ :: _ :: _ => simp
  · rw [eq_singleton_iff_of_nodup (nodup_hitsOf hnodup)]
    constructor
    · intro h
      obtain ⟨hpath, hkey⟩ := mem_hitsOf.mp ((h (path, key)).mpr rfl)
      refine ⟨hkey, hpath, fun other hother hindexed => ?_⟩
      obtain ⟨key', hkey'⟩ := Option.isSome_iff_exists.mp hindexed
      have heq := (h (other, key')).mp (mem_hitsOf.mpr ⟨hother, hkey'⟩)
      exact (Prod.mk.inj heq).1
    · rintro ⟨hkey, hpath, honly⟩ ⟨other, key'⟩
      constructor
      · intro hhit
        obtain ⟨hother, hkey'⟩ := mem_hitsOf.mp hhit
        obtain rfl := honly other hother (Option.isSome_iff_exists.mpr ⟨_, hkey'⟩)
        obtain rfl := Option.some.inj (hkey'.symm.trans hkey)
        rfl
      · intro heq
        obtain ⟨rfl, rfl⟩ := Prod.mk.inj heq
        exact mem_hitsOf.mpr ⟨hpath, hkey⟩

def selected (inv : FileInventory) (base : String) : Except UnresolvedReason (String × String) :=
  match (if baseEndsWithSourceExtension base then inv.fileKeyFor base else none) with
  | some key => .ok (base, key)
  | none => uniqueMatch inv (candidatePaths base)

lemma selected_eq_ok :
    selected inv base = .ok (path, key) ↔ Selects inv base (Probe base) path ∧ inv.fileKeyFor path = some key := by
  unfold selected Selects
  split
  · rename_i key' hkey'
    obtain ⟨hends, hfound⟩ : baseEndsWithSourceExtension base ∧ inv.fileKeyFor base = some key' := by
      split at hkey'
      · exact ⟨‹_›, hkey'⟩
      · simp at hkey'
    have hliteral : Literal inv base := ⟨hends, Option.isSome_iff_exists.mpr ⟨_, hfound⟩⟩
    constructor
    · intro h
      obtain ⟨rfl, rfl⟩ := Prod.mk.inj (Except.ok.inj h)
      exact ⟨Or.inl ⟨hliteral, rfl⟩, hfound⟩
    · rintro ⟨⟨-, rfl⟩ | ⟨hnot, -⟩, hkey⟩
      · rw [Option.some.inj (hfound.symm.trans hkey)]
      · exact absurd hliteral hnot
  · rename_i hnone
    have hliteral : ¬ Literal inv base := by
      rintro ⟨hends, hfound⟩
      rw [if_pos hends] at hnone
      rw [Indexed, hnone] at hfound
      simp at hfound
    rw [uniqueMatch_eq_ok (nodup_candidatePaths base)]
    simp only [mem_candidatePaths, hliteral, false_and, false_or, not_false_eq_true, true_and]
    constructor
    · rintro ⟨hkey, hprobe, honly⟩
      exact ⟨⟨Option.isSome_iff_exists.mpr ⟨_, hkey⟩, hprobe, honly⟩, hkey⟩
    · rintro ⟨⟨-, hprobe, honly⟩, hkey⟩
      exact ⟨hkey, hprobe, honly⟩

end Selection

section Specifiers

/-- The files that a place of the repository names; its root has no name that the rules could extend, so it
names its index files only. -/
inductive Admits : List String → String → Prop
  | probe {target : List String} {path : String} : target ≠ [] → Probe (join "/" target) path → Admits target path
  | rootIndex {name : String} : name ∈ indexNames → Admits [] name

def directory (path : String) : List String := if dirname path = "" then [] else split (dirname path) '/'

def segments (cand : ImportCandidate) : List String := split cand.rawSpecifier '/'

def IsRelative (cand : ImportCandidate) (srcPath : String) : Prop :=
  startsWith cand.rawSpecifier "." ∧ fileKeyPath cand.sourceFileKey = some srcPath

def Leads (cand : ImportCandidate) (srcPath : String) (target : List String) : Prop :=
  Walk fileMove (directory srcPath) (segments cand) target

def ClimbsOut (cand : ImportCandidate) (srcPath : String) : Prop :=
  Climbs fileMove (directory srcPath) (segments cand)

/-- The specifier names one file: it leads to a place of the repository that selects it. -/
def Names (inv : FileInventory) (cand : ImportCandidate) (path : String) : Prop :=
  ∃ srcPath target, IsRelative cand srcPath ∧ Leads cand srcPath target ∧
    Selects inv (join "/" target) (Admits target) path

/-- The base of a specifier read as if it stayed at the root where it climbs above it. -/
def clampedBase (cand : ImportCandidate) (srcPath : String) : String :=
  join "/" ((segments cand).foldl (clamped fileMove) (directory srcPath))

variable {inv : FileInventory} {cand : ImportCandidate} {srcPath path key : String} {target : List String}

lemma IsRelative.unique {srcPath' : String} (h : IsRelative cand srcPath) (h' : IsRelative cand srcPath') :
    srcPath = srcPath' := Option.some.inj (h.2.symm.trans h'.2)

lemma normalizeJoin_dirname (cand : ImportCandidate) (srcPath : String) :
    normalizeJoin (dirname srcPath) cand.rawSpecifier = clampedBase cand srcPath := by
  have hstep : pushSegment = clamped fileMove := by
    funext parts seg
    rw [clamped_fileMove]
    rfl
  unfold normalizeJoin clampedBase directory segments
  rw [hstep]

lemma Leads.clampedBase (h : Leads cand srcPath target) : clampedBase cand srcPath = join "/" target := by
  unfold ImportResolver.clampedBase
  rw [Walk.foldl_clamped h]

lemma resolveTarget_eq_selected (h : IsRelative cand srcPath) :
    resolveTarget inv cand = selected inv (clampedBase cand srcPath) := by
  have hrelative : ¬ (!startsWith cand.rawSpecifier ".") = true := by simp [h.1]
  cases hliteral : (if baseEndsWithSourceExtension (clampedBase cand srcPath) then
      inv.fileKeyFor (clampedBase cand srcPath) else none) with
  | none => simp only [resolveTarget, selected, if_neg hrelative, h.2, normalizeJoin_dirname, hliteral]
  | some key => simp only [resolveTarget, selected, if_neg hrelative, h.2, normalizeJoin_dirname, hliteral]

lemma isRelative_of_resolveTarget {hit : String × String} (h : resolveTarget inv cand = .ok hit) :
    ∃ srcPath, IsRelative cand srcPath := by
  unfold resolveTarget at h
  split at h
  · simp at h
  · rename_i hdot
    cases hsrc : fileKeyPath cand.sourceFileKey with
    | none => simp [hsrc] at h
    | some srcPath => exact ⟨srcPath, by simpa using hdot, hsrc⟩

/-- What the resolver reads is the clamped base, by the rules alone. -/
theorem resolveTarget_eq_ok :
    resolveTarget inv cand = .ok (path, key) ↔
      inv.fileKeyFor path = some key ∧ ∃ srcPath, IsRelative cand srcPath ∧
        Selects inv (clampedBase cand srcPath) (Probe (clampedBase cand srcPath)) path := by
  constructor
  · intro h
    obtain ⟨srcPath, hsrc⟩ := isRelative_of_resolveTarget h
    rw [resolveTarget_eq_selected hsrc] at h
    obtain ⟨hselects, hkey⟩ := selected_eq_ok.mp h
    exact ⟨hkey, srcPath, hsrc, hselects⟩
  · rintro ⟨hkey, srcPath, hsrc, hselects⟩
    rw [resolveTarget_eq_selected hsrc]
    exact selected_eq_ok.mpr ⟨hselects, hkey⟩

lemma admits_iff_of_ne_nil (h : target ≠ []) : Admits target path ↔ Probe (join "/" target) path := by
  constructor
  · intro hadmits
    cases hadmits with
    | probe _ hprobe => exact hprobe
    | rootIndex => exact absurd rfl h
  · exact .probe h

lemma admits_root : Admits [] path ↔ path ∈ indexNames := by
  constructor
  · intro hadmits
    cases hadmits with
    | probe h => exact absurd rfl h
    | rootIndex hname => exact hname
  · exact .rootIndex

lemma not_probe_root (h : path ∈ indexNames) : ¬ Probe "" path := by
  rw [← mem_candidatePaths]
  have hnone : ∀ name ∈ indexNames, name ∉ candidatePaths "" := by decide
  exact hnone path h

lemma not_literal_root : ¬ Literal inv "" := by
  rintro ⟨hends, -⟩
  revert hends
  decide

end Specifiers

section Report

def ResolvedImportEdgeCandidate.candidate (edge : ResolvedImportEdgeCandidate) : ImportCandidate :=
  ⟨edge.srcFileKey, edge.rawSpecifier⟩

def Resolves (report : ImportResolutionReport) (cand : ImportCandidate) (path : String) : Prop :=
  ∃ edge ∈ report.resolved, edge.candidate = cand ∧ edge.resolvedRepoPath = path

structure ReportExact (inv : FileInventory) (cands : List ImportCandidate) (report : ImportResolutionReport) :
    Prop where
  partition : (report.resolved.map (·.candidate) ++ report.unresolved.map (·.candidate)).Perm cands
  exclusive : ∀ cand ∈ report.resolved.map (·.candidate), cand ∉ report.unresolved.map (·.candidate)
  keyed : ∀ edge ∈ report.resolved, inv.fileKeyFor edge.resolvedRepoPath = some edge.dstFileKey
  exact : ∀ cand ∈ cands, ∀ path, Resolves report cand path ↔ Names inv cand path
  inside : ∀ cand ∈ cands, ∀ srcPath, IsRelative cand srcPath → ClimbsOut cand srcPath →
    ∀ path, ¬ Resolves report cand path

/-- Where a specifier climbs above the root, the rules select nothing for its clamped base; where it leads to
the root itself, they select nothing for an empty name and there is not exactly one index file. -/
def ReadsAsWritten (inv : FileInventory) (cand : ImportCandidate) : Prop :=
  ∀ srcPath, IsRelative cand srcPath →
    (ClimbsOut cand srcPath →
      ∀ path, ¬ Selects inv (clampedBase cand srcPath) (Probe (clampedBase cand srcPath)) path) ∧
    (Leads cand srcPath [] → ∀ path, ¬ Selects inv "" (Probe "") path ∧ ¬ Selects inv "" (Admits []) path)

variable {inv : FileInventory} {cand : ImportCandidate} {cands : List ImportCandidate} {path : String}

def edgeOf (inv : FileInventory) (cand : ImportCandidate) : Option ResolvedImportEdgeCandidate :=
  match resolveTarget inv cand with
  | .ok (path, key) =>
    some ⟨cand.sourceFileKey, key, .astImportFileInventoryResolved, cand.rawSpecifier, path⟩
  | .error _ => none

def failureOf (inv : FileInventory) (cand : ImportCandidate) : Option UnresolvedImport :=
  match resolveTarget inv cand with
  | .ok _ => none
  | .error reason => some ⟨cand, reason⟩

lemma foldl_resolveImport (report : ImportResolutionReport) (cands : List ImportCandidate) :
    cands.foldl (resolveImport inv) report =
      ⟨report.resolved ++ cands.filterMap (edgeOf inv), report.unresolved ++ cands.filterMap (failureOf inv)⟩ := by
  induction cands generalizing report with
  | nil => simp
  | cons cand cands ih =>
    rw [List.foldl_cons, ih, resolveImport, List.filterMap_cons, List.filterMap_cons, edgeOf, failureOf]
    cases resolveTarget inv cand with
    | error reason => simp
    | ok hit => simp

lemma resolveImports_eq (inv : FileInventory) (cands : List ImportCandidate) :
    resolveImports inv cands = ⟨cands.filterMap (edgeOf inv), cands.filterMap (failureOf inv)⟩ := by
  rw [resolveImports, foldl_resolveImport]
  rfl

lemma edgeOf_candidate {edge : ResolvedImportEdgeCandidate} (h : edgeOf inv cand = some edge) :
    edge.candidate = cand ∧ resolveTarget inv cand = .ok (edge.resolvedRepoPath, edge.dstFileKey) := by
  unfold edgeOf at h
  split at h
  · rename_i htarget
    obtain rfl := Option.some.inj h
    exact ⟨rfl, htarget⟩
  · simp at h

lemma map_candidate_resolved (inv : FileInventory) (cands : List ImportCandidate) :
    (resolveImports inv cands).resolved.map (·.candidate) = cands.filter fun cand =>
      (resolveTarget inv cand).isOk := by
  rw [resolveImports_eq, List.map_filterMap, ← List.filterMap_eq_filter]
  congr 1
  funext cand
  unfold edgeOf
  cases htarget : resolveTarget inv cand <;> simp [htarget, Option.guard, Except.isOk, Except.toBool]
  rfl

lemma map_candidate_unresolved (inv : FileInventory) (cands : List ImportCandidate) :
    (resolveImports inv cands).unresolved.map (·.candidate) =
      cands.filter fun cand => !(resolveTarget inv cand).isOk := by
  rw [resolveImports_eq, List.map_filterMap, ← List.filterMap_eq_filter]
  congr 1
  funext cand
  unfold failureOf
  cases htarget : resolveTarget inv cand <;> simp [htarget, Option.guard, Except.isOk, Except.toBool]

lemma resolves_iff :
    Resolves (resolveImports inv cands) cand path ↔
      cand ∈ cands ∧ ∃ srcPath, IsRelative cand srcPath ∧
        Selects inv (clampedBase cand srcPath) (Probe (clampedBase cand srcPath)) path := by
  unfold Resolves
  rw [resolveImports_eq]
  simp only [List.mem_filterMap]
  constructor
  · rintro ⟨edge, ⟨cand', hmem, hedge⟩, hcand, rfl⟩
    obtain ⟨hcand', htarget⟩ := edgeOf_candidate hedge
    obtain rfl := hcand'.symm.trans hcand
    exact ⟨hmem, (resolveTarget_eq_ok.mp htarget).2⟩
  · rintro ⟨hmem, hselects⟩
    obtain ⟨srcPath, -, hpath⟩ := id hselects
    obtain ⟨key, hkey⟩ := Option.isSome_iff_exists.mp hpath.indexed
    have htarget := resolveTarget_eq_ok.mpr ⟨hkey, hselects⟩
    have hedge : edgeOf inv cand =
        some ⟨cand.sourceFileKey, key, .astImportFileInventoryResolved, cand.rawSpecifier, path⟩ := by
      rw [edgeOf, htarget]
    exact ⟨_, ⟨cand, hmem, hedge⟩, rfl, rfl⟩

def Reads (inv : FileInventory) (cand : ImportCandidate) (path : String) : Prop :=
  ∃ srcPath, IsRelative cand srcPath ∧
    Selects inv (clampedBase cand srcPath) (Probe (clampedBase cand srcPath)) path

lemma selects_clampedBase {srcPath : String} {target : List String} (h : Leads cand srcPath target)
    (hne : target ≠ []) :
    Selects inv (clampedBase cand srcPath) (Probe (clampedBase cand srcPath)) path ↔
      Selects inv (join "/" target) (Admits target) path := by
  rw [h.clampedBase]
  exact Selects.congr fun path => (admits_iff_of_ne_nil hne).symm

lemma clampedBase_root {srcPath : String} (h : Leads cand srcPath []) : clampedBase cand srcPath = "" := by
  rw [h.clampedBase]
  rfl

lemma ReadsAsWritten.reads_iff (h : ReadsAsWritten inv cand) : Reads inv cand path ↔ Names inv cand path := by
  constructor
  · rintro ⟨srcPath, hsrc, hselects⟩
    obtain ⟨hclimbs, hroot⟩ := h srcPath hsrc
    rcases climbs_or_walk fileMove (directory srcPath) (segments cand) with hout | ⟨target, hleads⟩
    · exact absurd hselects (hclimbs hout path)
    · refine ⟨srcPath, target, hsrc, hleads, ?_⟩
      rcases eq_or_ne target [] with rfl | hne
      · rw [clampedBase_root hleads] at hselects
        exact absurd hselects (hroot hleads path).1
      · exact (selects_clampedBase hleads hne).mp hselects
  · rintro ⟨srcPath, target, hsrc, hleads, hselects⟩
    refine ⟨srcPath, hsrc, ?_⟩
    rcases eq_or_ne target [] with rfl | hne
    · exact absurd hselects (((h srcPath hsrc).2 hleads) path).2
    · exact (selects_clampedBase hleads hne).mpr hselects

lemma not_selects_root_both (h : Selects inv "" (Probe "") path) : ¬ Selects inv "" (Admits []) path := by
  rintro (⟨hliteral, -⟩ | ⟨-, -, hadmits, -⟩)
  · exact not_literal_root hliteral
  · rcases h with ⟨hliteral, -⟩ | ⟨-, -, hprobe, -⟩
    · exact not_literal_root hliteral
    · exact not_probe_root (admits_root.mp hadmits) hprobe

lemma readsAsWritten_of_reads_iff (h : ∀ path, Reads inv cand path ↔ Names inv cand path) :
    ReadsAsWritten inv cand := by
  intro srcPath hsrc
  constructor
  · intro hout path hselects
    obtain ⟨srcPath', target, hsrc', hleads, -⟩ := (h path).mp ⟨srcPath, hsrc, hselects⟩
    obtain rfl := hsrc.unique hsrc'
    exact hout.not_walk hleads
  · intro hroot path
    have hreads : Reads inv cand path ↔ Selects inv "" (Probe "") path := by
      constructor
      · rintro ⟨srcPath', hsrc', hselects⟩
        obtain rfl := hsrc.unique hsrc'
        rwa [clampedBase_root hroot] at hselects
      · intro hselects
        exact ⟨srcPath, hsrc, by rwa [clampedBase_root hroot]⟩
    have hnames : Names inv cand path ↔ Selects inv "" (Admits []) path := by
      constructor
      · rintro ⟨srcPath', target, hsrc', hleads, hselects⟩
        obtain rfl := hsrc.unique hsrc'
        obtain rfl := Walk.unique hroot hleads
        exact hselects
      · intro hselects
        exact ⟨srcPath, [], hsrc, hroot, hselects⟩
    have hsame := hreads.symm.trans ((h path).trans hnames)
    exact ⟨fun hprobe => not_selects_root_both hprobe (hsame.mp hprobe),
      fun hadmits => not_selects_root_both (hsame.mpr hadmits) hadmits⟩

/-- The report is exact just when every candidate is read as its specifier is written. -/
theorem reportExact_iff (inv : FileInventory) (cands : List ImportCandidate) :
    ReportExact inv cands (resolveImports inv cands) ↔ ∀ cand ∈ cands, ReadsAsWritten inv cand := by
  constructor
  · intro h cand hcand
    apply readsAsWritten_of_reads_iff
    intro path
    rw [← h.exact cand hcand path, resolves_iff]
    exact (and_iff_right hcand).symm
  · intro h
    refine ⟨?_, ?_, ?_, ?_, ?_⟩
    · rw [map_candidate_resolved, map_candidate_unresolved]
      exact List.filter_append_perm _ _
    · intro cand hmem hmem'
      rw [map_candidate_resolved, List.mem_filter] at hmem
      rw [map_candidate_unresolved, List.mem_filter, hmem.2] at hmem'
      exact absurd hmem'.2 (by simp)
    · intro edge hedge
      rw [resolveImports_eq] at hedge
      obtain ⟨cand, -, hof⟩ := List.mem_filterMap.mp hedge
      exact (resolveTarget_eq_ok.mp (edgeOf_candidate hof).2).1
    · intro cand hcand path
      rw [resolves_iff, and_iff_right hcand]
      exact (h cand hcand).reads_iff
    · intro cand hcand srcPath hsrc hout path hresolves
      obtain ⟨-, srcPath', hsrc', hselects⟩ := resolves_iff.mp hresolves
      obtain rfl := hsrc.unique hsrc'
      exact (h cand hcand srcPath hsrc).1 hout path hselects

def twoRootFiles : FileInventory := .fromFileKeys ["r:x.ts:FILE", "r:a.ts:FILE"]

lemma indexed_twoRootFiles : Indexed twoRootFiles path ↔ path = "x.ts" ∨ path = "a.ts" := by
  have hx : fileKeyPath "r:x.ts:FILE" = some "x.ts" := by decide
  have ha : fileKeyPath "r:a.ts:FILE" = some "a.ts" := by decide
  unfold Indexed FileInventory.fileKeyFor twoRootFiles FileInventory.fromFileKeys
  simp only [List.foldl_cons, List.foldl_nil, FileInventory.addKey, hx, ha, getElem?_insert]
  split_ifs <;> simp_all [eq_comm]

/-- From the file `a.ts` at the root, `../x` is resolved to the file `x.ts`. -/
theorem climbing_specifier_resolves :
    ¬ ReportExact twoRootFiles [⟨"r:a.ts:FILE", "../x"⟩]
      (resolveImports twoRootFiles [⟨"r:a.ts:FILE", "../x"⟩]) := by
  intro h
  have hsrc : IsRelative ⟨"r:a.ts:FILE", "../x"⟩ "a.ts" := by
    constructor <;> decide
  have hout : ClimbsOut ⟨"r:a.ts:FILE", "../x"⟩ "a.ts" := by
    apply climbs_iff_foldl_checked.mpr
    decide
  have hselects : Selects twoRootFiles "x" (Probe "x") "x.ts" := by
    refine Or.inr ⟨?_, indexed_twoRootFiles.mpr (Or.inl rfl), .extension (by decide : ".ts" ∈ probeExtensions), ?_⟩
    · rintro ⟨hends, -⟩
      revert hends
      decide
    · intro other hprobe hindexed
      rcases indexed_twoRootFiles.mp hindexed with rfl | rfl
      · rfl
      · rw [← mem_candidatePaths] at hprobe
        revert hprobe
        decide
  apply h.inside _ (List.mem_singleton_self _) "a.ts" hsrc hout "x.ts"
  exact resolves_iff.mpr ⟨List.mem_singleton_self _, "a.ts", hsrc, hselects⟩

end Report

end RepoGraph.ImportResolver
