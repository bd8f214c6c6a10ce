import RepoGraph.Agent.CycleTypeOnly

/-! The verdicts on a set of module cycles: each cycle is judged on the imports between its own distinct members,
and a cycle without a TypeScript or JavaScript member is not judged. -/

namespace RepoGraph.Agent

open Lib Lib.Digraph Lib.Text

section Owners

variable {path dir dir' : String} {allModuleDirs : List String} {files : List (String × Option String)}

structure DeepestOwner (allModuleDirs : List String) (path dir : String) : Prop where
  declared : dir ∈ allModuleDirs
  holds : pathInModule path dir
  deepest : ∀ other ∈ allModuleDirs, pathInModule path other → other.utf8ByteSize ≤ dir.utf8ByteSize

lemma pathInModule_iff : pathInModule path dir ↔ dir = "" ∨ path = dir ∨ ∃ rest, path = dir ++ "/" ++ rest := by
  rw [pathInModule, decide_eq_true_eq, startsWith_iff]
  rfl

lemma exists_of_pathInModule (h : pathInModule path dir) : ∃ rest, path = dir ++ rest := by
  rcases pathInModule_iff.mp h with rfl | rfl | ⟨rest, rfl⟩
  · exact ⟨path, by simp⟩
  · exact ⟨"", by simp⟩
  · exact ⟨"/" ++ rest, by rw [String.append_assoc]⟩

lemma DeepestOwner.unique (h : DeepestOwner allModuleDirs path dir) (h' : DeepestOwner allModuleDirs path dir') :
    dir = dir' := by
  obtain ⟨rest, hrest⟩ := exists_of_pathInModule h.holds
  obtain ⟨rest', hrest'⟩ := exists_of_pathInModule h'.holds
  have hsize := le_antisymm (h'.deepest dir h.declared h.holds) (h.deepest dir' h'.declared h'.holds)
  exact beginning_unique (hrest.symm.trans hrest') hsize

lemma moduleOwner_eq_some : moduleOwner allModuleDirs path = some dir ↔ DeepestOwner allModuleDirs path dir := by
  have hsound : ∀ {dir}, moduleOwner allModuleDirs path = some dir → DeepestOwner allModuleDirs path dir := by
    intro dir h
    obtain ⟨hmem, hmax⟩ := lastMaxByKey_spec h
    obtain ⟨hdeclared, hholds⟩ := List.mem_filter.mp hmem
    exact ⟨hdeclared, hholds, fun other hother hheld => hmax other (List.mem_filter.mpr ⟨hother, hheld⟩)⟩
  constructor
  · exact hsound
  · intro h
    cases howner : moduleOwner allModuleDirs path with
    | some owner => exact congrArg some ((hsound howner).unique h)
    | none =>
      have hnone := lastMaxByKey_eq_none.mp howner
      exact absurd (List.mem_filter.mpr ⟨h.declared, h.holds⟩) (by simp [hnone])

def OwnsTsJs (allModuleDirs : List String) (files : List (String × Option String)) (dir : String) : Prop :=
  ∃ path token, (path, some token) ∈ files ∧ isTsJsLanguageToken token ∧ DeepestOwner allModuleDirs path dir

def tsJsOwner (memberDirs : BTreeSet String) (allModuleDirs : List String) (file : String × Option String) :
    Option String :=
  if (file.2.map isTsJsLanguageToken).getD false then (moduleOwner allModuleDirs file.1).filter (· ∈ memberDirs)
  else none

lemma tsJsOwner_eq_some {memberDirs : BTreeSet String} {file : String × Option String} :
    tsJsOwner memberDirs allModuleDirs file = some dir ↔
      (∃ token, file.2 = some token ∧ isTsJsLanguageToken token) ∧ DeepestOwner allModuleDirs file.1 dir ∧
        dir ∈ memberDirs := by
  have htoken : (file.2.map isTsJsLanguageToken).getD false ↔
      ∃ token, file.2 = some token ∧ isTsJsLanguageToken token := by
    cases file.2 <;> simp
  unfold tsJsOwner
  rw [← htoken, ← moduleOwner_eq_some]
  by_cases h : (file.2.map isTsJsLanguageToken).getD false
  · rw [if_pos h, Option.filter_eq_some_iff]
    simp [h]
  · rw [if_neg h]
    simp [h]

def tsJsMemberStep (allModuleDirs : List String) (memberDirs tsMembers : BTreeSet String)
    (file : String × Option String) :
    BTreeSet String :=
  if (file.2.map isTsJsLanguageToken).getD false then
    match moduleOwner allModuleDirs file.1 with
    | some owner => if owner ∈ memberDirs then tsMembers.insert owner else tsMembers
    | none => tsMembers
  else tsMembers

lemma mem_tsJsCycleMemberDirs {memberDirs : BTreeSet String} :
    dir ∈ tsJsCycleMemberDirs memberDirs allModuleDirs files ↔
      dir ∈ memberDirs ∧ OwnsTsJs allModuleDirs files dir := by
  have hfold : ∀ (files : List (String × Option String)) (s : BTreeSet String),
      dir ∈ files.foldl (tsJsMemberStep allModuleDirs memberDirs) s ↔
        dir ∈ s ∨ ∃ file ∈ files, tsJsOwner memberDirs allModuleDirs file = some dir := by
    intro files
    induction files with
    | nil => simp
    | cons file files ih =>
      intro s
      rw [List.foldl_cons, ih, List.exists_mem_cons_iff, ← or_assoc]
      apply or_congr_left
      unfold tsJsOwner tsJsMemberStep
      split
      · cases moduleOwner allModuleDirs file.1 with
        | none => simp
        | some owner =>
          rw [Option.filter_some]
          by_cases hin : owner ∈ memberDirs
          · simp [hin, or_comm]
          · simp [hin]
      · simp
  have hfiles : (∃ file ∈ files, tsJsOwner memberDirs allModuleDirs file = some dir) ↔
      dir ∈ memberDirs ∧ OwnsTsJs allModuleDirs files dir := by
    simp only [tsJsOwner_eq_some, OwnsTsJs]
    constructor
    · rintro ⟨⟨path, _⟩, hfile, ⟨token, rfl, htoken⟩, howner, hmember⟩
      exact ⟨hmember, path, token, hfile, htoken, howner⟩
    · rintro ⟨hmember, path, token, hfile, htoken, howner⟩
      exact ⟨_, hfile, ⟨token, rfl, htoken⟩, howner, hmember⟩
  unfold tsJsCycleMemberDirs
  split
  · rename_i hempty
    rw [Std.ExtTreeSet.isEmpty_iff] at hempty
    simp [hempty]
  · refine (hfold files ∅).trans ?_
    rw [hfiles]
    simp

end Owners

section Buckets

variable {cycleMembers : List (List (String × String))} {moduleEdges : List ModuleImport}

def memberPairs (cycleMembers : List (List (String × String))) : List (String × ℕ) :=
  cycleMembers.zipIdx.flatMap fun c => c.1.map fun m => (m.1, c.2)

lemma mem_memberPairs {id : String} {i : ℕ} :
    (id, i) ∈ memberPairs cycleMembers ↔ ∃ members, cycleMembers[i]? = some members ∧
    id ∈ members.map Prod.fst := by
  simp only [memberPairs, List.mem_flatMap, List.mem_map, Prod.mk.injEq,
    List.mk_mem_zipIdx_iff_getElem?, Prod.exists]
  constructor
  · rintro ⟨members, i, hmembers, id, dir, hmem, rfl, rfl⟩
    exact ⟨members, hmembers, id, dir, hmem, rfl⟩
  · rintro ⟨members, hmembers, id, dir, hmem, rfl⟩
    exact ⟨members, i, hmembers, id, dir, hmem, rfl, rfl⟩

lemma cycleOwner_eq_some (hdisjoint : cycleMembers.Pairwise fun c d => ∀ id ∈ c.map Prod.fst, id ∉ d.map Prod.fst)
    {id : String} {i : ℕ} : (cycleOwner cycleMembers)[id]? = some i ↔
      ∃ members, cycleMembers[i]? = some members ∧ id ∈ members.map Prod.fst := by
  have hunique : ∀ i j, (id, i) ∈ memberPairs cycleMembers → (id, j) ∈ memberPairs cycleMembers → i = j := by
    intro i j hi hj
    obtain ⟨c, hc, hidc⟩ := mem_memberPairs.mp hi
    obtain ⟨d, hd, hidd⟩ := mem_memberPairs.mp hj
    obtain ⟨hilt, rfl⟩ := List.getElem?_eq_some_iff.mp hc
    obtain ⟨hjlt, rfl⟩ := List.getElem?_eq_some_iff.mp hd
    rcases lt_trichotomy i j with hlt | heq | hgt
    · exact absurd hidd (List.pairwise_iff_getElem.mp hdisjoint i j hilt hjlt hlt id hidc)
    · exact heq
    · exact absurd hidc (List.pairwise_iff_getElem.mp hdisjoint j i hjlt hilt hgt id hidd)
  rw [← mem_memberPairs]
  constructor
  · intro h
    by_cases hin : id ∈ (memberPairs cycleMembers).map Prod.fst
    · obtain ⟨⟨_, j⟩, hj, rfl⟩ := List.mem_map.mp hin
      have hown := getElem?_foldl_insert_of_unique hj (fun k hk => hunique k j hk hj) (∅ : HashMap String ℕ)
      obtain rfl := Option.some.inj (hown.symm.trans h)
      exact hj
    · have hown := getElem?_foldl_insert_of_notMem hin (∅ : HashMap String ℕ)
      have hnone : (cycleOwner cycleMembers)[id]? = none := hown.trans (by simp)
      rw [hnone] at h
      cases h
  · intro h
    exact getElem?_foldl_insert_of_unique h (fun j hj => hunique j i hj h) ∅

lemma getElem?_pushIntraEdge (owner : HashMap String ℕ) (buckets : List (List ModuleImport)) (e : ModuleImport)
    (i : ℕ) : (pushIntraEdge owner buckets e)[i]? = buckets[i]?.map fun bucket =>
      if e.1 ≠ e.2.1 ∧ owner[e.1]? = some i ∧ owner[e.2.1]? = some i then bucket ++ [e] else bucket := by
  unfold pushIntraEdge
  by_cases hself : e.1 = e.2.1
  · simp [hself]
  rw [if_neg hself]
  cases hfrom : owner[e.1]? with
  | none => simp
  | some fi =>
    cases hto : owner[e.2.1]? with
    | none => simp
    | some ti =>
      dsimp only
      by_cases hsame : fi = ti
      · rw [if_pos hsame, List.getElem?_modify]
        by_cases hi : fi = i
        · subst hi
          simp [hself, hsame]
        · simp [hi]
      · rw [if_neg hsame]
        have hne : ¬ (fi = i ∧ ti = i) := fun h => hsame (h.1.trans h.2.symm)
        simp [hne]

lemma getElem?_pushIntraEdges (owner : HashMap String ℕ) (edges : List ModuleImport)
    (buckets : List (List ModuleImport)) (i : ℕ) :
    (edges.foldl (pushIntraEdge owner) buckets)[i]? = buckets[i]?.map (· ++ edges.filter fun e =>
      e.1 ≠ e.2.1 ∧ owner[e.1]? = some i ∧ owner[e.2.1]? = some i) := by
  induction edges generalizing buckets with
  | nil => simp
  | cons e edges ih =>
    rw [List.foldl_cons, ih, getElem?_pushIntraEdge, Option.map_map]
    congr 1
    funext bucket
    rw [Function.comp_apply, List.filter_cons]
    split <;> simp_all

def internalEdges (moduleEdges : List ModuleImport) (members : List (String × String)) : List ModuleImport :=
  moduleEdges.filter fun e => e.1 ≠ e.2.1 ∧ e.1 ∈ members.map Prod.fst ∧ e.2.1 ∈ members.map Prod.fst

lemma perCycleEdges_eq (hdisjoint : cycleMembers.Pairwise fun c d => ∀ id ∈ c.map Prod.fst, id ∉ d.map Prod.fst) :
    perCycleEdges cycleMembers moduleEdges = cycleMembers.map (internalEdges moduleEdges) := by
  apply List.ext_getElem?
  intro i
  rw [perCycleEdges, getElem?_pushIntraEdges, List.getElem?_replicate, List.getElem?_map]
  cases hmembers : cycleMembers[i]? with
  | none =>
    rw [if_neg (by simpa using hmembers)]
    rfl
  | some members =>
    have hlt : i < cycleMembers.length := (List.getElem?_eq_some_iff.mp hmembers).1
    have hown : ∀ id, (cycleOwner cycleMembers)[id]? = some i ↔ id ∈ members.map Prod.fst := by
      intro id
      rw [cycleOwner_eq_some hdisjoint, hmembers]
      simp
    rw [if_pos hlt]
    simp only [hown, Option.map_some, List.nil_append, internalEdges]

end Buckets

section Cycles

variable {cycleMembers : List (List (String × String))} {moduleEdges : List ModuleImport}
  {files : List (String × Option String)} {allModuleDirs : List String} {members : List (String × String)}

def ModuleArc (moduleEdges : List ModuleImport) (u v : String) : Prop := ∃ d, (u, v, d) ∈ moduleEdges

/-- A strongly connected component of more than one module. -/
structure IsModuleCycle (moduleEdges : List ModuleImport) (members : List (String × String)) : Prop where
  component : IsComponent (ModuleArc moduleEdges) (members.map Prod.fst)
  large : ∃ u ∈ members.map Prod.fst, ∃ v ∈ members.map Prod.fst, u ≠ v

lemma IsModuleCycle.internal_cyclic (h : IsModuleCycle moduleEdges members) :
    Cyclic fun u v => ∃ d, (u, v, d) ∈ internalEdges moduleEdges members := by
  obtain ⟨u, hu, v, hv, hne⟩ := h.large
  apply (h.component.cyclic hu hv hne).mono
  rintro a b ⟨⟨d, hd⟩, hdistinct, ha, hb⟩
  exact ⟨d, List.mem_filter.mpr ⟨hd, by simpa only [decide_eq_true_eq] using ⟨hdistinct, ha, hb⟩⟩⟩

def HasTsJsMember (allModuleDirs : List String) (files : List (String × Option String))
    (members : List (String × String)) : Prop :=
  ∃ m ∈ members, OwnsTsJs allModuleDirs files m.2

/-- Every cycle with a TypeScript or JavaScript member is given the verdict on the imports between its distinct
members, and no other cycle is given one. -/
theorem cycle_verdicts (hcycles : ∀ members ∈ cycleMembers, IsModuleCycle moduleEdges members)
    (hdisjoint : cycleMembers.Pairwise fun c d => ∀ id ∈ c.map Prod.fst, id ∉ d.map Prod.fst) :
    ∃ verdicts, classifyCyclesTypeOnly cycleMembers moduleEdges files allModuleDirs = .ok verdicts ∧
      List.Forall₂ (fun members verdict =>
        (HasTsJsMember allModuleDirs files members →
          ∃ v, verdict = some v ∧ VerdictOf (internalEdges moduleEdges members) v) ∧
        (¬ HasTsJsMember allModuleDirs files members → verdict = none)) cycleMembers verdicts := by
  let tsMemberDirs := tsJsCycleMemberDirs
    (Std.ExtTreeSet.ofList (cycleMembers.flatten.map Prod.snd) compare) allModuleDirs files
  have hts : ∀ members ∈ cycleMembers,
      (members.any fun m => m.2 ∈ tsMemberDirs) = true ↔ HasTsJsMember allModuleDirs files members := by
    intro members hmembers
    simp only [List.any_eq_true, decide_eq_true_eq, HasTsJsMember, tsMemberDirs, mem_tsJsCycleMemberDirs,
      Std.ExtTreeSet.mem_ofList, List.contains_iff_mem]
    constructor
    · rintro ⟨m, hm, -, howns⟩
      exact ⟨m, hm, howns⟩
    · rintro ⟨m, hm, howns⟩
      exact ⟨m, hm, List.mem_map_of_mem (List.mem_flatten_of_mem hmembers hm), howns⟩
  have hverdict : ∀ members ∈ cycleMembers, ∃ verdict,
      (if members.any (fun m => m.2 ∈ tsMemberDirs) then
        some <$> classifyCycleTypeOnly (internalEdges moduleEdges members) else .ok none) = .ok verdict ∧
      (HasTsJsMember allModuleDirs files members →
        ∃ v, verdict = some v ∧ VerdictOf (internalEdges moduleEdges members) v) ∧
      (¬ HasTsJsMember allModuleDirs files members → verdict = none) := by
    intro members hmembers
    by_cases hjudged : HasTsJsMember allModuleDirs files members
    · have hloop : ∀ e ∈ internalEdges moduleEdges members, e.1 ≠ e.2.1 := by
        intro e he
        have hinside := (List.mem_filter.mp he).2
        simp only [decide_eq_true_eq] at hinside
        exact hinside.1
      obtain ⟨v, hv, hlaws⟩ := classifyCycleTypeOnly_spec hloop (hcycles members hmembers).internal_cyclic
      refine ⟨some v, ?_, fun _ => ⟨v, rfl, hlaws⟩, fun h => absurd hjudged h⟩
      rw [if_pos ((hts members hmembers).mpr hjudged), hv]
      rfl
    · refine ⟨none, ?_, fun h => absurd h hjudged, fun _ => rfl⟩
      exact if_neg ((hts members hmembers).not.mpr hjudged)
  have hzip : cycleMembers.zip (perCycleEdges cycleMembers moduleEdges) =
      cycleMembers.map fun members => (members, internalEdges moduleEdges members) := by
    rw [perCycleEdges_eq hdisjoint, List.zip_map_right, List.zip_eq_zipWith, List.zipWith_self, List.map_map]
    rfl
  obtain ⟨verdicts, hrun⟩ := exists_mapM (l := cycleMembers)
    (f := fun members => if members.any (fun m => m.2 ∈ tsMemberDirs) then
      some <$> classifyCycleTypeOnly (internalEdges moduleEdges members) else .ok none)
    fun members hmembers => (hverdict members hmembers).imp fun _ h => h.1
  refine ⟨verdicts, ?_, ?_⟩
  · rw [classifyCyclesTypeOnly, hzip, List.mapM_map]
    exact hrun
  · have heach := mapM_eq_ok.mp hrun
    rw [List.forall₂_iff_zip] at heach ⊢
    refine ⟨heach.1, ?_⟩
    intro members verdict hpair
    obtain ⟨verdict', hrun', hlaws⟩ := hverdict members (List.of_mem_zip hpair).1
    obtain rfl := Except.ok.inj ((heach.2 hpair).symm.trans hrun')
    exact hlaws

lemma isModuleCycle_pair {a b : String × String} (hne : a.1 ≠ b.1) (hab : ModuleArc moduleEdges a.1 b.1)
    (hba : ModuleArc moduleEdges b.1 a.1) (hout : ∀ e ∈ moduleEdges, e.2.1 ∈ [a.1, b.1]) :
    IsModuleCycle moduleEdges [a, b] := by
  refine ⟨⟨by simp, ?_⟩, a.1, by simp, b.1, by simp, hne⟩
  intro u hu v
  have hclosed : Closed (ModuleArc moduleEdges) (· ∈ [a.1, b.1]) := by
    rintro x y - ⟨d, hd⟩
    exact hout _ hd
  constructor
  · intro hv
    have hmutual : Mutual (ModuleArc moduleEdges) a.1 b.1 := ⟨.single hab, .single hba⟩
    have hself : ∀ w, Mutual (ModuleArc moduleEdges) w w := fun w => ⟨.refl, .refl⟩
    simp only [List.map_cons, List.map_nil, List.mem_cons, List.not_mem_nil, or_false] at hu hv
    rcases hu with rfl | rfl <;> rcases hv with rfl | rfl
    · exact hself _
    · exact hmutual
    · exact hmutual.symm
    · exact hself _
  · intro h
    exact hclosed.reach hu h.1

def twoModules : List (String × String) := [("a", "pkg/a"), ("b", "pkg/b")]

def mixedImports : List ModuleImport := [("a", "b", some .typeOnly), ("b", "a", some .runtime)]

theorem cycle_verdicts_mixed :
    classifyCyclesTypeOnly [twoModules] mixedImports [("pkg/a/x.ts", some "typescript")] ["pkg/a", "pkg/b"] =
      .ok [some (.breaksAtRuntime 1 2)] ∧
    VerdictOf (internalEdges mixedImports twoModules) (.breaksAtRuntime 1 2) := by
  have hcycle : IsModuleCycle mixedImports twoModules :=
    isModuleCycle_pair (by decide) ⟨_, List.mem_cons_self⟩ ⟨some .runtime, by decide⟩ (by decide)
  obtain ⟨verdicts, hrun, heach⟩ := @cycle_verdicts [twoModules] mixedImports
    [("pkg/a/x.ts", some "typescript")] ["pkg/a", "pkg/b"]
    (fun members hmembers => List.mem_singleton.mp hmembers ▸ hcycle) (List.pairwise_singleton _ _)
  have heval : classifyCyclesTypeOnly [twoModules] mixedImports [("pkg/a/x.ts", some "typescript")]
      ["pkg/a", "pkg/b"] = .ok [some (.breaksAtRuntime 1 2)] := by decide +kernel
  obtain rfl := Except.ok.inj (heval.symm.trans hrun)
  refine ⟨heval, ?_⟩
  obtain ⟨⟨hjudged, hunjudged⟩, -⟩ := List.forall₂_cons.mp heach
  -- the cycle was given a verdict, so one of its members is TypeScript
  have hts : HasTsJsMember ["pkg/a", "pkg/b"] [("pkg/a/x.ts", some "typescript")] twoModules := by
    by_contra hno
    cases hunjudged hno
  obtain ⟨v, hv, hlaws⟩ := hjudged hts
  rwa [← Option.some.inj hv] at hlaws

def selfImport : List ModuleImport :=
  [("a", "a", some .runtime), ("a", "b", some .typeOnly), ("b", "a", some .typeOnly)]

/-- A runtime import of a module by itself lies inside the cycle and is not judged. -/
theorem self_import_not_judged : IsModuleCycle selfImport twoModules ∧
    (selfImport.map fun e => (e.1, e.2.1)).Nodup ∧
    (∀ e ∈ selfImport, e.1 ∈ twoModules.map Prod.fst ∧ e.2.1 ∈ twoModules.map Prod.fst) ∧
    classifyCyclesTypeOnly [twoModules] selfImport [("pkg/a/x.ts", some "typescript")] ["pkg/a", "pkg/b"] =
      .ok [some .typeOnly] ∧
    ¬ VerdictOf selfImport .typeOnly := by
  refine ⟨?_, by decide, by decide, by decide +kernel, ?_⟩
  · exact isModuleCycle_pair (by decide) ⟨some .typeOnly, by decide⟩ ⟨some .typeOnly, by decide⟩ (by decide)
  · intro h
    exact (h.typeOnly_iff (by decide)).mp rfl ("a", "a", some .runtime) (by decide) rfl

end Cycles

end RepoGraph.Agent
