import RepoGraph.Indexer.DirectoryTallies

/-! The modules below one top-level directory: its qualifying children, the fan-out of its chain of single
children, or the directory as a whole. -/

namespace RepoGraph.Indexer

open Lib Lib.Text

section Apart

def InferredModule.components (m : InferredModule) : List String :=
  if m.isFallbackRoot then [] else split m.directoryPath '/'

def Apart (m m' : InferredModule) : Prop :=
  ¬ m.components <+: m'.components ∧ ¬ m'.components <+: m.components

structure CountsBelow (lower : String → String) (l : List String) (m : InferredModule) : Prop where
  sources : m.sourceFileCount = l.countP fun path => (filedUnder lower m.components path).any (!·.1)
  tests : m.testFileCount = l.countP fun path => (filedUnder lower m.components path).any (·.1)

structure DirectoryModules (lower : String → String) (l : List String) (dir : String)
    (modules : List InferredModule) : Prop where
  top : ∀ m ∈ modules, m.components.head? = some dir
  counts : ∀ m ∈ modules, CountsBelow lower l m
  apart : modules.Pairwise Apart

variable {lower : String → String} {l : List String} {m m' : InferredModule} {segs : List String}

lemma apart_of_length (hlen : m.components.length = m'.components.length) (hne : m.components ≠ m'.components) :
    Apart m m' :=
  ⟨fun h => hne (h.eq_of_length hlen), fun h => hne (h.eq_of_length hlen.symm).symm⟩

lemma apart_of_head {a b : String} (h : m.components.head? = some a) (h' : m'.components.head? = some b)
    (hne : a ≠ b) : Apart m m' := by
  obtain ⟨more, hm⟩ := List.head?_eq_some_iff.mp h
  obtain ⟨more', hm'⟩ := List.head?_eq_some_iff.mp h'
  rw [Apart, hm, hm', List.cons_prefix_cons, List.cons_prefix_cons]
  exact ⟨fun h => hne h.1, fun h => hne h.1.symm⟩

lemma Tallies.countsBelow {built : String → Option String} {s : DirectoryStats} (hcomponents : m.components = segs)
    (h : Tallies built (filedUnder lower segs) l s) (hsources : m.sourceFileCount = s.sourceFileCount)
    (htests : m.testFileCount = s.testFileCount) : CountsBelow lower l m := by
  constructor
  · rw [hsources, h.sources, hcomponents]
  · rw [htests, h.tests, hcomponents]

end Apart

section Level

variable (o : TableOrders)

def levelFiled (segs : List String) (f : DescentFile) : Option (Bool × Option String) :=
  if liesUnder segs f.rel then some (f.isTest, f.language) else none

def isDirectIn (relPrefix : List String) (f : DescentFile) : Bool :=
  !f.isTest && (split f.rel '/').dropLast = relPrefix

variable {relPrefix : List String} {f : DescentFile} {level : DescentLevel}

lemma zip_all_iff {segs : List String} : ¬ segs.length < relPrefix.length ∧
    (relPrefix.zip segs).all (fun e => e.1 == e.2) = true ↔ relPrefix <+: segs := by
  induction relPrefix generalizing segs with
  | nil => simp
  | cons a relPrefix ih =>
    cases segs with
    | nil => simp
    | cons b segs =>
      rw [List.cons_prefix_cons, ← ih]
      simp only [List.length_cons, List.zip_cons_cons, List.all_cons, Bool.and_eq_true, beq_iff_eq,
        Nat.add_lt_add_iff_right]
      exact and_left_comm

lemma level_add_eq : level.add o relPrefix f =
    if relPrefix <+: (split f.rel '/').dropLast then
      match ((split f.rel '/').dropLast).drop relPrefix.length with
      | [] => if f.isTest then level else { level with directSource := level.directSource + 1 }
      | child :: _ =>
        { level with
          children := level.children.insert child
            ((level.children.getD child default).addFile o f.isTest f.language) }
    else level := by
  unfold DescentLevel.add
  by_cases hbegins : relPrefix <+: (split f.rel '/').dropLast
  · obtain ⟨hlen, hall⟩ := zip_all_iff.mpr hbegins
    rw [if_pos hbegins, if_neg hlen, hall]
    rfl
  · rw [if_neg hbegins]
    by_cases hlen : (split f.rel '/').dropLast.length < relPrefix.length
    · rw [if_pos hlen]
    · rw [if_neg hlen]
      have hall : (relPrefix.zip (split f.rel '/').dropLast).all (fun e => e.1 == e.2) = false := by
        rw [← Bool.not_eq_true]
        exact fun h => hbegins (zip_all_iff.mp ⟨hlen, h⟩)
      rw [hall]
      rfl

lemma liesUnder_concat_iff {path child : String} : liesUnder (relPrefix ++ [child]) path ↔
    ∃ more, (split path '/').dropLast = relPrefix ++ child :: more := by
  have hne : split path '/' ≠ [] := by simp [split, splitAll_ne_nil]
  obtain ⟨dirSegs, last, hsplit⟩ : ∃ dirSegs last, split path '/' = dirSegs ++ [last] :=
    ⟨_, _, (List.dropLast_append_getLast hne).symm⟩
  rw [liesUnder_iff, hsplit, List.dropLast_concat]
  constructor
  · rintro ⟨rest, hrest, heq⟩
    obtain ⟨more, final, rfl⟩ := List.eq_nil_or_concat rest |>.resolve_left hrest
    rw [List.concat_eq_append, ← List.append_assoc] at heq
    obtain ⟨rfl, -⟩ := List.append_inj' heq rfl
    exact ⟨more, by simp⟩
  · rintro ⟨more, rfl⟩
    exact ⟨more ++ [last], by simp, by simp⟩

lemma children_add (child : String) : (level.add o relPrefix f).children.getD child default =
    (level.children.getD child default).record o none (levelFiled (relPrefix ++ [child]) f) := by
  rw [level_add_eq, levelFiled]
  by_cases hbegins : relPrefix <+: (split f.rel '/').dropLast
  · obtain ⟨more, hmore⟩ := hbegins
    have hlies : liesUnder (relPrefix ++ [child]) f.rel ↔ more.head? = some child := by
      rw [liesUnder_concat_iff, ← hmore, List.head?_eq_some_iff]
      simp only [List.append_cancel_left_eq]
    rw [if_pos ⟨more, hmore⟩]
    simp only [hlies, ← hmore, List.drop_left]
    cases more with
    | nil =>
      simp only [List.head?_nil, reduceCtorEq, if_false, DirectoryStats.record, Option.elim_none]
      split <;> rfl
    | cons first more =>
      by_cases hchild : first = child
      · subst hchild
        simp [DirectoryStats.record]
      · simp [DirectoryStats.record, hchild, Std.ExtTreeMap.getD_insert]
  · have hnone : ¬ liesUnder (relPrefix ++ [child]) f.rel := by
      rw [liesUnder_concat_iff]
      rintro ⟨more, hmore⟩
      exact hbegins ⟨_, hmore.symm⟩
    rw [if_neg hbegins, if_neg hnone]
    rfl

lemma directSource_add : (level.add o relPrefix f).directSource =
    level.directSource + if isDirectIn relPrefix f then 1 else 0 := by
  rw [level_add_eq, isDirectIn]
  by_cases hbegins : relPrefix <+: (split f.rel '/').dropLast
  · obtain ⟨more, hmore⟩ := hbegins
    rw [if_pos ⟨more, hmore⟩]
    simp only [← hmore, List.drop_left]
    cases more with
    | nil => cases f.isTest <;> simp
    | cons first more => simp
  · have hne : (split f.rel '/').dropLast ≠ relPrefix := fun h => hbegins (by rw [h])
    simp [hbegins, hne]

structure LevelTallies (relPrefix : List String) (files : List DescentFile) (level : DescentLevel) : Prop where
  children : ∀ child, Tallies (fun _ => none) (levelFiled (relPrefix ++ [child])) files
    (level.children.getD child default)
  direct : level.directSource = files.countP (isDirectIn relPrefix)

theorem descentLevel_tallies (relPrefix : List String) (files : List DescentFile) :
    LevelTallies relPrefix files (descentLevel o relPrefix files) := by
  induction files using List.reverseRecOn with
  | nil =>
    refine ⟨fun child => ?_, rfl⟩
    simpa [descentLevel] using Tallies.nil
  | append_singleton files f ih =>
    rw [descentLevel, List.foldl_append]
    constructor
    · intro child
      rw [List.foldl_cons, List.foldl_nil, children_add]
      exact (ih.children child).snoc o f
    · rw [List.foldl_cons, List.foldl_nil, directSource_add, List.countP_append,
        List.countP_singleton, ← ih.direct]
      rfl

end Level

section Chain

variable {o o' : TableOrders} {lower : String → String} {l : List String} {relPrefix : List String}
  {level level' : DescentLevel} {files files' : List DescentFile} {top child : String} {n : ℕ}

def DescentLevel.named (level : DescentLevel) (n : ℕ) : List String :=
  (level.children.toList.filter (n ≤ ·.2.sourceFileCount)).map Prod.fst

def DescentLevel.childModule (level : DescentLevel) (top : String) (relPrefix : List String) (child : String) :
    InferredModule :=
  { (level.children.getD child default).toModule (join "/" (top :: relPrefix ++ [child])) child false with
    buildFilesPresent := [] }

lemma ordered_named (level : DescentLevel) (n : ℕ) :
    (level.named n).Pairwise fun a b => compare a b = .lt := by
  rw [DescentLevel.named, List.pairwise_map]
  exact (Std.ExtTreeMap.ordered_keys_toList (t := level.children)).filter _

lemma mem_named (hn : 0 < n) : child ∈ level.named n ↔
    n ≤ (level.children.getD child default).sourceFileCount := by
  simp only [DescentLevel.named, List.mem_map, List.mem_filter, Prod.exists, exists_and_right, exists_eq_right,
    Std.ExtTreeMap.mem_toList_iff_getElem?_eq_some, decide_eq_true_eq, Std.ExtTreeMap.getD_eq_getD_getElem?]
  cases hchild : level.children[child]? with
  | none =>
    simp only [reduceCtorEq, false_and, exists_const, Option.getD_none, false_iff, not_le]
    exact hn
  | some s => simp

lemma filter_eq_named (level : DescentLevel) (n : ℕ) :
    level.children.toList.filter (n ≤ ·.2.sourceFileCount) =
      (level.named n).map fun child => (child, level.children.getD child default) := by
  rw [DescentLevel.named, List.map_map]
  have hself : ∀ e ∈ level.children.toList.filter (n ≤ ·.2.sourceFileCount),
      (e.1, level.children.getD e.1 default) = e := by
    rintro ⟨child, s⟩ hmem
    have hchild := Std.ExtTreeMap.mem_toList_iff_getElem?_eq_some.mp (List.mem_filter.mp hmem).1
    rw [Std.ExtTreeMap.getD_eq_getD_getElem?, hchild]
    rfl
  exact ((List.map_congr_left hself).trans (List.map_id _)).symm

lemma base_eq (top : String) (relPrefix : List String) (child : String) :
    (if relPrefix = [] then top else top ++ "/" ++ join "/" relPrefix) ++ "/" ++ child =
      join "/" (top :: relPrefix ++ [child]) := by
  have hslash : "/" = String.singleton '/' := rfl
  rw [hslash, join_append_singleton (by simp)]
  split
  · rename_i hnil
    subst hnil
    rw [← String.toList_inj, String.toList_append, String.toList_append,
      String.toList_append, String.toList_append, toList_join]
    simp
  · rename_i hne
    rw [join_cons top hne]

lemma descend_succ (rounds : ℕ) : descendUmbrellaChain o top files (rounds + 1) relPrefix =
    let level := descentLevel o relPrefix files
    match level.named 1 with
    | [] => some none
    | [only] => descendUmbrellaChain o top files rounds (relPrefix ++ [only])
    | _ =>
      if (level.named umbrellaMinFilesPerChild).length < umbrellaMinChildren ∨
          umbrellaMaxParentDirectFiles < level.directSource then some none
      else some (some ((level.named umbrellaMinFilesPerChild).map (level.childModule top relPrefix))) := by
  rw [descendUmbrellaChain]
  simp only [toString]
  have hsome : (descentLevel o relPrefix files).children.toList.filter (0 < ·.2.sourceFileCount) =
      ((descentLevel o relPrefix files).named 1).map fun child =>
        (child, (descentLevel o relPrefix files).children.getD child default) :=
    filter_eq_named (descentLevel o relPrefix files) 1
  simp only [filter_eq_named (descentLevel o relPrefix files) umbrellaMinFilesPerChild,
    List.length_map, List.map_map]
  have hmodule : ((fun e : String × DirectoryStats =>
      { e.2.toModule ((if relPrefix = [] then top else top ++ "/" ++ join "/" relPrefix) ++
          "/" ++ e.1) e.1 false with
        buildFilesPresent := [] }) ∘ fun child =>
          (child, (descentLevel o relPrefix files).children.getD child default)) =
      (descentLevel o relPrefix files).childModule top relPrefix := by
    funext child
    rw [DescentLevel.childModule, ← base_eq]
    rfl
  rw [hmodule]
  rw [hsome]
  rcases (descentLevel o relPrefix files).named 1 with _ | ⟨a, _ | ⟨b, more⟩⟩ <;> rfl

section Orders

variable (hperm : files.Perm files')

include hperm

lemma named_congr (h : LevelTallies relPrefix files level)
    (h' : LevelTallies relPrefix files' level') (hn : 0 < n) :
    level.named n = level'.named n := by
  apply eq_of_ordered_of_mem_iff (ordered_named level n) (ordered_named level' n)
  intro child
  rw [mem_named hn, mem_named hn, (h.children child).sources, (h'.children child).sources, hperm.countP_eq]

lemma childModule_congr (h : LevelTallies relPrefix files level) (h' : LevelTallies relPrefix files' level') :
    level.childModule top relPrefix = level'.childModule top relPrefix := by
  funext child
  simp only [DescentLevel.childModule, (h.children child).toModule_eq (h'.children child) hperm]

end Orders

lemma exists_deeper (h : LevelTallies relPrefix files level) (hn : 0 < n) (hchild : child ∈ level.named n) :
    ∃ f ∈ files, liesUnder (relPrefix ++ [child]) f.rel := by
  rw [mem_named hn, (h.children child).sources] at hchild
  obtain ⟨f, hf, hfiled⟩ := List.countP_pos_iff.mp (hn.trans_le hchild)
  refine ⟨f, hf, ?_⟩
  by_contra hout
  simp [levelFiled, hout] at hfiled

lemma length_of_liesUnder {segs : List String} {path : String} (h : liesUnder segs path) :
    segs.length < (split path '/').length := by
  rw [liesUnder, Bool.and_eq_true, decide_eq_true_eq] at h
  exact h.2

def Enough (files : List DescentFile) (relPrefix : List String) (rounds : ℕ) : Prop :=
  0 < rounds ∧ ∀ f ∈ files, (split f.rel '/').length < relPrefix.length + rounds

lemma Enough.descend {rounds : ℕ} (henough : Enough files relPrefix (rounds + 1))
    (h : LevelTallies relPrefix files level) (hn : 0 < n) (hchild : child ∈ level.named n) :
    Enough files (relPrefix ++ [child]) rounds := by
  obtain ⟨f, hf, hlies⟩ := exists_deeper h hn hchild
  have hdeep := length_of_liesUnder hlies
  have hbound := henough.2 f hf
  rw [List.length_append, List.length_singleton] at hdeep
  refine ⟨by omega, fun g hg => ?_⟩
  have := henough.2 g hg
  rw [List.length_append, List.length_singleton]
  omega

lemma Enough.perm {rounds : ℕ} (henough : Enough files relPrefix rounds) (hperm : files.Perm files') :
    Enough files' relPrefix rounds :=
  ⟨henough.1, fun f hf => henough.2 f (hperm.mem_iff.mpr hf)⟩

theorem descend_congr (o o' : TableOrders) (top : String) (hperm : files.Perm files') {rounds rounds' : ℕ}
    (henough : Enough files relPrefix rounds) (henough' : Enough files' relPrefix rounds') :
    descendUmbrellaChain o top files rounds relPrefix = descendUmbrellaChain o' top files' rounds' relPrefix := by
  induction rounds generalizing rounds' relPrefix with
  | zero => exact absurd henough.1 (by simp)
  | succ rounds ih =>
    cases rounds' with
    | zero => exact absurd henough'.1 (by simp)
    | succ rounds' =>
      have h := descentLevel_tallies o relPrefix files
      have h' := descentLevel_tallies o' relPrefix files'
      have hmin : 0 < umbrellaMinFilesPerChild := by decide
      rw [descend_succ, descend_succ]
      simp only [named_congr hperm h h' Nat.one_pos, named_congr hperm h h' hmin, childModule_congr hperm h h',
        h.direct, h'.direct, hperm.countP_eq]
      split
      · rfl
      · rename_i only honly
        have hchild : only ∈ (descentLevel o' relPrefix files').named 1 := by simp [honly]
        apply ih
        · rw [← named_congr hperm h h' Nat.one_pos] at hchild
          exact henough.descend h Nat.one_pos hchild
        · exact henough'.descend h' Nat.one_pos hchild
      · rfl

def descentFiles (lower : String → String) (l : List String) (top : String) : List DescentFile :=
  (l.filter (isSourceBelow top)).map (descentFile lower)

lemma split_rel {path : String} (h : liesUnder [top] path) :
    split path '/' = top :: split (descentFile lower path).rel '/' := by
  obtain ⟨rest, hne, hrest⟩ := liesUnder_iff.mp h
  have hslash : "/" = String.singleton '/' := rfl
  rw [descentFile, hrest, hslash, List.singleton_append, List.tail_cons, split_join hne]
  intro piece hpiece
  apply @not_mem_of_mem_split _ path _
  rw [hrest]
  exact List.mem_append_right _ hpiece

lemma liesUnder_cons {segs : List String} {path : String} :
    liesUnder (top :: segs) path ↔ liesUnder [top] path ∧ liesUnder segs (descentFile lower path).rel := by
  constructor
  · intro h
    obtain ⟨rest, hne, hrest⟩ := liesUnder_iff.mp h
    have htop : liesUnder [top] path := liesUnder_iff.mpr ⟨segs ++ rest, by simp [hne], hrest⟩
    refine ⟨htop, liesUnder_iff.mpr ⟨rest, hne, ?_⟩⟩
    rw [@split_rel lower _ _ htop] at hrest
    exact (List.cons.inj hrest).2
  · rintro ⟨htop, h⟩
    obtain ⟨rest, hne, hrest⟩ := liesUnder_iff.mp h
    exact liesUnder_iff.mpr ⟨rest, hne, by rw [@split_rel lower _ _ htop, hrest, List.cons_append]⟩

lemma countP_descentFiles (q : Bool × Option String → Bool) (segs : List String) :
    (descentFiles lower l top).countP (fun f => (levelFiled segs f).any q) =
      l.countP fun path => (filedUnder lower (top :: segs) path).any q := by
  rw [descentFiles, List.countP_map, List.countP_filter]
  apply List.countP_congr
  intro path _
  have hcons := @liesUnder_cons lower top segs path
  by_cases hsource : isSourceFile path
  · by_cases htop : liesUnder [top] path
    · have hbelow : isSourceBelow top path := by simp [isSourceBelow, hsource, getTopLevelDirectory_eq_some, htop]
      have hsame : liesUnder (top :: segs) path = liesUnder segs (descentFile lower path).rel := by
        rw [Bool.eq_iff_iff, hcons]
        exact and_iff_right htop
      simp only [Function.comp_apply, levelFiled, filedUnder, fileKind, hsource, hbelow,
        hsame, if_true, Bool.and_true]
      rfl
    · have hnot : ¬ liesUnder (top :: segs) path := fun h => htop (hcons.mp h).1
      simp [isSourceBelow, getTopLevelDirectory_eq_some, htop, filedUnder, hnot]
  · simp [isSourceBelow, hsource, filedUnder, fileKind]

lemma childModule_spec (h : LevelTallies relPrefix (descentFiles lower l top) level) (hn : 0 < n)
    (hchild : child ∈ level.named n) :
    (level.childModule top relPrefix child).components = top :: relPrefix ++ [child] ∧
      CountsBelow lower l (level.childModule top relPrefix child) := by
  have hcomponents : (level.childModule top relPrefix child).components = top :: relPrefix ++ [child] := by
    obtain ⟨f, hf, hlies⟩ := exists_deeper h hn hchild
    obtain ⟨path, hpath, rfl⟩ := List.mem_map.mp hf
    rw [List.mem_filter, isSourceBelow, Bool.and_eq_true, decide_eq_true_eq, getTopLevelDirectory_eq_some] at hpath
    have hunder := (@liesUnder_cons lower _ _ path).mpr ⟨hpath.2.2, hlies⟩
    exact split_join (by simp) (not_mem_of_liesUnder hunder)
  refine ⟨hcomponents, ?_, ?_⟩
  · rw [hcomponents, List.cons_append, ← countP_descentFiles]
    exact (h.children child).sources
  · rw [hcomponents, List.cons_append, ← countP_descentFiles]
    exact (h.children child).tests

theorem descend_spec (o : TableOrders) (lower : String → String) (l : List String) (top : String) {rounds : ℕ}
    (henough : Enough (descentFiles lower l top) relPrefix rounds) :
    ∃ found, descendUmbrellaChain o top (descentFiles lower l top) rounds relPrefix = some found ∧
      ∀ modules, found = some modules → DirectoryModules lower l top modules := by
  induction rounds generalizing relPrefix with
  | zero => exact absurd henough.1 (by simp)
  | succ rounds ih =>
    have h := descentLevel_tallies o relPrefix (descentFiles lower l top)
    have hmin : 0 < umbrellaMinFilesPerChild := by decide
    rw [descend_succ]
    simp only
    split
    · exact ⟨none, rfl, by simp⟩
    · rename_i only honly
      have hchild : only ∈ (descentLevel o relPrefix (descentFiles lower l top)).named 1 := by simp [honly]
      exact ih (henough.descend h Nat.one_pos hchild)
    · split
      · exact ⟨none, rfl, by simp⟩
      · refine ⟨_, rfl, ?_⟩
        rintro _ ⟨⟩
        refine ⟨?_, ?_, ?_⟩
        · intro m hm
          obtain ⟨child, hchild, rfl⟩ := List.mem_map.mp hm
          rw [(childModule_spec h hmin hchild).1]
          rfl
        · intro m hm
          obtain ⟨child, hchild, rfl⟩ := List.mem_map.mp hm
          exact (childModule_spec h hmin hchild).2
        · rw [List.pairwise_map]
          refine (ordered_named _ _).imp_of_mem ?_
          intro a b ha hb hlt
          have hcomponents := (childModule_spec h hmin ha).1
          have hcomponents' := (childModule_spec h hmin hb).1
          apply apart_of_length
          · rw [hcomponents, hcomponents']
            simp
          · rw [hcomponents, hcomponents']
            intro heq
            have hab : a = b := by simpa using heq
            simp [hab] at hlt

end Chain

end RepoGraph.Indexer
