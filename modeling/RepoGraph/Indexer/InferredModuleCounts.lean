import RepoGraph.Indexer.UmbrellaDescent

/-! The modules found in a list of paths: they stand apart, they count the files below them, and no order of
the paths or of a table shows in them. -/

namespace RepoGraph.Indexer

open Lib Lib.Text

variable {o o' : TableOrders} {lower : String → String} {l l' : List String} {scan scan' : Scan}
  {dir key path : String}

section Children

lemma childFile_iff : (split path '/').length ≠ 2 ∧ isChildPath lower key path ↔
    ∃ top child, split key '/' = [top, child] ∧ isUmbrellaCandidate lower top ∧ liesUnder [top, child] path := by
  have hslash : "/" = String.singleton '/' := rfl
  rw [isChildPath, Bool.and_eq_true, Option.any_eq_true, decide_eq_true_eq]
  constructor
  · rintro ⟨hlen, ⟨top, htop, humbrella⟩, hkey⟩
    obtain ⟨rest, hne, hrest⟩ := liesUnder_iff.mp (getTopLevelDirectory_eq_some.mp htop)
    obtain ⟨child, more, rfl⟩ := List.exists_cons_of_ne_nil hne
    have hmore : more ≠ [] := by
      rintro rfl
      exact hlen (by simp [hrest])
    have hunder : liesUnder [top, child] path := liesUnder_iff.mpr ⟨more, hmore, hrest⟩
    refine ⟨top, child, ?_, humbrella, hunder⟩
    rw [hrest, hslash] at hkey
    rw [← hkey]
    exact split_join (by simp) (not_mem_of_liesUnder hunder)
  · rintro ⟨top, child, hkey, humbrella, hunder⟩
    obtain ⟨rest, hne, hrest⟩ := liesUnder_iff.mp hunder
    refine ⟨?_, ⟨top, ?_, humbrella⟩, ?_⟩
    · have hpos := List.length_pos_iff.mpr hne
      rw [hrest, List.length_append, List.length_cons, List.length_singleton]
      omega
    · exact getTopLevelDirectory_of_liesUnder hunder rfl
    · have hjoin := join_split key '/'
      rw [hkey] at hjoin
      rw [hrest, hslash, ← hjoin]
      rfl

lemma child_key (h : ScanTallies lower l scan) (hpos : 0 < (scan.childAt key).sourceFileCount) :
    ∃ top child, split key '/' = [top, child] ∧ (scan.childAt key).sourceFileCount =
      l.countP (fun path => (filedUnder lower [top, child] path).any (!·.1)) ∧ (scan.childAt key).testFileCount =
      l.countP (fun path => (filedUnder lower [top, child] path).any (·.1)) := by
  have htallies := h.children key
  obtain ⟨path, -, hpath⟩ := List.countP_pos_iff.mp (htallies.sources ▸ hpos)
  have hchild : (split path '/').length ≠ 2 ∧ isChildPath lower key path := by
    by_contra hnot
    simp [childFiled, hnot] at hpath
  obtain ⟨top, child, hkey, humbrella, -⟩ := childFile_iff.mp hchild
  have hfiled : ∀ path, childFiled lower key path = filedUnder lower [top, child] path := by
    intro path
    have hiff : ((split path '/').length ≠ 2 ∧ isChildPath lower key path) ↔ liesUnder [top, child] path := by
      rw [childFile_iff]
      constructor
      · rintro ⟨top', child', hkey', -, hunder⟩
        rw [hkey] at hkey'
        exact hkey' ▸ hunder
      · exact fun hunder => ⟨top, child, hkey, humbrella, hunder⟩
    rw [childFiled, filedUnder]
    simp only [hiff]
  refine ⟨top, child, hkey, ?_, ?_⟩
  · simpa only [hfiled] using htallies.sources
  · simpa only [hfiled] using htallies.tests

def qualifyingKeys (scan : Scan) (dir : String) : List String := (qualifyingChildren scan dir).map Sigma.fst

lemma ordered_qualifyingKeys (scan : Scan) (dir : String) :
    (qualifyingKeys scan dir).Pairwise fun a b => compare a b = .lt := by
  apply ordered_sortBy_key
  exact List.Nodup.sublist (List.filter_sublist.map _) scan.umbrellaChildren.nodupKeys

lemma childAt_of_mem {e : Σ _ : String, DirectoryStats} (h : e ∈ scan.umbrellaChildren.entries) :
    scan.childAt e.1 = e.2 := by
  rw [Scan.childAt, IterMap.mem_entries.mp h]
  rfl

lemma mem_qualifyingKeys : key ∈ qualifyingKeys scan dir ↔
    startsWith key (dir ++ "/") ∧ umbrellaMinFilesPerChild ≤ (scan.childAt key).sourceFileCount := by
  simp only [qualifyingKeys, qualifyingChildren, List.mem_map, (sortBy_perm _ _).mem_iff, List.mem_filter,
    Bool.and_eq_true, decide_eq_true_eq]
  constructor
  · rintro ⟨e, ⟨he, hstarts, hmin⟩, rfl⟩
    rw [childAt_of_mem he]
    exact ⟨hstarts, hmin⟩
  · rintro ⟨hstarts, hmin⟩
    cases hlookup : scan.umbrellaChildren.lookup key with
    | none =>
      rw [Scan.childAt, hlookup] at hmin
      exact absurd hmin (by decide)
    | some s =>
      have hmem := IterMap.mem_entries.mpr hlookup
      have hat : scan.childAt key = s := childAt_of_mem hmem
      exact ⟨⟨key, s⟩, ⟨hmem, hstarts, hat ▸ hmin⟩, rfl⟩

lemma qualifyingChildren_eq (scan : Scan) (dir : String) : qualifyingChildren scan dir =
    (qualifyingKeys scan dir).map fun key => ⟨key, scan.childAt key⟩ := by
  rw [qualifyingKeys, List.map_map]
  have hself : ∀ e ∈ qualifyingChildren scan dir,
      (⟨e.1, scan.childAt e.1⟩ : Σ _ : String, DirectoryStats) = e := by
    intro e he
    rw [qualifyingChildren, (sortBy_perm _ _).mem_iff] at he
    rw [childAt_of_mem (List.mem_filter.mp he).1]
  exact ((List.map_congr_left hself).trans (List.map_id _)).symm

lemma qualifyingKeys_congr (h : ScanTallies lower l scan) (h' : ScanTallies lower l' scan') (hperm : l.Perm l')
    (dir : String) : qualifyingKeys scan dir = qualifyingKeys scan' dir := by
  apply eq_of_ordered_of_mem_iff (ordered_qualifyingKeys scan dir) (ordered_qualifyingKeys scan' dir)
  intro key
  rw [mem_qualifyingKeys, mem_qualifyingKeys, (h.children key).sources, (h'.children key).sources, hperm.countP_eq]

end Children

section SourceDirectory

variable {rounds rounds' : ℕ}

def descentRounds (filePaths : List String) : ℕ := (filePaths.map fun path => (split path '/').length).foldr max 0

lemma length_le_descentRounds (h : path ∈ l) : (split path '/').length ≤ descentRounds l := by
  induction l with
  | nil => simp at h
  | cons p l ih =>
    change _ ≤ max (split p '/').length (descentRounds l)
    rcases List.mem_cons.mp h with rfl | h
    · exact le_max_left _ _
    · exact (ih h).trans (le_max_right _ _)

lemma exists_source (h : ScanTallies lower l scan) (hpos : 0 < (scan.dirAt dir).sourceFileCount) :
    ∃ path ∈ l, isSourceFile path ∧ liesUnder [dir] path := by
  obtain ⟨path, hpath, hfiled⟩ := List.countP_pos_iff.mp ((h.dirs dir).sources ▸ hpos)
  refine ⟨path, hpath, ?_⟩
  by_contra hnot
  rw [not_and_or] at hnot
  rcases hnot with hnot | hnot <;> simp [filedUnder, fileKind, hnot] at hfiled

lemma enough_of_descentRounds (h : ScanTallies lower l scan) (hpos : 0 < (scan.dirAt dir).sourceFileCount)
    (hrounds : descentRounds l ≤ rounds) : Enough (descentFiles lower l dir) [] rounds := by
  constructor
  · obtain ⟨path, hpath, -, hunder⟩ := exists_source h hpos
    have hdeep := length_of_liesUnder hunder
    have hbound := length_le_descentRounds hpath
    omega
  · intro f hf
    obtain ⟨path, hpath, rfl⟩ := List.mem_map.mp hf
    rw [List.mem_filter, isSourceBelow, Bool.and_eq_true, decide_eq_true_eq, getTopLevelDirectory_eq_some] at hpath
    have hsplit := congrArg List.length (@split_rel lower _ _ hpath.2.2)
    have hbound := length_le_descentRounds hpath.1
    rw [List.length_cons] at hsplit
    rw [List.length_nil]
    omega

lemma umbrellaFiles_eq (h : ScanTallies lower l scan) (humbrella : isUmbrellaCandidate lower dir)
    (hpos : 0 < (scan.dirAt dir).sourceFileCount) : scan.umbrellaFiles[dir]? =
      some (descentFiles lower l dir) := by
  have hfiles := h.files dir humbrella
  obtain ⟨path, hpath, hsource, hunder⟩ := exists_source h hpos
  cases hentry : scan.umbrellaFiles[dir]? with
  | none =>
    rw [Std.ExtTreeMap.getD_eq_getD_getElem?, hentry] at hfiles
    have hmem : path ∈ l.filter (isSourceBelow dir) := by
      rw [List.mem_filter, isSourceBelow, hsource, Bool.true_and, decide_eq_true_eq, getTopLevelDirectory_eq_some]
      exact ⟨hpath, hunder⟩
    rw [List.map_eq_nil_iff.mp hfiles.symm] at hmem
    simp at hmem
  | some files =>
    rw [Std.ExtTreeMap.getD_eq_getD_getElem?, hentry] at hfiles
    exact congrArg some hfiles

lemma modulesOfSourceDir_eq (h : ScanTallies lower l scan) (hpos : 0 < (scan.dirAt dir).sourceFileCount) :
    modulesOfSourceDir o lower rounds scan dir =
      if isUmbrellaCandidate lower dir then
        if l.countP (isDirectSource lower dir) ≤ umbrellaMaxParentDirectFiles ∧
            umbrellaMinChildren ≤ (qualifyingKeys scan dir).length then
          some ((qualifyingKeys scan dir).map fun key => (scan.childAt key).toModule key (basename key) false)
        else
          (descendUmbrellaChain o dir (descentFiles lower l dir) rounds []).map
            (·.getD [(scan.dirAt dir).toModule dir dir false])
      else some [(scan.dirAt dir).toModule dir dir false] := by
  rw [modulesOfSourceDir]
  by_cases humbrella : isUmbrellaCandidate lower dir
  · simp only [humbrella, if_true, h.direct dir humbrella,
      umbrellaFiles_eq h humbrella hpos, qualifyingChildren_eq, List.length_map, List.map_map]
    rfl
  · simp only [humbrella]
    rfl

theorem modulesOfSourceDir_congr (o o' : TableOrders) (h : ScanTallies lower l scan)
    (h' : ScanTallies lower l' scan') (hperm : l.Perm l') (hpos : 0 < (scan.dirAt dir).sourceFileCount)
    (henough : Enough (descentFiles lower l dir) [] rounds)
    (henough' : Enough (descentFiles lower l' dir) [] rounds') :
    modulesOfSourceDir o lower rounds scan dir = modulesOfSourceDir o' lower rounds' scan' dir := by
  have hpos' : 0 < (scan'.dirAt dir).sourceFileCount := by
    rwa [(h'.dirs dir).sources, ← hperm.countP_eq, ← (h.dirs dir).sources]
  have hfiles : (descentFiles lower l dir).Perm (descentFiles lower l' dir) := (hperm.filter _).map _
  rw [modulesOfSourceDir_eq h hpos, modulesOfSourceDir_eq h' hpos', descend_congr o o' dir hfiles henough henough',
    hperm.countP_eq, qualifyingKeys_congr h h' hperm, (h.dirs dir).toModule_eq (h'.dirs dir) hperm]
  simp only [fun key => (h.children key).toModule_eq (h'.children key) hperm key (basename key) false]

theorem modulesOfSourceDir_spec (o : TableOrders) (h : ScanTallies lower l scan)
    (hpos : 0 < (scan.dirAt dir).sourceFileCount) (henough : Enough (descentFiles lower l dir) [] rounds) :
    ∃ modules, modulesOfSourceDir o lower rounds scan dir = some modules ∧
    DirectoryModules lower l dir modules := by
  obtain ⟨path, -, -, hunder⟩ := exists_source h hpos
  have hdir : split dir '/' = [dir] := split_of_not_mem (not_mem_of_liesUnder hunder dir (by simp))
  have hwhole : DirectoryModules lower l dir [(scan.dirAt dir).toModule dir dir false] := by
    have hcomponents : ((scan.dirAt dir).toModule dir dir false).components = [dir] := hdir
    refine ⟨?_, ?_, List.pairwise_singleton _ _⟩
    · intro m hm
      rw [List.mem_singleton.mp hm, hcomponents]
      rfl
    · intro m hm
      rw [List.mem_singleton.mp hm]
      exact (h.dirs dir).countsBelow hcomponents rfl rfl
  rw [modulesOfSourceDir_eq h hpos]
  split
  · split
    · refine ⟨_, rfl, ?_⟩
      have hkey : ∀ key ∈ qualifyingKeys scan dir, ∃ child, split key '/' = [dir, child] ∧
          CountsBelow lower l ((scan.childAt key).toModule key (basename key) false) := by
        intro key hkey
        obtain ⟨hstarts, hmin⟩ := mem_qualifyingKeys.mp hkey
        obtain ⟨top, child, hsplit, hsources, htests⟩ := child_key h (Nat.lt_of_lt_of_le (by decide) hmin)
        rw [startsWith_slash_iff, hdir, liesUnder_iff, hsplit] at hstarts
        obtain ⟨rest, -, hrest⟩ := hstarts
        obtain rfl := (List.cons.inj hrest).1
        refine ⟨child, hsplit, ?_⟩
        have hcomponents : ((scan.childAt key).toModule key (basename key) false).components = [top, child] :=
          hsplit
        exact ⟨hcomponents ▸ hsources, hcomponents ▸ htests⟩
      refine ⟨?_, ?_, ?_⟩
      · intro m hm
        obtain ⟨key, hmem, rfl⟩ := List.mem_map.mp hm
        obtain ⟨child, hsplit, -⟩ := hkey key hmem
        change (split key '/').head? = some dir
        rw [hsplit]
        rfl
      · intro m hm
        obtain ⟨key, hmem, rfl⟩ := List.mem_map.mp hm
        exact (hkey key hmem).choose_spec.2
      · rw [List.pairwise_map]
        refine (ordered_qualifyingKeys scan dir).imp_of_mem ?_
        intro a b ha hb hlt
        obtain ⟨child, hsplit, -⟩ := hkey a ha
        obtain ⟨child', hsplit', -⟩ := hkey b hb
        apply apart_of_length
        · change (split a '/').length = (split b '/').length
          rw [hsplit, hsplit']
          rfl
        · change split a '/' ≠ split b '/'
          intro heq
          have hab : a = b := by rw [← join_split a '/', heq, join_split]
          simp [hab] at hlt
    · obtain ⟨found, hfound, hspec⟩ := descend_spec o lower l dir henough
      rw [hfound]
      cases found with
      | none => exact ⟨_, rfl, hwhole⟩
      | some modules => exact ⟨_, rfl, hspec modules rfl⟩
  · exact ⟨_, rfl, hwhole⟩

end SourceDirectory

section Detection

variable {rounds rounds' : ℕ} {p : DirectoryStats → Bool}

lemma mapM_eq_some {α β : Type} {f : α → Option β} {g : α → β} {xs : List α} (h : ∀ a ∈ xs, f a = some (g a)) :
    xs.mapM f = some (xs.map g) := by
  induction xs with
  | nil => rfl
  | cons a xs ih =>
    rw [List.mapM_cons, h a List.mem_cons_self, ih fun b hb => h b (List.mem_cons_of_mem _ hb)]
    rfl

def includedDirs (lower : String → String) (scan : Scan) (p : DirectoryStats → Bool) : List String :=
  ((scan.dirStats.entries.filter fun e => (shouldExcludeDirectory lower e.1).isNone).filter (p ·.2)).map Sigma.fst

def hasSources (s : DirectoryStats) : Bool := 0 < s.sourceFileCount

def hasOnlyTests (s : DirectoryStats) : Bool := s.sourceFileCount = 0 ∧ 0 < s.testFileCount

lemma dirAt_of_mem {e : Σ _ : String, DirectoryStats} (h : e ∈ scan.dirStats.entries) : scan.dirAt e.1 = e.2 := by
  rw [Scan.dirAt, IterMap.mem_entries.mp h]
  rfl

lemma nodup_includedDirs (lower : String → String) (scan : Scan) (p : DirectoryStats → Bool) :
    (includedDirs lower scan p).Nodup :=
  List.Nodup.sublist ((List.filter_sublist.trans List.filter_sublist).map _) scan.dirStats.nodupKeys

lemma mem_includedDirs (hp : p default = false) :
    dir ∈ includedDirs lower scan p ↔ shouldExcludeDirectory lower dir = none ∧ p (scan.dirAt dir) := by
  simp only [includedDirs, List.mem_map, List.mem_filter, Option.isNone_iff_eq_none]
  constructor
  · rintro ⟨e, ⟨⟨he, hincluded⟩, hpass⟩, rfl⟩
    rw [dirAt_of_mem he]
    exact ⟨hincluded, hpass⟩
  · rintro ⟨hincluded, hpass⟩
    cases hlookup : scan.dirStats.lookup dir with
    | none =>
      rw [Scan.dirAt, hlookup, Option.getD_none, hp] at hpass
      simp at hpass
    | some s =>
      have hmem := IterMap.mem_entries.mpr hlookup
      have hat : scan.dirAt dir = s := dirAt_of_mem hmem
      exact ⟨⟨dir, s⟩, ⟨⟨hmem, hincluded⟩, hat ▸ hpass⟩, rfl⟩

def testModule (scan : Scan) (dir : String) : InferredModule :=
  { (scan.dirAt dir).toModule dir dir false with sourceFileCount := 0 }

lemma detect_modules (o : TableOrders) (lower : String → String) (rounds : ℕ)
    (filePaths : List String) (name : String) :
    (detectInferredModules o lower rounds filePaths name).map (·.modules) =
      let scan := scanFiles o lower filePaths
      if includedDirs lower scan hasSources ≠ [] then
        ((includedDirs lower scan hasSources).mapM (modulesOfSourceDir o lower rounds scan)).map List.flatten
      else if includedDirs lower scan hasOnlyTests ≠ [] then
        some ((includedDirs lower scan hasOnlyTests).map (testModule scan))
      else if 0 < scan.rootStats.sourceFileCount ∨ 0 < scan.rootStats.testFileCount then
        some [scan.rootStats.toModule "." name true]
      else some [] := by
  have htests : ∀ e ∈ ((scanFiles o lower filePaths).dirStats.entries.filter fun e =>
      (shouldExcludeDirectory lower e.1).isNone).filter (hasOnlyTests ·.2),
      { e.2.toModule e.1 e.1 false with sourceFileCount := 0 } = testModule (scanFiles o lower filePaths) e.1 := by
    intro e he
    rw [testModule, dirAt_of_mem (List.mem_filter.mp (List.mem_filter.mp he).1).1]
  simp only [includedDirs, List.mapM_map, List.map_map, Function.comp_def, ne_eq, List.map_eq_nil_iff]
  rw [← List.map_congr_left htests, detectInferredModules]
  simp only [hasSources, hasOnlyTests, ne_eq]
  split
  · rename_i hsources
    rw [Option.map_map]
    exact (if_pos hsources).symm
  · rename_i hsources
    refine Eq.trans ?_ (if_neg hsources).symm
    split
    · rename_i htestOnly
      exact (if_pos htestOnly).symm
    · rename_i htestOnly
      refine Eq.trans ?_ (if_neg htestOnly).symm
      split <;> rfl

lemma includedDirs_perm (h : ScanTallies lower l scan) (h' : ScanTallies lower l' scan') (hperm : l.Perm l')
    (hp : p default = false) (hcounts : ∀ s s' : DirectoryStats, s.sourceFileCount = s'.sourceFileCount →
      s.testFileCount = s'.testFileCount → p s = p s') :
    (includedDirs lower scan p).Perm (includedDirs lower scan' p) := by
  rw [List.perm_ext_iff_of_nodup (nodup_includedDirs lower scan p) (nodup_includedDirs lower scan' p)]
  intro dir
  have hsources : (scan.dirAt dir).sourceFileCount = (scan'.dirAt dir).sourceFileCount := by
    rw [(h.dirs dir).sources, (h'.dirs dir).sources, hperm.countP_eq]
  have htests : (scan.dirAt dir).testFileCount = (scan'.dirAt dir).testFileCount := by
    rw [(h.dirs dir).tests, (h'.dirs dir).tests, hperm.countP_eq]
  rw [mem_includedDirs hp, mem_includedDirs hp, hcounts _ _ hsources htests]

lemma hasSources_counts {s s' : DirectoryStats} (h : s.sourceFileCount = s'.sourceFileCount)
    (_ : s.testFileCount = s'.testFileCount) : hasSources s = hasSources s' := by
  rw [hasSources, hasSources, h]

lemma hasOnlyTests_counts {s s' : DirectoryStats} (h : s.sourceFileCount = s'.sourceFileCount)
    (h' : s.testFileCount = s'.testFileCount) : hasOnlyTests s = hasOnlyTests s' := by
  rw [hasOnlyTests, hasOnlyTests, h, h']

lemma pos_of_mem_includedDirs (h : dir ∈ includedDirs lower scan hasSources) :
    0 < (scan.dirAt dir).sourceFileCount := by
  simpa [hasSources] using ((mem_includedDirs rfl).mp h).2

def inExcludedDirectory (lower : String → String) (path : String) : Bool :=
  (getTopLevelDirectory path).any fun dir => (shouldExcludeDirectory lower dir).isSome

def isSourceUnder (lower : String → String) (m : InferredModule) (path : String) : Bool :=
  liesUnder m.components path && isSourceFile path && !isTestPath lower path

def isTestUnder (lower : String → String) (m : InferredModule) (path : String) : Bool :=
  liesUnder m.components path && isSourceFile path && isTestPath lower path

/-- The module lies in no excluded top-level directory, and it counts the files below it that lie in none. -/
structure ModuleAccount (lower : String → String) (l : List String) (m : InferredModule) : Prop where
  included : ∀ dir, m.components.head? = some dir → shouldExcludeDirectory lower dir = none
  sources : m.sourceFileCount = l.countP fun path => isSourceUnder lower m path && !inExcludedDirectory lower path
  tests : m.testFileCount = l.countP fun path => isTestUnder lower m path && !inExcludedDirectory lower path

lemma CountsBelow.account {m : InferredModule} (h : CountsBelow lower l m) (htop : m.components.head? = some dir)
    (hincluded : shouldExcludeDirectory lower dir = none) : ModuleAccount lower l m := by
  have hout : ∀ path, liesUnder m.components path → inExcludedDirectory lower path = false := by
    intro path hunder
    rw [inExcludedDirectory, getTopLevelDirectory_of_liesUnder hunder htop]
    simp [hincluded]
  refine ⟨?_, ?_, ?_⟩
  · intro dir' htop'
    rw [htop] at htop'
    exact Option.some.inj htop' ▸ hincluded
  · rw [h.sources]
    apply List.countP_congr
    intro path _
    by_cases hunder : liesUnder m.components path
    · by_cases hsource : isSourceFile path <;>
        simp [filedUnder, fileKind, isSourceUnder, hunder, hsource, hout path hunder]
    · simp [filedUnder, isSourceUnder, hunder]
  · rw [h.tests]
    apply List.countP_congr
    intro path _
    by_cases hunder : liesUnder m.components path
    · by_cases hsource : isSourceFile path <;>
        simp [filedUnder, fileKind, isTestUnder, hunder, hsource, hout path hunder]
    · simp [filedUnder, isTestUnder, hunder]

lemma root_account (h : ScanTallies lower l scan) (hsources : includedDirs lower scan hasSources = [])
    (htests : includedDirs lower scan hasOnlyTests = []) (name : String) :
    ModuleAccount lower l (scan.rootStats.toModule "." name true) := by
  have hexcluded : ∀ path ∈ l, isSourceFile path → ∀ top, getTopLevelDirectory path = some top →
      (shouldExcludeDirectory lower top).isSome := by
    intro path hpath hsource top htop
    by_contra hincluded
    rw [Option.not_isSome_iff_eq_none] at hincluded
    have hfiled : filedUnder lower [top] path =
        some (isTestPath lower path, extensionToLanguage (pathExtension path)) := by
      simp [filedUnder, fileKind, hsource, getTopLevelDirectory_eq_some.mp htop]
    have hnone : ¬ hasSources (scan.dirAt top) ∧ ¬ hasOnlyTests (scan.dirAt top) := by
      refine ⟨fun hpass => ?_, fun hpass => ?_⟩
      · have hmem : top ∈ includedDirs lower scan hasSources := (mem_includedDirs rfl).mpr ⟨hincluded, hpass⟩
        simp [hsources] at hmem
      · have hmem : top ∈ includedDirs lower scan hasOnlyTests := (mem_includedDirs rfl).mpr ⟨hincluded, hpass⟩
        simp [htests] at hmem
    have hcounted : 0 < (scan.dirAt top).sourceFileCount ∨ 0 < (scan.dirAt top).testFileCount := by
      rw [(h.dirs top).sources, (h.dirs top).tests, List.countP_pos_iff, List.countP_pos_iff]
      cases htest : isTestPath lower path with
      | false => exact Or.inl ⟨path, hpath, by simp [hfiled, htest]⟩
      | true => exact Or.inr ⟨path, hpath, by simp [hfiled, htest]⟩
    simp only [hasSources, hasOnlyTests, decide_eq_true_eq] at hnone
    omega
  have hroot : ∀ path, liesUnder [] path = true := by
    intro path
    have hne : split path '/' ≠ [] := by simp [split, splitAll_ne_nil]
    exact liesUnder_iff.mpr ⟨_, hne, rfl⟩
  have hcomponents : (scan.rootStats.toModule "." name true).components = [] := rfl
  refine ⟨?_, ?_, ?_⟩
  · intro dir hdir
    simp [hcomponents] at hdir
  · refine h.root.sources.trans (List.countP_congr fun path hpath => ?_)
    rw [isSourceUnder, hcomponents, hroot]
    by_cases hsource : isSourceFile path
    · cases htop : getTopLevelDirectory path with
      | none => simp [rootFiled, fileKind, inExcludedDirectory, htop, hsource]
      | some top => simp [rootFiled, inExcludedDirectory, htop, hsource, hexcluded path hpath hsource top htop]
    · simp [rootFiled, fileKind, hsource]
  · refine h.root.tests.trans (List.countP_congr fun path hpath => ?_)
    rw [isTestUnder, hcomponents, hroot]
    by_cases hsource : isSourceFile path
    · cases htop : getTopLevelDirectory path with
      | none => simp [rootFiled, fileKind, inExcludedDirectory, htop, hsource]
      | some top => simp [rootFiled, inExcludedDirectory, htop, hsource, hexcluded path hpath hsource top htop]
    · simp [rootFiled, fileKind, hsource]

lemma testModule_account (h : ScanTallies lower l scan) (hdir : dir ∈ includedDirs lower scan hasOnlyTests) :
    (testModule scan dir).components.head? = some dir ∧ ModuleAccount lower l (testModule scan dir) := by
  obtain ⟨hincluded, hpass⟩ := (mem_includedDirs rfl).mp hdir
  rw [hasOnlyTests, decide_eq_true_eq] at hpass
  have hcomponents : (testModule scan dir).components = [dir] := by
    obtain ⟨path, -, hfiled⟩ := List.countP_pos_iff.mp ((h.dirs dir).tests ▸ hpass.2)
    apply split_of_not_mem
    intro hslash
    have hout : ¬ liesUnder [dir] path := fun hunder => not_mem_of_liesUnder hunder dir (by simp) hslash
    simp [filedUnder, hout] at hfiled
  have htop : (testModule scan dir).components.head? = some dir := by
    rw [hcomponents]
    rfl
  exact ⟨htop, ((h.dirs dir).countsBelow hcomponents hpass.1.symm rfl).account htop hincluded⟩

lemma detect_perm (lower : String → String) (hperm : l'.Perm l) (hrounds : descentRounds l ≤ rounds)
    (name : String) (o o' : TableOrders) {modules : List InferredModule}
    (h : (detectInferredModules o lower (descentRounds l) l name).map (·.modules) = some modules) :
    ∃ modules', (detectInferredModules o' lower rounds l' name).map (·.modules) = some modules' ∧
      modules'.Perm modules := by
  have hscan := scanFiles_tallies o lower l
  have hscan' := scanFiles_tallies o' lower l'
  have hsources := includedDirs_perm hscan' hscan hperm rfl fun _ _ => hasSources_counts
  have htests := includedDirs_perm hscan' hscan hperm rfl fun _ _ => hasOnlyTests_counts
  rw [detect_modules] at h ⊢
  simp only at h ⊢
  by_cases hsome : includedDirs lower (scanFiles o lower l) hasSources = []
  · rw [if_neg (not_not.mpr hsome)] at h
    rw [if_neg (not_not.mpr (List.perm_nil.mp (hsome ▸ hsources)))]
    by_cases htestOnly : includedDirs lower (scanFiles o lower l) hasOnlyTests = []
    · rw [if_neg (not_not.mpr htestOnly)] at h
      rw [if_neg (not_not.mpr (List.perm_nil.mp (htestOnly ▸ htests)))]
      refine ⟨modules, ?_, .refl _⟩
      rw [← h, hscan'.root.sources, hscan'.root.tests, hperm.countP_eq, hperm.countP_eq, ← hscan.root.sources,
        ← hscan.root.tests, hscan'.root.toModule_eq hscan.root hperm]
    · rw [if_pos htestOnly] at h
      obtain rfl := Option.some.inj h
      have htestOnly' : includedDirs lower (scanFiles o' lower l') hasOnlyTests ≠ [] :=
        fun hnil => htestOnly (List.nil_perm.mp (hnil ▸ htests))
      have hmodule : testModule (scanFiles o' lower l') = testModule (scanFiles o lower l) := by
        funext dir
        rw [testModule, testModule, (hscan'.dirs dir).toModule_eq (hscan.dirs dir) hperm]
      rw [if_pos htestOnly', hmodule]
      exact ⟨_, rfl, htests.map _⟩
  · have hsome' : includedDirs lower (scanFiles o' lower l') hasSources ≠ [] :=
      fun hnil => hsome (List.nil_perm.mp (hnil ▸ hsources))
    rw [if_pos hsome] at h
    rw [if_pos hsome']
    let found : String → List InferredModule := fun dir =>
      (modulesOfSourceDir o lower (descentRounds l) (scanFiles o lower l) dir).getD []
    have hfound : ∀ dir ∈ includedDirs lower (scanFiles o lower l) hasSources,
        modulesOfSourceDir o lower (descentRounds l) (scanFiles o lower l) dir = some (found dir) := by
      intro dir hdir
      have hpos := pos_of_mem_includedDirs hdir
      obtain ⟨ms, hms, -⟩ := modulesOfSourceDir_spec o hscan hpos (enough_of_descentRounds hscan hpos le_rfl)
      simp only [found, hms, Option.getD_some]
    have hfound' : ∀ dir ∈ includedDirs lower (scanFiles o' lower l') hasSources,
        modulesOfSourceDir o' lower rounds (scanFiles o' lower l') dir = some (found dir) := by
      intro dir hdir
      have hmem := hsources.mem_iff.mp hdir
      have hpos := pos_of_mem_includedDirs hmem
      have henough := enough_of_descentRounds hscan hpos hrounds
      rw [← hfound dir hmem]
      exact (modulesOfSourceDir_congr o o' hscan hscan' hperm.symm hpos
        (enough_of_descentRounds hscan hpos le_rfl) (henough.perm ((hperm.symm.filter _).map _))).symm
    rw [mapM_eq_some hfound] at h
    rw [mapM_eq_some hfound']
    obtain rfl := Option.some.inj h
    exact ⟨_, rfl, (hsources.map found).flatten⟩

lemma detect_account (o : TableOrders) (lower : String → String) (l : List String) (name : String) :
    ∃ modules, (detectInferredModules o lower (descentRounds l) l name).map (·.modules) = some modules ∧
      modules.Pairwise Apart ∧ ∀ m ∈ modules, ModuleAccount lower l m := by
  have hscan := scanFiles_tallies o lower l
  rw [detect_modules]
  simp only
  split
  · have hspec : ∀ dir ∈ includedDirs lower (scanFiles o lower l) hasSources, ∃ modules,
        modulesOfSourceDir o lower (descentRounds l) (scanFiles o lower l) dir = some modules ∧
          DirectoryModules lower l dir modules := by
      intro dir hdir
      have hpos := pos_of_mem_includedDirs hdir
      exact modulesOfSourceDir_spec o hscan hpos (enough_of_descentRounds hscan hpos le_rfl)
    choose! found hfound hmodules using hspec
    rw [mapM_eq_some hfound]
    refine ⟨_, rfl, ?_, ?_⟩
    · rw [List.pairwise_flatten, List.pairwise_map]
      constructor
      · intro ms hms
        obtain ⟨dir, hdir, rfl⟩ := List.mem_map.mp hms
        exact (hmodules dir hdir).apart
      · refine (nodup_includedDirs lower _ hasSources).imp_of_mem ?_
        intro a b ha hb hne m hm m' hm'
        exact apart_of_head ((hmodules a ha).top m hm) ((hmodules b hb).top m' hm') hne
    · intro m hm
      obtain ⟨ms, hms, hm⟩ := List.mem_flatten.mp hm
      obtain ⟨dir, hdir, rfl⟩ := List.mem_map.mp hms
      exact ((hmodules dir hdir).counts m hm).account ((hmodules dir hdir).top m hm)
        ((mem_includedDirs rfl).mp hdir).1
  · rename_i hsources
    split
    · refine ⟨_, rfl, ?_, ?_⟩
      · rw [List.pairwise_map]
        refine (nodup_includedDirs lower _ hasOnlyTests).imp_of_mem ?_
        intro a b ha hb hne
        exact apart_of_head (testModule_account hscan ha).1 (testModule_account hscan hb).1 hne
      · intro m hm
        obtain ⟨dir, hdir, rfl⟩ := List.mem_map.mp hm
        exact (testModule_account hscan hdir).2
    · rename_i htests
      split
      · refine ⟨_, rfl, List.pairwise_singleton _ _, ?_⟩
        intro m hm
        rw [List.mem_singleton.mp hm]
        exact root_account hscan (not_not.mp hsources) (not_not.mp htests) name
      · exact ⟨[], rfl, List.Pairwise.nil, by simp⟩

/-- One set of modules is found whatever the order of the paths and of the tables, and in enough rounds always:
no module's directory is another's or above it, none lies in an excluded top-level directory, and each counts
the files below it that lie in none. -/
theorem inferred_modules_account (lower : String → String) (filePaths : List String) (repoDisplayName : String) :
    ∃ modules : List InferredModule,
      (∀ (o : TableOrders) (filePaths' : List String) (rounds : ℕ), filePaths'.Perm filePaths →
        descentRounds filePaths ≤ rounds →
          ∃ result, detectInferredModules o lower rounds filePaths' repoDisplayName = some result ∧
            result.modules.Perm modules) ∧
      modules.Pairwise Apart ∧ ∀ m ∈ modules, ModuleAccount lower filePaths m := by
  let inserted : TableOrders := ⟨.asInserted _ _, .asInserted _ _⟩
  obtain ⟨modules, hmodules, hapart, haccount⟩ := detect_account inserted lower filePaths repoDisplayName
  refine ⟨modules, ?_, hapart, haccount⟩
  intro o filePaths' rounds hperm hrounds
  obtain ⟨modules', hmodules', hsame⟩ := detect_perm lower hperm hrounds repoDisplayName inserted o hmodules
  obtain ⟨result, hresult, rfl⟩ := Option.map_eq_some_iff.mp hmodules'
  exact ⟨result, hresult, hsame⟩

/-- The fallback root counts one of the two sources of a repository whose other one is vendored. -/
theorem vendored_file_not_counted :
    ∃ o result m, detectInferredModules o String.toLower 2 ["a.c", "vendor/x.c"] "repo" = some result ∧
      m ∈ result.modules ∧ m.sourceFileCount = 1 ∧
      ["a.c", "vendor/x.c"].countP (isSourceUnder String.toLower m) = 2 := by
  let inserted : TableOrders := ⟨.asInserted _ _, .asInserted _ _⟩
  let root : InferredModule := ⟨".", "repo", 1, 0, true, [], some "c"⟩
  have hfound : detectInferredModules inserted String.toLower 2 ["a.c", "vendor/x.c"] "repo" =
      some { modules := [root], excludedDirectories := [⟨"vendor", .vendorDependency, 1⟩] } := by decide +kernel
  exact ⟨inserted, _, root, hfound, by simp, rfl, by decide +kernel⟩

end Detection

end RepoGraph.Indexer
