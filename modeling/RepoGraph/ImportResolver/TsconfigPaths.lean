import RepoGraph.ImportResolver.RelativeImports
import RepoGraph.Lib.Tally

/-! What a tsconfig `paths` mapping selects for a specifier: an exact pattern, otherwise the wildcard
patterns of longest prefix, and of each pattern the first substitution that reaches an indexed file inside
the repository. -/

namespace RepoGraph.ImportResolver

open Lib Lib.Text Lib.PathWalk Ir

section Specification

def Captures (pattern specifier before capture : String) : Prop :=
  ∃ after, pattern = before ++ "*" ++ after ∧ '*' ∉ before.toList ∧ specifier = before ++ capture ++ after

def Declares (config : TsconfigAliasConfig) (pattern : String) (targets : List String) : Prop :=
  (pattern, targets) ∈ config.paths.toList

def Exact (config : TsconfigAliasConfig) (specifier : String) (targets : List String) : Prop :=
  Declares config specifier targets ∧ '*' ∉ specifier.toList

def LongestMatch (config : TsconfigAliasConfig) (specifier pattern : String) (targets : List String)
    (capture : String) : Prop :=
  Declares config pattern targets ∧ ∃ before, Captures pattern specifier before capture ∧
    ∀ pattern' targets' before' capture', Declares config pattern' targets' →
      Captures pattern' specifier before' capture' → startsWith before before'

def names (dir : String) : List String := (split dir '/').filter (· ≠ "")

def LeadsWithin (dir : List String) (path : String) (place : List String) : Prop :=
  ¬ startsWith path "/" ∧ Walk fileMove dir (split path '/') place

/-- A substitution reaches a file at a place of the repository, by the extension of the place itself or as what the
place admits. -/
def ReachesBy (admits : List String → String → Prop) (inv : FileInventory) (config : TsconfigAliasConfig)
    (target capture key : String) : Prop :=
  ∃ base place path, LeadsWithin (names config.partitionPrefix) config.baseUrl base ∧
    LeadsWithin base (replaceFirst target '*' capture) place ∧
    (path = join "/" place ∧ (∃ ext ∈ exactSubstitutionExtensions, endsWith path ext) ∨ admits place path) ∧
    inv.fileKeyFor path = some key

def Reaches : FileInventory → TsconfigAliasConfig → String → String → String → Prop := ReachesBy Admits

def Decides (inv : FileInventory) (config : TsconfigAliasConfig) (targets : List String) (capture key : String) :
    Prop :=
  First (Reaches inv config · capture ·) targets key

/-- What is selected for a specifier where each list of substitutions decides for some files. -/
inductive Specified (decides : List String → String → String → Prop) (config : TsconfigAliasConfig)
    (specifier : String) : TsconfigAliasHits → Prop
  | exact {targets : List String} {hits : BTreeSet String} : Exact config specifier targets →
      (∀ key, key ∈ hits ↔ decides targets "" key) → Specified decides config specifier (.selectedPattern hits)
  | none : (∀ targets, ¬ Exact config specifier targets) →
      (∀ pattern targets before capture, Declares config pattern targets →
        ¬ Captures pattern specifier before capture) →
      Specified decides config specifier .noPatternMatches
  | longest {pattern : String} {targets : List String} {capture : String} {hits : BTreeSet String} :
      (∀ targets, ¬ Exact config specifier targets) → LongestMatch config specifier pattern targets capture →
      (∀ pattern' targets' capture', LongestMatch config specifier pattern' targets' capture' →
        pattern' = pattern) →
      (∀ key, key ∈ hits ↔ decides targets capture key) →
      Specified decides config specifier (.selectedPattern hits)
  | tied {pattern pattern' : String} {targets targets' : List String} {capture capture' : String}
      {hits : BTreeSet String} :
      (∀ targets, ¬ Exact config specifier targets) → LongestMatch config specifier pattern targets capture →
      LongestMatch config specifier pattern' targets' capture' → pattern ≠ pattern' →
      (∀ key, key ∈ hits ↔ ∃ pattern targets capture, LongestMatch config specifier pattern targets capture ∧
        decides targets capture key) →
      Specified decides config specifier (.tiedPatterns hits)

end Specification

section Matching

variable {pattern specifier before before' after capture capture' : String}

lemma splitOnce_star {after : String} :
    splitOnce pattern '*' = some (before, after) ↔ pattern = before ++ "*" ++ after ∧ '*' ∉ before.toList := by
  have hstar : "*" = String.singleton '*' := rfl
  rw [hstar, splitOnce_eq_some]

lemma Captures.unique (h : Captures pattern specifier before capture)
    (h' : Captures pattern specifier before' capture') : before = before' ∧ capture = capture' := by
  obtain ⟨after, hpattern, hstar, hspecifier⟩ := h
  obtain ⟨after', hpattern', hstar', hspecifier'⟩ := h'
  have hsplit := splitOnce_star.mpr ⟨hpattern, hstar⟩
  have hsplit' := splitOnce_star.mpr ⟨hpattern', hstar'⟩
  obtain ⟨rfl, rfl⟩ := Prod.mk.inj (Option.some.inj (hsplit.symm.trans hsplit'))
  refine ⟨rfl, ?_⟩
  rw [hspecifier] at hspecifier'
  exact append_left_unique (append_right_unique hspecifier')

lemma matchAliasPattern_of_split {after : String} (h : splitOnce pattern '*' = some (before, after)) :
    matchAliasPattern pattern specifier = some capture ↔ specifier = before ++ capture ++ after := by
  have hmiddle : ∀ mid, String.ofList (((before ++ mid ++ after).toList.drop before.length).take
      ((before ++ mid ++ after).length - before.length - after.length)) = mid := by
    intro mid
    have hcount : (before ++ mid ++ after).length - before.length - after.length = mid.toList.length := by
      simp only [String.length_append, String.length_toList]
      omega
    rw [hcount, ← String.length_toList, String.toList_append, String.toList_append, List.append_assoc,
      List.drop_left, List.take_left, String.ofList_toList]
  unfold matchAliasPattern
  rw [h]
  constructor
  · intro hmatch
    simp only at hmatch
    split at hmatch
    · rename_i hcond
      obtain ⟨hlen, hstarts, hends⟩ := hcond
      obtain ⟨rest, rfl⟩ := startsWith_iff.mp hstarts
      obtain ⟨front, hfront⟩ := endsWith_iff.mp hends
      obtain ⟨mid, rfl⟩ := exists_middle hfront hlen
      rw [← String.append_assoc, hmiddle] at hmatch
      rw [← Option.some.inj hmatch, String.append_assoc]
    · simp at hmatch
  · rintro rfl
    simp only
    rw [if_pos, hmiddle]
    refine ⟨?_, ?_, ?_⟩
    · rw [String.length_append, String.length_append]
      omega
    · exact startsWith_iff.mpr ⟨_, String.append_assoc⟩
    · exact endsWith_iff.mpr ⟨_, rfl⟩

lemma captures_iff {after : String} (h : splitOnce pattern '*' = some (before', after)) :
    Captures pattern specifier before capture ↔
      before = before' ∧ matchAliasPattern pattern specifier = some capture := by
  rw [matchAliasPattern_of_split h]
  obtain ⟨hpattern, hstar⟩ := splitOnce_star.mp h
  constructor
  · rintro ⟨after', hpattern', hstar', hspecifier⟩
    have hsplit := splitOnce_star.mpr ⟨hpattern', hstar'⟩
    obtain ⟨rfl, rfl⟩ := Prod.mk.inj (Option.some.inj (hsplit.symm.trans h))
    exact ⟨rfl, hspecifier⟩
  · rintro ⟨rfl, hspecifier⟩
    exact ⟨after, hpattern, hstar, hspecifier⟩

lemma Captures.split (h : Captures pattern specifier before capture) :
    ∃ after, splitOnce pattern '*' = some (before, after) := by
  obtain ⟨after, hpattern, hstar, -⟩ := h
  exact ⟨after, splitOnce_star.mpr ⟨hpattern, hstar⟩⟩

lemma Captures.startsWith (h : Captures pattern specifier before capture) : startsWith specifier before := by
  obtain ⟨after, -, -, rfl⟩ := h
  exact startsWith_iff.mpr ⟨capture ++ after, String.append_assoc⟩

end Matching

section Selection

def wildcardMatch (specifier : String) (entry : String × List String) : Option (ℕ × List String × String) :=
  (splitOnce entry.1 '*').bind fun (before, _) =>
    (matchAliasPattern entry.1 specifier).map fun capture => (before.utf8ByteSize, entry.2, capture)

variable {config : TsconfigAliasConfig} {specifier pattern capture : String} {targets : List String} {n : ℕ}

lemma wildcardMatch_eq_some {targets' : List String} :
    wildcardMatch specifier (pattern, targets') = some (n, targets, capture) ↔
      targets = targets' ∧ ∃ before, Captures pattern specifier before capture ∧ n = before.utf8ByteSize := by
  unfold wildcardMatch
  constructor
  · intro h
    obtain ⟨⟨before, after⟩, hsplit, hmap⟩ := Option.bind_eq_some_iff.mp h
    obtain ⟨capture', hmatch, heq⟩ := Option.map_eq_some_iff.mp hmap
    simp only [Prod.mk.injEq] at heq hmatch
    obtain ⟨rfl, rfl, rfl⟩ := heq
    exact ⟨rfl, before, (captures_iff hsplit).mpr ⟨rfl, hmatch⟩, rfl⟩
  · rintro ⟨rfl, before, hcaptures, rfl⟩
    obtain ⟨after, hsplit⟩ := hcaptures.split
    simp only [hsplit, Option.bind_some, ((captures_iff hsplit).mp hcaptures).2, Option.map_some]

lemma startsWith_of_utf8ByteSize_le {s a b : String} (ha : startsWith s a) (hb : startsWith s b)
    (hle : b.utf8ByteSize ≤ a.utf8ByteSize) : startsWith a b := by
  obtain ⟨rest, rfl⟩ := startsWith_iff.mp ha
  obtain ⟨rest', hrest⟩ := startsWith_iff.mp hb
  rcases List.append_eq_append_iff.mp (by simpa [← String.toList_inj] using hrest) with ⟨mid, hb', -⟩
    | ⟨mid, ha', -⟩
  · rw [utf8ByteSize_eq, utf8ByteSize_eq, hb', byteLen_append] at hle
    obtain rfl : mid = [] := byteLen_eq_zero.mp (by omega)
    have heq : a = b := by
      apply String.toList_inj.mp
      rw [hb', List.append_nil]
    exact startsWith_iff.mpr ⟨"", by rw [heq, String.append_empty]⟩
  · refine startsWith_iff.mpr ⟨.ofList mid, String.toList_inj.mp ?_⟩
    rw [String.toList_append, String.toList_ofList, ha']

lemma utf8ByteSize_le_of_startsWith {a b : String} (h : startsWith a b) : b.utf8ByteSize ≤ a.utf8ByteSize := by
  obtain ⟨rest, rfl⟩ := startsWith_iff.mp h
  rw [String.utf8ByteSize_append]
  omega

def matching (config : TsconfigAliasConfig) (specifier : String) : List (String × ℕ × List String × String) :=
  config.paths.toList.filterMap fun entry => (wildcardMatch specifier entry).map fun m => (entry.1, m)

lemma mem_matching :
    (pattern, n, targets, capture) ∈ matching config specifier ↔
      Declares config pattern targets ∧ ∃ before, Captures pattern specifier before capture ∧
        n = before.utf8ByteSize := by
  unfold matching Declares
  rw [List.mem_filterMap]
  constructor
  · rintro ⟨⟨pattern', targets'⟩, hmem, hmap⟩
    obtain ⟨⟨n', targets'', capture'⟩, hmatch, heq⟩ := Option.map_eq_some_iff.mp hmap
    simp only [Prod.mk.injEq] at heq
    obtain ⟨rfl, rfl, rfl, rfl⟩ := heq
    obtain ⟨rfl, hcaptures⟩ := wildcardMatch_eq_some.mp hmatch
    exact ⟨hmem, hcaptures⟩
  · rintro ⟨hmem, hcaptures⟩
    exact ⟨(pattern, targets), hmem, by rw [wildcardMatch_eq_some.mpr ⟨rfl, hcaptures⟩]; rfl⟩

lemma nodup_keys_matching (config : TsconfigAliasConfig) (specifier : String) :
    ((matching config specifier).map Prod.fst).Nodup :=
  (keys_filterMap_sublist Prod.fst (wildcardMatch specifier) config.paths.toList).nodup
    (Tally.nodup_keys_toList config.paths)

lemma map_matching (config : TsconfigAliasConfig) (specifier : String) :
    (matching config specifier).map Prod.snd = config.paths.toList.filterMap fun (pattern, targets) =>
      (splitOnce pattern '*').bind fun (before, _) =>
        (matchAliasPattern pattern specifier).map fun capture => (before.utf8ByteSize, targets, capture) := by
  unfold matching
  rw [List.map_filterMap]
  congr 1
  funext ⟨pattern, targets⟩
  rw [Option.map_map]
  exact Option.map_id' ..

lemma mem_longest {longest : ℕ} (h : ((matching config specifier).map fun m => m.2.1).max? = some longest) :
    (pattern, longest, targets, capture) ∈ matching config specifier ↔
      LongestMatch config specifier pattern targets capture := by
  obtain ⟨hmem, hmax⟩ := List.max?_eq_some_iff.mp h
  have hbound : ∀ {pattern n targets capture}, (pattern, n, targets, capture) ∈ matching config specifier →
      n ≤ longest :=
    fun hm => hmax _ (List.mem_map_of_mem hm)
  constructor
  · intro hm
    obtain ⟨hdeclares, before, hcaptures, rfl⟩ := mem_matching.mp hm
    refine ⟨hdeclares, before, hcaptures, ?_⟩
    intro pattern' targets' before' capture' hdeclares' hcaptures'
    apply startsWith_of_utf8ByteSize_le hcaptures.startsWith hcaptures'.startsWith
    exact hbound (mem_matching.mpr ⟨hdeclares', before', hcaptures', rfl⟩)
  · rintro ⟨hdeclares, before, hcaptures, hlongest⟩
    obtain ⟨⟨pattern', n', targets', capture'⟩, hm', rfl⟩ := List.mem_map.mp hmem
    obtain ⟨hdeclares', before', hcaptures', hn'⟩ := mem_matching.mp hm'
    have hle := utf8ByteSize_le_of_startsWith (hlongest _ _ _ _ hdeclares' hcaptures')
    have hm := mem_matching.mpr ⟨hdeclares, before, hcaptures, rfl⟩
    have hge := hbound hm
    simp only at hge ⊢
    rwa [show n' = before.utf8ByteSize by omega]

end Selection

section Substitution

variable {inv : FileInventory} {config : TsconfigAliasConfig} {dir spec target capture key s : String}
  {targets : List String} {place base : List String}

lemma joinWithinRepository_eq_some :
    joinWithinRepository dir spec = some s ↔ ∃ place, LeadsWithin (names dir) spec place ∧ s = join "/" place := by
  have hstep : pushWithin = checked fileMove := by
    funext parts seg
    rw [checked_fileMove]
    rfl
  unfold joinWithinRepository LeadsWithin names
  split
  · rename_i habsolute
    simp [habsolute]
  · rename_i hrelative
    rw [hstep]
    constructor
    · intro h
      obtain ⟨place, hfold, rfl⟩ := Option.map_eq_some_iff.mp h
      exact ⟨place, ⟨hrelative, walk_of_foldl_checked hfold⟩, rfl⟩
    · rintro ⟨place, ⟨-, hwalk⟩, rfl⟩
      exact Option.map_eq_some_iff.mpr ⟨place, hwalk.foldl_checked, rfl⟩

def IsName (seg : String) : Prop := seg ≠ "" ∧ '/' ∉ seg.toList

lemma isName_of_mem_names {seg : String} (h : seg ∈ names dir) : IsName seg := by
  obtain ⟨hmem, hne⟩ := List.mem_filter.mp h
  exact ⟨by simpa using hne, not_mem_of_mem_split hmem⟩

lemma LeadsWithin.isName (h : LeadsWithin base spec place) (hbase : ∀ seg ∈ base, IsName seg) :
    ∀ seg ∈ place, IsName seg := by
  apply h.2.forall_mem hbase
  intro seg hseg hdown
  refine ⟨?_, not_mem_of_mem_split hseg⟩
  rintro rfl
  simp [fileMove] at hdown

lemma names_join (h : ∀ seg ∈ place, IsName seg) : names (join "/" place) = place := by
  unfold names
  rcases eq_or_ne place [] with rfl | hne
  · decide
  · have hslash : "/" = String.singleton '/' := rfl
    rw [hslash, split_join hne fun seg hseg => (h seg hseg).2]
    exact List.filter_eq_self.mpr fun seg hseg => by simpa using (h seg hseg).1

/-- The rules as the resolver applies them, also to the empty name of the root. -/
def Probed : FileInventory → TsconfigAliasConfig → String → String → String → Prop :=
  ReachesBy fun place => Probe (join "/" place)

lemma mem_decidingCandidates {effectiveBase : String}
    (h : joinWithinRepository config.partitionPrefix config.baseUrl = some effectiveBase) :
    key ∈ decidingCandidates inv effectiveBase capture target ↔ Probed inv config target capture key := by
  obtain ⟨base, hbase, rfl⟩ := joinWithinRepository_eq_some.mp h
  have hnames : names (join "/" base) = base := names_join (hbase.isName fun seg => isName_of_mem_names)
  unfold decidingCandidates Probed ReachesBy
  constructor
  · intro hmem
    split at hmem
    · simp at hmem
    · rename_i substituted hjoin
      obtain ⟨place, hplace, rfl⟩ := joinWithinRepository_eq_some.mp hjoin
      rw [hnames] at hplace
      obtain ⟨path, hpath, hkey⟩ := List.mem_filterMap.mp hmem
      refine ⟨base, place, path, hbase, hplace, ?_, hkey⟩
      rcases List.mem_append.mp hpath with hexact | hprobe
      · split at hexact
        · rename_i hends
          obtain rfl := List.mem_singleton.mp hexact
          exact Or.inl ⟨rfl, by simpa using hends⟩
        · simp at hexact
      · exact Or.inr (mem_candidatePaths.mp hprobe)
  · rintro ⟨base', place, path, hbase', hplace, hpath, hkey⟩
    obtain rfl := Walk.unique hbase.2 hbase'.2
    rw [← hnames] at hplace
    rw [joinWithinRepository_eq_some.mpr ⟨place, hplace, rfl⟩]
    refine List.mem_filterMap.mpr ⟨path, List.mem_append.mpr ?_, hkey⟩
    rcases hpath with ⟨rfl, hends⟩ | hprobe
    · refine Or.inl ?_
      rw [if_pos (by simpa using hends)]
      exact List.mem_singleton_self _
    · exact Or.inr (mem_candidatePaths.mpr hprobe)

def ProbeDecides (inv : FileInventory) (config : TsconfigAliasConfig)
    (targets : List String) (capture key : String) :
    Prop :=
  First (Probed inv config · capture ·) targets key

lemma mem_decidingSubstitutionHits :
    key ∈ decidingSubstitutionHits inv (joinWithinRepository config.partitionPrefix config.baseUrl)
      targets capture ↔ ProbeDecides inv config targets capture key := by
  unfold decidingSubstitutionHits ProbeDecides
  cases hbase : joinWithinRepository config.partitionPrefix config.baseUrl with
  | none =>
    have hnone : ∀ target key, ¬ Probed inv config target capture key := by
      rintro target key ⟨base, _, _, hleads, -⟩
      rw [joinWithinRepository_eq_some.mpr ⟨base, hleads, rfl⟩] at hbase
      simp at hbase
    simp [First, hnone]
  | some effectiveBase =>
    simp only [← mem_decidingCandidates hbase, ← mem_find?_ne_nil]
    cases hfirst : (targets.map (decidingCandidates inv effectiveBase capture)).find? (· ≠ []) with
    | none => simp
    | some hits => simp [Std.ExtTreeSet.mem_ofList]

end Substitution

section Outcome

variable {inv : FileInventory} {config : TsconfigAliasConfig} {specifier : String} {targets : List String}
  {outcome outcome' : TsconfigAliasHits}

lemma Exact.unique {targets' : List String} (h : Exact config specifier targets)
    (h' : Exact config specifier targets') :
    targets = targets' := by
  have hget := Std.ExtTreeMap.mem_toList_iff_getElem?_eq_some.mp h.1
  have hget' := Std.ExtTreeMap.mem_toList_iff_getElem?_eq_some.mp h'.1
  exact Option.some.inj (hget.symm.trans hget')

lemma LongestMatch.unique {pattern capture capture' : String} {targets' : List String}
    (h : LongestMatch config specifier pattern targets capture)
    (h' : LongestMatch config specifier pattern targets' capture') : targets = targets' ∧ capture = capture' := by
  obtain ⟨hdeclares, before, hcaptures, -⟩ := h
  obtain ⟨hdeclares', before', hcaptures', -⟩ := h'
  have hget := Std.ExtTreeMap.mem_toList_iff_getElem?_eq_some.mp hdeclares
  have hget' := Std.ExtTreeMap.mem_toList_iff_getElem?_eq_some.mp hdeclares'
  exact ⟨Option.some.inj (hget.symm.trans hget'), (hcaptures.unique hcaptures').2⟩

lemma exact_iff_find? :
    (∃ targets, Exact config specifier targets) ↔
      (config.paths.toList.find? fun entry => !contains entry.1 '*' && entry.1 == specifier).isSome := by
  rw [List.find?_isSome]
  constructor
  · rintro ⟨targets, hmem, hstar⟩
    exact ⟨_, hmem, by simpa [contains] using hstar⟩
  · rintro ⟨⟨pattern, targets⟩, hmem, hentry⟩
    obtain ⟨hstar, rfl⟩ : '*' ∉ pattern.toList ∧ pattern = specifier := by simpa [contains] using hentry
    exact ⟨targets, hmem, hstar⟩

lemma tsconfigAliasHits_of_exact (h : Exact config specifier targets) :
    tsconfigAliasHits specifier config inv = .selectedPattern
      (decidingSubstitutionHits inv (joinWithinRepository config.partitionPrefix config.baseUrl) targets "") := by
  unfold tsconfigAliasHits
  cases hfind : config.paths.toList.find? fun entry => !contains entry.1 '*' && entry.1 == specifier with
  | none => 
    have hsome := exact_iff_find?.mp ⟨targets, h⟩
    simp [hfind] at hsome
  | some entry =>
    obtain ⟨pattern, targets'⟩ := entry
    obtain ⟨hstar, rfl⟩ : '*' ∉ pattern.toList ∧ pattern = specifier := by
      simpa [contains] using List.find?_some hfind
    obtain rfl := h.unique ⟨List.mem_of_find?_eq_some hfind, hstar⟩
    rfl

def tiedHits (inv : FileInventory) (config : TsconfigAliasConfig) (tied : List (ℕ × List String × String)) :
    BTreeSet String :=
  .ofList (tied.flatMap fun (_, targets, capture) =>
    (decidingSubstitutionHits inv (joinWithinRepository config.partitionPrefix config.baseUrl) targets
      capture).toList)

lemma tsconfigAliasHits_of_not_exact (h : ∀ targets, ¬ Exact config specifier targets) :
    tsconfigAliasHits specifier config inv =
      match ((matching config specifier).map fun m => m.2.1).max? with
      | none => .noPatternMatches
      | some longest =>
        match ((matching config specifier).filter fun m => m.2.1 = longest).map Prod.snd with
        | [(_, targets, capture)] => .selectedPattern (decidingSubstitutionHits inv
            (joinWithinRepository config.partitionPrefix config.baseUrl) targets capture)
        | tied => .tiedPatterns (tiedHits inv config tied) := by
  have hfind : (config.paths.toList.find? fun entry => !contains entry.1 '*' && entry.1 == specifier) = none := by
    rw [← Option.not_isSome_iff_eq_none, ← exact_iff_find?]
    simpa using h
  unfold tsconfigAliasHits
  rw [hfind]
  simp only [← map_matching, List.map_map, List.filter_map]
  rfl

lemma mem_tiedHits {longest : ℕ} {ms : List (String × ℕ × List String × String)} {key : String}
    (hmem : ∀ pattern n targets capture, (pattern, n, targets, capture) ∈ ms ↔
      n = longest ∧ LongestMatch config specifier pattern targets capture) :
    key ∈ tiedHits inv config (ms.map Prod.snd) ↔
      ∃ pattern targets capture, LongestMatch config specifier pattern targets capture ∧
        ProbeDecides inv config targets capture key := by
  simp only [tiedHits, Std.ExtTreeSet.mem_ofList, List.contains_iff_mem, List.mem_flatMap,
    Std.ExtTreeSet.mem_toList]
  constructor
  · rintro ⟨⟨n, targets, capture⟩, hm, hkey⟩
    obtain ⟨⟨pattern, m⟩, hms, rfl⟩ := List.mem_map.mp hm
    exact ⟨pattern, targets, capture, ((hmem _ _ _ _).mp hms).2, mem_decidingSubstitutionHits.mp hkey⟩
  · rintro ⟨pattern, targets, capture, hlongest, hdecides⟩
    have hms := (hmem pattern longest targets capture).mpr ⟨rfl, hlongest⟩
    exact ⟨(longest, targets, capture), List.mem_map_of_mem hms, mem_decidingSubstitutionHits.mpr hdecides⟩

lemma specified_of_longest {longest : ℕ} {ms : List (String × ℕ × List String × String)}
    (hexact : ∀ targets, ¬ Exact config specifier targets) (hne : ms ≠ []) (hkeys : (ms.map Prod.fst).Nodup)
    (hmem : ∀ pattern n targets capture, (pattern, n, targets, capture) ∈ ms ↔
      n = longest ∧ LongestMatch config specifier pattern targets capture) :
    Specified (ProbeDecides inv config) config specifier
      (match ms.map Prod.snd with
      | [(_, targets, capture)] => .selectedPattern (decidingSubstitutionHits inv
          (joinWithinRepository config.partitionPrefix config.baseUrl) targets capture)
      | tied => .tiedPatterns (tiedHits inv config tied)) := by
  have htied : ∀ key, key ∈ tiedHits inv config (ms.map Prod.snd) ↔
      ∃ pattern targets capture, LongestMatch config specifier pattern targets capture ∧
        ProbeDecides inv config targets capture key := fun key => mem_tiedHits hmem
  match ms with
  | [] => exact absurd rfl hne
  | [(pattern, n, targets, capture)] =>
    have hlongest := ((hmem pattern n targets capture).mp (List.mem_singleton_self _)).2
    simp only [List.map_cons, List.map_nil]
    refine .longest hexact hlongest (fun pattern' targets' capture' hlongest' => ?_)
      fun key => mem_decidingSubstitutionHits
    have hmem' := (hmem pattern' longest targets' capture').mpr ⟨rfl, hlongest'⟩
    exact (Prod.mk.inj (List.mem_singleton.mp hmem')).1
  | (pattern, n, targets, capture) :: (pattern', n', targets', capture') :: rest =>
    have hlongest := ((hmem pattern n targets capture).mp (List.mem_cons_self ..)).2
    have hlongest' := ((hmem pattern' n' targets' capture').mp
      (List.mem_cons_of_mem _ (List.mem_cons_self ..))).2
    have hdistinct : pattern ≠ pattern' := by
      rintro rfl
      simp at hkeys
    simp only [List.map_cons] at htied ⊢
    exact .tied hexact hlongest hlongest' hdistinct htied

lemma specified_tsconfigAliasHits (inv : FileInventory) (config : TsconfigAliasConfig) (specifier : String) :
    Specified (ProbeDecides inv config) config specifier (tsconfigAliasHits specifier config inv) := by
  by_cases hexact : ∃ targets, Exact config specifier targets
  · obtain ⟨targets, hexact⟩ := hexact
    rw [tsconfigAliasHits_of_exact hexact]
    exact .exact hexact fun key => mem_decidingSubstitutionHits
  · push Not at hexact
    rw [tsconfigAliasHits_of_not_exact hexact]
    cases hmax : ((matching config specifier).map fun m => m.2.1).max? with
    | none =>
      refine .none hexact fun pattern targets before capture hdeclares hcaptures => ?_
      have hmem := mem_matching.mpr ⟨hdeclares, before, hcaptures, rfl⟩
      rw [List.map_eq_nil_iff.mp (List.max?_eq_none_iff.mp hmax)] at hmem
      simp at hmem
    | some longest =>
      apply specified_of_longest hexact
      · obtain ⟨m, hm, hlongest⟩ := List.mem_map.mp (List.max?_mem hmax)
        exact List.ne_nil_of_mem (List.mem_filter.mpr ⟨hm, by simpa using hlongest⟩)
      · exact (List.filter_sublist.map Prod.fst).nodup (nodup_keys_matching config specifier)
      · intro pattern n targets capture
        rw [List.mem_filter, ← mem_longest hmax, and_comm]
        simp only [decide_eq_true_eq]
        constructor
        · rintro ⟨rfl, hm⟩
          exact ⟨rfl, hm⟩
        · rintro ⟨rfl, hm⟩
          exact ⟨rfl, hm⟩

end Outcome

section Agreement

variable {decides decides' : List String → String → String → Prop} {config : TsconfigAliasConfig}
  {specifier key : String} {targets : List String} {outcome outcome' : TsconfigAliasHits}

def TsconfigAliasHits.hits : TsconfigAliasHits → BTreeSet String
  | .noPatternMatches => ∅
  | .selectedPattern hits => hits
  | .tiedPatterns hits => hits

inductive Selected (config : TsconfigAliasConfig) (specifier : String) : List String → String → Prop
  | exact {targets : List String} : Exact config specifier targets → Selected config specifier targets ""
  | longest {pattern : String} {targets : List String} {capture : String} :
      (∀ targets, ¬ Exact config specifier targets) → LongestMatch config specifier pattern targets capture →
      Selected config specifier targets capture

lemma LongestMatch.captures {pattern capture : String}
    (h : LongestMatch config specifier pattern targets capture) :
    ∃ before, Declares config pattern targets ∧ Captures pattern specifier before capture := by
  obtain ⟨hdeclares, before, hcaptures, -⟩ := h
  exact ⟨before, hdeclares, hcaptures⟩

lemma exists_selected_exact (h : Exact config specifier targets) (p : List String → String → Prop) :
    (∃ targets capture, Selected config specifier targets capture ∧ p targets capture) ↔ p targets "" := by
  constructor
  · rintro ⟨targets', capture, hselected, hp⟩
    cases hselected with
    | exact h' => rwa [h.unique h']
    | longest hnot => exact absurd h (hnot _)
  · intro hp
    exact ⟨targets, "", .exact h, hp⟩

lemma exists_selected_longest (hnot : ∀ targets, ¬ Exact config specifier targets)
    (p : List String → String → Prop) :
    (∃ targets capture, Selected config specifier targets capture ∧ p targets capture) ↔
      ∃ pattern targets capture, LongestMatch config specifier pattern targets capture ∧ p targets capture := by
  constructor
  · rintro ⟨targets, capture, hselected, hp⟩
    cases hselected with
    | exact h => exact absurd h (hnot _)
    | longest _ hlongest => exact ⟨_, targets, capture, hlongest, hp⟩
  · rintro ⟨pattern, targets, capture, hlongest, hp⟩
    exact ⟨targets, capture, .longest hnot hlongest, hp⟩

lemma exists_longest_only {pattern capture : String} (h : LongestMatch config specifier pattern targets capture)
    (honly : ∀ pattern' targets' capture',
      LongestMatch config specifier pattern' targets' capture' → pattern' = pattern)
    (p : List String → String → Prop) :
    (∃ pattern targets capture, LongestMatch config specifier pattern targets capture ∧ p targets capture) ↔
      p targets capture := by
  constructor
  · rintro ⟨pattern', targets', capture', h', hp⟩
    obtain rfl := honly _ _ _ h'
    obtain ⟨rfl, rfl⟩ := h.unique h'
    exact hp
  · intro hp
    exact ⟨pattern, targets, capture, h, hp⟩

lemma Specified.mem_hits (h : Specified decides config specifier outcome) :
    key ∈ outcome.hits ↔
      ∃ targets capture, Selected config specifier targets capture ∧ decides targets capture key := by
  cases h with
  | exact hexact hhits => exact (hhits key).trans (exists_selected_exact hexact (decides · · key)).symm
  | none hnot hno =>
    rw [exists_selected_longest hnot (decides · · key)]
    constructor
    · intro hmem
      exact absurd hmem Std.ExtTreeSet.not_mem_empty
    · rintro ⟨pattern, targets, capture, hlongest, -⟩
      obtain ⟨before, hdeclares, hcaptures⟩ := hlongest.captures
      exact absurd hcaptures (hno _ _ _ _ hdeclares)
  | longest hnot hlongest honly hhits =>
    rw [exists_selected_longest hnot (decides · · key), exists_longest_only hlongest honly (decides · · key)]
    exact hhits key
  | tied hnot _ _ _ hhits => exact (hhits key).trans (exists_selected_longest hnot (decides · · key)).symm

lemma Specified.of_hits (h : Specified decides config specifier outcome)
    (hhits : ∀ key, key ∈ outcome.hits ↔
      ∃ targets capture, Selected config specifier targets capture ∧ decides' targets capture key) :
    Specified decides' config specifier outcome := by
  cases h with
  | exact hexact _ => exact .exact hexact fun key => (hhits key).trans (exists_selected_exact
    hexact (decides' · · key))
  | none hnot hno => exact .none hnot hno
  | longest hnot hlongest honly _ =>
    refine .longest hnot hlongest honly fun key => ?_
    rw [← exists_longest_only hlongest honly (decides' · · key), ← exists_selected_longest hnot (decides' · · key)]
    exact hhits key
  | tied hnot hfirst hsecond hne _ =>
    exact .tied hnot hfirst hsecond hne fun key =>
      (hhits key).trans (exists_selected_longest hnot (decides' · · key))

lemma hits_ext {hits hits' : BTreeSet String} {p : String → Prop} (h : ∀ key, key ∈ hits ↔ p key)
    (h' : ∀ key, key ∈ hits' ↔ p key) : hits = hits' := by
  apply Std.ExtTreeSet.ext_mem
  intro key
  rw [h, h']

lemma Specified.unique (h : Specified decides config specifier outcome)
    (h' : Specified decides config specifier outcome') : outcome = outcome' := by
  have hsame : outcome.hits = outcome'.hits := hits_ext (fun _ => h.mem_hits) fun _ => h'.mem_hits
  cases h with
  | exact hexact _ =>
    cases h' with
    | exact => exact congrArg TsconfigAliasHits.selectedPattern hsame
    | none hnot => exact absurd hexact (hnot _)
    | longest hnot => exact absurd hexact (hnot _)
    | tied hnot => exact absurd hexact (hnot _)
  | none hnot hno =>
    cases h' with
    | exact hexact => exact absurd hexact (hnot _)
    | none => rfl
    | longest _ hlongest =>
      obtain ⟨before, hdeclares, hcaptures⟩ := hlongest.captures
      exact absurd hcaptures (hno _ _ _ _ hdeclares)
    | tied _ hlongest =>
      obtain ⟨before, hdeclares, hcaptures⟩ := hlongest.captures
      exact absurd hcaptures (hno _ _ _ _ hdeclares)
  | longest hnot hlongest honly _ =>
    cases h' with
    | exact hexact => exact absurd hexact (hnot _)
    | none _ hno =>
      obtain ⟨before, hdeclares, hcaptures⟩ := hlongest.captures
      exact absurd hcaptures (hno _ _ _ _ hdeclares)
    | longest => exact congrArg TsconfigAliasHits.selectedPattern hsame
    | tied _ hfirst hsecond hne =>
      exact absurd ((honly _ _ _ hfirst).trans (honly _ _ _ hsecond).symm) hne
  | tied hnot hfirst hsecond hne _ =>
    cases h' with
    | exact hexact => exact absurd hexact (hnot _)
    | none _ hno =>
      obtain ⟨before, hdeclares, hcaptures⟩ := hfirst.captures
      exact absurd hcaptures (hno _ _ _ _ hdeclares)
    | longest _ _ honly =>
      exact absurd ((honly _ _ _ hfirst).trans (honly _ _ _ hsecond).symm) hne
    | tied => exact congrArg TsconfigAliasHits.tiedPatterns hsame

end Agreement

section Roots

variable {inv : FileInventory} {config : TsconfigAliasConfig} {specifier target capture key path : String}
  {targets files : List String} {admits : List String → String → Prop}

def LeadsToRoot (config : TsconfigAliasConfig) (target capture : String) : Prop :=
  ∃ base, LeadsWithin (names config.partitionPrefix) config.baseUrl base ∧
    LeadsWithin base (replaceFirst target '*' capture) []

def ReachesElsewhere : FileInventory → TsconfigAliasConfig → String → String → String → Prop :=
  ReachesBy fun place path => place ≠ [] ∧ Probe (join "/" place) path

def RootFirst (inv : FileInventory) (config : TsconfigAliasConfig) (targets : List String)
    (capture : String) : Prop :=
  Ahead (LeadsToRoot config · capture) (ReachesElsewhere inv config · capture ·) targets

def DecidesElsewhere (inv : FileInventory) (config : TsconfigAliasConfig) (targets : List String)
    (capture key : String) : Prop :=
  First (ReachesElsewhere inv config · capture ·) targets key

/-- What the rules make of an empty name. -/
def emptyBaseNames : List String := probeExtensions ++ indexNames.map ("/" ++ ·)

def KeyAmong (inv : FileInventory) (files : List String) (key : String) : Prop :=
  ∃ path ∈ files, inv.fileKeyFor path = some key

/-- Some list of substitutions that is tried decides for the file and has no part in what the root names. -/
def GivenElsewhere (inv : FileInventory) (config : TsconfigAliasConfig) (specifier key : String) : Prop :=
  ∃ targets capture, Selected config specifier targets capture ∧ ¬ RootFirst inv config targets capture ∧
    DecidesElsewhere inv config targets capture key

/-- Some list of substitutions that comes to the root first decides for the file when the root names these ones:
by the root if one of them is indexed, otherwise by what it reaches behind it. -/
def GivenByRoot (inv : FileInventory) (config : TsconfigAliasConfig) (specifier : String) (files : List String)
    (key : String) : Prop :=
  ∃ targets capture, Selected config specifier targets capture ∧ RootFirst inv config targets capture ∧
    (KeyAmong inv files key ∨ (∀ key, ¬ KeyAmong inv files key) ∧ DecidesElsewhere inv config targets capture key)

/-- Where the root is first, it gives the same whether it names its index files or what the rules make of its empty
name, but for what is given elsewhere in any case. -/
def RootReadsAsWritten (inv : FileInventory) (config : TsconfigAliasConfig) (specifier : String) : Prop :=
  ∀ key, ¬ GivenElsewhere inv config specifier key →
    (GivenByRoot inv config specifier indexNames key ↔ GivenByRoot inv config specifier emptyBaseNames key)

lemma probe_empty : Probe "" path ↔ path ∈ emptyBaseNames := by
  have hnames : candidatePaths "" = emptyBaseNames := by decide
  rw [← mem_candidatePaths, hnames]

lemma LeadsToRoot.not_reachesElsewhere (h : LeadsToRoot config target capture) :
    ¬ ReachesElsewhere inv config target capture key := by
  rintro ⟨base', place, path, hbase', hplace, hpath, -⟩
  obtain ⟨base, hbase, hroot⟩ := h
  obtain rfl := Walk.unique hbase.2 hbase'.2
  obtain rfl := Walk.unique hroot.2 hplace.2
  rcases hpath with ⟨rfl, hends⟩ | ⟨hne, -⟩
  · revert hends
    decide
  · exact hne rfl

lemma reachesBy_iff (hadmits : ∀ place path, admits place path ↔
      place ≠ [] ∧ Probe (join "/" place) path ∨ place = [] ∧ path ∈ files) :
    ReachesBy admits inv config target capture key ↔
      ReachesElsewhere inv config target capture key ∨ LeadsToRoot config target capture ∧
      KeyAmong inv files key := by
  unfold ReachesElsewhere ReachesBy
  simp only [hadmits]
  constructor
  · rintro ⟨base, place, path, hbase, hplace, hends | helse | ⟨rfl, hfile⟩, hkey⟩
    · exact Or.inl ⟨base, place, path, hbase, hplace, Or.inl hends, hkey⟩
    · exact Or.inl ⟨base, place, path, hbase, hplace, Or.inr helse, hkey⟩
    · exact Or.inr ⟨⟨base, hbase, hplace⟩, path, hfile, hkey⟩
  · rintro (⟨base, place, path, hbase, hplace, hends | helse, hkey⟩ | ⟨⟨base, hbase, hroot⟩, path, hfile, hkey⟩)
    · exact ⟨base, place, path, hbase, hplace, Or.inl hends, hkey⟩
    · exact ⟨base, place, path, hbase, hplace, Or.inr (Or.inl helse), hkey⟩
    · exact ⟨base, [], path, hbase, hroot, Or.inr (Or.inr ⟨rfl, hfile⟩), hkey⟩

lemma reaches_iff : Reaches inv config target capture key ↔
    ReachesElsewhere inv config target capture key ∨
      LeadsToRoot config target capture ∧ KeyAmong inv indexNames key := by
  apply reachesBy_iff
  intro place path
  rcases eq_or_ne place [] with rfl | hne
  · simp [admits_root]
  · simp [admits_iff_of_ne_nil hne, hne]

lemma probed_iff : Probed inv config target capture key ↔
    ReachesElsewhere inv config target capture key ∨
      LeadsToRoot config target capture ∧ KeyAmong inv emptyBaseNames key := by
  apply reachesBy_iff
  intro place path
  rcases eq_or_ne place [] with rfl | hne
  · simp [← probe_empty, join]
  · simp [hne]

lemma first_root_or :
    First (fun target key => ReachesElsewhere inv config target capture key ∨
        LeadsToRoot config target capture ∧ KeyAmong inv files key) targets key ↔
      RootFirst inv config targets capture ∧ KeyAmong inv files key ∨
        ¬ (RootFirst inv config targets capture ∧ ∃ key, KeyAmong inv files key) ∧
          DecidesElsewhere inv config targets capture key :=
  first_or fun _ hroot _ => hroot.not_reachesElsewhere

lemma exists_selected_root_or :
    (∃ targets capture, Selected config specifier targets capture ∧
      First (fun target key => ReachesElsewhere inv config target capture key ∨
        LeadsToRoot config target capture ∧ KeyAmong inv files key) targets key) ↔
      GivenElsewhere inv config specifier key ∨ GivenByRoot inv config specifier files key := by
  simp only [first_root_or]
  constructor
  · rintro ⟨targets, capture, hselected, ⟨hfirst, hkey⟩ | ⟨hnot, helse⟩⟩
    · exact Or.inr ⟨targets, capture, hselected, hfirst, Or.inl hkey⟩
    · by_cases hfirst : RootFirst inv config targets capture
      · have hnone : ∀ key, ¬ KeyAmong inv files key := fun key hkey => hnot ⟨hfirst, key, hkey⟩
        exact Or.inr ⟨targets, capture, hselected, hfirst, Or.inr ⟨hnone, helse⟩⟩
      · exact Or.inl ⟨targets, capture, hselected, hfirst, helse⟩
  · rintro (⟨targets, capture, hselected, hnot, helse⟩ | ⟨targets, capture, hselected,
      hfirst, hkey | ⟨hnone, helse⟩⟩)
    · exact ⟨targets, capture, hselected, Or.inr ⟨fun h => hnot h.1, helse⟩⟩
    · exact ⟨targets, capture, hselected, Or.inl ⟨hfirst, hkey⟩⟩
    · exact ⟨targets, capture, hselected, Or.inr ⟨fun ⟨_, key, hkey⟩ => hnone key hkey, helse⟩⟩

lemma exists_selected_decides :
    (∃ targets capture, Selected config specifier targets capture ∧ Decides inv config targets capture key) ↔
      GivenElsewhere inv config specifier key ∨ GivenByRoot inv config specifier indexNames key := by
  simp only [Decides, reaches_iff]
  exact exists_selected_root_or

lemma exists_selected_probeDecides :
    (∃ targets capture, Selected config specifier targets capture ∧ ProbeDecides inv config targets capture key) ↔
      GivenElsewhere inv config specifier key ∨ GivenByRoot inv config specifier emptyBaseNames key := by
  simp only [ProbeDecides, probed_iff]
  exact exists_selected_root_or

lemma specified_iff_rootReadsAsWritten :
    Specified (Decides inv config) config specifier (tsconfigAliasHits specifier config inv) ↔
      RootReadsAsWritten inv config specifier := by
  have hprobe := specified_tsconfigAliasHits inv config specifier
  constructor
  · intro h key helse
    have hhits : key ∈ (tsconfigAliasHits specifier config inv).hits ↔ _ := hprobe.mem_hits
    rw [h.mem_hits, exists_selected_decides, exists_selected_probeDecides] at hhits
    rwa [or_iff_right helse, or_iff_right helse] at hhits
  · intro h
    apply hprobe.of_hits
    intro key
    rw [hprobe.mem_hits, exists_selected_decides, exists_selected_probeDecides]
    by_cases helse : GivenElsewhere inv config specifier key
    · simp [helse]
    · rw [or_iff_right helse, or_iff_right helse]
      exact (h key helse).symm

end Roots

section Slicing

/-- `match_alias_pattern` with its slice of the specifier by byte offsets; nothing where the slice would leave
the specifier or cut a character. -/
def matchAliasPatternSliced (pattern specifier : String) : Option (Option String) :=
  match splitOnce pattern '*' with
  | some (before, after) =>
    if before.utf8ByteSize + after.utf8ByteSize ≤ specifier.utf8ByteSize ∧ startsWith specifier before ∧
        endsWith specifier after then
      (slice specifier before.utf8ByteSize (specifier.utf8ByteSize - after.utf8ByteSize)).map some
    else some none
  | none => some (if pattern = specifier then some "" else none)

variable {pattern specifier before after : String}

lemma sliceable_iff :
    (before.utf8ByteSize + after.utf8ByteSize ≤ specifier.utf8ByteSize ∧ startsWith specifier before ∧
        endsWith specifier after) ↔ ∃ capture, specifier = before ++ capture ++ after := by
  constructor
  · rintro ⟨hlen, hstarts, hends⟩
    obtain ⟨rest, rfl⟩ := startsWith_iff.mp hstarts
    obtain ⟨front, hfront⟩ := endsWith_iff.mp hends
    obtain ⟨mid, rfl⟩ := exists_middle_of_utf8ByteSize hfront hlen
    exact ⟨mid, String.append_assoc.symm⟩
  · rintro ⟨capture, rfl⟩
    refine ⟨?_, startsWith_iff.mpr ⟨capture ++ after, String.append_assoc⟩, endsWith_iff.mpr ⟨_, rfl⟩⟩
    rw [String.utf8ByteSize_append, String.utf8ByteSize_append]
    omega

theorem matchAliasPatternSliced_eq (pattern specifier : String) :
    matchAliasPatternSliced pattern specifier = some (matchAliasPattern pattern specifier) := by
  unfold matchAliasPatternSliced
  cases hsplit : splitOnce pattern '*' with
  | none =>
    unfold matchAliasPattern
    rw [hsplit]
  | some pieces =>
    obtain ⟨before, after⟩ := pieces
    simp only
    split
    · rename_i hcond
      obtain ⟨capture, hcapture⟩ := sliceable_iff.mp hcond
      have hslice : slice specifier before.utf8ByteSize (specifier.utf8ByteSize - after.utf8ByteSize) =
          some capture := by
        refine slice_eq_some.mpr ⟨before, after, hcapture, rfl, ?_⟩
        rw [hcapture, String.utf8ByteSize_append, String.utf8ByteSize_append]
        omega
      rw [hslice, (matchAliasPattern_of_split hsplit).mpr hcapture]
      rfl
    · rename_i hcond
      rw [sliceable_iff] at hcond
      have hnone : matchAliasPattern pattern specifier = none := by
        rw [Option.eq_none_iff_forall_ne_some]
        intro capture hmatch
        exact hcond ⟨capture, (matchAliasPattern_of_split hsplit).mp hmatch⟩
      rw [hnone]

end Slicing

/-- The selection is the specified one and no other, and no slice is taken outside the specifier. -/
def SelectsAsSpecified (inv : FileInventory) (config : TsconfigAliasConfig) (specifier : String) : Prop :=
  (∀ outcome, tsconfigAliasHits specifier config inv = outcome ↔
      Specified (Decides inv config) config specifier outcome) ∧
    ∀ pattern, matchAliasPatternSliced pattern specifier = some (matchAliasPattern pattern specifier)

theorem selectsAsSpecified_iff (inv : FileInventory) (config : TsconfigAliasConfig) (specifier : String) :
    SelectsAsSpecified inv config specifier ↔ RootReadsAsWritten inv config specifier := by
  rw [← specified_iff_rootReadsAsWritten]
  constructor
  · rintro ⟨h, -⟩
    exact (h _).mp rfl
  · intro h
    refine ⟨fun outcome => ⟨?_, h.unique⟩, fun pattern => matchAliasPatternSliced_eq pattern specifier⟩
    rintro rfl
    exact h

section RootIndex

def rootIndexFile : FileInventory := .fromFileKeys ["r:index.ts:FILE"]

def rootAlias : TsconfigAliasConfig where
  baseUrl := "."
  paths := (∅ : BTreeMap String (List String)).insert "@" ["./"]
  partitionPrefix := ""

lemma fileKeyFor_rootIndexFile {path : String} :
    rootIndexFile.fileKeyFor path = if path = "index.ts" then some "r:index.ts:FILE" else none := by
  have hpath : fileKeyPath "r:index.ts:FILE" = some "index.ts" := by decide
  unfold FileInventory.fileKeyFor rootIndexFile FileInventory.fromFileKeys
  simp only [List.foldl_cons, List.foldl_nil, FileInventory.addKey, hpath, getElem?_insert]
  rcases eq_or_ne path "index.ts" with rfl | hne
  · rw [if_pos rfl, if_pos rfl]
  · rw [if_neg hne, if_neg hne.symm]
    exact Std.ExtTreeMap.getElem?_empty

lemma exact_rootAlias : Exact rootAlias "@" ["./"] := by
  refine ⟨Std.ExtTreeMap.mem_toList_iff_getElem?_eq_some.mpr ?_, by decide⟩
  exact Std.ExtTreeMap.getElem?_insert_self

lemma leadsToRoot_rootAlias : LeadsToRoot rootAlias "./" "" :=
  ⟨[], ⟨by decide, walk_of_foldl_checked (by decide)⟩, ⟨by decide, walk_of_foldl_checked (by decide)⟩⟩

lemma not_decidesElsewhere_rootAlias {targets : List String} {capture key : String}
    (h : Selected rootAlias "@" targets capture) :
      ¬ DecidesElsewhere rootIndexFile rootAlias targets capture key := by
  intro hdecides
  obtain ⟨skipped, target, rest, heq, -, hreaches⟩ :=
    (exists_selected_exact exact_rootAlias (DecidesElsewhere rootIndexFile rootAlias · · key)).mp
      ⟨targets, capture, h, hdecides⟩
  have hmem : target ∈ ["./"] := by
    rw [heq]
    simp
  obtain rfl := List.mem_singleton.mp hmem
  exact leadsToRoot_rootAlias.not_reachesElsewhere hreaches

/-- The alias of the root selects nothing, although the root has an index file. -/
theorem root_alias_misses_index : ¬ SelectsAsSpecified rootIndexFile rootAlias "@" := by
  rintro ⟨h, -⟩
  have hreads := specified_iff_rootReadsAsWritten.mp ((h _).mp rfl)
  have hroot : RootFirst rootIndexFile rootAlias ["./"] "" := ⟨[], "./", [], rfl, by simp, leadsToRoot_rootAlias⟩
  have hindex : KeyAmong rootIndexFile indexNames "r:index.ts:FILE" :=
    ⟨"index.ts", by decide, fileKeyFor_rootIndexFile.trans (if_pos rfl)⟩
  have helse : ¬ GivenElsewhere rootIndexFile rootAlias "@" "r:index.ts:FILE" := by
    rintro ⟨targets, capture, hselected, -, hdecides⟩
    exact not_decidesElsewhere_rootAlias hselected hdecides
  obtain ⟨targets, capture, hselected, -, ⟨path, hpath, hkey⟩ | ⟨-, hdecides⟩⟩ :=
    (hreads _ helse).mp ⟨["./"], "", .exact exact_rootAlias, hroot, Or.inl hindex⟩
  · have hname : path = "index.ts" := by
      by_contra hne
      rw [fileKeyFor_rootIndexFile, if_neg hne] at hkey
      simp at hkey
    subst hname
    revert hpath
    decide
  · exact not_decidesElsewhere_rootAlias hselected hdecides

end RootIndex

end RepoGraph.ImportResolver
