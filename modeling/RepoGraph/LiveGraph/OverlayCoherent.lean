import RepoGraph.LiveGraph.OverlayEdges

/-! The stored overlay is the one of the resident slots, in every reachable graph. -/

namespace RepoGraph.LiveGraph

open Lib Lib.Text Ir ImportResolver

section Inventory

variable {keys : List String} {path key : String}

lemma fileKeyFor_foldl {keys : List String} {inv : FileInventory} {path key : String}
    (h : (keys.foldl FileInventory.addKey inv).fileKeyFor path = some key) :
    inv.fileKeyFor path = some key ∨ key ∈ keys ∧ fileKeyPath key = some path := by
  induction keys generalizing inv with
  | nil => exact Or.inl h
  | cons k keys ih =>
    rcases ih h with hk | ⟨hmem, hpath⟩
    · rw [FileInventory.addKey] at hk
      cases hp : fileKeyPath k with
      | none => exact Or.inl (by simpa [hp] using hk)
      | some path' =>
        rw [hp] at hk
        simp only [FileInventory.fileKeyFor, getElem?_insert] at hk
        split at hk
        · rename_i heq
          obtain rfl := Option.some.inj hk
          exact Or.inr ⟨List.mem_cons_self .., by rw [hp, heq]⟩
        · exact Or.inl hk
    · exact Or.inr ⟨List.mem_cons_of_mem _ hmem, hpath⟩

lemma mem_of_fileKeyFor (h : (FileInventory.fromFileKeys keys).fileKeyFor path = some key) :
    key ∈ keys ∧ fileKeyPath key = some path := by
  rcases fileKeyFor_foldl h with hk | hk
  · simp [FileInventory.fileKeyFor] at hk
  · exact hk

lemma fileKeyFor_isSome_foldl {keys : List String} (hpath : fileKeyPath key = some path)
    {inv : FileInventory} (h : key ∈ keys ∨ (inv.fileKeyFor path).isSome) :
    ((keys.foldl FileInventory.addKey inv).fileKeyFor path).isSome := by
  induction keys generalizing inv with
  | nil => simpa using h
  | cons k keys ih =>
    refine ih ?_
    rw [List.mem_cons] at h
    by_cases hk : key ∈ keys
    · exact Or.inl hk
    · refine Or.inr ?_
      rw [FileInventory.addKey]
      rcases h with (rfl | hk') | hsome
      · simp [hpath, FileInventory.fileKeyFor]
      · exact (hk hk').elim
      · cases fileKeyPath k with
        | none => exact hsome
        | some path' =>
          simp only [FileInventory.fileKeyFor, getElem?_insert] at hsome ⊢
          split
          · rfl
          · exact hsome

lemma fileKeyFor_iff (hunique : ∀ k ∈ keys, ∀ k' ∈ keys, ∀ path, fileKeyPath k = some path →
    fileKeyPath k' = some path → k = k') :
    (FileInventory.fromFileKeys keys).fileKeyFor path = some key ↔
      key ∈ keys ∧ fileKeyPath key = some path := by
  constructor
  · exact mem_of_fileKeyFor
  · rintro ⟨hmem, hpath⟩
    have hsome : ((FileInventory.fromFileKeys keys).fileKeyFor path).isSome :=
      fileKeyFor_isSome_foldl hpath (Or.inl hmem)
    obtain ⟨key', hkey'⟩ := Option.isSome_iff_exists.mp hsome
    obtain ⟨hmem', hpath'⟩ := mem_of_fileKeyFor hkey'
    obtain rfl := hunique key hmem key' hmem' path hpath hpath'
    exact hkey'

end Inventory

variable {inv : FileInventory}

lemma fileKeyFor_of_resolveTarget {cand : ImportCandidate} {path key : String}
    (h : resolveTarget inv cand = .ok (path, key)) : inv.fileKeyFor path = some key := by
  rw [resolveTarget] at h
  split at h
  · simp at h
  · cases hp : fileKeyPath cand.sourceFileKey with
    | none => simp [hp] at h
    | some srcPath =>
      simp only [hp] at h
      split at h
      · rename_i key' hkey'
        split at hkey'
        · simp only [Except.ok.injEq, Prod.mk.injEq] at h
          obtain ⟨rfl, rfl⟩ := h
          exact hkey'
        · simp at hkey'
      · rw [uniqueMatch] at h
        split at h
        · simp at h
        · rename_i hit hhits
          have hmem : hit ∈ (candidatePaths (normalizeJoin (dirname srcPath) cand.rawSpecifier)).filterMap
              (fun path => (inv.fileKeyFor path).map (fun key => (path, key))) := by simp [hhits]
          obtain ⟨p, -, hmap⟩ := List.mem_filterMap.mp hmem
          obtain ⟨k, hfound, rfl⟩ := Option.map_eq_some_iff.mp hmap
          simp only [Except.ok.injEq, Prod.mk.injEq] at h
          obtain ⟨rfl, rfl⟩ := h
          exact hfound
        · simp at h

lemma fileKeyFor_of_resolveTsconfigAlias {specifier key : String} {cfg : TsconfigAliasConfig}
    (h : resolveTsconfigAlias specifier cfg inv = .resolved key) : ∃ path, inv.fileKeyFor path = some key := by
  simp only [resolveTsconfigAlias] at h
  split at h
  · simp at h
  · split at h
    · simp at h
    · rename_i key' hhits
      obtain rfl : key' = key := by simpa using h
      have hmem : key' ∈ (Std.ExtTreeSet.ofList _ compare).toList := hhits ▸ List.mem_singleton.mpr rfl
      rw [Std.ExtTreeSet.mem_toList, Std.ExtTreeSet.mem_ofList, List.contains_iff_mem] at hmem
      simp only [List.mem_flatMap, substitutionHits, List.mem_filterMap] at hmem
      obtain ⟨_, -, _, -, path, -, hkey⟩ := hmem
      exact ⟨path, hkey⟩
    · simp at h

lemma observationEdge_spec {p : Option TsconfigAliasConfig × ImportObservation}
    {e : ResolvedImportEdgeCandidate} (h : observationEdge inv p = some e) :
    inv.fileKeyFor p.2.sourceFile = some e.srcFileKey ∧ (∃ path, inv.fileKeyFor path = some e.dstFileKey) ∧
      e.rawSpecifier = p.2.rawSpecifier := by
  obtain ⟨srcKey, hsrc, he⟩ := Option.bind_eq_some_iff.mp h
  have hrelative : ∀ basis, relativeEdge inv basis srcKey p.2.rawSpecifier = some e →
      e.srcFileKey = srcKey ∧ (∃ path, inv.fileKeyFor path = some e.dstFileKey) ∧
        e.rawSpecifier = p.2.rawSpecifier := by
    intro basis he
    rw [relativeEdge] at he
    split at he
    · rename_i path key hres
      obtain rfl := Option.some.inj he
      exact ⟨rfl, ⟨path, fileKeyFor_of_resolveTarget hres⟩, rfl⟩
    · simp at he
  have halias : ∀ basis, (p.1.bind fun cfg => aliasEdge inv cfg basis srcKey p.2.rawSpecifier) = some e →
      e.srcFileKey = srcKey ∧ (∃ path, inv.fileKeyFor path = some e.dstFileKey) ∧
        e.rawSpecifier = p.2.rawSpecifier := by
    intro basis he
    obtain ⟨cfg, -, he⟩ := Option.bind_eq_some_iff.mp he
    rw [aliasEdge] at he
    split at he
    · rename_i key hres
      obtain rfl := Option.some.inj he
      exact ⟨rfl, fileKeyFor_of_resolveTsconfigAlias hres, rfl⟩
    · simp at he
  have hmain : e.srcFileKey = srcKey ∧ (∃ path, inv.fileKeyFor path = some e.dstFileKey) ∧
      e.rawSpecifier = p.2.rawSpecifier := by
    rw [edgeFrom] at he
    cases hr : p.2.resolution with
    | staticUnresolved => exact hrelative _ (by simpa [hr] using he)
    | packageExternal => exact halias _ (by simpa [hr] using he)
    | staticResolved => simp [hr] at he
    | dynamicUnsupported =>
      simp only [hr] at he
      split at he
      · simp at he
      · split at he
        · exact hrelative _ he
        · exact halias _ he
  exact ⟨hmain.1 ▸ hsrc, hmain.2⟩

def ResidentFileKey (g : LiveGraph) (key : String) : Prop :=
  ∃ id ir, g.residentIr id = some ir ∧ ∃ n ∈ ir.nodes, n.identitySource = .astFileScope ∧ n.key.asStr = key

lemma mem_residentIrs {g : LiveGraph} {ir : PartitionIr} :
    ir ∈ g.residentIrs ↔ ∃ id, g.residentIr id = some ir := by
  simp only [residentIrs, List.mem_filterMap, residentIr, Option.bind_eq_some_iff]
  constructor
  · rintro ⟨⟨id, s⟩, hmem, hir⟩
    exact ⟨id, s, IterMap.mem_entries.mp hmem, hir⟩
  · rintro ⟨id, s, hs, hir⟩
    exact ⟨⟨id, s⟩, IterMap.mem_entries.mpr hs, hir⟩

lemma mem_fileScopeKeys {g : LiveGraph} {key : String} :
    key ∈ g.residentIrs.flatMap fileScopeKeys ↔ g.ResidentFileKey key := by
  simp only [List.mem_flatMap, mem_residentIrs, fileScopeKeys, List.mem_map, List.mem_filter,
    decide_eq_true_eq, ResidentFileKey]
  constructor
  · rintro ⟨ir, ⟨id, hir⟩, n, ⟨hn, hsrc⟩, hkey⟩
    exact ⟨id, ir, hir, n, hn, hsrc, hkey⟩
  · rintro ⟨id, ir, hir, n, hn, hsrc, hkey⟩
    exact ⟨ir, ⟨id, hir⟩, n, ⟨hn, hsrc⟩, hkey⟩

lemma residentIrs_modify (g : LiveGraph) (id : String) {f : Slot → Slot} (hf : ∀ s, (f s).ir = s.ir) :
    ({ g with slots := g.slots.modify id f } : LiveGraph).residentIrs = g.residentIrs := by
  simp only [residentIrs, IterMap.modify, List.filterMap_map]
  congr 1
  funext e
  by_cases he : e.1 = id
  · simp [he, hf]
  · simp [he]

lemma overlay_after (ms : List Mutation) : (after ms).xpartOverlay = overlayOf (after ms).residentIrs := by
  refine run_invariant (fun _ (g : LiveGraph) => g.xpartOverlay = overlayOf g.residentIrs) rfl ?_ ms
  intro ms g m h
  cases m with
  | loadPartition order id ir language => rfl
  | unloadPartition id => rfl
  | swapPartition order id newIr => rfl
  | beginRefresh id | markStale id | markRefreshFailed id | addPartitionDegradation id reason
  | loadValueFacts id facts =>
    refine h.trans (congrArg overlayOf (Eq.symm ?_))
    refine residentIrs_modify g id ?_
    exact fun _ => rfl

lemma mem_overlay {ms : List Mutation} {e : ResolvedImportEdgeCandidate} :
    e ∈ (after ms).xpartOverlay ↔ ∃ p ∈ observationsOf (after ms).residentIrs,
      observationEdge (residentInventory (after ms).residentIrs) p = some e := by
  rw [overlay_after, (overlayOf_perm _).mem_iff, overlayEdges, List.mem_filterMap]

lemma overlayOf_congr {irs irs' : List PartitionIr} (hperm : irs.Perm irs')
    (hinv : residentInventory irs = residentInventory irs') : (overlayOf irs).Perm (overlayOf irs') := by
  refine (overlayOf_perm irs).trans (List.Perm.trans ?_ (overlayOf_perm irs').symm)
  rw [overlayEdges, overlayEdges, hinv]
  exact (hperm.flatMap_right _).filterMap _

/-- In every reachable graph the overlay is the one computed from the resident slots, its edges run
between their FILE nodes, and it does not depend on the order of the slots as long as a path has one
FILE key. -/
theorem overlay_coherent (ms : List Mutation) :
    (after ms).xpartOverlay = overlayOf (after ms).residentIrs ∧
      (∀ e ∈ (after ms).xpartOverlay,
        (after ms).ResidentFileKey e.srcFileKey ∧ (after ms).ResidentFileKey e.dstFileKey) ∧
      ((∀ k k' path, (after ms).ResidentFileKey k → (after ms).ResidentFileKey k' →
          fileKeyPath k = some path → fileKeyPath k' = some path → k = k') →
        ∀ irs, irs.Perm (after ms).residentIrs → (overlayOf irs).Perm (after ms).xpartOverlay) := by
  refine ⟨overlay_after ms, ?_, ?_⟩
  · intro e he
    obtain ⟨p, -, hedge⟩ := mem_overlay.mp he
    obtain ⟨hsrc, ⟨path, hdst⟩, -⟩ := observationEdge_spec hedge
    exact ⟨mem_fileScopeKeys.mp (mem_of_fileKeyFor hsrc).1, mem_fileScopeKeys.mp (mem_of_fileKeyFor hdst).1⟩
  · intro hunique irs hperm
    rw [overlay_after]
    refine overlayOf_congr hperm ?_
    have hkeys := hperm.flatMap_right fileScopeKeys
    have hmem : ∀ k, k ∈ irs.flatMap fileScopeKeys ↔ (after ms).ResidentFileKey k := by
      intro k
      rw [hkeys.mem_iff, mem_fileScopeKeys]
    refine Std.ExtTreeMap.ext_getElem? ?_
    intro path
    apply Option.ext
    intro key
    rw [show (residentInventory irs)[path]? = some key ↔ _ from fileKeyFor_iff fun k hk k' hk' path =>
        hunique k k' path ((hmem k).mp hk) ((hmem k').mp hk'),
      show (residentInventory (after ms).residentIrs)[path]? = some key ↔ _ from
        fileKeyFor_iff fun k hk k' hk' path =>
          hunique k k' path (mem_fileScopeKeys.mp hk) (mem_fileScopeKeys.mp hk'), hmem, mem_fileScopeKeys]

end RepoGraph.LiveGraph
