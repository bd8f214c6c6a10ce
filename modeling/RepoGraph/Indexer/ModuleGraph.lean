import RepoGraph.Indexer.Resolver

/-! The edges of the module graph: every file is owned by the module of its directory, and the imports between
two directories make one edge with the aggregate of their type-only dispositions. -/

namespace RepoGraph.Indexer

open Lib Lib.Text

section TypeOnly

def aggregateModuleEdgeTypeOnly (contributors : List (Option TypeOnlyDisposition)) : Option TypeOnlyDisposition :=
  if contributors.isEmpty then none
  else if some .runtime ∈ contributors then some .runtime
  else if some .unreadable ∈ contributors then some .unreadable
  else if none ∈ contributors then none
  else some .typeOnly

/-- The order in which one disposition dominates another: runtime, unreadable, absent, type-only. -/
def strength : Option TypeOnlyDisposition → ℕ
  | some .typeOnly => 0
  | none => 1
  | some .unreadable => 2
  | some .runtime => 3

variable {l l' : List (Option TypeOnlyDisposition)}

lemma strength_injective : Function.Injective strength := by
  intro a b h
  rcases a with _ | a <;> rcases b with _ | b
  · rfl
  · cases b <;> simp [strength] at h
  · cases a <;> simp [strength] at h
  · cases a <;> cases b <;> simp_all [strength]

lemma aggregateModuleEdgeTypeOnly_mem (h : l ≠ []) : aggregateModuleEdgeTypeOnly l ∈ l := by
  rw [aggregateModuleEdgeTypeOnly, if_neg (by simpa using h)]
  split
  · assumption
  split
  · assumption
  split
  · assumption
  · next hruntime hunreadable hnone =>
    obtain ⟨d, hd⟩ := List.exists_mem_of_ne_nil _ h
    rcases d with _ | d
    · exact absurd hd hnone
    · cases d with
      | typeOnly => exact hd
      | runtime => exact absurd hd hruntime
      | unreadable => exact absurd hd hunreadable

lemma strength_le_aggregate {d : Option TypeOnlyDisposition} (h : d ∈ l) :
    strength d ≤ strength (aggregateModuleEdgeTypeOnly l) := by
  rw [aggregateModuleEdgeTypeOnly, if_neg (by simpa using List.ne_nil_of_mem h)]
  split
  · rcases d with _ | d
    · simp [strength]
    · cases d <;> simp [strength]
  split
  · rcases d with _ | d
    · simp [strength]
    · cases d <;> simp_all [strength]
  split
  · rcases d with _ | d
    · simp [strength]
    · cases d <;> simp_all [strength]
  · rcases d with _ | d
    · contradiction
    · cases d <;> simp_all [strength]

lemma aggregate_eq_iff (hsub : ∀ d ∈ l, d ∈ l') (h : l ≠ []) :
    aggregateModuleEdgeTypeOnly l' = aggregateModuleEdgeTypeOnly l ↔
      ∀ d ∈ l', ∃ d' ∈ l, strength d ≤ strength d' := by
  constructor
  · intro he d hd
    exact ⟨_, aggregateModuleEdgeTypeOnly_mem h, he ▸ strength_le_aggregate hd⟩
  · intro hmatched
    have hne : l' ≠ [] := by
      obtain ⟨d, hd⟩ := List.exists_mem_of_ne_nil _ h
      exact List.ne_nil_of_mem (hsub d hd)
    obtain ⟨d, hd, hle⟩ := hmatched _ (aggregateModuleEdgeTypeOnly_mem hne)
    apply strength_injective
    apply le_antisymm
    · exact hle.trans (strength_le_aggregate hd)
    · exact strength_le_aggregate (hsub _ (aggregateModuleEdgeTypeOnly_mem h))

end TypeOnly

section Index

def getModulePath (filePath : String) : Option String :=
  (rsplitOnce filePath '/').bind fun (dir, _) => if dir ≠ "" then some dir else none

def moduleKey (repoUid dir : String) : String := s!"{repoUid}:{dir}:MODULE"

structure ModuleIndex where
  fileToModule : IterMap String String
  stableKeyToUid : IterMap String String

def fileModule (repoUid : String) (node : ResolverNode) : Option String :=
  if node.kind = "FILE" then (node.qualifiedName.bind getModulePath).map (moduleKey repoUid) else none

def ModuleIndex.build (repoUid : String) (nodes : List ResolverNode) : ModuleIndex where
  fileToModule := .ofPairs (nodes.filterMap fun node => (fileModule repoUid node).map (node.nodeUid, ·))
  stableKeyToUid := .ofPairs (nodes.map fun node => (node.stableKey, node.nodeUid))

namespace ModuleIndex

variable (index : ModuleIndex)

def modulesOf (pair : ImportPair) : Option (String × String) := do
  let source ← index.fileToModule.lookup pair.1
  let target ← index.fileToModule.lookup pair.2.1
  if source = target then none else some (source, target)

abbrev Contributors := HashMap (String × String) (List (Option TypeOnlyDisposition))

def addPair (s : List (String × String) × Contributors) (pair : ImportPair) :
    List (String × String) × Contributors :=
  match index.modulesOf pair with
  | none => s
  | some key => (if key ∈ s.2 then s.1 else s.1 ++ [key], s.2.insert key (s.2[key]?.getD [] ++ [pair.2.2]))

end ModuleIndex

end Index

section Edges

def indexerVersion : String := "indexer:1.10.0"

structure ModuleEdges where
  edges : List ResolvedEdge
  typeOnlyUpdates : List (String × TypeOnlyDisposition)

def ModuleEdges.push (uuid : ℕ → String) (snapshotUid repoUid : String) (out : ModuleEdges)
    (edge : EdgeType × String × String × Option TypeOnlyDisposition) : ModuleEdges :=
  let (edgeType, source, target, aggregate) := edge
  let edgeUid := uuid out.edges.length
  { edges := out.edges ++
      [{ edgeUid := edgeUid
         snapshotUid := snapshotUid
         repoUid := repoUid
         sourceNodeUid := source
         targetNodeUid := target
         edgeType := edgeType
         resolution := .static
         extractor := indexerVersion
         location := none
         metadataJson := none }]
    typeOnlyUpdates := out.typeOnlyUpdates ++ aggregate.toList.map (edgeUid, ·) }

namespace ModuleIndex

variable (index : ModuleIndex)

def ownsEdge (entry : Σ _ : String, String) : Option (EdgeType × String × String × Option TypeOnlyDisposition) :=
  (index.stableKeyToUid.lookup entry.2).map fun moduleUid => (.owns, moduleUid, entry.1, none)

def importsEdge (contributors : Contributors) (key : String × String) :
    Option (EdgeType × String × String × Option TypeOnlyDisposition) := do
  let source ← index.stableKeyToUid.lookup key.1
  let target ← index.stableKeyToUid.lookup key.2
  some (.imports, source, target, contributors[key]?.bind aggregateModuleEdgeTypeOnly)

def importsEdges (pairs : List ImportPair) : List (EdgeType × String × String × Option TypeOnlyDisposition) :=
  let (order, contributors) := pairs.foldl index.addPair ([], ∅)
  order.filterMap (index.importsEdge contributors)

end ModuleIndex

def createModuleEdges (uuid : ℕ → String) (index : ModuleIndex) (resolvedImportPairs : List ImportPair)
    (snapshotUid repoUid : String) : ModuleEdges :=
  (index.fileToModule.entries.filterMap index.ownsEdge ++ index.importsEdges resolvedImportPairs).foldl
    (ModuleEdges.push uuid snapshotUid repoUid) ⟨[], []⟩

end Edges

section Lookups

variable {repoUid : String} {nodes : List ResolverNode}

namespace ModuleIndex

lemma lookup_fileToModule (huids : (nodes.map (·.nodeUid)).Nodup) {uid key : String} :
    (build repoUid nodes).fileToModule.lookup uid = some key ↔
      ∃ n ∈ nodes, n.nodeUid = uid ∧ fileModule repoUid n = some key := by
  have hkeys : ((nodes.filterMap fun n => (fileModule repoUid n).map (n.nodeUid, ·)).map Prod.fst).Nodup := by
    rw [List.nodup_iff_pairwise_ne, List.pairwise_map]
    refine List.Pairwise.filterMap _ ?_ (List.pairwise_map.mp huids)
    rintro a b hab _ ha _ hb
    obtain ⟨_, -, rfl⟩ := Option.map_eq_some_iff.mp ha
    obtain ⟨_, -, rfl⟩ := Option.map_eq_some_iff.mp hb
    exact hab
  rw [build, IterMap.lookup_ofPairs_eq_some hkeys, List.mem_filterMap]
  constructor
  · rintro ⟨n, hn, h⟩
    obtain ⟨_, hmodule, he⟩ := Option.map_eq_some_iff.mp h
    obtain ⟨rfl, rfl⟩ := Prod.mk.inj he
    exact ⟨n, hn, rfl, hmodule⟩
  · rintro ⟨n, hn, rfl, hmodule⟩
    exact ⟨n, hn, by rw [hmodule]; rfl⟩

lemma lookup_stableKeyToUid (hkeys : (nodes.map (·.stableKey)).Nodup) {key uid : String} :
    (build repoUid nodes).stableKeyToUid.lookup key = some uid ↔
      ∃ n ∈ nodes, n.stableKey = key ∧ n.nodeUid = uid := by
  have hpairs : ((nodes.map fun n => (n.stableKey, n.nodeUid)).map Prod.fst).Nodup := by
    rw [List.map_map]
    exact hkeys
  rw [build, IterMap.lookup_ofPairs_eq_some hpairs, List.mem_map]
  simp only [Prod.mk.injEq]

lemma stableKeyToUid_injective (huids : (nodes.map (·.nodeUid)).Nodup) (hkeys : (nodes.map (·.stableKey)).Nodup)
    {key key' uid : String} (h : (build repoUid nodes).stableKeyToUid.lookup key = some uid)
    (h' : (build repoUid nodes).stableKeyToUid.lookup key' = some uid) : key = key' := by
  obtain ⟨n, hn, rfl, huid⟩ := (lookup_stableKeyToUid hkeys).mp h
  obtain ⟨n', hn', rfl, huid'⟩ := (lookup_stableKeyToUid hkeys).mp h'
  rw [List.inj_on_of_nodup_map huids hn hn' (huid.trans huid'.symm)]

def moduleUid (index : ModuleIndex) (fileNodeUid : String) : Option String :=
  (index.fileToModule.lookup fileNodeUid).bind index.stableKeyToUid.lookup

def crossing (index : ModuleIndex) (pair : ImportPair) : Option (String × String) := do
  let source ← index.moduleUid pair.1
  let target ← index.moduleUid pair.2.1
  if source = target then none else some (source, target)

def fed (index : ModuleIndex) (pairs : List ImportPair)
    (key : String × String) : List (Option TypeOnlyDisposition) :=
  (pairs.filter fun pair => index.crossing pair = some key).map (·.2.2)

variable {index : ModuleIndex}

lemma crossing_eq_some {pair : ImportPair} {key : String × String} : index.crossing pair = some key ↔
    index.moduleUid pair.1 = some key.1 ∧ index.moduleUid pair.2.1 = some key.2 ∧ key.1 ≠ key.2 := by
  obtain ⟨u, v⟩ := key
  simp only [crossing, Option.bind_eq_bind, Option.bind_eq_some_iff]
  constructor
  · rintro ⟨source, hs, target, ht, h⟩
    split at h
    · cases h
    · next hne =>
      cases h
      exact ⟨hs, ht, hne⟩
  · rintro ⟨hs, ht, hne⟩
    exact ⟨u, hs, v, ht, if_neg hne⟩

lemma modulesOf_eq_some {pair : ImportPair} {key : String × String} : index.modulesOf pair = some key ↔
    index.fileToModule.lookup pair.1 = some key.1 ∧ index.fileToModule.lookup pair.2.1 = some key.2 ∧
      key.1 ≠ key.2 := by
  obtain ⟨u, v⟩ := key
  simp only [modulesOf, Option.bind_eq_bind, Option.bind_eq_some_iff]
  constructor
  · rintro ⟨source, hs, target, ht, h⟩
    split at h
    · cases h
    · next hne =>
      cases h
      exact ⟨hs, ht, hne⟩
  · rintro ⟨hs, ht, hne⟩
    exact ⟨u, hs, v, ht, if_neg hne⟩

lemma crossing_iff_modulesOf (huids : (nodes.map (·.nodeUid)).Nodup) (hkeys : (nodes.map (·.stableKey)).Nodup)
    (key uids : String × String)
    (hs : (build repoUid nodes).stableKeyToUid.lookup key.1 = some uids.1)
    (ht : (build repoUid nodes).stableKeyToUid.lookup key.2 = some uids.2) (pair : ImportPair) :
    (build repoUid nodes).crossing pair = some uids ↔ (build repoUid nodes).modulesOf pair = some key := by
  rw [crossing_eq_some, modulesOf_eq_some]
  constructor
  · rintro ⟨hsource, htarget, hne⟩
    obtain ⟨source, hfile, hsource⟩ := Option.bind_eq_some_iff.mp hsource
    obtain ⟨target, hfile', htarget⟩ := Option.bind_eq_some_iff.mp htarget
    obtain rfl := stableKeyToUid_injective huids hkeys hsource hs
    obtain rfl := stableKeyToUid_injective huids hkeys htarget ht
    refine ⟨hfile, hfile', ?_⟩
    intro he
    rw [he] at hsource
    exact hne (Option.some.inj (hsource.symm.trans htarget))
  · rintro ⟨hsource, htarget, hne⟩
    refine ⟨?_, ?_, ?_⟩
    · rw [moduleUid, hsource, Option.bind_some, hs]
    · rw [moduleUid, htarget, Option.bind_some, ht]
    · intro he
      rw [he] at hs
      exact hne (stableKeyToUid_injective huids hkeys hs ht)

variable (index) in
lemma addPairs_spec (pairs : List ImportPair) (s : List (String × String) × Contributors) (hnodup : s.1.Nodup)
    (horder : ∀ key, key ∈ s.1 ↔ key ∈ s.2) :
    (pairs.foldl index.addPair s).1.Nodup ∧
      (∀ key, key ∈ (pairs.foldl index.addPair s).1 ↔ key ∈ s.1 ∨
        ∃ pair ∈ pairs, index.modulesOf pair = some key) ∧
      (∀ key, key ∈ (pairs.foldl index.addPair s).1 ↔ key ∈ (pairs.foldl index.addPair s).2) ∧
      ∀ key, (pairs.foldl index.addPair s).2[key]?.getD [] =
        s.2[key]?.getD [] ++ (pairs.filter fun pair => index.modulesOf pair = some key).map (·.2.2) := by
  induction pairs generalizing s with
  | nil => exact ⟨hnodup, by simp, horder, by simp⟩
  | cons pair pairs ih =>
    rw [List.foldl_cons, addPair]
    cases hpair : index.modulesOf pair with
    | none =>
      obtain ⟨h₁, h₂, h₃, h₄⟩ := ih s hnodup horder
      refine ⟨h₁, ?_, h₃, ?_⟩
      · intro key
        rw [h₂, List.exists_mem_cons_iff, hpair]
        simp
      · intro key
        rw [h₄, List.filter_cons, if_neg (by simp [hpair])]
    | some met =>
      have hmem : ∀ key, key ∈ (if met ∈ s.2 then s.1 else s.1 ++ [met]) ↔ key ∈ s.1 ∨ met = key := by
        intro key
        split
        · next hmet =>
          constructor
          · exact Or.inl
          · rintro (hkey | rfl)
            · exact hkey
            · exact (horder _).mpr hmet
        · rw [List.mem_append, List.mem_singleton, eq_comm]
      obtain ⟨h₁, h₂, h₃, h₄⟩ := ih
        (if met ∈ s.2 then s.1 else s.1 ++ [met], s.2.insert met (s.2[met]?.getD [] ++ [pair.2.2]))
        (by
          split
          · exact hnodup
          · next hmet =>
            refine List.nodup_append.mpr ⟨hnodup, List.nodup_singleton met, ?_⟩
            rintro a ha b hb rfl
            obtain rfl := List.mem_singleton.mp hb
            exact hmet ((horder a).mp ha))
        (by
          intro key
          rw [hmem, horder, Std.ExtTreeMap.mem_insert, Std.compare_eq_iff_eq, or_comm])
      refine ⟨h₁, ?_, h₃, ?_⟩
      · intro key
        rw [h₂, hmem, List.exists_mem_cons_iff, hpair, Option.some_inj, or_assoc]
      · intro key
        rw [h₄, getElem?_insert, List.filter_cons]
        by_cases hkey : met = key
        · subst hkey
          simp [hpair]
        · simp [hpair, hkey]

/-- The module edges: one for every two modules that an import joins, with the aggregate of what the imports
between them contribute. -/
lemma mem_importsEdges (huids : (nodes.map (·.nodeUid)).Nodup) (hkeys : (nodes.map (·.stableKey)).Nodup)
    {pairs : List ImportPair} {source target : String} {edgeType : EdgeType}
    {aggregate : Option TypeOnlyDisposition} :
    (edgeType, source, target, aggregate) ∈ (build repoUid nodes).importsEdges pairs ↔
      edgeType = .imports ∧ (build repoUid nodes).fed pairs (source, target) ≠ [] ∧
        aggregate = aggregateModuleEdgeTypeOnly ((build repoUid nodes).fed pairs (source, target)) := by
  obtain ⟨-, horder, hcontributors, hlist⟩ := addPairs_spec (build repoUid nodes) pairs ([], ∅)
    List.nodup_nil (by simp)
  have hfed : ∀ key uids : String × String,
      (build repoUid nodes).stableKeyToUid.lookup key.1 = some uids.1 →
      (build repoUid nodes).stableKeyToUid.lookup key.2 = some uids.2 →
      (pairs.foldl (build repoUid nodes).addPair ([], ∅)).2[key]?.getD [] =
        (build repoUid nodes).fed pairs uids := by
    intro key uids hs ht
    rw [hlist, fed]
    simp only [Std.ExtTreeMap.getElem?_empty, Option.getD_none, List.nil_append,
      crossing_iff_modulesOf huids hkeys key uids hs ht]
  simp only [importsEdges, List.mem_filterMap, importsEdge, Option.bind_eq_bind, Option.bind_eq_some_iff,
    Option.some_inj, Prod.mk.injEq]
  constructor
  · rintro ⟨key, hkey, u, hu, v, hv, rfl, rfl, rfl, rfl⟩
    have hmem := (hcontributors key).mp hkey
    obtain ⟨pair, hpair, hmodules⟩ := ((horder key).mp hkey).resolve_left List.not_mem_nil
    have hsame := hfed key (u, v) hu hv
    obtain ⟨dispositions, hget⟩ := Option.isSome_iff_exists.mp (Std.ExtTreeMap.mem_iff_isSome_getElem?.mp hmem)
    rw [hget, Option.getD_some] at hsame
    refine ⟨rfl, ?_, ?_⟩
    · have hcross := (crossing_iff_modulesOf huids hkeys key (u, v) hu hv pair).mpr hmodules
      exact List.ne_nil_of_mem (List.mem_map_of_mem (List.mem_filter.mpr ⟨hpair, by simpa using hcross⟩))
    · rw [hget, Option.bind_some, hsame]
  · rintro ⟨rfl, hne, rfl⟩
    obtain ⟨_, hd⟩ := List.exists_mem_of_ne_nil _ hne
    obtain ⟨pair, hpair, -⟩ := List.mem_map.mp hd
    obtain ⟨hpair, hcross⟩ := List.mem_filter.mp hpair
    obtain ⟨hsource, htarget, hdistinct⟩ := crossing_eq_some.mp (by simpa using hcross)
    obtain ⟨key, hfile, hu⟩ := Option.bind_eq_some_iff.mp hsource
    obtain ⟨key', hfile', hv⟩ := Option.bind_eq_some_iff.mp htarget
    have hmodules := (crossing_iff_modulesOf huids hkeys (key, key') (source, target) hu hv pair).mp
      (by simpa using hcross)
    have hkey := (horder (key, key')).mpr (Or.inr ⟨pair, hpair, hmodules⟩)
    have hsame := hfed (key, key') (source, target) hu hv
    obtain ⟨dispositions, hget⟩ :=
      Option.isSome_iff_exists.mp (Std.ExtTreeMap.mem_iff_isSome_getElem?.mp ((hcontributors _).mp hkey))
    rw [hget, Option.getD_some] at hsame
    exact ⟨(key, key'), hkey, source, hu, target, hv, rfl, rfl, rfl, by rw [hget, Option.bind_some, hsame]⟩

lemma nodup_importsEdges (huids : (nodes.map (·.nodeUid)).Nodup) (hkeys : (nodes.map (·.stableKey)).Nodup)
    (pairs : List ImportPair) :
    (((build repoUid nodes).importsEdges pairs).map fun edge => (edge.2.1, edge.2.2.1)).Nodup := by
  obtain ⟨hnodup, -⟩ := addPairs_spec (build repoUid nodes) pairs ([], ∅) List.nodup_nil (by simp)
  rw [List.nodup_iff_pairwise_ne, List.pairwise_map]
  refine List.Pairwise.filterMap _ ?_ (List.nodup_iff_pairwise_ne.mp hnodup)
  rintro key key' hne edge hedge edge' hedge' he
  simp only [importsEdge, Option.bind_eq_bind, Option.bind_eq_some_iff, Option.some_inj] at hedge hedge'
  obtain ⟨u, hu, v, hv, rfl⟩ := hedge
  obtain ⟨u', hu', v', hv', rfl⟩ := hedge'
  obtain ⟨rfl, rfl⟩ := Prod.mk.inj he
  exact hne (Prod.ext (stableKeyToUid_injective huids hkeys hu hu') (stableKeyToUid_injective huids hkeys hv hv'))

end ModuleIndex

end Lookups

end RepoGraph.Indexer
