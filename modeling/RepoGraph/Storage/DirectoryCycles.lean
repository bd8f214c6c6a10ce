import RepoGraph.GraphAlgorithms.SccCancel
import RepoGraph.Lib.Folds
import RepoGraph.Storage.DirectoryModules

/-! The cycles of a view of the directory-module graph, and the cycles that exist only through imports the
view leaves out. -/

namespace RepoGraph.Storage

open Lib Lib.Digraph Indexer Classification GraphAlgorithms

abbrev Query (α : Type) := ExceptT StorageError Exec α

structure ExcludedCycle where
  members : List String
  memberIds : List String
  flags : List String
  containsShown : List (List String)
  partitions : PartitionCounts
  deriving DecidableEq, Repr

structure ExcludedScan where
  seen : List (BTreeSet String)
  out : List ExcludedCycle

namespace DirectoryModuleGraph

variable (graph : DirectoryModuleGraph)

def admittedImports (view : ImportView) :
    List ((String × String) × List (ImportPartition × Option TypeOnlyDisposition)) :=
  graph.relations.toList.map fun entry => (entry.1, entry.2.admitted view)

def viewEdges (view : ImportView) : List (String × String × Option TypeOnlyDisposition) :=
  (graph.admittedImports view).filterMap fun entry =>
    if entry.2.isEmpty then none
    else some (entry.1.1, entry.1.2, aggregateModuleEdgeTypeOnly (entry.2.map (·.2)))

def directedEdges (view : ImportView) : List DirectedEdge :=
  (graph.viewEdges view).map fun edge => ⟨edge.1, edge.2.1⟩

def sccSets (view : ImportView) (cancel : CancelCheck) : Query (List (BTreeSet String)) := do
  match ← ExceptT.lift (findSccsCancellable (graph.directedEdges view) cancel) with
  | .error .cancelled => throw .cancelled
  | .ok result => return result.cycleSets

def qualifiedOf (uid : String) : String := graph.qualified[uid]?.getD uid

def sortedQualified (members : BTreeSet String) : List String × List String :=
  (sortBy compare (members.toList.map fun m => (graph.qualifiedOf m, m))).unzip

def memberPartitions (members : BTreeSet String) : Option PartitionCounts :=
  if members.toList.any (· ∉ graph.qualified) then none
  else
    some (graph.relations.toList.foldl
      (fun out entry => if entry.1.1 ∈ members ∧ entry.1.2 ∈ members then out.merge entry.2.partitions else out)
      default)

def shownInside (shown : List (BTreeSet String)) (scc : BTreeSet String) : List (List String) :=
  let inside := shown.filter fun s => s.size < scc.size && s.toList.all (· ∈ scc)
  sortBy compare (inside.map fun s => (graph.sortedQualified s).1)

def scanScc (shown : List (BTreeSet String)) (w : ImportView) (scan : ExcludedScan) (scc : BTreeSet String) :
    Except StorageError ExcludedScan :=
  if scc ∈ shown ∨ scc ∈ scan.seen then .ok scan
  else
    let (members, memberIds) := graph.sortedQualified scc
    match graph.memberPartitions scc with
    | none => .error (.unknownCycleMember members)
    | some partitions =>
      .ok ⟨scc :: scan.seen,
        scan.out ++ [⟨members, memberIds, w.flagNames, graph.shownInside shown scc, partitions⟩]⟩

/-- One search for each wider view. The callback is shared by all the searches: `cancel i` is what it answers
during the `i`-th. -/
def scanViews (shown : List (BTreeSet String)) (cancel : ℕ → CancelCheck) :
    ℕ → List ImportView → ExcludedScan → Query ExcludedScan
  | _, [], scan => return scan
  | i, w :: rest, scan => do
    let sccs ← graph.sccSets w (cancel i)
    let scan ← ExceptT.mk (.ok (sccs.foldlM (graph.scanScc shown w) scan))
    scanViews shown cancel (i + 1) rest scan

def excludedCycles (view : ImportView) (cancel : ℕ → CancelCheck) : Query (List ExcludedCycle) := do
  if view.widerViews.isEmpty then return []
  let shown ← graph.sccSets view (cancel 0)
  let scan ← graph.scanViews shown cancel 1 view.widerViews ⟨[], []⟩
  return sortBy (compareOn (·.members)) scan.out

def excludedImportCount (view : ImportView) : ℕ :=
  (graph.relations.toList.map fun entry => entry.2.partitions.total - entry.2.partitions.admitted view).sum

def ViewArc (view : ImportView) (u v : String) : Prop :=
  ∃ rel, graph.relations[(u, v)]? = some rel ∧ rel.admitted view ≠ []

def IsCycle (view : ImportView) (s : BTreeSet String) : Prop :=
  IsComponentSet (graph.ViewArc view) {v | v ∈ s} ∧ 1 < s.size

end DirectoryModuleGraph

def StrictlyInside (s t : BTreeSet String) : Prop := (∀ v ∈ s, v ∈ t) ∧ s ≠ t

def ExcludedCycle.memberSet (e : ExcludedCycle) : BTreeSet String := .ofList e.memberIds compare

lemma strictlyInside_iff {s t : BTreeSet String} :
    (s.size < t.size && s.toList.all (· ∈ t)) = true ↔ StrictlyInside s t := by
  rw [Bool.and_eq_true, decide_eq_true_eq, List.all_eq_true]
  simp only [decide_eq_true_eq, Std.ExtTreeSet.mem_toList]
  constructor
  · rintro ⟨hlt, hsub⟩
    refine ⟨hsub, ?_⟩
    rintro rfl
    exact absurd hlt (lt_irrefl _)
  · rintro ⟨hsub, hne⟩
    exact ⟨size_lt_of_subset hsub hne, hsub⟩

namespace DirectoryModuleGraph

variable {graph : DirectoryModuleGraph} {view wider : ImportView}

section Arcs

lemma mem_viewEdges {u v : String} {typeOnly : Option TypeOnlyDisposition} :
    (u, v, typeOnly) ∈ graph.viewEdges view ↔ ∃ rel, graph.relations[(u, v)]? = some rel ∧ rel.admitted view ≠ [] ∧
      typeOnly = aggregateModuleEdgeTypeOnly ((rel.admitted view).map (·.2)) := by
  rw [viewEdges, admittedImports]
  simp only [List.mem_filterMap, List.mem_map]
  constructor
  · rintro ⟨_, ⟨⟨key, rel⟩, hmem, rfl⟩, hedge⟩
    dsimp only at hedge
    split at hedge
    · cases hedge
    · next hadmitted =>
      cases hedge
      exact ⟨rel, Std.ExtTreeMap.mem_toList_iff_getElem?_eq_some.mp hmem, by simpa using hadmitted, rfl⟩
  · rintro ⟨rel, hrel, hadmitted, rfl⟩
    refine ⟨((u, v), rel.admitted view), ⟨((u, v), rel), ?_, rfl⟩, ?_⟩
    · exact Std.ExtTreeMap.mem_toList_iff_getElem?_eq_some.mpr hrel
    · rw [if_neg (by simpa using hadmitted)]

lemma nodup_viewEdges (graph : DirectoryModuleGraph) (view : ImportView) :
    ((graph.viewEdges view).map fun edge => (edge.1, edge.2.1)).Nodup := by
  have hkeys : (graph.admittedImports view).Pairwise fun a b => a.1 ≠ b.1 := by
    refine List.pairwise_map.mpr (Std.ExtTreeMap.distinct_keys_toList.imp ?_)
    intro a b hab he
    exact hab (by simpa using he)
  rw [List.nodup_iff_pairwise_ne, List.pairwise_map]
  refine List.Pairwise.filterMap _ ?_ hkeys
  intro a b hab x hx y hy he
  split at hx
  · cases hx
  split at hy
  · cases hy
  · cases hx
    cases hy
    exact hab (Prod.ext (Prod.mk.inj he).1 (Prod.mk.inj he).2)

lemma arc_directedEdges : Arc (graph.directedEdges view) = graph.ViewArc view := by
  funext u v
  rw [eq_iff_iff, Arc, directedEdges, List.mem_map]
  constructor
  · rintro ⟨⟨_, _, typeOnly⟩, hedge, he⟩
    obtain ⟨rfl, rfl⟩ := DirectedEdge.mk.inj he
    obtain ⟨rel, hrel, hadmitted, -⟩ := mem_viewEdges.mp hedge
    exact ⟨rel, hrel, hadmitted⟩
  · rintro ⟨rel, hrel, hadmitted⟩
    exact ⟨(u, v, _), mem_viewEdges.mpr ⟨rel, hrel, hadmitted, rfl⟩, rfl⟩

lemma viewArc_widen (h : wider.isStrictSupersetOf view = true) (u v : String) (harc : graph.ViewArc view u v) :
    graph.ViewArc wider u v := by
  obtain ⟨rel, hrel, hadmitted⟩ := harc
  obtain ⟨c, hc⟩ := List.exists_mem_of_ne_nil _ hadmitted
  obtain ⟨hmem, hview⟩ := List.mem_filter.mp hc
  refine ⟨rel, hrel, List.ne_nil_of_mem (a := c) ?_⟩
  exact List.mem_filter.mpr ⟨hmem, admits_of_isStrictSupersetOf h hview⟩

lemma ViewArc.source_mem {u v : String} (h : graph.ViewArc view u v) : u ∈ graph.qualified := by
  obtain ⟨rel, hrel, -⟩ := h
  have hmem : (u, v) ∈ graph.relations := by
    rw [Std.ExtTreeMap.mem_iff_isSome_getElem?, hrel]
    rfl
  exact (graph.modules _ hmem).1

lemma IsCycle.exists_mutual {s : BTreeSet String} (h : graph.IsCycle view s) {u : String} (hu : u ∈ s) :
    ∃ v, Mutual (graph.ViewArc view) u v ∧ u ≠ v := by
  obtain ⟨v, hv, hne⟩ := exists_ne_of_one_lt_size h.2 u
  exact ⟨v, (h.1.2 u hu v).mp hv, hne.symm⟩

lemma IsCycle.mem_qualified {s : BTreeSet String} (h : graph.IsCycle view s) {u : String} (hu : u ∈ s) :
    u ∈ graph.qualified := by
  obtain ⟨v, hv, hne⟩ := h.exists_mutual hu
  obtain ⟨w, hw⟩ := hv.exists_edge hne
  exact hw.source_mem

lemma IsCycle.eq_of_mem {s t : BTreeSet String} (hs : graph.IsCycle view s) (ht : graph.IsCycle view t)
    {u : String} (hus : u ∈ s) (hut : u ∈ t) : s = t := by
  refine Std.ExtTreeSet.ext_mem fun v => ?_
  exact Set.ext_iff.mp (hs.1.eq_of_mem ht.1 (u := u) hus hut) v

end Arcs

section Search

lemma sccSets_spec (graph : DirectoryModuleGraph) (view : ImportView) (cancel : CancelCheck) :
    (graph.sccSets view cancel = .mk (.ok (.error .cancelled)) ∧ ∃ n, cancel n = .brk) ∨
      ∃ sets, graph.sccSets view cancel = .mk (.ok (.ok sets)) ∧ sets.Nodup ∧
        ∀ s, s ∈ sets ↔ graph.IsCycle view s := by
  rcases findSccsCancellable_partition (graph.directedEdges view) cancel with ⟨hrun, hbrk⟩
    | ⟨r, hrun, hpart, hcycles⟩
  · refine Or.inl ⟨?_, hbrk⟩
    rw [sccSets, hrun]
    rfl
  · refine Or.inr ⟨r.cycleSets, ?_, nodup_cycleSets hpart hcycles, ?_⟩
    · rw [sccSets, hrun]
      rfl
    · intro s
      rw [mem_cycleSets hpart hcycles, arc_directedEdges]
      rfl

lemma exists_cycle_of_mutual {u v : String} (h : Mutual (graph.ViewArc view) u v) (hne : u ≠ v) :
    ∃ s, graph.IsCycle view s ∧ u ∈ s := by
  obtain ⟨r, hwhole, hpart, hcycles, -, -⟩ :=
    findSccsEvery_partition cancelCheckInterval (graph.directedEdges view)
  rw [arc_directedEdges] at hpart
  obtain ⟨w, hw⟩ := h.exists_edge hne
  rw [← arc_directedEdges] at hw
  obtain ⟨_, hmem, huc⟩ := List.mem_flatten.mp ((hpart.mem_iff u).mpr (mem_endpoints_of_arc hw).1)
  obtain ⟨c, hc, rfl⟩ := List.mem_map.mp hmem
  have hvc : v ∈ c.members := ((hpart.component _ hmem).mem_iff u huc v).mpr h
  have hcycle : c.isCycle = true := by
    have hlt : 1 < c.members.length := by
      rw [← List.toFinset_card_of_nodup ((List.nodup_flatten.mp hpart.nodup).1 _ hmem), Finset.one_lt_card]
      exact ⟨u, by simpa using huc, v, by simpa using hvc, hne⟩
    simpa [Scc.isCycle] using hlt
  have hset : (.ofList c.members compare : BTreeSet String) ∈ r.cycleSets := by
    rw [SccResult.cycleSets, hcycles]
    exact List.mem_map_of_mem (List.mem_filter.mpr ⟨hc, hcycle⟩)
  rw [← arc_directedEdges] at hpart
  rw [mem_cycleSets hpart hcycles, arc_directedEdges] at hset
  exact ⟨_, hset, mem_ofList_members.mpr huc⟩

lemma IsCycle.widen {s : BTreeSet String} (h : wider.isStrictSupersetOf view = true) (hs : graph.IsCycle view s) :
    graph.IsCycle wider s ∨
      ∃ t, (graph.IsCycle wider t ∧ StrictlyInside s t) ∧
        ∀ t', graph.IsCycle wider t' → StrictlyInside s t' → t' = t := by
  obtain ⟨u, hu⟩ := hs.1.1
  obtain ⟨v, hv, hne⟩ := hs.exists_mutual hu
  obtain ⟨t, ht, hut⟩ := exists_cycle_of_mutual (hv.mono (viewArc_widen h)) hne
  have hsub := hs.1.subset_of_mem (viewArc_widen h) ht.1 (u := u) hu hut
  by_cases heq : s = t
  · exact Or.inl (heq ▸ ht)
  · refine Or.inr ⟨t, ⟨ht, hsub, heq⟩, ?_⟩
    intro t' ht' hinside
    exact ht'.eq_of_mem ht (hinside.1 u hu) hut

end Search

section Scan

structure Describes (graph : DirectoryModuleGraph) (shown : List (BTreeSet String)) (w : ImportView)
    (e : ExcludedCycle) : Prop where
  names : e.members = (graph.sortedQualified e.memberSet).1
  ids : e.memberIds = (graph.sortedQualified e.memberSet).2
  flags : e.flags = w.flagNames
  inside : e.containsShown = graph.shownInside shown e.memberSet
  partitions : graph.memberPartitions e.memberSet = some e.partitions

structure Scanned (graph : DirectoryModuleGraph) (shown : List (BTreeSet String)) (views : List ImportView)
    (found : BTreeSet String → Prop) (scan : ExcludedScan) : Prop where
  seen : ∀ s, s ∈ scan.seen ↔ s ∉ shown ∧ found s
  once : (scan.out.map ExcludedCycle.memberSet).Nodup
  listed : ∀ s, s ∈ scan.out.map ExcludedCycle.memberSet ↔ s ∈ scan.seen
  first : ∀ e ∈ scan.out, ∃ before w after, views = before ++ w :: after ∧ graph.IsCycle w e.memberSet ∧
    (∀ w' ∈ before, ¬ graph.IsCycle w' e.memberSet) ∧ graph.Describes shown w e

variable {shown : List (BTreeSet String)}

lemma ofList_sortedQualified (s : BTreeSet String) : .ofList (graph.sortedQualified s).2 compare = s := by
  refine Std.ExtTreeSet.ext_mem fun v => ?_
  rw [Std.ExtTreeSet.mem_ofList, List.contains_iff_mem, sortedQualified, List.unzip_eq_map,
    ((sortBy_perm _ _).map _).mem_iff, List.map_map]
  simp

lemma memberPartitions_isSome {w : ImportView} {s : BTreeSet String} (h : graph.IsCycle w s) :
    ∃ partitions, graph.memberPartitions s = some partitions := by
  have hnone : ¬ s.toList.any (· ∉ graph.qualified) = true := by
    rw [List.any_eq_true]
    rintro ⟨u, hu, hout⟩
    simp only [decide_eq_true_eq] at hout
    exact hout (h.mem_qualified (Std.ExtTreeSet.mem_toList.mp hu))
  exact ⟨_, if_neg hnone⟩

lemma scanScc_spec {views : List ImportView} {w : ImportView}
    {found : BTreeSet String → Prop} {scan : ExcludedScan}
    {s : BTreeSet String} (h : graph.Scanned shown (views ++ [w]) found scan)
    (hfound : ∀ w' ∈ views, ∀ t, graph.IsCycle w' t → found t) (hs : graph.IsCycle w s) :
    ∃ scan', graph.scanScc shown w scan s = .ok scan' ∧
      graph.Scanned shown (views ++ [w]) (fun t => found t ∨ t = s) scan' := by
  rw [scanScc]
  by_cases hskip : s ∈ shown ∨ s ∈ scan.seen
  · rw [if_pos hskip]
    refine ⟨scan, rfl, ⟨?_, h.once, h.listed, h.first⟩⟩
    intro t
    rw [h.seen]
    constructor
    · rintro ⟨hshown, hf⟩
      exact ⟨hshown, Or.inl hf⟩
    · rintro ⟨hshown, hf | rfl⟩
      · exact ⟨hshown, hf⟩
      · exact (h.seen t).mp (hskip.resolve_left hshown)
  · rw [if_neg hskip]
    obtain ⟨hshown, hseen⟩ := not_or.mp hskip
    obtain ⟨partitions, hpartitions⟩ := memberPartitions_isSome hs
    set e : ExcludedCycle := ⟨(graph.sortedQualified s).1, (graph.sortedQualified s).2, w.flagNames,
      graph.shownInside shown s, partitions⟩ with he
    have hset : e.memberSet = s := ofList_sortedQualified s
    have hmap : (scan.out ++ [e]).map ExcludedCycle.memberSet = scan.out.map ExcludedCycle.memberSet ++ [s] := by
      rw [List.map_append, List.map_singleton, hset]
    refine ⟨⟨s :: scan.seen, scan.out ++ [e]⟩, ?_, ⟨?_, ?_, ?_, ?_⟩⟩
    · simp only [hpartitions, he]
    · intro t
      rw [List.mem_cons, h.seen]
      constructor
      · rintro (rfl | ⟨ht, hf⟩)
        · exact ⟨hshown, Or.inr rfl⟩
        · exact ⟨ht, Or.inl hf⟩
      · rintro ⟨ht, hf | rfl⟩
        · exact Or.inr ⟨ht, hf⟩
        · exact Or.inl rfl
    · rw [hmap]
      refine List.nodup_append.mpr ⟨h.once, List.nodup_singleton s, ?_⟩
      rintro a ha b hb rfl
      obtain rfl := List.mem_singleton.mp hb
      exact hseen ((h.listed a).mp ha)
    · intro t
      rw [hmap, List.mem_append, List.mem_singleton, h.listed, List.mem_cons, or_comm]
    · intro e' he'
      rcases List.mem_append.mp he' with he' | he'
      · exact h.first e' he'
      · obtain rfl := List.mem_singleton.mp he'
        rw [hset]
        refine ⟨views, w, [], rfl, hs, ?_, ?_⟩
        · intro w' hw' hcycle
          exact hseen ((h.seen s).mpr ⟨hshown, hfound w' hw' s hcycle⟩)
        · exact ⟨by rw [hset], by rw [hset], rfl, by rw [hset], by rw [hset, hpartitions]⟩

lemma foldlM_scanScc_spec {views : List ImportView} {w : ImportView} (sccs : List (BTreeSet String))
    (hsccs : ∀ s ∈ sccs, graph.IsCycle w s) {found : BTreeSet String → Prop} {scan : ExcludedScan}
    (h : graph.Scanned shown (views ++ [w]) found scan)
    (hfound : ∀ w' ∈ views, ∀ t, graph.IsCycle w' t → found t) :
    ∃ scan', sccs.foldlM (graph.scanScc shown w) scan = .ok scan' ∧
      graph.Scanned shown (views ++ [w]) (fun t => found t ∨ t ∈ sccs) scan' := by
  induction sccs generalizing found scan with
  | nil => exact ⟨scan, rfl, by simpa using h⟩
  | cons s sccs ih =>
    obtain ⟨mid, hmid, hscanned⟩ := scanScc_spec h hfound (hsccs s List.mem_cons_self)
    obtain ⟨scan', hrun, hscanned'⟩ := ih (fun t ht => hsccs t (List.mem_cons_of_mem _ ht)) hscanned
      (fun w' hw' t ht => Or.inl (hfound w' hw' t ht))
    refine ⟨scan', ?_, ?_⟩
    · rw [List.foldlM_cons, hmid, ok_bind, hrun]
    · have hsame : (fun t => (found t ∨ t = s) ∨ t ∈ sccs) = fun t => found t ∨ t ∈ s :: sccs := by
        funext t
        rw [List.mem_cons, or_assoc]
      exact hsame ▸ hscanned'

lemma Scanned.extend {views : List ImportView} {found : BTreeSet String → Prop} {scan : ExcludedScan}
    (h : graph.Scanned shown views found scan)
      (w : ImportView) : graph.Scanned shown (views ++ [w]) found scan := by
  refine ⟨h.seen, h.once, h.listed, ?_⟩
  intro e he
  obtain ⟨before, w', after, rfl, hrest⟩ := h.first e he
  exact ⟨before, w', after ++ [w], by simp, hrest⟩

def CycleOfSome (graph : DirectoryModuleGraph) (views : List ImportView) (s : BTreeSet String) : Prop :=
  ∃ w ∈ views, graph.IsCycle w s

lemma scanViews_spec (cancel : ℕ → CancelCheck) {i : ℕ} (done rest : List ImportView) {scan : ExcludedScan}
    (h : graph.Scanned shown done (graph.CycleOfSome done) scan) :
    (graph.scanViews shown cancel i rest scan = .mk (.ok (.error .cancelled)) ∧ ∃ i n, cancel i n = .brk) ∨
      ∃ scan', graph.scanViews shown cancel i rest scan = .mk (.ok (.ok scan')) ∧
        graph.Scanned shown (done ++ rest) (graph.CycleOfSome (done ++ rest)) scan' := by
  induction rest generalizing i done scan with
  | nil =>
    refine Or.inr ⟨scan, rfl, ?_⟩
    rwa [List.append_nil]
  | cons w rest ih =>
    rw [scanViews]
    rcases sccSets_spec graph w (cancel i) with ⟨hrun, n, hn⟩ | ⟨sccs, hrun, -, hsccs⟩
    · refine Or.inl ⟨?_, i, n, hn⟩
      rw [hrun]
      rfl
    · obtain ⟨scan₁, hfold, hscanned⟩ := foldlM_scanScc_spec sccs (fun s hs => (hsccs s).mp hs) (h.extend w)
        (fun w' hw' t ht => ⟨w', hw', ht⟩)
      have hfound : (fun t => graph.CycleOfSome done t ∨ t ∈ sccs) = graph.CycleOfSome (done ++ [w]) := by
        funext t
        simp only [CycleOfSome, hsccs, List.mem_append, List.mem_singleton, eq_iff_iff]
        constructor
        · rintro (⟨w', hw', ht⟩ | ht)
          · exact ⟨w', Or.inl hw', ht⟩
          · exact ⟨w, Or.inr rfl, ht⟩
        · rintro ⟨w', hw' | rfl, ht⟩
          · exact Or.inl ⟨w', hw', ht⟩
          · exact Or.inr ht
      rw [hfound] at hscanned
      have hnext := ih (i := i + 1) (done ++ [w]) hscanned
      rw [List.append_assoc, List.singleton_append] at hnext
      rw [hrun]
      change ((ExceptT.mk (.ok (sccs.foldlM (graph.scanScc shown w) scan)) : Query ExcludedScan) >>= _) = _ ∧ _ ∨
        ∃ scan', ((ExceptT.mk (.ok (sccs.foldlM (graph.scanScc shown w) scan)) : Query ExcludedScan) >>= _) = _ ∧ _
      rw [hfold]
      exact hnext

lemma mem_shownInside (hshown : ∀ s, s ∈ shown ↔ graph.IsCycle view s) {t : BTreeSet String}
    {names : List String} : names ∈ graph.shownInside shown t ↔
      ∃ s, graph.IsCycle view s ∧ StrictlyInside s t ∧ (graph.sortedQualified s).1 = names := by
  simp only [shownInside, (sortBy_perm _ _).mem_iff, List.mem_map, List.mem_filter, strictlyInside_iff, hshown,
    and_assoc]

end Scan

section Counts

lemma admittedImports_eq_all_iff : graph.admittedImports view = graph.admittedImports .all ↔
    ∀ entry ∈ graph.relations.toList, ∀ c ∈ entry.2.contributors, view.admits c.1 = true := by
  rw [admittedImports, admittedImports, List.map_inj_left]
  refine forall₂_congr fun entry _ => ?_
  rw [Prod.mk.injEq, DirectoryRelation.admitted_all, DirectoryRelation.admitted_eq_contributors]
  exact and_iff_right rfl

lemma excludedImportCount_eq_zero_iff :
    graph.excludedImportCount view = 0 ↔ graph.admittedImports view = graph.admittedImports .all := by
  rw [admittedImports_eq_all_iff, excludedImportCount, List.sum_eq_zero_iff]
  simp only [List.mem_map, forall_exists_index, and_imp, forall_apply_eq_imp_iff₂]
  refine forall₂_congr fun entry _ => ?_
  rw [entry.2.total_partitions, entry.2.admitted_partitions, Nat.sub_eq_zero_iff_le,
    ← DirectoryRelation.admitted_eq_contributors]
  constructor
  · intro hle
    exact List.filter_sublist.eq_of_length_le hle
  · intro hall
    rw [hall]

lemma viewArc_eq_of_admittedImports (h : graph.admittedImports view = graph.admittedImports .all)
    (hw : wider.isStrictSupersetOf view = true) : graph.ViewArc wider = graph.ViewArc view := by
  rw [admittedImports_eq_all_iff] at h
  funext u v
  rw [eq_iff_iff]
  constructor
  · rintro ⟨rel, hrel, hadmitted⟩
    obtain ⟨c, hc⟩ := List.exists_mem_of_ne_nil _ hadmitted
    have hmem := (List.mem_filter.mp hc).1
    have hview := h ((u, v), rel) (Std.ExtTreeMap.mem_toList_iff_getElem?_eq_some.mpr hrel) c hmem
    exact ⟨rel, hrel, List.ne_nil_of_mem (List.mem_filter.mpr ⟨hmem, hview⟩)⟩
  · exact viewArc_widen hw u v

end Counts

structure ListsExcluded (graph : DirectoryModuleGraph) (view : ImportView) (out : List ExcludedCycle) : Prop where
  sorted : out.Pairwise fun a b => (compare a.members b.members).isLE
  once : (out.map ExcludedCycle.memberSet).Nodup
  listed : ∀ s, s ∈ out.map ExcludedCycle.memberSet ↔
    (∃ w, w.isStrictSupersetOf view = true ∧ graph.IsCycle w s) ∧ ¬ graph.IsCycle view s
  names : ∀ e ∈ out, (e.members, e.memberIds) = graph.sortedQualified e.memberSet
  flags : ∀ e ∈ out, ∃ before w after, view.widerViews = before ++ w :: after ∧ graph.IsCycle w e.memberSet ∧
    (∀ w' ∈ before, ¬ graph.IsCycle w' e.memberSet) ∧ e.flags = w.flagNames
  shown : ∀ e ∈ out, ∀ names, names ∈ e.containsShown ↔
    ∃ s, graph.IsCycle view s ∧ StrictlyInside s e.memberSet ∧ (graph.sortedQualified s).1 = names

def ListsGrown (graph : DirectoryModuleGraph) (view : ImportView) (out : List ExcludedCycle) : Prop :=
  ∀ s, graph.IsCycle view s → ∀ w, w.isStrictSupersetOf view = true →
    graph.IsCycle w s ∨
      ∃ t, (graph.IsCycle w t ∧ StrictlyInside s t) ∧
        (∀ t', graph.IsCycle w t' → StrictlyInside s t' → t' = t) ∧
        ∃ e ∈ out, e.memberSet = t ∧ (graph.sortedQualified s).1 ∈ e.containsShown

lemma ListsExcluded.grown {out : List ExcludedCycle} (h : graph.ListsExcluded view out) :
    graph.ListsGrown view out := by
  intro s hs w hw
  rcases hs.widen hw with hself | ⟨t, ⟨ht, hinside⟩, honly⟩
  · exact Or.inl hself
  · have hnot : ¬ graph.IsCycle view t := by
      obtain ⟨u, hu⟩ := hs.1.1
      intro hview
      exact hinside.2 (hs.eq_of_mem hview hu (hinside.1 u hu))
    obtain ⟨e, he, hset⟩ := List.mem_map.mp ((h.listed t).mpr ⟨⟨w, hw, ht⟩, hnot⟩)
    refine Or.inr ⟨t, ⟨ht, hinside⟩, honly, e, he, hset, ?_⟩
    rw [h.shown e he, hset]
    exact ⟨s, hs, hinside, rfl⟩

lemma ListsExcluded.nil_of_admittedImports {out : List ExcludedCycle} (h : graph.ListsExcluded view out)
    (hall : graph.admittedImports view = graph.admittedImports .all) : out = [] := by
  by_contra hne
  obtain ⟨e, he⟩ := List.exists_mem_of_ne_nil _ hne
  obtain ⟨⟨w, hw, hcycle⟩, hnot⟩ := (h.listed e.memberSet).mp (List.mem_map_of_mem he)
  rw [IsCycle, viewArc_eq_of_admittedImports hall hw] at hcycle
  exact hnot hcycle

lemma Scanned.listsExcluded {shown : List (BTreeSet String)} {scan : ExcludedScan}
    (hshown : ∀ s, s ∈ shown ↔ graph.IsCycle view s)
    (h : graph.Scanned shown view.widerViews (graph.CycleOfSome view.widerViews) scan) :
    graph.ListsExcluded view (sortBy (compareOn (·.members)) scan.out) := by
  have hperm := sortBy_perm (compareOn ExcludedCycle.members) scan.out
  have hsorted : (sortBy (compareOn ExcludedCycle.members) scan.out).Pairwise _ := pairwise_sortBy scan.out
  refine ⟨hsorted, (hperm.map _).nodup_iff.mpr h.once, ?_, ?_, ?_, ?_⟩
  · intro s
    rw [(hperm.map _).mem_iff, h.listed, h.seen, hshown, and_comm]
    simp only [CycleOfSome, mem_widerViews]
  · intro e he
    obtain ⟨_, _, _, _, _, _, hdescribes⟩ := h.first e (hperm.mem_iff.mp he)
    exact Prod.ext hdescribes.names hdescribes.ids
  · intro e he
    obtain ⟨before, w, after, hviews, hcycle, hbefore, hdescribes⟩ := h.first e (hperm.mem_iff.mp he)
    exact ⟨before, w, after, hviews, hcycle, hbefore, hdescribes.flags⟩
  · intro e he names
    obtain ⟨_, _, _, _, _, _, hdescribes⟩ := h.first e (hperm.mem_iff.mp he)
    rw [hdescribes.inside, mem_shownInside hshown]

/-- Unless the callback stops one of its searches, `excludedCycles` lists the cycles of the wider views that
are not cycles of the view, and it lists none when the view leaves no import out. -/
theorem excludedCycles_exact (graph : DirectoryModuleGraph) (view : ImportView) (cancel : ℕ → CancelCheck) :
    ((graph.excludedCycles view cancel = .mk (.ok (.error .cancelled)) ∧ ∃ i n, cancel i n = .brk) ∨
      ∃ out, graph.excludedCycles view cancel = .mk (.ok (.ok out)) ∧ graph.ListsExcluded view out ∧
        graph.ListsGrown view out ∧ (graph.excludedImportCount view = 0 → out = [])) ∧
      (graph.excludedImportCount view = 0 ↔ graph.admittedImports view = graph.admittedImports .all) := by
  refine ⟨?_, excludedImportCount_eq_zero_iff⟩
  have hresult : ∀ out, graph.ListsExcluded view out → graph.ListsExcluded view out ∧
      graph.ListsGrown view out ∧ (graph.excludedImportCount view = 0 → out = []) := fun out h =>
    ⟨h, h.grown, fun hzero => h.nil_of_admittedImports (excludedImportCount_eq_zero_iff.mp hzero)⟩
  rw [excludedCycles]
  by_cases hempty : view.widerViews.isEmpty = true
  · rw [if_pos hempty]
    rw [List.isEmpty_iff] at hempty
    refine Or.inr ⟨[], rfl, hresult [] ⟨List.Pairwise.nil, List.nodup_nil, ?_, by simp, by simp, by simp⟩⟩
    intro s
    refine iff_of_false List.not_mem_nil ?_
    rintro ⟨⟨w, hw, -⟩, -⟩
    rw [← mem_widerViews, hempty] at hw
    exact List.not_mem_nil hw
  · rw [if_neg hempty]
    rcases sccSets_spec graph view (cancel 0) with ⟨hrun, n, hn⟩ | ⟨shown, hrun, -, hshown⟩
    · refine Or.inl ⟨?_, 0, n, hn⟩
      rw [hrun]
      rfl
    · rw [hrun]
      have hstart : graph.Scanned shown [] (graph.CycleOfSome []) ⟨[], []⟩ :=
        ⟨by simp [CycleOfSome], List.nodup_nil, by simp, by simp⟩
      rcases scanViews_spec cancel (i := 1) [] view.widerViews hstart with ⟨hscan, hbrk⟩ | ⟨scan, hscan, hscanned⟩
      · refine Or.inl ⟨?_, hbrk⟩
        change (graph.scanViews shown cancel 1 view.widerViews ⟨[], []⟩ >>= _) = _
        rw [hscan]
        rfl
      · refine Or.inr ⟨sortBy (compareOn (·.members)) scan.out, ?_, hresult _ (hscanned.listsExcluded hshown)⟩
        change (graph.scanViews shown cancel 1 view.widerViews ⟨[], []⟩ >>= _) = _
        rw [hscan]
        rfl

end DirectoryModuleGraph

end RepoGraph.Storage
