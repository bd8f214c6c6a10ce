import RepoGraph.Storage.ShortestRoutes

/-! What the search for the shortest path answers, told by the walks over the stored calls and imports. -/

namespace RepoGraph.Storage

open Lib Layers

section Tables

variable (t : CallTables) (snapshotUid : String)

def SnapshotKeysUnique : Prop := ((t.nodes.filter (·.snapshotUid = snapshotUid)).map (·.stableKey)).Nodup

def EndpointsStored : Prop :=
  ∀ e ∈ t.edges.rows, e.snapshotUid = snapshotUid →
    ∀ uid ∈ [e.sourceNodeUid, e.targetNodeUid], ∃ n ∈ t.nodes, n.snapshotUid = snapshotUid ∧ n.nodeUid = uid

def ResolutionsReadable : Prop :=
  ∀ e ∈ t.edges.rows, e.snapshotUid = snapshotUid → e.edgeType ∈ ["CALLS", "IMPORTS"] →
    e.resolution ∈ ["static", "dynamic", "inferred"]

def StoredHop (admitInferred : Bool) (e : LocatedEdge) : Prop :=
  e ∈ t.edges.rows ∧ isHop snapshotUid (admittedResolutions admitInferred) e

def StoredWalk (admitInferred : Bool) (fromUid : String) (es : List LocatedEdge) (toUid : String) : Prop :=
  (edgeNet (StoredHop t snapshotUid admitInferred)).Route fromUid es toUid

def inferredEdges (es : List LocatedEdge) : ℕ := es.countP (·.resolution = "inferred")

def walkKeys (fromUid : String) (es : List LocatedEdge) : List String :=
  t.keyOf fromUid :: es.map fun e => t.keyOf e.targetNodeUid

def walkSteps (fromUid : String) (es : List LocatedEdge) : List (Option PathStep) :=
  t.pathStep fromUid "" :: es.map fun e => t.pathStep e.targetNodeUid e.edgeType

structure ShortestAnswer (fromUid toUid : String) (bound : ℤ) (admitInferred : Bool)
    (r : ShortestPathSearch) : Prop where
  found_iff : r.path.found ↔ ∃ es, StoredWalk t snapshotUid admitInferred fromUid es toUid ∧
    (es.length : ℤ) ≤ bound
  chosen : r.path.found → ∃ es, StoredWalk t snapshotUid admitInferred fromUid es toUid ∧
    r.path.pathLength = es.length ∧
    (∀ es', StoredWalk t snapshotUid admitInferred fromUid es' toUid → es.length ≤ es'.length) ∧
    r.path.path.map some = walkSteps t fromUid es ∧
    r.inferredEdgesOnRoute = inferredEdges es ∧
    ∀ es', StoredWalk t snapshotUid admitInferred fromUid es' toUid → es'.length = es.length →
      inferredEdges es < inferredEdges es' ∨
        inferredEdges es = inferredEdges es' ∧ walkKeys t fromUid es ≤ walkKeys t fromUid es'

end Tables

section Keys

variable {t : CallTables} {snapshotUid : String} {n n' : LocatedNode}

lemma find_node (hn : n ∈ t.nodes) : t.nodes.find? (·.nodeUid = n.nodeUid) = some n := by
  cases hfind : t.nodes.find? (·.nodeUid = n.nodeUid) with
  | none => simpa using List.find?_eq_none.mp hfind n hn
  | some n' =>
    have huid : n'.nodeUid = n.nodeUid := by simpa using List.find?_some hfind
    rw [List.inj_on_of_nodup_map t.nodeKeys (List.mem_of_find?_eq_some hfind) hn huid]

lemma keyOf_node (hn : n ∈ t.nodes) : t.keyOf n.nodeUid = n.stableKey := by
  rw [CallTables.keyOf, find_node hn]
  rfl

variable (hkeys : SnapshotKeysUnique t snapshotUid)
include hkeys

lemma node_eq_of_stableKey (hn : n ∈ t.nodes) (hn' : n' ∈ t.nodes) (hsnapshot : n.snapshotUid = snapshotUid)
    (hsnapshot' : n'.snapshotUid = snapshotUid) (hkey : n.stableKey = n'.stableKey) : n = n' := by
  refine List.inj_on_of_nodup_map hkeys ?_ ?_ hkey
  · exact List.mem_filter.mpr ⟨hn, decide_eq_true hsnapshot⟩
  · exact List.mem_filter.mpr ⟨hn', decide_eq_true hsnapshot'⟩

lemma uidOf_node (hn : n ∈ t.nodes) (hsnapshot : n.snapshotUid = snapshotUid) :
    t.uidOf snapshotUid n.stableKey = some n.nodeUid := by
  rw [CallTables.uidOf]
  cases hfind : t.nodes.find? fun n' => n'.snapshotUid = snapshotUid ∧ n'.stableKey = n.stableKey with
  | none => simpa [hsnapshot] using List.find?_eq_none.mp hfind n hn
  | some n' =>
    obtain ⟨hsnapshot', hkey⟩ : n'.snapshotUid = snapshotUid ∧ n'.stableKey = n.stableKey := by
      simpa using List.find?_some hfind
    rw [node_eq_of_stableKey hkeys (List.mem_of_find?_eq_some hfind) hn hsnapshot' hsnapshot hkey]
    rfl

lemma endpoint_eq_of_key (hstored : EndpointsStored t snapshotUid) {admitInferred : Bool} {e e' : LocatedEdge}
    (he : StoredHop t snapshotUid admitInferred e) (he' : StoredHop t snapshotUid admitInferred e')
    {uid uid' : String}
    (huid : uid ∈ [e.sourceNodeUid, e.targetNodeUid]) (huid' : uid' ∈ [e'.sourceNodeUid, e'.targetNodeUid])
    (hkey : t.keyOf uid = t.keyOf uid') : uid = uid' := by
  have hsnapshot : ∀ e, StoredHop t snapshotUid admitInferred e → e.snapshotUid = snapshotUid := by
    intro e he
    have hop := he.2
    simp only [isHop, Bool.and_eq_true, decide_eq_true_eq] at hop
    exact hop.1.1
  obtain ⟨n, hn, hsnap, rfl⟩ := hstored e he.1 (hsnapshot e he) uid huid
  obtain ⟨n', hn', hsnap', rfl⟩ := hstored e' he'.1 (hsnapshot e' he') uid' huid'
  rw [keyOf_node hn, keyOf_node hn'] at hkey
  rw [node_eq_of_stableKey hkeys hn hn' hsnap hsnap' hkey]

end Keys

section Search

variable {t : CallTables} {snapshotUid fromUid toUid : String} {admitInferred : Bool} {maxDepth : ℤ}

lemma readsHops_of_reads {scan : Scan} (hscan : scan.Reads t) :
    ReadsHops (StoredHop t snapshotUid admitInferred) (scan snapshotUid (admittedResolutions admitInferred)) := by
  intro chunk e
  rw [(hscan snapshotUid (admittedResolutions admitInferred) chunk).mem_iff, List.mem_filter, Bool.and_eq_true,
    decide_eq_true_eq, ← and_assoc]
  rfl

lemma rejectUnreadableCallResolutions_ok (op : String) :
    t.rejectUnreadableCallResolutions snapshotUid op = .ok () ↔ ∀ e ∈ t.edges.rows, e.snapshotUid = snapshotUid →
      e.edgeType = "CALLS" → e.resolution ∈ ["static", "dynamic", "inferred"] := by
  have hnil : t.unreadableCalls snapshotUid = [] ↔ ∀ e ∈ t.edges.rows, e.snapshotUid = snapshotUid →
      e.edgeType = "CALLS" → e.resolution ∈ ["static", "dynamic", "inferred"] := by
    simp only [CallTables.unreadableCalls, LocatedEdge.isCall, List.filter_eq_nil_iff, Bool.and_eq_true,
      decide_eq_true_eq, not_and, not_not, and_imp]
  rw [← hnil, CallTables.rejectUnreadableCallResolutions]
  cases t.unreadableCalls snapshotUid <;> simp

lemma rejectUnreadableImportResolutions_ok (reader : String) :
    t.rejectUnreadableImportResolutions snapshotUid reader = .ok () ↔ ∀ e ∈ t.edges.rows,
      e.snapshotUid = snapshotUid → e.edgeType = "IMPORTS" → e.resolution ∈ ["static", "dynamic", "inferred"] := by
  have hnil : t.unreadableImports snapshotUid = [] ↔ ∀ e ∈ t.edges.rows, e.snapshotUid = snapshotUid →
      e.edgeType = "IMPORTS" → e.resolution ∈ ["static", "dynamic", "inferred"] := by
    rw [CallTables.unreadableImports, readableImportResolutions]
    simp only [List.filter_eq_nil_iff, Bool.and_eq_true, decide_eq_true_eq, not_and, not_not, and_imp]
  rw [← hnil, CallTables.rejectUnreadableImportResolutions]
  cases t.unreadableImports snapshotUid <;> simp

lemma resolutionsReadable_iff (op : String) : ResolutionsReadable t snapshotUid ↔
    t.rejectUnreadableCallResolutions snapshotUid op = .ok () ∧
      t.rejectUnreadableImportResolutions snapshotUid op = .ok () := by
  rw [rejectUnreadableCallResolutions_ok, rejectUnreadableImportResolutions_ok, ResolutionsReadable]
  simp only [List.mem_pair]
  exact ⟨fun h => ⟨fun e he hs ht => h e he hs (.inl ht), fun e he hs ht => h e he hs (.inr ht)⟩,
    fun h e he hs ht => ht.elim (h.1 e he hs) (h.2 e he hs)⟩

lemma findShortestPathBy_refused (h : ¬ ResolutionsReadable t snapshotUid) (scan : Scan) (chunkSize : ℕ)
    (fromKey toKey : String) :
    ∃ e, t.findShortestPathBy scan chunkSize snapshotUid fromKey toKey maxDepth admitInferred = .error e := by
  rw [resolutionsReadable_iff "find_shortest_path"] at h
  rw [CallTables.findShortestPathBy]
  cases hcalls : t.rejectUnreadableCallResolutions snapshotUid "find_shortest_path" with
  | error refusal => exact ⟨.calls refusal, rfl⟩
  | ok u =>
    cases himports : t.rejectUnreadableImportResolutions snapshotUid "find_shortest_path" with
    | error refusal => exact ⟨refusal, rfl⟩
    | ok u' => exact absurd ⟨hcalls, himports⟩ h

lemma findShortestPathBy_eq (hkeys : SnapshotKeysUnique t snapshotUid)
    (hreadable : ResolutionsReadable t snapshotUid)
    {source target : LocatedNode} (hsource : source ∈ t.nodes ∧ source.snapshotUid = snapshotUid)
    (htarget : target ∈ t.nodes ∧ target.snapshotUid = snapshotUid) (scan : Scan) (chunkSize : ℕ) :
    t.findShortestPathBy scan chunkSize snapshotUid source.stableKey target.stableKey maxDepth admitInferred =
      .ok (t.findPathBetween (scan snapshotUid (admittedResolutions admitInferred)) chunkSize source.nodeUid
        target.nodeUid maxDepth) := by
  obtain ⟨hcalls, himports⟩ := (resolutionsReadable_iff "find_shortest_path").mp hreadable
  rw [CallTables.findShortestPathBy, hcalls, himports, uidOf_node hkeys hsource.1 hsource.2,
    uidOf_node hkeys htarget.1 htarget.2]
  rfl

lemma total_eq_inferredEdges (es : List LocatedEdge) : (routeRanking t.keyOf).total es = inferredEdges es := by
  induction es with
  | nil => rfl
  | cons e es ih =>
    have hcons : (routeRanking t.keyOf).total (e :: es) =
        (decide (e.resolution = "inferred")).toNat + (routeRanking t.keyOf).total es := rfl
    rw [hcons, ih, inferredEdges, inferredEdges, List.countP_cons, add_comm]
    cases decide (e.resolution = "inferred") <;> rfl

lemma map_some_filterMap {α β : Type} {f : α → Option β} {l : List α} (h : ∀ a ∈ l, (f a).isSome) :
    (l.filterMap f).map some = l.map f := by
  induction l with
  | nil => rfl
  | cons a l ih =>
    obtain ⟨ha, hl⟩ := List.forall_mem_cons.mp h
    obtain ⟨b, hb⟩ := Option.isSome_iff_exists.mp ha
    rw [List.filterMap_cons_some hb, List.map_cons, List.map_cons, ih hl, hb]

lemma steps_bestOf (hstored : EndpointsStored t snapshotUid) {es : List LocatedEdge}
    (hes : ∀ e ∈ es, StoredHop t snapshotUid admitInferred e) (hfrom : ∃ n ∈ t.nodes, n.nodeUid = fromUid)
    (length : ℕ) :
    (t.answerOf length (bestOf t.keyOf (StoredHop t snapshotUid admitInferred) fromUid es)).path.path.map some =
      walkSteps t fromUid es := by
  have hnode : ∀ uid edgeType, (∃ n ∈ t.nodes, n.nodeUid = uid) → (t.pathStep uid edgeType).isSome := by
    rintro uid edgeType ⟨n, hn, rfl⟩
    rw [CallTables.pathStep, find_node hn]
    rfl
  have hzip : (fromUid :: es.map (·.targetNodeUid)).zip ("" :: (routeRanking t.keyOf).labels es) =
      (fromUid, "") :: es.map fun e => (e.targetNodeUid, e.edgeType) := by
    rw [List.zip_cons_cons, Net.Ranking.labels, List.zip_map']
    rfl
  have hmapped := map_some_filterMap (f := fun step : String × String => t.pathStep step.1 step.2)
    (l := (fromUid, "") :: es.map fun e => (e.targetNodeUid, e.edgeType)) ?_
  · rw [CallTables.answerOf]
    simp only [bestOf, hzip, hmapped, walkSteps, List.map_cons, List.map_map, Function.comp_def]
  · intro step hstep
    rcases List.mem_cons.mp hstep with rfl | hstep
    · exact hnode _ _ hfrom
    · obtain ⟨e, he, rfl⟩ := List.mem_map.mp hstep
      obtain ⟨hrow, hop⟩ := hes e he
      have hsnapshot : e.snapshotUid = snapshotUid := by
        simp only [isHop, Bool.and_eq_true, decide_eq_true_eq] at hop
        exact hop.1.1
      obtain ⟨n, hn, -, huid⟩ := hstored e hrow hsnapshot e.targetNodeUid (by simp)
      exact hnode _ _ ⟨n, hn, huid⟩

lemma shortestAnswer_of_least {n : ℕ} {es : List LocatedEdge} (hstored : EndpointsStored t snapshotUid)
    (hfrom : ∃ n ∈ t.nodes, n.nodeUid = fromUid) (hn : n ≤ maxDepth.toNat)
    (hat : AtDepth (edgeNet (StoredHop t snapshotUid admitInferred)).Joined fromUid toUid n)
    (hleast : Net.Least (edgeNet (StoredHop t snapshotUid admitInferred))
      (routeRanking t.keyOf) fromUid n toUid es) :
    ShortestAnswer t snapshotUid fromUid toUid (max maxDepth 0) admitInferred
      (t.answerOf n (bestOf t.keyOf (StoredHop t snapshotUid admitInferred) fromUid es)) := by
  have hlength := hleast.length
  constructor
  · refine iff_of_true rfl ⟨es, hleast.route, ?_⟩
    rw [hlength, ← Int.ofNat_toNat]
    exact_mod_cast hn
  · refine fun _ => ⟨es, hleast.route, congrArg Nat.cast hlength.symm, fun es' hwalk => ?_,
      steps_bestOf hstored hleast.route.hop_of_mem hfrom n, total_eq_inferredEdges es, fun es' hwalk heq => ?_⟩
    · rw [hlength]
      by_contra hlt
      exact hat.2 es'.length (by omega) (Net.steps_iff_route.mpr ⟨es', hwalk, rfl⟩)
    · have hrank := Net.Ranking.rank_le_iff.mp (hleast.least es' hwalk (heq.trans hlength))
      rw [total_eq_inferredEdges, total_eq_inferredEdges] at hrank
      exact hrank.imp_right (And.imp_right fun h => h.elim le_of_lt fun hk => hk.1.le)

lemma shortestAnswer_notFound
    (hnone : ∀ n ≤ maxDepth.toNat,
      ¬ AtDepth (edgeNet (StoredHop t snapshotUid admitInferred)).Joined fromUid toUid n) :
    ShortestAnswer t snapshotUid fromUid toUid (max maxDepth 0) admitInferred .notFound := by
  constructor
  · refine iff_of_false (by simp [ShortestPathSearch.notFound]) ?_
    rintro ⟨es, hwalk, hle⟩
    obtain ⟨n, hn, hat⟩ := (Net.steps_iff_route.mpr ⟨es, hwalk, rfl⟩).exists_atDepth
    rw [← Int.ofNat_toNat] at hle
    exact hnone n (by omega) hat
  · intro hfound
    simp [ShortestPathSearch.notFound] at hfound

lemma findPathBetween_unique (hkeys : SnapshotKeysUnique t snapshotUid) (hstored : EndpointsStored t snapshotUid)
    {rows rows' : List String → List LocatedEdge} {chunkSize chunkSize' : ℕ}
    (hrows : ReadsHops (StoredHop t snapshotUid admitInferred) rows)
    (hrows' : ReadsHops (StoredHop t snapshotUid admitInferred) rows') (hchunk : 0 < chunkSize)
    (hchunk' : 0 < chunkSize') :
    t.findPathBetween rows chunkSize fromUid toUid maxDepth =
      t.findPathBetween rows' chunkSize' fromUid toUid maxDepth := by
  have hsources : KeysApart t.keyOf (StoredHop t snapshotUid admitInferred) := fun e e' he he' =>
    endpoint_eq_of_key hkeys hstored he he' List.mem_cons_self List.mem_cons_self
  have htargets : ∀ e e', StoredHop t snapshotUid admitInferred e → StoredHop t snapshotUid admitInferred e' →
      t.keyOf e.targetNodeUid = t.keyOf e'.targetNodeUid → e.targetNodeUid = e'.targetNodeUid := fun e e' he he' =>
    endpoint_eq_of_key hkeys hstored he he' (by simp) (by simp)
  rcases findPathBetween_spec t maxDepth hsources hrows hchunk with ⟨n, es, hn, hat, hleast, heq⟩ | ⟨hnone, heq⟩
  · rcases findPathBetween_spec t maxDepth hsources hrows' hchunk' with
      ⟨n', es', hn', hat', hleast', heq'⟩ | ⟨hnone', -⟩
    · obtain rfl := hat.unique hat'
      rw [heq, heq', bestOf_eq_of_least htargets hleast hleast']
    · exact absurd hat (hnone' n hn)
  · rcases findPathBetween_spec t maxDepth hsources hrows' hchunk' with ⟨n', -, hn', hat', -⟩ | ⟨-, heq'⟩
    · exact absurd hat' (hnone n' hn')
    · rw [heq, heq']

def tableOrder (t : CallTables) : Scan := fun snapshotUid admitted chunk =>
  t.edges.rows.filter fun e => isHop snapshotUid admitted e && e.sourceNodeUid ∈ chunk

lemma tableOrder_reads (t : CallTables) : (tableOrder t).Reads t := fun _ _ _ => .refl _

end Search

/-- The search answers by the shortest stored walk up to the greatest depth, the one with the fewest inferred
edges and then the least stable keys, whatever the order of the rows and the size of the chunks. A snapshot with
an edge of an unknown resolution is refused. -/
theorem shortest_stored_path (t : CallTables) (snapshotUid : String) (source target : LocatedNode) (maxDepth : ℤ)
    (admitInferred : Bool) (hkeys : SnapshotKeysUnique t snapshotUid) (hstored : EndpointsStored t snapshotUid)
    (hsource : source ∈ t.nodes ∧ source.snapshotUid = snapshotUid)
    (htarget : target ∈ t.nodes ∧ target.snapshotUid = snapshotUid) :
    (ResolutionsReadable t snapshotUid →
      ∃ r, ShortestAnswer t snapshotUid source.nodeUid target.nodeUid (max maxDepth 0) admitInferred r ∧
        ∀ (scan : Scan) (chunkSize : ℕ), scan.Reads t → 0 < chunkSize →
          t.findShortestPathBy scan chunkSize snapshotUid source.stableKey
            target.stableKey maxDepth admitInferred = .ok r) ∧
    (¬ ResolutionsReadable t snapshotUid → ∀ (scan : Scan) (chunkSize : ℕ),
      ∃ e, t.findShortestPathBy scan chunkSize snapshotUid source.stableKey
        target.stableKey maxDepth admitInferred = .error e) := by
  constructor
  · intro hreadable
    have horder := @readsHops_of_reads t snapshotUid admitInferred _ (tableOrder_reads t)
    refine ⟨t.findPathBetween (tableOrder t snapshotUid (admittedResolutions admitInferred)) 500 source.nodeUid
      target.nodeUid maxDepth, ?_, fun scan chunkSize hscan hchunk => ?_⟩
    · have hsources : KeysApart t.keyOf (StoredHop t snapshotUid admitInferred) := fun e e' he he' =>
        endpoint_eq_of_key hkeys hstored he he' List.mem_cons_self List.mem_cons_self
      rcases findPathBetween_spec t maxDepth hsources horder (Nat.succ_pos 499) with
        ⟨n, es, hn, hat, hleast, heq⟩ | ⟨hnone, heq⟩
      · rw [heq]
        exact shortestAnswer_of_least hstored ⟨source, hsource.1, rfl⟩ hn hat hleast
      · rw [heq]
        exact shortestAnswer_notFound hnone
    · rw [findShortestPathBy_eq hkeys hreadable hsource htarget,
        findPathBetween_unique hkeys hstored (readsHops_of_reads hscan) horder hchunk (Nat.succ_pos 499)]
  · intro hunreadable scan chunkSize
    exact findShortestPathBy_refused hunreadable scan chunkSize _ _

section Samples

def routeNode (uid stableKey : String) : LocatedNode where
  nodeUid := uid
  snapshotUid := "s1"
  kind := "SYMBOL"
  name := uid
  qualifiedName := none
  fileUid := none
  stableKey := stableKey
  subtype := none
  parentNodeUid := none
  lineStart := none
  lineEnd := none

def routeEdge (uid sourceNodeUid targetNodeUid edgeType resolution : String) : LocatedEdge where
  edgeUid := uid
  snapshotUid := "s1"
  repoUid := "r1"
  sourceNodeUid := sourceNodeUid
  targetNodeUid := targetNodeUid
  edgeType := edgeType
  resolution := resolution
  extractor := "ts"
  location := none
  metadataJson := none
  isTypeOnly := none

def diamondRoutes : CallTables where
  repos := ["r1"]
  snapshots := ∅
  files := []
  nodes := [routeNode "n1" "k:a", routeNode "n2" "k:b", routeNode "n3" "k:c", routeNode "n4" "k:d"]
  edges :=
    ⟨[routeEdge "e1" "n1" "n2" "CALLS" "static", routeEdge "e2" "n1" "n2" "CALLS" "inferred",
      routeEdge "e3" "n1" "n3" "IMPORTS" "static", routeEdge "e4" "n2" "n4" "CALLS" "inferred",
      routeEdge "e5" "n3" "n4" "CALLS" "dynamic"], by decide⟩
  symbolCallDegrees := ∅
  resolvedCallFilePairs := ∅
  declarations := []
  inferences := []
  nodeKeys := by decide

lemma diamondRoutes_wellFormed : SnapshotKeysUnique diamondRoutes "s1" ∧ EndpointsStored diamondRoutes "s1" ∧
    ResolutionsReadable diamondRoutes "s1" := by
  unfold SnapshotKeysUnique EndpointsStored ResolutionsReadable
  decide +kernel

theorem shortest_stored_path_diamond :
    ∃ r, ShortestAnswer diamondRoutes "s1" "n1" "n4" (max 8 0) true r ∧
      ∀ (scan : Scan) (chunkSize : ℕ), scan.Reads diamondRoutes → 0 < chunkSize →
        diamondRoutes.findShortestPathBy scan chunkSize "s1" "k:a" "k:d" 8 true = .ok r :=
  (shortest_stored_path diamondRoutes "s1" (routeNode "n1" "k:a") (routeNode "n4" "k:d") 8 true
    diamondRoutes_wellFormed.1 diamondRoutes_wellFormed.2.1 ⟨by decide, rfl⟩ ⟨by decide, rfl⟩).1
      diamondRoutes_wellFormed.2.2

def oddResolution : CallTables :=
  { diamondRoutes with edges := ⟨[routeEdge "e1" "n1" "n2" "CALLS" "resolved"], by decide⟩ }

def AnsweredWithin (t : CallTables) (snapshotUid : String) (source target : LocatedNode) (maxDepth : ℤ)
    (admitInferred : Bool) : Prop :=
  ∃ r, ShortestAnswer t snapshotUid source.nodeUid target.nodeUid maxDepth admitInferred r ∧
    ∀ (scan : Scan) (chunkSize : ℕ), scan.Reads t → 0 < chunkSize →
      t.findShortestPathBy scan chunkSize snapshotUid source.stableKey target.stableKey
        maxDepth admitInferred = .ok r

/-- A node is found from itself at a negative depth, and an edge of an unknown resolution makes the search fail. -/
theorem negative_depth_found_and_odd_resolution_refused :
    (¬ ∀ (t : CallTables) (snapshotUid : String) (source target : LocatedNode)
      (maxDepth : ℤ) (admitInferred : Bool), SnapshotKeysUnique t snapshotUid → EndpointsStored t snapshotUid →
      source ∈ t.nodes ∧ source.snapshotUid = snapshotUid → target ∈ t.nodes ∧ target.snapshotUid = snapshotUid →
      ResolutionsReadable t snapshotUid → AnsweredWithin t snapshotUid source target maxDepth admitInferred) ∧
    ¬ ∀ (t : CallTables) (snapshotUid : String) (source target : LocatedNode)
      (maxDepth : ℤ) (admitInferred : Bool), SnapshotKeysUnique t snapshotUid → EndpointsStored t snapshotUid →
      source ∈ t.nodes ∧ source.snapshotUid = snapshotUid → target ∈ t.nodes ∧ target.snapshotUid = snapshotUid →
      0 ≤ maxDepth → AnsweredWithin t snapshotUid source target maxDepth admitInferred := by
  constructor
  · intro h
    obtain ⟨r, hanswer, hfind⟩ := h diamondRoutes "s1" (routeNode "n1" "k:a") (routeNode "n1" "k:a") (-1) false
      diamondRoutes_wellFormed.1 diamondRoutes_wellFormed.2.1 ⟨by decide, rfl⟩ ⟨by decide, rfl⟩
      diamondRoutes_wellFormed.2.2
    have hfound : (diamondRoutes.findShortestPathBy (tableOrder diamondRoutes) 500 "s1" "k:a" "k:a" (-1) false).map
        (·.path.found) = .ok true := by decide +kernel
    have hresult : diamondRoutes.findShortestPathBy (tableOrder diamondRoutes) 500 "s1" "k:a" "k:a" (-1) false =
        .ok r :=
      hfind _ _ (tableOrder_reads _) (Nat.succ_pos 499)
    rw [hresult] at hfound
    obtain ⟨es, -, hlength⟩ := hanswer.found_iff.mp (Except.ok.inj hfound)
    omega
  · intro h
    have hwellFormed : SnapshotKeysUnique oddResolution "s1" ∧ EndpointsStored oddResolution "s1" ∧
        ¬ ResolutionsReadable oddResolution "s1" := by
      unfold SnapshotKeysUnique EndpointsStored ResolutionsReadable
      decide +kernel
    obtain ⟨r, -, hfind⟩ := h oddResolution "s1" (routeNode "n1" "k:a") (routeNode "n2" "k:b") 8 true hwellFormed.1
      hwellFormed.2.1 ⟨by decide, rfl⟩ ⟨by decide, rfl⟩ (by decide)
    obtain ⟨e, he⟩ := findShortestPathBy_refused hwellFormed.2.2 (tableOrder oddResolution) 500 "k:a" "k:b"
    have hresult := hfind _ _ (tableOrder_reads _) (Nat.succ_pos 499)
    cases hresult.symm.trans he

end Samples

end RepoGraph.Storage
