import RepoGraph.GraphAlgorithms.TarjanSteps

/-! The search ends with the partition of the edge endpoints into mutual-reachability classes. -/

namespace RepoGraph.GraphAlgorithms

open Lib Lib.Digraph Tarjan

def Arc (edges : List DirectedEdge) (u v : String) : Prop := ⟨u, v⟩ ∈ edges

def endpoints (edges : List DirectedEdge) : Finset String :=
  (edges.map DirectedEdge.source ++ edges.map DirectedEdge.target).toFinset

lemma neighborsOf_insert (a : Adjacency) (u v : String) (l : List String) :
    neighborsOf (a.insert u l) v = if u = v then l else neighborsOf a v := by
  simp only [neighborsOf, getElem?_insert]
  split <;> rfl

lemma neighborsOf_pushTargets (edges : List DirectedEdge) (a : Adjacency) (v : String) :
    neighborsOf (edges.foldl pushTarget a) v =
      neighborsOf a v ++ (edges.filter (fun e => e.source = v)).map DirectedEdge.target := by
  induction edges generalizing a with
  | nil => simp
  | cons e edges ih =>
    rw [List.foldl_cons, ih, pushTarget, neighborsOf_insert]
    by_cases he : e.source = v
    · simp [he]
    · simp [he]

lemma neighborsOf_ensureEntries (nodes : List String) (a : Adjacency) (v : String) :
    neighborsOf (nodes.foldl ensureEntry a) v = neighborsOf a v := by
  induction nodes generalizing a with
  | nil => rfl
  | cons n nodes ih =>
    rw [List.foldl_cons, ih, ensureEntry, neighborsOf_insert]
    split
    · next h => rw [h]
    · rfl

lemma mem_collectNodes (edges : List DirectedEdge) (v : String) :
    v ∈ collectNodes edges ↔ v ∈ endpoints edges := by
  have hfold : ∀ (es : List DirectedEdge) (s : HashSet String),
      v ∈ es.foldl (fun nodes e => (nodes.insert e.source).insert e.target) s ↔
        v ∈ s ∨ ∃ e ∈ es, e.source = v ∨ e.target = v := by
    intro es
    induction es with
    | nil => simp
    | cons e es ih =>
      intro s
      rw [List.foldl_cons, ih]
      simp only [Std.ExtTreeSet.mem_insert, Std.compare_eq_iff_eq, List.mem_cons, exists_eq_or_imp]
      grind
  rw [collectNodes, hfold]
  simp only [endpoints, List.mem_toFinset, List.mem_append, List.mem_map, Std.ExtTreeSet.not_mem_empty,
    false_or]
  constructor
  · rintro ⟨e, he, h | h⟩
    · exact Or.inl ⟨e, he, h⟩
    · exact Or.inr ⟨e, he, h⟩
  · rintro (⟨e, he, h⟩ | ⟨e, he, h⟩)
    · exact ⟨e, he, Or.inl h⟩
    · exact ⟨e, he, Or.inr h⟩

def searchAdjacency (edges : List DirectedEdge) : Adjacency :=
  (collectNodes edges).toList.foldl ensureEntry (buildAdjacency edges)

lemma neighborsOf_search (edges : List DirectedEdge) (v : String) :
    neighborsOf (searchAdjacency edges) v =
      (edges.filter (fun e => e.source = v)).map DirectedEdge.target := by
  rw [searchAdjacency, neighborsOf_ensureEntries, buildAdjacency, neighborsOf_pushTargets]
  simp [neighborsOf]

lemma edge_search (edges : List DirectedEdge) : Edge (neighborsOf (searchAdjacency edges)) = Arc edges := by
  funext u v
  rw [Edge, neighborsOf_search, Arc, eq_iff_iff]
  constructor
  · intro h
    obtain ⟨e, he, rfl⟩ := List.mem_map.mp h
    obtain ⟨he, hs⟩ := List.mem_filter.mp he
    have hs : e.source = u := by simpa using hs
    exact hs ▸ he
  · intro h
    exact List.mem_map.mpr ⟨⟨u, v⟩, List.mem_filter.mpr ⟨h, by simp⟩, rfl⟩

lemma sum_indicator (nodes : List String) (a : String) :
    (nodes.map (fun v => if a = v then 1 else 0)).sum = nodes.count a := by
  induction nodes with
  | nil => rfl
  | cons b nodes ih =>
    rw [List.map_cons, List.sum_cons, List.count_cons, ih]
    by_cases ha : a = b
    · simp [ha, Nat.add_comm]
    · have hb : ¬ b = a := fun h => ha h.symm
      simp [ha, hb]

lemma degree_sum_le (edges : List DirectedEdge) {nodes : List String} (hn : nodes.Nodup) :
    (nodes.map (fun v => (neighborsOf (searchAdjacency edges) v).length)).sum ≤ edges.length := by
  simp only [neighborsOf_search, List.length_map]
  induction edges with
  | nil => simp
  | cons e edges ih =>
    have hsplit : ∀ v, ((e :: edges).filter (fun x => x.source = v)).length =
        (edges.filter (fun x => x.source = v)).length + if e.source = v then 1 else 0 := by
      intro v
      by_cases he : e.source = v <;> simp [he]
    have hcount : (nodes.map (fun v => if e.source = v then 1 else 0)).sum ≤ 1 := by
      rw [sum_indicator]
      exact List.nodup_iff_count_le_one.mp hn _
    simp only [hsplit, List.sum_map_add, List.length_cons]
    omega

lemma Tarjan.Sound.counters {adj : String → List String} {node : String → Prop} {st : TarjanState}
    (h : Sound adj node st) (a b : ℕ) :
    Sound adj node { st with stepsSinceCheck := a, consulted := b } :=
  ⟨h.onStack, h.visited, h.lowlinked, h.bound, h.sorted, h.disjoint, h.nodup, h.closed, h.component, h.node⟩

lemma Tarjan.Control.counters {adj : String → List String} {node : String → Prop} {st : TarjanState}
    {fs : List Frame} (h : Control adj node st fs) (a b : ℕ) :
    Control adj node { st with stepsSinceCheck := a, consulted := b } fs := by
  cases h with
  | idle hstack => exact .idle hstack
  | entering hnew hn hw => exact .entering hnew hn hw
  | neighbors hstack hseg hw => exact .neighbors hstack hseg hw
  | finishing hstack hseg hw hk => exact .finishing hstack hseg hw hk

lemma checkpoint_counters (interval : ℕ) (cancel : CancelCheck) (st : TarjanState) :
    ∃ a b, (checkpoint interval cancel st).2 = { st with stepsSinceCheck := a, consulted := b } := by
  rw [checkpoint]
  split
  · exact ⟨_, _, rfl⟩
  · exact ⟨_, _, rfl⟩

lemma checkpoint_never (interval : ℕ) (st : TarjanState) :
    (checkpoint interval (fun _ => .cont) st).1 = .cont := by
  rw [checkpoint]
  split <;> rfl

section Visits

variable {adjacency : Adjacency} {node : String → Prop} {nodes : List String}

structure Visiting (adjacency : Adjacency) (node : String → Prop) (start : String) (st₀ : TarjanState)
    (s : TarjanState × List Frame) : Prop where
  sound : Sound (neighborsOf adjacency) node s.1
  control : Control (neighborsOf adjacency) node s.1 s.2
  kept : ∀ v ∈ st₀.indices, v ∈ s.1.indices
  begun : s.2 = [⟨start, 0, .entering⟩] ∨ start ∈ s.1.indices

structure Between (adjacency : Adjacency) (node : String → Prop) (st : TarjanState) : Prop where
  sound : Sound (neighborsOf adjacency) node st
  stack : st.stack = []

lemma visitStep_round (hadj : ∀ u, node u → ∀ v ∈ neighborsOf adjacency u, node v)
    (hnodes : ∀ v, node v → v ∈ nodes) (interval : ℕ) (start : String) (st₀ : TarjanState)
    (s : TarjanState × List Frame) (h : Visiting adjacency node start st₀ s) :
    Round (Visiting adjacency node start st₀) (work (neighborsOf adjacency) nodes)
      (fun r => r.1 = .cont ∧ Between adjacency node r.2 ∧ (∀ v ∈ st₀.indices, v ∈ r.2.indices) ∧
        start ∈ r.2.indices)
      s (visitStep interval adjacency (fun _ => .cont) s) := by
  obtain ⟨st, fs⟩ := s
  obtain ⟨hs, hc, hkept, hbegun⟩ := h
  cases fs with
  | nil =>
    cases hc with
    | idle hstack => exact Or.inr ⟨_, rfl, rfl, ⟨hs, hstack⟩, hkept, hbegun.resolve_left (by simp)⟩
  | cons f fs =>
    obtain ⟨a, b, hcp⟩ := checkpoint_counters interval (fun _ => .cont) st
    have hcp' : checkpoint interval (fun _ => .cont) st =
        (.cont, { st with stepsSinceCheck := a, consulted := b }) :=
      Prod.ext (checkpoint_never interval st) hcp
    obtain ⟨st', fs', hstep, hs', hc', hwork, hmono⟩ :=
      stepFrame_spec hadj hnodes (hs.counters a b) (hc.counters a b)
    refine Or.inl ⟨(st', fs'), ?_, ⟨hs', hc', fun v hv => hmono v (hkept v hv), Or.inr ?_⟩, hwork⟩
    · simp [visitStep, hcp', hstep]
    · rcases hbegun with hbegun | hbegun
      · -- The first iteration enters the start node.
        obtain ⟨rfl, rfl⟩ := List.cons.inj hbegun
        have he : enterNode { st with stepsSinceCheck := a, consulted := b } ⟨start, 0, .entering⟩ [] =
            (st', fs') := Except.ok.inj hstep
        rw [enterNode] at he
        split at he
        · next hv => rw [← (Prod.mk.inj he).1]; exact hv
        · rw [← (Prod.mk.inj he).1]; simp
      · exact hmono start hbegun

lemma tarjanVisit_spec (hadj : ∀ u, node u → ∀ v ∈ neighborsOf adjacency u, node v)
    (hnodes : ∀ v, node v → v ∈ nodes) {fuel : ℕ} (interval : ℕ) {start : String} {st : TarjanState}
    (hfuel : ((nodes.map (fun v => 2 * (neighborsOf adjacency v).length + 3)).sum + 1) < fuel)
    (hs : Between adjacency node st) (hstart : node start) (hnew : start ∉ st.indices) :
    ∃ st', tarjanVisit fuel interval adjacency (fun _ => .cont) start st = .ok (.cont, st') ∧
      Between adjacency node st' ∧ (∀ v ∈ st.indices, v ∈ st'.indices) ∧ start ∈ st'.indices := by
  have hvisit : Visiting adjacency node start st (st, [⟨start, 0, .entering⟩]) := by
    refine ⟨hs.sound, .entering hnew hstart ?_, fun _ h => h, Or.inl rfl⟩
    rw [hs.stack]
    exact .nil
  have hwork : work (neighborsOf adjacency) nodes (st, [⟨start, 0, .entering⟩]) < fuel := by
    refine lt_of_le_of_lt ?_ hfuel
    have hle : unvisitedWork (neighborsOf adjacency) nodes st ≤
        (nodes.map (fun v => 2 * (neighborsOf adjacency v).length + 3)).sum :=
      List.Sublist.sum_le_sum (List.Sublist.map _ List.filter_sublist) (by simp)
    simpa [work, frameWork] using hle
  obtain ⟨⟨flow, st'⟩, hloop, hflow, hpost⟩ := loop_terminates _
    (visitStep_round hadj hnodes interval start st) hvisit hwork
  dsimp only at hflow
  subst hflow
  exact ⟨st', hloop, hpost⟩

lemma visitAll_spec (hadj : ∀ u, node u → ∀ v ∈ neighborsOf adjacency u, node v)
    (hnodes : ∀ v, node v → v ∈ nodes) {fuel : ℕ} (interval : ℕ)
    (hfuel : ((nodes.map (fun v => 2 * (neighborsOf adjacency v).length + 3)).sum + 1) < fuel)
    (starts : List String) (hstarts : ∀ v ∈ starts, node v) (st : TarjanState)
    (hs : Between adjacency node st) :
    ∃ st', visitAll fuel interval adjacency (fun _ => .cont) starts st = .ok (.cont, st') ∧
      Between adjacency node st' ∧ (∀ v ∈ st.indices, v ∈ st'.indices) ∧ ∀ v ∈ starts, v ∈ st'.indices := by
  induction starts generalizing st with
  | nil => exact ⟨st, rfl, hs, fun _ h => h, by simp⟩
  | cons start starts ih =>
    have hrest : ∀ v ∈ starts, node v := fun v hv => hstarts v (by simp [hv])
    rw [visitAll]
    by_cases hv : start ∈ st.indices
    · obtain ⟨st', he, hs', hmono, hall⟩ := ih hrest st hs
      rw [if_pos hv]
      exact ⟨st', he, hs', hmono, List.forall_mem_cons.mpr ⟨hmono start hv, hall⟩⟩
    · obtain ⟨st₁, he₁, hs₁, hmono₁, hstart₁⟩ :=
        tarjanVisit_spec hadj hnodes interval hfuel hs (hstarts start (by simp)) hv
      obtain ⟨st', he, hs', hmono, hall⟩ := ih hrest st₁ hs₁
      rw [if_neg hv, he₁, ok_bind]
      exact ⟨st', he, hs', fun v hv => hmono v (hmono₁ v hv),
        List.forall_mem_cons.mpr ⟨hmono start hstart₁, hall⟩⟩

end Visits

lemma initial_between (adjacency : Adjacency) (node : String → Prop) :
    Between adjacency node TarjanState.initial := by
  refine ⟨⟨?_, ?_, ?_, ?_, ?_, ?_, ?_, ?_, ?_, ?_⟩, rfl⟩
  all_goals simp [TarjanState.initial, doneOf, Closed]

lemma mem_endpoints_of_arc {edges : List DirectedEdge} {u v : String} (h : Arc edges u v) :
    u ∈ endpoints edges ∧ v ∈ endpoints edges := by
  simp only [endpoints, List.mem_toFinset, List.mem_append, List.mem_map]
  exact ⟨Or.inl ⟨_, h, rfl⟩, Or.inr ⟨_, h, rfl⟩⟩

lemma collectNodes_size (edges : List DirectedEdge) :
    (collectNodes edges).size = (endpoints edges).card := by
  rw [← toFinset_toList_card]
  congr 1
  ext v
  rw [List.mem_toFinset, Std.ExtTreeSet.mem_toList, mem_collectNodes]

theorem findSccsEvery_partition (interval : ℕ) (edges : List DirectedEdge) :
    ∃ r, findSccsEvery interval edges (fun _ => .cont) = .ok (.ok r) ∧
      IsPartition (Arc edges) (· ∈ endpoints edges) (r.allSccs.map Scc.members) ∧
      r.cycles = r.allSccs.filter Scc.isCycle ∧ r.nodeCount = (endpoints edges).card ∧
      r.edgeCount = edges.length := by
  let nodes := (collectNodes edges).toList
  have hmem : ∀ v, v ∈ nodes ↔ v ∈ endpoints edges := by
    intro v
    rw [Std.ExtTreeSet.mem_toList, mem_collectNodes]
  have hadj : ∀ u, u ∈ endpoints edges → ∀ v ∈ neighborsOf (searchAdjacency edges) u,
      v ∈ endpoints edges := by
    intro u _ v hv
    have harc : Edge (neighborsOf (searchAdjacency edges)) u v := hv
    rw [edge_search] at harc
    exact (mem_endpoints_of_arc harc).2
  have hfuel : (nodes.map (fun v => 2 * (neighborsOf (searchAdjacency edges) v).length + 3)).sum + 1 <
      visitFuel (collectNodes edges).size edges.length := by
    have hdeg : (nodes.map (fun v => (neighborsOf (searchAdjacency edges) v).length)).sum ≤ edges.length :=
      degree_sum_le edges (nodup_toList (collectNodes edges))
    have hlen : nodes.length = (collectNodes edges).size := Std.ExtTreeSet.length_toList
    have hsum : (nodes.map (fun v => 2 * (neighborsOf (searchAdjacency edges) v).length + 3)).sum =
        2 * (nodes.map (fun v => (neighborsOf (searchAdjacency edges) v).length)).sum +
          3 * nodes.length := by
      rw [List.sum_map_add, List.sum_map_mul_left, List.map_const', List.sum_replicate, smul_eq_mul,
        Nat.mul_comm 3]
    rw [hsum, visitFuel, ← hlen]
    omega
  obtain ⟨st, he, hs, -, hall⟩ := visitAll_spec hadj (fun v hv => (hmem v).mpr hv) interval
    hfuel nodes (fun v hv => (hmem v).mp hv) .initial (initial_between _ _)
  refine ⟨⟨st.result, st.result.filter Scc.isCycle, (collectNodes edges).size, edges.length⟩, ?_, ?_, rfl,
    collectNodes_size edges, rfl⟩
  · change (visitAll _ _ (searchAdjacency edges) _ nodes _ >>= _) = _
    rw [he, ok_bind]
  · have hdone : (st.result.map Scc.members).flatten = doneOf st := by rw [doneOf, List.flatMap_def]
    have hvisited : ∀ v, v ∈ st.indices ↔ v ∈ doneOf st := by
      intro v
      rw [hs.sound.visited, hs.stack]
      simp
    refine ⟨hdone ▸ hs.sound.nodup, ?_, ?_⟩
    · intro v
      rw [hdone, ← hvisited]
      exact ⟨hs.sound.node v, fun hv => hall v ((hmem v).mpr hv)⟩
    · intro c hc
      obtain ⟨scc, hscc, rfl⟩ := List.mem_map.mp hc
      exact edge_search edges ▸ hs.sound.component scc hscc

theorem findSccs_eq (edges : List DirectedEdge) {r : SccResult}
    (h : findSccsEvery cancelCheckInterval edges (fun _ => .cont) = .ok (.ok r)) :
    findSccs edges = .ok r := by
  simp [findSccs, findSccsCancellable, h]

/-- `findSccs` returns on every edge list, and its components are the mutual-reachability classes of
the endpoints: no lookup and no pop it makes can fail. -/
theorem findSccs_mutual_reachability_classes (edges : List DirectedEdge) :
    ∃ r, findSccs edges = .ok r ∧
      (∀ c ∈ r.allSccs, c.members ≠ [] ∧ ∀ v ∈ c.members, v ∈ endpoints edges) ∧
      (∀ v ∈ endpoints edges, (r.allSccs.flatMap Scc.members).count v = 1) ∧
      (∀ u ∈ endpoints edges, ∀ v ∈ endpoints edges,
        (∃ c ∈ r.allSccs, u ∈ c.members ∧ v ∈ c.members) ↔
          Reach (Arc edges) u v ∧ Reach (Arc edges) v u) ∧
      r.cycles = r.allSccs.filter (fun c => c.size > 1) ∧
      r.nodeCount = (endpoints edges).card ∧ r.edgeCount = edges.length := by
  obtain ⟨r, he, hpart, hcycles, hnodes, hedges⟩ := findSccsEvery_partition cancelCheckInterval edges
  refine ⟨r, findSccs_eq edges he, ?_, ?_, ?_, hcycles, hnodes, hedges⟩
  · intro c hc
    have hc' : c.members ∈ r.allSccs.map Scc.members := List.mem_map_of_mem hc
    refine ⟨(hpart.component _ hc').nonempty, ?_⟩
    intro v hv
    exact (hpart.mem_iff v).mp (List.mem_flatten_of_mem hc' hv)
  · intro v hv
    rw [List.flatMap_def]
    exact hpart.count_eq_one hv
  · intro u hu v _
    have hshare := hpart.share_iff (v := v) hu
    simpa [Mutual] using hshare

example : (findSccs [⟨"A", "B"⟩, ⟨"B", "C"⟩, ⟨"C", "A"⟩, ⟨"C", "D"⟩]).map SccResult.cycles =
    .ok [⟨["A", "B", "C"]⟩] := by decide

end RepoGraph.GraphAlgorithms
