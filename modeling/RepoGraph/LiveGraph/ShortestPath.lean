import RepoGraph.Lib.Walks
import RepoGraph.LiveGraph.PathTrust

/-! The path that is found is a shortest walk over the confirmed calls: the search discovers the nodes
layer by layer, and the walk back goes up one layer at a time. -/

namespace RepoGraph.LiveGraph

open Lib Lib.Digraph Ir TrustModel GraphAlgorithms

variable {g : LiveGraph} {source target : String} {popped : List String} {st : Search}

def Search.prev (st : Search) (v : String) : Option String := st.parent[v]?.map Prod.fst

lemma foldl_visitNeighbor_fresh (n : String) (nbs : List (String × String)) (st : Search) :
    ∃ fresh, (nbs.foldl (visitNeighbor n) st).queue = st.queue ++ fresh ∧
      (∀ v ∈ fresh, v ∈ nbs.map Prod.fst ∧ v ∉ st.visited) ∧
      ∀ v, (nbs.foldl (visitNeighbor n) st).prev v = if v ∈ fresh then some n else st.prev v := by
  induction nbs generalizing st with
  | nil => exact ⟨[], by simp, by simp, by simp⟩
  | cons nb nbs ih =>
    obtain ⟨fresh, hqueue, hfresh, hprev⟩ := ih (visitNeighbor n st nb)
    rw [List.foldl_cons]
    by_cases hv : nb.1 ∈ st.visited
    · have hsame : visitNeighbor n st nb = st := if_pos hv
      rw [hsame] at hqueue hfresh hprev ⊢
      refine ⟨fresh, hqueue, ?_, hprev⟩
      intro v hvf
      exact ⟨List.mem_cons_of_mem _ (hfresh v hvf).1, (hfresh v hvf).2⟩
    · have hnew : visitNeighbor n st nb = { st with
          visited := st.visited.insert nb.1
          parent := st.parent.insert nb.1 (n, nb.2)
          queue := st.queue ++ [nb.1] } := if_neg hv
      refine ⟨nb.1 :: fresh, by rw [hqueue, hnew]; simp, ?_, ?_⟩
      · intro v hvf
        rcases List.mem_cons.mp hvf with rfl | hvf
        · exact ⟨List.mem_cons_self, hv⟩
        · refine ⟨List.mem_cons_of_mem _ (hfresh v hvf).1, fun hold => (hfresh v hvf).2 ?_⟩
          exact visited_visitNeighbor.mpr (Or.inr hold)
      · intro v
        rw [hprev, hnew]
        simp only [Search.prev, getElem?_insert, List.mem_cons]
        by_cases he : v = nb.1
        · simp [he]
        · simp [he, Ne.symm he]

structure LayeredSearch (g : LiveGraph) (source target : String) (st : Search) (popped : List String)
    (depth : String → ℕ) : Prop where
  explored : Explored g source target popped st
  layered : Layered g.Calls source popped st.queue st.prev depth

lemma layeredSearch_start (hsource : source ∈ g.callGraph.known) :
    LayeredSearch g source target (.start source) [] fun _ => 0 :=
  ⟨explored_start hsource, .init g.Calls source _⟩

lemma LayeredSearch.expand {depth : String → ℕ} {n : String} {queue : List String}
    (h : LayeredSearch g source target st popped depth) (hq : st.queue = n :: queue)
    (hn : n ≠ target) {st' : Search}
    (hqueue : st'.queue = queue) (hvisited : st'.visited = st.visited) (hparent : st'.parent = st.parent)
    (hdegraded : st'.degraded = st.degraded) :
    ∃ depth', LayeredSearch g source target (g.expand n st') (popped ++ [n]) depth' := by
  have hnext := h.explored.expand hq hn hqueue hvisited hparent hdegraded
  let marked := if g.fullyExpandable n then st' else { st' with degraded := true }
  have hmarked : marked.queue = queue ∧ marked.visited = st.visited ∧ marked.parent = st.parent := by
    simp only [marked]
    split
    · exact ⟨hqueue, hvisited, hparent⟩
    · exact ⟨hqueue, hvisited, hparent⟩
  obtain ⟨hmq, hmv, hmp⟩ := hmarked
  obtain ⟨fresh, hfqueue, hfresh, hprev⟩ := foldl_visitNeighbor_fresh n (g.callGraph.neighbors n) marked
  have hexpand : g.expand n st' = (g.callGraph.neighbors n).foldl (visitNeighbor n) marked := rfl
  have hfqueue' : (g.expand n st').queue = queue ++ fresh := by rw [hexpand, hfqueue, hmq]
  have hprev' : ∀ v, (g.expand n st').prev v = if v ∈ fresh then some n else st.prev v := by
    intro v
    rw [hexpand, hprev]
    simp only [Search.prev, hmp]
  have hlayered := h.layered
  rw [hq] at hlayered
  have horder : ∀ v, v ∈ st.visited ↔ v ∈ popped ++ n :: queue := fun v => hq ▸ h.explored.visited v
  refine ⟨fun v => if v ∈ fresh then depth n + 1 else depth v, hnext, ?_⟩
  rw [hfqueue']
  refine hlayered.expand ?_ ?_ ?_ hprev'
  · intro v hv hold
    exact (hfresh v hv).2 (hmv ▸ (horder v).mpr hold)
  · intro v hv
    obtain ⟨⟨v, pid⟩, hmem, rfl⟩ := List.mem_map.mp (hfresh v hv).1
    exact ⟨pid, mem_neighbors.mp hmem⟩
  · intro v hcall
    have hseen := (hnext.visited v).mp (hnext.closed n (by simp) v hcall)
    rw [hfqueue'] at hseen
    simp only [List.append_assoc, List.singleton_append, List.mem_append, List.mem_cons] at hseen ⊢
    tauto

def SearchLayered (g : LiveGraph) (source target : String) : Except Cancelled (Bool × Search) → Prop
  | .error _ => True
  | .ok (true, st) => ∃ popped queue depth, Discovered g source (popped ++ [target]) st ∧ st.queue = queue ∧
      Layered g.Calls source popped (target :: queue) st.prev depth
  | .ok (false, st) => ∃ popped, Explored g source target popped st ∧ st.queue = []

lemma searchStep_layered (interval : ℕ) (cancel : CancelCheck)
    (h : ∃ popped depth, LayeredSearch g source target st popped depth) :
    Round (fun st => ∃ popped depth, LayeredSearch g source target st popped depth) g.unpoppedCount
      (SearchLayered g source target) st (searchStep interval cancel g target st) := by
  obtain ⟨popped, depth, h⟩ := h
  rw [searchStep]
  cases hq : st.queue with
  | nil => exact Or.inr ⟨_, rfl, popped, h.explored, hq⟩
  | cons n queue =>
    have hspec := popCheckpoint_spec interval cancel { st with queue := queue }
    rcases hcheck : popCheckpoint interval cancel { st with queue := queue } with ⟨answer, st'⟩
    rw [hcheck] at hspec
    obtain ⟨-, hqueue, hvisited, hparent, hdegraded⟩ := hspec
    cases answer with
    | brk => exact Or.inr ⟨.error .cancelled, by simp [hcheck], trivial⟩
    | cont =>
      by_cases hn : n = target
      · refine Or.inr ⟨.ok (true, st'), by simp [hcheck, hn], popped, queue, depth, ?_, hqueue, ?_⟩
        · refine h.explored.toDiscovered.congr ?_ hvisited hparent
          rw [hqueue, hq, List.append_assoc, List.singleton_append, hn]
        · have hsame : st'.parent = st.parent := hparent
          have hprev : st'.prev = st.prev := by
            funext v
            rw [Search.prev, hsame, Search.prev]
          rw [hprev, ← hn, ← hq]
          exact h.layered
      · obtain ⟨depth', hnext⟩ := h.expand hq hn hqueue hvisited hparent hdegraded
        refine Or.inl ⟨_, by simp [hcheck, hn], ⟨_, _, hnext⟩, ?_⟩
        have hold := h.explored.toDiscovered.length_le
        have hnew := hnext.explored.toDiscovered.length_le
        simp only [unpoppedCount]
        simp only [List.length_append, List.length_singleton] at hnew
        omega

lemma search_layered (interval : ℕ) (cancel : CancelCheck) (hsource : source ∈ g.callGraph.known)
    (target : String) :
    ∃ r, loop (searchStep interval cancel g target) g.pathFuel (.start source) = .ok r ∧
      SearchLayered g source target r := by
  have hstart : LayeredSearch g source target (.start source) [] _ := layeredSearch_start hsource
  refine loop_terminates g.unpoppedCount (fun st => searchStep_layered interval cancel) ⟨[], _, hstart⟩ ?_
  have h := hstart.explored.toDiscovered.length_le
  simp only [unpoppedCount, pathFuel]
  simp only [List.length_nil] at h
  omega

structure WalkedBack (g : LiveGraph) (target : String) (depth : String → ℕ) (t : Trace) : Prop where
  walk : IsWalk g.Calls t.cur target t.nodesRev.reverse
  edges : t.edgesRev.reverse = t.nodesRev.reverse.zip t.nodesRev.reverse.tail
  deepens : t.nodesRev.reverse.Pairwise (depth · < depth ·)
  length : t.nodesRev.length + depth t.cur = depth target + 1

lemma walkedBack_start (g : LiveGraph) (target : String) (depth : String → ℕ) :
    WalkedBack g target depth (.start g target) :=
  ⟨.single g.Calls target, rfl, List.pairwise_singleton _ _, by simp [Trace.start, add_comm]⟩

lemma WalkedBack.step {depth : String → ℕ} {t : Trace} (h : WalkedBack g target depth t) {prev pid : String}
    (hcall : g.Call pid prev t.cur) (hdepth : depth t.cur = depth prev + 1) :
    WalkedBack g target depth (t.step g prev pid) := by
  have hnodes : (t.step g prev pid).nodesRev.reverse = prev :: t.nodesRev.reverse := by simp [Trace.step]
  have hedges : (t.step g prev pid).edgesRev.reverse = (prev, t.cur) :: t.edgesRev.reverse := by simp [Trace.step]
  obtain ⟨rest, hrest⟩ : ∃ rest, t.nodesRev.reverse = t.cur :: rest := by
    obtain ⟨a, rest, heq⟩ := List.exists_cons_of_ne_nil h.walk.ne_nil
    have hhead := h.walk.head
    rw [heq, List.head?_cons] at hhead
    exact ⟨rest, Option.some.inj hhead ▸ heq⟩
  constructor
  · rw [hnodes]
    exact h.walk.cons ⟨pid, hcall⟩
  · rw [hnodes, hedges, h.edges, hrest]
    rfl
  · rw [hnodes]
    refine List.pairwise_cons.mpr ⟨?_, h.deepens⟩
    intro v hv
    have hdeep := h.deepens
    rw [hrest] at hv hdeep
    rcases List.mem_cons.mp hv with rfl | hv
    · omega
    · have hlt := (List.pairwise_cons.mp hdeep).1 v hv
      omega
  · have hlen := h.length
    simp only [Trace.step, List.length_append, List.length_singleton]
    omega

lemma WalkedBack.isShortestWalk {depth : String → ℕ} {t : Trace} {queue : List String}
    {prev : String → Option String} (h : WalkedBack g target depth t) (hcur : t.cur = source)
    (hlayered : Layered g.Calls source popped (target :: queue) prev depth) :
    IsShortestWalk g.Calls source target t.nodesRev.reverse := by
  refine ⟨hcur ▸ h.walk, ?_, ?_⟩
  · exact (h.deepens.imp fun hlt => fun he => absurd (congrArg depth he) (Nat.ne_of_lt hlt))
  · intro other hwalk
    have hlen := h.length
    rw [hcur, hlayered.root] at hlen
    have hleast := hlayered.least hwalk
    rw [List.length_reverse]
    omega

lemma trace_walkedBack {queue : List String} {depth : String → ℕ} (h : Discovered g source (popped ++ [target]) st)
    (hqueue : st.queue = queue) (hlayered : Layered g.Calls source popped (target :: queue) st.prev depth) :
    ∃ t, loop (traceStep g st.parent source) g.pathFuel (.start g target) = .ok t ∧
      WalkedBack g target depth t ∧ t.cur = source := by
  let order := popped ++ [target] ++ st.queue
  have horder : order = popped ++ target :: queue := by simp [order, hqueue]
  have hround : ∀ t, (WalkedBack g target depth t ∧ t.cur ∈ order) →
      Round (fun t => WalkedBack g target depth t ∧ t.cur ∈ order) (fun t => order.idxOf t.cur)
        (fun t => WalkedBack g target depth t ∧ t.cur = source) t (traceStep g st.parent source t) := by
    rintro t ⟨ht, hcur⟩
    have hlink : t.cur ≠ source → ∃ u, st.prev t.cur = some u ∧ depth t.cur = depth u + 1 := by
      intro hne
      obtain ⟨u, -, hprev, -, hdepth⟩ := hlayered.linked t.cur (horder ▸ hcur) hne
      exact ⟨u, hprev, hdepth⟩
    rw [traceStep]
    cases hp : st.parent[t.cur]? with
    | none =>
      refine Or.inr ⟨t, rfl, ht, ?_⟩
      by_contra hne
      obtain ⟨u, hprev, -⟩ := hlink hne
      simp [Search.prev, hp] at hprev
    | some e =>
      obtain ⟨prev, pid⟩ := e
      obtain ⟨hcall, -⟩ := h.parent t.cur prev pid hp
      obtain ⟨hlt, hmem⟩ := h.idxOf_parent_lt hp
      have hne : t.cur ≠ source := by
        intro he
        rw [he, h.root] at hp
        cases hp
      obtain ⟨u, hprev, hdepth⟩ := hlink hne
      obtain rfl : prev = u := by simpa [Search.prev, hp] using hprev
      have hstep : WalkedBack g target depth (t.step g prev pid) := ht.step hcall hdepth
      by_cases hsource : prev = source
      · exact Or.inr ⟨t.step g prev pid, by simp [hsource], hstep, hsource⟩
      · exact Or.inl ⟨t.step g prev pid, by simp [hsource], ⟨hstep, hmem⟩, hlt⟩
  have htarget : target ∈ order := by simp [order]
  refine loop_terminates (fun t => order.idxOf t.cur) hround ⟨walkedBack_start g target depth, htarget⟩ ?_
  have hidx : order.idxOf target < order.length := List.idxOf_lt_length_of_mem htarget
  have hlen := h.length_le
  simp only [Trace.start, pathFuel]
  simp only [order, List.length_append] at hidx hlen ⊢
  omega

/-- The path between two known keys is empty when there is no walk between them, and otherwise a shortest walk over
the confirmed calls of the resident partitions, with its edges. -/
theorem path_shortest (g : LiveGraph) (source target : String) (hsource : source ∈ g.callGraph.known)
    (htarget : target ∈ g.callGraph.known) :
    ∃ env data, g.path source target = .ok env ∧ env.data = some data ∧
      (data.nodes ≠ [] ↔ Reach g.Calls source target) ∧
      (data.nodes ≠ [] → IsShortestWalk g.Calls source target data.nodes ∧
        data.edges = data.nodes.zip data.nodes.tail ∧ ∀ e ∈ data.edges, g.Calls e.1 e.2) := by
  have hknown : ¬ (source ∉ g.callGraph.known ∨ target ∉ g.callGraph.known) := by tauto
  obtain ⟨r, hr, hdone⟩ := search_layered pathCancelCheckInterval (fun _ => .cont) hsource target
  obtain ⟨r', hr', hquiet⟩ := search_terminates pathCancelCheckInterval (fun _ => .cont) hsource target
  obtain rfl := Except.ok.inj (hr.symm.trans hr')
  match r, hdone, hquiet with
  | .error _, _, hquiet =>
    obtain ⟨n, hn⟩ := hquiet
    cases hn
  | .ok (true, st), hdone, _ =>
    obtain ⟨popped, queue, depth, hdisc, hqueue, hlayered⟩ := hdone
    obtain ⟨t, ht, hback, hcur⟩ := trace_walkedBack hdisc hqueue hlayered
    obtain ⟨env, he, hdata, -⟩ := foundEnvelope_spec g t
    have hshortest := hback.isShortestWalk hcur hlayered
    have hnodes : t.nodesRev.reverse ≠ [] := hshortest.toIsWalk.ne_nil
    refine ⟨env, _, ?_, hdata, ?_, ?_⟩
    · rw [path, pathCancellable, pathEvery, if_neg hknown, hr]
      simp [ht, he]
    · exact ⟨fun _ => hshortest.toIsWalk.reach, fun _ => hnodes⟩
    · intro _
      refine ⟨hshortest, hback.edges, ?_⟩
      rw [hback.edges]
      exact hshortest.toIsWalk.zip_tail
  | .ok (false, st), hdone, _ =>
    obtain ⟨popped, hexplored, hempty⟩ := hdone
    obtain ⟨env, he, hdata, -⟩ := noPathEnvelope_spec g source st.degraded
    refine ⟨env, _, ?_, hdata, ?_, ?_⟩
    · rw [path, pathCancellable, pathEvery, if_neg hknown, hr]
      simp [he]
    · refine ⟨fun h => absurd rfl h, fun hreach => ?_⟩
      -- With the queue empty the popped nodes are closed under calls, and the target is not among them.
      have hpopped : ∀ w, w ∈ st.visited ↔ w ∈ popped := by
        intro w
        rw [hexplored.visited, hempty, List.append_nil]
      have hclosed : Closed g.Calls (· ∈ popped) :=
        fun u w hu hcall => (hpopped w).mp (hexplored.closed u hu w hcall)
      exact absurd (hclosed.reach ((hpopped source).mp hexplored.start) hreach) hexplored.unpopped
    · intro h
      exact absurd rfl h

/-- A call from one partition into another. -/
theorem path_shortest_both :
    ∃ env data, (after Fixture.both).path "api.caller" "engine.foo" = .ok env ∧ env.data = some data ∧
      IsShortestWalk (after Fixture.both).Calls "api.caller" "engine.foo" data.nodes := by
  obtain ⟨env, data, he, hdata, hiff, hshortest⟩ :=
    path_shortest (after Fixture.both) "api.caller" "engine.foo" (by decide) (by decide)
  have hanswer : ((after Fixture.both).path "api.caller" "engine.foo").map
      (fun env => env.data.map PathAnswer.nodes) = .ok (some ["api.caller", "engine.foo"]) := by decide
  rw [he] at hanswer
  have hnodes : data.nodes = ["api.caller", "engine.foo"] := by
    have h : env.data.map PathAnswer.nodes = some ["api.caller", "engine.foo"] := Except.ok.inj hanswer
    rw [hdata] at h
    exact Option.some.inj h
  exact ⟨env, data, he, hdata, (hshortest (by simp [hnodes])).1⟩

end RepoGraph.LiveGraph
