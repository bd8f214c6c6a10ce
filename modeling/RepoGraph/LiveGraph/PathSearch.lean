import RepoGraph.LiveGraph.Path

/-! The search and the walk back end within their fuel; what the search has seen when it stops. -/

namespace RepoGraph.LiveGraph

open Lib Lib.Digraph Ir TrustModel GraphAlgorithms

def definers (g : LiveGraph) (key : String) : List (Σ _ : String, Slot) :=
  g.slots.entries.filter (fun e => key ∈ e.2.defines)

def lastDefiner (g : LiveGraph) (key : String) : Option (Σ _ : String, Slot) := (g.definers key).getLast?

def Call (g : LiveGraph) (pid u v : String) : Prop :=
  ∃ ir, g.residentIr pid = some ir ∧
    ∃ e ∈ ir.edges, e.basis = .syntaxConfirmedCall ∧ e.src.asStr = u ∧ e.dst.asStr = v

def Calls (g : LiveGraph) (u v : String) : Prop := ∃ pid, g.Call pid u v

variable {g : LiveGraph}

lemma Call.resident {pid u v : String} (h : g.Call pid u v) : ∃ ir, g.residentIr pid = some ir := by
  obtain ⟨ir, hir, -⟩ := h
  exact ⟨ir, hir⟩

lemma mem_definers {key id : String} {s : Slot} :
    (⟨id, s⟩ : Σ _ : String, Slot) ∈ g.definers key ↔ g.slot id = some s ∧ key ∈ s.defines := by
  rw [definers, List.mem_filter, IterMap.mem_entries]
  simp [slot]

lemma getElem?_foldl_addOwned (es : List (Σ _ : String, Slot)) (m : HashMap String String) (key : String) :
    (es.foldl addOwned m)[key]? =
      (((es.filter (fun e => key ∈ e.2.defines)).getLast?).map Sigma.fst).or m[key]? := by
  have hinner : ∀ (pid : String) (ks : List String) (m : HashMap String String),
      (ks.foldl (fun owner k => owner.insert k pid) m)[key]? = if key ∈ ks then some pid else m[key]? := by
    intro pid ks
    induction ks with
    | nil => simp
    | cons k ks ih =>
      intro m
      rw [List.foldl_cons, ih, getElem?_insert]
      grind
  induction es generalizing m with
  | nil => simp
  | cons e es ih =>
    rw [List.foldl_cons, ih, addOwned, hinner]
    by_cases hk : key ∈ e.2.defines
    · cases hl : (es.filter (fun e => key ∈ e.2.defines)).getLast? <;>
        simp [hk, hl, List.getLast?_cons, Std.ExtTreeMap.mem_keys]
    · simp [hk, Std.ExtTreeMap.mem_keys]

lemma getElem?_owner (g : LiveGraph) (key : String) :
    g.owner[key]? = (g.lastDefiner key).map Sigma.fst := by
  rw [owner, getElem?_foldl_addOwned]
  simp [lastDefiner, definers]

lemma mem_owner {key : String} : key ∈ g.owner ↔ ∃ id s, g.slot id = some s ∧ key ∈ s.defines := by
  rw [Std.ExtTreeMap.mem_iff_isSome_getElem?, getElem?_owner, Option.isSome_map, lastDefiner,
    List.getLast?_isSome]
  constructor
  · intro h
    obtain ⟨⟨id, s⟩, hmem⟩ := List.exists_mem_of_ne_nil _ h
    exact ⟨id, s, mem_definers.mp hmem⟩
  · rintro ⟨id, s, hs⟩
    exact List.ne_nil_of_mem (mem_definers.mpr hs)

def residentEdges (g : LiveGraph) : List (String × IrEdge) :=
  g.slots.entries.flatMap fun e => ((e.2.ir).map fun ir => ir.edges.map (e.1, ·)).getD []

lemma mem_residentEdges {pid : String} {e : IrEdge} :
    (pid, e) ∈ g.residentEdges ↔ ∃ ir, g.residentIr pid = some ir ∧ e ∈ ir.edges := by
  rw [residentEdges, List.mem_flatMap]
  constructor
  · rintro ⟨⟨id, s⟩, hmem, he⟩
    have hs : g.slot id = some s := IterMap.mem_entries.mp hmem
    cases hir : s.ir with
    | none => simp [hir] at he
    | some ir =>
      simp only [hir, Option.map_some, Option.getD_some, List.mem_map, Prod.mk.injEq] at he
      obtain ⟨e', he', rfl, rfl⟩ := he
      exact ⟨ir, by simp [residentIr, hs, hir], he'⟩
  · rintro ⟨ir, hir, he⟩
    obtain ⟨s, hs, hsir⟩ := Option.bind_eq_some_iff.mp hir
    exact ⟨⟨pid, s⟩, IterMap.mem_entries.mpr hs, by simp [hsir, he]⟩

lemma callGraph_eq (g : LiveGraph) :
    g.callGraph = g.residentEdges.foldl (fun calls p => addCall p.1 calls p.2) ⟨∅, .ofList g.owner.keys⟩ := by
  rw [callGraph, residentEdges, List.foldl_flatMap]
  congr 1
  funext calls e
  rw [addCalls]
  cases e.2.ir with
  | none => rfl
  | some ir => simp [List.foldl_map]

lemma mem_neighbors {pid u v : String} : (v, pid) ∈ g.callGraph.neighbors u ↔ g.Call pid u v := by
  have hstep : ∀ (calls : CallGraph) (p : String × IrEdge),
      (v, pid) ∈ (addCall p.1 calls p.2).neighbors u ↔ (v, pid) ∈ calls.neighbors u ∨
        p.1 = pid ∧ p.2.basis = .syntaxConfirmedCall ∧ p.2.src.asStr = u ∧ p.2.dst.asStr = v := by
    intro calls p
    rw [addCall]
    split
    · rw [CallGraph.neighbors, getElem?_insert]
      split <;> simp_all [CallGraph.neighbors, eq_comm]
      tauto
    · tauto
  have hfold : ∀ (ps : List (String × IrEdge)) (calls : CallGraph),
      (v, pid) ∈ (ps.foldl (fun calls p => addCall p.1 calls p.2) calls).neighbors u ↔
        (v, pid) ∈ calls.neighbors u ∨ ∃ p ∈ ps, p.1 = pid ∧ p.2.basis = .syntaxConfirmedCall ∧
          p.2.src.asStr = u ∧ p.2.dst.asStr = v := by
    intro ps
    induction ps with
    | nil => simp
    | cons p ps ih =>
      intro calls
      rw [List.foldl_cons, ih, hstep]
      simp only [List.mem_cons, exists_eq_or_imp, or_assoc]
  rw [callGraph_eq, hfold, Call]
  have hempty : (v, pid) ∉ (⟨∅, .ofList g.owner.keys⟩ : CallGraph).neighbors u := by
    simp [CallGraph.neighbors]
  simp only [hempty, false_or]
  constructor
  · rintro ⟨⟨pid', e⟩, hmem, rfl, he⟩
    obtain ⟨ir, hir, heir⟩ := mem_residentEdges.mp hmem
    exact ⟨ir, hir, e, heir, he⟩
  · rintro ⟨ir, hir, e, heir, he⟩
    exact ⟨(pid, e), mem_residentEdges.mpr ⟨ir, hir, heir⟩, rfl, he⟩

lemma mem_known {key : String} : key ∈ g.callGraph.known ↔
    (∃ id s, g.slot id = some s ∧ key ∈ s.defines) ∨ ∃ u v, g.Calls u v ∧ (key = u ∨ key = v) := by
  have hfold : ∀ (ps : List (String × IrEdge)) (calls : CallGraph),
      key ∈ (ps.foldl (fun calls p => addCall p.1 calls p.2) calls).known ↔
        key ∈ calls.known ∨ ∃ p ∈ ps, p.2.basis = .syntaxConfirmedCall ∧
          (key = p.2.src.asStr ∨ key = p.2.dst.asStr) := by
    intro ps
    induction ps with
    | nil => simp
    | cons p ps ih =>
      intro calls
      rw [List.foldl_cons, ih, addCall]
      split
      · simp only [Std.ExtTreeSet.mem_insert, Std.compare_eq_iff_eq, List.mem_cons, exists_eq_or_imp]
        grind
      · simp_all
  rw [callGraph_eq, hfold, ← mem_owner]
  have howner : key ∈ (⟨∅, .ofList g.owner.keys⟩ : CallGraph).known ↔ key ∈ g.owner := by simp
  rw [howner]
  refine or_congr_right ?_
  constructor
  · rintro ⟨⟨pid, e⟩, hmem, hb, hk⟩
    obtain ⟨ir, hir, heir⟩ := mem_residentEdges.mp hmem
    exact ⟨e.src.asStr, e.dst.asStr, ⟨pid, ir, hir, e, heir, hb, rfl, rfl⟩, hk⟩
  · rintro ⟨u, v, ⟨pid, ir, hir, e, heir, hb, rfl, rfl⟩, hk⟩
    exact ⟨(pid, e), mem_residentEdges.mpr ⟨ir, hir, heir⟩, hb, hk⟩

/-- The nodes seen so far, in the order of their discovery, with those popped first. Parents precede
their children, which is what makes the walk back end. -/
structure Discovered (g : LiveGraph) (source : String) (popped : List String) (st : Search) : Prop where
  nodup : (popped ++ st.queue).Nodup
  visited : ∀ v, v ∈ st.visited ↔ v ∈ popped ++ st.queue
  start : source ∈ st.visited
  root : st.parent[source]? = none
  known : ∀ v ∈ st.visited, v ∈ g.callGraph.known
  reach : ∀ v ∈ st.visited, Reach g.Calls source v
  parent : ∀ v u pid, st.parent[v]? = some (u, pid) → g.Call pid u v ∧
    ∃ before after, popped ++ st.queue = before ++ v :: after ∧ u ∈ before

structure Explored (g : LiveGraph) (source target : String) (popped : List String) (st : Search) : Prop
    extends Discovered g source popped st where
  closed : ∀ u ∈ popped, ∀ v, g.Calls u v → v ∈ st.visited
  degraded : st.degraded = false → ∀ u ∈ popped, g.fullyExpandable u = true
  unpopped : target ∉ popped

variable {source target : String} {popped : List String} {st : Search}

lemma explored_start (hsource : source ∈ g.callGraph.known) :
    Explored g source target [] (.start source) := by
  refine ⟨⟨by simp [Search.start], ?_, by simp [Search.start], by simp [Search.start], ?_, ?_,
    by simp [Search.start]⟩, by simp, by simp, by simp⟩
  · intro v
    simp only [Search.start, List.nil_append, List.mem_singleton, Std.ExtTreeSet.mem_ofList,
      List.contains_iff_mem]
  · intro v hv
    have he : source = v := by simpa [Search.start] using hv
    exact he ▸ hsource
  · intro v hv
    have he : source = v := by simpa [Search.start] using hv
    exact he ▸ .refl

lemma known_of_calls {u v : String} (h : g.Calls u v) : v ∈ g.callGraph.known :=
  mem_known.mpr (Or.inr ⟨u, v, h, Or.inr rfl⟩)

lemma Discovered.visitNeighbor (h : Discovered g source popped st) {n v pid : String} (hn : n ∈ popped)
    (hcall : g.Call pid n v) : Discovered g source popped (visitNeighbor n st (v, pid)) := by
  rw [LiveGraph.visitNeighbor]
  by_cases hv : v ∈ st.visited
  · rw [if_pos hv]
    exact h
  · rw [if_neg hv]
    have hfresh : v ∉ popped ++ st.queue := fun hm => hv ((h.visited v).mpr hm)
    have hmem : ∀ w, w ∈ st.visited.insert v ↔ v = w ∨ w ∈ st.visited := by simp
    refine ⟨?_, ?_, ?_, ?_, ?_, ?_, ?_⟩
    · rw [← List.append_assoc]
      exact List.nodup_append.mpr ⟨h.nodup, by simp, by grind⟩
    · intro w
      rw [hmem, h.visited, ← List.append_assoc, List.mem_append (t := [v]), List.mem_singleton]
      grind
    · exact (hmem _).mpr (Or.inr h.start)
    · have hne : v ≠ source := fun he => hv (he ▸ h.start)
      rw [getElem?_insert_of_ne _ hne]
      exact h.root
    · intro w hw
      rcases (hmem w).mp hw with rfl | hw
      · exact known_of_calls ⟨pid, hcall⟩
      · exact h.known w hw
    · intro w hw
      rcases (hmem w).mp hw with rfl | hw
      · have hreach := h.reach n ((h.visited n).mpr (List.mem_append_left _ hn))
        exact hreach.tail ⟨pid, hcall⟩
      · exact h.reach w hw
    · intro w u p hp
      simp only [getElem?_insert] at hp
      split at hp
      · rename_i hvw
        obtain ⟨rfl, rfl⟩ := Prod.mk.inj (Option.some.inj hp)
        subst hvw
        exact ⟨hcall, popped ++ st.queue, [], by simp, List.mem_append_left _ hn⟩
      · obtain ⟨hc, before, after, heq, hu⟩ := h.parent w u p hp
        exact ⟨hc, before, after ++ [v], by rw [← List.append_assoc, heq]; simp, hu⟩

lemma visitNeighbor_degraded (n : String) (st : Search) (nb : String × String) :
    (visitNeighbor n st nb).degraded = st.degraded := by
  rw [visitNeighbor]
  split <;> rfl

lemma visited_visitNeighbor {n : String} {nb : String × String} {w : String} :
    w ∈ (visitNeighbor n st nb).visited ↔ w = nb.1 ∨ w ∈ st.visited := by
  rw [visitNeighbor]
  split
  · grind
  · simp only [Std.ExtTreeSet.mem_insert, Std.compare_eq_iff_eq]
    grind

lemma Discovered.foldl_visitNeighbor {n : String} (hn : n ∈ popped) {nbs : List (String × String)}
    (hcalls : ∀ nb ∈ nbs, g.Call nb.2 n nb.1) {st : Search} (h : Discovered g source popped st) :
    Discovered g source popped (nbs.foldl (LiveGraph.visitNeighbor n) st) ∧
      (nbs.foldl (LiveGraph.visitNeighbor n) st).degraded = st.degraded ∧
      ∀ w, w ∈ (nbs.foldl (LiveGraph.visitNeighbor n) st).visited ↔ w ∈ nbs.map Prod.fst ∨ w ∈ st.visited := by
  induction nbs generalizing st with
  | nil => exact ⟨h, rfl, by simp⟩
  | cons nb nbs ih =>
    have hnb := hcalls nb (List.mem_cons_self ..)
    obtain ⟨hd, hdeg, hvis⟩ := ih (fun nb' h' => hcalls nb' (List.mem_cons_of_mem _ h'))
      (h.visitNeighbor hn hnb)
    refine ⟨hd, by rw [List.foldl_cons, hdeg, visitNeighbor_degraded], ?_⟩
    intro w
    rw [List.foldl_cons, hvis, visited_visitNeighbor, List.map_cons, List.mem_cons]
    tauto

lemma Discovered.congr (h : Discovered g source popped st) {popped' : List String} {st' : Search}
    (horder : popped' ++ st'.queue = popped ++ st.queue) (hvisited : st'.visited = st.visited)
    (hparent : st'.parent = st.parent) : Discovered g source popped' st' := by
  refine ⟨?_, ?_, ?_, ?_, ?_, ?_, ?_⟩
  · rw [horder]
    exact h.nodup
  · rw [horder, hvisited]
    exact h.visited
  · rw [hvisited]
    exact h.start
  · rw [hparent]
    exact h.root
  · rw [hvisited]
    exact h.known
  · rw [hvisited]
    exact h.reach
  · rw [horder, hparent]
    exact h.parent

lemma Explored.expand {n : String} {queue : List String} (h : Explored g source target popped st)
    (hq : st.queue = n :: queue) (hn : n ≠ target) {st' : Search} (hqueue : st'.queue = queue)
    (hvisited : st'.visited = st.visited) (hparent : st'.parent = st.parent)
    (hdegraded : st'.degraded = st.degraded) :
    Explored g source target (popped ++ [n]) (g.expand n st') := by
  let marked := if g.fullyExpandable n then st' else { st' with degraded := true }
  have hmarked : marked.queue = queue ∧ marked.visited = st.visited ∧ marked.parent = st.parent ∧
      (marked.degraded = false → st.degraded = false ∧ g.fullyExpandable n = true) := by
    simp only [marked]
    split
    · rename_i hfull
      exact ⟨hqueue, hvisited, hparent, fun hd => ⟨hdegraded ▸ hd, hfull⟩⟩
    · exact ⟨hqueue, hvisited, hparent, fun hd => absurd hd (by simp)⟩
  obtain ⟨hmq, hmv, hmp, hmd⟩ := hmarked
  have hstart : Discovered g source (popped ++ [n]) marked :=
    h.toDiscovered.congr (by simp [hmq, hq]) hmv hmp
  have hcalls : ∀ nb ∈ g.callGraph.neighbors n, g.Call nb.2 n nb.1 := fun nb hnb => mem_neighbors.mp hnb
  obtain ⟨hd, hdeg, hvis⟩ := hstart.foldl_visitNeighbor (by simp) hcalls
  refine ⟨hd, ?_, ?_, ?_⟩
  · intro u hu v hcall
    rw [LiveGraph.expand]
    refine (hvis v).mpr ?_
    rcases List.mem_append.mp hu with hu | hu
    · exact Or.inr (hmv ▸ h.closed u hu v hcall)
    · obtain ⟨pid, hcall⟩ := hcall
      rw [List.mem_singleton.mp hu] at hcall
      exact Or.inl (List.mem_map.mpr ⟨(v, pid), mem_neighbors.mpr hcall, rfl⟩)
  · intro hfalse u hu
    obtain ⟨hold, hfull⟩ := hmd (hdeg ▸ hfalse)
    rcases List.mem_append.mp hu with hu | hu
    · exact h.degraded hold u hu
    · rw [List.mem_singleton.mp hu]
      exact hfull
  · intro hmem
    rcases List.mem_append.mp hmem with hmem | hmem
    · exact h.unpopped hmem
    · exact hn (List.mem_singleton.mp hmem).symm

def SearchDone (g : LiveGraph) (source target : String) (cancel : CancelCheck) :
    Except Cancelled (Bool × Search) → Prop
  | .error _ => ∃ n, cancel n = .brk
  | .ok (true, st) => ∃ popped, Discovered g source popped st ∧ target ∈ popped
  | .ok (false, st) => ∃ popped, Explored g source target popped st ∧ st.queue = []

lemma popCheckpoint_spec (interval : ℕ) (cancel : CancelCheck) (st : Search) :
    ((popCheckpoint interval cancel st).1 = .brk → ∃ n, cancel n = .brk) ∧
      (popCheckpoint interval cancel st).2.queue = st.queue ∧
      (popCheckpoint interval cancel st).2.visited = st.visited ∧
      (popCheckpoint interval cancel st).2.parent = st.parent ∧
      (popCheckpoint interval cancel st).2.degraded = st.degraded := by
  rw [popCheckpoint]
  split
  · exact ⟨fun h => ⟨_, h⟩, rfl, rfl, rfl, rfl⟩
  · exact ⟨by simp, rfl, rfl, rfl, rfl⟩

def unpoppedCount (g : LiveGraph) (st : Search) : ℕ :=
  g.callGraph.known.size + st.queue.length - st.visited.size

lemma Discovered.length_le (h : Discovered g source popped st) :
    st.visited.size = popped.length + st.queue.length ∧
      popped.length + st.queue.length ≤ g.callGraph.known.size := by
  refine ⟨by rw [size_eq_length h.nodup h.visited, List.length_append], ?_⟩
  rw [← List.length_append]
  exact length_le_size h.nodup (fun v hv => h.known v ((h.visited v).mpr hv))

lemma searchStep_round (interval : ℕ) (cancel : CancelCheck)
    (h : ∃ popped, Explored g source target popped st) :
    Round (fun st => ∃ popped, Explored g source target popped st) g.unpoppedCount
      (SearchDone g source target cancel) st (searchStep interval cancel g target st) := by
  obtain ⟨popped, h⟩ := h
  rw [searchStep]
  cases hq : st.queue with
  | nil => exact Or.inr ⟨_, rfl, popped, h, hq⟩
  | cons n queue =>
    have hspec := popCheckpoint_spec interval cancel { st with queue := queue }
    rcases hcheck : popCheckpoint interval cancel { st with queue := queue } with ⟨answer, st'⟩
    rw [hcheck] at hspec
    obtain ⟨hbrk, hqueue, hvisited, hparent, hdegraded⟩ := hspec
    cases answer with
    | brk => exact Or.inr ⟨.error .cancelled, by simp [hcheck], hbrk rfl⟩
    | cont =>
      by_cases hn : n = target
      · refine Or.inr ⟨.ok (true, st'), by simp [hcheck, hn], popped ++ [n], ?_, by simp [hn]⟩
        refine h.toDiscovered.congr ?_ hvisited hparent
        rw [hqueue, hq, List.append_assoc, List.singleton_append]
      · have hnext := h.expand hq hn hqueue hvisited hparent hdegraded
        refine Or.inl ⟨_, by simp [hcheck, hn], ⟨_, hnext⟩, ?_⟩
        have hold := h.toDiscovered.length_le
        have hnew := hnext.toDiscovered.length_le
        simp only [unpoppedCount]
        simp only [List.length_append, List.length_singleton] at hnew
        omega

lemma search_terminates (interval : ℕ) (cancel : CancelCheck) (hsource : source ∈ g.callGraph.known)
    (target : String) :
    ∃ r, loop (searchStep interval cancel g target) g.pathFuel (.start source) = .ok r ∧
      SearchDone g source target cancel r := by
  have hstart : Explored g source target [] (.start source) := explored_start hsource
  refine loop_terminates g.unpoppedCount (fun st => searchStep_round interval cancel) ⟨[], hstart⟩ ?_
  have h := hstart.toDiscovered.length_le
  simp only [unpoppedCount, pathFuel]
  simp only [List.length_nil] at h
  omega

structure Traced (g : LiveGraph) (target : String) (t : Trace) : Prop where
  target : target ∈ t.nodesRev
  owners : ∀ n ∈ t.nodesRev, ∀ p, g.owner[n]? = some p → p ∈ t.parts
  parts : ∀ p ∈ t.parts, (∃ n ∈ t.nodesRev, g.owner[n]? = some p) ∨ ∃ ir, g.residentIr p = some ir
  edges : ∀ e ∈ t.edgesRev, ∃ p ∈ t.parts, g.Call p e.1 e.2

lemma mem_addOwner {node p : String} {parts : BTreeSet String} :
    p ∈ g.addOwner node parts ↔ g.owner[node]? = some p ∨ p ∈ parts := by
  rw [addOwner]
  cases g.owner[node]? with
  | none => simp
  | some q => simp

lemma traced_start (g : LiveGraph) (target : String) : Traced g target (.start g target) := by
  refine ⟨by simp [Trace.start], ?_, ?_, by simp [Trace.start]⟩
  · intro n hn p hp
    rw [List.mem_singleton.mp hn] at hp
    exact mem_addOwner.mpr (Or.inl hp)
  · intro p hp
    rcases mem_addOwner.mp hp with hp | hp
    · exact Or.inl ⟨target, by simp [Trace.start], hp⟩
    · simp at hp

lemma Traced.step {t : Trace} (h : Traced g target t) {prev pid : String}
    (hcall : g.Call pid prev t.cur) : Traced g target (t.step g prev pid) := by
  refine ⟨List.mem_append_left _ h.target, ?_, ?_, ?_⟩
  · intro n hn p hp
    refine mem_addOwner.mpr ?_
    rcases List.mem_append.mp hn with hn | hn
    · have := h.owners n hn p hp
      simp [this]
    · rw [List.mem_singleton.mp hn] at hp
      exact Or.inl hp
  · intro p hp
    rcases mem_addOwner.mp hp with hp | hp
    · exact Or.inl ⟨prev, by simp [Trace.step], hp⟩
    · have hcases : pid = p ∨ p ∈ t.parts := by simpa using hp
      rcases hcases with rfl | hp
      · exact Or.inr hcall.resident
      · rcases h.parts p hp with ⟨n, hn, ho⟩ | hres
        · exact Or.inl ⟨n, List.mem_append_left _ hn, ho⟩
        · exact Or.inr hres
  · intro e he
    rcases List.mem_append.mp he with he | he
    · obtain ⟨p, hp, hcalls⟩ := h.edges e he
      exact ⟨p, mem_addOwner.mpr (Or.inr (by simp [hp])), hcalls⟩
    · rw [List.mem_singleton.mp he]
      exact ⟨pid, mem_addOwner.mpr (Or.inr (by simp)), hcall⟩

lemma Discovered.idxOf_parent_lt (h : Discovered g source popped st) {v u pid : String}
    (hp : st.parent[v]? = some (u, pid)) :
    (popped ++ st.queue).idxOf u < (popped ++ st.queue).idxOf v ∧ u ∈ popped ++ st.queue := by
  obtain ⟨-, before, after, heq, hu⟩ := h.parent v u pid hp
  have hnodup := h.nodup
  rw [heq] at hnodup ⊢
  have hv : v ∉ before := by
    intro hv
    exact (List.nodup_append.mp hnodup).2.2 v hv v (by simp) rfl
  refine ⟨?_, List.mem_append_left _ hu⟩
  rw [List.idxOf_append_of_mem hu, List.idxOf_append_of_notMem hv]
  have := List.idxOf_lt_length_of_mem hu
  omega

lemma trace_terminates (h : Discovered g source popped st) (htarget : target ∈ popped) :
    ∃ t, loop (traceStep g st.parent source) g.pathFuel (.start g target) = .ok t ∧ Traced g target t := by
  let order := popped ++ st.queue
  have hround : ∀ t, (Traced g target t ∧ t.cur ∈ order) →
      Round (fun t => Traced g target t ∧ t.cur ∈ order) (fun t => order.idxOf t.cur) (Traced g target) t
        (traceStep g st.parent source t) := by
    rintro t ⟨ht, hcur⟩
    rw [traceStep]
    cases hp : st.parent[t.cur]? with
    | none => exact Or.inr ⟨t, rfl, ht⟩
    | some e =>
      obtain ⟨prev, pid⟩ := e
      obtain ⟨hcall, -⟩ := h.parent t.cur prev pid hp
      obtain ⟨hlt, hmem⟩ := h.idxOf_parent_lt hp
      have hstep : Traced g target (t.step g prev pid) := ht.step hcall
      by_cases hsource : prev = source
      · exact Or.inr ⟨_, by simp [hsource], hstep⟩
      · exact Or.inl ⟨t.step g prev pid, by simp [hsource], ⟨hstep, hmem⟩, hlt⟩
  refine loop_terminates (fun t => order.idxOf t.cur) hround
    ⟨traced_start g target, List.mem_append_left _ htarget⟩ ?_
  have hidx : order.idxOf target < order.length :=
    List.idxOf_lt_length_of_mem (List.mem_append_left _ htarget)
  have hlen := h.length_le
  simp only [Trace.start, pathFuel]
  simp only [order, List.length_append] at hidx ⊢
  omega

end RepoGraph.LiveGraph
