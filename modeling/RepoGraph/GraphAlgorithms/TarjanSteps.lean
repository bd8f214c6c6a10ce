import RepoGraph.GraphAlgorithms.Tarjan

/-! One iteration of the search loop preserves the invariant, raises no panic and uses up work. -/

namespace RepoGraph.GraphAlgorithms.Tarjan

open Lib Lib.Digraph

def idxOf (st : TarjanState) (v : String) : ℕ := st.indices[v]?.getD 0
def lowOf (st : TarjanState) (v : String) : ℕ := st.lowlinks[v]?.getD 0
def doneOf (st : TarjanState) : List String := st.result.flatMap Scc.members

variable (adj : String → List String) (node : String → Prop)

/-- The data of the search: visited nodes are on the stack, by descending index, or in a finished
component. -/
structure Sound (st : TarjanState) : Prop where
  onStack : ∀ v, v ∈ st.onStack ↔ v ∈ st.stack
  visited : ∀ v, v ∈ st.indices ↔ v ∈ st.stack ∨ v ∈ doneOf st
  lowlinked : ∀ v ∈ st.stack, v ∈ st.lowlinks
  bound : ∀ v ∈ st.stack, idxOf st v < st.indexCounter
  sorted : st.stack.Pairwise (fun a b => idxOf st b < idxOf st a)
  disjoint : ∀ v ∈ st.stack, v ∉ doneOf st
  nodup : (doneOf st).Nodup
  closed : Closed (Edge adj) (· ∈ doneOf st)
  component : ∀ c ∈ st.result, IsComponent (Edge adj) c.members
  node : ∀ v ∈ st.indices, node v

abbrev Waiting (st : TarjanState) := Suspended adj (idxOf st) (lowOf st) (doneOf st)
abbrev Open (st : TarjanState) := Segment adj (idxOf st) (lowOf st) (doneOf st)

inductive Control (st : TarjanState) : List Frame → Prop
  | idle : st.stack = [] → Control st []
  | entering {n fs} : n ∉ st.indices → node n → Waiting adj st n fs st.stack →
      Control st (⟨n, 0, .entering⟩ :: fs)
  | neighbors {p k xs below fs} : st.stack = xs ++ p :: below → Open adj st p k xs below →
      Waiting adj st p fs below → Control st (⟨p, k, .neighbors⟩ :: fs)
  | finishing {p k xs below fs} : st.stack = xs ++ p :: below → Open adj st p k xs below →
      Waiting adj st p fs below → (adj p).length ≤ k → Control st (⟨p, k, .finishing⟩ :: fs)

def frameWork (f : Frame) : ℕ :=
  match f.phase with
  | .entering => 1
  | .neighbors => 2 * ((adj f.node).length - f.neighborIdx) + 2
  | .finishing => 1

def unvisitedWork (nodes : List String) (st : TarjanState) : ℕ :=
  ((nodes.filter (fun v => v ∉ st.indices)).map (fun v => 2 * (adj v).length + 3)).sum

def work (nodes : List String) (s : TarjanState × List Frame) : ℕ :=
  unvisitedWork adj nodes s.1 + (s.2.map (frameWork adj)).sum

variable {adj node}

lemma index_ok {m : HashMap String ℕ} {v : String} (h : v ∈ m) : index m v = .ok (m[v]?.getD 0) := by
  obtain ⟨n, hn⟩ := Option.isSome_iff_exists.mp (Std.ExtTreeMap.mem_iff_isSome_getElem?.mp h)
  simp [index, hn]

lemma index_indices {st : TarjanState} {v : String} (h : v ∈ st.indices) :
    index st.indices v = .ok (idxOf st v) := index_ok h

lemma index_lowlinks {st : TarjanState} {v : String} (h : v ∈ st.lowlinks) :
    index st.lowlinks v = .ok (lowOf st v) := index_ok h

lemma unvisitedWork_enter {nodes : List String} {st st' : TarjanState} {n : String} (hn : n ∈ nodes)
    (hnew : n ∉ st.indices) (h : ∀ v, v ∈ st'.indices ↔ n = v ∨ v ∈ st.indices) :
    unvisitedWork adj nodes st' + (2 * (adj n).length + 3) ≤ unvisitedWork adj nodes st := by
  induction nodes with
  | nil => simp at hn
  | cons a nodes ih =>
    have hle : unvisitedWork adj nodes st' ≤ unvisitedWork adj nodes st := by
      refine List.Sublist.sum_le_sum (List.Sublist.map _ (List.monotone_filter_right _ ?_)) (by simp)
      intro v hv
      simp only [h, decide_eq_true_eq] at hv ⊢
      tauto
    by_cases ha : a = n
    · subst ha
      simp only [unvisitedWork, List.filter_cons, h, hnew, true_or, not_true, decide_false, not_false_iff,
        decide_true, Bool.false_eq_true, if_false, if_true, List.map_cons, List.sum_cons] at hle ⊢
      omega
    · have hna : n ≠ a := Ne.symm ha
      have hn : n ∈ nodes := by simpa [hna] using hn
      have ih := ih hn
      by_cases hav : a ∈ st.indices
      · simp only [unvisitedWork, List.filter_cons, h, hav, or_true, not_true, decide_false,
          Bool.false_eq_true, if_false] at ih ⊢
        exact ih
      · simp only [unvisitedWork, List.filter_cons, h, hav, hna, or_self, not_false_iff, decide_true,
          if_true, List.map_cons, List.sum_cons] at ih ⊢
        omega

lemma popComponent_spec {p : String} {xs : List String} (hp : p ∉ xs) (below : List String)
    (onStack : Finset String) (members : List String) :
    ∃ onStack', popComponent p (xs ++ p :: below) onStack members =
      .ok (members ++ xs ++ [p], below, onStack') ∧
      ∀ v, v ∈ onStack' ↔ v ∈ onStack ∧ v ∉ p :: xs := by
  induction xs generalizing onStack members with
  | nil =>
    refine ⟨onStack.erase p, by simp [popComponent], ?_⟩
    intro v
    simp only [Finset.mem_erase, List.mem_singleton]
    tauto
  | cons x xs ih =>
    have hx : x ≠ p := fun he => hp (by simp [he])
    obtain ⟨onStack', he, hm⟩ := ih (fun h => hp (by simp [h])) (onStack.erase x) (members ++ [x])
    refine ⟨onStack', ?_, ?_⟩
    · simpa [popComponent, hx] using he
    · intro v
      rw [hm]
      simp only [Finset.mem_erase, List.mem_cons]
      tauto

def Progress (adj : String → List String) (node : String → Prop) (nodes : List String)
    (st : TarjanState) (cs : List Frame) (o : Exec (TarjanState × List Frame)) : Prop :=
  ∃ st' cs', o = .ok (st', cs') ∧ Sound adj node st' ∧ Control adj node st' cs' ∧
    work adj nodes (st', cs') < work adj nodes (st, cs) ∧ ∀ v ∈ st.indices, v ∈ st'.indices

lemma Sound.notMem_of_sorted {st : TarjanState} (h : Sound adj node st) {p : String}
    {xs below : List String} (hs : st.stack = xs ++ p :: below) :
    p ∉ xs ∧ p ∉ below ∧ (∀ w ∈ below, idxOf st w < idxOf st p) ∧
      (∀ w ∈ xs, idxOf st p < idxOf st w) := by
  have hsorted := hs ▸ h.sorted
  obtain ⟨-, hb, hx⟩ := List.pairwise_append.mp hsorted
  have hb := (List.pairwise_cons.mp hb).1
  refine ⟨fun hp => ?_, fun hp => ?_, hb, fun w hw => hx w hw p (by simp)⟩
  · exact lt_irrefl _ (hx p hp p (by simp))
  · exact lt_irrefl _ (hb p hp)

lemma Sound.nodup_stack {st : TarjanState} (h : Sound adj node st) : st.stack.Nodup := by
  refine h.sorted.imp ?_
  intro a b hab he
  exact lt_irrefl _ (he ▸ hab)

lemma Sound.enter {st : TarjanState} {n : String} (hs : Sound adj node st) (hnew : n ∉ st.indices)
    (hn : node n) (fs : List Frame) : Sound adj node (enterNode st ⟨n, 0, .entering⟩ fs).1 := by
  have hout : n ∉ st.stack ∧ n ∉ doneOf st := by
    rw [hs.visited] at hnew
    tauto
  have hidx : ∀ v ∈ st.stack, (st.indices.insert n st.indexCounter)[v]?.getD 0 = idxOf st v := by
    intro v hv
    have hne : n ≠ v := fun he => hout.1 (he ▸ hv)
    rw [getElem?_insert_of_ne _ hne]
    rfl
  rw [enterNode, if_neg hnew]
  constructor
  · simp [hs.onStack]
  · intro v
    simp only [Std.ExtTreeMap.mem_insert, Std.compare_eq_iff_eq, hs.visited, doneOf, List.mem_cons]
    tauto
  · intro v hv
    rcases List.mem_cons.mp hv with rfl | hv
    · simp
    · simp [hs.lowlinked v hv]
  · intro v hv
    rcases List.mem_cons.mp hv with rfl | hv
    · simp [idxOf]
    · exact (hidx v hv).trans_lt ((hs.bound v hv).trans (Nat.lt_succ_self _))
  · refine List.pairwise_cons.mpr ⟨?_, hs.sorted.imp_of_mem ?_⟩
    · intro v hv
      have := hs.bound v hv
      simpa [idxOf, hidx v hv] using this
    · intro a b ha hb hab
      simp only [idxOf, hidx a ha, hidx b hb]
      exact hab
  · intro v hv
    rcases List.mem_cons.mp hv with rfl | hv
    · exact hout.2
    · exact hs.disjoint v hv
  · exact hs.nodup
  · exact hs.closed
  · exact hs.component
  · intro v hv
    rcases Std.ExtTreeMap.mem_insert.mp hv with he | hv
    · exact Std.compare_eq_iff_eq.mp he ▸ hn
    · exact hs.node v hv

lemma enterNode_spec {nodes : List String} {st : TarjanState} {n : String} {fs : List Frame}
    (hs : Sound adj node st) (hnew : n ∉ st.indices) (hn : node n) (hnodes : n ∈ nodes)
    (hw : Waiting adj st n fs st.stack) :
    Progress adj node nodes st (⟨n, 0, .entering⟩ :: fs) (.ok (enterNode st ⟨n, 0, .entering⟩ fs)) := by
  have hne : ∀ v ∈ st.stack, n ≠ v := fun v hv he => hnew ((hs.visited n).mpr (Or.inl (he ▸ hv)))
  have hsound := hs.enter hnew hn fs
  rw [enterNode, if_neg hnew] at hsound ⊢
  refine ⟨_, _, rfl, hsound, ?_, ?_, ?_⟩
  · refine .neighbors (List.nil_append _).symm
      ⟨by simp, by simp, ?_, ⟨n, by simp, ?_, .refl⟩, by simp, by simp⟩ ?_
    · simp [lowOf, idxOf]
    · simp [lowOf, idxOf]
    · refine hw.congr (List.Subset.refl _) ?_ ?_
      · intro v hv
        simp [idxOf, getElem?_insert_of_ne _ (hne v hv)]
      · intro v hv
        simp [lowOf, getElem?_insert_of_ne _ (hne v hv)]
  · have hindices : ∀ v, v ∈ st.indices.insert n st.indexCounter ↔ n = v ∨ v ∈ st.indices := by
      intro v
      simp only [Std.ExtTreeMap.mem_insert, Std.compare_eq_iff_eq]
    have hle : unvisitedWork adj nodes { st with indices := st.indices.insert n st.indexCounter } +
        (2 * (adj n).length + 3) ≤ unvisitedWork adj nodes st := unvisitedWork_enter hnodes hnew hindices
    simp only [work, unvisitedWork, frameWork, List.map_cons, List.sum_cons] at hle ⊢
    omega
  · intro v hv
    simp [hv]

lemma Sound.setLow {st : TarjanState} (h : Sound adj node st) (p : String) (l : ℕ) :
    Sound adj node { st with lowlinks := st.lowlinks.insert p l } := by
  refine ⟨h.onStack, h.visited, ?_, h.bound, h.sorted, h.disjoint, h.nodup, h.closed, h.component, h.node⟩
  intro v hv
  simp [h.lowlinked v hv]

lemma lowOf_setLow (st : TarjanState) (p : String) (l : ℕ) :
    lowOf { st with lowlinks := st.lowlinks.insert p l } p = l := by
  simp [lowOf]

lemma Suspended.setLow {st : TarjanState} {child p : String} {fs : List Frame} {below : List String}
    (h : Waiting adj st child fs below) (hp : p ∉ below) (l : ℕ) :
    Waiting adj { st with lowlinks := st.lowlinks.insert p l } child fs below := by
  refine h.congr (List.Subset.refl _) (fun _ _ => rfl) ?_
  intro v hv
  have hne : p ≠ v := fun he => hp (he ▸ hv)
  simp [lowOf, getElem?_insert_of_ne _ hne]

lemma work_advance {nodes : List String} {st st' : TarjanState} {p w : String} {k : ℕ} {fs : List Frame}
    (hk : (adj p)[k]? = some w) (hst : st'.indices = st.indices) :
    work adj nodes (st', ⟨p, k + 1, .neighbors⟩ :: fs) + 1 <
      work adj nodes (st, ⟨p, k, .neighbors⟩ :: fs) := by
  have hlt : k < (adj p).length := (List.getElem?_eq_some_iff.mp hk).1
  simp only [work, unvisitedWork, frameWork, List.map_cons, List.sum_cons, hst]
  omega

lemma processNeighbor_spec {adjacency : Adjacency} {nodes : List String} {st : TarjanState} {p : String}
    {k : ℕ} {xs below : List String} {fs : List Frame}
    (hadj : ∀ u, node u → ∀ v ∈ neighborsOf adjacency u, node v)
    (hs : Sound (neighborsOf adjacency) node st) (hstack : st.stack = xs ++ p :: below)
    (hseg : Open (neighborsOf adjacency) st p k xs below)
    (hfs : Waiting (neighborsOf adjacency) st p fs below) :
    Progress (neighborsOf adjacency) node nodes st (⟨p, k, .neighbors⟩ :: fs)
      (processNeighbor adjacency st ⟨p, k, .neighbors⟩ fs) := by
  have hp : p ∈ st.stack := by simp [hstack]
  obtain ⟨-, hpb, -, hxs⟩ := hs.notMem_of_sorted hstack
  rw [processNeighbor]
  cases hk : (neighborsOf adjacency p)[k]? with
  | none =>
    have hlen : (neighborsOf adjacency p).length ≤ k := List.getElem?_eq_none_iff.mp hk
    refine ⟨_, _, rfl, hs, .finishing hstack hseg hfs hlen, ?_, fun _ h => h⟩
    simp only [work, frameWork, List.map_cons, List.sum_cons]
    omega
  | some w =>
    dsimp only
    have hedge : w ∈ neighborsOf adjacency p := List.mem_of_getElem? hk
    by_cases hnew : w ∈ st.indices
    · rw [if_neg (by simpa using hnew)]
      by_cases hon : w ∈ st.onStack
      · have hw : w ∈ st.stack := (hs.onStack w).mp hon
        rw [if_pos hon, index_indices hnew, index_lowlinks (hs.lowlinked p hp)]
        by_cases hlt : idxOf st w < lowOf st p
        · -- The new lowlink is below `p`, so its node lies under `p` on the stack.
          have hwb : w ∈ below := hseg.mem_below hxs (hstack ▸ hw) hlt
          simp only [ok_bind]
          rw [if_pos hlt]
          refine ⟨_, _, rfl, hs.setLow p _, .neighbors hstack ?_ (hfs.setLow hpb _), ?_, fun _ h => h⟩
          · refine (hseg.lower hwb (.single hedge) (lowOf_setLow st p _) hlt.le).advance hk ?_
            exact Or.inr (Or.inr ⟨hwb, (lowOf_setLow st p _).le⟩)
          · exact (Nat.lt_succ_self _).trans (work_advance hk rfl)
        · simp only [ok_bind]
          rw [if_neg hlt]
          exact ⟨_, _, rfl, hs,
            .neighbors hstack (hseg.advance hk (.of_mem_stack (hstack ▸ hw) (not_lt.mp hlt))) hfs,
            (Nat.lt_succ_self _).trans (work_advance hk rfl), fun _ h => h⟩
      · have hdone : w ∈ doneOf st := by
          rw [hs.onStack] at hon
          exact ((hs.visited w).mp hnew).resolve_left hon
        rw [if_neg hon]
        exact ⟨_, _, rfl, hs, .neighbors hstack (hseg.advance hk (Or.inl hdone)) hfs,
          (Nat.lt_succ_self _).trans (work_advance hk rfl), fun _ h => h⟩
    · rw [if_pos hnew]
      refine ⟨_, _, rfl, hs, .entering hnew (hadj p (hs.node p ((hs.visited p).mpr (Or.inl hp))) w hedge) ?_,
        ?_, fun _ h => h⟩
      · rw [hstack]
        exact .cons hk hseg hfs
      · have hadvance : work (neighborsOf adjacency) nodes (st, ⟨p, k + 1, .neighbors⟩ :: fs) + 1 <
            work (neighborsOf adjacency) nodes (st, ⟨p, k, .neighbors⟩ :: fs) := work_advance hk rfl
        simp only [work, List.map_cons, List.sum_cons, frameWork] at hadvance ⊢
        omega

lemma Sound.pop {st : TarjanState} {p : String} {k : ℕ} {xs below : List String} {onStack : Finset String}
    (hs : Sound adj node st) (hstack : st.stack = xs ++ p :: below) (hseg : Open adj st p k xs below)
    (hk : (adj p).length ≤ k) (hroot : lowOf st p = idxOf st p)
    (hon : ∀ v, v ∈ onStack ↔ v ∈ st.onStack ∧ v ∉ p :: xs) :
    Sound adj node { st with
      stack := below, onStack := onStack, result := st.result ++ [⟨(xs ++ [p]).reverse⟩] } := by
  obtain ⟨hpx, hpb, hidx, hidx'⟩ := hs.notMem_of_sorted hstack
  have hmem : ∀ v, v ∈ st.stack ↔ v ∈ p :: xs ∨ v ∈ below := by
    intro v
    simp only [hstack, List.mem_append, List.mem_cons]
    tauto
  have hdisj : ∀ v ∈ below, v ∉ p :: xs := by
    intro v hv hv'
    have hlt := hidx v hv
    rcases List.mem_cons.mp hv' with rfl | hv'
    · omega
    · have := hidx' v hv'
      omega
  have hdone : doneOf { st with
      stack := below, onStack := onStack, result := st.result ++ [⟨(xs ++ [p]).reverse⟩] } =
      doneOf st ++ (p :: xs.reverse) := by
    simp [doneOf]
  have hmem' : ∀ v, v ∈ doneOf st ++ (p :: xs.reverse) ↔ v ∈ p :: xs ∨ v ∈ doneOf st := by
    intro v
    simp only [List.mem_append, List.mem_cons, List.mem_reverse]
    tauto
  obtain ⟨hcomp, hclosed⟩ := hseg.isComponent hk hroot hidx hs.closed
    (fun v hv => hs.disjoint v ((hmem v).mpr (Or.inl hv)))
  have hsorted := (List.pairwise_append.mp (hstack ▸ hs.sorted)).2.1.of_cons
  refine ⟨?_, ?_, fun v hv => hs.lowlinked v ((hmem v).mpr (Or.inr hv)),
    fun v hv => hs.bound v ((hmem v).mpr (Or.inr hv)), hsorted, ?_, ?_, ?_, ?_, hs.node⟩
  · intro v
    rw [hon, hs.onStack, hmem]
    have := hdisj v
    tauto
  · intro v
    rw [hdone, hmem', hs.visited, hmem]
    tauto
  · intro v hv
    rw [hdone, hmem']
    rintro (h | h)
    · exact hdisj v hv h
    · exact hs.disjoint v ((hmem v).mpr (Or.inr hv)) h
  · rw [hdone, List.nodup_append]
    refine ⟨hs.nodup, ?_, ?_⟩
    · have hnd : (xs ++ p :: below).Nodup := hstack ▸ hs.nodup_stack
      simp only [List.nodup_cons, List.mem_reverse, List.nodup_reverse]
      exact ⟨hpx, (List.nodup_append.mp hnd).1⟩
    · intro a ha b hb he
      subst he
      refine hs.disjoint a ((hmem a).mpr (Or.inl ?_)) ha
      simpa only [List.mem_cons, List.mem_reverse] using hb
  · rw [hdone]
    intro u v hu huv
    rw [hmem'] at hu ⊢
    exact hclosed u v hu huv
  · intro c hc
    rcases List.mem_append.mp hc with hc | hc
    · exact hs.component c hc
    · have he : c = ⟨(xs ++ [p]).reverse⟩ := by simpa using hc
      subst he
      exact hcomp.congr (by simp)

lemma work_finish {nodes : List String} {st st' : TarjanState} {p : String} {k : ℕ} {fs : List Frame}
    (hst : st'.indices = st.indices) :
    work adj nodes (st', fs) < work adj nodes (st, ⟨p, k, .finishing⟩ :: fs) := by
  simp only [work, unvisitedWork, frameWork, List.map_cons, List.sum_cons, hst]
  omega

lemma finishNode_eq {st st' : TarjanState} {f : Frame} {fs : List Frame}
    (hparent : updateParentLowlink st f.node fs = .ok st') (hlow : f.node ∈ st'.lowlinks)
    (hidx : f.node ∈ st'.indices) :
    finishNode st f fs = if lowOf st' f.node = idxOf st' f.node then do
      let (members, stack, onStack) ← popComponent f.node st'.stack st'.onStack []
      .ok ({ st' with
        stack := stack, onStack := onStack, result := st'.result ++ [⟨members.reverse⟩] }, fs)
    else .ok (st', fs) := by
  simp only [finishNode, hparent, index_lowlinks hlow, index_indices hidx, ok_bind]

lemma finish_root {nodes : List String} {st : TarjanState} {p : String} {k : ℕ}
    {xs below : List String} {fs : List Frame} (hs : Sound adj node st)
    (hstack : st.stack = xs ++ p :: below) (hseg : Open adj st p k xs below)
    (hfs : Waiting adj st p fs below) (hk : (adj p).length ≤ k) (hroot : lowOf st p = idxOf st p)
    (hparent : updateParentLowlink st p fs = .ok st) :
    Progress adj node nodes st (⟨p, k, .finishing⟩ :: fs) (finishNode st ⟨p, k, .finishing⟩ fs) := by
  have hp : p ∈ st.stack := by simp [hstack]
  obtain ⟨hpx, -, -, -⟩ := hs.notMem_of_sorted hstack
  obtain ⟨onStack, hpop, hon⟩ := popComponent_spec hpx below st.onStack []
  rw [finishNode_eq hparent (hs.lowlinked p hp) ((hs.visited p).mpr (Or.inl hp)), if_pos hroot, hstack, hpop]
  refine ⟨_, _, rfl, hs.pop hstack hseg hk hroot hon, ?_, work_finish rfl, fun _ h => h⟩
  have hsub : doneOf st ⊆ doneOf { st with
      stack := below, onStack := onStack, result := st.result ++ [⟨(xs ++ [p]).reverse⟩] } := by
    intro v hv
    simp only [doneOf, List.flatMap_append, List.mem_append] at hv ⊢
    exact Or.inl hv
  have hdone : p ∈ doneOf { st with
      stack := below, onStack := onStack, result := st.result ++ [⟨(xs ++ [p]).reverse⟩] } := by
    simp [doneOf]
  cases hfs with
  | nil => exact .idle rfl
  | cons hkq hq hgs =>
    refine .neighbors rfl ((hq.congr hsub (fun _ _ => rfl) rfl).advance hkq (Or.inl hdone)) ?_
    exact hgs.congr hsub (fun _ _ => rfl) (fun _ _ => rfl)

lemma finishNode_spec {nodes : List String} {st : TarjanState} {p : String} {k : ℕ}
    {xs below : List String} {fs : List Frame} (hs : Sound adj node st)
    (hstack : st.stack = xs ++ p :: below) (hseg : Open adj st p k xs below)
    (hfs : Waiting adj st p fs below) (hk : (adj p).length ≤ k) :
    Progress adj node nodes st (⟨p, k, .finishing⟩ :: fs) (finishNode st ⟨p, k, .finishing⟩ fs) := by
  have hp : p ∈ st.stack := by simp [hstack]
  have hpv : p ∈ st.indices := (hs.visited p).mpr (Or.inl hp)
  obtain ⟨-, -, hidx, -⟩ := hs.notMem_of_sorted hstack
  have hfs' := hfs
  cases hfs with
  | nil =>
    -- The bottom frame can only point at itself.
    obtain ⟨w, hw, hlow, -⟩ := hseg.low_reach
    have he : w = p := by simpa using hw
    exact finish_root hs hstack hseg hfs' hk (by rw [hlow, he]) rfl
  | @cons _ q j ys below gs hkq hq hgs =>
    have hqs : q ∈ st.stack := by simp [hstack]
    have hqp : q ≠ p := by
      intro he
      have := hidx q (by simp)
      rw [he] at this
      exact lt_irrefl _ this
    have hparent : updateParentLowlink st p (⟨q, j + 1, .neighbors⟩ :: gs) =
        if lowOf st p < lowOf st q then
          .ok { st with lowlinks := st.lowlinks.insert q (lowOf st p) } else .ok st := by
      simp [updateParentLowlink, index_lowlinks (hs.lowlinked p hp), index_lowlinks (hs.lowlinked q hqs)]
    by_cases hroot : lowOf st p = idxOf st p
    · refine finish_root hs hstack hseg hfs' hk hroot ?_
      have hle := hq.low_le
      have hlt := hidx q (by simp)
      rw [hparent, if_neg (by omega)]
    · have hsorted : (ys ++ q :: below).Pairwise (fun a b => idxOf st b < idxOf st a) :=
        (List.pairwise_append.mp (hstack ▸ hs.sorted)).2.1.of_cons
      have hqb : q ∉ below := by
        intro h
        exact lt_irrefl _ ((List.pairwise_cons.mp (List.pairwise_append.mp hsorted).2.1).1 q h)
      have hstack' : st.stack = (xs ++ p :: ys) ++ q :: below := by simp [hstack]
      by_cases hlt : lowOf st p < lowOf st q
      · rw [if_pos hlt] at hparent
        have hlow : lowOf { st with lowlinks := st.lowlinks.insert q (lowOf st p) } p = lowOf st p := by
          simp [lowOf, getElem?_insert_of_ne _ hqp]
        rw [finishNode_eq hparent ((hs.setLow q _).lowlinked p hp) hpv, if_neg (by rw [hlow]; exact hroot)]
        refine ⟨_, _, rfl, hs.setLow q _, .neighbors hstack' ?_ (hgs.setLow hqb _), work_finish rfl,
          fun _ h => h⟩
        exact hq.absorb hgs hseg hk hkq hsorted hroot (by rw [lowOf_setLow]; omega)
      · rw [if_neg hlt] at hparent
        rw [finishNode_eq hparent (hs.lowlinked p hp) hpv, if_neg hroot]
        exact ⟨_, _, rfl, hs, .neighbors hstack' (hq.absorb hgs hseg hk hkq hsorted hroot (by omega)) hgs,
          work_finish rfl, fun _ h => h⟩

theorem stepFrame_spec {adjacency : Adjacency} {nodes : List String} {st : TarjanState} {f : Frame}
    {fs : List Frame} (hadj : ∀ u, node u → ∀ v ∈ neighborsOf adjacency u, node v)
    (hnodes : ∀ v, node v → v ∈ nodes) (hs : Sound (neighborsOf adjacency) node st)
    (hc : Control (neighborsOf adjacency) node st (f :: fs)) :
    Progress (neighborsOf adjacency) node nodes st (f :: fs) (stepFrame adjacency st f fs) := by
  cases hc with
  | entering hnew hn hw => exact enterNode_spec hs hnew hn (hnodes _ hn) hw
  | neighbors hstack hseg hw => exact processNeighbor_spec hadj hs hstack hseg hw
  | finishing hstack hseg hw hk => exact finishNode_spec hs hstack hseg hw hk

end RepoGraph.GraphAlgorithms.Tarjan
