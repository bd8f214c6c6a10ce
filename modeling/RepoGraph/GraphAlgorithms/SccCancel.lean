import RepoGraph.GraphAlgorithms.SccCorrect

/-! Cancellation of the component search: the checkpoint counters are written by the checkpoint alone
and read by nothing else, so a run that is not stopped is the run of the search without checkpoints. -/

namespace RepoGraph.GraphAlgorithms

open Lib Lib.Digraph Tarjan

def visitAllNodes (interval : ℕ) (edges : List DirectedEdge) (cancel : CancelCheck) :
    Exec (ControlFlow × TarjanState) :=
  visitAll (visitFuel (collectNodes edges).size edges.length) interval (searchAdjacency edges) cancel
    (collectNodes edges).toList .initial

def sccAnswers (interval : ℕ) (edges : List DirectedEdge) (cancel : CancelCheck) : Exec (List ControlFlow) := do
  let (_, st) ← visitAllNodes interval edges cancel
  .ok ((List.range st.consulted).map cancel)

namespace TarjanState

def recount (st : TarjanState) (steps consulted : ℕ) : TarjanState :=
  { st with stepsSinceCheck := steps, consulted := consulted }

@[simp] lemma recount_indices (st : TarjanState) (a b : ℕ) : (st.recount a b).indices = st.indices := rfl
@[simp] lemma recount_lowlinks (st : TarjanState) (a b : ℕ) : (st.recount a b).lowlinks = st.lowlinks := rfl
@[simp] lemma recount_onStack (st : TarjanState) (a b : ℕ) : (st.recount a b).onStack = st.onStack := rfl
@[simp] lemma recount_stack (st : TarjanState) (a b : ℕ) : (st.recount a b).stack = st.stack := rfl
@[simp] lemma recount_result (st : TarjanState) (a b : ℕ) : (st.recount a b).result = st.result := rfl
@[simp] lemma recount_consulted (st : TarjanState) (a b : ℕ) : (st.recount a b).consulted = b := rfl
@[simp] lemma recount_recount (st : TarjanState) (a b c d : ℕ) :
    (st.recount a b).recount c d = st.recount c d := rfl

end TarjanState

variable {adjacency : Adjacency} {st : TarjanState} {frame : Frame} {rest : List Frame}

def recountBoth (a b : ℕ) (s : TarjanState × List Frame) : TarjanState × List Frame := (s.1.recount a b, s.2)

lemma enterNode_recount (a b : ℕ) :
    enterNode (st.recount a b) frame rest = recountBoth a b (enterNode st frame rest) := by
  by_cases hv : frame.node ∈ st.indices
  · have hv' : frame.node ∈ (st.recount a b).indices := hv
    rw [enterNode, enterNode, if_pos hv, if_pos hv']
    rfl
  · have hv' : frame.node ∉ (st.recount a b).indices := hv
    rw [enterNode, enterNode, if_neg hv, if_neg hv']
    rfl

lemma processNeighbor_recount (a b : ℕ) : processNeighbor adjacency (st.recount a b) frame rest =
    recountBoth a b <$> processNeighbor adjacency st frame rest := by
  rw [processNeighbor, processNeighbor]
  cases (neighborsOf adjacency frame.node)[frame.neighborIdx]? with
  | none => rfl
  | some w =>
    dsimp only
    by_cases hv : w ∈ st.indices
    · have hv' : w ∈ (st.recount a b).indices := hv
      rw [if_neg (not_not.mpr hv), if_neg (not_not.mpr hv')]
      by_cases hon : w ∈ st.onStack
      · have hon' : w ∈ (st.recount a b).onStack := hon
        rw [if_pos hon, if_pos hon', TarjanState.recount_indices, TarjanState.recount_lowlinks]
        cases index st.indices w with
        | error e => rfl
        | ok i =>
          cases index st.lowlinks frame.node with
          | error e => rfl
          | ok l =>
            simp only [ok_bind]
            by_cases hlt : i < l
            · rw [if_pos hlt, if_pos hlt]
              rfl
            · rw [if_neg hlt, if_neg hlt]
              rfl
      · have hon' : w ∉ (st.recount a b).onStack := hon
        rw [if_neg hon, if_neg hon']
        rfl
    · have hv' : w ∉ (st.recount a b).indices := hv
      rw [if_pos hv, if_pos hv']
      rfl

lemma updateParentLowlink_recount (a b : ℕ) (node : String) :
    updateParentLowlink (st.recount a b) node rest =
      (fun s => s.recount a b) <$> updateParentLowlink st node rest := by
  cases rest with
  | nil => rfl
  | cons parent rest =>
    rw [updateParentLowlink, updateParentLowlink, TarjanState.recount_lowlinks]
    by_cases hp : parent.phase = .neighbors
    · rw [if_pos hp, if_pos hp]
      cases index st.lowlinks node with
      | error e => rfl
      | ok i =>
        cases index st.lowlinks parent.node with
        | error e => rfl
        | ok l =>
          simp only [ok_bind]
          by_cases hlt : i < l
          · rw [if_pos hlt, if_pos hlt]
            rfl
          · rw [if_neg hlt, if_neg hlt]
            rfl
    · rw [if_neg hp, if_neg hp]
      rfl

lemma finishNode_recount (a b : ℕ) :
    finishNode (st.recount a b) frame rest = recountBoth a b <$> finishNode st frame rest := by
  rw [finishNode, finishNode, updateParentLowlink_recount]
  cases updateParentLowlink st frame.node rest with
  | error e => rfl
  | ok s =>
    have hmap : (fun s => s.recount a b) <$> (.ok s : Exec TarjanState) = .ok (s.recount a b) := rfl
    rw [hmap]
    simp only [TarjanState.recount_lowlinks, TarjanState.recount_indices, TarjanState.recount_stack,
      TarjanState.recount_onStack, ok_bind]
    cases index s.lowlinks frame.node with
    | error e => rfl
    | ok l =>
      cases index s.indices frame.node with
      | error e => rfl
      | ok i =>
        simp only [ok_bind]
        by_cases hroot : l = i
        · rw [if_pos hroot, if_pos hroot]
          cases popComponent frame.node s.stack s.onStack [] with
          | error e => rfl
          | ok p => rfl
        · rw [if_neg hroot, if_neg hroot]
          rfl

lemma stepFrame_recount (a b : ℕ) : stepFrame adjacency (st.recount a b) frame rest =
    recountBoth a b <$> stepFrame adjacency st frame rest := by
  simp only [stepFrame]
  split
  · exact congrArg Except.ok (enterNode_recount a b)
  · exact processNeighbor_recount a b
  · exact finishNode_recount a b

lemma stepFrame_consulted {s : TarjanState × List Frame} (h : stepFrame adjacency st frame rest = .ok s) :
    s.1.consulted = st.consulted := by
  have hself : stepFrame adjacency st frame rest =
      recountBoth st.stepsSinceCheck st.consulted <$> stepFrame adjacency st frame rest :=
    stepFrame_recount st.stepsSinceCheck st.consulted
  rw [h] at hself
  exact congrArg (fun p => p.1.consulted) (Except.ok.inj hself)

lemma checkpoint_spec (interval : ℕ) (cancel : CancelCheck) (st : TarjanState)
    (hquiet : ∀ n < st.consulted, cancel n = .cont) :
    (∃ st', checkpoint interval cancel st = (.brk, st') ∧ ∃ n < st'.consulted, cancel n = .brk) ∨
      checkpoint interval cancel st = checkpoint interval (fun _ => .cont) st ∧
        ∀ n < (checkpoint interval cancel st).2.consulted, cancel n = .cont := by
  rw [checkpoint, checkpoint]
  split
  · cases hc : cancel st.consulted with
    | brk => exact Or.inl ⟨_, rfl, st.consulted, Nat.lt_succ_self _, hc⟩
    | cont =>
      refine Or.inr ⟨rfl, ?_⟩
      intro n hn
      rcases Nat.lt_succ_iff_lt_or_eq.mp hn with hn | rfl
      · exact hquiet n hn
      · exact hc
  · exact Or.inr ⟨rfl, hquiet⟩

def Tracks (cancel : CancelCheck) (whole : ControlFlow × TarjanState)
    (o : Exec (ControlFlow × TarjanState)) : Prop :=
  o = .ok whole ∧ (∀ n < whole.2.consulted, cancel n = .cont) ∨
    ∃ st, o = .ok (.brk, st) ∧ ∃ n < st.consulted, cancel n = .brk

lemma tarjanVisit_tracks (cancel : CancelCheck) {fuel interval : ℕ} {start : String}
    {whole : ControlFlow × TarjanState} (hquiet : ∀ n < st.consulted, cancel n = .cont)
    (h : tarjanVisit fuel interval adjacency (fun _ => .cont) start st = .ok whole) :
    Tracks cancel whole (tarjanVisit fuel interval adjacency cancel start st) := by
  have hround : ∀ s : TarjanState × List Frame, (∀ n < s.1.consulted, cancel n = .cont) →
      (∃ r, visitStep interval adjacency cancel s = .ok (.inr r) ∧
        r.1 = .brk ∧ ∃ n < r.2.consulted, cancel n = .brk) ∨
      visitStep interval adjacency cancel s = visitStep interval adjacency (fun _ => .cont) s ∧
        (∀ s', visitStep interval adjacency (fun _ => .cont) s = .ok (.inl s') →
          ∀ n < s'.1.consulted, cancel n = .cont) ∧
        ∀ r, visitStep interval adjacency (fun _ => .cont) s = .ok (.inr r) →
          ∀ n < r.2.consulted, cancel n = .cont := by
    rintro ⟨st, fs⟩ hq
    cases fs with
    | nil =>
      refine Or.inr ⟨rfl, by simp [visitStep], ?_⟩
      intro r hr
      obtain rfl := Sum.inr.inj (Except.ok.inj hr)
      exact hq
    | cons f fs =>
      rcases checkpoint_spec interval cancel st hq with ⟨st', hbrk, hn⟩ | ⟨hsame, hq'⟩
      · exact Or.inl ⟨(.brk, st'), by simp [visitStep, hbrk], rfl, hn⟩
      · have hnever := checkpoint_never interval st
        rcases hcp : checkpoint interval (fun _ => .cont) st with ⟨flow, st'⟩
        rw [hcp] at hnever hsame
        rw [hsame] at hq'
        obtain rfl : flow = .cont := hnever
        refine Or.inr ⟨by simp [visitStep, hcp, hsame], ?_, ?_⟩
        · intro s' hs'
          simp only [visitStep, hcp] at hs'
          obtain ⟨s'', hstep, he⟩ := map_eq_ok.mp hs'
          obtain rfl := Sum.inl.inj he
          rw [stepFrame_consulted hstep]
          exact hq'
        · intro r hr
          simp only [visitStep, hcp] at hr
          obtain ⟨s'', -, he⟩ := map_eq_ok.mp hr
          cases he
  rcases loop_interrupted hround hquiet h with hsame | ⟨⟨flow, st'⟩, hloop, hflow, hn⟩
  · exact Or.inl hsame
  · dsimp only at hflow
    subst hflow
    exact Or.inr ⟨st', hloop, hn⟩

lemma visitAll_tracks {fuel interval : ℕ} {cancel : CancelCheck} {starts : List String}
    {whole : ControlFlow × TarjanState} {st : TarjanState} (hquiet : ∀ n < st.consulted, cancel n = .cont)
    (h : visitAll fuel interval adjacency (fun _ => .cont) starts st = .ok whole) :
    Tracks cancel whole (visitAll fuel interval adjacency cancel starts st) := by
  induction starts generalizing st with
  | nil =>
    obtain rfl := Except.ok.inj h
    exact Or.inl ⟨rfl, hquiet⟩
  | cons start starts ih =>
    rw [visitAll] at h ⊢
    by_cases hv : start ∈ st.indices
    · rw [if_pos hv] at h ⊢
      exact ih hquiet h
    · rw [if_neg hv] at h ⊢
      obtain ⟨⟨flow, st₁⟩, hvisit, hrest⟩ := bind_ok.mp h
      rcases tarjanVisit_tracks cancel hquiet hvisit with ⟨hsame, hq⟩ | ⟨st', hbrk, hn⟩
      · rw [hsame, ok_bind]
        cases flow with
        | brk =>
          obtain rfl := Except.ok.inj hrest
          exact Or.inl ⟨rfl, hq⟩
        | cont => exact ih hq hrest
      · exact Or.inr ⟨st', by rw [hbrk, ok_bind], hn⟩

lemma checkpoint_continues (interval : ℕ) (st : TarjanState) :
    ∃ a b, checkpoint interval (fun _ => .cont) st = (.cont, st.recount a b) := by
  obtain ⟨a, b, h⟩ := checkpoint_counters interval (fun _ => .cont) st
  exact ⟨a, b, Prod.ext (checkpoint_never interval st) h⟩

lemma tarjanVisit_interval {fuel interval : ℕ} {start : String} {flow : ControlFlow} {st st₁ : TarjanState}
    (h : tarjanVisit fuel interval adjacency (fun _ => .cont) start st = .ok (flow, st₁))
    (interval' a b : ℕ) : ∃ a' b', tarjanVisit fuel interval' adjacency (fun _ => .cont) start (st.recount a b) =
      .ok (flow, st₁.recount a' b') := by
  have hround : ∀ s s' : TarjanState × List Frame, (∃ a b, s' = recountBoth a b s) →
      (∀ t, visitStep interval adjacency (fun _ => .cont) s = .ok (.inl t) →
        ∃ t', visitStep interval' adjacency (fun _ => .cont) s' = .ok (.inl t') ∧
          ∃ a b, t' = recountBoth a b t) ∧
      ∀ r, visitStep interval adjacency (fun _ => .cont) s = .ok (.inr r) →
        ∃ r', visitStep interval' adjacency (fun _ => .cont) s' = .ok (.inr r') ∧
          ∃ a b, r' = (r.1, r.2.recount a b) := by
    rintro ⟨st, fs⟩ _ ⟨a, b, rfl⟩
    cases fs with
    | nil =>
      refine ⟨by simp [visitStep], ?_⟩
      intro r hr
      obtain rfl := Sum.inr.inj (Except.ok.inj hr)
      exact ⟨_, rfl, a, b, rfl⟩
    | cons f fs =>
      obtain ⟨c, d, hcp⟩ := checkpoint_continues interval st
      obtain ⟨c', d', hcp'⟩ := checkpoint_continues interval' (st.recount a b)
      simp only [visitStep, recountBoth, hcp, hcp', TarjanState.recount_recount, stepFrame_recount]
      constructor
      · intro t ht
        obtain ⟨_, hstep, he⟩ := map_eq_ok.mp ht
        obtain ⟨s, hs, rfl⟩ := map_eq_ok.mp hstep
        obtain rfl := Sum.inl.inj he
        rw [hs]
        exact ⟨_, rfl, c', d', rfl⟩
      · intro r hr
        obtain ⟨_, -, he⟩ := map_eq_ok.mp hr
        cases he
  obtain ⟨r', hloop, a', b', rfl⟩ := loop_related hround ⟨a, b, rfl⟩ h
  exact ⟨a', b', hloop⟩

lemma visitAll_interval {fuel interval : ℕ} {starts : List String} {flow : ControlFlow} {st st₁ : TarjanState}
    (h : visitAll fuel interval adjacency (fun _ => .cont) starts st = .ok (flow, st₁)) (interval' a b : ℕ) :
    ∃ a' b', visitAll fuel interval' adjacency (fun _ => .cont) starts (st.recount a b) =
      .ok (flow, st₁.recount a' b') := by
  induction starts generalizing st a b with
  | nil =>
    obtain ⟨rfl, rfl⟩ := Prod.mk.inj (Except.ok.inj h)
    exact ⟨a, b, rfl⟩
  | cons start starts ih =>
    rw [visitAll] at h ⊢
    by_cases hv : start ∈ st.indices
    · have hv' : start ∈ (st.recount a b).indices := hv
      rw [if_pos hv] at h
      rw [if_pos hv']
      exact ih h a b
    · have hv' : start ∉ (st.recount a b).indices := hv
      rw [if_neg hv] at h
      rw [if_neg hv']
      obtain ⟨⟨flow', st'⟩, hvisit, hrest⟩ := bind_ok.mp h
      obtain ⟨a', b', hvisit'⟩ := tarjanVisit_interval hvisit interval' a b
      rw [hvisit', ok_bind]
      cases flow' with
      | brk =>
        obtain ⟨rfl, rfl⟩ := Prod.mk.inj (Except.ok.inj hrest)
        exact ⟨a', b', rfl⟩
      | cont => exact ih hrest a' b'

def sccOutcome (edges : List DirectedEdge) : ControlFlow × TarjanState → Except Cancelled SccResult
  | (.brk, _) => .error .cancelled
  | (.cont, st) =>
    .ok ⟨st.result, st.result.filter Scc.isCycle, (collectNodes edges).size, edges.length⟩

lemma findSccsEvery_eq (interval : ℕ) (edges : List DirectedEdge) (cancel : CancelCheck) :
    findSccsEvery interval edges cancel = sccOutcome edges <$> visitAllNodes interval edges cancel := by
  rw [findSccsEvery, visitAllNodes, searchAdjacency]
  cases visitAll _ interval _ cancel (collectNodes edges).toList .initial with
  | error e => rfl
  | ok r =>
    obtain ⟨flow, st⟩ := r
    cases flow <;> rfl

lemma findSccsEvery_interval {interval : ℕ} {edges : List DirectedEdge} {r : SccResult}
    (h : findSccsEvery interval edges (fun _ => .cont) = .ok (.ok r)) (interval' : ℕ) :
    findSccsEvery interval' edges (fun _ => .cont) = .ok (.ok r) := by
  rw [findSccsEvery_eq] at h ⊢
  obtain ⟨⟨flow, st⟩, hvisit, hr⟩ := map_eq_ok.mp h
  obtain ⟨a, b, hvisit'⟩ := visitAll_interval hvisit interval' 0 0
  refine map_eq_ok.mpr ⟨_, hvisit', ?_⟩
  rw [← hr]
  cases flow <;> rfl

/-- Whatever the interval and the answers, the search is cancelled by a `brk` among the answers it was
given and by nothing else, and returns the components of `findSccs` otherwise. -/
lemma findSccsEvery_transparent (interval : ℕ) (edges : List DirectedEdge) (cancel : CancelCheck) :
    ∃ r answers, findSccs edges = .ok r ∧ sccAnswers interval edges cancel = .ok answers ∧
      findSccsEvery interval edges cancel = .ok (if .brk ∈ answers then .error .cancelled else .ok r) := by
  obtain ⟨r, hdefault, -⟩ := findSccsEvery_partition cancelCheckInterval edges
  have hnever := findSccsEvery_interval hdefault interval
  rw [findSccsEvery_eq] at hnever
  obtain ⟨⟨flow, st⟩, hvisit, hr⟩ := map_eq_ok.mp hnever
  have htracks : Tracks cancel (flow, st) (visitAllNodes interval edges cancel) :=
    visitAll_tracks (by simp [TarjanState.initial]) hvisit
  rw [findSccsEvery_eq, sccAnswers]
  rcases htracks with ⟨hsame, hquiet⟩ | ⟨st', hbrk, n, hn, hc⟩
  · refine ⟨r, _, findSccs_eq edges hdefault, by rw [hsame, ok_bind], ?_⟩
    have hnot : ControlFlow.brk ∉ (List.range st.consulted).map cancel := by
      intro hmem
      obtain ⟨n, hn, he⟩ := List.mem_map.mp hmem
      have := hquiet n (List.mem_range.mp hn)
      simp [he] at this
    rw [hsame, if_neg hnot]
    exact congrArg Except.ok hr
  · refine ⟨r, _, findSccs_eq edges hdefault, by rw [hbrk, ok_bind], ?_⟩
    have hmem : ControlFlow.brk ∈ (List.range st'.consulted).map cancel :=
      List.mem_map.mpr ⟨n, List.mem_range.mpr hn, hc⟩
    rw [hbrk, if_pos hmem]
    rfl

lemma findSccsCancellable_partition (edges : List DirectedEdge) (cancel : CancelCheck) :
    (findSccsCancellable edges cancel = .ok (.error .cancelled) ∧ ∃ n, cancel n = .brk) ∨
      ∃ r, findSccsCancellable edges cancel = .ok (.ok r) ∧
        IsPartition (Arc edges) (· ∈ endpoints edges) (r.allSccs.map Scc.members) ∧
        r.cycles = r.allSccs.filter Scc.isCycle := by
  obtain ⟨r, answers, hr, hanswers, hrun⟩ := findSccsEvery_transparent cancelCheckInterval edges cancel
  obtain ⟨r', hwhole, hpart, hcycles, -, -⟩ := findSccsEvery_partition cancelCheckInterval edges
  obtain rfl : r' = r := Except.ok.inj ((findSccs_eq edges hwhole).symm.trans hr)
  by_cases hbrk : ControlFlow.brk ∈ answers
  · rw [if_pos hbrk] at hrun
    refine Or.inl ⟨hrun, ?_⟩
    obtain ⟨⟨flow, st⟩, -, hlist⟩ := bind_ok.mp hanswers
    obtain rfl := Except.ok.inj hlist
    obtain ⟨n, -, hn⟩ := List.mem_map.mp hbrk
    exact ⟨n, hn⟩
  · rw [if_neg hbrk] at hrun
    exact Or.inr ⟨r', hrun, hpart, hcycles⟩

def SccResult.cycleSets (r : SccResult) : List (BTreeSet String) :=
  r.cycles.map fun scc => .ofList scc.members compare

section CycleSets

variable {edges : List DirectedEdge} {r : SccResult}

lemma mem_ofList_members {scc : Scc} {v : String} :
    v ∈ (.ofList scc.members compare : BTreeSet String) ↔ v ∈ scc.members := by
  rw [Std.ExtTreeSet.mem_ofList, List.contains_iff_mem]

lemma nodup_cycleSets (hpart : IsPartition (Arc edges) (· ∈ endpoints edges) (r.allSccs.map Scc.members))
    (hcycles : r.cycles = r.allSccs.filter Scc.isCycle) : r.cycleSets.Nodup := by
  have hdisjoint : (r.allSccs.filter Scc.isCycle).Pairwise fun c c' => List.Disjoint c.members c'.members :=
    (List.pairwise_map.mp (List.nodup_flatten.mp hpart.nodup).2).filter _
  rw [SccResult.cycleSets, hcycles, List.nodup_iff_pairwise_ne, List.pairwise_map]
  refine hdisjoint.imp_of_mem ?_
  intro c c' hc _ hcc' he
  have hmem : c.members ∈ r.allSccs.map Scc.members := List.mem_map_of_mem (List.mem_filter.mp hc).1
  obtain ⟨v, hv⟩ := List.exists_mem_of_ne_nil _ (hpart.component _ hmem).nonempty
  refine hcc' hv (mem_ofList_members.mp ?_)
  rw [← he]
  exact mem_ofList_members.mpr hv

lemma mem_cycleSets (hpart : IsPartition (Arc edges) (· ∈ endpoints edges) (r.allSccs.map Scc.members))
    (hcycles : r.cycles = r.allSccs.filter Scc.isCycle) {s : BTreeSet String} :
    s ∈ r.cycleSets ↔ IsComponentSet (Arc edges) {v | v ∈ s} ∧ 1 < s.size := by
  have hset : ∀ c : Scc, {v | v ∈ c.members} = {v | v ∈ (.ofList c.members compare : BTreeSet String)} := by
    intro c
    ext v
    exact mem_ofList_members.symm
  have hsize : ∀ c ∈ r.allSccs, (.ofList c.members compare : BTreeSet String).size = c.members.length := by
    intro c hc
    have hnodup := (List.nodup_flatten.mp hpart.nodup).1 c.members (List.mem_map_of_mem hc)
    exact size_eq_length hnodup fun v => mem_ofList_members
  rw [SccResult.cycleSets, hcycles, List.mem_map]
  constructor
  · rintro ⟨c, hc, rfl⟩
    obtain ⟨hc, hcycle⟩ := List.mem_filter.mp hc
    refine ⟨?_, ?_⟩
    · rw [← hset, ← isComponentSet_iff]
      exact hpart.component _ (List.mem_map_of_mem hc)
    · rw [hsize c hc]
      simpa [Scc.isCycle] using hcycle
  · rintro ⟨hs, hlt⟩
    obtain ⟨u, hu⟩ := hs.1
    obtain ⟨v, hv, hne⟩ := exists_ne_of_one_lt_size hlt u
    obtain ⟨w, hw⟩ := ((hs.2 u hu v).mp hv).exists_edge hne.symm
    obtain ⟨_, hmem, huc⟩ := List.mem_flatten.mp ((hpart.mem_iff u).mpr (mem_endpoints_of_arc hw).1)
    obtain ⟨c, hc, rfl⟩ := List.mem_map.mp hmem
    have hcomp := isComponentSet_iff.mp (hpart.component _ hmem)
    have heq : (.ofList c.members compare : BTreeSet String) = s := by
      have hsets := hcomp.eq_of_mem hs (u := u) huc hu
      rw [hset] at hsets
      refine Std.ExtTreeSet.ext_mem fun x => ?_
      exact Set.ext_iff.mp hsets x
    refine ⟨c, List.mem_filter.mpr ⟨hc, ?_⟩, heq⟩
    rw [← heq, hsize c hc] at hlt
    simpa [Scc.isCycle] using hlt

end CycleSets

end RepoGraph.GraphAlgorithms
