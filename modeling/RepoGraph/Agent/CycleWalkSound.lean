import RepoGraph.Agent.CycleWalk

/-! The search for the walk of a cycle: what one round keeps, and what a search that finds no edge back into its
path has settled. -/

namespace RepoGraph.Agent

open Lib Lib.Digraph

section Search

variable (neighbours : String → List String)

def Follows (u v : String) : Prop := v ∈ neighbours u

/-- What the frames have read lies behind the search, but for the node on top of each frame. -/
def Scanned (visited : HashSet String) : Option String → List String → List ℕ → Prop
  | _, [], [] => True
  | above, node :: path, i :: cursor =>
    (∀ v ∈ (neighbours node).take i, v ∈ visited ∨ above = some v) ∧ Scanned visited (some node) path cursor
  | _, _, _ => False

structure Searching (nodes : Finset String) (start : String) (before : HashSet String)
    (s : CycleSearch) : Prop where
  chain : s.path.IsChain fun v u => Follows neighbours u v
  nodup : s.path.Nodup
  onPath : ∀ v, v ∈ s.onPath ↔ v ∈ s.path
  settled : Settled (Follows neighbours) (· ∈ s.visited)
  fresh : ∀ v ∈ s.path, v ∉ s.visited
  scanned : Scanned neighbours s.visited none s.path s.cursor
  inside : ∀ v, v ∈ s.path ∨ v ∈ s.visited → v ∈ nodes
  started : start ∈ s.path ∨ start ∈ s.visited
  grown : ∀ v ∈ before, v ∈ s.visited

def searchWork (nodes : Finset String) (s : CycleSearch) : ℕ :=
  ∑ v ∈ nodes.filter (fun v => v ∉ s.visited ∧ v ∉ s.path), ((neighbours v).length + 2) +
    (List.zipWith (fun node i => (neighbours node).length - i + 1) s.path s.cursor).sum

variable {neighbours} {nodes : Finset String} {start : String} {before visited visited' : HashSet String}

lemma Scanned.mono {above above' : Option String} {path : List String} {cursor : List ℕ}
    (h : Scanned neighbours visited above path cursor) (hvisited : ∀ v ∈ visited, v ∈ visited')
    (habove : ∀ v, above = some v → v ∈ visited' ∨ above' = some v) :
      Scanned neighbours visited' above' path cursor := by
  induction path generalizing above above' cursor with
  | nil => cases cursor <;> exact h
  | cons node path ih =>
    cases cursor with
    | nil => exact h
    | cons i cursor =>
      refine ⟨?_, ih h.2 fun v hv => .inr hv⟩
      intro v hv
      rcases h.1 v hv with hv | hv
      · exact .inl (hvisited v hv)
      · exact habove v hv

lemma Scanned.read {path : List String} {cursor : List ℕ} {node next : String} {i : ℕ} {above : Option String}
    (h : Scanned neighbours visited none (node :: path) (i :: cursor)) (hnext : (neighbours node)[i]? = some next)
    (habove : next ∈ visited ∨ above = some next) : Scanned neighbours visited above (node :: path)
      ((i + 1) :: cursor) := by
  refine ⟨?_, h.2⟩
  intro v hv
  rw [List.take_add_one, hnext] at hv
  rcases List.mem_append.mp hv with hv | hv
  · exact .inl ((h.1 v hv).resolve_right (by simp))
  · obtain rfl : v = next := by simpa using hv
    exact habove

lemma isRing_of_back {path : List String} {node next : String} {k : ℕ}
    (hchain : (node :: path).IsChain fun v u => Follows neighbours u v) (hnodup : (node :: path).Nodup)
    (hnext : next ∈ neighbours node) (hk : (node :: path).reverse.idxOf? next = some k) :
    IsRing (Follows neighbours) ((node :: path).reverse.drop k) := by
  obtain ⟨hlt, hget, -⟩ := List.idxOf?_eq_some_iff.mp hk
  refine ⟨(List.nodup_reverse.mpr hnodup).sublist (List.drop_sublist _ _),
    (List.isChain_reverse.mpr hchain).drop k, node, next, ?_, ?_, hnext⟩
  · rw [List.getLast?_drop, if_neg (by omega), List.getLast?_reverse]
    rfl
  · rw [List.head?_drop, List.getElem?_eq_getElem hlt, hget]

def SearchEnds (neighbours : String → List String) (nodes : Finset String) (start : String)
    (before : HashSet String) :
    Option (List String) × HashSet String → Prop
  | (some ring, _) => IsRing (Follows neighbours) ring ∧ ∀ v ∈ ring, v ∈ nodes
  | (none, visited) => Settled (Follows neighbours) (· ∈ visited) ∧ (∀ v ∈ visited, v ∈ nodes) ∧ start ∈ visited ∧
      ∀ v ∈ before, v ∈ visited

lemma mem_take_self {l : List String} {i : ℕ} (h : l[i]? = none) : l.take i = l :=
  List.take_of_length_le (List.getElem?_eq_none_iff.mp h)

lemma Searching.push {path : List String} {cursor : List ℕ} {node next : String} {i : ℕ} {onPath : HashSet String}
    (h : Searching neighbours nodes start before ⟨node :: path, onPath, i :: cursor, visited⟩)
    (hnext : (neighbours node)[i]? = some next) (hpath : next ∉ onPath) (hvisited : next ∉ visited)
    (hnode : next ∈ nodes) : Searching neighbours nodes start before
      ⟨next :: node :: path, onPath.insert next, 0 :: (i + 1) :: cursor, visited⟩ := by
  have hnotin : next ∉ node :: path := fun hin => hpath ((h.onPath next).mpr hin)
  refine ⟨?_, List.nodup_cons.mpr ⟨hnotin, h.nodup⟩, ?_, h.settled, ?_, ?_, ?_, ?_, h.grown⟩
  · exact List.isChain_cons_cons.mpr ⟨List.mem_of_getElem? hnext, h.chain⟩
  · intro v
    rw [Std.ExtTreeSet.mem_insert, Std.compare_eq_iff_eq, List.mem_cons (a := v) (b := next), h.onPath v, eq_comm]
  · intro v hv
    rcases List.mem_cons.mp hv with rfl | hv
    · exact hvisited
    · exact h.fresh v hv
  · refine ⟨?_, h.scanned.read hnext (.inr rfl)⟩
    intro v hv
    simp at hv
  · intro v hv
    rcases hv with hv | hv
    · rcases List.mem_cons.mp hv with rfl | hv
      · exact hnode
      · exact h.inside v (.inl hv)
    · exact h.inside v (.inr hv)
  · exact h.started.imp (List.mem_cons_of_mem _) id

lemma Searching.skip {path : List String} {cursor : List ℕ} {node next : String} {i : ℕ} {onPath : HashSet String}
    (h : Searching neighbours nodes start before ⟨node :: path, onPath, i :: cursor, visited⟩)
    (hnext : (neighbours node)[i]? = some next) (hvisited : next ∈ visited) :
    Searching neighbours nodes start before ⟨node :: path, onPath, (i + 1) :: cursor, visited⟩ :=
  ⟨h.chain, h.nodup, h.onPath, h.settled, h.fresh, h.scanned.read hnext (.inl hvisited),
    h.inside, h.started, h.grown⟩

lemma Searching.pop {path : List String} {cursor : List ℕ} {node : String} {i : ℕ} {onPath : HashSet String}
    (h : Searching neighbours nodes start before ⟨node :: path, onPath, i :: cursor, visited⟩)
    (hend : (neighbours node)[i]? = none) :
    Searching neighbours nodes start before ⟨path, onPath.erase node, cursor, visited.insert node⟩ := by
  obtain ⟨hread, hbelow⟩ := h.scanned
  obtain ⟨hnotin, hnodup⟩ := List.nodup_cons.mp h.nodup
  have hmem : ∀ v, v ∈ visited.insert node ↔ v = node ∨ v ∈ visited := by
    intro v
    rw [Std.ExtTreeSet.mem_insert, Std.compare_eq_iff_eq, eq_comm]
  have hout : ∀ v, Follows neighbours node v → v ∈ visited := by
    intro v hv
    rw [mem_take_self hend] at hread
    exact (hread v hv).resolve_right (by simp)
  refine ⟨h.chain.tail, hnodup, ?_, h.settled.insert (h.fresh node List.mem_cons_self) hout hmem, ?_,
    ?_, ?_, ?_, ?_⟩
  · intro v
    rw [Std.ExtTreeSet.mem_erase, h.onPath, List.mem_cons]
    simp only [ne_eq, Std.compare_eq_iff_eq]
    constructor
    · rintro ⟨hne, rfl | hv⟩
      · exact absurd rfl hne
      · exact hv
    · intro hv
      refine ⟨?_, .inr hv⟩
      rintro rfl
      exact hnotin hv
  · intro v hv hin
    rcases (hmem v).mp hin with rfl | hin
    · exact hnotin hv
    · exact h.fresh v (List.mem_cons_of_mem _ hv) hin
  · apply Scanned.mono hbelow
    · exact fun v hv => (hmem v).mpr (.inr hv)
    · intro v hv
      exact .inl ((hmem v).mpr (.inl (Option.some.inj hv).symm))
  · intro v hv
    rw [hmem] at hv
    rcases hv with hv | rfl | hv
    · exact h.inside v (.inl (List.mem_cons_of_mem _ hv))
    · exact h.inside v (.inl List.mem_cons_self)
    · exact h.inside v (.inr hv)
  · rw [hmem]
    rcases h.started with hin | hin
    · rcases List.mem_cons.mp hin with rfl | hin
      · exact .inr (.inl rfl)
      · exact .inl hin
    · exact .inr (.inr hin)
  · exact fun v hv => (hmem v).mpr (.inr (h.grown v hv))

lemma searchWork_skip {path : List String} {cursor : List ℕ} {node next : String} {i : ℕ} {onPath : HashSet String}
    (hnext : (neighbours node)[i]? = some next) :
    searchWork neighbours nodes ⟨node :: path, onPath, (i + 1) :: cursor, visited⟩ <
      searchWork neighbours nodes ⟨node :: path, onPath, i :: cursor, visited⟩ := by
  have hlt : i < (neighbours node).length := (List.getElem?_eq_some_iff.mp hnext).1
  simp only [searchWork, List.zipWith_cons_cons, List.sum_cons]
  omega

lemma searchWork_push {path : List String} {cursor : List ℕ} {node next : String} {i : ℕ}
    {onPath onPath' : HashSet String} (hnext : (neighbours node)[i]? = some next) (hnode : next ∈ nodes)
    (hpath : next ∉ node :: path) (hvisited : next ∉ visited) :
    searchWork neighbours nodes ⟨next :: node :: path, onPath', 0 :: (i + 1) :: cursor, visited⟩ <
      searchWork neighbours nodes ⟨node :: path, onPath, i :: cursor, visited⟩ := by
  have hlt : i < (neighbours node).length := (List.getElem?_eq_some_iff.mp hnext).1
  have herase : nodes.filter (fun v => v ∉ visited ∧ v ∉ next :: node :: path) =
      (nodes.filter fun v => v ∉ visited ∧ v ∉ node :: path).erase next := by
    ext v
    simp only [Finset.mem_filter, Finset.mem_erase, List.mem_cons (a := v) (b := next)]
    tauto
  have hsum := Finset.sum_erase_add (nodes.filter fun v => v ∉ visited ∧ v ∉ node :: path)
    (fun v => (neighbours v).length + 2) (Finset.mem_filter.mpr ⟨hnode, hvisited, hpath⟩)
  simp only [searchWork, List.zipWith_cons_cons, List.sum_cons, herase]
  omega

lemma searchWork_pop {path : List String} {cursor : List ℕ} {node : String} {i : ℕ}
    {onPath onPath' : HashSet String} :
    searchWork neighbours nodes ⟨path, onPath', cursor, visited.insert node⟩ <
      searchWork neighbours nodes ⟨node :: path, onPath, i :: cursor, visited⟩ := by
  have hsame : nodes.filter (fun v => v ∉ visited.insert node ∧ v ∉ path) =
      nodes.filter fun v => v ∉ visited ∧ v ∉ node :: path := by
    apply Finset.filter_congr
    intro v _
    rw [Std.ExtTreeSet.mem_insert, Std.compare_eq_iff_eq, List.mem_cons]
    tauto
  simp only [searchWork, List.zipWith_cons_cons, List.sum_cons, hsame]
  omega

lemma cycleStep_round (hclosed : ∀ u ∈ nodes, ∀ v ∈ neighbours u, v ∈ nodes) {s : CycleSearch}
    (hs : Searching neighbours nodes start before s) :
    Round (Searching neighbours nodes start before) (searchWork neighbours nodes)
      (SearchEnds neighbours nodes start before) s (cycleStep neighbours s) := by
  obtain ⟨path, onPath, cursor, visited⟩ := s
  cases path with
  | nil =>
    refine .inr ⟨(none, visited), rfl, hs.settled, fun v hv => hs.inside v (.inr hv), ?_, hs.grown⟩
    exact hs.started.resolve_left (by simp)
  | cons node path =>
    cases cursor with
    | nil => exact hs.scanned.elim
    | cons i cursor =>
      have hnode : node ∈ nodes := hs.inside node (.inl List.mem_cons_self)
      cases hnext : (neighbours node)[i]? with
      | none => exact .inl ⟨_, cycleStep_pop hnext, hs.pop hnext, searchWork_pop⟩
      | some next =>
        have hmem : next ∈ neighbours node := List.mem_of_getElem? hnext
        by_cases hpath : next ∈ onPath
        · rw [cycleStep_back hnext hpath]
          have hin : next ∈ (node :: path).reverse := List.mem_reverse.mpr ((hs.onPath next).mp hpath)
          cases hk : (node :: path).reverse.idxOf? next with
          | none => exact absurd hin (List.idxOf?_eq_none_iff.mp hk)
          | some k =>
            refine .inr ⟨_, rfl, isRing_of_back hs.chain hs.nodup hmem hk, ?_⟩
            intro v hv
            exact hs.inside v (.inl (List.mem_reverse.mp (List.mem_of_mem_drop hv)))
        · have hnew : next ∉ node :: path := fun hin => hpath ((hs.onPath next).mpr hin)
          by_cases hvisited : next ∈ visited
          · exact .inl ⟨_, cycleStep_skip hnext hpath hvisited, hs.skip hnext hvisited, searchWork_skip hnext⟩
          · have hnext' := hclosed node hnode next hmem
            exact .inl ⟨_, cycleStep_push hnext hpath hvisited, hs.push hnext hpath hvisited hnext',
              searchWork_push hnext hnext' hnew hvisited⟩

lemma searching_start (hsettled : Settled (Follows neighbours) (· ∈ visited)) (hinside : ∀ v ∈ visited, v ∈ nodes)
    (hstart : start ∈ nodes) (hfresh : start ∉ visited) :
    Searching neighbours nodes start visited ⟨[start], Std.ExtTreeSet.ofList [start] compare, [0], visited⟩ := by
  refine ⟨List.isChain_singleton _, List.nodup_singleton _, ?_, hsettled, ?_, ?_, ?_,
    .inl (by simp), fun v hv => hv⟩
  · intro v
    rw [Std.ExtTreeSet.mem_ofList, List.contains_iff_mem]
  · intro v hv
    obtain rfl := List.mem_singleton.mp hv
    exact hfresh
  · exact ⟨fun v hv => by simp at hv, trivial⟩
  · intro v hv
    rcases hv with hv | hv
    · obtain rfl := List.mem_singleton.mp hv
      exact hstart
    · exact hinside v hv

lemma searchWork_start_lt {members : List (String × String)} (hids : (members.map Prod.fst).Nodup)
    (hstart : start ∈ (members.map Prod.fst).toFinset) {onPath : HashSet String} :
    searchWork neighbours (members.map Prod.fst).toFinset ⟨[start], onPath, [0], visited⟩ <
      walkFuel neighbours members := by
  have hsub : (members.map Prod.fst).toFinset.filter (fun v => v ∉ visited ∧ v ∉ [start]) ⊆
      (members.map Prod.fst).toFinset.erase start := by
    intro v hv
    obtain ⟨hv, -, hne⟩ := Finset.mem_filter.mp hv
    exact Finset.mem_erase.mpr ⟨by simpa using hne, hv⟩
  have hle := Finset.sum_le_sum_of_subset (f := fun v => (neighbours v).length + 2) hsub
  have hsum := Finset.sum_erase_add _ (fun v => (neighbours v).length + 2) hstart
  rw [List.sum_toFinset _ hids, List.map_map] at hsum
  have hfuel : walkFuel neighbours members =
      (members.map ((fun v => (neighbours v).length + 2) ∘ Prod.fst)).sum + 1 := rfl
  simp only [searchWork, List.zipWith_cons_cons, List.zipWith_nil_right, List.sum_cons, List.sum_nil]
  omega

variable {members : List (String × String)}

lemma dfsFindCycle_spec (hids : (members.map Prod.fst).Nodup)
    (hclosed : ∀ u ∈ members.map Prod.fst, ∀ v ∈ neighbours u, v ∈ members.map Prod.fst)
    (hsettled : Settled (Follows neighbours) (· ∈ visited)) (hinside : ∀ v ∈ visited, v ∈ members.map Prod.fst)
    (hstart : start ∈ members.map Prod.fst) (hfresh : start ∉ visited) :
    ∃ r, dfsFindCycle (walkFuel neighbours members) neighbours start visited = .ok r ∧
      SearchEnds neighbours (members.map Prod.fst).toFinset start visited r := by
  simp only [← List.mem_toFinset (l := members.map Prod.fst)] at hclosed hinside hstart
  apply loop_terminates (searchWork neighbours (members.map Prod.fst).toFinset)
  · exact fun s hs => cycleStep_round hclosed hs
  · exact searching_start hsettled hinside hstart hfresh
  · exact searchWork_start_lt hids hstart

lemma searchStarts_spec (hids : (members.map Prod.fst).Nodup)
    (hclosed : ∀ u ∈ members.map Prod.fst, ∀ v ∈ neighbours u, v ∈ members.map Prod.fst) {starts : List String}
    (hstarts : ∀ v ∈ starts, v ∈ members.map Prod.fst)
    (hsettled : Settled (Follows neighbours) (· ∈ visited)) (hinside : ∀ v ∈ visited, v ∈ members.map Prod.fst) :
    ∃ r, searchStarts (walkFuel neighbours members) neighbours starts visited = .ok r ∧
      match r with
      | some ring => IsRing (Follows neighbours) ring ∧ ∀ v ∈ ring, v ∈ members.map Prod.fst
      | none => ∀ v ∈ starts, ¬ Relation.TransGen (Follows neighbours) v v := by
  induction starts generalizing visited with
  | nil => exact ⟨none, rfl, by simp⟩
  | cons start starts ih =>
    have hrest : ∀ v ∈ starts, v ∈ members.map Prod.fst := fun v hv => hstarts v (List.mem_cons_of_mem _ hv)
    unfold searchStarts
    by_cases hin : start ∈ visited
    · obtain ⟨r, hr, hspec⟩ := ih hrest hsettled hinside
      rw [if_pos hin]
      refine ⟨r, hr, ?_⟩
      cases r with
      | some ring => exact hspec
      | none =>
        intro v hv
        rcases List.mem_cons.mp hv with rfl | hv
        · exact hsettled.acyclic v hin
        · exact hspec v hv
    · rw [if_neg hin]
      obtain ⟨⟨found, visited'⟩, hfound, hends⟩ :=
        dfsFindCycle_spec hids hclosed hsettled hinside (hstarts start List.mem_cons_self) hin
      rw [hfound, ok_bind]
      cases found with
      | some ring =>
        refine ⟨some ring, rfl, hends.1, ?_⟩
        exact fun v hv => List.mem_toFinset.mp (hends.2 v hv)
      | none =>
        obtain ⟨hsettled', hinside', hstart, -⟩ := hends
        obtain ⟨r, hr, hspec⟩ := ih hrest hsettled' fun v hv => List.mem_toFinset.mp (hinside' v hv)
        refine ⟨r, hr, ?_⟩
        cases r with
        | some ring => exact hspec
        | none =>
          intro v hv
          rcases List.mem_cons.mp hv with rfl | hv
          · exact hsettled'.acyclic v hstart
          · exact hspec v hv

end Search

section Edges

variable {members edges : List (String × String)}

def MemberEdge (members edges : List (String × String)) (u v : String) : Prop :=
  (u, v) ∈ edges ∧ u ∈ members.map Prod.fst ∧ v ∈ members.map Prod.fst

lemma walkNeighbours_insert (adj : WalkAdjacency) (u v : String) (l : List String) :
    walkNeighbours (adj.insert u l) v = if u = v then l else walkNeighbours adj v := by
  simp only [walkNeighbours, getElem?_insert]
  split <;> rfl

def memberTargets (memberIds : HashSet String) (edges : List (String × String)) (v : String) : List String :=
  (edges.filter fun e => e.1 ∈ memberIds ∧ e.2 ∈ memberIds ∧ e.1 = v).map Prod.snd

lemma walkNeighbours_pushEdges (memberIds : HashSet String) (edges : List (String × String)) (adj : WalkAdjacency)
    (v : String) : walkNeighbours (edges.foldl (pushEdge memberIds) adj) v =
      walkNeighbours adj v ++ memberTargets memberIds edges v := by
  unfold memberTargets
  induction edges generalizing adj with
  | nil => simp
  | cons e edges ih =>
    rw [List.foldl_cons, ih, pushEdge]
    by_cases hin : e.1 ∈ memberIds ∧ e.2 ∈ memberIds
    · rw [if_pos hin, walkNeighbours_insert]
      by_cases he : e.1 = v
      · simp [he]
        simp [← he, hin]
      · simp [he]
    · rw [if_neg hin, List.filter_cons_of_neg]
      simp only [decide_eq_true_eq]
      tauto

lemma walkNeighbours_eq (memberIds : HashSet String) (edges : List (String × String)) (v : String) :
    walkNeighbours (walkAdjacency memberIds edges) v = sortBy compare (memberTargets memberIds edges v) := by
  have hpushed := walkNeighbours_pushEdges memberIds edges ∅ v
  have hempty : walkNeighbours ∅ v = [] := by simp [walkNeighbours]
  rw [hempty, List.nil_append] at hpushed
  rw [← hpushed, walkNeighbours, walkNeighbours, walkAdjacency, Std.ExtTreeMap.getElem?_map]
  cases (edges.foldl (pushEdge memberIds) ∅)[v]? <;> rfl

end Edges

end RepoGraph.Agent
