import RepoGraph.Agent.CycleWalkSound

/-! The walk of a cycle: when there is one, which edges it follows, and that it depends on the members and on the
set of the edges alone. A search over sorted targets stays in step with the search over the same targets, each
once. -/

namespace RepoGraph.Agent

open Lib Lib.Digraph

section Repeats

variable {neighbours : String → List String} {nodes : Finset String} {start node next : String} {i : ℕ}
  {before visited : HashSet String}

def distinctTargets (neighbours : String → List String) (v : String) : List String := nubOnto [] (neighbours v)

def distinctCursor (neighbours : String → List String) (node : String) (i : ℕ) : ℕ :=
  (nubOnto [] ((neighbours node).take i)).length

def withoutRepeats (neighbours : String → List String) (s : CycleSearch) : CycleSearch :=
  { s with cursor := List.zipWith (distinctCursor neighbours) s.path s.cursor }

lemma nubOnto_take_succ (hnext : (neighbours node)[i]? = some next) :
    nubOnto [] ((neighbours node).take (i + 1)) =
      if next ∈ (neighbours node).take i then nubOnto [] ((neighbours node).take i)
      else nubOnto [] ((neighbours node).take i) ++ [next] := by
  rw [List.take_add_one, hnext, nubOnto_append]
  simp only [Option.toList_some, nubOnto_cons, nubOnto_nil, mem_nubOnto, List.not_mem_nil, false_or]

lemma distinctCursor_repeat (hnext : (neighbours node)[i]? = some next) (hold : next ∈ (neighbours node).take i) :
    distinctCursor neighbours node (i + 1) = distinctCursor neighbours node i := by
  rw [distinctCursor, nubOnto_take_succ hnext, if_pos hold]
  rfl

lemma distinctCursor_new (hnext : (neighbours node)[i]? = some next) (hnew : next ∉ (neighbours node).take i) :
    distinctCursor neighbours node (i + 1) = distinctCursor neighbours node i + 1 := by
  rw [distinctCursor, nubOnto_take_succ hnext, if_neg hnew, List.length_append]
  rfl

lemma distinctTargets_new (hnext : (neighbours node)[i]? = some next) (hnew : next ∉ (neighbours node).take i) :
    (distinctTargets neighbours node)[distinctCursor neighbours node i]? = some next := by
  have hbegins : nubOnto [] ((neighbours node).take (i + 1)) <+: distinctTargets neighbours node := by
    have hsplit := nubOnto_append [] ((neighbours node).take (i + 1)) ((neighbours node).drop (i + 1))
    rw [List.take_append_drop] at hsplit
    rw [distinctTargets, hsplit]
    exact prefix_nubOnto _ _
  rw [nubOnto_take_succ hnext, if_neg hnew] at hbegins
  obtain ⟨rest, hrest⟩ := hbegins
  rw [← hrest, List.append_assoc, distinctCursor, List.getElem?_append_right (le_refl _), Nat.sub_self]
  rfl

lemma distinctTargets_end (hend : (neighbours node)[i]? = none) :
    (distinctTargets neighbours node)[distinctCursor neighbours node i]? = none := by
  rw [distinctCursor, mem_take_self hend]
  exact List.getElem?_eq_none (le_refl _)

/-- A round reads a target that the distinct targets do not repeat, or one that lies behind the search. -/
lemma cycleStep_distinct {s : CycleSearch} (hs : Searching neighbours nodes start before s) :
    (∀ s', cycleStep neighbours s = .ok (.inl s') → withoutRepeats neighbours s' = withoutRepeats neighbours s ∨
      cycleStep (distinctTargets neighbours) (withoutRepeats neighbours s) =
        .ok (.inl (withoutRepeats neighbours s'))) ∧
    ∀ r, cycleStep neighbours s = .ok (.inr r) →
      cycleStep (distinctTargets neighbours) (withoutRepeats neighbours s) = .ok (.inr r) := by
  obtain ⟨path, onPath, cursor, visited⟩ := s
  cases path with
  | nil =>
    refine ⟨?_, fun r hr => hr⟩
    intro s' h
    cases h
  | cons node path =>
    cases cursor with
    | nil => exact hs.scanned.elim
    | cons i cursor =>
      cases hnext : (neighbours node)[i]? with
      | none =>
        rw [cycleStep_pop hnext]
        refine ⟨?_, fun r hr => by cases hr⟩
        rintro _ ⟨⟩
        exact .inr (cycleStep_pop (distinctTargets_end hnext))
      | some next =>
        by_cases hold : next ∈ (neighbours node).take i
        · have hvisited : next ∈ visited := (hs.scanned.1 next hold).resolve_right (by simp)
          have hpath : next ∉ onPath := by
            intro hin
            exact hs.fresh next ((hs.onPath next).mp hin) hvisited
          rw [cycleStep_skip hnext hpath hvisited]
          refine ⟨?_, fun r hr => by cases hr⟩
          rintro _ ⟨⟩
          refine .inl ?_
          simp only [withoutRepeats, List.zipWith_cons_cons, distinctCursor_repeat hnext hold]
        · have hread := distinctTargets_new hnext hold
          have hcursor := distinctCursor_new hnext hold
          by_cases hpath : next ∈ onPath
          · rw [cycleStep_back hnext hpath]
            constructor
            · intro s' h
              split at h <;> cases h
            · intro r h
              exact (cycleStep_back hread hpath).trans h
          · by_cases hvisited : next ∈ visited
            · rw [cycleStep_skip hnext hpath hvisited]
              refine ⟨?_, fun r hr => by cases hr⟩
              rintro _ ⟨⟩
              refine .inr ((cycleStep_skip hread hpath hvisited).trans ?_)
              simp only [withoutRepeats, List.zipWith_cons_cons, hcursor]
            · have hzero : distinctCursor neighbours next 0 = 0 := rfl
              rw [cycleStep_push hnext hpath hvisited]
              refine ⟨?_, fun r hr => by cases hr⟩
              rintro _ ⟨⟩
              refine .inr ((cycleStep_push hread hpath hvisited).trans ?_)
              simp only [withoutRepeats, List.zipWith_cons_cons, hcursor, hzero]

variable {members : List (String × String)}

lemma dfsFindCycle_distinct {fuel : ℕ} (hclosed : ∀ u ∈ nodes, ∀ v ∈ neighbours u, v ∈ nodes)
    (hs : Searching neighbours nodes start visited ⟨[start], Std.ExtTreeSet.ofList [start] compare, [0], visited⟩)
    {r : Option (List String) × HashSet String} (h : dfsFindCycle fuel neighbours start visited = .ok r) :
    dfsFindCycle fuel (distinctTargets neighbours) start visited = .ok r := by
  refine loop_stutter (R := fun s t => Searching neighbours nodes start visited s ∧
    t = withoutRepeats neighbours s) ?_ ⟨hs, rfl⟩ h
  rintro s _ ⟨hs, rfl⟩
  obtain ⟨hgo, hdone⟩ := cycleStep_distinct hs
  refine ⟨?_, hdone⟩
  intro s' hs'
  have hkept : Searching neighbours nodes start visited s' := by
    rcases cycleStep_round hclosed hs with ⟨s'', h'', hkept, -⟩ | ⟨r', h'', -⟩
    · rw [hs'] at h''
      obtain rfl := Sum.inl.inj (Except.ok.inj h'')
      exact hkept
    · rw [hs'] at h''
      cases h''
  rcases hgo s' hs' with heq | hround
  · exact .inl ⟨hkept, heq.symm⟩
  · exact .inr ⟨_, hround, hkept, rfl⟩

lemma searchStarts_distinct (hids : (members.map Prod.fst).Nodup)
    (hclosed : ∀ u ∈ members.map Prod.fst, ∀ v ∈ neighbours u, v ∈ members.map Prod.fst) {starts : List String}
    (hstarts : ∀ v ∈ starts, v ∈ members.map Prod.fst)
    (hsettled : Settled (Follows neighbours) (· ∈ visited)) (hinside : ∀ v ∈ visited, v ∈ members.map Prod.fst)
    {r : Option (List String)} (h : searchStarts (walkFuel neighbours members) neighbours starts visited = .ok r) :
    searchStarts (walkFuel neighbours members) (distinctTargets neighbours) starts visited = .ok r := by
  induction starts generalizing visited with
  | nil => exact h
  | cons start starts ih =>
    have hrest : ∀ v ∈ starts, v ∈ members.map Prod.fst := fun v hv => hstarts v (List.mem_cons_of_mem _ hv)
    unfold searchStarts at h ⊢
    by_cases hin : start ∈ visited
    · rw [if_pos hin] at h ⊢
      exact ih hrest hsettled hinside h
    · rw [if_neg hin] at h ⊢
      have hstart := hstarts start List.mem_cons_self
      obtain ⟨⟨found, visited'⟩, hfound, hends⟩ := dfsFindCycle_spec hids hclosed hsettled hinside hstart hin
      have hfound' : dfsFindCycle (walkFuel neighbours members) (distinctTargets neighbours) start visited =
          .ok (found, visited') := by
        simp only [← List.mem_toFinset (l := members.map Prod.fst)] at hclosed hinside hstart
        exact dfsFindCycle_distinct hclosed (searching_start hsettled hinside hstart hin) hfound
      rw [hfound, ok_bind] at h
      rw [hfound', ok_bind]
      cases found with
      | some ring => exact h
      | none =>
        obtain ⟨hsettled', hinside', -, -⟩ := hends
        exact ih hrest hsettled' (fun v hv => List.mem_toFinset.mp (hinside' v hv)) h

lemma searchStarts_mono {fuel fuel' : ℕ} {starts : List String} {r : Option (List String)}
    (h : searchStarts fuel neighbours starts visited = .ok r) (hle : fuel ≤ fuel') :
    searchStarts fuel' neighbours starts visited = .ok r := by
  induction starts generalizing visited with
  | nil => exact h
  | cons start starts ih =>
    unfold searchStarts at h ⊢
    by_cases hin : start ∈ visited
    · rw [if_pos hin] at h ⊢
      exact ih h
    · rw [if_neg hin] at h ⊢
      obtain ⟨⟨found, visited'⟩, hfound, hfirst⟩ := bind_ok.mp h
      have hfound' : dfsFindCycle fuel' neighbours start visited = .ok (found, visited') := loop_mono hfound hle
      rw [hfound', ok_bind]
      cases found with
      | some ring => exact hfirst
      | none => exact ih hfirst

end Repeats

section Members

variable {members members' edges edges' : List (String × String)}

def memberIds (members : List (String × String)) : HashSet String :=
  Std.ExtTreeSet.ofList (members.map Prod.fst) compare

def memberNeighbours (members edges : List (String × String)) : String → List String :=
  walkNeighbours (walkAdjacency (memberIds members) edges)

lemma mem_memberIds {id : String} : id ∈ memberIds members ↔ id ∈ members.map Prod.fst := by
  rw [memberIds, Std.ExtTreeSet.mem_ofList, List.contains_iff_mem]

lemma mem_memberTargets {u v : String} :
    v ∈ memberTargets (memberIds members) edges u ↔ MemberEdge members edges u v := by
  simp only [memberTargets, MemberEdge, List.mem_map, List.mem_filter, decide_eq_true_eq, mem_memberIds]
  constructor
  · rintro ⟨⟨u', v'⟩, ⟨hedge, hu, hv, rfl⟩, rfl⟩
    exact ⟨hedge, hu, hv⟩
  · rintro ⟨hedge, hu, hv⟩
    exact ⟨(u, v), ⟨hedge, hu, hv, rfl⟩, rfl⟩

lemma follows_iff {u v : String} : Follows (memberNeighbours members edges) u v ↔
    MemberEdge members edges u v := by
  rw [Follows, memberNeighbours, walkNeighbours_eq, (sortBy_perm _ _).mem_iff, mem_memberTargets]

lemma memberNeighbours_closed :
    ∀ u ∈ members.map Prod.fst, ∀ v ∈ memberNeighbours members edges u, v ∈ members.map Prod.fst := by
  intro u _ v hv
  exact (follows_iff.mp hv).2.2

lemma distinctTargets_congr (hedges : ∀ u v, MemberEdge members edges u v ↔ MemberEdge members' edges' u v) :
    distinctTargets (memberNeighbours members edges) = distinctTargets (memberNeighbours members' edges') := by
  funext u
  rw [distinctTargets, distinctTargets, memberNeighbours, memberNeighbours, walkNeighbours_eq, walkNeighbours_eq,
    nubOnto_sortBy, nubOnto_sortBy]
  apply sortedSet_congr
  intro v
  rw [mem_memberTargets, mem_memberTargets, hedges]

def startOrder (a b : String × String) : Ordering := (compare a.2 b.2).then (compare a.1 b.1)

instance startOrder_trans : Std.TransCmp startOrder :=
  inferInstanceAs (Std.TransCmp (compareLex (compareOn Prod.snd) (compareOn Prod.fst)))

lemma starts_eq_of_perm (hperm : members.Perm members') : sortBy startOrder members =
    sortBy startOrder members' := by
  apply sortBy_eq_of_perm hperm
  intro a _ b _ htie
  simp only [startOrder, Ordering.then_eq_eq, Std.compare_eq_iff_eq] at htie
  exact Prod.ext htie.2 htie.1

def displayNames (members : List (String × String)) : HashMap String String :=
  members.foldl (fun display m => display.insert m.1 m.2) ∅

def memberRing (members edges : List (String × String)) : Exec (Option (List String)) :=
  searchStarts (walkFuel (memberNeighbours members edges) members) (memberNeighbours members edges)
    ((sortBy startOrder members).map Prod.fst) ∅

lemma findCycleWalk_eq (members edges : List (String × String)) : findCycleWalk members edges =
    (do
      let ring ← memberRing members edges
      return ring.map fun ring => ring.map fun id => (displayNames members)[id]?.getD id) := rfl

lemma mem_starts {id : String} : id ∈ (sortBy startOrder members).map Prod.fst ↔ id ∈ members.map Prod.fst :=
  ((sortBy_perm startOrder members).map Prod.fst).mem_iff

lemma settled_nothing (E : String → String → Prop) : Settled E (· ∈ (∅ : HashSet String)) := by
  have hnone : (fun v : String => v ∈ (∅ : HashSet String)) = fun _ => False := by
    funext v
    simp
  rw [hnone]
  exact settled_empty E

lemma memberRing_spec (hids : (members.map Prod.fst).Nodup) :
    ∃ r, memberRing members edges = .ok r ∧
      match r with
      | some ring => IsRing (MemberEdge members edges) ring ∧ ∀ v ∈ ring, v ∈ members.map Prod.fst
      | none => ¬ Cyclic (MemberEdge members edges) := by
  have hsame : Follows (memberNeighbours members edges) = MemberEdge members edges := by
    funext u v
    exact propext follows_iff
  obtain ⟨r, hr, hspec⟩ := searchStarts_spec hids memberNeighbours_closed (fun v hv => mem_starts.mp hv)
    (settled_nothing (Follows (memberNeighbours members edges))) fun v hv => absurd hv (by simp)
  refine ⟨r, hr, ?_⟩
  rw [hsame] at hspec
  cases r with
  | some ring => exact hspec
  | none =>
    rintro ⟨v, hv⟩
    obtain ⟨w, hedge, -⟩ := Relation.TransGen.head'_iff.mp hv
    exact hspec v (mem_starts.mpr hedge.2.1) hv

lemma memberRing_congr (hids : (members.map Prod.fst).Nodup) (hperm : members.Perm members')
    (hedges : ∀ u v, MemberEdge members edges u v ↔ MemberEdge members' edges' u v) :
    memberRing members edges = memberRing members' edges' := by
  have hids' : (members'.map Prod.fst).Nodup := (hperm.map Prod.fst).nodup_iff.mp hids
  have hdistinct : ∀ {members edges : List (String × String)} {r : Option (List String)},
      (members.map Prod.fst).Nodup → memberRing members edges = .ok r →
        searchStarts (walkFuel (memberNeighbours members edges) members)
          (distinctTargets (memberNeighbours members edges))
            ((sortBy startOrder members).map Prod.fst) ∅ = .ok r := by
    intro members edges r hids h
    exact searchStarts_distinct hids memberNeighbours_closed (fun v hv => mem_starts.mp hv) (settled_nothing _)
      (fun v hv => absurd hv (by simp)) h
  obtain ⟨r, hr, -⟩ := @memberRing_spec _ edges hids
  obtain ⟨r', hr', -⟩ := @memberRing_spec _ edges' hids'
  have hrun := hdistinct hids hr
  have hrun' := hdistinct hids' hr'
  rw [distinctTargets_congr hedges, starts_eq_of_perm hperm] at hrun
  have hmax := searchStarts_mono hrun (le_max_left _ (walkFuel (memberNeighbours members' edges') members'))
  rw [searchStarts_mono hrun' (le_max_right _ _)] at hmax
  rw [hr, hr', hmax]

lemma displayNames_eq (hids : (members.map Prod.fst).Nodup) {id name : String} (h : (id, name) ∈ members) :
    (displayNames members)[id]? = some name := getElem?_foldl_insert hids h ∅

lemma displayNames_congr (hids : (members.map Prod.fst).Nodup) (hperm : members.Perm members') (id : String) :
    (displayNames members)[id]? = (displayNames members')[id]? := by
  by_cases hin : id ∈ members.map Prod.fst
  · obtain ⟨⟨_, name⟩, hmem, rfl⟩ := List.mem_map.mp hin
    rw [displayNames_eq hids hmem,
      displayNames_eq ((hperm.map Prod.fst).nodup_iff.mp hids) (hperm.mem_iff.mp hmem)]
  · rw [displayNames, displayNames, getElem?_foldl_insert_of_notMem hin,
      getElem?_foldl_insert_of_notMem ((hperm.map Prod.fst).mem_iff.not.mp hin)]

lemma findCycleWalk_congr (hids : (members.map Prod.fst).Nodup) (hperm : members.Perm members')
    (hedges : ∀ u v, MemberEdge members edges u v ↔ MemberEdge members' edges' u v) :
    findCycleWalk members' edges' = findCycleWalk members edges := by
  rw [findCycleWalk_eq, findCycleWalk_eq, memberRing_congr hids hperm hedges]
  simp only [displayNames_congr hids hperm]

/-- A walk is returned exactly when the edges between members have a directed cycle; it shows the names of a ring
of distinct members along those edges, and it depends on the members and on the set of the edges alone. -/
theorem find_cycle_walk_laws (hids : (members.map Prod.fst).Nodup) :
    ∃ walk, findCycleWalk members edges = .ok walk ∧
      (walk.isSome ↔ Cyclic (MemberEdge members edges)) ∧
      (∀ names, walk = some names → ∃ ring, IsRing (MemberEdge members edges) ring ∧
        List.Forall₂ (fun id name => (id, name) ∈ members) ring names) ∧
      ∀ members' edges', members.Perm members' → (∀ e, e ∈ edges ↔ e ∈ edges') →
        findCycleWalk members' edges' = .ok walk := by
  obtain ⟨r, hr, hspec⟩ := @memberRing_spec _ edges hids
  have hwalk : findCycleWalk members edges =
      .ok (r.map fun ring => ring.map fun id => (displayNames members)[id]?.getD id) := by
    rw [findCycleWalk_eq, hr]
    rfl
  refine ⟨_, hwalk, ?_, ?_, ?_⟩
  · rw [Option.isSome_map]
    cases r with
    | some ring => exact iff_of_true rfl hspec.1.cyclic
    | none => exact iff_of_false (by simp) hspec
  · intro names hnames
    obtain ⟨ring, rfl, rfl⟩ := Option.map_eq_some_iff.mp hnames
    refine ⟨ring, hspec.1, ?_⟩
    rw [List.forall₂_map_right_iff, List.forall₂_same]
    intro id hid
    obtain ⟨⟨_, name⟩, hmem, rfl⟩ := List.mem_map.mp (hspec.2 id hid)
    rw [displayNames_eq hids hmem]
    exact hmem
  · intro members' edges' hperm hedges
    rw [← hwalk]
    apply findCycleWalk_congr hids hperm
    intro u v
    simp only [MemberEdge, hedges, (hperm.map Prod.fst).mem_iff]

theorem find_cycle_walk_laws_two_ring :
    (([("n1", "app"), ("n2", "lib")] : List (String × String)).map Prod.fst).Nodup ∧
      findCycleWalk [("n2", "lib"), ("n1", "app")] [("n2", "n1"), ("n1", "n2"), ("n2", "n1")] =
        findCycleWalk [("n1", "app"), ("n2", "lib")] [("n1", "n2"), ("n2", "n1")] := by
  have hids : (([("n1", "app"), ("n2", "lib")] : List (String × String)).map Prod.fst).Nodup := by decide
  obtain ⟨walk, hwalk, -, -, hsame⟩ := @find_cycle_walk_laws _ [("n1", "n2"), ("n2", "n1")] hids
  refine ⟨hids, ?_⟩
  rw [hwalk]
  exact hsame _ _ (List.Perm.swap _ _ _) (by simp)

end Members

section Selection

variable {members allEdges : List (String × String)}

lemma mem_intraCycleEdges {ids : List String} (huncut : (intraCycleEdges ids allEdges).2 = false)
    {e : String × String} :
    e ∈ (intraCycleEdges ids allEdges).1 ↔ e ∈ allEdges ∧ e.1 ≠ e.2 ∧ e.1 ∈ ids ∧ e.2 ∈ ids := by
  have hkept : ∀ (edges : List (String × String)) (kept : BTreeSet (String × String)),
      e ∈ edges.foldl (fun kept edge => if edge.1 = edge.2 then kept
        else if edge.1 ∈ (Std.ExtTreeSet.ofList ids compare : HashSet String) ∧
          edge.2 ∈ (Std.ExtTreeSet.ofList ids compare : HashSet String) then kept.insert edge else kept) kept ↔
        e ∈ kept ∨ e ∈ edges ∧ e.1 ≠ e.2 ∧ e.1 ∈ ids ∧ e.2 ∈ ids := by
    intro edges
    induction edges with
    | nil => simp
    | cons a edges ih =>
      intro kept
      rw [List.foldl_cons, ih]
      simp only [Std.ExtTreeSet.mem_ofList, List.contains_iff_mem]
      split_ifs with hself hin
      · grind
      · rw [Std.ExtTreeSet.mem_insert, Std.compare_eq_iff_eq]
        grind
      · grind
  simp only [intraCycleEdges, decide_eq_false_iff_not, not_lt] at huncut ⊢
  rw [List.take_of_length_le (by rwa [Std.ExtTreeSet.length_toList]), Std.ExtTreeSet.mem_toList, hkept]
  simp

/-- An uncut selection draws the walk of all the edges between distinct members. -/
theorem find_cycle_walk_of_selection (hids : (members.map Prod.fst).Nodup)
    (huncut : (intraCycleEdges (members.map Prod.fst) allEdges).2 = false) :
    findCycleWalk members (intraCycleEdges (members.map Prod.fst) allEdges).1 =
      findCycleWalk members (allEdges.filter fun e => e.1 ≠ e.2) := by
  apply findCycleWalk_congr hids (.refl _)
  intro u v
  simp only [MemberEdge, mem_intraCycleEdges huncut, List.mem_filter, decide_eq_true_eq]
  tauto

end Selection

end RepoGraph.Agent
