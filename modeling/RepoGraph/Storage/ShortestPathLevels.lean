import RepoGraph.Storage.ShortestPath

/-! What the search level by level knows of the stored edges: how far every node is up to the depth it has come
to, and every way into a node from the level before. -/

namespace RepoGraph.Storage

open Lib Layers

section Rows

variable {depth : ℕ} {s : Visit} {e : LocatedEdge} {x : String} {edges : List LocatedEdge}

def Visit.Earlier (s : Visit) (depth : ℕ) (x : String) : Prop := ∃ d < depth, s.dist[x]? = some d

lemma dist_visitRow : (visitRow depth s e).dist[x]? =
    s.dist[x]?.or (if e.targetNodeUid = x then some depth else none) := by
  rw [visitRow]
  cases htarget : s.dist[e.targetNodeUid]? with
  | some d =>
    have hdist : (if d < depth then s else s.push e).dist = s.dist := by split <;> rfl
    simp only [hdist]
    by_cases hx : e.targetNodeUid = x
    · rw [← hx, htarget]
      rfl
    · simp [hx]
  | none =>
    simp only [Visit.push, getElem?_insert]
    by_cases hx : e.targetNodeUid = x
    · subst hx
      simp [htarget]
    · simp [hx]

lemma next_visitRow : x ∈ (visitRow depth s e).next ↔ x ∈ s.next ∨ s.dist[x]? = none ∧ e.targetNodeUid = x := by
  rw [visitRow]
  cases htarget : s.dist[e.targetNodeUid]? with
  | some d =>
    have hnext : (if d < depth then s else s.push e).next = s.next := by split <;> rfl
    simp only [hnext, iff_self_or]
    rintro ⟨hnone, rfl⟩
    simp [htarget] at hnone
  | none =>
    simp only [Visit.push, Std.ExtTreeSet.mem_insert, Std.compare_eq_iff_eq]
    constructor
    · rintro (rfl | hx)
      · exact .inr ⟨htarget, rfl⟩
      · exact .inl hx
    · rintro (hx | ⟨-, rfl⟩)
      · exact .inr hx
      · exact .inl rfl

lemma predsOf_insert (preds : HashMap String (List Pred)) (v : String) (l : List Pred) :
    predsOf (preds.insert v l) x = if v = x then l else predsOf preds x := by
  rw [predsOf, getElem?_insert]
  split <;> rfl

lemma predsOf_push : predsOf (s.push e).preds x =
    predsOf s.preds x ++ if e.targetNodeUid = x then [predOf e] else [] := by
  rw [Visit.push, predsOf_insert]
  by_cases hx : e.targetNodeUid = x
  · rw [if_pos hx, if_pos hx, hx]
  · rw [if_neg hx, if_neg hx, List.append_nil]

lemma mem_preds_visitRow {p : Pred} : p ∈ predsOf (visitRow depth s e).preds x ↔
    p ∈ predsOf s.preds x ∨ ¬ s.Earlier depth x ∧ e.targetNodeUid = x ∧ predOf e = p := by
  have hpush : ∀ s : Visit, p ∈ predsOf (s.push e).preds x ↔
      p ∈ predsOf s.preds x ∨ e.targetNodeUid = x ∧ predOf e = p := by
    intro s
    rw [predsOf_push, List.mem_append]
    by_cases hx : e.targetNodeUid = x
    · simp [hx, eq_comm]
    · simp [hx]
  rw [visitRow]
  cases htarget : s.dist[e.targetNodeUid]? with
  | some d =>
    by_cases hd : d < depth
    · simp only [if_pos hd, iff_self_or]
      rintro ⟨hnew, rfl, -⟩
      exact absurd ⟨d, hd, htarget⟩ hnew
    · simp only [if_neg hd, hpush]
      refine or_congr_right ⟨?_, And.right⟩
      rintro ⟨rfl, hp⟩
      refine ⟨?_, rfl, hp⟩
      rintro ⟨d', hd', hdist⟩
      rw [htarget] at hdist
      exact hd (Option.some.inj hdist ▸ hd')
  | none =>
    simp only [hpush]
    refine or_congr_right ⟨?_, And.right⟩
    rintro ⟨rfl, hp⟩
    refine ⟨?_, rfl, hp⟩
    rintro ⟨d', -, hdist⟩
    rw [htarget] at hdist
    cases hdist

lemma earlier_visitRow : (visitRow depth s e).Earlier depth x ↔ s.Earlier depth x := by
  simp only [Visit.Earlier, dist_visitRow]
  refine exists_congr fun d => and_congr_right fun hd => ?_
  cases s.dist[x]? with
  | some d' => rfl
  | none =>
    by_cases hx : e.targetNodeUid = x
    · simp [hx, Nat.ne_of_gt hd]
    · simp [hx]

structure Visited (depth : ℕ) (s : Visit) (edges : List LocatedEdge) (s' : Visit) : Prop where
  dist : ∀ x, s'.dist[x]? = s.dist[x]?.or (if ∃ e ∈ edges, e.targetNodeUid = x then some depth else none)
  next : ∀ x, x ∈ s'.next ↔ x ∈ s.next ∨ s.dist[x]? = none ∧ ∃ e ∈ edges, e.targetNodeUid = x
  preds : ∀ x p, p ∈ predsOf s'.preds x ↔
    p ∈ predsOf s.preds x ∨ ¬ s.Earlier depth x ∧ ∃ e ∈ edges, e.targetNodeUid = x ∧ predOf e = p

lemma visited_foldl : Visited depth s edges (edges.foldl (visitRow depth) s) := by
  induction edges generalizing s with
  | nil => exact ⟨by simp, by simp, by simp⟩
  | cons e edges ih =>
    obtain ⟨hdist, hnext, hpreds⟩ := @ih (visitRow depth s e)
    rw [List.foldl_cons]
    constructor
    · intro x
      rw [hdist, dist_visitRow]
      cases s.dist[x]? with
      | some d => rfl
      | none =>
        by_cases hx : e.targetNodeUid = x
        · simp [hx]
        · simp [hx]
    · intro x
      rw [hnext, next_visitRow, dist_visitRow]
      cases s.dist[x]? with
      | some d => simp
      | none =>
        by_cases hx : e.targetNodeUid = x
        · simp [hx]
        · simp [hx]
    · intro x p
      rw [hpreds, mem_preds_visitRow, earlier_visitRow, or_assoc, ← and_or_left, List.exists_mem_cons_iff]

end Rows

section Levels

abbrev edgeNet (hop : LocatedEdge → Prop) : Net String LocatedEdge := ⟨(·.sourceNodeUid), (·.targetNodeUid), hop⟩

variable {hop : LocatedEdge → Prop} {fromUid toUid : String} {rows : List String → List LocatedEdge}
  {chunkSize : ℕ} {s : Search}

structure Searched (hop : LocatedEdge → Prop) (fromUid : String) (s : Search) : Prop where
  dist : ∀ v n, s.dist[v]? = some n ↔ AtDepth (edgeNet hop).Joined fromUid v n ∧ n ≤ s.depth
  level : ∀ v, v ∈ s.level ↔ AtDepth (edgeNet hop).Joined fromUid v s.depth
  preds : ∀ v p, p ∈ predsOf s.preds v ↔ ∃ n < s.depth, AtDepth (edgeNet hop).Joined fromUid v (n + 1) ∧
    ∃ e, hop e ∧ e.targetNodeUid = v ∧ predOf e = p ∧ AtDepth (edgeNet hop).Joined fromUid e.sourceNodeUid n

lemma searched_start : Searched hop fromUid (.start fromUid) := by
  constructor
  · intro v n
    simp only [Search.start, getElem?_insert]
    constructor
    · intro h
      by_cases hv : fromUid = v
      · rw [if_pos hv] at h
        obtain rfl := Option.some.inj h
        exact ⟨atDepth_zero.mpr hv.symm, le_rfl⟩
      · simp [hv] at h
    · rintro ⟨hat, hn⟩
      obtain rfl : n = 0 := by omega
      rw [if_pos (atDepth_zero.mp hat).symm]
  · intro v
    exact List.mem_singleton.trans atDepth_zero.symm
  · intro v p
    simp [Search.start, predsOf]

def ReadsHops (hop : LocatedEdge → Prop) (rows : List String → List LocatedEdge) : Prop :=
  ∀ chunk e, e ∈ rows chunk ↔ hop e ∧ e.sourceNodeUid ∈ chunk

lemma mem_level_rows (hrows : ReadsHops hop rows) (hchunk : 0 < chunkSize)
    {e : LocatedEdge} {level : List String} :
    e ∈ (chunks chunkSize level).flatMap rows ↔ hop e ∧ e.sourceNodeUid ∈ level := by
  nth_rewrite 2 [← flatten_chunks hchunk level]
  rw [List.mem_flatMap, List.mem_flatten]
  simp only [hrows _ e]
  constructor
  · rintro ⟨chunk, hmem, hop, hsource⟩
    exact ⟨hop, chunk, hmem, hsource⟩
  · rintro ⟨hop, chunk, hmem, hsource⟩
    exact ⟨chunk, hmem, hop, hsource⟩

lemma Searched.dist_eq_none (h : Searched hop fromUid s) {v : String} :
    s.dist[v]? = none ↔ ∀ n ≤ s.depth, ¬ AtDepth (edgeNet hop).Joined fromUid v n := by
  rw [Option.eq_none_iff_forall_ne_some]
  constructor
  · intro hnone n hn hat
    exact hnone n ((h.dist v n).mpr ⟨hat, hn⟩)
  · intro hnone n hn
    obtain ⟨hat, hle⟩ := (h.dist v n).mp hn
    exact hnone n hle hat

lemma Searched.expand (h : Searched hop fromUid s) (hrows : ReadsHops hop rows) (hchunk : 0 < chunkSize) :
    Searched hop fromUid (expandLevel rows chunkSize s) := by
  have hvisited : Visited (s.depth + 1) ⟨s.dist, s.preds, ∅⟩ ((chunks chunkSize s.level).flatMap rows)
      ((chunks chunkSize s.level).foldl
        (fun visit chunk => (rows chunk).foldl (visitRow (s.depth + 1)) visit) ⟨s.dist, s.preds, ∅⟩) := by
    rw [← List.foldl_flatMap]
    exact visited_foldl
  have hreached : ∀ v, (∃ e ∈ (chunks chunkSize s.level).flatMap rows, e.targetNodeUid = v) ↔
      ∃ u, AtDepth (edgeNet hop).Joined fromUid u s.depth ∧ (edgeNet hop).Joined u v := by
    intro v
    simp only [mem_level_rows hrows hchunk, h.level]
    constructor
    · rintro ⟨e, ⟨hop, hat⟩, rfl⟩
      exact ⟨e.sourceNodeUid, hat, e, hop, rfl, rfl⟩
    · rintro ⟨u, hat, e, hop, rfl, rfl⟩
      exact ⟨e, ⟨hop, hat⟩, rfl⟩
  have hlayer : ∀ v, AtDepth (edgeNet hop).Joined fromUid v (s.depth + 1) ↔
      s.dist[v]? = none ∧ ∃ e ∈ (chunks chunkSize s.level).flatMap rows, e.targetNodeUid = v := by
    intro v
    rw [atDepth_succ, h.dist_eq_none, hreached]
  constructor
  · intro v n
    change (Visit.dist _)[v]? = some n ↔ _ ∧ n ≤ s.depth + 1
    rw [hvisited.dist]
    cases hv : s.dist[v]? with
    | some d =>
      obtain ⟨hat, hle⟩ := (h.dist v d).mp hv
      rw [Option.some_or, Option.some.injEq]
      constructor
      · rintro rfl
        exact ⟨hat, by omega⟩
      · rintro ⟨hat', -⟩
        exact hat.unique hat'
    | none =>
      have hnone := h.dist_eq_none.mp hv
      rw [Option.none_or]
      constructor
      · intro hn
        split at hn
        · rename_i hreach
          obtain rfl := Option.some.inj hn
          exact ⟨(hlayer v).mpr ⟨hv, hreach⟩, le_rfl⟩
        · cases hn
      · rintro ⟨hat, hle⟩
        obtain rfl : n = s.depth + 1 := by
          by_contra hne
          exact hnone n (by omega) hat
        rw [if_pos ((hlayer v).mp hat).2]
  · intro v
    change v ∈ (Visit.next _).toList ↔ AtDepth _ _ v (s.depth + 1)
    rw [Std.ExtTreeSet.mem_toList, hvisited.next, hlayer]
    simp
  · intro v p
    change p ∈ predsOf (Visit.preds _) v ↔ ∃ n < s.depth + 1, _
    rw [hvisited.preds]
    simp only [mem_level_rows hrows hchunk, h.level]
    constructor
    · rintro (hp | ⟨hnew, e, ⟨hop, hat⟩, rfl, hpred⟩)
      · obtain ⟨n, hn, hways⟩ := (h.preds v p).mp hp
        exact ⟨n, by omega, hways⟩
      · refine ⟨s.depth, Nat.lt_succ_self _, ?_, e, hop, rfl, hpred, hat⟩
        refine atDepth_succ.mpr ⟨fun n hn hearlier => hnew ⟨n, by omega, (h.dist _ n).mpr ⟨hearlier, hn⟩⟩, ?_⟩
        exact ⟨e.sourceNodeUid, hat, e, hop, rfl, rfl⟩
    · rintro ⟨n, hn, hv, e, hop, htarget, hpred, hat⟩
      rcases Nat.lt_succ_iff_lt_or_eq.mp hn with hlt | rfl
      · exact .inl ((h.preds v p).mpr ⟨n, hlt, hv, e, hop, htarget, hpred, hat⟩)
      · refine .inr ⟨?_, e, ⟨hop, hat⟩, htarget, hpred⟩
        rintro ⟨d, hd, hdist⟩
        have heq := hv.unique ((h.dist v d).mp hdist).1
        omega

lemma searched_searchLevels (hrows : ReadsHops hop rows) (hchunk : 0 < chunkSize) (remaining : ℕ)
    (h : Searched hop fromUid s) :
    let s' := searchLevels rows chunkSize toUid remaining s
    Searched hop fromUid s' ∧ s'.depth ≤ s.depth + remaining ∧
      (s'.dist[toUid]? = none → s'.level = [] ∨ s'.depth = s.depth + remaining) := by
  induction remaining generalizing s with
  | zero => exact ⟨h, le_rfl, fun _ => .inr rfl⟩
  | succ remaining ih =>
    simp only [searchLevels]
    split
    · obtain ⟨hsearched, hdepth, hend⟩ := ih (h.expand hrows hchunk)
      have hsucc : (expandLevel rows chunkSize s).depth = s.depth + 1 := rfl
      refine ⟨hsearched, by omega, fun hnone => (hend hnone).imp_right fun heq => by omega⟩
    · rename_i hstop
      refine ⟨h, by omega, fun hnone => .inl ?_⟩
      have hmem : toUid ∉ s.dist := by
        rw [← Std.ExtTreeMap.isSome_getElem?_iff_mem, hnone]
        simp
      by_contra hlevel
      exact hstop ⟨hmem, hlevel⟩

end Levels

end RepoGraph.Storage
