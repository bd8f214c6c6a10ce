import RepoGraph.Lib.Folds
import RepoGraph.Storage.ShortestPathLevels

/-! The route that is chosen among those of least length: level by level the best way into every node, which goes
on from the best route to the node before. -/

namespace RepoGraph.Storage

open Lib Layers

section Ranks

variable {keyOf : String → String} {hop : LocatedEdge → Prop} {fromUid : String} {es : List LocatedEdge}
  {e : LocatedEdge}

/-- Inferred edges first, then the stable keys of the nodes, then the types of the edges. -/
def routeRanking (keyOf : String → String) : Net.Ranking String LocatedEdge String String where
  weight e := (decide (e.resolution = "inferred")).toNat
  key := keyOf
  label e := e.edgeType

def bestOf (keyOf : String → String) (hop : LocatedEdge → Prop) (fromUid : String)
    (es : List LocatedEdge) : Best where
  inferred := (routeRanking keyOf).total es
  keys := (routeRanking keyOf).keys (edgeNet hop) fromUid es
  uids := fromUid :: es.map (·.targetNodeUid)
  types := "" :: (routeRanking keyOf).labels es

lemma extend_bestOf : (bestOf keyOf hop fromUid es).extend (keyOf e.targetNodeUid) e.targetNodeUid (predOf e) =
    bestOf keyOf hop fromUid (es ++ [e]) := by
  simp [Best.extend, bestOf, predOf, routeRanking]

lemma rank_bestOf_snoc : (bestOf keyOf hop fromUid (es ++ [e])).rank =
    toLex ((routeRanking keyOf).total (es ++ [e]),
      toLex ((routeRanking keyOf).keys (edgeNet hop) fromUid (es ++ [e]), e.edgeType)) := by
  have hlast : ("" :: (routeRanking keyOf).labels (es ++ [e])).getLast?.getD "" = e.edgeType := by
    rw [Net.Ranking.labels_snoc, ← List.cons_append, List.getLast?_concat]
    rfl
  rw [Best.rank]
  exact congrArg (fun last => toLex (_, toLex (_, last))) hlast

end Ranks

section Choice

lemma foldl_better_cons (b : Best) (candidates : List Best) :
    candidates.foldl better (some b) =
      some (candidates.foldl (fun best b => if b.rank < best.rank then b else best) b) := by
  induction candidates generalizing b with
  | nil => rfl
  | cons c candidates ih =>
    rw [List.foldl_cons, List.foldl_cons, better]
    split <;> exact ih _

lemma foldl_better_spec {candidates : List Best} (hne : candidates ≠ []) :
    ∃ c ∈ candidates, candidates.foldl better none = some c ∧ ∀ c' ∈ candidates, c.rank ≤ c'.rank := by
  obtain ⟨b, candidates, rfl⟩ := List.exists_cons_of_ne_nil hne
  obtain ⟨hmem, hle⟩ := @foldl_best _ (fun a b : Best => a.rank ≤ b.rank) (fun best b => b.rank < best.rank) _
    (fun a => le_refl _) (fun _ _ _ => le_trans) (fun _ _ h => h.le) (fun _ _ h => not_lt.mp h) candidates b
  exact ⟨_, hmem, foldl_better_cons b candidates, hle⟩

lemma chooseBest_eq (best : HashMap String Best) (key v : String) (preds : List Pred) :
    chooseBest best key v preds =
      (preds.filterMap fun p => best[p.source]?.map (·.extend key v p)).foldl better none := by
  rw [List.foldl_filterMap, chooseBest]
  congr 1
  funext chosen p
  cases best[p.source]? <;> rfl

variable {keyOf : String → String} {hop : LocatedEdge → Prop} {fromUid v : String} {s : Search} {d : ℕ}
  {best : HashMap String Best}

def HoldsLeast (keyOf : String → String) (hop : LocatedEdge → Prop) (fromUid : String) (best : HashMap String Best)
    (d : ℕ) (v : String) : Prop :=
  ∃ es, best[v]? = some (bestOf keyOf hop fromUid es) ∧
    Net.Least (edgeNet hop) (routeRanking keyOf) fromUid d v es

def KeysApart (keyOf : String → String) (hop : LocatedEdge → Prop) : Prop :=
  ∀ e e', hop e → hop e' → keyOf e.sourceNodeUid = keyOf e'.sourceNodeUid → e.sourceNodeUid = e'.sourceNodeUid

variable (hkeys : KeysApart keyOf hop) (hs : Searched hop fromUid s)
include hs

lemma mem_preds_atDepth (hv : AtDepth (edgeNet hop).Joined fromUid v (d + 1)) (hd : d < s.depth) {p : Pred} :
    p ∈ predsOf s.preds v ↔ ∃ e, hop e ∧ e.targetNodeUid = v ∧ predOf e = p ∧
      AtDepth (edgeNet hop).Joined fromUid e.sourceNodeUid d := by
  rw [hs.preds]
  constructor
  · rintro ⟨n, -, hn, hways⟩
    obtain rfl : n = d := Nat.succ.inj (hn.unique hv)
    exact hways
  · intro hways
    exact ⟨d, hd, hv, hways⟩

include hkeys

lemma chooseBest_least (hv : AtDepth (edgeNet hop).Joined fromUid v (d + 1)) (hd : d < s.depth)
    (hpreds : ∀ p ∈ predsOf s.preds v, HoldsLeast keyOf hop fromUid best d p.source) :
    ∃ es, chooseBest best (keyOf v) v (predsOf s.preds v) = some (bestOf keyOf hop fromUid es) ∧
      Net.Least (edgeNet hop) (routeRanking keyOf) fromUid (d + 1) v es := by
  have hheld : ∀ u, HoldsLeast keyOf hop fromUid best d u → ∃ es, best[u]? = some (bestOf keyOf hop fromUid es) ∧
      Net.Least (edgeNet hop) (routeRanking keyOf) fromUid d u es := fun _ h => h
  choose! pre hentry hleast using hheld
  have hcandidate : ∀ e, hop e → e.targetNodeUid = v → AtDepth (edgeNet hop).Joined fromUid e.sourceNodeUid d →
      best[e.sourceNodeUid]?.map (·.extend (keyOf v) v (predOf e)) =
        some (bestOf keyOf hop fromUid (pre e.sourceNodeUid ++ [e])) := by
    rintro e hhop rfl hat
    have hp := hpreds (predOf e) ((mem_preds_atDepth hs hv hd).mpr ⟨e, hhop, rfl, rfl, hat⟩)
    rw [hentry e.sourceNodeUid hp, Option.map_some, extend_bestOf]
  have hmem : ∀ c, c ∈ (predsOf s.preds v).filterMap (fun p => best[p.source]?.map (·.extend (keyOf v) v p)) ↔
      ∃ e, (hop e ∧ e.targetNodeUid = v ∧ AtDepth (edgeNet hop).Joined fromUid e.sourceNodeUid d) ∧
        bestOf keyOf hop fromUid (pre e.sourceNodeUid ++ [e]) = c := by
    intro c
    rw [List.mem_filterMap]
    constructor
    · rintro ⟨p, hp, hc⟩
      obtain ⟨e, hhop, htarget, rfl, hat⟩ := (mem_preds_atDepth hs hv hd).mp hp
      exact ⟨e, ⟨hhop, htarget, hat⟩, Option.some.inj ((hcandidate e hhop htarget hat).symm.trans hc)⟩
    · rintro ⟨e, ⟨hhop, htarget, hat⟩, rfl⟩
      exact ⟨predOf e, (mem_preds_atDepth hs hv hd).mpr ⟨e, hhop, htarget, rfl, hat⟩,
        hcandidate e hhop htarget hat⟩
  obtain ⟨u, hu, e₀, hhop₀, rfl, htarget₀⟩ := hv.pred
  have hne : (predsOf s.preds v).filterMap (fun p => best[p.source]?.map (·.extend (keyOf v) v p)) ≠ [] :=
    List.ne_nil_of_mem ((hmem _).mpr ⟨e₀, ⟨hhop₀, htarget₀, hu⟩, rfl⟩)
  obtain ⟨c, hc, hchosen, hle⟩ := foldl_better_spec hne
  obtain ⟨e, ⟨hhop, rfl, hat⟩, rfl⟩ := (hmem c).mp hc
  have hpre : ∀ e', hop e' → e'.targetNodeUid = e.targetNodeUid →
      AtDepth (edgeNet hop).Joined fromUid e'.sourceNodeUid d →
      Net.Least (edgeNet hop) (routeRanking keyOf) fromUid d e'.sourceNodeUid (pre e'.sourceNodeUid) := by
    intro e' hhop' htarget' hat'
    exact hleast _ (hpreds (predOf e') ((mem_preds_atDepth hs hv hd).mpr ⟨e', hhop', htarget', rfl, hat'⟩))
  refine ⟨pre e.sourceNodeUid ++ [e], by rw [chooseBest_eq, hchosen], ?_⟩
  refine Net.Least.snoc (G := edgeNet hop) (R := routeRanking keyOf) hhop (hpre e hhop rfl hat) ?_
  intro e' hhop' htarget' hroute'
  have hat' : AtDepth (edgeNet hop).Joined fromUid e'.sourceNodeUid d := by
    obtain ⟨m, hm, hat'⟩ := (Net.steps_iff_route.mpr hroute').exists_atDepth
    rcases Nat.eq_or_lt_of_le hm with rfl | hlt
    · exact hat'
    · exact absurd (hat'.1.tail ⟨e', hhop', rfl, htarget'⟩) (hv.2 (m + 1) (by omega))
  have hleast' := hpre e' hhop' htarget' hat'
  refine ⟨hleast', ?_⟩
  have hrank := hle _ ((hmem _).mpr ⟨e', ⟨hhop', htarget', hat'⟩, rfl⟩)
  rw [rank_bestOf_snoc, rank_bestOf_snoc, Prod.Lex.le_iff, Prod.Lex.le_iff] at hrank
  refine Net.rank_le_of_step (hpre e hhop rfl hat).route hleast'.route (fun hkey => ?_) hrank
  exact congrArg pre (hkeys e e' hhop hhop' hkey)

omit hkeys hs in
lemma routeStep_keeps {u : String} {n : ℕ} (h : HoldsLeast keyOf hop fromUid best n u) (hne : u ≠ v) :
    HoldsLeast keyOf hop fromUid (routeStep keyOf s.preds best v) n u := by
  obtain ⟨es, hentry, hleast⟩ := h
  refine ⟨es, ?_, hleast⟩
  rw [routeStep]
  split
  · rw [getElem?_insert_of_ne _ hne.symm, hentry]
  · exact hentry

lemma holdsLeast_level {level : List String} (hd : d < s.depth)
    (hlevel : ∀ v ∈ level, AtDepth (edgeNet hop).Joined fromUid v (d + 1))
    (hpreds : ∀ v ∈ level, ∀ p ∈ predsOf s.preds v, HoldsLeast keyOf hop fromUid best d p.source) {v : String}
    (hv : v ∈ level ∨ AtDepth (edgeNet hop).Joined fromUid v (d + 1) ∧
      HoldsLeast keyOf hop fromUid best (d + 1) v) :
    HoldsLeast keyOf hop fromUid (level.foldl (routeStep keyOf s.preds) best) (d + 1) v := by
  induction level generalizing best with
  | nil => exact (hv.resolve_left (List.not_mem_nil)).2
  | cons w level ih =>
    obtain ⟨hw, hlevel⟩ := List.forall_mem_cons.mp hlevel
    have hfirst : HoldsLeast keyOf hop fromUid (routeStep keyOf s.preds best w) (d + 1) w := by
      obtain ⟨es, hchosen, hleast⟩ := chooseBest_least hkeys hs hw hd (hpreds w List.mem_cons_self)
      refine ⟨es, ?_, hleast⟩
      rw [routeStep, hchosen]
      exact Std.ExtTreeMap.getElem?_insert_self
    have hkept : ∀ x ∈ level, ∀ p ∈ predsOf s.preds x,
        HoldsLeast keyOf hop fromUid (routeStep keyOf s.preds best w) d p.source := by
      intro x hx p hp
      apply routeStep_keeps (hpreds x (List.mem_cons_of_mem _ hx) p hp)
      obtain ⟨e, -, -, rfl, hat⟩ := (mem_preds_atDepth hs (hlevel x hx) hd).mp hp
      -- A node before the level is not on it.
      rintro rfl
      have heq := hat.unique hw
      omega
    rw [List.foldl_cons]
    apply ih hlevel hkept
    rcases hv with hv | ⟨hat, hold⟩
    · rcases List.mem_cons.mp hv with rfl | hv
      · exact .inr ⟨hw, hfirst⟩
      · exact .inl hv
    · by_cases hvw : v = w
      · exact .inr ⟨hat, hvw ▸ hfirst⟩
      · exact .inr ⟨hat, routeStep_keeps hold hvw⟩

omit hkeys hs in
lemma mem_stepBack {current : BTreeSet String} {u : String} : u ∈ stepBack s d current ↔
    ∃ v ∈ current, ∃ p ∈ predsOf s.preds v, p.source = u ∧ s.dist[u]? = some d := by
  have hinner : ∀ (preds : List Pred) (back : BTreeSet String),
      u ∈ preds.foldl (fun back p => if s.dist[p.source]? = some d then back.insert p.source else back) back ↔
        u ∈ back ∨ ∃ p ∈ preds, p.source = u ∧ s.dist[u]? = some d := by
    intro preds
    induction preds with
    | nil =>
      intro back
      simp
    | cons p preds ih =>
      intro back
      rw [List.foldl_cons, ih, List.exists_mem_cons_iff, ← or_assoc]
      refine or_congr_left ?_
      split
      · rename_i hp
        rw [Std.ExtTreeSet.mem_insert, Std.compare_eq_iff_eq, or_comm]
        refine or_congr_right ⟨fun h => ⟨h, h ▸ hp⟩, And.left⟩
      · rename_i hp
        refine ⟨.inl, fun h => h.resolve_right ?_⟩
        rintro ⟨rfl, hdist⟩
        exact hp hdist
  have houter : ∀ (level : List String) (back : BTreeSet String),
      u ∈ level.foldl (fun back v => (predsOf s.preds v).foldl
        (fun back p => if s.dist[p.source]? = some d then back.insert p.source else back) back) back ↔
        u ∈ back ∨ ∃ v ∈ level, ∃ p ∈ predsOf s.preds v, p.source = u ∧ s.dist[u]? = some d := by
    intro level
    induction level with
    | nil =>
      intro back
      simp
    | cons v level ih =>
      intro back
      rw [List.foldl_cons, ih, hinner, List.exists_mem_cons_iff, or_assoc]
  rw [stepBack, houter]
  simp

omit hkeys hs in
lemma onRoute_ne_nil (d : ℕ) (current : BTreeSet String) : onRoute s d current ≠ [] := by
  cases d <;> simp [onRoute]

lemma holdsLeast_onRoute {current : BTreeSet String} (hd : d ≤ s.depth)
    (hcurrent : ∀ v ∈ current, AtDepth (edgeNet hop).Joined fromUid v d)
    (hstart : HoldsLeast keyOf hop fromUid best 0 fromUid) {v : String} (hv : v ∈ current) :
    HoldsLeast keyOf hop fromUid (bestRoutes keyOf s.preds ((onRoute s d current).drop 1) best) d v := by
  induction d generalizing current v with
  | zero =>
    obtain rfl := atDepth_zero.mp (hcurrent v hv)
    exact hstart
  | succ d ih =>
    have hback : ∀ u ∈ stepBack s d current, AtDepth (edgeNet hop).Joined fromUid u d := by
      intro u hu
      obtain ⟨-, -, -, -, -, hdist⟩ := mem_stepBack.mp hu
      exact ((hs.dist u d).mp hdist).1
    have hlength : 1 ≤ (onRoute s d (stepBack s d current)).length :=
      List.length_pos_iff.mpr (onRoute_ne_nil d _)
    rw [onRoute, List.drop_append_of_le_length hlength, bestRoutes, List.foldl_append]
    refine holdsLeast_level hkeys hs (by omega) (fun w hw => hcurrent w (Std.ExtTreeSet.mem_toList.mp hw)) ?_
      (.inl (Std.ExtTreeSet.mem_toList.mpr hv))
    intro w hw p hp
    have hw := Std.ExtTreeSet.mem_toList.mp hw
    refine ih (by omega) hback (mem_stepBack.mpr ⟨w, hw, p, hp, rfl, ?_⟩)
    obtain ⟨e, -, -, rfl, hat⟩ := (mem_preds_atDepth hs (hcurrent w hw) (by omega)).mp hp
    exact (hs.dist _ d).mpr ⟨hat, by omega⟩

end Choice

section Answers

variable (t : CallTables) {hop : LocatedEdge → Prop} {fromUid toUid : String}
    {rows : List String → List LocatedEdge}
  {chunkSize : ℕ} (maxDepth : ℤ)

lemma findPathBetween_spec (hkeys : KeysApart t.keyOf hop) (hrows : ReadsHops hop rows) (hchunk : 0 < chunkSize) :
    (∃ n es, n ≤ maxDepth.toNat ∧ AtDepth (edgeNet hop).Joined fromUid toUid n ∧
      Net.Least (edgeNet hop) (routeRanking t.keyOf) fromUid n toUid es ∧
      t.findPathBetween rows chunkSize fromUid toUid maxDepth = t.answerOf n (bestOf t.keyOf hop fromUid es)) ∨
    (∀ n ≤ maxDepth.toNat, ¬ AtDepth (edgeNet hop).Joined fromUid toUid n) ∧
      t.findPathBetween rows chunkSize fromUid toUid maxDepth = .notFound := by
  obtain ⟨hsearched, hdepth, hend⟩ :=
    @searched_searchLevels hop fromUid toUid rows chunkSize _ hrows hchunk maxDepth.toNat searched_start
  simp only [CallTables.findPathBetween]
  set s := searchLevels rows chunkSize toUid maxDepth.toNat (.start fromUid)
  cases hdist : s.dist[toUid]? with
  | none =>
    refine .inr ⟨fun n hn hat => ?_, rfl⟩
    have hbeyond : s.depth < n := by
      by_contra hle
      exact hsearched.dist_eq_none.mp hdist n (by omega) hat
    rcases hend hdist with hempty | heq
    · obtain ⟨u, hu⟩ := hat.above hbeyond.le
      simpa [hempty] using (hsearched.level u).mpr hu
    · have hzero : (Search.start fromUid).depth = 0 := rfl
      omega
  | some n =>
    obtain ⟨hat, hn⟩ := (hsearched.dist toUid n).mp hdist
    have hstart : HoldsLeast t.keyOf hop fromUid
        ((∅ : HashMap String Best).insert fromUid ⟨0, [t.keyOf fromUid], [fromUid], [""]⟩) 0 fromUid :=
      ⟨[], Std.ExtTreeMap.getElem?_insert_self, Net.Least.nil⟩
    have hcurrent : ∀ v ∈ (∅ : BTreeSet String).insert toUid, AtDepth (edgeNet hop).Joined fromUid v n := by
      intro v hv
      obtain rfl : toUid = v := by simpa using hv
      exact hat
    have htarget : toUid ∈ (∅ : BTreeSet String).insert toUid := Std.ExtTreeSet.mem_insert_self
    obtain ⟨es, hentry, hleast⟩ := holdsLeast_onRoute hkeys hsearched hn hcurrent hstart htarget
    have hzero : (Search.start fromUid).depth = 0 := rfl
    refine .inl ⟨n, es, by omega, hat, hleast, ?_⟩
    simp only [hentry]

lemma bestOf_eq_of_least {n : ℕ} {es es' : List LocatedEdge} {keyOf : String → String}
    (htargets : ∀ e e', hop e → hop e' → keyOf e.targetNodeUid = keyOf e'.targetNodeUid →
      e.targetNodeUid = e'.targetNodeUid)
    (h : Net.Least (edgeNet hop) (routeRanking keyOf) fromUid n toUid es)
    (h' : Net.Least (edgeNet hop) (routeRanking keyOf) fromUid n toUid es') :
    bestOf keyOf hop fromUid es = bestOf keyOf hop fromUid es' := by
  obtain ⟨htotal, hkeys, hlabels⟩ := Net.Ranking.rank_eq_iff.mp (h.rank_eq h')
  have huids : es.map (·.targetNodeUid) = es'.map (·.targetNodeUid) := by
    refine map_eq_of_keys (fun e he e' he' => ?_) (List.cons.inj hkeys).2
    exact htargets e e' (h.route.hop_of_mem e he) (h'.route.hop_of_mem e' he')
  rw [bestOf, bestOf, htotal, hkeys, hlabels, huids]

end Answers

end RepoGraph.Storage
