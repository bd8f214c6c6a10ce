import RepoGraph.Storage.CallCounts

/-! The call aggregates of a snapshot equal the counts of its certain call rows, over any run of promotions
that replace certain calls by certain calls. -/

namespace RepoGraph.Storage.CallTables

open Lib Enrichment

variable {faults : Statement → Bool} {t : CallTables} {snapshotUid : String} {promoted : List PromotedEdge}

def resolvedCallCount (t : CallTables) (snapshotUid : String) : Option ℤ :=
  t.snapshots[snapshotUid]?.bind (·.resolvedCallCount)

def certainCalls (t : CallTables) (snapshotUid : String) : List (String × String) :=
  certainEndpoints t.edges.rows snapshotUid

structure AggregatesExact (t : CallTables) (snapshotUid : String) : Prop where
  count : ∀ n, t.resolvedCallCount snapshotUid = some n → n = (t.certainCalls snapshotUid).length
  degrees : (t.familyMarker snapshotUid .symbolCallDegrees).isSome → ∀ nodeUid,
    Tally.total t.symbolCallDegrees (snapshotUid, nodeUid) =
      ((fanIn (t.certainCalls snapshotUid) nodeUid : ℤ), (fanOut (t.certainCalls snapshotUid) nodeUid : ℤ))
  pairs : (t.familyMarker snapshotUid .resolvedCallFilePairs).isSome → ∀ pair,
    Tally.total t.resolvedCallFilePairs (snapshotUid, pair) = pairCount t.uidPath (t.certainCalls snapshotUid) pair

structure OfSnapshot (t : CallTables) (snapshotUid : String) (promoted : List PromotedEdge) : Prop where
  edges : ∀ e ∈ promoted, e.snapshotUid = snapshotUid
  rows : ∀ e ∈ t.edges.rows, e.edgeUid ∈ promoted.map (·.edgeUid) → e.snapshotUid = snapshotUid

/-- The calls of the list are certain, and so are the calls that it replaces. -/
structure CertainPromotion (t : CallTables) (promoted : List PromotedEdge) : Prop where
  edges : ∀ e ∈ promoted, (rowOfPromoted e).isCall → (rowOfPromoted e).isCertainCall
  rows : ∀ e ∈ t.edges.rows, e.edgeUid ∈ promoted.map (·.edgeUid) → e.isCall → e.isCertainCall

lemma adjustResolvedCallAggregate_get (snapshots : BTreeMap String SnapshotAggregates) (delta : ℤ) :
    (adjustResolvedCallAggregate snapshots snapshotUid delta)[snapshotUid]? =
      snapshots[snapshotUid]?.map fun row =>
        { row with resolvedCallCount := row.resolvedCallCount.map (· + delta) } := by
  unfold adjustResolvedCallAggregate
  cases h : snapshots[snapshotUid]? with
  | none => exact h
  | some row => simp

lemma adjustDegrees_spec {inserted deleted kept : List (String × String)}
    (hexact : ∀ nodeUid, Tally.total t.symbolCallDegrees (snapshotUid, nodeUid) =
      ((fanIn (kept ++ deleted) nodeUid : ℤ), (fanOut (kept ++ deleted) nodeUid : ℤ))) :
    Ensures (adjustDegrees faults t snapshotUid inserted deleted)
      (fun degrees => ∀ nodeUid, Tally.total degrees (snapshotUid, nodeUid) =
        ((fanIn (kept ++ inserted) nodeUid : ℤ), (fanOut (kept ++ inserted) nodeUid : ℤ))) IsFault := by
  have hnew : ∀ nodeUid, Tally.total t.symbolCallDegrees (snapshotUid, nodeUid) +
      Tally.changeAt (degreeChanges inserted deleted) nodeUid =
        ((fanIn (kept ++ inserted) nodeUid : ℤ), (fanOut (kept ++ inserted) nodeUid : ℤ)) := by
    intro nodeUid
    rw [hexact, changeAt_degreeChanges, Prod.mk_add_mk]
    simp only [fanIn_append, fanOut_append, Nat.cast_add]
    congr 1 <;> ring
  refine (Tally.adjust_tally_spec (Prod.mk_right_injective snapshotUid) _ 0 t.symbolCallDegrees
    fun nodeUid => ?_).mono (fun degrees hdegrees nodeUid => ?_) ?_
  · rw [hnew]
    simp
  · rw [hdegrees, hnew]
  · rintro e ⟨row, he⟩
    exact exec_error he

lemma pairCount_paths {paths : HashMap String String} {uids : List String} {l : List (String × String)}
    (hpaths : ∀ uid, paths[uid]? =
      (if uid ∈ uids then t.uidPath uid else none).or (∅ : HashMap String String)[uid]?)
    (hl : ∀ p ∈ l, p.1 ∈ uids ∧ p.2 ∈ uids) (pair : String × String) :
    pairCount (fun uid => paths[uid]?) l pair = pairCount t.uidPath l pair := by
  refine pairCount_congr (fun p hp => ?_) pair
  obtain ⟨hsource, htarget⟩ := hl p hp
  simp [hpaths, hsource, htarget]

lemma adjustPairs_spec {inserted deleted kept : List (String × String)}
    (hexact : ∀ pair, Tally.total t.resolvedCallFilePairs (snapshotUid, pair) =
      pairCount t.uidPath (kept ++ deleted) pair) :
    Ensures (adjustPairs faults t snapshotUid inserted deleted)
      (fun pairs => ∀ pair, Tally.total pairs (snapshotUid, pair) = pairCount t.uidPath (kept ++ inserted) pair)
      IsFault := by
  have hflat : ∀ uid, uid ∈ (chunks 100 (Std.ExtTreeSet.ofList
      ((inserted ++ deleted).flatMap fun p => [p.1, p.2]) compare).toList).flatten ↔
        ∃ p ∈ inserted ++ deleted, uid = p.1 ∨ uid = p.2 := by
    intro uid
    rw [flatten_chunks (by decide)]
    simp [or_and_right, exists_or]
  refine (pathByUid_spec t 0 _ ∅).bind fun paths hpaths => ?_
  have hinserted := pairCount_paths hpaths (l := inserted) fun p hp =>
    ⟨(hflat _).mpr ⟨p, List.mem_append_left _ hp, .inl rfl⟩,
      (hflat _).mpr ⟨p, List.mem_append_left _ hp, .inr rfl⟩⟩
  have hdeleted := pairCount_paths hpaths (l := deleted) fun p hp =>
    ⟨(hflat _).mpr ⟨p, List.mem_append_right _ hp, .inl rfl⟩,
      (hflat _).mpr ⟨p, List.mem_append_right _ hp, .inr rfl⟩⟩
  have hnew : ∀ pair, Tally.total t.resolvedCallFilePairs (snapshotUid, pair) +
      Tally.changeAt (pairChanges paths inserted 1 ++ pairChanges paths deleted (-1)) pair =
        pairCount t.uidPath (kept ++ inserted) pair := by
    intro pair
    rw [hexact, Tally.changeAt_append, changeAt_pairChanges, changeAt_pairChanges, hinserted, hdeleted]
    simp only [pairCount_append, Nat.cast_add]
    ring
  refine (Tally.adjust_tally_spec (Prod.mk_right_injective snapshotUid) _ 0 t.resolvedCallFilePairs
    fun pair => ?_).mono (fun pairs hpairs pair => ?_) ?_
  · rw [hnew]
    simp
  · rw [hpairs, hnew]
  · rintro e ⟨row, he⟩
    exact exec_error he

structure Kept (t t' : CallTables) (snapshotUid : String) : Prop where
  nodes : t'.nodes = t.nodes
  files : t'.files = t.files
  declarations : t'.declarations = t.declarations
  inferences : t'.inferences = t.inferences
  markers : ∀ family, t'.familyMarker snapshotUid family = t.familyMarker snapshotUid family
  count : t.resolvedCallCount snapshotUid = none → t'.resolvedCallCount snapshotUid = none
  degrees : t.familyMarker snapshotUid .symbolCallDegrees = none → t'.symbolCallDegrees = t.symbolCallDegrees
  pairs : t.familyMarker snapshotUid .resolvedCallFilePairs = none →
    t'.resolvedCallFilePairs = t.resolvedCallFilePairs

lemma Kept.refl (t : CallTables) (snapshotUid : String) : Kept t t snapshotUid :=
  ⟨rfl, rfl, rfl, rfl, fun _ => rfl, id, fun _ => rfl, fun _ => rfl⟩

lemma Kept.trans {t t' t'' : CallTables} (h : Kept t t' snapshotUid) (h' : Kept t' t'' snapshotUid) :
    Kept t t'' snapshotUid where
  nodes := h'.nodes.trans h.nodes
  files := h'.files.trans h.files
  declarations := h'.declarations.trans h.declarations
  inferences := h'.inferences.trans h.inferences
  markers family := (h'.markers family).trans (h.markers family)
  count hcount := h'.count (h.count hcount)
  degrees hnone := (h'.degrees ((h.markers _).trans hnone)).trans (h.degrees hnone)
  pairs hnone := (h'.pairs ((h.markers _).trans hnone)).trans (h.pairs hnone)

structure Moved (t : CallTables) (promoted : List PromotedEdge) (edges : EdgeTable)
    (inserted deleted : List (String × String)) (new : List LocatedEdge) : Prop where
  rows : edges.rows = (t.edges.rows.filter fun e => e.edgeUid ∉ promoted.map (·.edgeUid)) ++ new
  landed : new.Sublist (promoted.map rowOfPromoted)
  inserted : inserted = callEndpoints new
  deleted : deleted.Perm (callEndpoints (t.edges.rows.filter fun e => e.edgeUid ∈ promoted.map (·.edgeUid)))

lemma applyPromotion_ensures {post : ℕ × CallTables → Prop} {exc : PromotionError → Prop}
    (degreesPost : EdgeTable → BTreeMap (String × String) (ℤ × ℤ) → Prop)
    (pairsPost : EdgeTable → BTreeMap (String × String × String) ℤ → Prop)
    (hfault : ∀ e, IsFault e → exc e) (hempty : post (0, t))
    (hdegrees : ∀ edges inserted deleted new, Moved t promoted edges inserted deleted new →
      Ensures (whenPresent (t.familyMarker snapshotUid .symbolCallDegrees).isSome
        (adjustDegrees faults t snapshotUid inserted deleted) t.symbolCallDegrees) (degreesPost edges) exc)
    (hpairs : ∀ edges inserted deleted new, Moved t promoted edges inserted deleted new →
      Ensures (whenPresent (t.familyMarker snapshotUid .resolvedCallFilePairs).isSome
        (adjustPairs faults t snapshotUid inserted deleted) t.resolvedCallFilePairs) (pairsPost edges) exc)
    (hcommit : ∀ edges inserted deleted new, Moved t promoted edges inserted deleted new →
      ∀ degrees pairs, degreesPost edges degrees → pairsPost edges pairs →
        post (new.length, { t with
          edges := edges
          snapshots := adjustResolvedCallAggregate t.snapshots snapshotUid (inserted.length - deleted.length)
          symbolCallDegrees := degrees
          resolvedCallFilePairs := pairs })) :
    Ensures (applyPromotion faults t snapshotUid promoted) post exc := by
  have hexec : ∀ statement, Ensures (exec faults statement) (fun _ => True) exc := fun statement =>
    (exec_spec statement).mono (fun _ h => h) hfault
  unfold applyPromotion
  split
  · exact hempty
  · refine (hexec _).bind fun _ _ => (hexec _).bind fun _ _ => (hexec _).bind fun _ _ => ?_
    refine ((deletePromoted_spec 0 _ t.edges).mono (fun _ h => h) hfault).bind fun r hr => ?_
    obtain ⟨edges, deleted⟩ := r
    rw [flatten_chunks (by decide)] at hr
    obtain ⟨hrows, hdeleted⟩ := hr
    obtain ⟨new, hlanded, hedges, hcount, hinserted⟩ := insertPromoted_spec faults t 0 promoted ⟨edges, 0, []⟩
    have hmoved : Moved t promoted (insertPromoted faults t 0 promoted ⟨edges, 0, []⟩).edges
        (insertPromoted faults t 0 promoted ⟨edges, 0, []⟩).insertedCallEndpoints deleted new :=
      ⟨by rw [hedges]; exact congrArg (· ++ new) hrows, hlanded, hinserted, hdeleted⟩
    refine (hexec _).bind fun _ _ => (hexec _).bind fun _ _ => ?_
    refine (hdegrees _ _ _ _ hmoved).bind fun degrees hdegreesPost => ?_
    refine (hpairs _ _ _ _ hmoved).bind fun pairs hpairsPost => (hexec _).bind fun _ _ => ?_
    rw [ensures_ok, hcount, Nat.zero_add]
    exact hcommit _ _ _ _ hmoved degrees pairs hdegreesPost hpairsPost

lemma familyMarker_adjusted {t' : CallTables} {delta : ℤ}
    (h : t'.snapshots = adjustResolvedCallAggregate t.snapshots snapshotUid delta) (family : CallAggregateFamily) :
    t'.familyMarker snapshotUid family = t.familyMarker snapshotUid family := by
  rw [familyMarker, familyMarker, h, adjustResolvedCallAggregate_get]
  cases t.snapshots[snapshotUid]? with
  | none => rfl
  | some row => cases family <;> rfl

lemma resolvedCallCount_adjusted {t' : CallTables} {delta : ℤ}
    (h : t'.snapshots = adjustResolvedCallAggregate t.snapshots snapshotUid delta) :
    t'.resolvedCallCount snapshotUid = (t.resolvedCallCount snapshotUid).map (· + delta) := by
  rw [resolvedCallCount, resolvedCallCount, h, adjustResolvedCallAggregate_get]
  cases t.snapshots[snapshotUid]? with
  | none => rfl
  | some row => rfl

lemma whenPresent_spec {β : Type} {marker : Option String} {adjusted : Except PromotionError β} {stored : β}
    {post : β → Prop} {exc : PromotionError → Prop} (hadjusted : marker.isSome → Ensures adjusted post exc)
    (hstored : marker = none → post stored) : Ensures (whenPresent marker.isSome adjusted stored) post exc := by
  cases marker with
  | none => exact hstored rfl
  | some label => exact hadjusted rfl

lemma applyPromotion_kept (faults : Statement → Bool) (t : CallTables) (snapshotUid : String)
    (promoted : List PromotedEdge) :
    Ensures (applyPromotion faults t snapshotUid promoted) (fun r => Kept t r.2 snapshotUid) fun _ => True := by
  apply applyPromotion_ensures
    (fun _ degrees => t.familyMarker snapshotUid .symbolCallDegrees = none → degrees = t.symbolCallDegrees)
    (fun _ pairs => t.familyMarker snapshotUid .resolvedCallFilePairs = none → pairs = t.resolvedCallFilePairs)
  · exact fun _ _ => trivial
  · exact Kept.refl t snapshotUid
  · intro edges inserted deleted new _
    refine whenPresent_spec (fun hsome => (Ensures.of_true _).mono (fun _ _ hnone => ?_) fun _ h =>
      h) fun _ _ => rfl
    rw [hnone] at hsome
    cases hsome
  · intro edges inserted deleted new _
    refine whenPresent_spec (fun hsome => (Ensures.of_true _).mono (fun _ _ hnone => ?_) fun _ h =>
      h) fun _ _ => rfl
    rw [hnone] at hsome
    cases hsome
  · intro edges inserted deleted new _ degrees pairs hdegrees hpairs
    exact ⟨rfl, rfl, rfl, rfl, familyMarker_adjusted rfl, fun h => by rw [resolvedCallCount_adjusted rfl, h]; rfl,
      hdegrees, hpairs⟩

lemma applyPromotion_rows (faults : Statement → Bool) (t : CallTables) (snapshotUid : String)
    (promoted : List PromotedEdge) :
    Ensures (applyPromotion faults t snapshotUid promoted)
      (fun r => r.1 = promoted.length → r.2.edges.rows =
        (t.edges.rows.filter fun e => e.edgeUid ∉ promoted.map (·.edgeUid)) ++ promoted.map rowOfPromoted)
      fun _ => True := by
  apply applyPromotion_ensures (fun _ _ => True) (fun _ _ => True)
  · exact fun _ _ => trivial
  · intro hlen
    obtain rfl := List.eq_nil_of_length_eq_zero hlen.symm
    simp
  · exact fun _ _ _ _ _ => Ensures.of_true _
  · exact fun _ _ _ _ _ => Ensures.of_true _
  · intro edges inserted deleted new hmoved degrees pairs _ _ hlen
    have hcount : new.length = promoted.length := hlen
    have hnew : new = promoted.map rowOfPromoted := hmoved.landed.eq_of_length (by rw [hcount, List.length_map])
    change edges.rows = _
    rw [hmoved.rows, hnew]

lemma certainCalls_moved {edges : EdgeTable} {inserted deleted : List (String × String)} {new : List LocatedEdge}
    (hmoved : Moved t promoted edges inserted deleted new) (hof : OfSnapshot t snapshotUid promoted)
    (hcertain : CertainPromotion t promoted) :
    ∃ kept, (t.certainCalls snapshotUid).Perm (kept ++ deleted) ∧
      certainEndpoints edges.rows snapshotUid = kept ++ inserted := by
  obtain ⟨hrows, hlanded, rfl, hdeleted⟩ := hmoved
  refine ⟨certainEndpoints (t.edges.rows.filter fun e => e.edgeUid ∉ promoted.map (·.edgeUid)) snapshotUid, ?_, ?_⟩
  · have hgone : certainEndpoints (t.edges.rows.filter fun e => e.edgeUid ∈ promoted.map (·.edgeUid)) snapshotUid =
        callEndpoints (t.edges.rows.filter fun e => e.edgeUid ∈ promoted.map (·.edgeUid)) := by
      apply certainEndpoints_eq_callEndpoints
      · intro e he
        obtain ⟨he, huid⟩ := List.mem_filter.mp he
        exact hof.rows e he (by simpa using huid)
      · intro e he
        obtain ⟨he, huid⟩ := List.mem_filter.mp he
        exact hcertain.rows e he (by simpa using huid)
    have hsplit := List.filter_append_perm (fun e : LocatedEdge => decide (e.edgeUid ∉ promoted.map (·.edgeUid)))
      t.edges.rows
    have hcalls := certainEndpoints_perm hsplit snapshotUid
    rw [certainEndpoints_append] at hcalls
    refine hcalls.symm.trans (List.Perm.append_left _ ?_)
    simp only [decide_not, Bool.not_not]
    rw [hgone]
    exact hdeleted.symm
  · rw [hrows, certainEndpoints_append]
    congr 1
    apply certainEndpoints_eq_callEndpoints
    · intro row hrow
      obtain ⟨e, he, rfl⟩ := List.mem_map.mp (hlanded.subset hrow)
      exact hof.edges e he
    · intro row hrow
      obtain ⟨e, he, rfl⟩ := List.mem_map.mp (hlanded.subset hrow)
      exact hcertain.edges e he

lemma fanIn_perm {l l' : List (String × String)} (h : l.Perm l') (nodeUid : String) :
    fanIn l nodeUid = fanIn l' nodeUid :=
  h.countP_eq _

lemma fanOut_perm {l l' : List (String × String)} (h : l.Perm l') (nodeUid : String) :
    fanOut l nodeUid = fanOut l' nodeUid :=
  h.countP_eq _

lemma pairCount_perm {path : String → Option String} {l l' : List (String × String)} (h : l.Perm l')
    (pair : String × String) : pairCount path l pair = pairCount path l' pair :=
  (h.filterMap _).count_eq _

lemma applyPromotion_exact (hexact : AggregatesExact t snapshotUid) (hof : OfSnapshot t snapshotUid promoted)
    (hcertain : CertainPromotion t promoted) :
    Ensures (applyPromotion faults t snapshotUid promoted) (fun r => AggregatesExact r.2 snapshotUid) IsFault := by
  apply applyPromotion_ensures
    (fun edges degrees => (t.familyMarker snapshotUid .symbolCallDegrees).isSome → ∀ nodeUid,
      Tally.total degrees (snapshotUid, nodeUid) =
        ((fanIn (certainEndpoints edges.rows snapshotUid) nodeUid : ℤ),
          (fanOut (certainEndpoints edges.rows snapshotUid) nodeUid : ℤ)))
    (fun edges pairs => (t.familyMarker snapshotUid .resolvedCallFilePairs).isSome → ∀ pair,
      Tally.total pairs (snapshotUid, pair) = pairCount t.uidPath (certainEndpoints edges.rows snapshotUid) pair)
  · exact fun _ h => h
  · exact hexact
  · intro edges inserted deleted new hmoved
    obtain ⟨kept, hbefore, hafter⟩ := certainCalls_moved hmoved hof hcertain
    refine whenPresent_spec (fun hmarker => ?_) fun hnone hmarker => by rw [hnone] at hmarker; cases hmarker
    rw [hafter]
    refine (adjustDegrees_spec fun nodeUid => ?_).mono (fun degrees h _ => h) fun _ h => h
    rw [hexact.degrees hmarker, fanIn_perm hbefore, fanOut_perm hbefore]
  · intro edges inserted deleted new hmoved
    obtain ⟨kept, hbefore, hafter⟩ := certainCalls_moved hmoved hof hcertain
    refine whenPresent_spec (fun hmarker => ?_) fun hnone hmarker => by rw [hnone] at hmarker; cases hmarker
    rw [hafter]
    refine (adjustPairs_spec fun pair => ?_).mono (fun pairs h _ => h) fun _ h => h
    rw [hexact.pairs hmarker, pairCount_perm hbefore]
  · intro edges inserted deleted new hmoved degrees pairs hdegrees hpairs
    obtain ⟨kept, hbefore, hafter⟩ := certainCalls_moved hmoved hof hcertain
    refine ⟨fun count hcount => ?_, fun hmarker => ?_, fun hmarker => ?_⟩
    · rw [resolvedCallCount_adjusted rfl] at hcount
      obtain ⟨count₀, hcount₀, rfl⟩ := Option.map_eq_some_iff.mp hcount
      rw [hexact.count _ hcount₀, hbefore.length_eq, certainCalls, hafter]
      simp only [List.length_append, Nat.cast_add]
      ring
    · rw [familyMarker_adjusted rfl] at hmarker
      exact hdegrees hmarker
    · rw [familyMarker_adjusted rfl] at hmarker
      exact hpairs hmarker

/-! Liveness from the degrees and from the rows. -/

/-- With exact degrees the persisted source of liveness and the stored rows name the same nodes. -/
lemma isLive_eq (hexact : AggregatesExact t snapshotUid)
    (hmarker : (t.familyMarker snapshotUid .symbolCallDegrees).isSome) (nodeUid : String) :
    t.isLive true snapshotUid nodeUid = t.isLive false snapshotUid nodeUid := by
  have hfanIn : t.hasCallFanIn snapshotUid nodeUid =
      t.edges.rows.any fun e => e.snapshotUid = snapshotUid && e.isCertainCall && e.targetNodeUid = nodeUid := by
    have htotal := hexact.degrees hmarker nodeUid
    rw [Bool.eq_iff_iff, List.any_eq_true]
    have hpos : t.hasCallFanIn snapshotUid nodeUid ↔
        0 < (Tally.total t.symbolCallDegrees (snapshotUid, nodeUid)).1 := by
      rw [hasCallFanIn, Tally.total]
      cases t.symbolCallDegrees[(snapshotUid, nodeUid)]? with
      | none => simp
      | some degree => simp
    rw [hpos, htotal, Nat.cast_pos, fanIn, List.countP_pos_iff, certainCalls, certainEndpoints]
    simp [LocatedEdge.endpoints, and_assoc]
  rw [isLive, isLive, if_pos rfl, if_neg (by simp), hfanIn, isRetainedTarget, isRowTarget, Bool.eq_iff_iff]
  simp only [Bool.or_eq_true, List.any_eq_true, Bool.and_eq_true]
  grind

lemma findDeadNodesBy_eq (hexact : AggregatesExact t snapshotUid)
    (hmarker : (t.familyMarker snapshotUid .symbolCallDegrees).isSome) (repoUid : String) (kind : Option String) :
    t.findDeadNodesBy false snapshotUid repoUid kind = (do
      t.rejectUnreadableCallResolutions snapshotUid "find_dead_nodes"
      t.findDeadNodesBy true snapshotUid repoUid kind) := by
  have hrows : t.deadRows false snapshotUid repoUid kind = t.deadRows true snapshotUid repoUid kind := by
    simp only [deadRows, isLive_eq hexact hmarker]
  simp only [findDeadNodesBy, hrows]
  rfl

/-! Runs. -/

structure PromotionCall where
  promoted : List PromotedEdge
  faults : Statement → Bool

/-- A call that fails leaves the tables as they were. -/
def callPromotion (snapshotUid : String) (t : CallTables) (c : PromotionCall) :
    Except PromotionError ℕ × CallTables :=
  match applyPromotion c.faults t snapshotUid c.promoted with
  | .ok (n, t') => (.ok n, t')
  | .error e => (.error e, t)

def afterCalls (snapshotUid : String) (t : CallTables) (calls : List PromotionCall) : CallTables :=
  run (fun t c => (callPromotion snapshotUid t c).2) t calls

lemma callPromotion_kept (snapshotUid : String) (t : CallTables) (c : PromotionCall) :
    Kept t (callPromotion snapshotUid t c).2 snapshotUid := by
  have hkept := applyPromotion_kept c.faults t snapshotUid c.promoted
  rw [callPromotion]
  cases h : applyPromotion c.faults t snapshotUid c.promoted with
  | error e => exact Kept.refl t snapshotUid
  | ok r =>
    rw [h] at hkept
    exact hkept

lemma callPromotion_exact {c : PromotionCall} (hexact : AggregatesExact t snapshotUid)
    (hof : OfSnapshot t snapshotUid c.promoted) (hcertain : CertainPromotion t c.promoted) :
    AggregatesExact (callPromotion snapshotUid t c).2 snapshotUid ∧
      ∀ family, (callPromotion snapshotUid t c).1 ≠ .error (.checkFailed family) := by
  have h : Ensures (applyPromotion c.faults t snapshotUid c.promoted) _ _ :=
    applyPromotion_exact hexact hof hcertain
  rw [callPromotion]
  cases hc : applyPromotion c.faults t snapshotUid c.promoted with
  | error e =>
    rw [hc] at h
    obtain ⟨statement, rfl⟩ := h
    exact ⟨hexact, fun family => by simp⟩
  | ok r =>
    rw [hc] at h
    exact ⟨h, fun family => by simp⟩

lemma afterCalls_kept (snapshotUid : String) (t : CallTables) (calls : List PromotionCall) :
    Kept t (afterCalls snapshotUid t calls) snapshotUid :=
  run_invariant (fun _ t' => Kept t t' snapshotUid) (Kept.refl t snapshotUid)
    (fun _ t' c h => h.trans (callPromotion_kept snapshotUid t' c)) calls

/-- Over any run of promotions of a snapshot, a family without its marker is never written. And when every call
that is inserted or replaced is certain, exact aggregates stay exact, no call fails on a check, and both
sources of liveness give the same dead nodes. -/
theorem promotions_keep_parity (t : CallTables) (snapshotUid : String) (calls : List PromotionCall)
    (hof : ∀ pre c, pre ++ [c] <+: calls → OfSnapshot (afterCalls snapshotUid t pre) snapshotUid c.promoted) :
    Kept t (afterCalls snapshotUid t calls) snapshotUid ∧
      (AggregatesExact t snapshotUid →
        (∀ pre c, pre ++ [c] <+: calls → CertainPromotion (afterCalls snapshotUid t pre) c.promoted) →
        AggregatesExact (afterCalls snapshotUid t calls) snapshotUid ∧
          (∀ pre c, pre ++ [c] <+: calls → ∀ family,
            (callPromotion snapshotUid (afterCalls snapshotUid t pre) c).1 ≠ .error (.checkFailed family)) ∧
          ((t.familyMarker snapshotUid .symbolCallDegrees).isSome → ∀ repoUid kind,
            (afterCalls snapshotUid t calls).findDeadNodesBy false snapshotUid repoUid kind = (do
              (afterCalls snapshotUid t calls).rejectUnreadableCallResolutions snapshotUid "find_dead_nodes"
              (afterCalls snapshotUid t calls).findDeadNodesBy true snapshotUid repoUid kind))) := by
  refine ⟨afterCalls_kept snapshotUid t calls, fun hexact hcertain => ?_⟩
  have hbegins : ∀ pre, pre <+: calls → AggregatesExact (afterCalls snapshotUid t pre) snapshotUid := by
    intro pre
    induction pre using List.reverseRecOn with
    | nil => exact fun _ => hexact
    | append_singleton pre c ih =>
      intro hpre
      have hbefore := ih ((List.prefix_append pre [c]).trans hpre)
      rw [afterCalls, run_snoc]
      exact (callPromotion_exact hbefore (hof pre c hpre) (hcertain pre c hpre)).1
  have hafter := hbegins calls (List.prefix_refl calls)
  refine ⟨hafter, fun pre c hpre => ?_, fun hmarker repoUid kind => ?_⟩
  · have hbefore := hbegins pre ((List.prefix_append pre [c]).trans hpre)
    exact (callPromotion_exact hbefore (hof pre c hpre) (hcertain pre c hpre)).2
  · apply findDeadNodesBy_eq hafter
    rw [(afterCalls_kept snapshotUid t calls).markers]
    exact hmarker

/-! A snapshot of two files whose promoted call is written once inferred, once static. -/

def twoNodes : List LocatedNode :=
  [{ nodeUid := "n1", snapshotUid := "s1", kind := "SYMBOL", name := "caller", qualifiedName := none,
     fileUid := some "f1", stableKey := "k1", subtype := none, parentNodeUid := none,
     lineStart := none, lineEnd := none },
   { nodeUid := "n2", snapshotUid := "s1", kind := "SYMBOL", name := "callee", qualifiedName := none,
     fileUid := some "f2", stableKey := "k2", subtype := none, parentNodeUid := none,
     lineStart := none, lineEnd := none }]

def twoNodeTables : CallTables where
  repos := ["r1"]
  snapshots := Std.ExtTreeMap.ofList [("s1", ⟨some 0, some "pipeline", some "pipeline"⟩)] compare
  files := [⟨"f1", "a.ts", .null⟩, ⟨"f2", "b.ts", .null⟩]
  nodes := twoNodes
  edges := ⟨[], List.nodup_nil⟩
  symbolCallDegrees := ∅
  resolvedCallFilePairs := ∅
  declarations := []
  inferences := []
  nodeKeys := by decide

def promotedCall (resolution : String) : PromotionCall where
  promoted :=
    [{ edgeUid := "promoted:e1", snapshotUid := "s1", repoUid := "r1",
       sourceNodeUid := "n1", targetNodeUid := "n2",
       edgeType := "CALLS", resolution := resolution, extractor := "compiler-promotion", location := none,
       metadataJson := "" }]
  faults := fun _ => false

lemma twoNodeTables_exact : AggregatesExact twoNodeTables "s1" where
  count n hn := by
    have hzero : twoNodeTables.resolvedCallCount "s1" = some 0 := by decide +kernel
    rw [hzero] at hn
    obtain rfl := Option.some.inj hn
    rfl
  degrees _ nodeUid := by
    simp [twoNodeTables, Tally.total, certainCalls, certainEndpoints, fanIn, fanOut, Prod.zero_eq_mk]
  pairs _ pair := by
    simp [twoNodeTables, Tally.total, certainCalls, certainEndpoints, pairCount]

lemma ofSnapshot_promotedCall (resolution : String) :
    OfSnapshot twoNodeTables "s1" (promotedCall resolution).promoted where
  edges e he := by
    rw [promotedCall, List.mem_singleton] at he
    rw [he]
  rows e he := by simp [twoNodeTables] at he

lemma eq_of_prefix_singleton {α : Type} {pre : List α} {a b : α} (h : pre ++ [a] <+: [b]) : pre = [] ∧ a = b := by
  have hlen := h.length_le
  rw [List.length_append, List.length_singleton, List.length_singleton] at hlen
  obtain rfl : pre = [] := List.eq_nil_of_length_eq_zero (by omega)
  exact ⟨rfl, by simpa using h⟩

def turnedCall : PromotionCall where
  promoted := (promotedCall "static").promoted.map fun e => { e with sourceNodeUid := "n2", targetNodeUid := "n1" }
  faults := fun _ => false

/-- The second call replaces the row of the first one. -/
theorem promotions_keep_parity_two :
    AggregatesExact (afterCalls "s1" twoNodeTables [promotedCall "static", turnedCall]) "s1" := by
  have hof : ∀ k, (h : k < [promotedCall "static", turnedCall].length) →
      OfSnapshot (afterCalls "s1" twoNodeTables ([promotedCall "static", turnedCall].take k)) "s1"
        [promotedCall "static", turnedCall][k].promoted := by
    have hfirst : OfSnapshot (afterCalls "s1" twoNodeTables []) "s1" (promotedCall "static").promoted :=
      ⟨by decide +kernel, by decide +kernel⟩
    have hsecond : OfSnapshot (afterCalls "s1" twoNodeTables [promotedCall "static"]) "s1" turnedCall.promoted :=
      ⟨by decide +kernel, by decide +kernel⟩
    rintro (_ | _ | k) hk
    · exact hfirst
    · exact hsecond
    · simp at hk
  have hcertain : ∀ k, (h : k < [promotedCall "static", turnedCall].length) →
      CertainPromotion (afterCalls "s1" twoNodeTables ([promotedCall "static", turnedCall].take k))
        [promotedCall "static", turnedCall][k].promoted := by
    have hfirst : CertainPromotion (afterCalls "s1" twoNodeTables []) (promotedCall "static").promoted :=
      ⟨by decide +kernel, by decide +kernel⟩
    have hsecond : CertainPromotion (afterCalls "s1" twoNodeTables [promotedCall "static"]) turnedCall.promoted :=
      ⟨by decide +kernel, by decide +kernel⟩
    rintro (_ | _ | k) hk
    · exact hfirst
    · exact hsecond
    · simp at hk
  exact ((promotions_keep_parity twoNodeTables "s1" [promotedCall "static", turnedCall]
    ((forall_prefix_snoc _ _).mpr hof)).2 twoNodeTables_exact ((forall_prefix_snoc _ _).mpr hcertain)).1

/-- An inferred call is counted as it lands, and no certain call is there. -/
theorem inferred_promotion_counted :
    ¬ ∀ (t : CallTables) (snapshotUid : String) (calls : List PromotionCall),
      (∀ pre c, pre ++ [c] <+: calls → OfSnapshot (afterCalls snapshotUid t pre) snapshotUid c.promoted) →
        AggregatesExact t snapshotUid → AggregatesExact (afterCalls snapshotUid t calls) snapshotUid := by
  intro h
  have hexact := h twoNodeTables "s1" [promotedCall "inferred"] (fun pre c hpre => by
    obtain ⟨rfl, rfl⟩ := eq_of_prefix_singleton hpre
    exact ofSnapshot_promotedCall "inferred") twoNodeTables_exact
  have hcount : (afterCalls "s1" twoNodeTables [promotedCall "inferred"]).resolvedCallCount "s1" = some 1 := by
    decide +kernel
  have hnone : (afterCalls "s1" twoNodeTables [promotedCall "inferred"]).certainCalls "s1" = [] := by
    decide +kernel
  have hone := hexact.count 1 hcount
  rw [hnone] at hone
  cases hone

end RepoGraph.Storage.CallTables
