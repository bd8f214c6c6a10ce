import RepoGraph.Lib.Runs
import RepoGraph.Storage.DeadNodes

/-! What a promotion does to the call rows of its snapshot, and that its aggregates count them. -/

namespace RepoGraph.Storage

open Lib Enrichment

section Rows

open CallTables

lemma callEndpoints_append (rows rows' : List LocatedEdge) :
    callEndpoints (rows ++ rows') = callEndpoints rows ++ callEndpoints rows' := by
  rw [callEndpoints, List.filter_append, List.map_append]
  rfl

lemma callEndpoints_perm {rows rows' : List LocatedEdge} (h : rows.Perm rows') :
    (callEndpoints rows).Perm (callEndpoints rows') :=
  (h.filter _).map _

def certainEndpoints (rows : List LocatedEdge) (snapshotUid : String) : List (String × String) :=
  (rows.filter fun e => e.snapshotUid = snapshotUid && e.isCertainCall).map (·.endpoints)

lemma certainEndpoints_append (rows rows' : List LocatedEdge) (snapshotUid : String) :
    certainEndpoints (rows ++ rows') snapshotUid =
      certainEndpoints rows snapshotUid ++ certainEndpoints rows' snapshotUid := by
  rw [certainEndpoints, List.filter_append, List.map_append]
  rfl

lemma certainEndpoints_perm {rows rows' : List LocatedEdge} (h : rows.Perm rows') (snapshotUid : String) :
    (certainEndpoints rows snapshotUid).Perm (certainEndpoints rows' snapshotUid) :=
  (h.filter _).map _

lemma certainEndpoints_eq_callEndpoints {rows : List LocatedEdge} {snapshotUid : String}
    (hsnapshot : ∀ e ∈ rows, e.snapshotUid = snapshotUid) (hcertain : ∀ e ∈ rows, e.isCall → e.isCertainCall) :
    certainEndpoints rows snapshotUid = callEndpoints rows := by
  have hfilter : (rows.filter fun e => e.snapshotUid = snapshotUid && e.isCertainCall) =
      rows.filter (·.isCall) := by
    apply List.filter_congr
    intro e he
    cases hcall : e.isCall with
    | true => simp [hsnapshot e he, hcertain e he hcall]
    | false => simp [LocatedEdge.isCertainCall, hcall]
  rw [certainEndpoints, hfilter]
  rfl

def fanIn (endpoints : List (String × String)) (nodeUid : String) : ℕ := endpoints.countP (·.2 = nodeUid)

def fanOut (endpoints : List (String × String)) (nodeUid : String) : ℕ := endpoints.countP (·.1 = nodeUid)

def pairCount (path : String → Option String) (endpoints : List (String × String)) (pair : String × String) : ℕ :=
  (endpoints.filterMap (filePair path)).count pair

lemma fanIn_append (l l' : List (String × String)) (nodeUid : String) :
    fanIn (l ++ l') nodeUid = fanIn l nodeUid + fanIn l' nodeUid :=
  List.countP_append

lemma fanOut_append (l l' : List (String × String)) (nodeUid : String) :
    fanOut (l ++ l') nodeUid = fanOut l nodeUid + fanOut l' nodeUid :=
  List.countP_append

lemma pairCount_append (path : String → Option String) (l l' : List (String × String)) (pair : String × String) :
    pairCount path (l ++ l') pair = pairCount path l pair + pairCount path l' pair := by
  rw [pairCount, List.filterMap_append, List.count_append]
  rfl

lemma pairCount_congr {path path' : String → Option String} {l : List (String × String)}
    (h : ∀ p ∈ l, path p.1 = path' p.1 ∧ path p.2 = path' p.2) (pair : String × String) :
    pairCount path l pair = pairCount path' l pair := by
  have hpairs : l.filterMap (filePair path) = l.filterMap (filePair path') := by
    apply List.filterMap_congr
    intro p hp
    obtain ⟨hsource, htarget⟩ := h p hp
    simp only [filePair, hsource, htarget]
  rw [pairCount, hpairs]
  rfl

end Rows

section Changes

open CallTables

lemma changeAt_degreeChanges (inserted deleted : List (String × String)) (nodeUid : String) :
    Tally.changeAt (degreeChanges inserted deleted) nodeUid =
      ((fanIn inserted nodeUid : ℤ) - fanIn deleted nodeUid, (fanOut inserted nodeUid : ℤ) -
        fanOut deleted nodeUid) := by
  have hside : ∀ (sign : ℤ) (l : List (String × String)),
      Tally.changeAt (l.flatMap fun p => [(p.2, (sign, (0 : ℤ))), (p.1, ((0 : ℤ), sign))]) nodeUid =
        (sign * fanIn l nodeUid, sign * fanOut l nodeUid) := by
    intro sign l
    induction l with
    | nil => simp [fanIn, fanOut, Prod.zero_eq_mk]
    | cons p l ih =>
      rw [List.flatMap_cons, Tally.changeAt_append, ih, Tally.changeAt_cons, Tally.changeAt_cons]
      simp only [fanIn, fanOut, List.countP_cons]
      by_cases hin : p.2 = nodeUid <;> by_cases hout : p.1 = nodeUid <;> simp [hin, hout, mul_add, add_comm]
  change Tally.changeAt (_ ++ _) nodeUid = _
  rw [Tally.changeAt_append, hside 1 inserted, hside (-1) deleted, Prod.mk_add_mk]
  congr 1 <;> ring

lemma changeAt_pairChanges (paths : HashMap String String) (endpoints : List (String × String)) (sign : ℤ)
    (pair : String × String) :
    Tally.changeAt (pairChanges paths endpoints sign) pair =
      sign * pairCount (fun uid => paths[uid]?) endpoints pair := by
  rw [pairChanges, pairCount]
  generalize hpairs : endpoints.filterMap (filePair fun uid => paths[uid]?) = pairs
  clear hpairs
  induction pairs with
  | nil => simp
  | cons p pairs ih =>
    rw [List.map_cons, Tally.changeAt_cons, ih, List.count_cons]
    by_cases h : p = pair <;> simp [h, mul_add, add_comm]

end Changes

namespace CallTables

def IsFault (e : PromotionError) : Prop := ∃ statement, e = .sqlite statement

variable {faults : Statement → Bool}

lemma exec_error {statement : Statement} {e : PromotionError}
    (h : exec faults statement = .error e) : IsFault e := by
  unfold exec at h
  split at h
  · exact ⟨statement, (Except.error.inj h).symm⟩
  · cases h

lemma exec_spec (statement : Statement) : Ensures (exec faults statement) (fun _ => True) IsFault := by
  unfold exec
  split
  · exact ⟨statement, rfl⟩
  · trivial

lemma deletePromoted_spec (i : ℕ) (chunks : List (List String)) (edges : EdgeTable) :
    Ensures (deletePromoted faults i chunks edges)
      (fun r => r.1.rows = edges.rows.filter (fun e => e.edgeUid ∉ chunks.flatten) ∧
        r.2.Perm (callEndpoints (edges.rows.filter fun e => e.edgeUid ∈ chunks.flatten))) IsFault := by
  induction chunks generalizing i edges with
  | nil =>
    refine ⟨?_, ?_⟩
    · simp
    · simp [callEndpoints]
  | cons chunk rest ih =>
    refine (exec_spec _).bind fun _ _ => (exec_spec _).bind fun _ _ => ?_
    refine (ih (i + 1) (edges.deleteUids chunk)).bind fun r hr => ?_
    obtain ⟨hrows, hendpoints⟩ := hr
    refine ⟨?_, ?_⟩
    · change r.1.rows = _
      rw [hrows, EdgeTable.deleteUids, List.filter_filter]
      apply List.filter_congr
      intro e _
      by_cases he : e.edgeUid ∈ chunk <;> simp [he]
    · -- A row of the later chunks is found among those that the first chunk left.
      have hsplit := List.filter_append_perm (fun e : LocatedEdge => decide (e.edgeUid ∈ chunk))
        (edges.rows.filter fun e => e.edgeUid ∈ (chunk :: rest).flatten)
      have hfirst : ((edges.rows.filter fun e => e.edgeUid ∈ (chunk :: rest).flatten).filter
          fun e => decide (e.edgeUid ∈ chunk)) = edges.rows.filter fun e => e.edgeUid ∈ chunk := by
        rw [List.filter_filter]
        apply List.filter_congr
        intro e _
        by_cases he : e.edgeUid ∈ chunk <;> simp [he]
      have hlater : ((edges.rows.filter fun e => e.edgeUid ∈ (chunk :: rest).flatten).filter
          fun e => !decide (e.edgeUid ∈ chunk)) =
            (edges.deleteUids chunk).rows.filter fun e => e.edgeUid ∈ rest.flatten := by
        rw [EdgeTable.deleteUids, List.filter_filter, List.filter_filter]
        apply List.filter_congr
        intro e _
        by_cases he : e.edgeUid ∈ chunk <;> simp [he]
      rw [hfirst, hlater] at hsplit
      refine (List.Perm.append_left _ hendpoints).trans ?_
      rw [← callEndpoints_append]
      exact callEndpoints_perm hsplit

lemma insert_rows {edges edges' : EdgeTable} {e : LocatedEdge} (h : edges.insert e = some edges') :
    edges'.rows = edges.rows ++ [e] := by
  unfold EdgeTable.insert at h
  split at h
  · cases h
  · obtain rfl := Option.some.inj h
    rfl

lemma insertEdge_rows {t : CallTables} {edges edges' : EdgeTable} {e : LocatedEdge}
    (h : t.insertEdge edges e = some edges') : edges'.rows = edges.rows ++ [e] := by
  unfold insertEdge at h
  split at h
  · exact insert_rows h
  · cases h

lemma insertPromoted_spec (faults : Statement → Bool) (t : CallTables) (i : ℕ)
    (promoted : List PromotedEdge) (landed : Landed) :
    ∃ new : List LocatedEdge, new.Sublist (promoted.map rowOfPromoted) ∧
      (insertPromoted faults t i promoted landed).edges.rows = landed.edges.rows ++ new ∧
      (insertPromoted faults t i promoted landed).inserted = landed.inserted + new.length ∧
      (insertPromoted faults t i promoted landed).insertedCallEndpoints =
        landed.insertedCallEndpoints ++ callEndpoints new := by
  induction promoted generalizing i landed with
  | nil => exact ⟨[], by simp, by simp [insertPromoted], by simp [insertPromoted],
    by simp [insertPromoted, callEndpoints]⟩
  | cons e rest ih =>
    cases hinsert : (if faults (.insert i) then none else t.insertEdge landed.edges (rowOfPromoted e)) with
    | none =>
      obtain ⟨new, hnew, hlanded⟩ := ih (i + 1) landed
      refine ⟨new, hnew.cons _, ?_⟩
      simp only [insertPromoted, hinsert]
      exact hlanded
    | some edges =>
      have hrows : edges.rows = landed.edges.rows ++ [rowOfPromoted e] := by
        split at hinsert
        · cases hinsert
        · exact insertEdge_rows hinsert
      obtain ⟨new, hnew, hedges, hinserted, hendpoints⟩ := ih (i + 1)
        { edges := edges
          inserted := landed.inserted + 1
          insertedCallEndpoints :=
            if (rowOfPromoted e).isCall then landed.insertedCallEndpoints ++ [(rowOfPromoted e).endpoints]
            else landed.insertedCallEndpoints }
      refine ⟨rowOfPromoted e :: new, hnew.cons_cons _, ?_⟩
      simp only [insertPromoted, hinsert]
      refine ⟨?_, ?_, ?_⟩
      · rw [hedges, hrows, List.append_assoc, List.singleton_append]
      · rw [hinserted, List.length_cons]
        exact Nat.add_right_comm _ _ _
      · rw [hendpoints]
        cases hcall : (rowOfPromoted e).isCall with
        | true => simp [callEndpoints, hcall]
        | false => simp [callEndpoints, hcall]

def uidPath (t : CallTables) (nodeUid : String) : Option String :=
  (t.nodes.find? (·.nodeUid = nodeUid)).bind t.nodePath

lemma find?_node {t : CallTables} {n : LocatedNode} (h : n ∈ t.nodes) :
    t.nodes.find? (·.nodeUid = n.nodeUid) = some n := by
  cases hfind : t.nodes.find? (·.nodeUid = n.nodeUid) with
  | none =>
    have hnone := List.find?_eq_none.mp hfind n h
    simp at hnone
  | some n' =>
    have hkey : n'.nodeUid = n.nodeUid := by simpa using List.find?_some hfind
    rw [List.inj_on_of_nodup_map t.nodeKeys (List.mem_of_find?_eq_some hfind) h hkey]

lemma getElem?_insertMany_paths (t : CallTables) (chunk : List String) (paths : HashMap String String)
    (nodeUid : String) :
    (paths.insertMany ((t.nodes.filter fun n => n.nodeUid ∈ chunk).filterMap fun n =>
      (t.nodePath n).map (n.nodeUid, ·)))[nodeUid]? =
        (if nodeUid ∈ chunk then t.uidPath nodeUid else none).or paths[nodeUid]? := by
  have hmem : ∀ uid path, (uid, path) ∈ ((t.nodes.filter fun n => n.nodeUid ∈ chunk).filterMap fun n =>
      (t.nodePath n).map (n.nodeUid, ·)) ↔ uid ∈ chunk ∧ t.uidPath uid = some path := by
    intro uid path
    simp only [List.mem_filterMap, List.mem_filter, decide_eq_true_eq, Option.map_eq_some_iff, Prod.mk.injEq]
    constructor
    · rintro ⟨n, ⟨hn, hchunk⟩, path', hpath, rfl, rfl⟩
      exact ⟨hchunk, by rw [uidPath, find?_node hn]; exact hpath⟩
    · rintro ⟨hchunk, hpath⟩
      obtain ⟨n, hfind, hnode⟩ := Option.bind_eq_some_iff.mp hpath
      obtain rfl : n.nodeUid = uid := by simpa using List.find?_some hfind
      exact ⟨n, ⟨List.mem_of_find?_eq_some hfind, hchunk⟩, path, hnode, rfl, rfl⟩
  cases hpath : (if nodeUid ∈ chunk then t.uidPath nodeUid else none) with
  | some path =>
    have hin : nodeUid ∈ chunk ∧ t.uidPath nodeUid = some path := by
      split at hpath
      · exact ⟨‹_›, hpath⟩
      · cases hpath
    refine Std.ExtTreeMap.getElem?_insertMany_list_of_mem (k := nodeUid) (by simp) ?_ ((hmem _ _).mpr hin)
    have hkeys : (((t.nodes.filter fun n => n.nodeUid ∈ chunk).filterMap fun n =>
        (t.nodePath n).map (n.nodeUid, ·)).map Prod.fst).Nodup :=
      t.nodeKeys.sublist ((keys_filterMap_sublist _ _ _).trans (List.filter_sublist.map _))
    rw [List.Nodup, List.pairwise_map] at hkeys
    exact hkeys.imp fun hne he => hne (by simpa using he)
  | none =>
    rw [Option.none_or]
    apply Std.ExtTreeMap.getElem?_insertMany_list_of_contains_eq_false
    rw [Bool.eq_false_iff, Ne, List.contains_iff_mem, List.mem_map]
    rintro ⟨⟨uid, path⟩, hrow, rfl⟩
    obtain ⟨hchunk, hsome⟩ := (hmem uid path).mp hrow
    rw [if_pos hchunk, hsome] at hpath
    cases hpath

lemma pathByUid_spec (t : CallTables) (i : ℕ) (chunks : List (List String)) (paths : HashMap String String) :
    Ensures (pathByUid faults t i chunks paths)
      (fun paths' => ∀ uid, paths'[uid]? = (if uid ∈ chunks.flatten then t.uidPath uid else none).or paths[uid]?)
      IsFault := by
  induction chunks generalizing i paths with
  | nil =>
    intro uid
    simp
  | cons chunk rest ih =>
    refine (exec_spec _).bind fun _ _ => (ih (i + 1) _).mono (fun paths' hpaths uid => ?_) fun _ h => h
    rw [hpaths uid, getElem?_insertMany_paths]
    by_cases hrest : uid ∈ rest.flatten <;> by_cases hchunk : uid ∈ chunk <;> cases t.uidPath uid <;>
      simp [hrest, hchunk]

end CallTables

end RepoGraph.Storage
