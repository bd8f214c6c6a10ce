import RepoGraph.Indexer.Conservation
import RepoGraph.Indexer.FailureAtomicity
import RepoGraph.Lib.Folds
import RepoGraph.Lib.Pages
import Mathlib.Data.String.Basic

/-! The resolution loop in batches against one batch of all edges: what is stored, what is counted, and when the
loop reaches every edge. -/

namespace RepoGraph.Indexer

open Lib Lib.FaultM Lib.Pages

section Tallies

variable {filePath : String → Option String} {t : ResolveTotals}

lemma getD_increment {κ : Type} [Ord κ] [Std.TransOrd κ] [Std.LawfulEqOrd κ] [DecidableEq κ] (m : BTreeMap κ ℕ)
    (k k' : κ) : (increment m k)[k']?.getD 0 = m[k']?.getD 0 + if k = k' then 1 else 0 := by
  unfold increment
  rw [getElem?_insert]
  by_cases hk : k = k'
  · subst hk
    simp
  · simp [hk]

lemma getD_foldl_increment {κ : Type} [Ord κ] [Std.TransOrd κ] [Std.LawfulEqOrd κ] [DecidableEq κ] (l : List κ)
    (m : BTreeMap κ ℕ) (k : κ) : (l.foldl increment m)[k]?.getD 0 = m[k]?.getD 0 + l.countP (· = k) := by
  induction l generalizing m with
  | nil => simp
  | cons a l ih =>
    rw [List.foldl_cons, ih, getD_increment, List.countP_cons, Nat.add_assoc,
      Nat.add_comm (if a = k then 1 else 0)]
    simp only [decide_eq_true_eq]

lemma mem_foldl_increment {κ : Type} [Ord κ] [Std.TransOrd κ] [Std.LawfulEqOrd κ] [DecidableEq κ] {l : List κ}
    {m : BTreeMap κ ℕ} {k : κ} : k ∈ l.foldl increment m ↔ k ∈ m ∨ k ∈ l := by
  induction l generalizing m with
  | nil => simp
  | cons a l ih =>
    rw [List.foldl_cons, ih]
    unfold increment
    rw [Std.ExtTreeMap.mem_insert]
    simp only [Std.LawfulEqOrd.compare_eq_iff_eq, List.mem_cons]
    grind

lemma tally_empty : tally filePath .empty t = t := by
  simp [tally, ResolutionResult.empty]

lemma tally_append (a b : ResolutionResult) :
    tally filePath (a.append b) t = tally filePath b (tally filePath a t) := by
  simp [tally, ResolutionResult.append, Nat.add_assoc]

lemma sum_countP_eq {κ : Type} [DecidableEq κ] {ks l : List κ} (hks : ks.Nodup) (hmem : ∀ k ∈ l, k ∈ ks) :
    (ks.map fun k => l.countP (· = k)).sum = l.length := by
  have hsum := sum_countP (id : κ → κ) (fun _ => true) l hks
  simp only [id_eq, Bool.and_true] at hsum
  calc _ = (ks.map fun k => l.countP fun a => a == k).sum := rfl
    _ = l.countP fun a => ks.contains a := hsum
    _ = l.length := List.countP_eq_length.mpr fun a ha => List.contains_iff_mem.mpr (hmem a ha)

structure CallsBalance (t : ResolveTotals) : Prop where
  fanIn : t.resolvedCallsTotal = ((degreeRows t).map (·.callFanIn)).sum
  fanOut : t.resolvedCallsTotal = ((degreeRows t).map (·.callFanOut)).sum
  pairs : ((pairRows t).map (·.callEdgeCount)).sum ≤ t.resolvedCallsTotal

lemma callsBalance_tally (result : ResolutionResult) : CallsBalance (tally filePath result noTotals) := by
  set calls := result.resolved.filter isCertainCall with hcalls
  have hin : (tally filePath result noTotals).callFanIn = (calls.map (·.targetNodeUid)).foldl increment ∅ := by
    rw [List.foldl_map]
    rfl
  have hout : (tally filePath result noTotals).callFanOut = (calls.map (·.sourceNodeUid)).foldl increment ∅ := by
    rw [List.foldl_map]
    rfl
  have htotal : (tally filePath result noTotals).resolvedCallsTotal = calls.length := Nat.zero_add _
  have hget : ∀ (l : List String) (k : String), (l.foldl increment ∅)[k]?.getD 0 = l.countP (· = k) := by
    intro l k
    rw [getD_foldl_increment]
    simp
  have hkeys : ∀ (l : List String), ∀ k ∈ l, k ∈ (l.foldl increment (∅ : BTreeMap String ℕ)).keys := by
    intro l k hk
    rw [Std.ExtTreeMap.mem_keys, mem_foldl_increment]
    exact Or.inr hk
  constructor
  · rw [htotal]
    unfold degreeRows
    dsimp only
    rw [List.map_map, hin, hout]
    simp only [Function.comp_def, hget]
    rw [sum_countP_eq (nodup_toList _), List.length_map]
    intro k hk
    rw [Std.ExtTreeSet.mem_toList, Std.ExtTreeSet.mem_ofList, List.contains_iff_mem]
    exact List.mem_append_left _ (hkeys _ k hk)
  · rw [htotal]
    unfold degreeRows
    dsimp only
    rw [List.map_map, hin, hout]
    simp only [Function.comp_def, hget]
    rw [sum_countP_eq (nodup_toList _), List.length_map]
    intro k hk
    rw [Std.ExtTreeSet.mem_toList, Std.ExtTreeSet.mem_ofList, List.contains_iff_mem]
    exact List.mem_append_right _ (hkeys _ k hk)
  · have hpairs : (tally filePath result noTotals).callFilePairs =
        (calls.filterMap (callFilePair filePath)).foldl increment ∅ := rfl
    set between := calls.filterMap (callFilePair filePath) with hbetween
    have hrows : (pairRows (tally filePath result noTotals)).map (·.callEdgeCount) =
        (between.foldl increment ∅).keys.map fun k => between.countP (· = k) := by
      unfold pairRows
      rw [List.map_map, hpairs, ← Std.ExtTreeMap.map_fst_toList_eq_keys, List.map_map]
      apply List.map_congr_left
      intro e he
      have hvalue := Std.ExtTreeMap.mem_toList_iff_getElem?_eq_some.mp he
      have hcount := getD_foldl_increment between ∅ e.1
      rw [hvalue] at hcount
      simpa using hcount
    rw [htotal, hrows, sum_countP_eq Std.ExtTreeMap.nodup_keys]
    · exact List.length_filterMap_le _ _
    · intro k hk
      rw [Std.ExtTreeMap.mem_keys, mem_foldl_increment]
      exact Or.inr hk

end Tallies

section Loop

variable {σ ε : Type} {port : StoragePort σ ε} {snapUid : String}

/-- The tables of a store that the loop works on: the extraction edges of the snapshot by uid, read in pages, and
two tables that take their rows one after the other. -/
structure EdgeTables (port : StoragePort σ ε) (snapUid : String) where
  Resolved : Type
  Unresolved : Type
  edges : σ → List ExtractionEdgeRow
  resolved : σ → Resolved
  unresolved : σ → Unresolved
  putResolved : Resolved → ResolvedEdge → Resolved
  putUnresolved : Unresolved → PersistedUnresolvedEdge → Unresolved
  sorted : ∀ s, (edges s).Pairwise fun a b => a.edgeUid < b.edgeUid
  query : ∀ limit cursor s,
    port.queryExtractionEdgesBatch snapUid limit cursor s = (.ok (page (·.edgeUid) limit cursor (edges s)), s)
  insertResolved : ∀ rows s, ∃ s', port.insertResolvedEdges rows s = (.ok (), s') ∧ edges s' = edges s ∧
    resolved s' = rows.foldl putResolved (resolved s) ∧ unresolved s' = unresolved s
  insertUnresolved : ∀ rows s, ∃ s', port.insertUnresolvedEdges rows s = (.ok (), s') ∧ edges s' = edges s ∧
    resolved s' = resolved s ∧ unresolved s' = rows.foldl putUnresolved (unresolved s)

variable (tables : EdgeTables port snapUid) (env : IndexerEnv σ) (now : String) (ctx : ResolveContext)

def batchResult (rows : List ExtractionEdgeRow) : ResolutionResult :=
  resolveEdgesWithRustModDecls env.ext ctx.index (some ctx.bindings) ctx.decls (rows.map ExtractionEdgeRow.toEdge)

structure Stored (rows : List ExtractionEdgeRow) (s s' : σ) : Prop where
  edges : tables.edges s' = tables.edges s
  resolved : tables.resolved s' = (batchResult env ctx rows).resolved.foldl tables.putResolved (tables.resolved s)
  unresolved : tables.unresolved s' =
    ((batchResult env ctx rows).stillUnresolved.map (persistedUnresolved env now ctx.signals)).foldl
      tables.putUnresolved (tables.unresolved s)

variable {tables env now ctx}

lemma batchResult_append (rows rows' : List ExtractionEdgeRow) :
    batchResult env ctx (rows ++ rows') = (batchResult env ctx rows).append (batchResult env ctx rows') := by
  unfold batchResult
  rw [resolveEdges_eq_placements, resolveEdges_eq_placements, resolveEdges_eq_placements, List.map_append]
  induction rows.map ExtractionEdgeRow.toEdge with
  | nil => simp [placements, ResolutionResult.append, ResolutionResult.empty]
  | cons edge edges ih =>
    rw [List.cons_append, placements, ih]
    simp [placements, ResolutionResult.append]

lemma Stored.append {rows rows' : List ExtractionEdgeRow} {s s' s'' : σ} (h : Stored tables env now ctx rows s s')
    (h' : Stored tables env now ctx rows' s' s'') : Stored tables env now ctx (rows ++ rows') s s'' := by
  constructor
  · rw [h'.edges, h.edges]
  · rw [h'.resolved, h.resolved, batchResult_append]
    exact List.foldl_append.symm
  · rw [h'.unresolved, h.unresolved, batchResult_append, ← List.foldl_append, ← List.map_append]
    rfl

lemma stored_nil (s : σ) : Stored tables env now ctx [] s s := ⟨rfl, rfl, rfl⟩

lemma ends_of_bind {α β : Type} {p : IndexM σ ε α} {f : α → IndexM σ ε β} {a : α} {w u w' : World σ}
    {r : Except (IndexError ε) β} (h : Ends p w (.ok a) u) (h' : Ends (f a) u r w') : Ends (p >>= f) w r w' :=
  ends_bind.mpr (Or.inr ⟨a, u, h, h'⟩)

lemma ends_call {α : Type} {site : CallSite} {f : Call σ ε α} {w : World σ} {a : α} {rest : σ}
    (h : f w.rest = (.ok a, rest)) : Ends (call site f) w (.ok a) { w with rest } :=
  ends_callStore.mpr (Or.inl ⟨a, rest, h, rfl, rfl⟩)

lemma ends_writes (rows : List ExtractionEdgeRow) (w : World σ) :
    ∃ u w' : World σ,
      Ends (FaultM.onlyIf (!(batchResult env ctx rows).resolved.isEmpty) (call .insertResolvedEdges
          (port.insertResolvedEdges (batchResult env ctx rows).resolved)) : IndexM σ ε Unit) w (.ok ()) u ∧
      Ends (FaultM.onlyIf (!(batchResult env ctx rows).stillUnresolved.isEmpty) (call .insertUnresolvedEdges
          (port.insertUnresolvedEdges ((batchResult env ctx rows).stillUnresolved.map
            (persistedUnresolved env now ctx.signals)))) : IndexM σ ε Unit) u (.ok ()) w' ∧
      Stored tables env now ctx rows w.rest w'.rest := by
  obtain ⟨u, hu, hedges, hresolved, hunresolved⟩ : ∃ u : World σ,
      Ends (FaultM.onlyIf (!(batchResult env ctx rows).resolved.isEmpty) (call .insertResolvedEdges
          (port.insertResolvedEdges (batchResult env ctx rows).resolved)) : IndexM σ ε Unit) w (.ok ()) u ∧
        tables.edges u.rest = tables.edges w.rest ∧
        tables.resolved u.rest = (batchResult env ctx rows).resolved.foldl tables.putResolved
          (tables.resolved w.rest) ∧
        tables.unresolved u.rest = tables.unresolved w.rest := by
    cases hempty : (batchResult env ctx rows).resolved.isEmpty with
    | true =>
      rw [List.isEmpty_iff.mp hempty]
      exact ⟨w, rfl, rfl, rfl, rfl⟩
    | false =>
      obtain ⟨rest, hcall, hedges, hresolved, hunresolved⟩ :=
        tables.insertResolved (batchResult env ctx rows).resolved w.rest
      exact ⟨{ w with rest }, ends_call hcall, hedges, hresolved, hunresolved⟩
  obtain ⟨w', hw', hedges', hresolved', hunresolved'⟩ : ∃ w' : World σ,
      Ends (FaultM.onlyIf (!(batchResult env ctx rows).stillUnresolved.isEmpty) (call .insertUnresolvedEdges
          (port.insertUnresolvedEdges ((batchResult env ctx rows).stillUnresolved.map
            (persistedUnresolved env now ctx.signals)))) : IndexM σ ε Unit) u (.ok ()) w' ∧
        tables.edges w'.rest = tables.edges u.rest ∧ tables.resolved w'.rest = tables.resolved u.rest ∧
        tables.unresolved w'.rest =
          ((batchResult env ctx rows).stillUnresolved.map (persistedUnresolved env now ctx.signals)).foldl
            tables.putUnresolved (tables.unresolved u.rest) := by
    cases hempty : (batchResult env ctx rows).stillUnresolved.isEmpty with
    | true =>
      rw [List.isEmpty_iff.mp hempty]
      exact ⟨u, rfl, rfl, rfl, rfl⟩
    | false =>
      obtain ⟨rest, hcall, hedges, hresolved, hunresolved⟩ := tables.insertUnresolved
        ((batchResult env ctx rows).stillUnresolved.map (persistedUnresolved env now ctx.signals)) u.rest
      exact ⟨{ u with rest }, ends_call hcall, hedges, hresolved, hunresolved⟩
  refine ⟨u, w', hu, hw', ?_, ?_, ?_⟩
  · rw [hedges', hedges]
  · rw [hresolved', hresolved]
  · rw [hunresolved', hunresolved]

/-- The loop from a cursor on, by induction on the rounds: what is behind the cursor is stored and counted as one
batch. -/
lemma ends_resolveBatches {batchSize : ℕ} (hpos : 0 < batchSize) (rounds : ℕ) (cursor : Option String)
    (totals : ResolveTotals) (w : World σ)
    (hrounds : (behind (·.edgeUid) cursor (tables.edges w.rest)).length < rounds) :
    ∃ w', Ends (resolveBatches port env snapUid now batchSize ctx rounds cursor totals) w
        (.ok (tally ctx.filePath (batchResult env ctx (behind (·.edgeUid) cursor (tables.edges w.rest)))
          totals)) w' ∧
      Stored tables env now ctx (behind (·.edgeUid) cursor (tables.edges w.rest)) w.rest w'.rest := by
  induction rounds generalizing cursor totals w with
  | zero => omega
  | succ rounds ih =>
    set remaining := behind (fun row : ExtractionEdgeRow => row.edgeUid) cursor
      (tables.edges w.rest) with hremaining
    have hquery := @ends_call _ _ _ .queryExtractionEdgesBatch _ w _ _ (tables.query batchSize cursor w.rest)
    have hpage : page (fun row : ExtractionEdgeRow => row.edgeUid) batchSize cursor (tables.edges w.rest) =
        remaining.take batchSize := rfl
    rw [resolveBatches]
    cases hlast : (remaining.take batchSize).getLast? with
    | none =>
      have hnil : remaining = [] := by
        have htake := List.getLast?_eq_none_iff.mp hlast
        rcases List.take_eq_nil_iff.mp htake with hzero | hnil
        · omega
        · exact hnil
      refine ⟨w, ends_of_bind hquery ?_, ?_⟩
      · rw [hpage, hlast, hnil]
        apply ends_pure.mpr
        refine ⟨?_, rfl⟩
        congr 1
        exact tally_empty
      · rw [hnil]
        exact stored_nil w.rest
    | some last =>
      obtain ⟨u, v, hresolved, hunresolved, hstored⟩ :=
        @ends_writes _ _ _ _ tables env now ctx (remaining.take batchSize) w
      have hrest : behind (·.edgeUid) (some last.edgeUid) (tables.edges v.rest) = remaining.drop batchSize := by
        rw [hstored.edges]
        exact behind_page (tables.sorted w.rest) hlast
      have hne : remaining ≠ [] := by
        intro hnil
        simp [hnil] at hlast
      have hlen := List.length_pos_iff.mpr hne
      obtain ⟨w', hends, hstored'⟩ := ih (some last.edgeUid)
        (tally ctx.filePath (batchResult env ctx (remaining.take batchSize)) totals) v (by
          rw [hrest, List.length_drop]
          omega)
      rw [hrest, ← tally_append, ← batchResult_append, List.take_append_drop] at hends
      rw [hrest] at hstored'
      have hall := hstored.append hstored'
      rw [List.take_append_drop] at hall
      refine ⟨w', ends_of_bind hquery ?_, hall⟩
      rw [hpage, hlast]
      exact ends_of_bind hresolved (ends_of_bind hunresolved hends)

variable (tables env now ctx)

/-- A run of the loop that did what one batch of all edges does, and in which every edge came up once. -/
structure OneBatch (w w' : World σ) (totals : ResolveTotals) : Prop where
  visited : ((batchResult env ctx (tables.edges w.rest)).resolved.map (·.edgeUid) ++
    (batchResult env ctx (tables.edges w.rest)).stillUnresolved.map (·.edge.edgeUid)).Perm
      ((tables.edges w.rest).map (·.edgeUid))
  stored : Stored tables env now ctx (tables.edges w.rest) w.rest w'.rest
  counted : totals = tally ctx.filePath (batchResult env ctx (tables.edges w.rest)) noTotals
  balance : CallsBalance totals

/-- With more rounds than there are edges, the loop ends and did what one batch does. -/
def BatchTransparent (edgeBatchSize : Option ℕ) (w : World σ) : Prop :=
  ∀ rounds, (tables.edges w.rest).length < rounds → ∃ totals w',
    Ends (resolveBatches port env snapUid now (edgeBatchSize.getD defaultEdgeBatchSize) ctx rounds none noTotals) w
      (.ok totals) w' ∧ OneBatch tables env now ctx w w' totals

variable {tables env now ctx}

lemma map_eq_of_forall₂ {α β γ : Type} {R : α → β → Prop} {f : α → γ} {g : β → γ} (hR : ∀ a b, R a b → g b = f a)
    {l : List α} {l' : List β} (h : List.Forall₂ R l l') : l'.map g = l.map f := by
  induction h with
  | nil => rfl
  | cons hab _ ih => rw [List.map_cons, List.map_cons, hR _ _ hab, ih]

lemma visited_batchResult (rows : List ExtractionEdgeRow) :
    ((batchResult env ctx rows).resolved.map (·.edgeUid) ++
      (batchResult env ctx rows).stillUnresolved.map (·.edge.edgeUid)).Perm (rows.map (·.edgeUid)) := by
  unfold batchResult
  rw [resolveEdges_eq_placements]
  have hconserved := @conserved_placements env.ext ctx.index (some ctx.bindings) ctx.decls
    (rows.map ExtractionEdgeRow.toEdge)
  have hresolved := map_eq_of_forall₂ (f := ExtractedEdge.edgeUid) (g := ResolvedEdge.edgeUid)
    (fun _ _ h => congrArg Prod.fst h) hconserved.resolved
  have hunresolved := map_eq_of_forall₂ (f := ExtractedEdge.edgeUid)
    (g := fun u : CategorizedUnresolvedEdge => u.edge.edgeUid) (fun _ _ h => by rw [h]) hconserved.stillUnresolved
  rw [hresolved, hunresolved, ← List.map_append]
  have huids : rows.map (·.edgeUid) = (rows.map ExtractionEdgeRow.toEdge).map (·.edgeUid) := by
    rw [List.map_map]
    rfl
  rw [huids]
  exact (List.filter_append_perm _ _).map _

lemma ends_resolveBatches_zero (tables : EdgeTables port snapUid) (rounds : ℕ)
    (totals : ResolveTotals) (w : World σ) :
    Ends (resolveBatches port env snapUid now 0 ctx (rounds + 1) none totals) w (.ok totals) w := by
  rw [resolveBatches]
  exact ends_of_bind (ends_call (tables.query 0 none w.rest)) (ends_pure.mpr ⟨rfl, rfl⟩)

lemma OneBatch.edges_eq_nil {w w' : World σ} (h : OneBatch tables env now ctx w w' noTotals) :
    tables.edges w.rest = [] := by
  have hresolved := congrArg ResolveTotals.resolvedTotal h.counted
  have hunresolved := congrArg ResolveTotals.unresolvedCount h.counted
  have hlen := h.visited.length_eq
  simp only [tally, noTotals, Nat.zero_add] at hresolved hunresolved
  rw [List.length_append, List.length_map, List.length_map, List.length_map, ← hresolved, ← hunresolved] at hlen
  exact List.length_eq_zero_iff.mp hlen.symm

lemma BatchTransparent.edges_eq_nil {w : World σ} (h : BatchTransparent tables env now ctx (some 0) w) :
    tables.edges w.rest = [] := by
  obtain ⟨totals, w', hends, hone⟩ := h _ (Nat.lt_succ_self _)
  have hzero := @ends_resolveBatches_zero _ _ _ _ env now ctx tables
    (tables.edges w.rest).length noTotals w
  have heq := hends.symm.trans hzero
  simp only [Option.some.injEq, Prod.mk.injEq, Except.ok.injEq] at heq
  rw [heq.1] at hone
  exact hone.edges_eq_nil

/-- The loop in batches does what one batch of all edges does, just when a batch may hold an edge or there is
none. -/
theorem batchTransparent_iff (tables : EdgeTables port snapUid) (env : IndexerEnv σ) (now : String)
    (ctx : ResolveContext) (edgeBatchSize : Option ℕ) (w : World σ) :
    BatchTransparent tables env now ctx edgeBatchSize w ↔ edgeBatchSize ≠ some 0 ∨ tables.edges w.rest = [] := by
  have hone : ∀ w', Stored tables env now ctx (tables.edges w.rest) w.rest w'.rest →
      OneBatch tables env now ctx w w' (tally ctx.filePath (batchResult env ctx (tables.edges w.rest)) noTotals) :=
    fun _ hstored => ⟨visited_batchResult _, hstored, rfl, callsBalance_tally _⟩
  constructor
  · intro h
    by_cases hzero : edgeBatchSize = some 0
    · subst hzero
      exact Or.inr h.edges_eq_nil
    · exact Or.inl hzero
  · intro h rounds hrounds
    by_cases hpos : 0 < edgeBatchSize.getD defaultEdgeBatchSize
    · obtain ⟨w', hends, hstored⟩ := @ends_resolveBatches _ _ _ _ tables env now ctx _ hpos
        rounds none noTotals w (by rwa [behind_none])
      rw [behind_none] at hends hstored
      exact ⟨_, w', hends, hone w' hstored⟩
    · have hsize : edgeBatchSize = some 0 := by
        cases edgeBatchSize with
        | none => exact absurd (by decide) hpos
        | some n =>
          congr 1
          exact Nat.eq_zero_of_not_pos hpos
      subst hsize
      have hnil := h.resolve_left (by simp)
      obtain ⟨rounds, rfl⟩ := Nat.exists_eq_succ_of_ne_zero (Nat.ne_zero_of_lt hrounds)
      have hends := @ends_resolveBatches_zero _ _ _ _ env now ctx tables rounds noTotals w
      have hbatch := hone w (by rw [hnil]; exact stored_nil w.rest)
      have htotals : tally ctx.filePath (batchResult env ctx (tables.edges w.rest)) noTotals = noTotals := by
        rw [hnil]
        exact tally_empty
      rw [htotals] at hbatch
      exact ⟨_, w, hends, hbatch⟩

end Loop

section Samples

structure EdgeStore where
  edges : List ExtractionEdgeRow
  sorted : edges.Pairwise fun a b => a.edgeUid < b.edgeUid
  resolved : List ResolvedEdge
  unresolved : List PersistedUnresolvedEdge

def stays {α : Type} (a : α) : Call EdgeStore Unit α := fun s => (.ok a, s)

def memoryPort : StoragePort EdgeStore Unit where
  newSnapshot _ := stays ("s1", "t1")
  duplicateKey := ()
  readBack _ := stays ()
  readLatestSnapshot _ := stays ()
  writeStatus _ _ := stays ()
  queryFileVersionHashes _ := stays (∅ : BTreeMap String String)
  copyForwardUnchangedFiles _ := stays ⟨0, []⟩
  getFilesByRepo _ := stays []
  upsertFiles _ := stays ()
  upsertFileVersions _ := stays ()
  insertNodes _ := stays ()
  insertExtractionEdges _ := stays ()
  insertFileSignals _ := stays ()
  queryResolverNodes _ := stays []
  queryFileSignalsBatch _ _ := stays []
  queryAllNodes _ := stays []
  queryExtractionEdgesBatch _ limit cursor := fun s => (.ok (page (·.edgeUid) limit cursor s.edges), s)
  insertResolvedEdges rows :=
    fun s => (.ok (), { s with resolved := rows.foldl (fun t row => t ++ [row]) s.resolved })
  insertUnresolvedEdges rows := fun s =>
    (.ok (), { s with unresolved := rows.foldl (fun t row => t ++ [row]) s.unresolved })
  setEdgeTypeOnly _ := stays ()
  updateSnapshotCounts _ := stays ()
  persistResolvedCallAggregate _ _ := stays ()
  persistSymbolCallDegrees _ _ := stays ()
  persistResolvedCallFilePairs _ _ := stays ()
  updateSnapshotExtractionDiagnostics _ _ := stays ()
  indexProtoFiles _ _ _ := stays ⟨0, 0, []⟩
  runJavaMapping _ := id
  dispatchRecomputeRelationships _ _ _ := id

def memoryTables : EdgeTables memoryPort "s1" where
  Resolved := List ResolvedEdge
  Unresolved := List PersistedUnresolvedEdge
  edges s := s.edges
  resolved s := s.resolved
  unresolved s := s.unresolved
  putResolved t row := t ++ [row]
  putUnresolved t row := t ++ [row]
  sorted s := s.sorted
  query _ _ _ := rfl
  insertResolved rows s :=
    ⟨{ s with resolved := rows.foldl (fun t row => t ++ [row]) s.resolved }, rfl, rfl, rfl, rfl⟩
  insertUnresolved rows s :=
    ⟨{ s with unresolved := rows.foldl (fun t row => t ++ [row]) s.unresolved }, rfl, rfl, rfl, rfl⟩

def memoryEnv : IndexerEnv EdgeStore where
  ext := ⟨fun _ => none, fun _ => "", fun _ => false, fun _ => false⟩
  extractors := []
  drainSnapshotExtras := none
  onProgress := none
  classifyFileLanguage _ _ := none
  isTestFile _ := false
  isGeneratedContent _ := false
  routeFile _ _ := none
  importBindingsText _ := ""
  readImportBindings _ := none
  readTsconfigMapping _ := none
  classifyUnresolvedEdge _ _ _ := ("", "")
  moduleNodeUid i := .ofList (List.replicate i 'u')
  moduleEdgeUid i := .ofList (List.replicate i 'u')

def emptyContext : ResolveContext := ⟨oneFileIndex, ∅, ∅, [], fun _ => none⟩

def oneEdgeStore : EdgeStore := ⟨[.ofEdge inferredFileImport none none], by simp, [], []⟩

/-- A batch size of zero: the first page is empty, and the loop ends before the edge. -/
theorem zero_batch_visits_nothing :
    ¬ ∀ edgeBatchSize w, BatchTransparent memoryTables memoryEnv "t1" emptyContext edgeBatchSize w := by
  intro h
  have hnil := (h (some 0) ⟨[], oneEdgeStore, []⟩).edges_eq_nil
  simp [memoryTables, oneEdgeStore] at hnil

end Samples

end RepoGraph.Indexer
