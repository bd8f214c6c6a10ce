import RepoGraph.Classification.EdgeConservation

/-! Conservation of the imports over a whole derivation, and the one way in which their order shows. -/

namespace RepoGraph.Classification

open Lib

def pathOf (modules : List ModuleRef) (moduleUid : String) : Option String :=
  (modules.reverse.find? (·.moduleUid = moduleUid)).map (·.canonicalPath)

lemma lookup_moduleLookup (modules : List ModuleRef) (moduleUid : String) :
    (moduleLookup modules).lookup moduleUid = pathOf modules moduleUid := by
  rw [moduleLookup, IterMap.lookup_ofPairs, ← List.map_reverse, List.find?_map, Option.map_map]
  rfl

/-- What the loop over the imports ends in when every file has one owner. -/
def finalState (o : HashOrders) (input : ModuleEdgeDerivationInput) (view : ImportView) : DerivationState :=
  ⟨input.imports.foldl (tallyImport view (ownerOf input.ownership) (pathOf input.modules)) .empty,
    input.imports.foldl (relate view (ownerOf input.ownership) o.relations) ∅⟩

variable {o : HashOrders} {input : ModuleEdgeDerivationInput} {view : ImportView}

lemma derivation_ok (o : HashOrders) (input : ModuleEdgeDerivationInput) (view : ImportView)
    (h : SingleOwned input.ownership) :
    deriveRelations o input view = .ok (.ok (finalState o input view)) ∧
      deriveModuleDependencyEdgesInView o input view =
        .ok (.ok (emitEdges view (moduleLookup input.modules) (finalState o input view))) := by
  rcases buildOwnershipIndex_cases o.files input.ownership with ⟨-, index, hindex, hlookup⟩ | ⟨hdup, -⟩
  · have hrel : deriveRelations o input view = .ok (.ok (finalState o input view)) := by
      rw [deriveRelations, hindex, ok_bind]
      exact congrArg (fun s => Except.ok (Except.ok s))
        (processImports_eq hlookup (lookup_moduleLookup input.modules) input.imports)
    refine ⟨hrel, ?_⟩
    rw [deriveModuleDependencyEdgesInView, hrel]
    rfl
  · exact absurd h hdup

lemma derivation_error (o : HashOrders) (h : ¬ SingleOwned input.ownership) :
    ∃ err, ∀ imports view, deriveRelations o { input with imports } view = .ok (.error err) ∧
      deriveModuleDependencyEdgesInView o { input with imports } view = .ok (.error err) := by
  rcases buildOwnershipIndex_cases o.files input.ownership with ⟨hsingle, -⟩ | ⟨-, err, herr⟩
  · exact absurd hsingle h
  · refine ⟨err, fun imports view => ?_⟩
    have hrel : deriveRelations o { input with imports } view = .ok (.error err) := by
      rw [deriveRelations, herr]
      rfl
    refine ⟨hrel, ?_⟩
    rw [deriveModuleDependencyEdgesInView, hrel]
    rfl

section Emission

variable {paths : IterMap String String} {entry : Σ _ : String × String, EdgeAggregate}
    {edge : ModuleDependencyEdge}

lemma edgeOf_eq_some : edgeOf paths entry = some edge ↔
    0 < entry.2.importCount ∧ paths.lookup entry.1.1 = some edge.sourceCanonicalPath ∧
      paths.lookup entry.1.2 = some edge.targetCanonicalPath ∧
      (edge.sourceModuleUid, edge.targetModuleUid) = entry.1 ∧ edge.importCount = entry.2.importCount ∧
      edge.sourceFileCount = entry.2.sourceFiles.size := by
  obtain ⟨⟨source, target⟩, agg⟩ := entry
  obtain ⟨sourceUid, sourcePath, targetUid, targetPath, count, files⟩ := edge
  rw [edgeOf]
  split
  · rename_i hpos
    simp only [Option.bind_eq_some_iff, Option.map_eq_some_iff, ModuleDependencyEdge.mk.injEq, Prod.mk.injEq]
    constructor
    · rintro ⟨s, hs, t, ht, rfl, rfl, rfl, rfl, rfl, rfl⟩
      exact ⟨hpos, hs, ht, ⟨rfl, rfl⟩, rfl, rfl⟩
    · rintro ⟨-, hs, ht, ⟨rfl, rfl⟩, rfl, rfl⟩
      exact ⟨_, hs, _, ht, rfl, rfl, rfl, rfl, rfl, rfl⟩
  · rename_i hzero
    simp [hzero]

lemma partition_keys (relations : Relations) :
    (relations.entries.filterMap fun e => (edgeOf paths e).map fun _ => (e.1, e.2.partitions)).Pairwise
      fun a b => a.1 ≠ b.1 := by
  refine List.Pairwise.filterMap _ ?_ relations.pairwise_keys
  intro a b hab x hx y hy
  obtain ⟨_, -, rfl⟩ := Option.map_eq_some_iff.mp hx
  obtain ⟨_, -, rfl⟩ := Option.map_eq_some_iff.mp hy
  exact hab

lemma partitionsOf_emitted {s : DerivationState} (hmem : entry ∈ s.relations.entries)
    (hedge : edgeOf paths entry = some edge) :
    (emitEdges view paths s).partitionsOf edge = some entry.2.partitions := by
  obtain ⟨-, -, -, hkey, -⟩ := edgeOf_eq_some.mp hedge
  rw [ModuleEdgeDerivationResult.partitionsOf, hkey]
  refine Std.ExtTreeMap.getElem?_ofList_of_mem (k := entry.1) (by simp) ?_
    (List.mem_filterMap.mpr ⟨entry, hmem, by simp [hedge]⟩)
  refine (partition_keys s.relations).imp fun hab => ?_
  simpa using hab

lemma nodup_edges (relations : Relations) : (relations.entries.filterMap (edgeOf paths)).Nodup := by
  refine List.Pairwise.filterMap _ ?_ relations.pairwise_keys
  rintro a b hab x hx y hy rfl
  obtain ⟨-, -, -, ha, -⟩ := edgeOf_eq_some.mp hx
  obtain ⟨-, -, -, hb, -⟩ := edgeOf_eq_some.mp hy
  exact hab (ha.symm.trans hb)

end Emission

structure Conserved (input : ModuleEdgeDerivationInput) (view : ImportView) (relations : Relations)
    (result : ModuleEdgeDerivationResult) : Prop where
  /-- Every admitted import has one unowned end, or stays in a module, or crosses. -/
  importsTotal : result.diagnostics.importsTotal =
    result.diagnostics.importsSourceUnowned + result.diagnostics.importsTargetUnowned +
      result.diagnostics.importsIntraModule + result.diagnostics.importsCrossModule
  /-- The cells of the relations hold the imports between modules. -/
  cells : (relations.entries.map (·.2.partitions.total)).sum =
    input.imports.countP fun imp => (crossing (ownerOf input.ownership) imp).isSome
  /-- Those that the view admits are on the relations, and the remainder has the others. -/
  admitted : (relations.entries.map (·.2.partitions.admitted view)).sum = result.diagnostics.importsCrossModule
  excluded : ∀ group, (result.remainder.get group).imports =
    (relations.entries.map (·.2.partitions.excludedIn view group)).sum
  split : ∀ counts : PartitionCounts,
    counts.total = counts.admitted view + (RemainderGroup.all.map (counts.excludedIn view)).sum
  importCount : ∀ edge ∈ result.edges, ∃ counts, result.partitionsOf edge = some counts ∧
    edge.importCount = counts.admitted view
  /-- A relation without an admitted import is counted once, where it has imports. -/
  absentOnce : ∀ e ∈ relations.entries, e.2.partitions.admitted view = 0 →
    ∃! group, ImportRemainder.shownBy view e.2.partitions = some group ∧ 0 < e.2.partitions.excludedIn view group
  absentEdges : ∀ group, (result.remainder.get group).edges =
    relations.entries.countP (ImportRemainder.shownBy view ·.2.partitions = some group)

lemma finalState_conserved (o : HashOrders) (input : ModuleEdgeDerivationInput) (view : ImportView) :
    Conserved input view (finalState o input view).relations
      (emitEdges view (moduleLookup input.modules) (finalState o input view)) where
  importsTotal := tally_total input.imports
  cells := by
    refine Eq.trans (sum_relations (w := fun agg => agg.partitions.total) rfl (p := fun _ => true) ?_
      input.imports) (by simp)
    intro imp agg
    rw [EdgeAggregate.partitions_add, PartitionCounts.total_add, if_pos rfl]
  admitted := by
    rw [emitEdges, finalState, tally_crossModule]
    refine sum_relations (w := fun agg => agg.partitions.admitted view) ?_ ?_ input.imports
    · simp [PartitionCounts.admitted, default]
    · intro imp agg
      rw [EdgeAggregate.partitions_add, PartitionCounts.admitted_add]
  excluded := by
    intro group
    rw [emitEdges, ImportRemainder.get_fromRelations, List.map_map]
    rfl
  split := fun counts => counts.total_eq_admitted_add_excluded view
  importCount := by
    intro edge hedge
    have hmem := (sortBy_perm _ _).mem_iff.mp hedge
    obtain ⟨entry, hentry, he⟩ := List.mem_filterMap.mp hmem
    obtain ⟨-, -, -, -, hcount, -⟩ := edgeOf_eq_some.mp he
    exact ⟨entry.2.partitions, partitionsOf_emitted hentry he,
      hcount.trans (relations_sound input.imports entry hentry).1⟩
  absentOnce := by
    intro e he habsent
    obtain ⟨group, hshown, hpos⟩ :=
      ImportRemainder.shownBy_isSome view (relations_sound input.imports e he).2 habsent
    refine ⟨group, ⟨hshown, hpos⟩, ?_⟩
    rintro group' ⟨hshown', -⟩
    exact Option.some.inj (hshown'.symm.trans hshown)
  absentEdges := by
    intro group
    rw [emitEdges, ImportRemainder.get_fromRelations, List.countP_map]
    rfl

section Order

instance comparePaths_transCmp : Std.TransCmp comparePaths :=
  inferInstanceAs (Std.TransCmp (compareLex (compareOn ModuleDependencyEdge.sourceCanonicalPath)
    (compareOn ModuleDependencyEdge.targetCanonicalPath)))

lemma comparePaths_eq {a b : ModuleDependencyEdge} : comparePaths a b = .eq ↔
    a.sourceCanonicalPath = b.sourceCanonicalPath ∧ a.targetCanonicalPath = b.targetCanonicalPath := by
  simp [comparePaths, Ordering.then_eq_eq]

/-- The result is the same for every order of the imports. -/
def OrderFree (input : ModuleEdgeDerivationInput) (view : ImportView) : Prop :=
  ∀ (o : HashOrders) (imports : List ResolvedImportFact), imports.Perm input.imports →
    deriveModuleDependencyEdgesInView o { input with imports } view =
      deriveModuleDependencyEdgesInView o input view

/-- Two imports that the view admits and that relate named modules relate the same modules when the
paths of these are the same. -/
def PathsTell (input : ModuleEdgeDerivationInput) (view : ImportView) : Prop :=
  ∀ i ∈ input.imports, ∀ j ∈ input.imports, view.admits i.partition → view.admits j.partition →
    ∀ p q, crossing (ownerOf input.ownership) i = some p → crossing (ownerOf input.ownership) j = some q →
      ∀ source target, pathOf input.modules p.1 = some source → pathOf input.modules q.1 = some source →
        pathOf input.modules p.2 = some target → pathOf input.modules q.2 = some target → p = q

lemma emitEdges_perm {paths : IterMap String String} {s s' : DerivationState}
    (hd : s.diagnostics = s'.diagnostics) (h : s.relations.entries.Perm s'.relations.entries)
    (hties : ∀ a ∈ s.relations.entries.filterMap (edgeOf paths),
      ∀ b ∈ s.relations.entries.filterMap (edgeOf paths), comparePaths a b = .eq → a = b) :
    emitEdges view paths s = emitEdges view paths s' := by
  rw [emitEdges, emitEdges, hd, sortBy_eq_of_perm (h.filterMap _) hties,
    ImportRemainder.fromRelations_perm view (h.map _), ofList_perm (h.filterMap _) (partition_keys s.relations)]

lemma edges_untied (htell : PathsTell input view) :
    ∀ a ∈ (finalState o input view).relations.entries.filterMap (edgeOf (moduleLookup input.modules)),
      ∀ b ∈ (finalState o input view).relations.entries.filterMap (edgeOf (moduleLookup input.modules)),
        comparePaths a b = .eq → a = b := by
  intro a ha b hb htie
  obtain ⟨hsource, htarget⟩ := comparePaths_eq.mp htie
  obtain ⟨⟨p, agg⟩, hp, hae⟩ := List.mem_filterMap.mp ha
  obtain ⟨⟨q, agg'⟩, hq, hbe⟩ := List.mem_filterMap.mp hb
  obtain ⟨hpos, hp₁, hp₂, -⟩ := edgeOf_eq_some.mp hae
  obtain ⟨hpos', hq₁, hq₂, -⟩ := edgeOf_eq_some.mp hbe
  rw [lookup_moduleLookup] at hp₁ hp₂ hq₁ hq₂
  obtain ⟨i, hi, hadmits, hcross⟩ :=
    (relations_admitted input.imports p).mp ⟨agg, IterMap.mem_entries.mp hp, hpos⟩
  obtain ⟨j, hj, hadmits', hcross'⟩ :=
    (relations_admitted input.imports q).mp ⟨agg', IterMap.mem_entries.mp hq, hpos'⟩
  obtain rfl : p = q := htell i hi j hj hadmits hadmits' p q hcross hcross' _ _ hp₁ (hsource ▸ hq₁) hp₂
    (htarget ▸ hq₂)
  obtain rfl : agg = agg' :=
    Option.some.inj ((IterMap.mem_entries.mp hp).symm.trans (IterMap.mem_entries.mp hq))
  exact Option.some.inj (hae.symm.trans hbe)

lemma PathsTell.orderFree (htell : SingleOwned input.ownership → PathsTell input view) : OrderFree input view := by
  intro o imports hperm
  by_cases hsingle : SingleOwned input.ownership
  · rw [(derivation_ok o { input with imports } view hsingle).2, (derivation_ok o input view hsingle).2]
    refine congrArg (fun r => Except.ok (Except.ok r)) (emitEdges_perm ?_ ?_ ?_).symm
    · exact tally_perm hperm.symm _
    · exact relations_perm hperm.symm _ _
    · exact edges_untied (htell hsingle)
  · obtain ⟨err, herr⟩ := derivation_error o hsingle
    rw [(herr imports view).2]
    exact (herr input.imports view).2.symm

variable {owner : String → Option String}

/-- Without rehashing, the entry made first stays last. -/
lemma relate_last {m : Relations} {front : List (Σ _ : String × String, EdgeAggregate)}
    {e : Σ _ : String × String, EdgeAggregate} (h : m.entries = front ++ [e]) (imp : ResolvedImportFact) :
    ∃ front' e', (relate view owner HashOrders.asInserted.relations m imp).entries = front' ++ [e'] ∧
      e'.1 = e.1 := by
  rw [relate]
  cases crossing owner imp with
  | none => exact ⟨front, e, h, rfl⟩
  | some pair =>
    by_cases hpair : (m.lookup pair).isSome
    · let bump : (Σ _ : String × String, EdgeAggregate) → Σ _ : String × String, EdgeAggregate :=
        fun x => ⟨x.1, if x.1 = pair then EdgeAggregate.add view imp x.2 else x.2⟩
      refine ⟨front.map bump, bump e, ?_, rfl⟩
      simp only [IterMap.entryOrDefault, if_pos hpair, IterMap.modify, h, List.map_append, List.map_cons,
        List.map_nil, bump]
    · have hnone : pair ∉ m := by
        rw [← AList.lookup_eq_none]
        simpa using hpair
      refine ⟨⟨pair, EdgeAggregate.add view imp default⟩ :: front, e, ?_, rfl⟩
      simp only [IterMap.entryOrDefault, if_neg hpair, IterMap.insertIn]
      change (m.insert pair _).entries = _
      rw [AList.entries_insert_of_notMem hnone, h]
      rfl

lemma relations_last (view : ImportView) {i : ResolvedImportFact} {p : String × String}
    (hcross : crossing owner i = some p) (rest : List ResolvedImportFact) :
    ∃ front e, ((i :: rest).foldl (relate view owner HashOrders.asInserted.relations) ∅).entries = front ++ [e] ∧
      e.1 = p := by
  have hfold : ∀ m : Relations, (∃ front e, m.entries = front ++ [e] ∧ e.1 = p) →
      ∃ front e, (rest.foldl (relate view owner HashOrders.asInserted.relations) m).entries = front ++ [e] ∧
        e.1 = p := by
    induction rest with
    | nil => exact fun m h => h
    | cons j rest ih =>
      rintro m ⟨front, e, hm, rfl⟩
      obtain ⟨front', e', hm', he'⟩ := relate_last hm j
      exact ih _ ⟨front', e', hm', he'⟩
  apply hfold
  refine ⟨[], ⟨p, EdgeAggregate.add view i default⟩, ?_, rfl⟩
  simp only [relate, hcross]
  rfl

def withFirst (input : ModuleEdgeDerivationInput) (i : ResolvedImportFact) : ModuleEdgeDerivationInput :=
  { input with imports := i :: input.imports.erase i }

lemma withFirst_perm {i : ResolvedImportFact} (hi : i ∈ input.imports) :
    (withFirst input i).imports.Perm input.imports :=
  (List.perm_cons_erase hi).symm

def emitted (input : ModuleEdgeDerivationInput) (view : ImportView) : List ModuleDependencyEdge :=
  (emitEdges view (moduleLookup input.modules) (finalState .asInserted input view)).edges

def EdgeFor (input : ModuleEdgeDerivationInput) (view : ImportView) (pair : String × String)
    (edge : ModuleDependencyEdge) : Prop :=
  ∃ agg, ⟨pair, agg⟩ ∈ (finalState .asInserted input view).relations.entries ∧
    edgeOf (moduleLookup input.modules) ⟨pair, agg⟩ = some edge

lemma exists_edgeFor {pair : String × String} {i : ResolvedImportFact} {source target : String}
    (hi : i ∈ input.imports) (hadmits : view.admits i.partition)
    (hcross : crossing (ownerOf input.ownership) i = some pair) (h₁ : pathOf input.modules pair.1 = some source)
    (h₂ : pathOf input.modules pair.2 = some target) :
    ∃ edge, EdgeFor input view pair edge ∧ edge.sourceCanonicalPath = source ∧
      edge.targetCanonicalPath = target := by
  have hadmitted : ∃ imp ∈ input.imports, view.admits imp.partition ∧
      crossing (ownerOf input.ownership) imp = some pair := ⟨i, hi, hadmits, hcross⟩
  rw [← relations_admitted (o := HashOrders.asInserted.relations)] at hadmitted
  obtain ⟨agg, hagg, hpos⟩ := hadmitted
  refine ⟨⟨pair.1, source, pair.2, target, agg.importCount, agg.sourceFiles.size⟩,
    ⟨agg, IterMap.mem_entries.mpr hagg, ?_⟩, rfl, rfl⟩
  rw [edgeOf_eq_some, lookup_moduleLookup, lookup_moduleLookup]
  exact ⟨hpos, h₁, h₂, rfl, rfl, rfl⟩

lemma EdgeFor.withFirst {pair : String × String} {edge : ModuleDependencyEdge} (h : EdgeFor input view pair edge)
    {i : ResolvedImportFact} (hi : i ∈ input.imports) : EdgeFor (withFirst input i) view pair edge := by
  obtain ⟨agg, hagg, hedge⟩ := h
  exact ⟨agg, (relations_perm (withFirst_perm hi) _ _).mem_iff.mpr hagg, hedge⟩

/-- With an import of `p` listed first, the edge of `p` comes after any edge that ties with it. -/
lemma tied_edges_sublist {i : ResolvedImportFact} {p q : String × String} (hne : p ≠ q)
    (hcross : crossing (ownerOf input.ownership) i = some p) {e e' : ModuleDependencyEdge}
    (he : EdgeFor (withFirst input i) view p e) (he' : EdgeFor (withFirst input i) view q e')
    (htie : comparePaths e' e = .eq) : [e', e].Sublist (emitted (withFirst input i) view) := by
  refine pair_sublist_sortBy htie ?_
  obtain ⟨a, ha, hedge⟩ := he
  obtain ⟨b, hb, hedge'⟩ := he'
  obtain ⟨front, last, hentries, rfl⟩ := relations_last view hcross (input.imports.erase i)
  change (finalState .asInserted (withFirst input i) view).relations.entries = front ++ [last] at hentries
  rw [hentries] at ha hb ⊢
  have hlast : last = ⟨last.1, a⟩ := by
    have hmem : ⟨last.1, last.2⟩ ∈ (finalState .asInserted (withFirst input i) view).relations.entries := by
      simp [hentries]
    rw [← hentries] at ha
    have hval := Option.some.inj ((IterMap.mem_entries.mp hmem).symm.trans (IterMap.mem_entries.mp ha))
    exact Sigma.ext rfl (heq_of_eq hval)
  have hfront : (⟨q, b⟩ : Σ _ : String × String, EdgeAggregate) ∈ front := by
    rcases List.mem_append.mp hb with hb | hb
    · exact hb
    · exact absurd (congrArg Sigma.fst (List.mem_singleton.mp hb)) (fun h => hne h.symm)
  have hsub : ([⟨q, b⟩, ⟨last.1, a⟩] : List (Σ _ : String × String, EdgeAggregate)).Sublist (front ++ [last]) := by
    rw [← hlast]
    exact (List.singleton_sublist.mpr hfront).append (List.Sublist.refl _)
  have hpair := hsub.filterMap (edgeOf (moduleLookup (withFirst input i).modules))
  rw [List.filterMap_cons_some hedge', List.filterMap_cons_some hedge, List.filterMap_nil] at hpair
  exact hpair

lemma OrderFree.emitted_withFirst (hfree : OrderFree input view) (hsingle : SingleOwned input.ownership)
    {i : ResolvedImportFact} (hi : i ∈ input.imports) : emitted (withFirst input i) view = emitted input view := by
  have h := hfree .asInserted _ (withFirst_perm hi)
  rw [(derivation_ok .asInserted input view hsingle).2] at h
  change deriveModuleDependencyEdgesInView .asInserted (withFirst input i) view = _ at h
  rw [(derivation_ok .asInserted (withFirst input i) view hsingle).2] at h
  exact congrArg (·.edges) (Except.ok.inj (Except.ok.inj h))

lemma OrderFree.pathsTell (hfree : OrderFree input view) (hsingle : SingleOwned input.ownership) :
    PathsTell input view := by
  intro i hi j hj hadmits hadmits' p q hp hq source target hp₁ hq₁ hp₂ hq₂
  by_contra hne
  obtain ⟨e, he, hsource, htarget⟩ := exists_edgeFor hi hadmits hp hp₁ hp₂
  obtain ⟨e', he', hsource', htarget'⟩ := exists_edgeFor hj hadmits' hq hq₁ hq₂
  have htie : comparePaths e e' = .eq :=
    comparePaths_eq.mpr ⟨hsource.trans hsource'.symm, htarget.trans htarget'.symm⟩
  have hqp := tied_edges_sublist hne hp (he.withFirst hi) (he'.withFirst hi) (Std.OrientedCmp.eq_symm htie)
  have hpq := tied_edges_sublist (fun h => hne h.symm) hq (he'.withFirst hj) (he.withFirst hj) htie
  rw [hfree.emitted_withFirst hsingle hi] at hqp
  rw [hfree.emitted_withFirst hsingle hj] at hpq
  have hdistinct : e' ≠ e := by
    rintro rfl
    obtain ⟨_, -, hedge⟩ := he
    obtain ⟨_, -, hedge'⟩ := he'
    obtain ⟨-, -, -, hkey, -⟩ := edgeOf_eq_some.mp hedge
    obtain ⟨-, -, -, hkey', -⟩ := edgeOf_eq_some.mp hedge'
    exact hne (hkey.symm.trans hkey')
  exact not_pair_sublist_swap ((sortBy_perm _ _).nodup_iff.mpr (nodup_edges _)) hdistinct hqp hpq

/-- A derivation returns, its accounts agree, and the order of the imports does not show exactly when
tied paths are the paths of one relation. -/
theorem module_edges_conserve (input : ModuleEdgeDerivationInput) (view : ImportView) :
    (∀ o, (∃ s result, deriveRelations o input view = .ok (.ok s) ∧
          deriveModuleDependencyEdgesInView o input view = .ok (.ok result) ∧
          Conserved input view s.relations result) ∨
        ¬ SingleOwned input.ownership ∧
          ∃ err, deriveModuleDependencyEdgesInView o input view = .ok (.error err)) ∧
      (OrderFree input view ↔ (SingleOwned input.ownership → PathsTell input view)) := by
  refine ⟨fun o => ?_, fun hfree hsingle => hfree.pathsTell hsingle, PathsTell.orderFree⟩
  by_cases hsingle : SingleOwned input.ownership
  · obtain ⟨hrelations, hresult⟩ := derivation_ok o input view hsingle
    exact Or.inl ⟨_, _, hrelations, hresult, finalState_conserved o input view⟩
  · obtain ⟨err, herr⟩ := derivation_error o hsingle
    exact Or.inr ⟨hsingle, err, (herr input.imports view).2⟩

namespace Fixture

def imported (source target : String) : ResolvedImportFact := ⟨source, target, ⟨.certain, .production⟩⟩

/-- Two manifests declare modules at the same two roots, one for each language. -/
def twoManifests : ModuleEdgeDerivationInput where
  imports := [imported "a.ts" "lib/b.ts", imported "a.py" "lib/b.py"]
  ownership := [⟨"a.ts", "npm:."⟩, ⟨"lib/b.ts", "npm:lib"⟩, ⟨"a.py", "py:."⟩, ⟨"lib/b.py", "py:lib"⟩]
  modules := [⟨"npm:.", "."⟩, ⟨"npm:lib", "lib"⟩, ⟨"py:.", "."⟩, ⟨"py:lib", "lib"⟩]

end Fixture

/-- The two edges tie, so the import listed first decides which of them comes first. -/
theorem two_manifests_order_shows : ¬ OrderFree Fixture.twoManifests .all := by
  intro hfree
  have htell := hfree.pathsTell (by decide) (Fixture.imported "a.ts" "lib/b.ts") (by decide)
    (Fixture.imported "a.py" "lib/b.py") (by decide) (by decide) (by decide)
      ("npm:.", "npm:lib") ("py:.", "py:lib")
    (by decide) (by decide) "." "lib" (by decide) (by decide) (by decide) (by decide)
  revert htell
  decide

end Order

end RepoGraph.Classification
