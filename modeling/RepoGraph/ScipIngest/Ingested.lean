import RepoGraph.ScipIngest.Closure

/-! What holds of every ingested partition, whatever the index, the files and the extractor say. -/

namespace RepoGraph.ScipIngest

open Lib Lib.Text Ir

variable (out : Outside) (root repoUid partitionId : String) (producer : Producer) (partitionPrefix : String)
  (documents : List Document)

section Spec

def importsOf : List (Option IrEdge) :=
  let pass := firstPass out root repoUid partitionId producer partitionPrefix documents
  importsFound out.order repoUid pass.nodeKeys producer (perDocument pass (·.imports))

lemma ingestPartition_spec :
    let o := ingestPartition out root repoUid partitionId producer partitionPrefix documents
    let pass := firstPass out root repoUid partitionId producer partitionPrefix documents
    let found := importsOf out root repoUid partitionId producer partitionPrefix documents
    o.ir.nodes = pass.nodes ∧ o.nodeCounts = pass.nodeCounts ∧ o.importsResolved = found.countP (·.isSome) ∧
      o.importsNotCaptured = found.countP (·.isNone) ∧
      ∃ derived, o.ir.edges = derived ++ found.filterMap id ∧ o.edgesReport.Counts derived ∧
        ∀ e ∈ derived, DerivedIn out root repoUid partitionPrefix pass documents e := by
  intro o pass found
  have hafter := @firstPass_after out root repoUid partitionId producer partitionPrefix documents
  have hread : ∀ d ∈ documents.zip pass.factsByDoc, ∀ facts, d.2 = some facts →
      d.1 ∈ documents ∧ ∃ keyPath, Read out root repoUid partitionPrefix d.1 keyPath facts := by
    rintro ⟨doc, facts?⟩ hd facts rfl
    refine ⟨(List.of_mem_zip hd).1, ?_⟩
    have hzip : pass.factsByDoc = (pass.factsByDoc.zip pass.docKeyPaths).map Prod.fst := by
      rw [List.map_fst_zip hafter.aligned.le]
    rw [hzip, List.zip_map_right, List.mem_map] at hd
    obtain ⟨⟨doc', facts', keyPath⟩, hmem, heq⟩ := hd
    obtain ⟨rfl, rfl⟩ := Prod.mk.inj heq
    exact ⟨keyPath, (List.forall₂_iff_zip.mp hafter.read).2 hmem facts |>.mp rfl⟩
  obtain ⟨r, derived, hsecond, hderived, hcounts⟩ := secondPass_spec producer pass hread
  have himports : resolveImportEdges out.order repoUid pass.nodeKeys producer (perDocument pass (·.imports)) =
      importSummary found := resolveImportEdges_eq ..
  have ho : o.ir.edges = derived ++ found.filterMap id ∧ o.edgesReport = r ∧
      o.importsResolved = found.countP (·.isSome) ∧ o.importsNotCaptured = found.countP (·.isNone) := by
    simp only [o, ingestPartition, pass, hsecond, himports, importSummary, and_self]
  refine ⟨rfl, rfl, ho.2.2.1, ho.2.2.2, derived, ho.1, ?_, hderived⟩
  rw [ho.2.1]
  exact hcounts

end Spec

section Closed

def Closed (ir : PartitionIr) : Prop :=
  ∀ e ∈ ir.edges, (∃ n ∈ ir.nodes, n.key = e.src) ∧ ∃ n ∈ ir.nodes, n.key = e.dst

theorem ingest_closed : Closed
    (ingestPartition out root repoUid partitionId producer partitionPrefix documents).ir := by
  intro e he
  let ir := (ingestPartition out root repoUid partitionId producer partitionPrefix documents).ir
  obtain ⟨hnodes, -, -, -, derived, hedges, -, hderived⟩ :=
    ingestPartition_spec out root repoUid partitionId producer partitionPrefix documents
  have hknown := (@firstPass_after out root repoUid partitionId producer partitionPrefix documents).known
  have hend : ∀ k : CanonicalKey, (k.asStr ∈ (firstPass out root repoUid partitionId producer partitionPrefix
      documents).nodeKeys) → ∃ n ∈ ir.nodes, n.key = k := by
    intro k hk
    obtain ⟨n, hn, hkey⟩ := (hknown.keys k.asStr).mp hk
    exact ⟨n, hnodes ▸ hn, congrArg CanonicalKey.fromExisting hkey⟩
  rw [hedges, List.mem_append] at he
  rcases he with he | he
  · obtain ⟨doc, -, keyPath, facts, -, occ, -, line0, col, source, target, hedge⟩ := hderived e he
    refine ⟨hend e.src ?_, ?_⟩
    · rw [hedge.src]
      exact (enclosingMaterializedNode_spec hedge.caller).2.1
    · obtain ⟨n, hn, hkey, -⟩ := hknown.symbols _ _ hedge.callee
      refine ⟨n, hnodes ▸ hn, congrArg CanonicalKey.fromExisting ?_⟩
      rw [hkey, hedge.dst]
  · obtain ⟨found, hfound, rfl⟩ := List.mem_filterMap.mp he
    obtain ⟨imp, -, hedge⟩ := List.mem_map.mp hfound
    obtain ⟨hsrc, dstKey, hdst, rfl⟩ := (importEdge?_eq_some _ _).mp hedge
    exact ⟨hend _ hsrc, hend _ (buildFileIndex_eq_some _ _ _ hdst).1⟩

end Closed

section Counts

lemma importsOf_edge {e : IrEdge}
    (h : e ∈ (importsOf out root repoUid partitionId producer partitionPrefix documents).filterMap id) :
    e.edgeType = .imports ∧ e.basis = .astImport := by
  obtain ⟨found, hfound, rfl⟩ := List.mem_filterMap.mp h
  obtain ⟨imp, -, hedge⟩ := List.mem_map.mp hfound
  obtain ⟨-, dstKey, -, rfl⟩ := (importEdge?_eq_some _ _).mp hedge
  exact ⟨rfl, rfl⟩

lemma length_importsOf :
    (importsOf out root repoUid partitionId producer partitionPrefix documents).length =
      ((perDocument (firstPass out root repoUid partitionId producer partitionPrefix documents) (·.imports)).map
        (·.2.length)).sum := by
  rw [importsOf, importsFound, List.length_map, importsIn, List.length_flatMap]
  simp only [List.length_map]

lemma DerivedIn.kinds {pass : FirstPass} {e : IrEdge}
    (h : DerivedIn out root repoUid partitionPrefix pass documents e) :
    (e.edgeType = .calls ↔ e.basis = .syntaxConfirmedCall) ∧
      (e.edgeType = .references ↔ ¬ e.basis = .syntaxConfirmedCall) ∧ e.edgeType ≠ .imports ∧
      e.basis ≠ .astImport := by
  obtain ⟨doc, -, keyPath, facts, -, occ, -, line0, col, source, target, hedge⟩ := h
  rcases hedge.basis with ⟨ht, hb⟩ | ⟨ht, hb | hb⟩ <;> simp [ht, hb]

/-- The reports count what is in the partition: every reference has a caller or none, every edge is in one class,
and every import of a file that was read is captured or not. -/
structure IngestOutcome.Counted (o : IngestOutcome) (importsRead : ℕ) : Prop where
  callers : o.edgesReport.totalRefs = o.edgesReport.callerResolved + o.edgesReport.noCaller
  calls : o.edgesReport.calls = o.ir.edges.countP (·.edgeType = .calls)
  references : o.edgesReport.references + o.edgesReport.fileScopeRefs =
    o.ir.edges.countP (·.edgeType = .references)
  fileScopeRefs : o.edgesReport.fileScopeRefs = o.ir.edges.countP (·.basis = .fileScopeReference)
  imports : o.importsResolved = o.ir.edges.countP (·.edgeType = .imports)
  captured : o.importsResolved + o.importsNotCaptured = importsRead
  edges : o.ir.edges.length ≤ min o.edgesReport.callerResolved o.edgesReport.calleeResolved + o.importsResolved
  reconciled : o.nodeCounts.reconciled ≤ o.nodeCounts.matched
  matched : o.nodeCounts.matched = o.ir.nodes.countP (·.identitySource = .astAdopted)
  fallback : o.nodeCounts.fallback = o.ir.nodes.countP (·.identitySource = .scipSynthesizedFallback)
  fileScope : o.nodeCounts.fileScope = o.ir.nodes.countP (·.identitySource = .astFileScope)

theorem ingest_counts :
    (ingestPartition out root repoUid partitionId producer partitionPrefix documents).Counted
      ((perDocument (firstPass out root repoUid partitionId producer partitionPrefix documents) (·.imports)).map
        (·.2.length)).sum := by
  let o := ingestPartition out root repoUid partitionId producer partitionPrefix documents
  obtain ⟨hnodes, hcounts, hresolved, hmissed, derived, hedges, hreport, hderived⟩ :=
    ingestPartition_spec out root repoUid partitionId producer partitionPrefix documents
  have hafter := @firstPass_after out root repoUid partitionId producer partitionPrefix documents
  change o.edgesReport.Counts derived at hreport
  have hkinds := fun e he => (hderived e he).kinds
  have himports := fun e => @importsOf_edge out root repoUid partitionId producer partitionPrefix documents e
  have hlength := length_importsOf out root repoUid partitionId producer partitionPrefix documents
  set found := importsOf out root repoUid partitionId producer partitionPrefix documents
  -- the import edges are in none of the classes of the others
  have hnone : ∀ p : IrEdge → Bool, (∀ e, e.edgeType = .imports → e.basis = .astImport → p e = false) →
      o.ir.edges.countP p = derived.countP p := by
    intro p hp
    have hzero : (found.filterMap id).countP p = 0 := by
      rw [List.countP_eq_zero]
      intro e he
      simp [hp e (himports e he).1 (himports e he).2]
    rw [hedges, List.countP_append, hzero, Nat.add_zero]
  have hcalls : derived.countP (·.edgeType = .calls) = o.edgesReport.calls := by
    rw [hreport.calls]
    exact List.countP_congr fun e he => by simpa using (hkinds e he).1
  have hreferences : derived.countP (·.edgeType = .references) = o.edgesReport.references +
      o.edgesReport.fileScopeRefs := by
    have hsplit := List.length_eq_countP_add_countP (fun e : IrEdge => decide (e.edgeType = .calls)) (l := derived)
    have hrest : derived.countP (fun e => decide ¬ decide (e.edgeType = .calls) = true) =
        derived.countP (·.edgeType = .references) := List.countP_congr fun e he => by
      obtain ⟨hc, hr, -, -⟩ := hkinds e he
      simp [hc, hr]
    have hemitted := hreport.emitted
    omega
  have hcaptured : (found.filterMap id).length = o.importsResolved := by
    rw [List.length_filterMap_eq_countP, hresolved]
    rfl
  change o.Counted _
  refine ⟨hreport.callers, ?_, ?_, ?_, ?_, ?_, ?_, ?_, ?_, ?_, ?_⟩
  · rw [hnone _ fun e ht _ => by simp [ht], hcalls]
  · rw [hnone _ fun e ht _ => by simp [ht], hreferences]
  · rw [hnone _ fun e _ hb => by simp [hb], hreport.fileScopeRefs]
  · have hderived : derived.countP (·.edgeType = .imports) = 0 := by
      rw [List.countP_eq_zero]
      intro e he
      simpa using (hkinds e he).2.2.1
    have hall : (found.filterMap id).countP (·.edgeType = .imports) = (found.filterMap id).length := by
      rw [List.countP_eq_length]
      intro e he
      simpa using (himports e he).1
    rw [hedges, List.countP_append, hderived, hall, hcaptured, Nat.zero_add]
  · rw [hresolved, hmissed, ← hlength, List.length_eq_countP_add_countP (fun e : Option IrEdge => e.isSome)]
    congr 1
    exact List.countP_congr fun e _ => by cases e <;> simp
  · rw [hedges, List.length_append, hcaptured]
    have hcaller := hreport.withCaller
    have hcallee := hreport.withCallee
    omega
  · exact hcounts ▸ hafter.reconciled
  · rw [hcounts, hafter.counted.adopted, hnodes]
  · rw [hcounts, hafter.counted.synthesized, hnodes]
  · rw [hcounts, hafter.counted.fileScopes, hnodes]

end Counts

section Calls

/-- A call is written in a file of the partition: a reference to the symbol of its target stands where a call
of that name is written, and its source is the innermost node around that place, which is not the scope of a
file. -/
def CallsWritten (ir : PartitionIr) : Prop :=
  ∀ e ∈ ir.edges, e.edgeType = .calls →
    ∃ doc ∈ documents, ∃ keyPath facts, Read out root repoUid partitionPrefix doc keyPath facts ∧
      ∃ occ ∈ doc.occurrences, occ.isDefinition = false ∧ e.provenance.scipSymbolId = some occ.symbol ∧
        ∃ line0 col, occ.start = some (line0, col) ∧
          (∃ caller ∈ facts.nodes, caller.stableKey = e.src.asStr ∧ caller.isFileScope = false ∧
            containsPoint caller (line0 + 1) col ∧
            ∀ m ∈ facts.nodes, (∃ n ∈ ir.nodes, n.key.asStr = m.stableKey) → containsPoint m (line0 + 1) col →
              spanSize caller ≤ spanSize m) ∧
          ∃ callee ∈ ir.nodes, callee.key = e.dst ∧ callee.provenance.scipSymbolId = some occ.symbol ∧
            ∃ site ∈ facts.callSites, site.callee = callee.name ∧
              spans site.lineStart site.colStart site.lineEnd site.colEnd (line0 + 1) col

theorem ingest_call_written :
    CallsWritten out root repoUid partitionPrefix documents
      (ingestPartition out root repoUid partitionId producer partitionPrefix documents).ir := by
  intro e he hcall
  obtain ⟨hnodes, -, -, -, derived, hedges, -, hderived⟩ :=
    ingestPartition_spec out root repoUid partitionId producer partitionPrefix documents
  have hknown := (@firstPass_after out root repoUid partitionId producer partitionPrefix documents).known
  rw [hedges, List.mem_append] at he
  rcases he with he | he
  · obtain ⟨doc, hdoc, keyPath, facts, hread, occ, hocc, line0, col, source, target, hedge⟩ := hderived e he
    obtain ⟨hmem, -, hpoint, hinner⟩ := enclosingMaterializedNode_spec hedge.caller
    obtain ⟨callee, hcallee, hkey, hname, hsymbol, -⟩ := hknown.symbols _ _ hedge.callee
    have hkind := hedge.kind
    rcases edgeKind_cases facts source target (line0 + 1) col with ⟨hk, -⟩ | ⟨-, hscope, hat⟩ | ⟨hk, -⟩
    · simp [hk, hcall] at hkind
    · obtain ⟨site, hsite, hwritten⟩ := List.any_eq_true.mp hat
      rw [Bool.and_eq_true, decide_eq_true_eq] at hwritten
      refine ⟨doc, hdoc, keyPath, facts, hread, occ, hocc, hedge.reference,
        hedge.provenance, line0, col, hedge.start, ⟨source, hmem, hedge.src.symm, hscope, hpoint, ?_⟩, ?_⟩
      · rintro m hm ⟨n, hn, hnm⟩ hcontains
        exact hinner m hm ((hknown.keys _).mpr ⟨n, hnodes ▸ hn, hnm⟩) hcontains
      · exact ⟨callee, hnodes ▸ hcallee, congrArg CanonicalKey.fromExisting (hkey.trans hedge.dst.symm),
          hsymbol, site, hsite, hwritten.1.trans hname.symm, hwritten.2⟩
    · simp [hk, hcall] at hkind
  · have himport := (importsOf_edge out root repoUid partitionId producer partitionPrefix documents he).1
    rw [hcall] at himport
    cases himport

end Calls

section Observations

def IsFileOf (resolvedPath : String) (n : IrNode) : Prop :=
  (filePathOf repoUid n.key.asStr).map stripTsExt = some resolvedPath

instance (resolvedPath : String) (n : IrNode) : Decidable (IsFileOf repoUid resolvedPath n) :=
  inferInstanceAs (Decidable (_ = _))

def observed (nodes : List IrNode) (external : String → Bool)
    (q : String × TsImportObservation) : ImportObservation :=
  let o := q.2
  let resolution :=
    if o.isDynamic then .dynamicUnsupported
    else if !o.isRelative then .packageExternal
    else if ∃ path ∈ o.resolvedPath, ∃ n ∈ nodes, IsFileOf repoUid path n then .staticResolved
    else .staticUnresolved
  ⟨q.1, o.rawSpecifier, resolution, o.isReExport, o.isTypeOnly, o.isSideEffect,
    !o.isRelative && external (ingestPackageNameOf o.rawSpecifier)⟩

variable {out root repoUid partitionId producer partitionPrefix documents}

lemma exists_names_iff {st : FirstPass} {nodes : List IrNode} (h : st.Known nodes) (resolvedPath : String) :
    (∃ key, Names repoUid st.nodeKeys resolvedPath key) ↔ ∃ n ∈ nodes, IsFileOf repoUid resolvedPath n := by
  constructor
  · rintro ⟨key, hkey, hpath⟩
    obtain ⟨n, hn, rfl⟩ := (h.keys key).mp hkey
    exact ⟨n, hn, hpath⟩
  · rintro ⟨n, hn, hpath⟩
    exact ⟨n.key.asStr, (h.keys _).mpr ⟨n, hn, rfl⟩, hpath⟩

lemma observedResolution_eq {st : FirstPass} {nodes : List IrNode} (h : st.Known nodes) (order : IterOrder)
    (o : TsImportObservation) :
    observedResolution (buildFileIndex order repoUid st.nodeKeys) o =
      if o.isDynamic then .dynamicUnsupported
      else if !o.isRelative then .packageExternal
      else if ∃ path ∈ o.resolvedPath, ∃ n ∈ nodes, IsFileOf repoUid path n then .staticResolved
      else .staticUnresolved := by
  have hcontains : (o.resolvedPath.map (buildFileIndex order repoUid st.nodeKeys).contains).getD false = true ↔
      ∃ path ∈ o.resolvedPath, ∃ n ∈ nodes, IsFileOf repoUid path n := by
    cases o.resolvedPath with
    | none => simp
    | some path =>
      rw [Option.map_some, Option.getD_some, Std.ExtTreeMap.contains_iff_mem,
        Std.ExtTreeMap.mem_iff_isSome_getElem?, buildFileIndex_isSome, exists_names_iff h]
      simp
  rw [observedResolution]
  split
  · rfl
  · split
    · rfl
    · exact if_congr hcontains rfl rfl

lemma classifyObservation_spec {st : FirstPass} {nodes : List IrNode} (h : st.Known nodes) (order : IterOrder)
    (external : String → Bool) (nmMemo : HashMap String Bool) (q : String × TsImportObservation)
    (hmemo : Memo.Valid external nmMemo) :
    let answer := classifyObservation external (buildFileIndex order repoUid st.nodeKeys) nmMemo q
    answer.1 = observed repoUid nodes external q ∧ Memo.Valid external answer.2 := by
  intro answer
  have hresolution := @observedResolution_eq repoUid st nodes h order q.2
  cases hrelative : q.2.isRelative with
  | true =>
    simp only [answer, classifyObservation, observed, hrelative, hresolution, if_true, Bool.not_true,
      Bool.false_and, true_and]
    exact hmemo
  | false =>
    cases hcached : nmMemo[ingestPackageNameOf q.2.rawSpecifier]? with
    | some cached =>
      have hvalue := hmemo _ _ hcached
      simp only [answer, classifyObservation, observed, hrelative, hcached, hresolution, hvalue]
      exact ⟨rfl, hmemo⟩
    | none =>
      simp only [answer, classifyObservation, observed, hrelative, hcached, hresolution]
      exact ⟨rfl, hmemo.insert rfl⟩

variable (out root repoUid partitionId producer partitionPrefix documents)

lemma importObservations_eq :
    let o := ingestPartition out root repoUid partitionId producer partitionPrefix documents
    let pass := firstPass out root repoUid partitionId producer partitionPrefix documents
    o.ir.importObservations =
      (importsIn (perDocument pass (·.importObservations))).map (observed repoUid o.ir.nodes
      (resolvesExternalNodeModules out.canonicalize root (repoRootOf root partitionPrefix))) := by
  intro o pass
  have hknown : pass.Known o.ir.nodes :=
    (@firstPass_after out root repoUid partitionId producer partitionPrefix documents).known
  let external := resolvesExternalNodeModules out.canonicalize root (repoRootOf root partitionPrefix)
  exact @answers_eq_map _ _ _ (classifyObservation external (buildFileIndex out.order repoUid pass.nodeKeys))
    (Memo.Valid external) (observed repoUid o.ir.nodes external)
    (fun s q hs => classifyObservation_spec hknown out.order external s q hs) ∅ (Memo.valid_empty external)
    (importsIn (perDocument pass (·.importObservations)))

/-- The imports are observed by the nodes of the partition alone, and a static import has an edge just when its
own file is a node and the file it resolves to is one. -/
structure IngestOutcome.Observes (o : IngestOutcome) (external : String → Bool)
    (observations : List (String × TsImportObservation)) (imports : List (String × RawImport)) : Prop where
  observed : o.ir.importObservations = observations.map (observed repoUid o.ir.nodes external)
  edges : ∀ imp ∈ imports,
    (∃ e ∈ o.ir.edges, e.src.asStr = Indexer.fileKey repoUid imp.1 ∧
        e.imported = some ⟨imp.2.rawSpecifier, imp.2.resolvedPath, .staticResolved⟩) ↔
      (∃ n ∈ o.ir.nodes, n.key.asStr = Indexer.fileKey repoUid imp.1) ∧
        ∃ n ∈ o.ir.nodes, IsFileOf repoUid imp.2.resolvedPath n

/-- The observations are those of the files that were read. -/
theorem ingest_observations :
    (ingestPartition out root repoUid partitionId producer partitionPrefix documents).Observes repoUid
      (resolvesExternalNodeModules out.canonicalize root (repoRootOf root partitionPrefix))
      (importsIn (perDocument (firstPass out root repoUid partitionId producer partitionPrefix documents)
        (·.importObservations)))
      (importsIn (perDocument (firstPass out root repoUid partitionId producer partitionPrefix documents)
        (·.imports))) := by
  let o := ingestPartition out root repoUid partitionId producer partitionPrefix documents
  let pass := firstPass out root repoUid partitionId producer partitionPrefix documents
  obtain ⟨hnodes, -, -, -, derived, hedges, -, hderived⟩ :=
    ingestPartition_spec out root repoUid partitionId producer partitionPrefix documents
  have hknown := (@firstPass_after out root repoUid partitionId producer partitionPrefix documents).known
  refine ⟨importObservations_eq out root repoUid partitionId producer partitionPrefix documents, ?_⟩
  intro imp himp
  have hfound : ∀ e, e ∈ (importsOf out root repoUid partitionId producer partitionPrefix documents).filterMap id ↔
      ∃ q ∈ importsIn (perDocument pass (·.imports)), importEdge? pass.nodeKeys producer
        (buildFileIndex out.order repoUid pass.nodeKeys) (Indexer.fileKey repoUid q.1) q.2 = some e := fun e => by
    rw [importsOf, importsFound, List.filterMap_map, List.mem_filterMap]
    rfl
  have hfile : ∀ path, (buildFileIndex out.order repoUid pass.nodeKeys)[path]?.isSome ↔
      ∃ n ∈ o.ir.nodes, IsFileOf repoUid path n := fun path => by
    rw [buildFileIndex_isSome, exists_names_iff hknown, hnodes]
  have himporter : Indexer.fileKey repoUid imp.1 ∈ pass.nodeKeys ↔
      ∃ n ∈ o.ir.nodes, n.key.asStr = Indexer.fileKey repoUid imp.1 := by
    rw [hnodes]
    exact hknown.keys _
  rw [← himporter, ← hfile]
  constructor
  · rintro ⟨e, he, hsrc, himported⟩
    rw [hedges, List.mem_append, hfound] at he
    rcases he with he | ⟨q, -, hq⟩
    · obtain ⟨doc, -, keyPath, facts, -, occ, -, line0, col, source, target, hedge⟩ := hderived e he
      rw [hedge.imported] at himported
      cases himported
    · obtain ⟨hmem, dstKey, hdst, rfl⟩ := (importEdge?_eq_some _ _).mp hq
      simp only [Option.some.injEq, ImportEdgeMeta.mk.injEq] at himported
      rw [← himported.2.1, hdst]
      exact ⟨hsrc ▸ hmem, rfl⟩
  · rintro ⟨hmem, hsome⟩
    obtain ⟨dstKey, hdst⟩ := Option.isSome_iff_exists.mp hsome
    obtain ⟨e, hedge, hsrc, himported⟩ : ∃ e, importEdge? pass.nodeKeys producer
        (buildFileIndex out.order repoUid pass.nodeKeys) (Indexer.fileKey repoUid imp.1) imp.2 = some e ∧
          e.src.asStr = Indexer.fileKey repoUid imp.1 ∧
          e.imported = some ⟨imp.2.rawSpecifier, imp.2.resolvedPath, .staticResolved⟩ :=
      ⟨_, (importEdge?_eq_some _ _).mpr ⟨hmem, dstKey, hdst, rfl⟩, rfl, rfl⟩
    refine ⟨e, ?_, hsrc, himported⟩
    rw [hedges, List.mem_append, hfound]
    exact .inr ⟨imp, himp, hedge⟩

end Observations

section Order

def IterOrder.lastly (k : String) : IterOrder where
  iterate s := if k ∈ s then s.toList.erase k ++ [k] else s.toList
  perm s := by
    split
    · rename_i hk
      have hmem : k ∈ s.toList := Std.ExtTreeSet.mem_toList.mpr hk
      exact List.perm_append_comm.trans (List.perm_cons_erase hmem).symm
    · exact .refl _

lemma buildFileIndex_lastly {nodeKeys : HashSet String} {resolvedPath key : String}
    (h : Names repoUid nodeKeys resolvedPath key) :
    (buildFileIndex (.lastly key) repoUid nodeKeys)[resolvedPath]? = some key := by
  rw [buildFileIndex, foldl_indexFile, IterOrder.lastly]
  simp only [h.1, if_true]
  rw [List.reverse_append, List.reverse_singleton, List.singleton_append, List.find?_cons_of_pos]
  simpa using h.2

lemma firstPass_of_order (order : IterOrder) :
    firstPass { out with order := order } root repoUid partitionId producer partitionPrefix documents =
      firstPass out root repoUid partitionId producer partitionPrefix documents := by
  have hstep : firstPassDoc { out with order := order } root repoUid partitionId producer partitionPrefix =
      firstPassDoc out root repoUid partitionId producer partitionPrefix := by
    funext st doc
    rw [firstPassDoc, firstPassDoc]
  rw [firstPass, firstPass, hstep]

lemma partition_of_order (order : IterOrder) :
    (ingestPartition { out with order := order } root repoUid partitionId producer partitionPrefix
      documents).ir.partition =
      (ingestPartition out root repoUid partitionId producer partitionPrefix documents).ir.partition := by
  simp only [ingestPartition, readPackageManifest, readTsconfigAliases]

def derivedEdges : List IrEdge :=
  let pass := firstPass out root repoUid partitionId producer partitionPrefix documents
  ((documents.zip pass.factsByDoc).foldl (secondPassDoc producer pass) (.empty, [])).2

lemma ingestPartition_edges :
    (ingestPartition out root repoUid partitionId producer partitionPrefix documents).ir.edges =
      derivedEdges out root repoUid partitionId producer partitionPrefix documents ++
        (importsOf out root repoUid partitionId producer partitionPrefix documents).filterMap id := by
  simp only [ingestPartition, resolveImportEdges_eq, importSummary, importsOf, derivedEdges]

lemma ingestPartition_nodes :
    (ingestPartition out root repoUid partitionId producer partitionPrefix documents).ir.nodes =
      (firstPass out root repoUid partitionId producer partitionPrefix documents).nodes := by
  simp only [ingestPartition]

lemma ir_of_orders_eq_iff (order order' : IterOrder) :
    let pass := firstPass out root repoUid partitionId producer partitionPrefix documents
    (ingestPartition { out with order := order } root repoUid partitionId producer partitionPrefix documents).ir =
        (ingestPartition { out with order := order' } root repoUid partitionId producer
          partitionPrefix documents).ir ↔
      (importsFound order repoUid pass.nodeKeys producer (perDocument pass (·.imports))).filterMap id =
        (importsFound order' repoUid pass.nodeKeys producer (perDocument pass (·.imports))).filterMap id := by
  intro pass
  have hparts : ∀ order : IterOrder,
      let ir := (ingestPartition { out with order := order } root repoUid partitionId producer
        partitionPrefix documents).ir
      let o := ingestPartition out root repoUid partitionId producer partitionPrefix documents
      ir.partition = o.ir.partition ∧ ir.nodes = o.ir.nodes ∧ ir.importObservations = o.ir.importObservations ∧
        ir.edges = derivedEdges out root repoUid partitionId producer partitionPrefix documents ++
          (importsFound order repoUid pass.nodeKeys producer (perDocument pass (·.imports))).filterMap id := by
    intro order ir o
    have hnodes : ir.nodes = o.ir.nodes := by
      rw [ingestPartition_nodes, ingestPartition_nodes, firstPass_of_order]
    refine ⟨partition_of_order .., hnodes, ?_, ?_⟩
    · rw [importObservations_eq, importObservations_eq, firstPass_of_order, hnodes]
    · rw [ingestPartition_edges, derivedEdges, derivedEdges, importsOf, firstPass_of_order]
  obtain ⟨hp, hn, ho, he⟩ := hparts order
  obtain ⟨hp', hn', ho', he'⟩ := hparts order'
  constructor
  · intro h
    have hedges := congrArg PartitionIr.edges h
    rw [he, he'] at hedges
    exact List.append_cancel_left hedges
  · intro h
    rw [h, ← he'] at he
    exact PartitionIr.mk.injEq .. ▸ ⟨hp.trans hp'.symm, hn.trans hn'.symm, he, ho.trans ho'.symm⟩

/-- An import of a file of the partition is to one file of it at most: no two files that it resolves to differ in
their extensions only. -/
def IngestOutcome.OneTarget (o : IngestOutcome) (imports : List (String × RawImport)) : Prop :=
  ∀ imp ∈ imports, (∃ n ∈ o.ir.nodes, n.key.asStr = Indexer.fileKey repoUid imp.1) →
    ∀ n ∈ o.ir.nodes, ∀ n' ∈ o.ir.nodes, IsFileOf repoUid imp.2.resolvedPath n →
      IsFileOf repoUid imp.2.resolvedPath n' → n.key = n'.key

/-- The order in which the keys of the partition are iterated shows in it just when an import may be to several
files. -/
theorem ingest_order_independent_iff :
    (∀ order order', (ingestPartition { out with order := order } root repoUid partitionId producer
        partitionPrefix documents).ir =
        (ingestPartition { out with order := order' } root repoUid partitionId producer
          partitionPrefix documents).ir) ↔
      (ingestPartition out root repoUid partitionId producer partitionPrefix documents).OneTarget repoUid
        (importsIn (perDocument (firstPass out root repoUid partitionId producer partitionPrefix documents)
          (·.imports))) := by
  let pass := firstPass out root repoUid partitionId producer partitionPrefix documents
  let o := ingestPartition out root repoUid partitionId producer partitionPrefix documents
  have hknown : pass.Known o.ir.nodes :=
    (@firstPass_after out root repoUid partitionId producer partitionPrefix documents).known
  let edgeOf := fun (order : IterOrder) (q : String × RawImport) =>
    importEdge? pass.nodeKeys producer (buildFileIndex order repoUid pass.nodeKeys)
      (Indexer.fileKey repoUid q.1) q.2
  have hsome : ∀ order order' q, (edgeOf order q).isSome = (edgeOf order' q).isSome := by
    intro order order' q
    simp only [edgeOf, importEdge?]
    split
    · rw [Option.isSome_map, Option.isSome_map, Bool.eq_iff_iff, buildFileIndex_isSome, buildFileIndex_isSome]
    · rfl
  have hsame : ∀ order order',
      (ingestPartition { out with order := order } root repoUid partitionId producer partitionPrefix
      documents).ir = (ingestPartition { out with order := order' } root repoUid
        partitionId producer partitionPrefix
      documents).ir ↔ ∀ q ∈ importsIn (perDocument pass (·.imports)), edgeOf order q = edgeOf order' q := by
    intro order order'
    refine (ir_of_orders_eq_iff out root repoUid partitionId producer partitionPrefix
      documents order order').trans ?_
    rw [importsFound, importsFound, List.filterMap_map, List.filterMap_map]
    constructor
    · intro h
      exact eq_of_filterMap_eq (fun q _ => hsome order order' q) h
    · intro h
      exact List.filterMap_congr h
  simp only [hsame]
  constructor
  · rintro h imp himp ⟨m, hm, hmkey⟩ n hn n' hn' hfile hfile'
    have himporter : Indexer.fileKey repoUid imp.1 ∈ pass.nodeKeys := (hknown.keys _).mpr ⟨m, hm, hmkey⟩
    have hlast : ∀ k ∈ o.ir.nodes, IsFileOf repoUid imp.2.resolvedPath k →
        (buildFileIndex (.lastly k.key.asStr) repoUid pass.nodeKeys)[imp.2.resolvedPath]? = some k.key.asStr :=
      fun k hk hpath => buildFileIndex_lastly repoUid ⟨(hknown.keys _).mpr ⟨k, hk, rfl⟩, hpath⟩
    have heq := h (.lastly n.key.asStr) (.lastly n'.key.asStr) imp himp
    simp only [edgeOf, importEdge?, Std.ExtTreeSet.contains_iff_mem.mpr himporter, if_true, hlast n hn hfile,
      hlast n' hn' hfile', Option.map_some, Option.some.injEq, IrEdge.mk.injEq] at heq
    exact heq.2.1
  · intro h order order' q hq
    simp only [edgeOf, importEdge?]
    split
    · rename_i himporter
      obtain ⟨m, hm, hmkey⟩ := (hknown.keys _).mp (Std.ExtTreeSet.contains_iff_mem.mp himporter)
      have hindex : (buildFileIndex order repoUid pass.nodeKeys)[q.2.resolvedPath]? =
          (buildFileIndex order' repoUid pass.nodeKeys)[q.2.resolvedPath]? := by
        have hpresent : (buildFileIndex order repoUid pass.nodeKeys)[q.2.resolvedPath]?.isSome ↔
            (buildFileIndex order' repoUid pass.nodeKeys)[q.2.resolvedPath]?.isSome := by
          rw [buildFileIndex_isSome, buildFileIndex_isSome]
        cases hfound : (buildFileIndex order repoUid pass.nodeKeys)[q.2.resolvedPath]? with
        | none =>
          rw [hfound, Option.isSome_none, Bool.false_eq_true, false_iff, Option.not_isSome_iff_eq_none] at hpresent
          exact hpresent.symm
        | some key =>
          obtain ⟨key', hfound'⟩ := Option.isSome_iff_exists.mp (hpresent.mp (by rw [hfound]; rfl))
          obtain ⟨hkey, hpath⟩ := buildFileIndex_eq_some _ _ _ hfound
          obtain ⟨hkey', hpath'⟩ := buildFileIndex_eq_some _ _ _ hfound'
          obtain ⟨n, hn, rfl⟩ := (hknown.keys _).mp hkey
          obtain ⟨n', hn', rfl⟩ := (hknown.keys _).mp hkey'
          rw [hfound', h q hq ⟨m, hm, hmkey⟩ n hn n' hn' hpath hpath']
      rw [hindex]
    · rfl

end Order

end RepoGraph.ScipIngest
